/-
The connection gauges of `pkg/metrics/mem/server.go`, and the order in which
`server/control.go` and the proxies of `server/proxy` call it: `NewProxy` some
time after the proxy runs, connections as long as they last.
-/
import Frp.Lib.System
import Mathlib.Algebra.Ring.Int.Defs
import Mathlib.Algebra.Ring.Nat
import Mathlib.Data.List.Count

namespace Frp

open Transition

namespace Metrics

/-- The zero `time.Time` is `none`; times are in nanoseconds.  `curConns` is the
int32 of a StandardCounter. -/
structure ProxyStatistics where
  name : String
  proxyType : String
  curConns : Int32
  lastStartTime : Option Nat
  lastCloseTime : Option Nat
deriving DecidableEq, Repr

/-- `curConns` here counts the connections of all proxies. -/
structure ServerStatistics where
  curConns : Int32
  proxyTypeCounts : String → Option Int32
  proxyStatistics : String → Option ProxyStatistics

def newServerMetrics : ServerStatistics where
  curConns := 0
  proxyTypeCounts _ := none
  proxyStatistics _ := none

/-- Seven days. -/
def clearAfter : Nat := 7 * 24 * 3600 * 10 ^ 9

/-- A zero start time is before every other. -/
def ProxyStatistics.Useless (stats : ProxyStatistics) (now : Nat) : Prop :=
  ∃ closed ∈ stats.lastCloseTime,
    (∀ started ∈ stats.lastStartTime, started < closed) ∧
      closed + clearAfter < now

instance (stats : ProxyStatistics) (now : Nat) : Decidable (stats.Useless now) :=
  inferInstanceAs (Decidable (∃ closed ∈ stats.lastCloseTime, _ ∧ _))

namespace ServerStatistics

def clearUselessInfo (m : ServerStatistics) (now : Nat) : ServerStatistics :=
  { m with
    proxyStatistics := fun name =>
      (m.proxyStatistics name).filter fun stats => ¬ stats.Useless now }

def setStats (m : ServerStatistics) (name : String) (stats : ProxyStatistics) :
    ServerStatistics :=
  { m with
    proxyStatistics := Function.update m.proxyStatistics name (some stats) }

def newStats (name proxyType : String) : ProxyStatistics where
  name := name
  proxyType := proxyType
  curConns := 0
  lastStartTime := none
  lastCloseTime := none

/-- The entry that `NewProxy` goes on with: the old one, or a new one where there
is none or one of another type. -/
def statsFor (m : ServerStatistics) (name proxyType : String) :
    ProxyStatistics :=
  match m.proxyStatistics name with
  | none => newStats name proxyType
  | some stats =>
      if stats.proxyType = proxyType then stats else newStats name proxyType

def newProxy (m : ServerStatistics) (name proxyType : String) (now : Nat) :
    ServerStatistics :=
  { m with
    proxyTypeCounts := Function.update m.proxyTypeCounts proxyType
      (some ((m.proxyTypeCounts proxyType).getD 0 + 1)) }.setStats name
    { m.statsFor name proxyType with lastStartTime := some now }

def closeProxy (m : ServerStatistics) (name proxyType : String) (now : Nat) :
    ServerStatistics :=
  let counted := { m with
    proxyTypeCounts := Function.update m.proxyTypeCounts proxyType
      ((m.proxyTypeCounts proxyType).map fun count => count - 1) }
  match m.proxyStatistics name with
  | none => counted
  | some stats => counted.setStats name { stats with lastCloseTime := some now }

/-- `OpenConnection` with one, `CloseConnection` with minus one: neither looks at
the type it is given. -/
def addConns (m : ServerStatistics) (name : String) (delta : Int32) :
    ServerStatistics :=
  let total := { m with curConns := m.curConns + delta }
  match m.proxyStatistics name with
  | none => total
  | some stats =>
      total.setStats name { stats with curConns := stats.curConns + delta }

def openConnection (m : ServerStatistics) (name : String)
    (_proxyType : String) : ServerStatistics :=
  m.addConns name 1

def closeConnection (m : ServerStatistics) (name : String)
    (_proxyType : String) : ServerStatistics :=
  m.addConns name (-1)

end ServerStatistics

/-- A server proxy whose `Run` has returned: then it is added to the proxies by
name or refused, reported to the metrics, deleted, and reported as closed. -/
inductive Stage where
  | running
  | refused
  | added
  | reported
  | deleted
  | done
deriving DecidableEq, Repr

structure ServerProxy where
  name : String
  proxyType : String
  stage : Stage
deriving DecidableEq, Repr

/-- `conns` are the names and types of the open user connections. -/
structure State where
  clock : Nat
  info : ServerStatistics
  proxies : List ServerProxy
  conns : List (String × String)

inductive Action where
  | elapse (nanoseconds : Nat)
  | run (name proxyType : String)
  | add (i : Nat)
  | newProxy (i : Nat)
  | delete (i : Nat)
  | closeProxy (i : Nat)
  | openConnection (i : Nat)
  | closeConnection (name proxyType : String)
  | clearUselessInfo
deriving DecidableEq, Repr

def init : State where
  clock := 0
  info := newServerMetrics
  proxies := []
  conns := []

namespace State

/-- The Manager of the proxies knows the name. -/
def nameInUse (s : State) (name : String) : Bool :=
  s.proxies.any fun pxy =>
    pxy.name = name ∧ (pxy.stage = .added ∨ pxy.stage = .reported)

def setStage (s : State) (i : Nat) (pxy : ServerProxy) (stage : Stage) :
    State :=
  { s with proxies := s.proxies.set i { pxy with stage := stage } }

/-- `Manager.Add` in `RegisterProxy`. -/
def add (s : State) (i : Nat) (pxy : ServerProxy) : Option State :=
  if pxy.stage = .running then
    some (s.setStage i pxy
      (if s.nameInUse pxy.name then .refused else .added))
  else none

/-- The goroutine that has registered the proxy reports it. -/
def newProxy (s : State) (i : Nat) (pxy : ServerProxy) : Option State :=
  if pxy.stage = .added then
    some { s.setStage i pxy .reported with
      info := s.info.newProxy pxy.name pxy.proxyType s.clock }
  else none

/-- `Close` of the proxy and `Manager.Del`. -/
def delete (s : State) (i : Nat) (pxy : ServerProxy) : Option State :=
  if pxy.stage = .reported then some (s.setStage i pxy .deleted) else none

def closeProxy (s : State) (i : Nat) (pxy : ServerProxy) : Option State :=
  if pxy.stage = .deleted then
    some { s.setStage i pxy .done with
      info := s.info.closeProxy pxy.name pxy.proxyType s.clock }
  else none

/-- A connection that a proxy has accepted is opened at any time after its
`Run`. -/
def openConnection (s : State) (pxy : ServerProxy) : State :=
  { s with
    info := s.info.openConnection pxy.name pxy.proxyType
    conns := (pxy.name, pxy.proxyType) :: s.conns }

end State

def step (s : State) : Action → Option State
  | .elapse nanoseconds => some { s with clock := s.clock + nanoseconds }
  | .run name proxyType =>
      some { s with proxies := s.proxies ++ [⟨name, proxyType, .running⟩] }
  | .add i => s.proxies[i]?.bind (s.add i)
  | .newProxy i => s.proxies[i]?.bind (s.newProxy i)
  | .delete i => s.proxies[i]?.bind (s.delete i)
  | .closeProxy i => s.proxies[i]?.bind (s.closeProxy i)
  | .openConnection i => s.proxies[i]?.map s.openConnection
  | .closeConnection name proxyType =>
      if (name, proxyType) ∈ s.conns then
        some { s with
          info := s.info.closeConnection name proxyType
          conns := s.conns.erase (name, proxyType) }
      else none
  | .clearUselessInfo =>
      some { s with info := s.info.clearUselessInfo s.clock }

def system : System State Action where
  start := init
  step := step

namespace State

/-- How many connections of a name and a type are open. -/
def openConns (s : State) (name proxyType : String) : Nat :=
  s.conns.count (name, proxyType)

/-- Every gauge is the number of the open connections of its name and type. -/
def Exact (s : State) : Prop :=
  ∀ name stats, s.info.proxyStatistics name = some stats →
    stats.curConns.toInt = s.openConns name stats.proxyType

end State

/-- The entries that a step finds: a connection is opened and closed under an
entry of its type or none, with room in the int32, and an entry is made when no
connection of its name and type is open. -/
def Permitted (s : State) : Action → Prop
  | .newProxy i => ∀ pxy ∈ s.proxies[i]?,
      (∃ stats ∈ s.info.proxyStatistics pxy.name,
        stats.proxyType = pxy.proxyType) ∨
      s.openConns pxy.name pxy.proxyType = 0
  | .openConnection i => ∀ pxy ∈ s.proxies[i]?,
      ∀ stats ∈ s.info.proxyStatistics pxy.name,
        stats.proxyType = pxy.proxyType ∧
          s.openConns pxy.name pxy.proxyType + 1 < 2 ^ 31
  | .closeConnection name proxyType =>
      ∀ stats ∈ s.info.proxyStatistics name, stats.proxyType = proxyType
  | .elapse _ | .run _ _ | .add _ | .delete _ | .closeProxy _
  | .clearUselessInfo => True

section Int32

theorem toInt_inc {count : Int32} {n : Nat} (hcount : count.toInt = n) :
    (count + 1).toInt = (n + 1 : Nat) ↔ n + 1 < 2 ^ 31 := by
  have hlt := Int32.toInt_lt count
  rw [Int32.toInt_add, hcount, show (1 : Int32).toInt = 1 from rfl,
    Int.bmod_def]
  omega

theorem toInt_inc_ne (count : Int32) : (count + 1).toInt ≠ count.toInt := by
  rw [Int32.toInt_add, show (1 : Int32).toInt = 1 from rfl, Int.bmod_def]
  omega

theorem toInt_dec {count : Int32} {n : Nat} (hcount : count.toInt = (n + 1 : Nat)) :
    (count + -1).toInt = n := by
  have hlt := Int32.toInt_lt count
  rw [Int32.toInt_add, hcount, show (-1 : Int32).toInt = -1 from rfl,
    Int.bmod_def]
  omega

theorem toInt_dec_ne (count : Int32) : (count + -1).toInt ≠ count.toInt := by
  rw [Int32.toInt_add, show (-1 : Int32).toInt = -1 from rfl, Int.bmod_def]
  omega

end Int32

namespace State

/-- The entries keep their types and gauges, as far as they are kept. -/
theorem Exact.of_kept {s s' : State} (hexact : s.Exact)
    (hstats : ∀ name stats', s'.info.proxyStatistics name = some stats' →
      ∃ stats, s.info.proxyStatistics name = some stats ∧
        stats'.curConns = stats.curConns ∧ stats'.proxyType = stats.proxyType)
    (hconns : ∀ name stats, s.info.proxyStatistics name = some stats →
      s'.openConns name stats.proxyType = s.openConns name stats.proxyType) :
    s'.Exact := by
  intro name stats' hstats'
  obtain ⟨stats, hold, hcount, htype⟩ := hstats name stats' hstats'
  rw [hcount, htype, hconns name stats hold]
  exact hexact name stats hold

/-- One entry is written, and only connections of its name come or go. -/
theorem Exact.update_iff {s s' : State} (hexact : s.Exact) {name : String}
    {stats : ProxyStatistics}
    (hstats : s'.info.proxyStatistics =
      Function.update s.info.proxyStatistics name (some stats))
    (hconns : ∀ other proxyType, other ≠ name →
      s'.openConns other proxyType = s.openConns other proxyType) :
    s'.Exact ↔ stats.curConns.toInt = s'.openConns name stats.proxyType := by
  constructor
  · intro hexact'
    exact hexact' name stats (by rw [hstats, Function.update_self])
  · intro hcount other found hfound
    rw [hstats] at hfound
    by_cases hsame : other = name
    · subst hsame
      rw [Function.update_self, Option.some.injEq] at hfound
      exact hfound ▸ hcount
    · rw [Function.update_of_ne hsame] at hfound
      rw [hconns other _ hsame]
      exact hexact other found hfound

theorem statsFor_proxyType (m : ServerStatistics) (name proxyType : String) :
    (m.statsFor name proxyType).proxyType = proxyType := by
  unfold ServerStatistics.statsFor
  split
  · rfl
  · split
    · next htype => exact htype
    · rfl

/-- The gauge that a reported proxy starts with. -/
theorem Exact.newProxy_iff {s : State} (hexact : s.Exact)
    (name proxyType : String) :
    (s.info.statsFor name proxyType).curConns.toInt =
        s.openConns name proxyType ↔
      (∃ stats ∈ s.info.proxyStatistics name, stats.proxyType = proxyType) ∨
        s.openConns name proxyType = 0 := by
  have hnew : (0 : Int32).toInt = s.openConns name proxyType ↔
      s.openConns name proxyType = 0 := by
    rw [show (0 : Int32).toInt = 0 from rfl]
    omega
  unfold ServerStatistics.statsFor
  cases hstats : s.info.proxyStatistics name with
  | none => simpa [ServerStatistics.newStats] using hnew
  | some stats =>
      by_cases htype : stats.proxyType = proxyType
      · have hcount := hexact name stats hstats
        rw [htype] at hcount
        simp [htype, hcount]
      · simpa [htype, ServerStatistics.newStats] using hnew

theorem Exact.report_iff {s : State} (hexact : s.Exact)
    (name proxyType : String) (proxies : List ServerProxy) :
    State.Exact { s with
        info := s.info.newProxy name proxyType s.clock
        proxies := proxies } ↔
      (∃ stats ∈ s.info.proxyStatistics name, stats.proxyType = proxyType) ∨
        s.openConns name proxyType = 0 := by
  generalize hs' : ({ s with
    info := s.info.newProxy name proxyType s.clock
    proxies := proxies } : State) = s'
  have hstats : s'.info.proxyStatistics =
      Function.update s.info.proxyStatistics name
        (some { s.info.statsFor name proxyType with
          lastStartTime := some s.clock }) := by
    subst hs'
    rfl
  have hconns : ∀ other otherType,
      s'.openConns other otherType = s.openConns other otherType := by
    subst hs'
    exact fun _ _ => rfl
  rw [hexact.update_iff hstats fun other otherType _ => hconns other otherType]
  rw [hconns, statsFor_proxyType]
  exact hexact.newProxy_iff name proxyType

theorem openConns_cons (s : State) (name proxyType other otherType : String)
    (info : ServerStatistics) :
    State.openConns { s with
        info := info
        conns := (name, proxyType) :: s.conns } other otherType =
      s.openConns other otherType +
        if name = other ∧ proxyType = otherType then 1 else 0 := by
  simp [openConns, List.count_cons]

/-- No entry is written, and only connections of a name without one come or
go. -/
theorem Exact.of_untracked {s s' : State} (hexact : s.Exact) {name : String}
    (hstats : s.info.proxyStatistics name = none)
    (hinfo : s'.info.proxyStatistics = s.info.proxyStatistics)
    (hconns : ∀ other proxyType, other ≠ name →
      s'.openConns other proxyType = s.openConns other proxyType) :
    s'.Exact := by
  apply hexact.of_kept
  · intro found stats hfound
    rw [hinfo] at hfound
    exact ⟨stats, hfound, rfl, rfl⟩
  · intro found stats hfound
    apply hconns
    rintro rfl
    rw [hstats] at hfound
    cases hfound

/-- A connection is counted in the entry of its name, whatever its type. -/
theorem Exact.open_iff {s : State} (hexact : s.Exact) (pxy : ServerProxy) :
    (s.openConnection pxy).Exact ↔
      ∀ stats ∈ s.info.proxyStatistics pxy.name,
        stats.proxyType = pxy.proxyType ∧
          s.openConns pxy.name pxy.proxyType + 1 < 2 ^ 31 := by
  have hother : ∀ other proxyType, other ≠ pxy.name →
      (s.openConnection pxy).openConns other proxyType =
        s.openConns other proxyType := by
    intro other proxyType hne
    rw [openConnection, openConns_cons, if_neg (fun h => hne h.1.symm)]
    rfl
  cases hstats : s.info.proxyStatistics pxy.name with
  | none =>
      have hinfo : (s.openConnection pxy).info.proxyStatistics =
          s.info.proxyStatistics := by
        simp [openConnection, ServerStatistics.openConnection,
          ServerStatistics.addConns, hstats]
      have hexact' := hexact.of_untracked hstats hinfo hother
      simp [hexact']
  | some stats =>
      have hinfo : (s.openConnection pxy).info.proxyStatistics =
          Function.update s.info.proxyStatistics pxy.name
            (some { stats with curConns := stats.curConns + 1 }) := by
        simp [openConnection, ServerStatistics.openConnection,
          ServerStatistics.addConns, ServerStatistics.setStats, hstats]
      rw [hexact.update_iff hinfo hother]
      have hcount := hexact pxy.name stats hstats
      simp only [Option.mem_def, Option.some.injEq, forall_eq']
      rw [openConnection, openConns_cons]
      by_cases htype : stats.proxyType = pxy.proxyType
      · rw [if_pos ⟨rfl, htype.symm⟩, toInt_inc hcount, htype]
        simp
      · rw [if_neg (fun h => htype h.2.symm), Nat.add_zero, ← hcount]
        exact ⟨fun h => absurd h (toInt_inc_ne _), fun h => absurd h.1 htype⟩

/-- So is its end: only under an entry of its own type, or under none, does it
leave the gauges right. -/
theorem Exact.close_iff {s s' : State} (hexact : s.Exact)
    {name proxyType : String} (hopen : (name, proxyType) ∈ s.conns)
    (hstep : step s (.closeConnection name proxyType) = some s') :
    s'.Exact ↔ ∀ stats ∈ s.info.proxyStatistics name,
      stats.proxyType = proxyType := by
  simp only [step, if_pos hopen, Option.some.injEq] at hstep
  subst hstep
  generalize hs' : ({ s with
    info := s.info.closeConnection name proxyType
    conns := s.conns.erase (name, proxyType) } : State) = s'
  have hcounts : ∀ other otherType, s'.openConns other otherType =
      s.openConns other otherType -
        if name = other ∧ proxyType = otherType then 1 else 0 := by
    intro other otherType
    subst hs'
    simp [openConns, List.count_erase]
  have hother : ∀ other otherType, other ≠ name →
      s'.openConns other otherType = s.openConns other otherType := by
    intro other otherType hne
    rw [hcounts, if_neg (fun h => hne h.1.symm), Nat.sub_zero]
  cases hstats : s.info.proxyStatistics name with
  | none =>
      have hinfo : s'.info.proxyStatistics = s.info.proxyStatistics := by
        subst hs'
        simp [ServerStatistics.closeConnection, ServerStatistics.addConns,
          hstats]
      have hexact' := hexact.of_untracked hstats hinfo hother
      simp [hexact']
  | some stats =>
      have hinfo : s'.info.proxyStatistics =
          Function.update s.info.proxyStatistics name
            (some { stats with curConns := stats.curConns + -1 }) := by
        subst hs'
        simp [ServerStatistics.closeConnection, ServerStatistics.addConns,
          ServerStatistics.setStats, hstats]
      rw [hexact.update_iff hinfo hother]
      have hcount := hexact name stats hstats
      simp only [Option.mem_def, Option.some.injEq, forall_eq']
      rw [hcounts]
      by_cases htype : stats.proxyType = proxyType
      · have hone : 0 < s.openConns name proxyType :=
          List.count_pos_iff.mpr hopen
        obtain ⟨n, hn⟩ := Nat.exists_eq_succ_of_ne_zero (Nat.ne_of_gt hone)
        rw [htype, hn] at hcount
        rw [if_pos ⟨rfl, htype.symm⟩, htype, hn, toInt_dec hcount]
        simp
      · rw [if_neg (fun h => htype h.2.symm), Nat.sub_zero, ← hcount]
        exact ⟨fun h => absurd h (toInt_dec_ne _), fun h => absurd h htype⟩

/-- The other steps write no gauge. -/
theorem Exact.of_stats {s s' : State} (hexact : s.Exact)
    (hconns : s'.conns = s.conns)
    (hstats : ∀ name stats', s'.info.proxyStatistics name = some stats' →
      ∃ stats, s.info.proxyStatistics name = some stats ∧
        stats'.curConns = stats.curConns ∧
        stats'.proxyType = stats.proxyType) : s'.Exact := by
  apply hexact.of_kept hstats
  intro name stats _
  rw [openConns, openConns, hconns]

theorem Exact.clear {s : State} (hexact : s.Exact) :
    State.Exact { s with info := s.info.clearUselessInfo s.clock } := by
  refine hexact.of_stats rfl ?_
  intro name stats' hstats'
  exact ⟨stats', (Option.filter_eq_some_iff.mp hstats').1, rfl, rfl⟩

theorem Exact.closeProxy {s : State} (hexact : s.Exact) (name proxyType : String)
    (proxies : List ServerProxy) :
    State.Exact { s with
      proxies := proxies
      info := s.info.closeProxy name proxyType s.clock } := by
  refine hexact.of_stats rfl ?_
  intro other stats' hstats'
  unfold ServerStatistics.closeProxy at hstats'
  cases hstats : s.info.proxyStatistics name with
  | none =>
      simp only [hstats] at hstats'
      exact ⟨stats', hstats', rfl, rfl⟩
  | some stats =>
      simp only [hstats, ServerStatistics.setStats] at hstats'
      by_cases hsame : other = name
      · subst hsame
        rw [Function.update_self, Option.some.injEq] at hstats'
        exact ⟨stats, hstats, hstats' ▸ rfl, hstats' ▸ rfl⟩
      · rw [Function.update_of_ne hsame] at hstats'
        exact ⟨stats', hstats', rfl, rfl⟩

/-- From a state with exact gauges a step leads to one exactly when it is
permitted. -/
theorem Exact.step_iff {s s' : State} (hexact : s.Exact) {action : Action}
    (hstep : step s action = some s') : s'.Exact ↔ Permitted s action := by
  cases action with
  | elapse nanoseconds =>
      cases hstep
      exact iff_of_true (hexact.of_stats rfl fun _ stats h => ⟨stats, h, rfl, rfl⟩)
        trivial
  | run name proxyType =>
      cases hstep
      exact iff_of_true (hexact.of_stats rfl fun _ stats h => ⟨stats, h, rfl, rfl⟩)
        trivial
  | add i =>
      obtain ⟨pxy, -, hadd⟩ := Option.bind_eq_some_iff.mp hstep
      simp only [State.add, Option.ite_none_right_eq_some,
        Option.some.injEq] at hadd
      obtain ⟨-, rfl⟩ := hadd
      exact iff_of_true (hexact.of_stats rfl fun _ stats h => ⟨stats, h, rfl, rfl⟩)
        trivial
  | delete i =>
      obtain ⟨pxy, -, hdelete⟩ := Option.bind_eq_some_iff.mp hstep
      simp only [State.delete, Option.ite_none_right_eq_some,
        Option.some.injEq] at hdelete
      obtain ⟨-, rfl⟩ := hdelete
      exact iff_of_true (hexact.of_stats rfl fun _ stats h => ⟨stats, h, rfl, rfl⟩)
        trivial
  | newProxy i =>
      obtain ⟨pxy, hpxy, hnew⟩ := Option.bind_eq_some_iff.mp hstep
      simp only [State.newProxy, Option.ite_none_right_eq_some,
        Option.some.injEq] at hnew
      obtain ⟨-, rfl⟩ := hnew
      have hpermitted : Permitted s (.newProxy i) ↔
          (∃ stats ∈ s.info.proxyStatistics pxy.name,
            stats.proxyType = pxy.proxyType) ∨
          s.openConns pxy.name pxy.proxyType = 0 := by
        simp only [Permitted, hpxy, Option.mem_def, Option.some.injEq,
          forall_eq']
      rw [hpermitted]
      exact hexact.report_iff pxy.name pxy.proxyType _
  | closeProxy i =>
      obtain ⟨pxy, -, hclose⟩ := Option.bind_eq_some_iff.mp hstep
      simp only [State.closeProxy, Option.ite_none_right_eq_some,
        Option.some.injEq] at hclose
      obtain ⟨-, rfl⟩ := hclose
      exact iff_of_true (hexact.closeProxy _ _ _) trivial
  | openConnection i =>
      obtain ⟨pxy, hpxy, rfl⟩ := Option.map_eq_some_iff.mp hstep
      rw [hexact.open_iff pxy]
      simp [Permitted, hpxy]
  | closeConnection name proxyType =>
      have hopen : (name, proxyType) ∈ s.conns := by
        by_contra hnone
        simp [step, hnone] at hstep
      exact hexact.close_iff hopen hstep
  | clearUselessInfo =>
      cases hstep
      exact iff_of_true hexact.clear trivial

theorem exact_init : init.Exact := by
  intro name stats hstats
  cases hstats

end State

/-- A run whose every step leads to exact gauges. -/
def LeadsExact (s : State) (action : Action) : Prop :=
  ∀ s' ∈ step s action, s'.Exact

/-- The gauges are exact in every state that a run reaches if and only if every
step of it is permitted where it is taken. -/
theorem exact_iff_permitted (word : List Action) (s : State) :
    system.Run LeadsExact word s ↔ system.Run Permitted word s :=
  System.run_leads_iff (J := State.Exact) State.exact_init
    (fun _ _ _ hexact hpermitted hstep =>
      (hexact.step_iff hstep).mpr hpermitted)
    (fun _ _ _ hexact hstep => hexact.step_iff hstep) word s

/-- A connection of a tcp proxy outlives it, and the name comes back as http. -/
def outlivingConn : List Action :=
  [.run "web" "tcp", .add 0, .newProxy 0, .openConnection 0, .delete 0,
    .closeProxy 0, .run "web" "http", .add 1, .newProxy 1,
    .closeConnection "web" "tcp"]

theorem not_exact_outlivingConn :
    ¬ ∀ (word : List Action) (s : State), system.Reaches word s → s.Exact := by
  intro hclaim
  obtain ⟨s, hreaches, hgauge⟩ : ∃ s, system.Reaches outlivingConn s ∧
      (s.info.proxyStatistics "web").map (fun stats => stats.curConns.toInt) =
        some (-1) :=
    System.exists_reaches_of_exec (by decide)
  obtain ⟨stats, hstats, hcount⟩ := Option.map_eq_some_iff.mp hgauge
  have hexact := hclaim _ s hreaches "web" stats hstats
  rw [hcount] at hexact
  omega

end Metrics

end Frp
