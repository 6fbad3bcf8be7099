/-
The plugin of a client proxy over the life of its Wrapper.  `Run` of
`client/proxy/proxy.go` creates one each time the proxy is started, the same way
in the six types that have plugins; `Close` is called by `Wrapper.Stop` alone.
-/
import Frp.Lib.System
import Frp.Client.Wrapper

namespace Frp

open Transition

namespace ClientPlugins

/-- The name of the configured plugin, empty without one, and the names that
`Register` has been called with. -/
structure PluginConf where
  plugin : String
  registered : String → Bool

/-- `plugin.Create`; `result` is the error of the creator. -/
def PluginConf.create (cfg : PluginConf) (result : Option String) :
    Option String :=
  if cfg.registered cfg.plugin then result
  else some ("plugin [" ++ cfg.plugin ++ "] is not registered")

/-- The instances are numbered as they are created. -/
structure State where
  pw : Wrapper
  stopped : Bool
  proxyPlugin : Option Nat
  created : Nat
  closed : List Nat
deriving DecidableEq, Repr

inductive Action where
  | checkWorker (now : Nat)
  | health (normal : Bool)
  | setRunningStatus (now : Nat) (remoteAddr respErr : String)
      (result : Option String)
  | stop
deriving DecidableEq, Repr

def init (healthCheck : Bool) : State where
  pw := Wrapper.newWrapper healthCheck
  stopped := false
  proxyPlugin := none
  created := 0
  closed := []

namespace State

/-- `Run` of the proxy.  A creator that fails returns nil for the plugin. -/
def run (cfg : PluginConf) (s : State) (result : Option String) :
    State × Option String :=
  if cfg.plugin = "" then (s, none)
  else
    match cfg.create result with
    | some err => ({ s with proxyPlugin := none }, some err)
    | none =>
        ({ s with
            proxyPlugin := some s.created
            created := s.created + 1 }, none)

/-- `Close` of the proxy. -/
def close (s : State) : State :=
  { s with closed := s.proxyPlugin.toList ++ s.closed }

/-- `SetRunningStatus` calls `Run` only while it waits and without an error in the
response. -/
def setRunningStatus (cfg : PluginConf) (s : State) (now : Nat)
    (remoteAddr respErr : String) (result : Option String) : State :=
  if s.pw.phase = .waitStart ∧ respErr = "" then
    { (s.run cfg result).1 with
      pw := (s.pw.setRunningStatus now remoteAddr respErr
        (s.run cfg result).2).pw }
  else
    { s with pw := (s.pw.setRunningStatus now remoteAddr respErr none).pw }

end State

def step (cfg : PluginConf) (s : State) : Action → Option State
  | .checkWorker now => some { s with pw := (s.pw.checkWorker now).1 }
  | .health normal =>
      some { s with
        pw := if normal then s.pw.statusNormalCallback
          else s.pw.statusFailedCallback }
  | .setRunningStatus now remoteAddr respErr result =>
      some (s.setRunningStatus cfg now remoteAddr respErr result)
  | .stop =>
      if s.stopped then none
      else some { s.close with pw := s.pw.stop.1, stopped := true }

def system (cfg : PluginConf) (healthCheck : Bool) : System State Action where
  start := init healthCheck
  step := step cfg

namespace State

/-- An instance that has been created and not closed. -/
def Live (s : State) (i : Nat) : Prop := i < s.created ∧ i ∉ s.closed

/-- At most one instance is live, and none after `Stop`. -/
structure Single (s : State) : Prop where
  one : ∀ i j, s.Live i → s.Live j → i = j
  stopped : s.stopped = true → ∀ i, ¬ s.Live i

/-- The answer makes `Run` create an instance. -/
def Creates (cfg : PluginConf) (s : State) (respErr : String)
    (result : Option String) : Prop :=
  s.pw.phase = .waitStart ∧ respErr = "" ∧ cfg.plugin ≠ "" ∧
    cfg.create result = none

instance (cfg : PluginConf) (s : State) (respErr : String)
    (result : Option String) : Decidable (s.Creates cfg respErr result) :=
  inferInstanceAs (Decidable (_ ∧ _ ∧ _ ∧ _))

end State

/-- An instance is created when none is live, and `Stop` finds the one that is
live in the field. -/
def Permitted (cfg : PluginConf) (s : State) : Action → Prop
  | .setRunningStatus _ _ respErr result =>
      s.Creates cfg respErr result → ∀ i < s.created, i ∈ s.closed
  | .stop => ∀ i < s.created, i ∈ s.closed ∨ s.proxyPlugin = some i
  | .checkWorker _ | .health _ => True

instance (cfg : PluginConf) (s : State) :
    (action : Action) → Decidable (Permitted cfg s action)
  | .setRunningStatus _ _ _ _ => inferInstanceAs (Decidable (_ → _))
  | .stop => inferInstanceAs (Decidable (∀ i < s.created, _))
  | .checkWorker _ | .health _ => isTrue trivial

namespace State

structure Inv (s : State) : Prop where
  field : ∀ i, s.proxyPlugin = some i → i < s.created
  closed : ∀ i ∈ s.closed, i < s.created
  phase : s.stopped = true → s.pw.phase = .closed

theorem inv_init (healthCheck : Bool) : (init healthCheck).Inv where
  field _ hfield := by cases hfield
  closed _ hclosed := by cases hclosed
  phase hstopped := by cases hstopped

theorem single_init (healthCheck : Bool) : (init healthCheck).Single where
  one i _ hi := absurd hi.1 (Nat.not_lt_zero i)
  stopped hstopped := by cases hstopped

/-- All that an answer can do: `Run` is not reached or has no plugin to create, it
fails, or it creates an instance. -/
theorem setRunningStatus_cases (cfg : PluginConf) (s : State) (now : Nat)
    (remoteAddr respErr : String) (result : Option String) :
    let s' := s.setRunningStatus cfg now remoteAddr respErr result
    s'.stopped = s.stopped ∧ s'.closed = s.closed ∧
    (s.pw.phase ≠ .waitStart → s'.pw.phase = s.pw.phase) ∧
    ((¬ s.Creates cfg respErr result ∧ s'.created = s.created ∧
        (s'.proxyPlugin = s.proxyPlugin ∨ s'.proxyPlugin = none)) ∨
      (s.Creates cfg respErr result ∧ s'.created = s.created + 1 ∧
        s'.proxyPlugin = some s.created)) := by
  by_cases hrun : s.pw.phase = .waitStart ∧ respErr = ""
  · have hwait : s.pw.phase ≠ .waitStart →
        (s.setRunningStatus cfg now remoteAddr respErr result).pw.phase =
          s.pw.phase := fun h => absurd hrun.1 h
    by_cases hplugin : cfg.plugin = ""
    · refine ⟨?_, ?_, hwait, Or.inl ⟨fun h => h.2.2.1 hplugin, ?_, Or.inl ?_⟩⟩
      all_goals simp [setRunningStatus, run, hrun, hplugin]
    · cases hcreate : cfg.create result with
      | some err =>
          refine ⟨?_, ?_, hwait, Or.inl ⟨fun h => ?_, ?_, Or.inr ?_⟩⟩
          case refine_3 =>
            have hnone := h.2.2.2
            rw [hcreate] at hnone
            cases hnone
          all_goals simp [setRunningStatus, run, hrun, hplugin, hcreate]
      | none =>
          refine ⟨?_, ?_, hwait, Or.inr ⟨⟨hrun.1, hrun.2, hplugin, hcreate⟩,
            ?_, ?_⟩⟩
          all_goals simp [setRunningStatus, run, hrun, hplugin, hcreate]
  · have hsame : s.setRunningStatus cfg now remoteAddr respErr result =
        { s with
          pw := (s.pw.setRunningStatus now remoteAddr respErr none).pw } :=
      if_neg hrun
    rw [hsame]
    refine ⟨rfl, rfl, ?_, Or.inl ⟨fun h => hrun ⟨h.1, h.2.1⟩, rfl, Or.inl rfl⟩⟩
    intro hphase
    have hkeep := (Wrapper.setRunningStatus_ignored hphase now remoteAddr respErr
      none).1
    simp only [hkeep]

/-- A step that creates and closes nothing. -/
theorem Inv.frame {s s' : State} (hinv : s.Inv)
    (hfield : s'.proxyPlugin = s.proxyPlugin ∨ s'.proxyPlugin = none)
    (hcreated : s'.created = s.created) (hclosed : s'.closed = s.closed)
    (hphase : s'.stopped = true → s'.pw.phase = .closed) : s'.Inv where
  field i hi := by
    rcases hfield with hsame | hnone
    · rw [hcreated]
      exact hinv.field i (hsame ▸ hi)
    · rw [hnone] at hi
      cases hi
  closed i hi := by
    rw [hcreated]
    exact hinv.closed i (hclosed ▸ hi)
  phase := hphase

theorem Single.congr {s s' : State} (hcreated : s'.created = s.created)
    (hclosed : s'.closed = s.closed) (hstopped : s'.stopped = s.stopped) :
    s'.Single ↔ s.Single := by
  have hlive : ∀ i, s'.Live i ↔ s.Live i := fun i => by
    rw [Live, Live, hcreated, hclosed]
  constructor
  · intro h
    exact ⟨fun i j hi hj => h.one i j ((hlive i).mpr hi) ((hlive j).mpr hj),
      fun hs i hi => h.stopped (hstopped.trans hs) i ((hlive i).mpr hi)⟩
  · intro h
    exact ⟨fun i j hi hj => h.one i j ((hlive i).mp hi) ((hlive j).mp hj),
      fun hs i hi => h.stopped (hstopped.symm.trans hs) i ((hlive i).mp hi)⟩

theorem Inv.checkWorker {s : State} (hinv : s.Inv) (now : Nat) :
    Inv { s with pw := (s.pw.checkWorker now).1 } := by
  refine hinv.frame (.inl rfl) rfl rfl ?_
  intro hstopped
  have hclosed := hinv.phase hstopped
  change (s.pw.checkWorker now).1.phase = .closed
  rw [Wrapper.checkWorker_closed hclosed]
  exact hclosed

theorem Inv.setRunningStatus {cfg : PluginConf} {s : State} (hinv : s.Inv)
    (now : Nat) (remoteAddr respErr : String) (result : Option String) :
    (s.setRunningStatus cfg now remoteAddr respErr result).Inv := by
  obtain ⟨hstopped, hclosed, hphase, hcases⟩ :=
    setRunningStatus_cases cfg s now remoteAddr respErr result
  have hafter : (s.setRunningStatus cfg now remoteAddr respErr result).stopped =
      true → (s.setRunningStatus cfg now remoteAddr respErr result).pw.phase =
        .closed := by
    intro h
    have hbefore := hinv.phase (hstopped.symm.trans h)
    rw [hphase (by simp [hbefore]), hbefore]
  rcases hcases with ⟨_, hcreated, hfield⟩ | ⟨_, hcreated, hfield⟩
  · exact hinv.frame hfield hcreated hclosed hafter
  · refine ⟨?_, ?_, hafter⟩
    · intro i hi
      rw [hfield] at hi
      obtain rfl := Option.some.inj hi
      rw [hcreated]
      exact Nat.lt_succ_self _
    · intro i hi
      rw [hclosed] at hi
      rw [hcreated]
      exact Nat.lt_succ_of_lt (hinv.closed i hi)

theorem Inv.stop {s : State} (hinv : s.Inv) :
    Inv { s.close with pw := s.pw.stop.1, stopped := true } where
  field := hinv.field
  closed i hi := by
    rcases List.mem_append.mp hi with hfield | hold
    · exact hinv.field i (by simpa using hfield)
    · exact hinv.closed i hold
  phase _ := rfl

theorem Inv.step {cfg : PluginConf} {s s' : State} {action : Action}
    (hinv : s.Inv) (hstep : step cfg s action = some s') : s'.Inv := by
  cases action with
  | checkWorker now =>
      cases hstep
      exact hinv.checkWorker now
  | health normal =>
      cases hstep
      refine hinv.frame (.inl rfl) rfl rfl ?_
      intro hstopped
      cases normal <;> exact hinv.phase hstopped
  | setRunningStatus now remoteAddr respErr result =>
      cases hstep
      exact hinv.setRunningStatus now remoteAddr respErr result
  | stop =>
      simp only [ClientPlugins.step, Option.ite_none_left_eq_some,
        Option.some.injEq] at hstep
      obtain ⟨-, rfl⟩ := hstep
      exact hinv.stop

/-- A new instance is the only one exactly if no other was live. -/
theorem Single.create_iff {s s' : State} (hinv : s.Inv)
    (hrunning : s'.stopped = false) (hcreated : s'.created = s.created + 1)
    (hclosed : s'.closed = s.closed) :
    s'.Single ↔ ∀ i < s.created, i ∈ s.closed := by
  have hnew : s'.Live s.created := by
    refine ⟨by rw [hcreated]; exact Nat.lt_succ_self _, ?_⟩
    rw [hclosed]
    exact fun hmem => Nat.lt_irrefl _ (hinv.closed _ hmem)
  constructor
  · intro hsingle i hi
    by_contra hopen
    have hlive : s'.Live i :=
      ⟨by rw [hcreated]; exact Nat.lt_succ_of_lt hi, by rwa [hclosed]⟩
    have hsame := hsingle.one i s.created hlive hnew
    rw [hsame] at hi
    exact Nat.lt_irrefl _ hi
  · intro hall
    have honly : ∀ i, s'.Live i → i = s.created := by
      intro i hi
      have hlt := hi.1
      rw [hcreated] at hlt
      rcases Nat.lt_succ_iff_lt_or_eq.mp hlt with hold | heq
      · have hmem := hi.2
        rw [hclosed] at hmem
        exact absurd (hall i hold) hmem
      · exact heq
    refine ⟨fun i j hi hj => (honly i hi).trans (honly j hj).symm, ?_⟩
    intro hstopped
    rw [hrunning] at hstopped
    cases hstopped

/-- `Stop` closes what is in the field. -/
theorem Single.stop_iff {s : State} (hsingle : s.Single) :
    Single { s.close with pw := s.pw.stop.1, stopped := true } ↔
      ∀ i < s.created, i ∈ s.closed ∨ s.proxyPlugin = some i := by
  have hmem : ∀ i, i ∈ s.close.closed ↔ s.proxyPlugin = some i ∨ i ∈ s.closed := by
    intro i
    simp [close]
  constructor
  · intro hafter i hi
    by_contra hopen
    refine hafter.stopped rfl i ⟨hi, fun h => ?_⟩
    rcases (hmem i).mp h with hfield | hold
    · exact hopen (.inr hfield)
    · exact hopen (.inl hold)
  · intro hall
    have hlive : ∀ i, State.Live
        { s.close with pw := s.pw.stop.1, stopped := true } i → s.Live i :=
      fun i hi => ⟨hi.1, fun h => hi.2 ((hmem i).mpr (.inr h))⟩
    refine ⟨fun i j hi hj => hsingle.one i j (hlive i hi) (hlive j hj), ?_⟩
    intro _ i hi
    rcases hall i hi.1 with hold | hfield
    · exact hi.2 ((hmem i).mpr (.inr hold))
    · exact hi.2 ((hmem i).mpr (.inl hfield))

theorem Single.step_iff {cfg : PluginConf} {s s' : State} {action : Action}
    (hinv : s.Inv) (hsingle : s.Single)
    (hstep : step cfg s action = some s') :
    s'.Single ↔ Permitted cfg s action := by
  cases action with
  | checkWorker now =>
      cases hstep
      exact iff_of_true ⟨hsingle.one, hsingle.stopped⟩ trivial
  | health normal =>
      cases hstep
      exact iff_of_true ⟨hsingle.one, hsingle.stopped⟩ trivial
  | setRunningStatus now remoteAddr respErr result =>
      cases hstep
      obtain ⟨hstopped, hclosed, _, hcases⟩ :=
        setRunningStatus_cases cfg s now remoteAddr respErr result
      rcases hcases with ⟨hnone, hcreated, _⟩ | ⟨hcreates, hcreated, _⟩
      · exact iff_of_true
          ((Single.congr hcreated hclosed hstopped).mpr hsingle)
          (fun h => absurd h hnone)
      · have hrunning : s.stopped = false := by
          by_contra h
          have hphase := hinv.phase (by simpa using h)
          rw [hcreates.1] at hphase
          cases hphase
        have hcreate := Single.create_iff hinv (hstopped.trans hrunning) hcreated
          hclosed
        rw [hcreate]
        exact ⟨fun hall _ => hall, fun hall => hall hcreates⟩
  | stop =>
      simp only [ClientPlugins.step, Option.ite_none_left_eq_some,
        Option.some.injEq] at hstep
      obtain ⟨-, rfl⟩ := hstep
      exact hsingle.stop_iff

end State

/-- A step to a state with at most one live instance, and none after `Stop`. -/
def LeadsSingle (cfg : PluginConf) (s : State) (action : Action) : Prop :=
  ∀ s' ∈ step cfg s action, s'.Single

/-- At most one instance is live in every state of a run, and none after `Stop`,
if and only if every step is permitted where it is taken. -/
theorem single_iff_permitted (cfg : PluginConf) (healthCheck : Bool)
    (word : List Action) (s : State) :
    ((system cfg healthCheck).Run (Permitted cfg) word s → s.Single) ∧
    ((system cfg healthCheck).Run (LeadsSingle cfg) word s ↔
      (system cfg healthCheck).Run (Permitted cfg) word s) := by
  have hstart : (init healthCheck).Inv ∧ (init healthCheck).Single :=
    ⟨State.inv_init healthCheck, State.single_init healthCheck⟩
  have hkeep : ∀ s action s', (s.Inv ∧ s.Single) → Permitted cfg s action →
      step cfg s action = some s' → s'.Inv ∧ s'.Single :=
    fun _ _ _ hs hpermitted hstep =>
      ⟨hs.1.step hstep, (hs.2.step_iff hs.1 hstep).mpr hpermitted⟩
  constructor
  · intro hrun
    exact (hrun.invariant (I := fun s => s.Inv ∧ s.Single) hstart hkeep).2
  · exact System.run_leads_iff (J := fun s => s.Inv ∧ s.Single) hstart hkeep
      (fun _ _ _ hs hstep => hs.2.step_iff hs.1 hstep) word s

/-- The plugin of the runs below. -/
def socks5 : PluginConf := ⟨"socks5", fun name => name = "socks5"⟩

def starts : List Action :=
  [.checkWorker 0, .setRunningStatus 0 "" "" none]

theorem single_iff_permitted_stop :
    ∃ s, (system socks5 false).Run (Permitted socks5) (starts ++ [.stop]) s ∧
      s.created = 1 ∧ s.Single := by
  obtain ⟨s, hrun, hcreated⟩ : ∃ s, (system socks5 false).Run
      (Permitted socks5) (starts ++ [.stop]) s ∧ s.created = 1 :=
    System.exists_run_of_replay (by decide)
  exact ⟨s, hrun, hcreated,
    (single_iff_permitted socks5 false (starts ++ [.stop]) s).1 hrun⟩

/-- The health check fails and recovers, and the proxy is started again. -/
def recovers : List Action :=
  [Action.health true] ++ starts ++
    [Action.health false, .checkWorker 0, .health true] ++ starts

theorem not_single_recovers :
    (∃ s, (system socks5 true).Reaches recovers s ∧ ¬ s.Single) ∧
    (∃ s, (system socks5 true).Reaches (recovers ++ [.stop]) s ∧
      s.stopped = true ∧ s.Live 0) := by
  constructor
  · refine ⟨_, System.reaches_of_exec rfl, ?_⟩
    intro hsingle
    have hsame := hsingle.one 0 1 ⟨by decide, by decide⟩ ⟨by decide, by decide⟩
    cases hsame
  · exact ⟨_, System.reaches_of_exec rfl, rfl, by decide, by decide⟩

end ClientPlugins

end Frp
