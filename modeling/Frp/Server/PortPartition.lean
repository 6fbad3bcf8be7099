/-
What the maps of a port manager hold over a whole history: the free and the used
ports partition the allowed ones, and every PortCtx that is entered names the port
it is entered for.  From this, when an `Acquire` moves one port and when none.
-/
import Frp.Server.PortHistory

namespace Frp

open Transition

/-- The ports that a manager is created for. -/
def Allowed (allowPorts : Finset Int) (port : Int) : Prop :=
  if allowPorts = ∅ then minPort ≤ port ∧ port ≤ maxPort
  else port ∈ allowPorts

namespace PortManager

theorem mem_newManager_freePorts {allowPorts : Finset Int} {port : Int} :
    port ∈ (newManager allowPorts).freePorts ↔ Allowed allowPorts port := by
  unfold newManager Allowed
  dsimp only
  by_cases hempty : allowPorts = ∅
  · rw [if_pos hempty, if_pos hempty, Finset.mem_image]
    constructor
    · rintro ⟨i, hi, rfl⟩
      rw [Finset.mem_range] at hi
      unfold minPort maxPort at hi ⊢
      omega
    · rintro ⟨hlow, hhigh⟩
      refine ⟨(port - minPort).toNat, ?_, by omega⟩
      rw [Finset.mem_range]
      omega
  · rw [if_neg hempty, if_neg hempty]

/-- The free and the used ports partition the allowed set, and the contexts in
the maps name the ports they stand for. -/
structure Partition (allowPorts : Finset Int) (pm : PortManager) : Prop where
  disjoint : pm.Disjoint
  union : ∀ port, port ∈ pm.freePorts ∨ pm.usedPorts port ≠ none ↔
    Allowed allowPorts port
  port : ∀ port ctx, pm.usedPorts port = some ctx →
    (pm.ctxs ctx).port = port
  reserved : ∀ name ctx, pm.reservedPorts name = some ctx →
    Allowed allowPorts (pm.ctxs ctx).port

/-- The contexts in the maps have numbers below `made`. -/
structure Numbered (made : Nat) (pm : PortManager) : Prop where
  used : ∀ port ctx, pm.usedPorts port = some ctx → ctx < made
  reserved : ∀ name ctx, pm.reservedPorts name = some ctx → ctx < made

variable {pm : PortManager} {allowPorts : Finset Int} {made : Nat}

/-- One free port has become the used and reserved port of a name. -/
structure Moved (pm pm' : PortManager) (name : String) (port : Int) :
    Prop where
  free : port ∈ pm.freePorts
  unused : pm.usedPorts port = none
  freePorts : pm'.freePorts = pm.freePorts.erase port
  entered : ∃ ctx, (pm'.ctxs ctx).port = port ∧
    pm'.usedPorts = Function.update pm.usedPorts port (some ctx) ∧
    pm'.reservedPorts = Function.update pm.reservedPorts name (some ctx)

/-- The three maps are as they were. -/
structure SameMaps (pm pm' : PortManager) : Prop where
  usedPorts : pm'.usedPorts = pm.usedPorts
  freePorts : pm'.freePorts = pm.freePorts
  reservedPorts : pm'.reservedPorts = pm.reservedPorts

theorem SameMaps.refl (pm : PortManager) : pm.SameMaps pm :=
  ⟨rfl, rfl, rfl⟩

theorem Disjoint.moved (hdisjoint : pm.Disjoint) {port : Int}
    (hfree : port ∈ pm.freePorts) (owner : Nat) (name : String) (now : Nat) :
    pm.Moved (pm.take owner name now port) name port where
  free := hfree
  unused := hdisjoint port hfree
  freePorts := rfl
  entered := ⟨owner, by simp [PortManager.take], rfl, rfl⟩

theorem partition_newManager (allowPorts : Finset Int) :
    (newManager allowPorts).Partition allowPorts where
  disjoint := newManager_disjoint allowPorts
  union port := by
    rw [← mem_newManager_freePorts]
    simp [newManager]
  port := by simp [newManager]
  reserved := by simp [newManager]

theorem numbered_newManager (allowPorts : Finset Int) :
    (newManager allowPorts).Numbered 0 where
  used := by simp [newManager]
  reserved := by simp [newManager]

/-- A new context takes an allowed port, whether it was free or used. -/
theorem Partition.take (hpartition : pm.Partition allowPorts)
    (hnumbered : pm.Numbered made) (name : String) (now : Nat) {port : Int}
    (hallowed : Allowed allowPorts port) :
    (pm.take made name now port).Partition allowPorts where
  disjoint := hpartition.disjoint.take made name now port
  union other := by
    by_cases hsame : other = port
    · subst hsame
      simpa [PortManager.take] using hallowed
    · simpa [PortManager.take, hsame] using hpartition.union other
  port other ctx hused := by
    by_cases hsame : other = port
    · subst hsame
      obtain rfl : made = ctx := by simpa [PortManager.take] using hused
      simp [PortManager.take]
    · have hold : pm.usedPorts other = some ctx := by
        simpa [PortManager.take, hsame] using hused
      have hne : ctx ≠ made := (hnumbered.used other ctx hold).ne
      simpa [PortManager.take, hne] using hpartition.port other ctx hold
  reserved other ctx hreserved := by
    by_cases hsame : other = name
    · subst hsame
      obtain rfl : made = ctx := by simpa [PortManager.take] using hreserved
      simpa [PortManager.take] using hallowed
    · have hold : pm.reservedPorts other = some ctx := by
        simpa [PortManager.take, hsame] using hreserved
      have hne : ctx ≠ made := (hnumbered.reserved other ctx hold).ne
      simpa [PortManager.take, hne] using hpartition.reserved other ctx hold

theorem Numbered.take (hnumbered : pm.Numbered made) (name : String)
    (now : Nat) (port : Int) :
    (pm.take made name now port).Numbered (made + 1) where
  used other ctx hused := by
    by_cases hsame : other = port
    · have heq : made = ctx := by
        simpa [PortManager.take, hsame] using hused
      omega
    · have hold : pm.usedPorts other = some ctx := by
        simpa [PortManager.take, hsame] using hused
      exact (hnumbered.used other ctx hold).trans (Nat.lt_succ_self made)
  reserved other ctx hreserved := by
    by_cases hsame : other = name
    · have heq : made = ctx := by
        simpa [PortManager.take, hsame] using hreserved
      omega
    · have hold : pm.reservedPorts other = some ctx := by
        simpa [PortManager.take, hsame] using hreserved
      exact (hnumbered.reserved other ctx hold).trans (Nat.lt_succ_self made)

theorem Numbered.mono {more : Nat} (hnumbered : pm.Numbered made)
    (hmore : made ≤ more) : pm.Numbered more where
  used port ctx hused := (hnumbered.used port ctx hused).trans_le hmore
  reserved name ctx hreserved :=
    (hnumbered.reserved name ctx hreserved).trans_le hmore

/-- A context keeps its port when it is closed. -/
theorem release_ctxs_port (pm : PortManager) (now : Nat) (port : Int)
    (ctx : Nat) :
    ((pm.release now port).ctxs ctx).port = (pm.ctxs ctx).port := by
  unfold release
  split
  · rfl
  · rename_i found _
    by_cases hsame : ctx = found
    · simp [hsame]
    · simp [hsame]

theorem release_of_unused {port : Int} (hunused : pm.usedPorts port = none)
    (now : Nat) : pm.release now port = pm := by
  simp [release, hunused]

theorem release_reservedPorts (pm : PortManager) (now : Nat) (port : Int) :
    (pm.release now port).reservedPorts = pm.reservedPorts := by
  unfold release
  split <;> rfl

theorem mem_release_freePorts {now : Nat} {port other : Int} :
    other ∈ (pm.release now port).freePorts ↔
      other ∈ pm.freePorts ∨ other = port ∧ pm.usedPorts port ≠ none := by
  unfold release
  split
  · rename_i hunused
    simp [hunused]
  · rename_i ctx hused
    simp [hused, or_comm]

theorem Partition.release (hpartition : pm.Partition allowPorts) (now : Nat)
    (port : Int) : (pm.release now port).Partition allowPorts where
  disjoint := hpartition.disjoint.release now port
  union other := by
    rw [← hpartition.union other, mem_release_freePorts, release_usedPorts]
    by_cases hsame : other = port
    · simp [hsame]
    · simp [hsame]
  port other ctx hused := by
    rw [release_ctxs_port]
    rw [release_usedPorts] at hused
    by_cases hsame : other = port
    · simp [hsame] at hused
    · exact hpartition.port other ctx (by simpa [hsame] using hused)
  reserved name ctx hreserved := by
    rw [release_ctxs_port]
    rw [release_reservedPorts] at hreserved
    exact hpartition.reserved name ctx hreserved

theorem Numbered.release (hnumbered : pm.Numbered made) (now : Nat)
    (port : Int) : (pm.release now port).Numbered made where
  used other ctx hused := by
    rw [release_usedPorts] at hused
    by_cases hsame : other = port
    · simp [hsame] at hused
    · exact hnumbered.used other ctx (by simpa [hsame] using hused)
  reserved name ctx hreserved := by
    rw [release_reservedPorts] at hreserved
    exact hnumbered.reserved name ctx hreserved

theorem reservedPorts_of_clean {now : Nat} {name : String} {ctx : Nat}
    (hreserved : (pm.cleanReservedPorts now).reservedPorts name = some ctx) :
    pm.reservedPorts name = some ctx :=
  (Option.filter_eq_some_iff.mp hreserved).1

theorem Partition.clean (hpartition : pm.Partition allowPorts) (now : Nat) :
    (pm.cleanReservedPorts now).Partition allowPorts :=
  { hpartition with
    disjoint := hpartition.disjoint
    reserved := fun name ctx hreserved =>
      hpartition.reserved name ctx (reservedPorts_of_clean hreserved) }

theorem Numbered.clean (hnumbered : pm.Numbered made) (now : Nat) :
    (pm.cleanReservedPorts now).Numbered made :=
  { hnumbered with
    reserved := fun name ctx hreserved =>
      hnumbered.reserved name ctx (reservedPorts_of_clean hreserved) }

/-- Whatever `Acquire` takes is allowed: a free port or a reserved one. -/
theorem Partition.allowed_of_free (hpartition : pm.Partition allowPorts)
    {port : Int} (hfree : port ∈ pm.freePorts) : Allowed allowPorts port :=
  (hpartition.union port).mp (Or.inl hfree)

theorem Partition.allowed_of_reserved (hpartition : pm.Partition allowPorts)
    {name : String} {port realPort : Int} {isPortAvailable : Int → Bool}
    (hreserved : pm.reservedPort name port isPortAvailable = some realPort) :
    Allowed allowPorts realPort := by
  unfold reservedPort at hreserved
  split at hreserved
  · split at hreserved
    · cases hreserved
    · rename_i ctx hctx
      split at hreserved
      · exact Option.some.inj hreserved ▸ hpartition.reserved name ctx hctx
      · cases hreserved
  · cases hreserved

end PortManager

namespace PortHistory

variable {allowPorts : Finset Int} {word : List Action} {s s' : State}

/-- What holds between the calls: the partition, and a number for each context. -/
structure State.Kept (allowPorts : Finset Int) (s : State) : Prop where
  partition : s.pm.Partition allowPorts
  numbered : s.pm.Numbered s.made

theorem State.Kept.acquire (hkept : s.Kept allowPorts) {order : List Int}
    (hranges : s.Ranges order) (name : String) (port : Int)
    (isPortAvailable : Int → Bool) :
    (s.acquire name port isPortAvailable order).1.Partition allowPorts ∧
    (s.acquire name port isPortAvailable order).1.Numbered (s.made + 1) := by
  have htaken {realPort : Int} (hallowed : Allowed allowPorts realPort) :
      (s.pm.take s.made name s.clock realPort).Partition allowPorts ∧
      (s.pm.take s.made name s.clock realPort).Numbered (s.made + 1) :=
    ⟨hkept.partition.take hkept.numbered name s.clock hallowed,
      hkept.numbered.take name s.clock realPort⟩
  rcases PortManager.acquire_cases s.pm s.made name s.clock port
      isPortAvailable order (State.ranges_mem hranges) with
    ⟨realPort, hresult, hfound⟩ | ⟨err, hresult, hzero⟩ | ⟨err, hresult⟩
  · rw [State.acquire, hresult]
    rcases hfound with hfree | hreserved
    · exact htaken (hkept.partition.allowed_of_free hfree)
    · exact htaken (hkept.partition.allowed_of_reserved hreserved)
  · rw [State.acquire, hresult]
    exact htaken (hkept.partition.allowed_of_free hzero)
  · rw [State.acquire, hresult]
    exact ⟨hkept.partition, hkept.numbered.mono (Nat.le_succ s.made)⟩

theorem State.Kept.step (hkept : s.Kept allowPorts) {action : Action}
    (hstep : PortHistory.step s action = some s') : s'.Kept allowPorts := by
  cases action with
  | elapse seconds =>
      simp only [PortHistory.step, Option.some.injEq] at hstep
      subst hstep
      exact ⟨hkept.partition, hkept.numbered⟩
  | acquire name port isPortAvailable order =>
      simp only [PortHistory.step, Option.ite_none_right_eq_some,
        Option.some.injEq] at hstep
      obtain ⟨hranges, rfl⟩ := hstep
      obtain ⟨hpartition, hnumbered⟩ :=
        hkept.acquire hranges name port isPortAvailable
      exact ⟨hpartition, hnumbered⟩
  | release port =>
      simp only [PortHistory.step, Option.some.injEq] at hstep
      subst hstep
      exact ⟨hkept.partition.release s.clock port,
        hkept.numbered.release s.clock port⟩
  | clean =>
      simp only [PortHistory.step, Option.some.injEq] at hstep
      subst hstep
      exact ⟨hkept.partition.clean s.clock, hkept.numbered.clean s.clock⟩

theorem State.kept_of_reaches
    (hreaches : (system allowPorts).Reaches word s) : s.Kept allowPorts :=
  System.Reaches.invariant (I := fun s => s.Kept allowPorts)
    ⟨PortManager.partition_newManager allowPorts,
      PortManager.numbered_newManager allowPorts⟩
    (fun _ _ _ hkept hstep => hkept.step hstep) hreaches

/-- After every history the free and the used ports partition the allowed ones,
and the release of a port that is not used changes nothing. -/
theorem partition_of_reaches (allowPorts : Finset Int) {word : List Action}
    {s : State} (hreaches : (system allowPorts).Reaches word s) :
    s.pm.Partition allowPorts ∧
    ∀ port, s.pm.usedPorts port = none → s.pm.release s.clock port = s.pm :=
  ⟨(State.kept_of_reaches hreaches).partition,
    fun _ hunused => PortManager.release_of_unused hunused s.clock⟩

/-- With a port zero taken and a reserved port taken over by another name. -/
theorem partition_takenOver :
    ∃ s, (system {6000, 0}).Reaches
        [.acquire "web" 0 (fun _ => true) [6000, 0], .release 6000,
          .acquire "api" 6000 (fun _ => true) [6000, 0],
          .acquire "web" 0 (fun _ => true) [0],
          .acquire "ssh" 0 (fun _ => true) [0], .release 22] s ∧
      s.pm.Partition {6000, 0} ∧
      ∀ port, s.pm.usedPorts port = none →
        s.pm.release s.clock port = s.pm := by
  obtain ⟨s, hreaches, _⟩ :
      ∃ s, (system {6000, 0}).Reaches
        [.acquire "web" 0 (fun _ => true) [6000, 0], .release 6000,
          .acquire "api" 6000 (fun _ => true) [6000, 0],
          .acquire "web" 0 (fun _ => true) [0],
          .acquire "ssh" 0 (fun _ => true) [0], .release 22] s ∧
        s.pm.freePorts = ∅ :=
    System.exists_reaches_of_exec (by decide)
  exact ⟨s, hreaches, partition_of_reaches {6000, 0} hreaches⟩

namespace State

/-- An `Acquire` with an error changes no map, and one without moves its port. -/
def Atomic (s : State) (name : String) (port : Int)
    (isPortAvailable : Int → Bool) (order : List Int) : Prop :=
  match s.acquire name port isPortAvailable order with
  | (pm, .error _) => s.pm.SameMaps pm
  | (pm, .ok realPort) => s.pm.Moved pm name realPort

/-- The reserved port to be taken is free; without one, a random search does not
come upon port zero. -/
def Orderly (s : State) (name : String) (port : Int)
    (isPortAvailable : Int → Bool) (order : List Int) : Prop :=
  match s.pm.reservedPort name port isPortAvailable with
  | some reserved => reserved ∈ s.pm.freePorts
  | none => port = 0 →
      (order.take maxTryTimes).find? isPortAvailable ≠ some 0

end State

/-- The random branch of `Acquire` is atomic unless it comes upon port zero. -/
theorem atomic_random_iff (hdisjoint : s.pm.Disjoint) {order : List Int}
    (hranges : s.Ranges order) {name : String} {isPortAvailable : Int → Bool}
    (hreserved : s.pm.reservedPort name 0 isPortAvailable = none) :
    s.Atomic name 0 isPortAvailable order ↔
      (order.take maxTryTimes).find? isPortAvailable ≠ some 0 := by
  unfold State.Atomic State.acquire PortManager.acquire
  cases hfind : (order.take maxTryTimes).find? isPortAvailable with
  | none =>
      simp only [hreserved, if_true]
      exact iff_of_true (.refl s.pm) (by simp)
  | some realPort =>
      have hfree : realPort ∈ s.pm.freePorts :=
        State.ranges_mem hranges realPort
          (List.mem_of_mem_take (List.mem_of_find?_eq_some hfind))
      by_cases hzero : realPort = 0
      · subst hzero
        simp only [hreserved, if_true]
        refine iff_of_false ?_ (by simp)
        intro hsame
        have herased : s.pm.freePorts.erase 0 = s.pm.freePorts :=
          hsame.freePorts
        rw [← herased] at hfree
        exact Finset.notMem_erase 0 s.pm.freePorts hfree
      · simp only [hreserved, if_true, if_neg hzero]
        exact iff_of_true (hdisjoint.moved hfree s.made name s.clock)
          (by simpa using hzero)

/-- The branch of a given port is atomic in every state. -/
theorem atomic_given (hdisjoint : s.pm.Disjoint) {order : List Int}
    {name : String} {port : Int} {isPortAvailable : Int → Bool}
    (hreserved : s.pm.reservedPort name port isPortAvailable = none)
    (hport : port ≠ 0) : s.Atomic name port isPortAvailable order := by
  unfold State.Atomic State.acquire PortManager.acquire
  simp only [hreserved, if_neg hport]
  by_cases hfree : port ∈ s.pm.freePorts
  · rw [if_pos hfree]
    by_cases havailable : isPortAvailable port = true
    · rw [if_pos havailable]
      exact hdisjoint.moved hfree s.made name s.clock
    · rw [if_neg havailable]
      exact .refl s.pm
  · rw [if_neg hfree]
    by_cases hused : (s.pm.usedPorts port).isSome = true
    · rw [if_pos hused]
      exact .refl s.pm
    · rw [if_neg hused]
      exact .refl s.pm

/-- In every reachable state an `Acquire` is atomic exactly when it neither takes
a reserved port that is in use nor comes upon port zero. -/
theorem atomic_iff (allowPorts : Finset Int) {word : List Action} {s : State}
    (hreaches : (system allowPorts).Reaches word s) {order : List Int}
    (hranges : s.Ranges order) (name : String) (port : Int)
    (isPortAvailable : Int → Bool) :
    s.Atomic name port isPortAvailable order ↔
      s.Orderly name port isPortAvailable order := by
  have hdisjoint := State.disjoint_of_reaches hreaches
  cases hreserved : s.pm.reservedPort name port isPortAvailable with
  | some reserved =>
      simp only [State.Atomic, State.Orderly, State.acquire,
        PortManager.acquire, hreserved]
      constructor
      · intro hmoved
        exact hmoved.free
      · intro hfree
        exact hdisjoint.moved hfree s.made name s.clock
  | none =>
      simp only [State.Orderly, hreserved]
      by_cases hport : port = 0
      · subst hport
        rw [atomic_random_iff hdisjoint hranges hreserved]
        simp
      · exact iff_of_true (atomic_given hdisjoint hreserved hport)
          fun hzero => absurd hzero hport

/-- The first random port of a manager. -/
theorem atomic_iff_web :
    (system {6000}).Reaches [] (init {6000}) ∧
    (State.Atomic (init {6000}) "web" 0 (fun _ => true) [6000] ↔
      State.Orderly (init {6000}) "web" 0 (fun _ => true) [6000]) :=
  ⟨System.Run.nil, atomic_iff {6000} System.Run.nil (by decide)
    "web" 0 fun _ => true⟩

/-- A random port zero is taken and reported as no port; and a reserved port that
another name has taken over is given out without being free. -/
theorem not_atomic_zero_or_takenOver :
    ¬ State.Atomic (init {0}) "web" 0 (fun _ => true) [0] ∧
    ∃ s, (system {6000}).Reaches secondOwner s ∧ s.Ranges [] ∧
      ¬ s.Atomic "web" 0 (fun _ => true) [] := by
  constructor
  · intro hatomic
    have hsame : (State.acquire (init {0}) "web" 0 (fun _ => true)
        [0]).1.freePorts = (init {0}).pm.freePorts := hatomic.freePorts
    exact absurd hsame (by decide)
  · obtain ⟨s, hreaches, hranges, hreserved, hfree⟩ :
        ∃ s, (system {6000}).Reaches secondOwner s ∧ s.Ranges [] ∧
          s.pm.reservedPort "web" 0 (fun _ => true) = some 6000 ∧
          6000 ∉ s.pm.freePorts :=
      System.exists_reaches_of_exec (by decide)
    refine ⟨s, hreaches, hranges, fun hatomic => hfree ?_⟩
    simp only [State.Atomic, State.acquire, PortManager.acquire,
      hreserved] at hatomic
    exact hatomic.free

end PortHistory

end Frp
