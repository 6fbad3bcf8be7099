/-
Whole histories of one port manager: any callers acquire and release any ports,
and the reserved ports are cleaned up in between.  Whether the system can listen
on a port is any function of the port, since an owner need not have bound its
port yet.
-/
import Frp.Lib.System
import Frp.Server.Ports

namespace Frp

open Transition

namespace PortHistory

/-- `made` counts the PortCtxs that `Acquire` has made. -/
structure State where
  clock : Nat
  pm : PortManager
  made : Nat

inductive Action where
  | elapse (seconds : Nat)
  | acquire (name : String) (port : Int) (isPortAvailable : Int → Bool)
      (order : List Int)
  | release (port : Int)
  | clean

def init (allowPorts : Finset Int) : State :=
  ⟨0, PortManager.newManager allowPorts, 0⟩

namespace State

/-- An order in which `Acquire` may range over `freePorts`. -/
def Ranges (s : State) (order : List Int) : Prop :=
  order.Nodup ∧ order.toFinset = s.pm.freePorts

instance (s : State) (order : List Int) : Decidable (s.Ranges order) :=
  inferInstanceAs (Decidable (_ ∧ _))

def acquire (s : State) (name : String) (port : Int)
    (isPortAvailable : Int → Bool) (order : List Int) :
    PortManager × Except PortError Int :=
  s.pm.acquire s.made name s.clock port isPortAvailable order

end State

def step (s : State) : Action → Option State
  | .elapse seconds => some { s with clock := s.clock + seconds }
  | .acquire name port isPortAvailable order =>
      if s.Ranges order then
        some { s with
          pm := (s.acquire name port isPortAvailable order).1
          made := s.made + 1 }
      else none
  | .release port => some { s with pm := s.pm.release s.clock port }
  | .clean => some { s with pm := s.pm.cleanReservedPorts s.clock }

def system (allowPorts : Finset Int) : System State Action where
  start := init allowPorts
  step := step

namespace State

/-- The port that a successful `Acquire` returns was not used before. -/
def Exclusive (s : State) (name : String) (port : Int)
    (isPortAvailable : Int → Bool) (order : List Int) : Prop :=
  ∀ realPort, (s.acquire name port isPortAvailable order).2 = .ok realPort →
    s.pm.usedPorts realPort = none

theorem ranges_mem {s : State} {order : List Int} (hranges : s.Ranges order) :
    ∀ p ∈ order, p ∈ s.pm.freePorts := by
  intro p hp
  rw [← hranges.2]
  exact List.mem_toFinset.mpr hp

/-- No step makes a port both free and used. -/
theorem disjoint_step {s s' : State} {action : Action}
    (hdisjoint : s.pm.Disjoint) (hstep : PortHistory.step s action = some s') :
    s'.pm.Disjoint := by
  cases action with
  | elapse seconds =>
      simp only [PortHistory.step, Option.some.injEq] at hstep
      subst hstep
      exact hdisjoint
  | acquire name port isPortAvailable order =>
      simp only [PortHistory.step, Option.ite_none_right_eq_some,
        Option.some.injEq] at hstep
      obtain ⟨hranges, rfl⟩ := hstep
      rcases PortManager.acquire_cases s.pm s.made name s.clock port
          isPortAvailable order (ranges_mem hranges) with
        ⟨realPort, hresult, _⟩ | ⟨err, hresult, _⟩ | ⟨err, hresult⟩
      · simp only [State.acquire, hresult]
        exact hdisjoint.take s.made name s.clock realPort
      · simp only [State.acquire, hresult]
        exact hdisjoint.take s.made name s.clock 0
      · simp only [State.acquire, hresult]
        exact hdisjoint
  | release port =>
      simp only [PortHistory.step, Option.some.injEq] at hstep
      subst hstep
      exact hdisjoint.release s.clock port
  | clean =>
      simp only [PortHistory.step, Option.some.injEq] at hstep
      subst hstep
      exact hdisjoint

theorem disjoint_of_reaches {allowPorts : Finset Int} {word : List Action}
    {s : State} (hreaches : (system allowPorts).Reaches word s) :
    s.pm.Disjoint :=
  System.Reaches.invariant (I := fun s => s.pm.Disjoint)
    (PortManager.newManager_disjoint allowPorts)
    (fun _ _ _ hdisjoint hstep => disjoint_step hdisjoint hstep) hreaches

end State

/-- In every reachable state `Acquire` is exclusive, whether the port is given,
random or reserved, exactly when the reserved port that it would take is not
used. -/
theorem exclusive_iff (allowPorts : Finset Int) {word : List Action}
    {s : State} (hreaches : (system allowPorts).Reaches word s)
    {order : List Int} (hranges : s.Ranges order) (name : String) (port : Int)
    (isPortAvailable : Int → Bool) :
    s.Exclusive name port isPortAvailable order ↔
      ∀ reserved ∈ s.pm.reservedPort name port isPortAvailable,
        s.pm.usedPorts reserved = none := by
  constructor
  · intro hexclusive reserved hreserved
    apply hexclusive
    have htaken : s.pm.reservedPort name port isPortAvailable =
        some reserved := hreserved
    simp only [State.acquire, PortManager.acquire, htaken]
  · intro hunused realPort hresult
    rcases PortManager.acquire_cases s.pm s.made name s.clock port
        isPortAvailable order (State.ranges_mem hranges) with
      ⟨taken, hacquire, htaken⟩ | ⟨err, hacquire, _⟩ | ⟨err, hacquire⟩
    · obtain rfl : taken = realPort := by
        simpa [State.acquire, hacquire] using hresult
      rcases htaken with hfree | hreserved
      · exact State.disjoint_of_reaches hreaches taken hfree
      · exact hunused taken hreserved
    · simp [State.acquire, hacquire] at hresult
    · simp [State.acquire, hacquire] at hresult

/-- `web` gets a random port and gives it back. -/
def firstOwner : List Action :=
  [.acquire "web" 0 (fun _ => true) [6000], .release 6000]

/-- It may have its reserved port again. -/
theorem exclusive_iff_firstOwner :
    ∃ s, (system {6000}).Reaches firstOwner s ∧
      s.pm.reservedPort "web" 0 (fun _ => true) = some 6000 ∧
      (s.Exclusive "web" 0 (fun _ => true) [6000] ↔
        ∀ reserved ∈ s.pm.reservedPort "web" 0 (fun _ => true),
          s.pm.usedPorts reserved = none) := by
  obtain ⟨s, hreaches, hranges, hreserved⟩ :
      ∃ s, (system {6000}).Reaches firstOwner s ∧ s.Ranges [6000] ∧
        s.pm.reservedPort "web" 0 (fun _ => true) = some 6000 :=
    System.exists_reaches_of_exec (by decide)
  exact ⟨s, hreaches, hreserved,
    exclusive_iff {6000} hreaches hranges "web" 0 fun _ => true⟩

/-- Then `api` acquires the port. -/
def secondOwner : List Action :=
  firstOwner ++ [.acquire "api" 6000 (fun _ => true) [6000]]

/-- `web` is given its reserved port again while `api` owns it. -/
theorem not_exclusive_secondOwner :
    ∃ s, (system {6000}).Reaches secondOwner s ∧ s.Ranges [] ∧
      ¬ s.Exclusive "web" 0 (fun _ => true) [] := by
  obtain ⟨s, hreaches, hranges, hresult, hused⟩ :
      ∃ s, (system {6000}).Reaches secondOwner s ∧ s.Ranges [] ∧
        (s.acquire "web" 0 (fun _ => true) []).2 = .ok 6000 ∧
        s.pm.usedPorts 6000 ≠ none :=
    System.exists_reaches_of_exec (by decide)
  exact ⟨s, hreaches, hranges, fun hexclusive => hused (hexclusive 6000 hresult)⟩

end PortHistory

end Frp
