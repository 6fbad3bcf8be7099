/-
The port manager of `server/ports/ports.go`.  A PortCtx is named by the owner
whose `Acquire` made it; whether the system can listen on a port and the order
in which a map is ranged over are arguments.
-/
import Mathlib.Data.Finset.Basic
import Mathlib.Data.Finset.Image
import Mathlib.Data.Finset.Range
import Frp.Lib.Ledger

namespace Frp

structure PortCtx where
  proxyName : String
  port : Int
  closed : Bool
  updateTime : Nat
deriving DecidableEq, Repr

inductive PortError where
  | portAlreadyUsed
  | portNotAllowed
  | portUnAvailable
  | noAvailablePort
deriving DecidableEq, Repr

def PortError.text : PortError → String
  | .portAlreadyUsed => "port already used"
  | .portNotAllowed => "port not allowed"
  | .portUnAvailable => "port unavailable"
  | .noAvailablePort => "no available port"

def minPort : Int := 1

def maxPort : Int := 65535

/-- `MaxPortReservedDuration`, in seconds. -/
def maxPortReservedDuration : Nat := 24 * 60 * 60

/-- `maxTryTimes` of the random branch of `Acquire`. -/
def maxTryTimes : Nat := 5

structure PortManager where
  ctxs : Nat → PortCtx
  reservedPorts : String → Option Nat
  usedPorts : Int → Option Nat
  freePorts : Finset Int

namespace PortManager

def newManager (allowPorts : Finset Int) : PortManager where
  ctxs _ := ⟨"", 0, false, 0⟩
  reservedPorts _ := none
  usedPorts _ := none
  freePorts :=
    if allowPorts = ∅ then
      (Finset.range (maxPort - minPort + 1).toNat).image
        fun i : Nat => minPort + i
    else allowPorts

/-- The assignments that enter a new PortCtx for a port. -/
def take (pm : PortManager) (owner : Nat) (name : String) (now : Nat)
    (port : Int) : PortManager where
  ctxs := Function.update pm.ctxs owner ⟨name, port, false, now⟩
  reservedPorts := Function.update pm.reservedPorts name (some owner)
  usedPorts := Function.update pm.usedPorts port (some owner)
  freePorts := pm.freePorts.erase port

/-- The port that the first branch of `Acquire` takes: the reserved one of the
name, if the system can listen on it. -/
def reservedPort (pm : PortManager) (name : String) (port : Int)
    (isPortAvailable : Int → Bool) : Option Int :=
  if port = 0 then
    match pm.reservedPorts name with
    | none => none
    | some ctx =>
        if isPortAvailable (pm.ctxs ctx).port then some (pm.ctxs ctx).port
        else none
  else none

/-- `order` is the order of `freePorts` in the random branch, where a port zero
is taken and then reported as no port. -/
def acquire (pm : PortManager) (owner : Nat) (name : String) (now : Nat)
    (port : Int) (isPortAvailable : Int → Bool) (order : List Int) :
    PortManager × Except PortError Int :=
  match pm.reservedPort name port isPortAvailable with
  | some realPort => (pm.take owner name now realPort, .ok realPort)
  | none =>
      if port = 0 then
        match (order.take maxTryTimes).find? isPortAvailable with
        | none => (pm, .error .noAvailablePort)
        | some realPort =>
            if realPort = 0 then
              (pm.take owner name now 0, .error .noAvailablePort)
            else (pm.take owner name now realPort, .ok realPort)
      else if port ∈ pm.freePorts then
        if isPortAvailable port then
          (pm.take owner name now port, .ok port)
        else (pm, .error .portUnAvailable)
      else if (pm.usedPorts port).isSome then (pm, .error .portAlreadyUsed)
      else (pm, .error .portNotAllowed)

/-- `Release` finds the PortCtx by the port alone. -/
def release (pm : PortManager) (now : Nat) (port : Int) : PortManager :=
  match pm.usedPorts port with
  | none => pm
  | some ctx =>
      { pm with
        ctxs := Function.update pm.ctxs ctx
          { pm.ctxs ctx with closed := true, updateTime := now }
        usedPorts := Function.update pm.usedPorts port none
        freePorts := insert port pm.freePorts }

/-- One round of `cleanReservedPortsWorker`. -/
def cleanReservedPorts (pm : PortManager) (now : Nat) : PortManager :=
  { pm with reservedPorts := fun name =>
      (pm.reservedPorts name).filter fun ctx =>
        ¬ ((pm.ctxs ctx).closed ∧
          maxPortReservedDuration < now - (pm.ctxs ctx).updateTime) }

/-- No port is both free and used. -/
def Disjoint (pm : PortManager) : Prop :=
  ∀ port ∈ pm.freePorts, pm.usedPorts port = none

theorem newManager_disjoint (allowPorts : Finset Int) :
    (newManager allowPorts).Disjoint :=
  fun _ _ => rfl

theorem Disjoint.take {pm : PortManager} (hdisjoint : pm.Disjoint)
    (owner : Nat) (name : String) (now : Nat) (port : Int) :
    (pm.take owner name now port).Disjoint := by
  intro other hother
  obtain ⟨hne, hfree⟩ := Finset.mem_erase.mp hother
  simpa [PortManager.take, hne] using hdisjoint other hfree

theorem Disjoint.release {pm : PortManager} (hdisjoint : pm.Disjoint)
    (now : Nat) (port : Int) : (pm.release now port).Disjoint := by
  unfold PortManager.release
  cases hused : pm.usedPorts port with
  | none => exact hdisjoint
  | some ctx =>
      intro other hother
      by_cases hsame : other = port
      · simp [hsame]
      · have hfree : other ∈ pm.freePorts := by
          simpa [hsame] using hother
        simpa [hsame] using hdisjoint other hfree

/-- All that `Acquire` does to the ports: it takes a free port, or the reserved
one of the name whatever its state, or nothing. -/
theorem acquire_cases (pm : PortManager) (owner : Nat) (name : String)
    (now : Nat) (port : Int) (isPortAvailable : Int → Bool) (order : List Int)
    (horder : ∀ p ∈ order, p ∈ pm.freePorts) :
    (∃ realPort, pm.acquire owner name now port isPortAvailable order =
        (pm.take owner name now realPort, .ok realPort) ∧
      (realPort ∈ pm.freePorts ∨
        pm.reservedPort name port isPortAvailable = some realPort)) ∨
    (∃ err, pm.acquire owner name now port isPortAvailable order =
        (pm.take owner name now 0, .error err) ∧ 0 ∈ pm.freePorts) ∨
    (∃ err, pm.acquire owner name now port isPortAvailable order =
        (pm, .error err)) := by
  unfold acquire
  cases hreserved : pm.reservedPort name port isPortAvailable with
  | some realPort => exact Or.inl ⟨realPort, rfl, Or.inr rfl⟩
  | none =>
      simp only
      by_cases hport : port = 0
      · rw [if_pos hport]
        cases hfind : (order.take maxTryTimes).find? isPortAvailable with
        | none => exact Or.inr (Or.inr ⟨_, rfl⟩)
        | some realPort =>
            have hfree : realPort ∈ pm.freePorts :=
              horder _ (List.mem_of_mem_take (List.mem_of_find?_eq_some hfind))
            by_cases hzero : realPort = 0
            · rw [hzero] at hfree
              simp only [hzero, if_true]
              exact Or.inr (Or.inl ⟨_, rfl, hfree⟩)
            · simp only [hzero, if_false]
              exact Or.inl ⟨realPort, rfl, Or.inl hfree⟩
      · rw [if_neg hport]
        by_cases hfree : port ∈ pm.freePorts
        · rw [if_pos hfree]
          split
          · exact Or.inl ⟨port, rfl, Or.inl hfree⟩
          · exact Or.inr (Or.inr ⟨_, rfl⟩)
        · rw [if_neg hfree]
          split <;> exact Or.inr (Or.inr ⟨_, rfl⟩)

theorem release_usedPorts (pm : PortManager) (now : Nat) (port : Int) :
    (pm.release now port).usedPorts =
      Function.update pm.usedPorts port none := by
  cases hused : pm.usedPorts port with
  | none =>
      have hsame : Function.update pm.usedPorts port none = pm.usedPorts := by
        rw [← hused, Function.update_eq_self]
      simp [release, hused, hsame]
  | some ctx => simp [release, hused]

end PortManager

end Frp
