/-
Everything that drives a port manager: the proxies of `server/proxy/udp.go` and
`server/proxy/tcp.go`, and the TCP groups of `server/group/tcp.go`, which take
one port for all their members.  A UDP proxy is closed once by its Control and
once more by its own goroutine.
-/
import Frp.Lib.System
import Frp.Server.Ports

namespace Frp

open Transition

inductive NetType where
  | tcp
  | udp
deriving DecidableEq, Repr

/-- What called `Acquire`: the `Run` of a proxy, or the first member of a
group. -/
inductive OwnerKind where
  | proxy
  | group
deriving DecidableEq, Repr

/-- Where an owner stands.  `leaked` is a group whose `net.Listen` failed: its
port is never released. -/
inductive OwnerPc where
  | idle
  | acquired
  | listening
  | closing
  | closed
  | failed
  | leaked
deriving DecidableEq, Repr

/-- Who calls `Close`: the Control (`CloseProxy`, `stoper`, the rollback of
`RegisterProxy`) or the goroutine of `UDPProxy.Run`. -/
inductive Closer where
  | control
  | self
deriving DecidableEq, Repr

structure Owner where
  kind : OwnerKind
  name : String
  remotePort : Int
  realPort : Int
  pc : OwnerPc
  controlClosed : Bool
  selfClosed : Bool
deriving DecidableEq, Repr

namespace Owner

/-- A group listens on the port it was asked for, a proxy on the one it got. -/
def listenPort (o : Owner) : Int :=
  match o.kind with
  | .proxy => o.realPort
  | .group => o.remotePort

/-- The port that this owner will release itself. -/
def held (o : Owner) : Option Int :=
  match o.pc with
  | .acquired | .listening | .closing => some o.realPort
  | .idle | .closed | .failed | .leaked => none

def mayClose (o : Owner) (netType : NetType) : Closer → Bool
  | .control => !o.controlClosed
  | .self => netType = .udp && o.kind = .proxy && !o.selfClosed

def markClosed (o : Owner) : Closer → Owner
  | .control => { o with controlClosed := true }
  | .self => { o with selfClosed := true }

@[simp] theorem markClosed_pc (o : Owner) (closer : Closer) :
    (o.markClosed closer).pc = o.pc := by
  cases closer <;> rfl

@[simp] theorem markClosed_realPort (o : Owner) (closer : Closer) :
    (o.markClosed closer).realPort = o.realPort := by
  cases closer <;> rfl

end Owner

namespace PortOwner

/-- `bound` holds the ports that the owners listen on. -/
structure State where
  clock : Nat
  pm : PortManager
  owners : Nat → Owner
  bound : Finset Int

/-- `refused` are the ports that the system has given to somebody else. -/
inductive Action where
  | elapse (seconds : Nat)
  | clean
  | acquire (i : Nat) (kind : OwnerKind) (name : String) (remotePort : Int)
      (refused : Finset Int) (order : List Int)
  | listen (i : Nat) (success : Bool)
  | close (i : Nat) (closer : Closer)
  | release (i : Nat)

def init (allowPorts : Finset Int) : State where
  clock := 0
  pm := PortManager.newManager allowPorts
  owners _ := ⟨.proxy, "", 0, 0, .idle, false, false⟩
  bound := ∅

namespace State

def setOwner (s : State) (i : Nat) (o : Owner) : State :=
  { s with owners := Function.update s.owners i o }

/-- `isPortAvailable` listens for a moment, so it fails on a bound port. -/
def isPortAvailable (s : State) (refused : Finset Int) (port : Int) : Bool :=
  port ∉ s.bound && port ∉ refused

/-- Port zero lets the system choose. -/
def bind (s : State) (port : Int) : State :=
  { s with bound := if port = 0 then s.bound else insert port s.bound }

def unbind (s : State) (port : Int) : State :=
  { s with bound := s.bound.erase port }

def release (s : State) (port : Int) : State :=
  { s with pm := s.pm.release s.clock port }

def acquire (s : State) (i : Nat) (kind : OwnerKind) (name : String)
    (remotePort : Int) (refused : Finset Int) (order : List Int) : State :=
  let result := s.pm.acquire i name s.clock remotePort
    (s.isPortAvailable refused) order
  match result.2 with
  | .ok realPort =>
      { s with pm := result.1 }.setOwner i
        ⟨kind, name, remotePort, realPort, .acquired, false, false⟩
  | .error _ =>
      { s with pm := result.1 }.setOwner i
        ⟨kind, name, remotePort, 0, .failed, false, false⟩

/-- The rest of `Run` after `Acquire`. -/
def listen (s : State) (i : Nat) (success : Bool) : State :=
  let o := s.owners i
  if success then (s.bind o.listenPort).setOwner i { o with pc := .listening }
  else
    match o.kind with
    | .proxy => (s.release o.realPort).setOwner i { o with pc := .failed }
    | .group => s.setOwner i { o with pc := .leaked }

/-- The first `Close` goes on to close the sockets; a later one finds
`isClosed` set and only releases. -/
def close (s : State) (i : Nat) (closer : Closer) : Option State :=
  let o := (s.owners i).markClosed closer
  match o.pc with
  | .listening =>
      some ((s.unbind o.listenPort).setOwner i { o with pc := .closing })
  | .closed => some ((s.release o.realPort).setOwner i o)
  | _ => none

end State

def step (netType : NetType) (s : State) : Action → Option State
  | .elapse seconds => some { s with clock := s.clock + seconds }
  | .clean => some { s with pm := s.pm.cleanReservedPorts s.clock }
  | .acquire i kind name remotePort refused order =>
      if (s.owners i).pc = .idle ∧ (netType = .udp → kind = .proxy) ∧
          order.Nodup ∧ order.toFinset = s.pm.freePorts then
        some (s.acquire i kind name remotePort refused order)
      else none
  | .listen i success =>
      if (s.owners i).pc = .acquired ∧
          (success = true → (s.owners i).listenPort ∉ s.bound) then
        some (s.listen i success)
      else none
  | .close i closer =>
      if (s.owners i).mayClose netType closer then s.close i closer else none
  | .release i =>
      if (s.owners i).pc = .closing then
        some ((s.release (s.owners i).realPort).setOwner i
          { s.owners i with pc := .closed })
      else none

def system (netType : NetType) (allowPorts : Finset Int) :
    System State Action where
  start := init allowPorts
  step := step netType

namespace State

/-- As long as `i` listens, its port is used, with the PortCtx that its own
`Acquire` made, and is not free. -/
def Owns (s : State) (i : Nat) : Prop :=
  (s.owners i).pc = .listening →
    s.pm.usedPorts (s.owners i).realPort = some i ∧
      (s.owners i).realPort ∉ s.pm.freePorts

instance (s : State) (i : Nat) : Decidable (s.Owns i) :=
  inferInstanceAs (Decidable (_ → _ ∧ _))

end State

/-- The steps that respect ownership: `Acquire` takes a reserved port only when
it is not used, and a repeated `Close` finds the port not used either. -/
def Permitted (s : State) : Action → Prop
  | .acquire _ _ name remotePort refused _ =>
      ∀ port ∈ s.pm.reservedPort name remotePort (s.isPortAvailable refused),
        s.pm.usedPorts port = none
  | .close i _ => (s.owners i).pc = .closed →
      s.pm.usedPorts (s.owners i).realPort = none
  | _ => True

instance (s : State) (action : Action) : Decidable (Permitted s action) :=
  match action with
  | .acquire _ _ name remotePort refused _ =>
      inferInstanceAs (Decidable (∀ port ∈ s.pm.reservedPort name remotePort
        (s.isPortAvailable refused), s.pm.usedPorts port = none))
  | .close _ _ => inferInstanceAs (Decidable (_ → _))
  | .elapse _ | .clean | .listen _ _ | .release _ =>
      inferInstanceAs (Decidable True)

namespace State

def holds (s : State) (i : Nat) : Option Int :=
  (s.owners i).held

/-- No port is both free and used, and the register of used ports is right
about every port that an owner is going to release. -/
structure Inv (s : State) : Prop where
  disjoint : s.pm.Disjoint
  backed : Ledger.Backed s.pm.usedPorts s.holds

theorem holds_setOwner (s : State) (i : Nat) (o : Owner) :
    (s.setOwner i o).holds = Function.update s.holds i o.held := by
  funext other
  by_cases hother : other = i
  · simp [holds, setOwner, hother]
  · simp [holds, setOwner, hother]

theorem inv_init (allowPorts : Finset Int) : (init allowPorts).Inv where
  disjoint := PortManager.newManager_disjoint allowPorts
  backed i port hheld := by simp [holds, init, Owner.held] at hheld

/-- An owner that moves on without a change of what it holds. -/
theorem Inv.setOwner {s : State} (hinv : s.Inv) {i : Nat} {o : Owner}
    (hheld : o.held = s.holds i) : (s.setOwner i o).Inv where
  disjoint := hinv.disjoint
  backed := by
    rw [holds_setOwner, hheld, Function.update_eq_self]
    exact hinv.backed

theorem Inv.bind {s : State} (hinv : s.Inv) (port : Int) : (s.bind port).Inv :=
  ⟨hinv.disjoint, hinv.backed⟩

theorem Inv.unbind {s : State} (hinv : s.Inv) (port : Int) :
    (s.unbind port).Inv :=
  ⟨hinv.disjoint, hinv.backed⟩

/-- A release of what the owner itself holds. -/
theorem Inv.release_held {s : State} (hinv : s.Inv) {i : Nat} {o : Owner}
    {port : Int} (hport : s.holds i = some port) (hheld : o.held = none) :
    ((s.release port).setOwner i o).Inv where
  disjoint := hinv.disjoint.release s.clock port
  backed := by
    rw [holds_setOwner, hheld]
    show Ledger.Backed (s.pm.release s.clock port).usedPorts _
    rw [PortManager.release_usedPorts]
    exact hinv.backed.drop hport

/-- A release of a port that is not used does nothing. -/
theorem Inv.release_unused {s : State} (hinv : s.Inv) {port : Int}
    (hunused : s.pm.usedPorts port = none) : (s.release port).Inv where
  disjoint := hinv.disjoint.release s.clock port
  backed := by
    show Ledger.Backed (s.pm.release s.clock port).usedPorts s.holds
    rw [PortManager.release_usedPorts]
    exact hinv.backed.overwrite (hinv.backed.not_held hunused) none

theorem Inv.acquire {s : State} (hinv : s.Inv) {i : Nat} {kind : OwnerKind}
    {name : String} {remotePort : Int} {refused : Finset Int}
    {order : List Int} (hidle : (s.owners i).pc = .idle)
    (horder : order.toFinset = s.pm.freePorts)
    (hreserved : ∀ port ∈ s.pm.reservedPort name remotePort
      (s.isPortAvailable refused), s.pm.usedPorts port = none) :
    (s.acquire i kind name remotePort refused order).Inv := by
  have hnone : s.holds i = none := by
    simp [holds, Owner.held, hidle]
  have hfree : ∀ p ∈ order, p ∈ s.pm.freePorts := by
    intro p hp
    rw [← horder]
    exact List.mem_toFinset.mpr hp
  unfold State.acquire
  rcases PortManager.acquire_cases s.pm i name s.clock remotePort
      (s.isPortAvailable refused) order hfree with
    ⟨realPort, hresult, htaken⟩ | ⟨err, hresult, hzero⟩ | ⟨err, hresult⟩
  · have hunused : s.pm.usedPorts realPort = none := by
      rcases htaken with hmem | hmem
      · exact hinv.disjoint realPort hmem
      · exact hreserved realPort hmem
    simp only [hresult]
    constructor
    · exact hinv.disjoint.take i name s.clock realPort
    · rw [holds_setOwner]
      exact hinv.backed.claim (hinv.backed.not_held hunused) i
  · have hunused := hinv.backed.not_held (hinv.disjoint 0 hzero)
    simp only [hresult]
    constructor
    · exact hinv.disjoint.take i name s.clock 0
    · rw [holds_setOwner]
      exact (hinv.backed.overwrite hunused (some i)).forget i
  · simp only [hresult]
    constructor
    · exact hinv.disjoint
    · rw [holds_setOwner]
      exact hinv.backed.forget i

theorem Inv.listen {s : State} (hinv : s.Inv) {i : Nat} (success : Bool)
    (hacquired : (s.owners i).pc = .acquired) : (s.listen i success).Inv := by
  have hport : s.holds i = some (s.owners i).realPort := by
    simp [holds, Owner.held, hacquired]
  cases success with
  | true => exact (hinv.bind _).setOwner hport.symm
  | false =>
      cases hkind : (s.owners i).kind with
      | proxy =>
          simp only [State.listen, hkind, Bool.false_eq_true, if_false]
          exact hinv.release_held hport rfl
      | group =>
          simp only [State.listen, hkind, Bool.false_eq_true, if_false]
          refine ⟨hinv.disjoint, ?_⟩
          rw [holds_setOwner]
          exact hinv.backed.forget i

theorem Inv.close {s s' : State} (hinv : s.Inv) {i : Nat} {closer : Closer}
    (hrepeated : (s.owners i).pc = .closed →
      s.pm.usedPorts (s.owners i).realPort = none)
    (hnext : s.close i closer = some s') : s'.Inv := by
  cases hpc : (s.owners i).pc with
  | listening =>
      simp only [State.close, Owner.markClosed_pc, hpc,
        Option.some.injEq] at hnext
      subst hnext
      apply (hinv.unbind _).setOwner
      simp [holds, State.unbind, Owner.held, hpc]
  | closed =>
      simp only [State.close, Owner.markClosed_pc, hpc,
        Owner.markClosed_realPort, Option.some.injEq] at hnext
      subst hnext
      apply (hinv.release_unused (hrepeated hpc)).setOwner
      simp [holds, State.release, Owner.held, hpc]
  | idle | acquired | closing | failed | leaked =>
      simp [State.close, hpc] at hnext

/-- Every permitted step keeps the invariant. -/
theorem Inv.step {netType : NetType} {s s' : State} {action : Action}
    (hinv : s.Inv) (hpermitted : Permitted s action)
    (hstep : PortOwner.step netType s action = some s') : s'.Inv := by
  cases action with
  | elapse seconds =>
      simp only [PortOwner.step, Option.some.injEq] at hstep
      subst hstep
      exact ⟨hinv.disjoint, hinv.backed⟩
  | clean =>
      simp only [PortOwner.step, Option.some.injEq] at hstep
      subst hstep
      exact ⟨hinv.disjoint, hinv.backed⟩
  | acquire i kind name remotePort refused order =>
      simp only [PortOwner.step, Option.ite_none_right_eq_some,
        Option.some.injEq] at hstep
      obtain ⟨⟨hidle, _, _, horder⟩, rfl⟩ := hstep
      exact hinv.acquire hidle horder hpermitted
  | listen i success =>
      simp only [PortOwner.step, Option.ite_none_right_eq_some,
        Option.some.injEq] at hstep
      obtain ⟨⟨hacquired, _⟩, rfl⟩ := hstep
      exact hinv.listen success hacquired
  | close i closer =>
      simp only [PortOwner.step, Option.ite_none_right_eq_some] at hstep
      exact hinv.close hpermitted hstep.2
  | release i =>
      simp only [PortOwner.step, Option.ite_none_right_eq_some,
        Option.some.injEq] at hstep
      obtain ⟨hclosing, rfl⟩ := hstep
      refine hinv.release_held ?_ rfl
      simp [holds, Owner.held, hclosing]

theorem Inv.owns {s : State} (hinv : s.Inv) (i : Nat) : s.Owns i := by
  intro hlistening
  have hused : s.pm.usedPorts (s.owners i).realPort = some i := by
    apply hinv.backed
    simp [holds, Owner.held, hlistening]
  refine ⟨hused, ?_⟩
  intro hfree
  rw [hinv.disjoint _ hfree] at hused
  cases hused

end State

theorem inv_of_run {netType : NetType} {allowPorts : Finset Int}
    {word : List Action} {s : State}
    (hrun : (system netType allowPorts).Run Permitted word s) : s.Inv := by
  refine System.Run.invariant (State.inv_init allowPorts) ?_ hrun
  intro state action next hinv hpermitted hstep
  exact State.Inv.step hinv hpermitted hstep

/-- A port stays owned until its owner closes, in every run in which no
reserved port is taken from its user and no `Close` comes back for a port that
is used again. -/
theorem owns_of_run (netType : NetType) (allowPorts : Finset Int)
    {word : List Action} {s : State}
    (hrun : (system netType allowPorts).Run Permitted word s) (i : Nat) :
    s.Owns i :=
  (inv_of_run hrun).owns i

/-- Two proxies share a port one after the other, and the second Close of the
first comes while the port is free. -/
def handover : List Action :=
  [.acquire 0 .proxy "a" 6000 ∅ [6000], .listen 0 true, .close 0 .control,
    .release 0, .close 0 .self, .acquire 1 .proxy "b" 6000 ∅ [6000],
    .listen 1 true]

theorem owns_of_run_handover :
    ∃ s, (system .udp {6000}).Run Permitted handover s ∧
      (s.owners 1).pc = .listening ∧ s.Owns 1 := by
  obtain ⟨s, hrun, hlistening⟩ :
      ∃ s, (system .udp {6000}).Run Permitted handover s ∧
        (s.owners 1).pc = .listening :=
    System.exists_run_of_replay (by decide)
  exact ⟨s, hrun, hlistening, owns_of_run .udp {6000} hrun 1⟩

/-- The goroutine of the first proxy closes it again after the second one has
got the port. -/
def delayedClose : List Action :=
  [.acquire 0 .proxy "a" 6000 ∅ [6000], .listen 0 true, .close 0 .control,
    .release 0, .acquire 1 .proxy "b" 6000 ∅ [6000], .listen 1 true,
    .close 0 .self]

theorem not_owns_delayedClose :
    ∃ s, (system .udp {6000}).Reaches delayedClose s ∧ ¬ s.Owns 1 :=
  System.exists_reaches_of_exec (by decide)

end PortOwner

end Frp
