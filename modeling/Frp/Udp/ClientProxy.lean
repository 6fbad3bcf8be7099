/-
The udp proxy of frpc: `UDPProxy.InWorkConn` and `Close` of
`client/proxy/proxy.go` under the Wrapper that starts and stops them.  A call of
`InWorkConn` closes what an earlier one has left, wraps its connection and
installs it in a second critical section.
-/
import Frp.Lib.System
import Frp.Client.Wrapper

namespace Frp.Udp

open Transition

namespace ClientProxy

/-- A work connection and the call that it comes with, from
`Wrapper.InWorkConn` on: `found` is past the lock of the Wrapper and about to
read its phase, `entered` is a new goroutine in `UDPProxy.InWorkConn`. -/
inductive CallPc where
  | absent
  | found
  | refused
  | entered
  | emptied
  | wrapped
  | failed
  | installed
  | returned
deriving DecidableEq, Repr

namespace CallPc

/-- The connection is still in the hands of its call. -/
def carries : CallPc → Bool
  | .absent | .found | .entered | .emptied | .wrapped => true
  | _ => false

/-- The connection has been stored in the proxy. -/
def stored : CallPc → Bool
  | .installed | .returned => true
  | _ => false

/-- The call has closed the connection itself. -/
def drops : CallPc → Bool
  | .refused | .failed => true
  | _ => false

/-- The call has passed its own `Close`. -/
def pastClose : CallPc → Bool
  | .emptied | .wrapped | .failed | .installed | .returned => true
  | _ => false

/-- The call has not begun or has ended. -/
def idle : CallPc → Bool
  | .absent | .refused | .failed | .returned => true
  | _ => false

end CallPc

/-- The call of `Wrapper.Stop`: it holds the lock of the Wrapper from `locked` to
`pxyClosed`. -/
inductive StopPc where
  | notCalled
  | locked
  | pxyClosed
  | returned
deriving DecidableEq, Repr

def StopPc.holdsLock : StopPc → Bool
  | .locked | .pxyClosed => true
  | _ => false

def StopPc.pastClose : StopPc → Bool
  | .pxyClosed | .returned => true
  | _ => false

/-- The two channels of the Wrapper, and those of the proxy by the call that made
them. -/
inductive ChanName where
  | closeCh
  | healthNotifyCh
  | readCh (i : Nat)
  | sendCh (i : Nat)
deriving DecidableEq, Repr

/-- The fields under `pxy.mu`; connections have the number of their call. -/
structure UDPProxy where
  closed : Bool
  workConn : Option Nat
  readCh : Option Nat
  sendCh : Option Nat
deriving DecidableEq, Repr

/-- `closes` are the channels that have been closed, in order. -/
structure State where
  pw : Wrapper
  stop : StopPc
  calls : Nat → CallPc
  pxy : UDPProxy
  closedConns : List Nat
  closes : List ChanName

inductive Action where
  | checkWorker (now : Nat)
  | setRunningStatus (now : Nat) (remoteAddr respErr : String)
      (runErr : Option String)
  | health (normal : Bool)
  | find (i : Nat)
  | readPhase (i : Nat)
  | empty (i : Nat)
  | wrap (i : Nat) (encrypted : Bool)
  | install (i : Nat)
  | forward (i : Nat)
  | close
  | stop
deriving DecidableEq, Repr

def init (healthCheck : Bool) : State where
  pw := Wrapper.newWrapper healthCheck
  stop := .notCalled
  calls _ := .absent
  pxy := ⟨false, none, none, none⟩
  closedConns := []
  closes := []

namespace State

/-- `UDPProxy.Close`. -/
def close (s : State) : State :=
  if s.pxy.closed then s
  else
    { s with
      pxy := { s.pxy with closed := true }
      closedConns := s.pxy.workConn.toList ++ s.closedConns
      closes := s.closes ++ (s.pxy.readCh.map .readCh).toList ++
        (s.pxy.sendCh.map .sendCh).toList }

def setCall (s : State) (i : Nat) (pc : CallPc) : State :=
  { s with calls := Function.update s.calls i pc }

/-- The call closes its own connection. -/
def drop (s : State) (i : Nat) (pc : CallPc) : State :=
  { s.setCall i pc with closedConns := i :: s.closedConns }

/-- The second critical section of `InWorkConn`. -/
def install (s : State) (i : Nat) : State :=
  { s.setCall i .installed with pxy := ⟨false, some i, some i, some i⟩ }

/-- A section under the lock of the Wrapper. -/
def setPw (s : State) (pw : Wrapper) : Option State :=
  if s.stop.holdsLock then none else some { s with pw := pw }

/-- The step of the call from `before` on. -/
def advance (s : State) (i : Nat) (before : CallPc) (next : State) :
    Option State :=
  if s.calls i = before then some next else none

end State

open State

/-- One step.  `forward` starts the goroutines and the `Forwarder`, none of which
closes anything; `Stop` closes the proxy before it sets the phase. -/
def step (useEncryption : Bool) (s : State) : Action → Option State
  | .checkWorker now => s.setPw (s.pw.checkWorker now).1
  | .setRunningStatus now remoteAddr respErr runErr =>
      s.setPw (s.pw.setRunningStatus now remoteAddr respErr runErr).pw
  | .health normal =>
      some { s with
        pw := if normal then s.pw.statusNormalCallback
          else s.pw.statusFailedCallback }
  | .find i =>
      if s.stop.holdsLock then none
      else s.advance i .absent (s.setCall i .found)
  | .readPhase i =>
      s.advance i .found
        (if s.pw.phase = .running then s.setCall i .entered
        else s.drop i .refused)
  | .empty i => s.advance i .entered (s.close.setCall i .emptied)
  | .wrap i encrypted =>
      s.advance i .emptied
        (if useEncryption && !encrypted then s.drop i .failed
        else s.setCall i .wrapped)
  | .install i => s.advance i .wrapped (s.install i)
  | .forward i => s.advance i .installed (s.setCall i .returned)
  | .close => some s.close
  | .stop =>
      match s.stop with
      | .notCalled =>
          some { s with
            stop := .locked
            closes := s.closes ++ [.closeCh, .healthNotifyCh] }
      | .locked => some { s.close with stop := .pxyClosed }
      | .pxyClosed => some { s with pw := s.pw.stop.1, stop := .returned }
      | .returned => none

def system (useEncryption healthCheck : Bool) : System State Action where
  start := init healthCheck
  step := step useEncryption

namespace State

/-- The connection has left the hands of its call and is open. -/
def Left (s : State) (i : Nat) : Prop :=
  (s.calls i).carries = false ∧ i ∉ s.closedConns

/-- What is open once no call carries it: at most one connection, and none after
the `Close` of `Stop`. -/
structure Tidy (s : State) : Prop where
  single : ∀ i j, s.Left i → s.Left j → i = j
  stopped : s.stop.pastClose = true → ∀ i, ¬ s.Left i
  once : s.closes.Nodup

/-- What holds in every run. -/
structure Inv (s : State) : Prop where
  chans : s.pxy.readCh = s.pxy.workConn ∧ s.pxy.sendCh = s.pxy.workConn
  current : ∀ i, s.pxy.workConn = some i → (s.calls i).stored = true
  openConn : s.pxy.closed = false → ∀ i, s.pxy.workConn = some i →
    i ∉ s.closedConns
  carried : ∀ i, (s.calls i).carries = true → i ∉ s.closedConns
  dropped : ∀ i, (s.calls i).drops = true → i ∈ s.closedConns
  past : (∃ i, (s.calls i).pastClose = true) →
    s.pxy.closed = true ∨ s.pxy.workConn.isSome = true
  closes : ∀ i, (.readCh i ∈ s.closes ∨ .sendCh i ∈ s.closes) →
    (s.calls i).stored = true ∧
      (s.pxy.workConn = some i → s.pxy.closed = true)
  wrapper : (.closeCh ∈ s.closes ∨ .healthNotifyCh ∈ s.closes) →
    s.stop ≠ .notCalled
  once : s.closes.Nodup

/-- What holds in every run without a bad install. -/
structure Sound (s : State) : Prop where
  inv : s.Inv
  left : ∀ i, s.Left i → s.pxy.closed = false ∧ s.pxy.workConn = some i
  stopped : s.stop.pastClose = true → s.pxy.closed = true

theorem Sound.tidy {s : State} (hsound : s.Sound) : s.Tidy where
  single i j hi hj :=
    Option.some.inj ((hsound.left i hi).2.symm.trans (hsound.left j hj).2)
  stopped hstop i hi := by
    have hclosed := hsound.stopped hstop
    rw [(hsound.left i hi).1] at hclosed
    cases hclosed
  once := hsound.inv.once

theorem sound_init (healthCheck : Bool) : (init healthCheck).Sound where
  inv :=
    { chans := ⟨rfl, rfl⟩
      current := fun _ hcurrent => by cases hcurrent
      openConn := fun _ _ hcurrent => by cases hcurrent
      carried := fun _ _ => List.not_mem_nil
      dropped := fun _ hdrops => by cases hdrops
      past := fun ⟨_, hpast⟩ => by cases hpast
      closes := fun _ hmem => by simp [init] at hmem
      wrapper := fun hmem => by simp [init] at hmem
      once := List.nodup_nil }
  left _ hleft := by cases hleft.1
  stopped hstop := by cases hstop

@[simp] theorem close_calls (s : State) : s.close.calls = s.calls := by
  by_cases hclosed : s.pxy.closed = true <;> simp [close, hclosed]

@[simp] theorem close_stop (s : State) : s.close.stop = s.stop := by
  by_cases hclosed : s.pxy.closed = true <;> simp [close, hclosed]

@[simp] theorem close_workConn (s : State) :
    s.close.pxy.workConn = s.pxy.workConn := by
  by_cases hclosed : s.pxy.closed = true <;> simp [close, hclosed]

@[simp] theorem close_closed (s : State) : s.close.pxy.closed = true := by
  by_cases hclosed : s.pxy.closed = true <;> simp [close, hclosed]

theorem close_of_closed {s : State} (hclosed : s.pxy.closed = true) :
    s.close = s := if_pos hclosed

theorem mem_closedConns_close {s : State} (hclosed : s.pxy.closed = false)
    (i : Nat) : i ∈ s.close.closedConns ↔
      s.pxy.workConn = some i ∨ i ∈ s.closedConns := by
  simp [close, hclosed]

theorem closes_close {s : State} (hinv : s.Inv)
    (hclosed : s.pxy.closed = false) :
    s.close.closes = s.closes ++ (s.pxy.workConn.toList.flatMap fun i =>
      [.readCh i, .sendCh i]) := by
  cases hconn : s.pxy.workConn with
  | none => simp [close, hclosed, hinv.chans.1, hinv.chans.2, hconn]
  | some i => simp [close, hclosed, hinv.chans.1, hinv.chans.2, hconn]

theorem Inv.carries_current {s : State} (hinv : s.Inv) {i : Nat}
    (hconn : s.pxy.workConn = some i) : (s.calls i).carries = false := by
  have hstored := hinv.current i hconn
  cases hpc : s.calls i <;> simp_all [CallPc.carries, CallPc.stored]

/-- The channels of the proxy are closed together with its connection, so `Close`
finds them open. -/
theorem Inv.nodup_close {s : State} (hinv : s.Inv)
    (hclosed : s.pxy.closed = false) : s.close.closes.Nodup := by
  rw [closes_close hinv hclosed]
  cases hconn : s.pxy.workConn with
  | none => simpa using hinv.once
  | some i =>
      have hopen : ¬ (.readCh i ∈ s.closes ∨ .sendCh i ∈ s.closes) := by
        intro hmem
        have hshut := (hinv.closes i hmem).2 hconn
        rw [hclosed] at hshut
        cases hshut
      rw [List.nodup_append]
      refine ⟨hinv.once, by simp, ?_⟩
      intro name hmem other hother heq
      subst heq
      have hname : name = .readCh i ∨ name = .sendCh i := by simpa using hother
      rcases hname with rfl | rfl
      · exact hopen (.inl hmem)
      · exact hopen (.inr hmem)

theorem Inv.close {s : State} (hinv : s.Inv) : s.close.Inv := by
  cases hclosed : s.pxy.closed with
  | true => rwa [close_of_closed hclosed]
  | false =>
      have hchans : s.close.pxy = { s.pxy with closed := true } := by
        simp [State.close, hclosed]
      have hcloses := closes_close hinv hclosed
      constructor
      · rw [hchans]
        exact hinv.chans
      · simpa using hinv.current
      · simp
      · intro i hi hmem
        rw [close_calls] at hi
        rcases (mem_closedConns_close hclosed i).mp hmem with hconn | hold
        · rw [hinv.carries_current hconn] at hi
          cases hi
        · exact hinv.carried i hi hold
      · intro i hi
        rw [close_calls] at hi
        exact (mem_closedConns_close hclosed i).mpr (.inr (hinv.dropped i hi))
      · exact fun _ => .inl s.close_closed
      · intro i hmem
        rw [close_calls]
        refine ⟨?_, fun _ => s.close_closed⟩
        have hcases : s.pxy.workConn = some i ∨
            (.readCh i ∈ s.closes ∨ .sendCh i ∈ s.closes) := by
          simp only [hcloses, List.mem_append, List.mem_flatMap,
            Option.mem_toList, List.mem_cons,
            ChanName.readCh.injEq, ChanName.sendCh.injEq] at hmem
          grind
        rcases hcases with hconn | hold
        · exact hinv.current i hconn
        · exact (hinv.closes i hold).1
      · intro hmem
        rw [close_stop]
        exact hinv.wrapper (by simpa [hcloses] using hmem)
      · exact hinv.nodup_close hclosed

/-- A step of a call that does not touch the proxy and closes nothing. -/
theorem Inv.setCall {s : State} (hinv : s.Inv) {i : Nat} {pc : CallPc}
    (hstored : pc.stored = (s.calls i).stored)
    (hcarries : pc.carries = (s.calls i).carries)
    (hdrops : pc.drops = (s.calls i).drops)
    (hpast : pc.pastClose = true → (s.calls i).pastClose = true ∨
      s.pxy.closed = true) : (s.setCall i pc).Inv := by
  have hat : ∀ (p : CallPc → Bool), p pc = p (s.calls i) →
      ∀ j, p ((s.setCall i pc).calls j) = p (s.calls j) := by
    intro p hp j
    by_cases hj : j = i
    · subst hj
      simpa [State.setCall] using hp
    · simp [State.setCall, hj]
  constructor
  · exact hinv.chans
  · intro j hj
    rw [hat _ hstored]
    exact hinv.current j hj
  · exact hinv.openConn
  · intro j hj
    rw [hat _ hcarries] at hj
    exact hinv.carried j hj
  · intro j hj
    rw [hat _ hdrops] at hj
    exact hinv.dropped j hj
  · rintro ⟨j, hj⟩
    by_cases hji : j = i
    · subst hji
      have hpc : pc.pastClose = true := by simpa [State.setCall] using hj
      rcases hpast hpc with hbefore | hclosed
      · exact hinv.past ⟨j, hbefore⟩
      · exact Or.inl hclosed
    · exact hinv.past ⟨j, by simpa [State.setCall, hji] using hj⟩
  · intro j hj
    rw [hat _ hstored]
    exact hinv.closes j hj
  · exact hinv.wrapper
  · exact hinv.once

/-- A call that is where the call at `pc` is not is another one, and has been
there before. -/
theorem of_update {calls : Nat → CallPc} {i j : Nat} {pc : CallPc}
    {p : CallPc → Bool} (hpc : p pc = false)
    (hj : p (Function.update calls i pc j) = true) :
    j ≠ i ∧ p (calls j) = true := by
  have hji : j ≠ i := by
    rintro rfl
    rw [Function.update_self, hpc] at hj
    cases hj
  rw [Function.update_of_ne hji] at hj
  exact ⟨hji, hj⟩

/-- A step of a call that closes its connection. -/
theorem Inv.drop {s : State} (hinv : s.Inv) {i : Nat} {pc : CallPc}
    (hcarries : (s.calls i).carries = true) (hdrops : pc.drops = true)
    (hpast : pc.pastClose = true → (s.calls i).pastClose = true) :
    (s.drop i pc).Inv := by
  have hafter : pc.carries = false ∧ pc.stored = false := by
    cases pc <;> simp_all [CallPc.drops, CallPc.carries, CallPc.stored]
  have hnew : ∀ j, (s.calls j).stored = true → j ≠ i := by
    rintro j hj rfl
    cases hpc : s.calls j <;> simp_all [CallPc.carries, CallPc.stored]
  have hother : ∀ j, j ≠ i → (s.drop i pc).calls j = s.calls j :=
    fun j hj => by simp [State.drop, State.setCall, hj]
  have hself : (s.drop i pc).calls i = pc := by
    simp [State.drop, State.setCall]
  have hkept : ∀ j, (s.calls j).stored = true →
      ((s.drop i pc).calls j).stored = true := by
    intro j hj
    rwa [hother j (hnew j hj)]
  have hmem : ∀ j, j ∈ (s.drop i pc).closedConns ↔ j = i ∨ j ∈ s.closedConns :=
    fun j => List.mem_cons
  constructor
  · exact hinv.chans
  · exact fun j hj => hkept j (hinv.current j hj)
  · intro hclosed j hj
    rw [hmem, not_or]
    exact ⟨hnew j (hinv.current j hj), hinv.openConn hclosed j hj⟩
  · intro j hj
    obtain ⟨hji, hbefore⟩ := of_update hafter.1 hj
    rw [hmem, not_or]
    exact ⟨hji, hinv.carried j hbefore⟩
  · intro j hj
    rw [hmem]
    by_cases hji : j = i
    · exact Or.inl hji
    · rw [hother j hji] at hj
      exact Or.inr (hinv.dropped j hj)
  · rintro ⟨j, hj⟩
    by_cases hji : j = i
    · subst hji
      rw [hself] at hj
      exact hinv.past ⟨j, hpast hj⟩
    · rw [hother j hji] at hj
      exact hinv.past ⟨j, hj⟩
  · intro j hj
    exact ⟨hkept j (hinv.closes j hj).1, (hinv.closes j hj).2⟩
  · exact hinv.wrapper
  · exact hinv.once

theorem Inv.install {s : State} (hinv : s.Inv) {i : Nat}
    (hpc : s.calls i = .wrapped) : (s.install i).Inv := by
  have hother : ∀ j, j ≠ i → (s.install i).calls j = s.calls j :=
    fun j hj => by simp [State.install, State.setCall, hj]
  have hself : (s.install i).calls i = .installed := by
    simp [State.install, State.setCall]
  have hnew : ∀ j, (s.calls j).stored = true → j ≠ i := by
    rintro j hj rfl
    rw [hpc] at hj
    cases hj
  constructor
  · exact ⟨rfl, rfl⟩
  · intro j hj
    obtain rfl : i = j := Option.some.inj hj
    rw [hself]
    rfl
  · intro _ j hj
    obtain rfl : i = j := Option.some.inj hj
    exact hinv.carried i (by rw [hpc]; rfl)
  · intro j hj
    exact hinv.carried j (of_update (p := CallPc.carries) rfl hj).2
  · intro j hj
    exact hinv.dropped j (of_update (p := CallPc.drops) rfl hj).2
  · exact fun _ => Or.inr rfl
  · intro j hj
    have hstored := (hinv.closes j hj).1
    have hji := hnew j hstored
    refine ⟨by rwa [hother j hji], ?_⟩
    intro hcurrent
    exact absurd (Option.some.inj hcurrent).symm hji
  · exact hinv.wrapper
  · exact hinv.once

theorem Inv.stopFirst {s : State} (hinv : s.Inv)
    (hstop : s.stop = .notCalled) :
    Inv { s with
      stop := .locked
      closes := s.closes ++ [.closeCh, .healthNotifyCh] } where
  chans := hinv.chans
  current := hinv.current
  openConn := hinv.openConn
  carried := hinv.carried
  dropped := hinv.dropped
  past := hinv.past
  closes i hmem := hinv.closes i (by simpa using hmem)
  wrapper _ := by simp
  once := by
    have hopen : ¬ (.closeCh ∈ s.closes ∨ .healthNotifyCh ∈ s.closes) :=
      fun hmem => hinv.wrapper hmem hstop
    rw [List.nodup_append]
    refine ⟨hinv.once, by simp, ?_⟩
    intro name hmem other hother heq
    subst heq
    have hname : name = .closeCh ∨ name = .healthNotifyCh := by
      simpa using hother
    rcases hname with rfl | rfl
    · exact hopen (.inl hmem)
    · exact hopen (.inr hmem)

/-- Sections that touch neither the proxy nor a call. -/
theorem Inv.frame {s s' : State} (hinv : s.Inv) (hcalls : s'.calls = s.calls)
    (hpxy : s'.pxy = s.pxy) (hconns : s'.closedConns = s.closedConns)
    (hcloses : s'.closes = s.closes)
    (hstop : s.stop ≠ .notCalled → s'.stop ≠ .notCalled) : s'.Inv := by
  cases s'
  cases s
  dsimp only at *
  subst hcalls hpxy hconns hcloses
  exact ⟨hinv.chans, hinv.current, hinv.openConn, hinv.carried, hinv.dropped,
    hinv.past, hinv.closes, fun hmem => hstop (hinv.wrapper hmem), hinv.once⟩

theorem Sound.close {s : State} (hsound : s.Sound) : s.close.Sound where
  inv := hsound.inv.close
  left i hi := by
    cases hclosed : s.pxy.closed with
    | true => rw [close_of_closed hclosed] at hi ⊢; exact hsound.left i hi
    | false =>
        have hgone : ¬ (s.pxy.workConn = some i ∨ i ∈ s.closedConns) :=
          fun hmem => hi.2 ((mem_closedConns_close hclosed i).mpr hmem)
        have hleft : s.Left i :=
          ⟨by simpa using hi.1, fun hmem => hgone (.inr hmem)⟩
        exact absurd (.inl (hsound.left i hleft).2) hgone
  stopped _ := s.close_closed

theorem Sound.setCall {s : State} (hsound : s.Sound) {i : Nat} {pc : CallPc}
    (hstored : pc.stored = (s.calls i).stored)
    (hcarries : pc.carries = (s.calls i).carries)
    (hdrops : pc.drops = (s.calls i).drops)
    (hpast : pc.pastClose = true → (s.calls i).pastClose = true ∨
      s.pxy.closed = true) : (s.setCall i pc).Sound where
  inv := hsound.inv.setCall hstored hcarries hdrops hpast
  left j hj := by
    refine hsound.left j ⟨?_, hj.2⟩
    by_cases hji : j = i
    · subst hji
      rw [← hcarries]
      simpa [State.setCall] using hj.1
    · simpa [State.setCall, hji] using hj.1
  stopped := hsound.stopped

theorem Sound.drop {s : State} (hsound : s.Sound) {i : Nat} {pc : CallPc}
    (hcarries : (s.calls i).carries = true) (hdrops : pc.drops = true)
    (hpast : pc.pastClose = true → (s.calls i).pastClose = true) :
    (s.drop i pc).Sound where
  inv := hsound.inv.drop hcarries hdrops hpast
  left j hj := by
    have hmem : j ≠ i ∧ j ∉ s.closedConns := by
      simpa [State.drop, not_or] using hj.2
    refine hsound.left j ⟨?_, hmem.2⟩
    simpa [State.drop, State.setCall, hmem.1] using hj.1
  stopped := hsound.stopped

/-- An install that finds the proxy closed and `Stop` not past its `Close`. -/
theorem Sound.install {s : State} (hsound : s.Sound) {i : Nat}
    (hpc : s.calls i = .wrapped) (hclosed : s.pxy.closed = true)
    (hstop : s.stop.pastClose = false) : (s.install i).Sound where
  inv := hsound.inv.install hpc
  left j hj := by
    by_cases hji : j = i
    · exact ⟨rfl, by rw [hji]; rfl⟩
    · have hleft : s.Left j :=
        ⟨by simpa [State.install, State.setCall, hji] using hj.1, hj.2⟩
      have hopen := (hsound.left j hleft).1
      rw [hclosed] at hopen
      cases hopen
  stopped hpast := by
    have hbefore : s.stop.pastClose = true := hpast
    rw [hstop] at hbefore
    cases hbefore

/-- Any other install leaves two connections, or one behind `Stop`. -/
theorem Sound.install_not_tidy {s : State} (hsound : s.Sound) {i : Nat}
    (hpc : s.calls i = .wrapped) (htidy : (s.install i).Tidy) :
    s.pxy.closed = true ∧ s.stop.pastClose = false := by
  have hleft : (s.install i).Left i :=
    ⟨by simp [State.install, State.setCall, CallPc.carries],
      hsound.inv.carried i (by rw [hpc]; rfl)⟩
  constructor
  · by_contra hclosed
    have hopen : s.pxy.closed = false := by simpa using hclosed
    have hpast := hsound.inv.past ⟨i, by rw [hpc]; rfl⟩
    obtain ⟨j, hj⟩ := Option.isSome_iff_exists.mp (hpast.resolve_left hclosed)
    have hstored := hsound.inv.current j hj
    have hji : j ≠ i := by
      rintro rfl
      rw [hpc] at hstored
      cases hstored
    have hother : (s.install i).Left j :=
      ⟨by simpa [State.install, State.setCall, hji] using
          hsound.inv.carries_current hj,
        hsound.inv.openConn hopen j hj⟩
    exact hji (htidy.single j i hother hleft)
  · by_contra hstop
    have hpast : s.stop.pastClose = true := by simpa using hstop
    exact htidy.stopped hpast i hleft

end State

/-- A call may install its connection while the proxy is closed, and not once
`Stop` has closed it. -/
def Permitted (s : State) : Action → Prop
  | .install _ => s.pxy.closed = true ∧ s.stop.pastClose = false
  | _ => True

instance (s : State) : (action : Action) → Decidable (Permitted s action)
  | .install _ => inferInstanceAs (Decidable (_ ∧ _))
  | .checkWorker _ | .setRunningStatus _ _ _ _ | .health _ | .find _
  | .readPhase _ | .empty _ | .wrap _ _ | .forward _ | .close | .stop =>
      isTrue trivial

namespace State

theorem advance_eq_some {s s' next : State} {i : Nat} {before : CallPc} :
    s.advance i before next = some s' ↔ s.calls i = before ∧ next = s' := by
  simp [advance]

theorem Sound.frame {s s' : State} (hsound : s.Sound)
    (hcalls : s'.calls = s.calls) (hpxy : s'.pxy = s.pxy)
    (hconns : s'.closedConns = s.closedConns)
    (hcloses : s'.closes = s.closes) (hstop : s'.stop = s.stop) : s'.Sound where
  inv := hsound.inv.frame hcalls hpxy hconns hcloses
    (fun hbefore => by rwa [hstop])
  left i hi := by
    rw [hpxy]
    exact hsound.left i ⟨by rw [← hcalls]; exact hi.1,
      by rw [← hconns]; exact hi.2⟩
  stopped hpast := by
    rw [hpxy]
    exact hsound.stopped (by rwa [← hstop])

theorem Sound.setPw {s s' : State} (hsound : s.Sound) {pw : Wrapper}
    (hstep : s.setPw pw = some s') : s'.Sound := by
  simp only [State.setPw, Option.ite_none_left_eq_some,
    Option.some.injEq] at hstep
  obtain ⟨-, rfl⟩ := hstep
  exact hsound.frame rfl rfl rfl rfl rfl

theorem Sound.stop {useEncryption : Bool} {s s' : State} (hsound : s.Sound)
    (hstep : step useEncryption s .stop = some s') : s'.Sound := by
  simp only [step] at hstep
  cases hstop : s.stop with
  | notCalled =>
      rw [hstop] at hstep
      cases hstep
      exact ⟨hsound.inv.stopFirst hstop, hsound.left, fun h => by cases h⟩
  | locked =>
      rw [hstop] at hstep
      cases hstep
      have hclose := hsound.close
      refine ⟨hclose.inv.frame rfl rfl rfl rfl (fun _ => by simp), hclose.left,
        fun _ => s.close_closed⟩
  | pxyClosed =>
      rw [hstop] at hstep
      cases hstep
      refine ⟨hsound.inv.frame rfl rfl rfl rfl (fun _ => by simp), hsound.left,
        fun _ => hsound.stopped (by rw [hstop]; rfl)⟩
  | returned =>
      rw [hstop] at hstep
      cases hstep

theorem Sound.step {useEncryption : Bool} {s s' : State} {action : Action}
    (hsound : s.Sound) (hpermitted : Permitted s action)
    (hstep : step useEncryption s action = some s') : s'.Sound := by
  cases action with
  | checkWorker now => exact hsound.setPw hstep
  | setRunningStatus now remoteAddr respErr runErr => exact hsound.setPw hstep
  | health normal =>
      cases hstep
      exact hsound.frame rfl rfl rfl rfl rfl
  | find i =>
      simp only [ClientProxy.step, Option.ite_none_left_eq_some,
        advance_eq_some] at hstep
      obtain ⟨-, hpc, rfl⟩ := hstep
      exact hsound.setCall (by rw [hpc]; rfl) (by rw [hpc]; rfl)
        (by rw [hpc]; rfl) (fun h => by cases h)
  | readPhase i =>
      obtain ⟨hpc, rfl⟩ := advance_eq_some.mp hstep
      by_cases hphase : s.pw.phase = .running
      · rw [if_pos hphase]
        exact hsound.setCall (by rw [hpc]; rfl) (by rw [hpc]; rfl)
          (by rw [hpc]; rfl) (fun h => by cases h)
      · rw [if_neg hphase]
        exact hsound.drop (by rw [hpc]; rfl) rfl (fun h => by cases h)
  | empty i =>
      obtain ⟨hpc, rfl⟩ := advance_eq_some.mp hstep
      have hcalls : s.close.calls i = .entered := by rw [close_calls, hpc]
      exact hsound.close.setCall (by rw [hcalls]; rfl) (by rw [hcalls]; rfl)
        (by rw [hcalls]; rfl) (fun _ => .inr s.close_closed)
  | wrap i encrypted =>
      obtain ⟨hpc, rfl⟩ := advance_eq_some.mp hstep
      by_cases hfails : (useEncryption && !encrypted) = true
      · rw [if_pos hfails]
        exact hsound.drop (by rw [hpc]; rfl) rfl (fun _ => by rw [hpc]; rfl)
      · rw [if_neg hfails]
        exact hsound.setCall (by rw [hpc]; rfl) (by rw [hpc]; rfl)
          (by rw [hpc]; rfl) (fun _ => .inl (by rw [hpc]; rfl))
  | install i =>
      obtain ⟨hpc, rfl⟩ := advance_eq_some.mp hstep
      exact hsound.install hpc hpermitted.1 hpermitted.2
  | forward i =>
      obtain ⟨hpc, rfl⟩ := advance_eq_some.mp hstep
      exact hsound.setCall (by rw [hpc]; rfl) (by rw [hpc]; rfl)
        (by rw [hpc]; rfl) (fun _ => .inl (by rw [hpc]; rfl))
  | close =>
      cases hstep
      exact hsound.close
  | stop => exact hsound.stop hstep

theorem Sound.tidy_iff {useEncryption : Bool} {s s' : State} {action : Action}
    (hsound : s.Sound) (hstep : ClientProxy.step useEncryption s action = some s') :
    s'.Tidy ↔ Permitted s action := by
  constructor
  · intro htidy
    cases action with
    | install i =>
        obtain ⟨hpc, rfl⟩ := advance_eq_some.mp hstep
        exact hsound.install_not_tidy hpc htidy
    | _ => trivial
  · intro hpermitted
    exact (hsound.step hpermitted hstep).tidy

/-- Every call of `InWorkConn` and of `Stop` has returned. -/
structure Quiet (s : State) : Prop where
  calls : ∀ i, (s.calls i).idle = true
  stop : s.stop.holdsLock = false

/-- A work connection that was passed in and has not been closed. -/
def Open (s : State) (i : Nat) : Prop :=
  s.calls i ≠ .absent ∧ i ∉ s.closedConns

/-- A stopped proxy holds nothing open. -/
structure Released (s : State) : Prop where
  single : ∀ i j, s.Open i → s.Open j → i = j
  stopped : s.stop = .returned → ∀ i, ¬ s.Open i
  once : s.closes.Nodup

/-- With all calls returned none carries its connection. -/
theorem Tidy.released {s : State} (htidy : s.Tidy) (hquiet : s.Quiet) :
    s.Released := by
  have hleft : ∀ i, s.Open i → s.Left i := by
    intro i hi
    have hidle := hquiet.calls i
    refine ⟨?_, hi.2⟩
    cases hpc : s.calls i with
    | absent => exact absurd hpc hi.1
    | refused => rfl
    | failed => rfl
    | installed => rfl
    | returned => rfl
    | _ => rw [hpc] at hidle; cases hidle
  exact ⟨fun i j hi hj => htidy.single i j (hleft i hi) (hleft j hj),
    fun hstop i hi => htidy.stopped (by rw [hstop]; rfl) i (hleft i hi),
    htidy.once⟩

end State

/-- A run whose every step leads to a tidy state. -/
def LeadsTidy (useEncryption : Bool) (s : State) (action : Action) : Prop :=
  ∀ s' ∈ step useEncryption s action, s'.Tidy

theorem sound_of_run {useEncryption healthCheck : Bool} {word : List Action}
    {s : State}
    (hrun : (system useEncryption healthCheck).Run Permitted word s) : s.Sound :=
  hrun.invariant (State.sound_init healthCheck)
    fun _ _ _ hsound hpermitted hstep => hsound.step hpermitted hstep

/-- With every install permitted a stopped proxy holds nothing open once all calls
have returned.  The permitted runs are exactly those through states in which at
most one connection, and none after the `Close` of `Stop`, has been left open. -/
theorem released_iff_permitted (useEncryption healthCheck : Bool)
    (word : List Action) (s : State) :
    ((system useEncryption healthCheck).Run Permitted word s →
      s.Quiet → s.Released) ∧
    ((system useEncryption healthCheck).Run (LeadsTidy useEncryption) word s ↔
      (system useEncryption healthCheck).Run Permitted word s) := by
  constructor
  · intro hrun hquiet
    exact (sound_of_run hrun).tidy.released hquiet
  · exact System.run_leads_iff (State.sound_init healthCheck)
      (fun _ _ _ hsound hpermitted hstep => hsound.step hpermitted hstep)
      (fun _ _ _ hsound hstep => hsound.tidy_iff hstep) word s

/-- The proxy is running and call `i` has come as far as its own `Close`. -/
def running : List Action :=
  [.checkWorker 0, .setRunningStatus 0 "" "" none]

def enters (i : Nat) : List Action := [.find i, .readPhase i, .empty i]

def installs (i : Nat) : List Action := [.wrap i true, .install i, .forward i]

/-- Two connections, one after the other, and `Stop`. -/
def orderly : List Action :=
  running ++ enters 0 ++ installs 0 ++ enters 1 ++ installs 1 ++
    [.stop, .stop, .stop]

theorem released_iff_permitted_orderly :
    ∃ s, (system false false).Run Permitted orderly s ∧ s.Quiet ∧
      s.Released := by
  have hrun : ∃ s, (system false false).Run Permitted orderly s ∧ s.Quiet := by
    refine ⟨_, System.run_of_replay rfl, ?_, rfl⟩
    intro i
    match i with
    | 0 => rfl
    | 1 => rfl
    | n + 2 => rfl
  obtain ⟨s, hrun, hquiet⟩ := hrun
  exact ⟨s, hrun, hquiet,
    (released_iff_permitted false false orderly s).1 hrun hquiet⟩

/-- `Stop` falls between the two critical sections of a call. -/
def lateInstall : List Action :=
  running ++ enters 0 ++ [.stop, .stop, .stop] ++ installs 0

/-- Two calls have both passed their `Close` before either installs. -/
def siblings : List Action :=
  running ++ enters 0 ++ enters 1 ++ installs 0 ++ installs 1

/-- The connection of the first run is open after `Stop`, both connections of the
second stay open. -/
theorem not_released_lateInstall :
    (∃ s, (system false false).Reaches lateInstall s ∧ s.Quiet ∧
      ¬ s.Released) ∧
    (∃ s, (system false false).Reaches siblings s ∧ s.Quiet ∧
      ¬ s.Released) := by
  constructor
  · refine ⟨_, System.reaches_of_exec rfl, ⟨?_, rfl⟩, ?_⟩
    · intro i
      match i with
      | 0 => rfl
      | n + 1 => rfl
    · intro hreleased
      exact hreleased.stopped rfl 0 ⟨by decide, by decide⟩
  · refine ⟨_, System.reaches_of_exec rfl, ⟨?_, rfl⟩, ?_⟩
    · intro i
      match i with
      | 0 => rfl
      | 1 => rfl
      | n + 2 => rfl
    · intro hreleased
      have hsame := hreleased.single 0 1 ⟨by decide, by decide⟩
        ⟨by decide, by decide⟩
      cases hsame

end ClientProxy

end Frp.Udp
