/-
The end of a frpc service: `GracefulClose` of `client/service.go` against
`keepControllerWorking`, which reconnects.  The exit flag is tested once in a
round of the outer loop; the Control to close is read under `ctlMu`.
-/
import Frp.Lib.System
import Mathlib.Data.List.Basic

namespace Frp

open Transition

namespace ServiceClose

/-- What matters of a Control: `closed` says that its `Close` has returned,
`connClosed` that its connection is closed or lost, `closedDone` that its worker
has closed `closedDoneCh`. -/
structure ClientControl where
  running : Bool
  managersClosed : Bool
  connClosed : Bool
  closedDone : Bool
  closed : Bool
deriving DecidableEq, Repr

/-- Where `keepControllerWorking` is, and `Run` before it: `waiting` for the
current Control, `testing` the flag, `delaying` before and `retrying` between the
logins, `connected` after one, with the Control made, with it run, and holding
`ctlMu` with the old one closed. -/
inductive KeeperPc where
  | waiting
  | testing
  | delaying
  | login
  | retrying
  | connected
  | created (g : Nat)
  | ran (g : Nat)
  | publishing (g : Nat)
  | returned
deriving DecidableEq, Repr

/-- Where a call of `GracefulClose` is: the flag stored, `ctlMu` taken and `ctl`
read, asleep in `GracefulClose` of the Control, the Control closed, and the lock
released. -/
inductive ClosePc where
  | stored
  | locked (ctl : Option Nat)
  | sleeping (g : Nat)
  | ctlClosed
  | unlocked
  | returned
deriving DecidableEq, Repr

/-- `ctl` is the Control last published, `runs` counts the calls of `Run` of a
Control; `returned` is the number of Controls made and run when `GracefulClose`
first returned. -/
structure State where
  exit : Bool
  controls : Nat → ClientControl
  made : Nat
  runs : Nat
  ctl : Option Nat
  keeper : KeeperPc
  calls : List ClosePc
  cancelled : Bool
  returned : Option (Nat × Nat)

inductive Action where
  | lose (g : Nat)
  | finish (g : Nat)
  | keep (loginOk : Bool)
  | giveUp
  | gracefulClose
  | close (i : Nat)
deriving DecidableEq, Repr

def newControl : ClientControl := ⟨false, false, false, false, false⟩

def init : State where
  exit := false
  controls _ := newControl
  made := 0
  runs := 0
  ctl := none
  keeper := .login
  calls := []
  cancelled := false
  returned := none

namespace ClientControl

/-- `pm.Close` and `vm.Close`. -/
def closeManagers (control : ClientControl) : ClientControl :=
  { control with managersClosed := true }

/-- The rest of `GracefulClose`, after the sleep. -/
def closeConn (control : ClientControl) : ClientControl :=
  { control with connClosed := true, closed := true }

end ClientControl

namespace State

def setControl (s : State) (g : Nat) (control : ClientControl) : State :=
  { s with controls := Function.update s.controls g control }

/-- `Close` of a Control, without a delay. -/
def closeControl (s : State) : Option Nat → State
  | none => s
  | some g => s.setControl g (s.controls g).closeManagers.closeConn

/-- A call of `GracefulClose` holds `ctlMu` for reading. -/
def readLocked (s : State) : Bool :=
  s.calls.any fun call => call matches .locked _ | .sleeping _ | .ctlClosed

/-- One step of the loop. -/
def keep (s : State) (loginOk : Bool) : Option State :=
  match s.keeper with
  | .waiting =>
      match s.ctl with
      | none => none
      | some g =>
          if (s.controls g).closedDone then some { s with keeper := .testing }
          else none
  | .testing =>
      some { s with keeper := if s.exit then .returned else .delaying }
  | .delaying => some { s with keeper := .login }
  | .login =>
      some { s with keeper := if loginOk then .connected else .retrying }
  | .retrying => some { s with keeper := .login }
  | .connected =>
      some { s.setControl s.made newControl with
        made := s.made + 1
        keeper := .created s.made }
  | .created g =>
      some { s.setControl g { s.controls g with running := true } with
        runs := s.runs + 1
        keeper := .ran g }
  | .ran g =>
      if s.readLocked then none
      else some { s.closeControl s.ctl with keeper := .publishing g }
  | .publishing g => some { s with ctl := some g, keeper := .waiting }
  | .returned => none

/-- One step of a call of `GracefulClose`. -/
def close (s : State) (i : Nat) : ClosePc → Option State
  | .stored =>
      match s.keeper with
      | .publishing _ => none
      | _ => some { s with calls := s.calls.set i (.locked s.ctl) }
  | .locked none => some { s with calls := s.calls.set i .ctlClosed }
  | .locked (some g) =>
      some { s.setControl g (s.controls g).closeManagers with
        calls := s.calls.set i (.sleeping g) }
  | .sleeping g =>
      some { s.setControl g (s.controls g).closeConn with
        calls := s.calls.set i .ctlClosed }
  | .ctlClosed => some { s with calls := s.calls.set i .unlocked }
  | .unlocked =>
      some { s with
        calls := s.calls.set i .returned
        cancelled := true
        returned := s.returned <|> some (s.made, s.runs) }
  | .returned => none

end State

/-- `finish` is the end of the worker, which a lost connection starts. -/
def step (s : State) : Action → Option State
  | .lose g =>
      some (s.setControl g { s.controls g with connClosed := true })
  | .finish g =>
      if (s.controls g).running ∧ (s.controls g).connClosed then
        some (s.setControl g { (s.controls g).closeManagers with
          closedDone := true })
      else none
  | .keep loginOk => s.keep loginOk
  | .giveUp =>
      if s.ctl = none ∧ s.keeper = .retrying then
        some { s with keeper := .returned }
      else none
  | .gracefulClose =>
      some { s with exit := true, calls := s.calls ++ [.stored] }
  | .close i =>
      match s.calls[i]? with
      | none => none
      | some call => s.close i call

def system : System State Action where
  start := init
  step := step

/-- Since `GracefulClose` has returned no Control has been made or run, and the
one last published is closed. -/
def State.StaysClosed (s : State) : Prop :=
  ∀ counts ∈ s.returned, s.made = counts.1 ∧ s.runs = counts.2 ∧
    ∀ g ∈ s.ctl, (s.controls g).closed = true

/-- The keeper is not between its test of the flag and the next publication. -/
def KeeperPc.Settled (pc : KeeperPc) : Prop :=
  pc = .waiting ∨ pc = .testing ∨ pc = .returned

instance (pc : KeeperPc) : Decidable pc.Settled :=
  inferInstanceAs (Decidable (_ ∨ _ ∨ _))

/-- A call that takes `ctlMu` finds the keeper before its test, or gone. -/
def Permitted (s : State) : Action → Prop
  | .close i => s.calls[i]? = some .stored → s.keeper.Settled
  | _ => True

instance (s : State) (action : Action) : Decidable (Permitted s action) :=
  match action with
  | .close i =>
      inferInstanceAs (Decidable (s.calls[i]? = some .stored → s.keeper.Settled))
  | .lose _ | .finish _ | .keep _ | .giveUp | .gracefulClose =>
      inferInstanceAs (Decidable True)

/-- The call has taken `ctlMu`. -/
def ClosePc.Passed (pc : ClosePc) : Prop := pc ≠ .stored

/-- The call is through with the Control. -/
def ClosePc.Closed (pc : ClosePc) : Prop :=
  pc = .ctlClosed ∨ pc = .unlocked ∨ pc = .returned

theorem ClosePc.Closed.passed {pc : ClosePc} (hclosed : pc.Closed) :
    pc.Passed := by
  rcases hclosed with rfl | rfl | rfl <;> exact nofun

namespace State

/-- From the moment a call has taken `ctlMu` the keeper stays before its test, and
`ctl` stays the Control that the call closes. -/
structure Inv (s : State) : Prop where
  exit : s.calls ≠ [] → s.exit = true
  settled : ∀ call ∈ s.calls, call.Passed → s.keeper.Settled
  current : ∀ call ∈ s.calls, ∀ ctl, call = .locked ctl ∨
    (∃ g, call = .sleeping g ∧ ctl = some g) → s.ctl = ctl
  closed : ∀ call ∈ s.calls, call.Closed →
    ∀ g ∈ s.ctl, (s.controls g).closed = true
  counts : ∀ counts ∈ s.returned, s.made = counts.1 ∧ s.runs = counts.2 ∧
    .returned ∈ s.calls

theorem inv_init : init.Inv where
  exit h := absurd rfl h
  settled call h := by cases h
  current call h := by cases h
  closed call h := by cases h
  counts counts h := by cases h

theorem Inv.staysClosed {s : State} (hinv : s.Inv) : s.StaysClosed := by
  intro counts hcounts
  obtain ⟨hmade, hruns, hreturned⟩ := hinv.counts counts hcounts
  exact ⟨hmade, hruns,
    hinv.closed .returned hreturned (Or.inr (Or.inr rfl))⟩

/-- Before any call has taken `ctlMu` the keeper may do what it likes. -/
theorem Inv.of_not_passed {s s' : State} (hinv : s.Inv)
    (hnone : ∀ call ∈ s.calls, ¬ call.Passed) (hcalls : s'.calls = s.calls)
    (hexit : s'.exit = s.exit) (hreturned : s'.returned = s.returned) :
    s'.Inv where
  exit h := by
    rw [hexit]
    exact hinv.exit (hcalls ▸ h)
  settled call hcall hpassed := absurd hpassed (hnone call (hcalls ▸ hcall))
  current call hcall ctl hlocked := by
    apply absurd _ (hnone call (hcalls ▸ hcall))
    rcases hlocked with rfl | ⟨g, rfl, -⟩ <;> exact nofun
  closed call hcall hclosed :=
    absurd hclosed.passed (hnone call (hcalls ▸ hcall))
  counts counts hcounts := by
    obtain ⟨-, -, hmem⟩ := hinv.counts counts (hreturned ▸ hcounts)
    exact absurd (fun h => by cases h) (hnone .returned hmem)

/-- What happens to a Control other than its `Close` does not matter. -/
theorem Inv.setControl {s : State} (hinv : s.Inv) (g : Nat)
    {control : ClientControl}
    (hclosed : (s.controls g).closed = true → control.closed = true) :
    (s.setControl g control).Inv where
  exit := hinv.exit
  settled := hinv.settled
  current := hinv.current
  closed call hcall hthrough other hother := by
    have hother' := hinv.closed call hcall hthrough other hother
    by_cases hsame : other = g
    · subst hsame
      simpa [State.setControl] using hclosed hother'
    · simpa [State.setControl, Function.update_of_ne hsame] using hother'
  counts := hinv.counts

/-- The loop leaves the calls of `GracefulClose` alone. -/
theorem keep_frame {s s' : State} {loginOk : Bool}
    (hstep : s.keep loginOk = some s') :
    s'.calls = s.calls ∧ s'.exit = s.exit ∧ s'.returned = s.returned := by
  unfold State.keep at hstep
  cases hkeeper : s.keeper with
  | waiting =>
      simp only [hkeeper] at hstep
      split at hstep
      · cases hstep
      · split at hstep
        · cases hstep
          exact ⟨rfl, rfl, rfl⟩
        · cases hstep
  | testing | delaying | login | retrying | connected | created | publishing =>
      simp only [hkeeper, Option.some.injEq] at hstep
      subst hstep
      exact ⟨rfl, rfl, rfl⟩
  | ran g =>
      simp only [hkeeper] at hstep
      split at hstep
      · cases hstep
      · cases hstep
        cases s.ctl with
        | none => exact ⟨rfl, rfl, rfl⟩
        | some old => exact ⟨rfl, rfl, rfl⟩
  | returned => simp [hkeeper] at hstep

/-- A keeper that is not past its test leaves the loop when it gets there. -/
theorem Inv.keep {s s' : State} (hinv : s.Inv) {loginOk : Bool}
    (hstep : s.keep loginOk = some s') : s'.Inv := by
  by_cases hpassed : ∃ call ∈ s.calls, call.Passed
  · obtain ⟨call, hcall, hpassed⟩ := hpassed
    have hexit : s.exit = true := by
      apply hinv.exit
      rintro hnil
      rw [hnil] at hcall
      cases hcall
    have hkeeper : ∃ pc : KeeperPc, pc.Settled ∧ s' = { s with keeper := pc } := by
      rcases hinv.settled call hcall hpassed with hpc | hpc | hpc
      · simp only [State.keep, hpc] at hstep
        split at hstep
        · cases hstep
        · split at hstep
          · cases hstep
            exact ⟨.testing, Or.inr (Or.inl rfl), rfl⟩
          · cases hstep
      · simp only [State.keep, hpc] at hstep
        cases hstep
        exact ⟨.returned, Or.inr (Or.inr rfl), by simp [hexit]⟩
      · simp only [State.keep, hpc] at hstep
        cases hstep
    obtain ⟨pc, hpc, rfl⟩ := hkeeper
    exact ⟨hinv.exit, fun _ _ _ => hpc, hinv.current, hinv.closed, hinv.counts⟩
  · have hnone : ∀ call ∈ s.calls, ¬ call.Passed :=
      fun call hcall h => hpassed ⟨call, hcall, h⟩
    obtain ⟨hcalls, hexit, hreturned⟩ := keep_frame hstep
    exact hinv.of_not_passed hnone hcalls hexit hreturned

/-- A call moves on; what its new place promises is given. -/
theorem Inv.setCall {s : State} (hinv : s.Inv) {i : Nat} {old new : ClosePc}
    (hold : s.calls[i]? = some old)
    (hsettled : new.Passed → s.keeper.Settled)
    (hcurrent : ∀ ctl, new = .locked ctl ∨
      (∃ g, new = .sleeping g ∧ ctl = some g) → s.ctl = ctl)
    (hclosed : new.Closed → ∀ g ∈ s.ctl, (s.controls g).closed = true)
    (hreturned : old ≠ .returned) :
    State.Inv { s with calls := s.calls.set i new } where
  exit h := by
    apply hinv.exit
    rintro hnil
    rw [hnil] at hold
    cases hold
  settled call hcall hpassed := by
    rcases List.mem_or_eq_of_mem_set hcall with hmem | rfl
    · exact hinv.settled call hmem hpassed
    · exact hsettled hpassed
  current call hcall ctl hlocked := by
    rcases List.mem_or_eq_of_mem_set hcall with hmem | rfl
    · exact hinv.current call hmem ctl hlocked
    · exact hcurrent ctl hlocked
  closed call hcall hthrough := by
    rcases List.mem_or_eq_of_mem_set hcall with hmem | rfl
    · exact hinv.closed call hmem hthrough
    · exact hclosed hthrough
  counts counts hcounts := by
    obtain ⟨hmade, hruns, hmem⟩ := hinv.counts counts hcounts
    refine ⟨hmade, hruns, ?_⟩
    obtain ⟨j, hj⟩ := List.mem_iff_getElem?.mp hmem
    have hne : i ≠ j := by
      rintro rfl
      rw [hold, Option.some.injEq] at hj
      exact hreturned hj
    apply List.mem_of_getElem? (i := j)
    rw [List.getElem?_set_ne hne]
    exact hj

theorem Inv.close {s s' : State} (hinv : s.Inv) {i : Nat} {pc : ClosePc}
    (hpc : s.calls[i]? = some pc) (hpermitted : Permitted s (.close i))
    (hstep : s.close i pc = some s') : s'.Inv := by
  have hmem := List.mem_of_getElem? hpc
  cases pc with
  | stored =>
      have hkeeper : s.keeper.Settled := hpermitted hpc
      have hnext : s' = { s with calls := s.calls.set i (.locked s.ctl) } := by
        simp only [State.close] at hstep
        split at hstep
        · cases hstep
        · cases hstep
          rfl
      subst hnext
      apply hinv.setCall hpc (fun _ => hkeeper) _ _ nofun
      · rintro ctl (hlocked | ⟨g, hsleeping, -⟩)
        · cases hlocked
          rfl
        · cases hsleeping
      · rintro (h | h | h) <;> cases h
  | locked ctl =>
      have hkeeper := hinv.settled _ hmem nofun
      have hctl := hinv.current _ hmem ctl (Or.inl rfl)
      cases ctl with
      | none =>
          cases hstep
          apply hinv.setCall hpc (fun _ => hkeeper) _ _ nofun
          · rintro ctl (hlocked | ⟨g, hsleeping, -⟩)
            · cases hlocked
            · cases hsleeping
          · intro _ g hg
            rw [hctl] at hg
            cases hg
      | some g =>
          cases hstep
          have hcontrol : (s.setControl g (s.controls g).closeManagers).Inv :=
            hinv.setControl g id
          apply hcontrol.setCall hpc (fun _ => hkeeper) _ _ nofun
          · rintro ctl (hlocked | ⟨g', hsleeping, rfl⟩)
            · cases hlocked
            · cases hsleeping
              exact hctl
          · rintro (h | h | h) <;> cases h
  | sleeping g =>
      have hkeeper := hinv.settled _ hmem nofun
      have hctl := hinv.current _ hmem (some g) (Or.inr ⟨g, rfl, rfl⟩)
      cases hstep
      have hcontrol : (s.setControl g (s.controls g).closeConn).Inv :=
        hinv.setControl g fun _ => rfl
      apply hcontrol.setCall hpc (fun _ => hkeeper) _ _ nofun
      · rintro ctl (hlocked | ⟨g', hsleeping, -⟩)
        · cases hlocked
        · cases hsleeping
      · intro _ g' hg'
        have hsame : g = g' := Option.some.inj (hctl.symm.trans hg')
        subst hsame
        simp [State.setControl, ClientControl.closeConn]
  | ctlClosed =>
      have hkeeper := hinv.settled _ hmem nofun
      have hclosed := hinv.closed _ hmem (Or.inl rfl)
      cases hstep
      apply hinv.setCall hpc (fun _ => hkeeper) _ (fun _ => hclosed) nofun
      rintro ctl (hlocked | ⟨g', hsleeping, -⟩)
      · cases hlocked
      · cases hsleeping
  | unlocked =>
      have hkeeper := hinv.settled _ hmem nofun
      have hclosed := hinv.closed _ hmem (Or.inr (Or.inl rfl))
      cases hstep
      have hset : State.Inv { s with calls := s.calls.set i .returned } := by
        apply hinv.setCall hpc (fun _ => hkeeper) _ (fun _ => hclosed) nofun
        rintro ctl (hlocked | ⟨g', hsleeping, -⟩)
        · cases hlocked
        · cases hsleeping
      refine ⟨hset.exit, hset.settled, hset.current, hset.closed, ?_⟩
      intro counts hcounts
      have hreturned : .returned ∈ s.calls.set i .returned := by
        obtain ⟨hlt, _⟩ := List.getElem?_eq_some_iff.mp hpc
        exact List.mem_set hlt _
      cases hfirst : s.returned with
      | none =>
          simp only [hfirst] at hcounts
          cases hcounts
          exact ⟨rfl, rfl, hreturned⟩
      | some earlier =>
          simp only [hfirst] at hcounts
          cases hcounts
          obtain ⟨hmade, hruns, -⟩ := hinv.counts counts hfirst
          exact ⟨hmade, hruns, hreturned⟩
  | returned => cases hstep

theorem Inv.step {s s' : State} (hinv : s.Inv) {action : Action}
    (hpermitted : Permitted s action) (hstep : step s action = some s') :
    s'.Inv := by
  cases action with
  | lose g =>
      cases hstep
      exact hinv.setControl g id
  | finish g =>
      simp only [ServiceClose.step] at hstep
      split at hstep
      · cases hstep
        exact hinv.setControl g id
      · cases hstep
  | keep loginOk => exact hinv.keep hstep
  | giveUp =>
      simp only [ServiceClose.step] at hstep
      split at hstep
      · cases hstep
        exact ⟨hinv.exit, fun _ _ _ => Or.inr (Or.inr rfl), hinv.current,
          hinv.closed, hinv.counts⟩
      · cases hstep
  | gracefulClose =>
      cases hstep
      constructor
      · exact fun _ => rfl
      · intro call hcall hpassed
        rcases List.mem_append.mp hcall with hmem | hnew
        · exact hinv.settled call hmem hpassed
        · obtain rfl := List.mem_singleton.mp hnew
          exact absurd rfl hpassed
      · intro call hcall ctl hlocked
        rcases List.mem_append.mp hcall with hmem | hnew
        · exact hinv.current call hmem ctl hlocked
        · obtain rfl := List.mem_singleton.mp hnew
          rcases hlocked with h | ⟨g, h, -⟩ <;> cases h
      · intro call hcall hthrough
        rcases List.mem_append.mp hcall with hmem | hnew
        · exact hinv.closed call hmem hthrough
        · obtain rfl := List.mem_singleton.mp hnew
          rcases hthrough with h | h | h <;> cases h
      · intro counts hcounts
        obtain ⟨hmade, hruns, hmem⟩ := hinv.counts counts hcounts
        exact ⟨hmade, hruns, List.mem_append_left _ hmem⟩
  | close i =>
      simp only [ServiceClose.step] at hstep
      split at hstep
      · cases hstep
      · next pc hpc => exact hinv.close hpc hpermitted hstep

end State

/-- A service closed while the keeper waits for its Control, or has not yet
tested the flag, stays closed. -/
theorem staysClosed_of_run {word : List Action} {s : State}
    (hrun : system.Run Permitted word s) : s.StaysClosed := by
  have hinv : s.Inv := System.Run.invariant State.inv_init
    (fun _ _ _ hinv hpermitted hstep => hinv.step hpermitted hstep) hrun
  exact hinv.staysClosed

/-- The first login, up to the wait for the Control. -/
def firstLogin : List Action :=
  [.keep true, .keep true, .keep true, .keep true, .keep true]

/-- The service is closed while its Control works; the keeper wakes up and
leaves. -/
def closedAtWork : List Action :=
  firstLogin ++ [Action.gracefulClose, .close 0, .close 0, .close 0, .close 0,
    .close 0, .finish 0, .keep true, .keep true]

theorem staysClosed_of_run_closedAtWork :
    ∃ s, system.Run Permitted closedAtWork s ∧ s.returned = some (1, 1) ∧
      s.keeper = .returned ∧ s.StaysClosed := by
  obtain ⟨s, hrun, hreturned, hkeeper⟩ : ∃ s,
      system.Run Permitted closedAtWork s ∧ s.returned = some (1, 1) ∧
        s.keeper = .returned :=
    ⟨_, System.run_of_replay rfl, rfl, rfl⟩
  exact ⟨s, hrun, hreturned, hkeeper, staysClosed_of_run hrun⟩

/-- The connection is lost and the service closed during the delay before the
next login, which then succeeds. -/
def closedInDelay : List Action :=
  firstLogin ++ [Action.lose 0, .finish 0, .keep true, .keep true,
    .gracefulClose, .close 0, .close 0, .close 0, .close 0, .close 0,
    .keep true, .keep true, .keep true, .keep true, .keep true, .keep true]

theorem not_staysClosed_closedInDelay :
    ¬ ∀ (word : List Action) (s : State), system.Reaches word s →
      s.StaysClosed := by
  intro hclaim
  obtain ⟨s, hreaches, hreturned, hmade, -⟩ : ∃ s,
      system.Reaches closedInDelay s ∧ s.returned = some (1, 1) ∧
        s.made = 2 ∧ s.runs = 2 ∧ s.ctl = some 1 ∧
        (s.controls 1).closed = false :=
    ⟨_, System.reaches_of_exec rfl, rfl, rfl, rfl, rfl, rfl⟩
  have hstays := (hclaim _ s hreaches (1, 1) hreturned).1
  rw [hmade] at hstays
  exact absurd hstays (by decide)

end ServiceClose

end Frp
