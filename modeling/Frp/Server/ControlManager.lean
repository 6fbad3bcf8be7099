/-
Logins with the run id of a client that is still there: `ControlManager` of
`server/control.go` and the part of `RegisterControl` in `server/service.go`
from `Add` on.  Controls are named in the order in which they are added.
-/
import Frp.Lib.System

namespace Frp

open Transition

/-- Where a Control is.  `waiting` has been added and waits for the one that it
replaces, `started` runs, `done` has reached `allShutdown.Done`, `deleted` has
been through the `Del` of its own goroutine. -/
inductive ControlPc where
  | waiting
  | started
  | done
  | deleted
deriving DecidableEq, Repr

/-- `loginRunID` is that of the login message, `runID` that of the Control;
`shutdown` says whether `allShutdown` has been started. -/
structure RunControl where
  loginRunID : String
  runID : String
  shutdown : Bool
  oldCtl : Option Nat
  pc : ControlPc
deriving DecidableEq, Repr

namespace ControlManager

structure State where
  ctlsByRunID : String → Option Nat
  ctls : Nat → RunControl
  added : Nat

inductive Action where
  | add (runID : String)
  | start (c : Nat)
  | shutdown (c : Nat)
  | finish (c : Nat)
  | del (c : Nat)
deriving DecidableEq, Repr

def init : State where
  ctlsByRunID _ := none
  ctls _ := ⟨"", "", false, none, .deleted⟩
  added := 0

def Finished (pc : ControlPc) : Prop :=
  pc = .done ∨ pc = .deleted

instance (pc : ControlPc) : Decidable (Finished pc) :=
  inferInstanceAs (Decidable (_ ∨ _))

theorem Finished.not_waiting {pc : ControlPc} (hfinished : Finished pc) :
    pc ≠ .waiting := by
  rcases hfinished with rfl | rfl
  · simp
  · simp

namespace State

def setCtl (s : State) (c : Nat) (ctl : RunControl) : State :=
  { s with ctls := Function.update s.ctls c ctl }

/-- `Control.Replaced`. -/
def replaced (s : State) (c : Nat) : State :=
  s.setCtl c { s.ctls c with runID := "", shutdown := true }

/-- The new Control is entered and goes on to wait for the old one. -/
def enter (s : State) (runID : String) : State :=
  { s.setCtl s.added
      ⟨runID, runID, false, s.ctlsByRunID runID, .waiting⟩ with
    ctlsByRunID := Function.update s.ctlsByRunID runID (some s.added)
    added := s.added + 1 }

/-- `ControlManager.Add`. -/
def add (s : State) (runID : String) : State :=
  match s.ctlsByRunID runID with
  | some oldCtl => (s.replaced oldCtl).enter runID
  | none => s.enter runID

/-- `ControlManager.Del`: only the same Control is deleted. -/
def del (s : State) (runID : String) (c : Nat) : State :=
  if s.ctlsByRunID runID = some c then
    { s with ctlsByRunID := Function.update s.ctlsByRunID runID none }
  else s

/-- The Control that this one replaces has reached `allShutdown.Done`. -/
def Released (s : State) (c : Nat) : Prop :=
  ∀ old ∈ (s.ctls c).oldCtl, Finished (s.ctls old).pc

instance (s : State) (c : Nat) : Decidable (s.Released c) :=
  inferInstanceAs (Decidable (∀ old ∈ (s.ctls c).oldCtl, _))

end State

/-- A started Control shuts down by itself or because it was replaced, and
finishes at any later time. -/
def step (s : State) : Action → Option State
  | .add runID => some (s.add runID)
  | .start c =>
      if c < s.added ∧ (s.ctls c).pc = .waiting ∧ s.Released c then
        some (s.setCtl c { s.ctls c with pc := .started })
      else none
  | .shutdown c =>
      if c < s.added ∧ (s.ctls c).pc = .started then
        some (s.setCtl c { s.ctls c with shutdown := true })
      else none
  | .finish c =>
      if c < s.added ∧ (s.ctls c).pc = .started ∧ (s.ctls c).shutdown = true then
        some (s.setCtl c { s.ctls c with pc := .done })
      else none
  | .del c =>
      if c < s.added ∧ (s.ctls c).pc = .done then
        some ((s.del (s.ctls c).loginRunID c).setCtl c
          { s.ctls c with pc := .deleted })
      else none

def system : System State Action where
  start := init
  step := step

namespace State

/-- The Control is between its `Start` and its `allShutdown.Done`. -/
def Runs (s : State) (runID : String) (c : Nat) : Prop :=
  c < s.added ∧ (s.ctls c).loginRunID = runID ∧ (s.ctls c).pc = .started

/-- No Control was added after this one under the run id. -/
def IsLast (s : State) (runID : String) (c : Nat) : Prop :=
  c < s.added ∧ (s.ctls c).loginRunID = runID ∧
    ∀ c' < s.added, (s.ctls c').loginRunID = runID → c' ≤ c

/-- All calls and shutdowns are finished. -/
def Quiet (s : State) : Prop :=
  ∀ c < s.added, (s.ctls c).pc ≠ .waiting ∧
    ((s.ctls c).shutdown = true → (s.ctls c).pc = .deleted)

/-- What replacing Controls under one run id promises. -/
structure Replacement (s : State) (runID : String) : Prop where
  exclusive : ∀ c c', s.Runs runID c → s.Runs runID c' → c = c'
  keepsNewer : ∀ c c' s', ControlManager.step s (.del c) = some s' → c' ≠ c →
    s.ctlsByRunID runID = some c' → s'.ctlsByRunID runID = some c'
  holdsLast : s.Quiet → ∀ c, s.IsLast runID c →
    s.ctlsByRunID runID = if (s.ctls c).pc = .started then some c else none
  holdsNothing : (∀ c < s.added, (s.ctls c).loginRunID ≠ runID) →
    s.ctlsByRunID runID = none

/-- What the Controls added before `c` under its run id have to do with it. -/
def Clears (s : State) (c : Nat) : Prop :=
  match (s.ctls c).oldCtl with
  | none => ∀ c' < c, (s.ctls c').loginRunID = (s.ctls c).loginRunID →
      Finished (s.ctls c').pc
  | some old => old < c ∧
      (s.ctls old).loginRunID = (s.ctls c).loginRunID ∧
      ∀ c' < c, (s.ctls c').loginRunID = (s.ctls c).loginRunID → c' ≤ old

/-- The map holds the last Control of a run id until that is deleted, and a
Control is started only after all before it have finished. -/
structure Inv (s : State) : Prop where
  last : ∀ runID c, s.ctlsByRunID runID = some c →
    s.IsLast runID c ∧ (s.ctls c).pc ≠ .deleted
  entered : ∀ runID c, s.IsLast runID c → (s.ctls c).pc ≠ .deleted →
    s.ctlsByRunID runID = some c
  absent : ∀ runID, s.ctlsByRunID runID = none → ∀ c < s.added,
    (s.ctls c).loginRunID = runID → Finished (s.ctls c).pc
  ordered : ∀ c < s.added, ∀ c' < c,
    (s.ctls c').loginRunID = (s.ctls c).loginRunID →
    (s.ctls c).pc ≠ .waiting → Finished (s.ctls c').pc
  clears : ∀ c < s.added, (s.ctls c).pc = .waiting → s.Clears c
  shut : ∀ c < s.added, Finished (s.ctls c).pc → (s.ctls c).shutdown = true

/-- `Clears` sees of the other Controls their run ids and whether they have
finished. -/
theorem Clears.mono {s s' : State} {c : Nat} (hclears : s.Clears c)
    (hlogin : ∀ d ≤ c, (s'.ctls d).loginRunID = (s.ctls d).loginRunID)
    (hold : (s'.ctls c).oldCtl = (s.ctls c).oldCtl)
    (hfinished : ∀ d < c, Finished (s.ctls d).pc → Finished (s'.ctls d).pc) :
    s'.Clears c := by
  unfold Clears at hclears ⊢
  rw [hold]
  cases hoc : (s.ctls c).oldCtl with
  | none =>
      rw [hoc] at hclears
      intro c' hlt hsame
      rw [hlogin c' (Nat.le_of_lt hlt), hlogin c (Nat.le_refl c)] at hsame
      exact hfinished c' hlt (hclears c' hlt hsame)
  | some old =>
      rw [hoc] at hclears
      obtain ⟨hlt, hsame, hlatest⟩ := hclears
      refine ⟨hlt, ?_, ?_⟩
      · rw [hlogin old (Nat.le_of_lt hlt), hlogin c (Nat.le_refl c)]
        exact hsame
      · intro c' hlt' hsame'
        rw [hlogin c' (Nat.le_of_lt hlt'), hlogin c (Nat.le_refl c)] at hsame'
        exact hlatest c' hlt' hsame'

theorem inv_init : init.Inv where
  last runID c hentry := by simp [init] at hentry
  entered runID c hlast := absurd hlast.1 (Nat.not_lt_zero c)
  absent runID _ c hc := absurd hc (Nat.not_lt_zero c)
  ordered c hc := absurd hc (Nat.not_lt_zero c)
  clears c hc := absurd hc (Nat.not_lt_zero c)
  shut c hc := absurd hc (Nat.not_lt_zero c)

/-- All Controls before one that may start have finished. -/
theorem Inv.cleared {s : State} (hinv : s.Inv) {c : Nat} (hc : c < s.added)
    (hwaiting : (s.ctls c).pc = .waiting) (hreleased : s.Released c) :
    ∀ c' < c, (s.ctls c').loginRunID = (s.ctls c).loginRunID →
      Finished (s.ctls c').pc := by
  intro c' hlt hlogin
  have hclears := hinv.clears c hc hwaiting
  unfold Clears at hclears
  cases hold : (s.ctls c).oldCtl with
  | none =>
      rw [hold] at hclears
      exact hclears c' hlt hlogin
  | some old =>
      rw [hold] at hclears
      obtain ⟨hbefore, hsame, hlatest⟩ := hclears
      have hfinished : Finished (s.ctls old).pc := hreleased old hold
      rcases Nat.lt_or_eq_of_le (hlatest c' hlt hlogin) with hearlier | rfl
      · -- the old Control has been started, so those before it have finished
        exact hinv.ordered old (Nat.lt_trans hbefore hc) c' hearlier
          (hlogin.trans hsame.symm) hfinished.not_waiting
      · exact hfinished

/-- One Control moves on under its run id. -/
theorem Inv.update {s s' : State} (hinv : s.Inv) {c : Nat} {ctl : RunControl}
    (hctls : s'.ctls = Function.update s.ctls c ctl)
    (hadded : s'.added = s.added)
    (hlogin : ctl.loginRunID = (s.ctls c).loginRunID)
    (hold : ctl.oldCtl = (s.ctls c).oldCtl)
    (hfinished : Finished (s.ctls c).pc → Finished ctl.pc)
    (hwaiting : ctl.pc = .waiting → (s.ctls c).pc = .waiting)
    (hstarts : ctl.pc ≠ .waiting → (s.ctls c).pc = .waiting → s.Released c)
    (hshut : Finished ctl.pc → ctl.shutdown = true)
    (hlast : ∀ runID d, s'.ctlsByRunID runID = some d →
      s.ctlsByRunID runID = some d ∧ (s'.ctls d).pc ≠ .deleted)
    (hentered : ∀ runID d, s.IsLast runID d → (s'.ctls d).pc ≠ .deleted →
      s'.ctlsByRunID runID = some d)
    (habsent : ∀ runID, s'.ctlsByRunID runID = none → ∀ d < s.added,
      (s.ctls d).loginRunID = runID → Finished (s'.ctls d).pc) :
    s'.Inv := by
  have hsame : ∀ d, (s'.ctls d).loginRunID = (s.ctls d).loginRunID ∧
      (s'.ctls d).oldCtl = (s.ctls d).oldCtl := by
    intro d
    rw [hctls]
    by_cases hd : d = c
    · simp [hd, hlogin, hold]
    · simp [hd]
  have hkeeps : ∀ d, Finished (s.ctls d).pc → Finished (s'.ctls d).pc := by
    intro d hd
    rw [hctls]
    by_cases hdc : d = c
    · subst hdc
      simpa using hfinished hd
    · simpa [hdc] using hd
  have hislast : ∀ runID d, s'.IsLast runID d ↔ s.IsLast runID d := by
    intro runID d
    simp only [IsLast, hadded, fun d => (hsame d).1]
  constructor
  · intro runID d hentry
    obtain ⟨hbefore, hpc⟩ := hlast runID d hentry
    exact ⟨(hislast runID d).mpr (hinv.last runID d hbefore).1, hpc⟩
  · intro runID d hd hpc
    exact hentered runID d ((hislast runID d).mp hd) hpc
  · intro runID hnone d hd hrun
    rw [hadded] at hd
    exact habsent runID hnone d hd ((hsame d).1 ▸ hrun)
  · intro d hd d' hlt hrun hpc
    rw [hadded] at hd
    rw [(hsame d').1, (hsame d).1] at hrun
    apply hkeeps
    by_cases hbefore : (s.ctls d).pc = .waiting
    · have hdc : d = c := by
        by_contra hne
        exact hpc (by rw [hctls, Function.update_of_ne hne, hbefore])
      subst hdc
      rw [hctls, Function.update_self] at hpc
      exact hinv.cleared hd hbefore (hstarts hpc hbefore) d' hlt hrun
    · exact hinv.ordered d hd d' hlt hrun hbefore
  · intro d hd hpc
    rw [hadded] at hd
    have hbefore : (s.ctls d).pc = .waiting := by
      by_cases hdc : d = c
      · subst hdc
        rw [hctls, Function.update_self] at hpc
        exact hwaiting hpc
      · rwa [hctls, Function.update_of_ne hdc] at hpc
    exact (hinv.clears d hd hbefore).mono (fun e _ => (hsame e).1) (hsame d).2
      fun e _ => hkeeps e
  · intro d hd hpc
    rw [hadded] at hd
    by_cases hdc : d = c
    · subst hdc
      rw [hctls, Function.update_self] at hpc ⊢
      exact hshut hpc
    · rw [hctls, Function.update_of_ne hdc] at hpc ⊢
      exact hinv.shut d hd hpc

/-- A step that leaves the map alone and deletes nothing. -/
theorem Inv.move {s : State} (hinv : s.Inv) {c : Nat} {ctl : RunControl}
    (hlogin : ctl.loginRunID = (s.ctls c).loginRunID)
    (hold : ctl.oldCtl = (s.ctls c).oldCtl)
    (hfinished : Finished (s.ctls c).pc → Finished ctl.pc)
    (hwaiting : ctl.pc = .waiting → (s.ctls c).pc = .waiting)
    (hstarts : ctl.pc ≠ .waiting → (s.ctls c).pc = .waiting → s.Released c)
    (hshut : Finished ctl.pc → ctl.shutdown = true)
    (hdeleted : ctl.pc = .deleted ↔ (s.ctls c).pc = .deleted) :
    (s.setCtl c ctl).Inv := by
  have hgone : ∀ d, ((s.setCtl c ctl).ctls d).pc = .deleted ↔
      (s.ctls d).pc = .deleted := by
    intro d
    by_cases hd : d = c
    · subst hd
      simpa [setCtl] using hdeleted
    · simp [setCtl, hd]
  refine hinv.update rfl rfl hlogin hold hfinished hwaiting hstarts hshut
    ?_ ?_ ?_
  · intro runID d hentry
    rw [Ne, hgone]
    exact ⟨hentry, (hinv.last runID d hentry).2⟩
  · intro runID d hlast hpc
    rw [Ne, hgone] at hpc
    exact hinv.entered runID d hlast hpc
  · intro runID hnone d hd hrun
    have hbefore := hinv.absent runID hnone d hd hrun
    by_cases hdc : d = c
    · subst hdc
      simpa [setCtl] using hfinished hbefore
    · simpa [setCtl, hdc] using hbefore

theorem Inv.replaced {s : State} (hinv : s.Inv) (c : Nat) :
    (s.replaced c).Inv := by
  apply hinv.move
  · rfl
  · rfl
  · exact id
  · exact id
  · intro hpc hwaiting
    exact absurd hwaiting hpc
  · intro _
    rfl
  · rfl

theorem enter_ctls_of_lt (s : State) (runID : String) {d : Nat}
    (hd : d < s.added) : (s.enter runID).ctls d = s.ctls d :=
  Function.update_of_ne (Nat.ne_of_lt hd) _ _

theorem enter_ctls_self (s : State) (runID : String) :
    (s.enter runID).ctls s.added =
      ⟨runID, runID, false, s.ctlsByRunID runID, .waiting⟩ :=
  Function.update_self _ _ _

/-- Who is last after a Control has been entered. -/
theorem isLast_enter_iff (s : State) (runID runID' : String) (d : Nat) :
    (s.enter runID).IsLast runID' d ↔
      if runID' = runID then d = s.added else s.IsLast runID' d := by
  have hadded : (s.enter runID).added = s.added + 1 := rfl
  by_cases hrun : runID' = runID
  · rw [if_pos hrun, hrun]
    constructor
    · rintro ⟨hd, _, hlatest⟩
      have hge := hlatest s.added (Nat.lt_succ_self _)
        (by rw [enter_ctls_self])
      omega
    · rintro rfl
      refine ⟨Nat.lt_succ_self _, by rw [enter_ctls_self], ?_⟩
      intro c' hc' _
      exact Nat.le_of_lt_succ hc'
  · rw [if_neg hrun]
    have hnew : ∀ {e : Nat}, e < s.added + 1 →
        ((s.enter runID).ctls e).loginRunID = runID' → e < s.added := by
      intro e he hlogin
      rcases Nat.lt_or_eq_of_le (Nat.le_of_lt_succ he) with hlt | rfl
      · exact hlt
      · rw [enter_ctls_self] at hlogin
        exact absurd hlogin.symm hrun
    constructor
    · rintro ⟨hd, hlogin, hlatest⟩
      have hlt := hnew hd hlogin
      rw [enter_ctls_of_lt s runID hlt] at hlogin
      refine ⟨hlt, hlogin, ?_⟩
      intro c' hc' hlogin'
      apply hlatest c' (Nat.lt_succ_of_lt hc')
      rw [enter_ctls_of_lt s runID hc']
      exact hlogin'
    · rintro ⟨hlt, hlogin, hlatest⟩
      refine ⟨Nat.lt_succ_of_lt hlt, ?_, ?_⟩
      · rw [enter_ctls_of_lt s runID hlt]
        exact hlogin
      · intro c' hc' hlogin'
        have hlt' := hnew hc' hlogin'
        rw [enter_ctls_of_lt s runID hlt'] at hlogin'
        exact hlatest c' hlt' hlogin'

/-- What the new Control finds of those before it. -/
theorem Inv.clears_enter {s : State} (hinv : s.Inv) (runID : String) :
    (s.enter runID).Clears s.added := by
  unfold Clears
  rw [enter_ctls_self]
  cases hentry : s.ctlsByRunID runID with
  | none =>
      intro c' hlt hlogin
      rw [enter_ctls_of_lt s runID hlt] at hlogin ⊢
      exact hinv.absent runID hentry c' hlt hlogin
  | some old =>
      obtain ⟨⟨hlt, hlogin, hlatest⟩, _⟩ := hinv.last runID old hentry
      refine ⟨hlt, ?_, ?_⟩
      · rw [enter_ctls_of_lt s runID hlt]
        exact hlogin
      · intro c' hlt' hlogin'
        rw [enter_ctls_of_lt s runID hlt'] at hlogin'
        exact hlatest c' hlt' hlogin'

/-- A Control is entered last under its run id, and waits for the one that was
last before. -/
theorem Inv.enter {s : State} (hinv : s.Inv) (runID : String) :
    (s.enter runID).Inv := by
  have hcases : ∀ {d : Nat}, d < (s.enter runID).added →
      d < s.added ∨ d = s.added :=
    fun hd => Nat.lt_or_eq_of_le (Nat.le_of_lt_succ hd)
  have hmap : (s.enter runID).ctlsByRunID =
      Function.update s.ctlsByRunID runID (some s.added) := rfl
  constructor
  · intro runID' d hentry
    rw [isLast_enter_iff]
    rw [hmap] at hentry
    by_cases hrun : runID' = runID
    · rw [hrun, Function.update_self, Option.some.injEq] at hentry
      rw [if_pos hrun, ← hentry, enter_ctls_self]
      simp
    · rw [Function.update_of_ne hrun] at hentry
      obtain ⟨hlast, hpc⟩ := hinv.last runID' d hentry
      rw [if_neg hrun, enter_ctls_of_lt s runID hlast.1]
      exact ⟨hlast, hpc⟩
  · intro runID' d hlast hpc
    rw [isLast_enter_iff] at hlast
    rw [hmap]
    by_cases hrun : runID' = runID
    · rw [if_pos hrun] at hlast
      rw [hrun, hlast, Function.update_self]
    · rw [if_neg hrun] at hlast
      rw [enter_ctls_of_lt s runID hlast.1] at hpc
      rw [Function.update_of_ne hrun]
      exact hinv.entered runID' d hlast hpc
  · intro runID' hnone d hd hlogin
    rw [hmap] at hnone
    have hrun : runID' ≠ runID := by
      rintro rfl
      simp at hnone
    rw [Function.update_of_ne hrun] at hnone
    rcases hcases hd with hlt | rfl
    · rw [enter_ctls_of_lt s runID hlt] at hlogin ⊢
      exact hinv.absent runID' hnone d hlt hlogin
    · rw [enter_ctls_self] at hlogin
      exact absurd hlogin.symm hrun
  · intro d hd d' hlt hlogin hpc
    rcases hcases hd with hd | rfl
    · rw [enter_ctls_of_lt s runID hd] at hlogin hpc
      rw [enter_ctls_of_lt s runID (Nat.lt_trans hlt hd)] at hlogin ⊢
      exact hinv.ordered d hd d' hlt hlogin hpc
    · rw [enter_ctls_self] at hpc
      exact absurd rfl hpc
  · intro d hd hpc
    rcases hcases hd with hd | rfl
    · have hold : ∀ e ≤ d, (s.enter runID).ctls e = s.ctls e :=
        fun e he => enter_ctls_of_lt s runID (Nat.lt_of_le_of_lt he hd)
      rw [hold d (Nat.le_refl d)] at hpc
      refine (hinv.clears d hd hpc).mono ?_ ?_ ?_
      · intro e he
        rw [hold e he]
      · rw [hold d (Nat.le_refl d)]
      · intro e he hfinished
        rw [hold e (Nat.le_of_lt he)]
        exact hfinished
    · exact hinv.clears_enter runID
  · intro d hd hpc
    rcases hcases hd with hd | rfl
    · rw [enter_ctls_of_lt s runID hd] at hpc ⊢
      exact hinv.shut d hd hpc
    · rw [enter_ctls_self] at hpc
      exact absurd rfl hpc.not_waiting

theorem Inv.add {s : State} (hinv : s.Inv) (runID : String) :
    (s.add runID).Inv := by
  unfold State.add
  split
  · exact (hinv.replaced _).enter runID
  · exact hinv.enter runID

/-- What `Del` leaves: everything but the entry of this very Control. -/
theorem del_eq (s : State) (runID : String) (c : Nat) :
    (s.del runID c).ctls = s.ctls ∧ (s.del runID c).added = s.added ∧
      ∀ runID', (s.del runID c).ctlsByRunID runID' =
        if runID' = runID ∧ s.ctlsByRunID runID = some c then none
        else s.ctlsByRunID runID' := by
  unfold State.del
  by_cases hsame : s.ctlsByRunID runID = some c
  · simp only [hsame, if_true, and_true]
    refine ⟨trivial, trivial, ?_⟩
    intro runID'
    by_cases hrun : runID' = runID
    · simp [hrun]
    · simp [hrun]
  · simp [hsame]

/-- `Del` by the goroutine of a Control that is done. -/
theorem Inv.del {s : State} (hinv : s.Inv) {c : Nat} (hc : c < s.added)
    (hdone : (s.ctls c).pc = .done) :
    ((s.del (s.ctls c).loginRunID c).setCtl c
      { s.ctls c with pc := .deleted }).Inv := by
  obtain ⟨hctls, hadded, hmap⟩ := s.del_eq (s.ctls c).loginRunID c
  have hctls' : ((s.del (s.ctls c).loginRunID c).setCtl c
      { s.ctls c with pc := .deleted }).ctls =
        Function.update s.ctls c { s.ctls c with pc := .deleted } := by
    rw [setCtl, hctls]
  have hfinished : Finished (s.ctls c).pc := Or.inl hdone
  have hother : ∀ {d : Nat}, d ≠ c →
      ((s.del (s.ctls c).loginRunID c).setCtl c
        { s.ctls c with pc := .deleted }).ctls d = s.ctls d := by
    intro d hd
    rw [hctls', Function.update_of_ne hd]
  refine hinv.update hctls' hadded rfl rfl (fun _ => Or.inr rfl) ?_ ?_
    (fun _ => hinv.shut c hc hfinished) ?_ ?_ ?_
  · intro hpc
    cases hpc
  · exact fun _ hwaiting => absurd hwaiting hfinished.not_waiting
  · intro runID d hentry
    obtain ⟨hkept, hbefore⟩ := Option.ite_none_left_eq_some.mp
      ((hmap runID).symm.trans hentry)
    obtain ⟨hlast, hpc⟩ := hinv.last runID d hbefore
    have hd : d ≠ c := by
      rintro rfl
      exact hkept ⟨hlast.2.1.symm, hlast.2.1 ▸ hbefore⟩
    rw [hother hd]
    exact ⟨hbefore, hpc⟩
  · intro runID d hlast hpc
    have hd : d ≠ c := by
      rintro rfl
      rw [hctls', Function.update_self] at hpc
      exact hpc rfl
    rw [hother hd] at hpc
    have hentry := hinv.entered runID d hlast hpc
    refine (hmap runID).trans ?_
    rw [if_neg, hentry]
    rintro ⟨rfl, hsame⟩
    rw [hentry, Option.some.injEq] at hsame
    exact hd hsame
  · intro runID hnone d hd hlogin
    rw [hctls']
    by_cases hdc : d = c
    · rw [hdc, Function.update_self]
      exact Or.inr rfl
    · rw [Function.update_of_ne hdc]
      have hkept := ite_eq_left_iff.mp ((hmap runID).symm.trans hnone)
      by_cases hremoved : runID = (s.ctls c).loginRunID ∧
          s.ctlsByRunID (s.ctls c).loginRunID = some c
      · obtain ⟨rfl, hentry⟩ := hremoved
        obtain ⟨⟨_, _, hlatest⟩, _⟩ := hinv.last _ c hentry
        have hlt := Nat.lt_of_le_of_ne (hlatest d hd hlogin) hdc
        exact hinv.ordered c hc d hlt hlogin hfinished.not_waiting
      · exact hinv.absent runID (hkept hremoved) d hd hlogin

theorem Inv.step {s s' : State} {action : Action} (hinv : s.Inv)
    (hstep : ControlManager.step s action = some s') : s'.Inv := by
  cases action with
  | add runID =>
      simp only [ControlManager.step, Option.some.injEq] at hstep
      exact hstep ▸ hinv.add runID
  | start c =>
      simp only [ControlManager.step, Option.ite_none_right_eq_some,
        Option.some.injEq] at hstep
      obtain ⟨⟨_, hwaiting, hreleased⟩, rfl⟩ := hstep
      refine hinv.move rfl rfl ?_ ?_ ?_ ?_ ?_
      · intro hfinished
        exact absurd hwaiting hfinished.not_waiting
      · intro hpc
        cases hpc
      · exact fun _ _ => hreleased
      · rintro (hpc | hpc) <;> cases hpc
      · simp [hwaiting]
  | shutdown c =>
      simp only [ControlManager.step, Option.ite_none_right_eq_some,
        Option.some.injEq] at hstep
      obtain ⟨_, rfl⟩ := hstep
      refine hinv.move rfl rfl ?_ ?_ ?_ ?_ ?_
      · exact id
      · exact id
      · exact fun hpc hwaiting => absurd hwaiting hpc
      · exact fun _ => rfl
      · rfl
  | finish c =>
      simp only [ControlManager.step, Option.ite_none_right_eq_some,
        Option.some.injEq] at hstep
      obtain ⟨⟨_, hstarted, hshutdown⟩, rfl⟩ := hstep
      refine hinv.move rfl rfl ?_ ?_ ?_ ?_ ?_
      · exact fun _ => Or.inl rfl
      · intro hpc
        cases hpc
      · intro _ hwaiting
        rw [hstarted] at hwaiting
        cases hwaiting
      · exact fun _ => hshutdown
      · simp [hstarted]
  | del c =>
      simp only [ControlManager.step, Option.ite_none_right_eq_some,
        Option.some.injEq] at hstep
      obtain ⟨⟨hc, hdone⟩, rfl⟩ := hstep
      exact hinv.del hc hdone

/-- Of two Controls that run under one run id, the later was started only when
the earlier had finished. -/
theorem Inv.exclusive {s : State} (hinv : s.Inv) {runID : String} {c c' : Nat}
    (hruns : s.Runs runID c) (hruns' : s.Runs runID c') : c = c' := by
  have hnever : ∀ {d d' : Nat}, s.Runs runID d → s.Runs runID d' →
      ¬ d < d' := by
    rintro d d' ⟨_, hlogin, hstarted⟩ ⟨hd', hlogin', hstarted'⟩ hlt
    have hfinished := hinv.ordered d' hd' d hlt
      (hlogin.trans hlogin'.symm) (by simp [hstarted'])
    rw [hstarted] at hfinished
    rcases hfinished with hpc | hpc <;> cases hpc
  have hge := hnever hruns hruns'
  have hle := hnever hruns' hruns
  omega

theorem IsLast.unique {s : State} {runID : String} {c c' : Nat}
    (hlast : s.IsLast runID c) (hlast' : s.IsLast runID c') : c = c' :=
  Nat.le_antisymm (hlast'.2.2 c hlast.1 hlast.2.1)
    (hlast.2.2 c' hlast'.1 hlast'.2.1)

theorem Inv.holdsLast {s : State} (hinv : s.Inv) (hquiet : s.Quiet)
    {runID : String} {c : Nat} (hlast : s.IsLast runID c) :
    s.ctlsByRunID runID = if (s.ctls c).pc = .started then some c else none := by
  obtain ⟨hwaiting, hshutdown⟩ := hquiet c hlast.1
  split
  · rename_i hstarted
    exact hinv.entered runID c hlast (by simp [hstarted])
  · rename_i hstopped
    have hfinished : Finished (s.ctls c).pc := by
      unfold Finished
      cases hpc : (s.ctls c).pc <;> simp_all
    have hdeleted := hshutdown (hinv.shut c hlast.1 hfinished)
    cases hentry : s.ctlsByRunID runID with
    | none => rfl
    | some d =>
        obtain ⟨hlast', hpc⟩ := hinv.last runID d hentry
        rw [hlast'.unique hlast] at hpc
        exact absurd hdeleted hpc

theorem Inv.replacement {s : State} (hinv : s.Inv) (runID : String) :
    s.Replacement runID where
  exclusive _ _ hruns hruns' := hinv.exclusive hruns hruns'
  keepsNewer c c' s' hstep hne hentry := by
    simp only [ControlManager.step, Option.ite_none_right_eq_some,
      Option.some.injEq] at hstep
    obtain ⟨_, rfl⟩ := hstep
    refine ((s.del_eq (s.ctls c).loginRunID c).2.2 runID).trans ?_
    rw [if_neg, hentry]
    rintro ⟨rfl, hsame⟩
    rw [hentry, Option.some.injEq] at hsame
    exact hne hsame
  holdsLast hquiet _ hlast := hinv.holdsLast hquiet hlast
  holdsNothing hnone := by
    cases hentry : s.ctlsByRunID runID with
    | none => rfl
    | some c =>
        obtain ⟨⟨hc, hlogin, _⟩, _⟩ := hinv.last runID c hentry
        exact absurd hlogin (hnone c hc)

end State

theorem inv_of_reaches {word : List Action} {s : State}
    (hreaches : system.Reaches word s) : s.Inv :=
  System.Reaches.invariant (I := State.Inv) State.inv_init
    (fun _ _ _ hinv hstep => State.Inv.step hinv hstep) hreaches

/-- Replacing a Control is exclusive in every order of logins, shutdowns and
deletions. -/
theorem replacement_of_reaches {word : List Action} {s : State}
    (hreaches : system.Reaches word s) (runID : String) :
    s.Replacement runID :=
  (inv_of_reaches hreaches).replacement runID

/-- Three logins overlap: the second Control is replaced before it is started. -/
def chain : List Action :=
  [.add "run", .start 0, .add "run", .add "run", .finish 0, .start 1, .del 0,
    .finish 1, .start 2, .del 1]

theorem replacement_of_reaches_chain :
    ∃ s, system.Reaches chain s ∧ s.ctlsByRunID "run" = some 2 ∧
      s.Replacement "run" := by
  obtain ⟨s, hreaches, hentry⟩ :
      ∃ s, system.Reaches chain s ∧ s.ctlsByRunID "run" = some 2 :=
    System.exists_reaches_of_exec (by decide)
  exact ⟨s, hreaches, hentry, replacement_of_reaches hreaches "run"⟩

end ControlManager

end Frp
