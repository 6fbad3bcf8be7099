/-
`Close` of the two wrappers of `pkg/util/net/conn.go` that count on a flag:
`CloseNotifyConn` and `StatsConn`.  A call is a stack of frames, since what `Close`
calls may be itself; the swap of the flag is one step.
-/
import Frp.Lib.System

namespace Frp

open Transition

namespace CloseOnce

/-- What the call in the body resolves to: the method of the wrapper, or the one of
the wrapped `net.Conn`. -/
inductive Callee where
  | self
  | conn
deriving DecidableEq, Repr

/-- The body of a `Close`.  `opens` is the test of the old value of the flag, which
is 0 or 1; `hasCallback` says that the function to call is not nil. -/
structure Body where
  opens : Int → Bool
  callee : Callee
  hasCallback : Bool
  opens_zero : opens 0 = true
  opens_one : opens 1 = false

/-- `CloseNotifyConn.Close`: `cc.Close()` is this method again. -/
def closeNotifyConn (closeFn : Bool) : Body where
  opens pflag := pflag = 0
  callee := .self
  hasCallback := closeFn
  opens_zero := rfl
  opens_one := rfl

/-- `StatsConn.Close`: `statsConn.Conn.Close()`. -/
def statsConn (statsFunc : Bool) : Body where
  opens old := old ≠ 1
  callee := .conn
  hasCallback := statsFunc
  opens_zero := rfl
  opens_one := rfl

variable {E T : Type}

/-- A place in the body.  `waiting` is below the frame of the inner call. -/
inductive Frame (E : Type) where
  | swap
  | inner
  | waiting
  | callback (err : Option E)
  | ret (err : Option E)
deriving DecidableEq, Repr

inductive Call (E : Type) where
  | notCalled
  | running (top : Frame E) (below : List (Frame E))
  | returned (err : Option E)
deriving DecidableEq, Repr

/-- `first` is the call that has swapped the flag first, `connCloses` counts the
calls of `Close` of the wrapped connection, and `callbacks` has what the function
was called with, which is taken from the fields `totals`. -/
structure State (E T : Type) where
  closeFlag : Int
  calls : Nat → Call E
  first : Option Nat
  connCloses : Nat
  totals : T
  callbacks : List T

inductive Action (T : Type) where
  | call (i : Nat)
  | advance (i : Nat)
  | count (totals : T)
deriving DecidableEq, Repr

def init (totals : T) : State E T where
  closeFlag := 0
  calls _ := .notCalled
  first := none
  connCloses := 0
  totals := totals
  callbacks := []

namespace State

def setCall (s : State E T) (i : Nat) (call : Call E) : State E T :=
  { s with calls := Function.update s.calls i call }

/-- The next step of call `i`.  `conn` has what `Close` of the wrapped connection
answers, call by call. -/
def advance (body : Body) (conn : Nat → Option E) (s : State E T) (i : Nat) :
    Option (State E T) :=
  match s.calls i with
  | .running .swap below =>
      let next := if body.opens s.closeFlag then .inner else .ret none
      some { s.setCall i (.running next below) with
        closeFlag := 1
        first := s.first.or (some i) }
  | .running .inner below =>
      match body.callee with
      | .self => some (s.setCall i (.running .swap (.waiting :: below)))
      | .conn =>
          some { s.setCall i (.running (.callback (conn s.connCloses)) below) with
            connCloses := s.connCloses + 1 }
  | .running (.callback err) below =>
      some { s.setCall i (.running (.ret err) below) with
        callbacks :=
          if body.hasCallback then s.callbacks ++ [s.totals] else s.callbacks }
  | .running (.ret err) [] => some (s.setCall i (.returned err))
  | .running (.ret err) (.waiting :: below) =>
      some (s.setCall i (.running (.callback err) below))
  | _ => none

@[simp] theorem setCall_self (s : State E T) (i : Nat) (call : Call E) :
    (s.setCall i call).calls i = call := Function.update_self ..

theorem setCall_of_ne (s : State E T) {i j : Nat} (call : Call E) (hji : j ≠ i) :
    (s.setCall i call).calls j = s.calls j := Function.update_of_ne hji ..

/-- What holds of every call after one of them has changed. -/
theorem forall_setCall {s : State E T} {i : Nat} {call : Call E}
    {P : Nat → Call E → Prop} (hcall : P i call)
    (hothers : ∀ j, j ≠ i → P j (s.calls j)) (j : Nat) :
    P j ((s.setCall i call).calls j) :=
  (Function.forall_update_iff s.calls P).mpr ⟨hcall, hothers⟩ j

section Turn

variable {body : Body} {conn : Nat → Option E} {s : State E T} {i : Nat}
  {below : List (Frame E)}

theorem advance_swap (hcall : s.calls i = .running .swap below) :
    s.advance body conn i = some
      { s.setCall i (.running
          (if body.opens s.closeFlag then .inner else .ret none) below) with
        closeFlag := 1
        first := s.first.or (some i) } := by
  simp [advance, hcall]

theorem advance_inner_self (hcall : s.calls i = .running .inner below)
    (hself : body.callee = .self) : s.advance body conn i =
      some (s.setCall i (.running .swap (.waiting :: below))) := by
  simp [advance, hcall, hself]

theorem advance_inner_conn (hcall : s.calls i = .running .inner below)
    (hconn : body.callee = .conn) : s.advance body conn i = some
      { s.setCall i (.running (.callback (conn s.connCloses)) below) with
        connCloses := s.connCloses + 1 } := by
  simp [advance, hcall, hconn]

theorem advance_callback {err : Option E}
    (hcall : s.calls i = .running (.callback err) below) :
    s.advance body conn i = some
      { s.setCall i (.running (.ret err) below) with
        callbacks :=
          if body.hasCallback then s.callbacks ++ [s.totals]
          else s.callbacks } := by
  simp [advance, hcall]

theorem advance_ret {err : Option E} (hcall : s.calls i = .running (.ret err) []) :
    s.advance body conn i = some (s.setCall i (.returned err)) := by
  simp [advance, hcall]

theorem advance_resume {err : Option E}
    (hcall : s.calls i = .running (.ret err) (.waiting :: below)) :
    s.advance body conn i =
      some (s.setCall i (.running (.callback err) below)) := by
  simp [advance, hcall]

end Turn

end State

/-- `count` is any change of the totals by `Read` and `Write`. -/
def step (body : Body) (conn : Nat → Option E) (s : State E T) :
    Action T → Option (State E T)
  | .call i =>
      match s.calls i with
      | .notCalled => some (s.setCall i (.running .swap []))
      | _ => none
  | .advance i => s.advance body conn i
  | .count totals => some { s with totals := totals }

def system (body : Body) (conn : Nat → Option E) (totals : T) :
    System (State E T) (Action T) where
  start := init totals
  step := step body conn

namespace Body

/-- How often the body closes the wrapped connection. -/
def closes (body : Body) : Nat :=
  match body.callee with
  | .self => 0
  | .conn => 1

/-- What the inner call returns to the first call. -/
def answer (body : Body) (conn : Nat → Option E) : Option E :=
  match body.callee with
  | .self => none
  | .conn => conn 0

/-- How often the body calls the function. -/
def notifies (body : Body) : Nat := if body.hasCallback then 1 else 0

end Body

/-- The steps that a call has before it at most. -/
def Call.rank : Call E → Nat
  | .notCalled => 6
  | .running .swap [] => 6
  | .running .inner _ => 5
  | .running .swap (_ :: _) => 4
  | .running (.ret _) (_ :: _) => 3
  | .running (.callback _) _ => 2
  | .running (.ret _) [] => 1
  | .running .waiting _ => 0
  | .returned _ => 0

/-- A call that has not come to the flag. -/
inductive Early : Call E → Prop where
  | notCalled : Early .notCalled
  | swap : Early (.running .swap [])

/-- A call that is not the first to swap the flag. -/
inductive Trails : Call E → Prop where
  | early {call : Call E} (hearly : Early call) : Trails call
  | ret : Trails (.running (.ret none) [])
  | returned : Trails (.returned none)

/-- The call that has swapped the flag first, with the closes of the wrapped
connection and the calls of the function that there have been. -/
inductive Leads (body : Body) (conn : Nat → Option E) :
    Call E → Nat → List T → Prop where
  | inner : Leads body conn (.running .inner []) 0 []
  | again (hself : body.callee = .self) :
      Leads body conn (.running .swap [.waiting]) 0 []
  | refused (hself : body.callee = .self) :
      Leads body conn (.running (.ret none) [.waiting]) 0 []
  | callback :
      Leads body conn (.running (.callback (body.answer conn)) []) body.closes []
  | ret {args : List T} (hargs : args.length = body.notifies) :
      Leads body conn (.running (.ret (body.answer conn)) []) body.closes args
  | returned {args : List T} (hargs : args.length = body.notifies) :
      Leads body conn (.returned (body.answer conn)) body.closes args

/-- Either nobody has come to the flag, or one call has done so first, and what has
been done is what that call has done. -/
inductive Inv (body : Body) (conn : Nat → Option E) (s : State E T) : Prop where
  | before (hfirst : s.first = none) (hflag : s.closeFlag = 0)
      (hcloses : s.connCloses = 0) (hcallbacks : s.callbacks = [])
      (hearly : ∀ i, Early (s.calls i))
  | after (first : Nat) (hfirst : s.first = some first)
      (hflag : s.closeFlag = 1)
      (hleads : Leads body conn (s.calls first) s.connCloses s.callbacks)
      (htrails : ∀ i, i ≠ first → Trails (s.calls i))

variable {body : Body} {conn : Nat → Option E} {totals : T}

theorem inv_init : Inv body conn (init (E := E) totals) :=
  .before rfl rfl rfl rfl fun _ => .notCalled

variable {s s' : State E T} {i : Nat}

/-- The first call to come to the flag finds it open. -/
theorem Early.advance (hearly : Early (s.calls i)) (hflag : s.closeFlag = 0)
    (hstep : s.advance body conn i = some s') :
    s.calls i = .running .swap [] ∧
      s' = { s.setCall i (.running .inner []) with
        closeFlag := 1
        first := s.first.or (some i) } := by
  generalize hcall : s.calls i = call at hearly
  cases hearly with
  | notCalled => simp [State.advance, hcall] at hstep
  | swap =>
      rw [State.advance_swap hcall, hflag, body.opens_zero, if_pos rfl,
        Option.some.injEq] at hstep
      exact ⟨rfl, hstep.symm⟩

/-- A later call finds it shut, and does nothing but return. -/
theorem Trails.advance (htrails : Trails (s.calls i)) (hflag : s.closeFlag = 1)
    (hsome : s.first.isSome) (hstep : s.advance body conn i = some s') :
    ∃ call', Trails call' ∧ call'.rank < (s.calls i).rank ∧
      s' = s.setCall i call' := by
  generalize hcall : s.calls i = call at htrails
  cases htrails with
  | early hearly =>
      cases hearly with
      | notCalled => simp [State.advance, hcall] at hstep
      | swap =>
          rw [State.advance_swap hcall, hflag, body.opens_one,
            if_neg Bool.false_ne_true, Option.some.injEq] at hstep
          refine ⟨_, .ret, by simp [Call.rank], hstep.symm.trans ?_⟩
          simp [State.setCall, hflag, Option.or_of_isSome hsome]
  | ret =>
      rw [State.advance_ret hcall, Option.some.injEq] at hstep
      exact ⟨_, .returned, by simp [Call.rank], hstep.symm⟩
  | returned => simp [State.advance, hcall] at hstep

/-- What a step of the first call does. -/
theorem Leads.advance
    (hleads : Leads body conn (s.calls i) s.connCloses s.callbacks)
    (hflag : s.closeFlag = 1) (hsome : s.first.isSome)
    (hstep : s.advance body conn i = some s') :
    ∃ call' closes' callbacks', Leads body conn call' closes' callbacks' ∧
      call'.rank < (s.calls i).rank ∧
      s' = { s.setCall i call' with
        connCloses := closes'
        callbacks := callbacks' } := by
  generalize hcall : s.calls i = call at hleads
  generalize hcloses : s.connCloses = closes at hleads
  generalize hcallbacks : s.callbacks = callbacks at hleads
  cases hleads with
  | inner =>
      cases hcallee : body.callee with
      | self =>
          rw [State.advance_inner_self hcall hcallee, Option.some.injEq]
            at hstep
          refine ⟨_, _, _, .again hcallee, by simp [Call.rank],
            hstep.symm.trans ?_⟩
          rw [← hcloses, ← hcallbacks]
          rfl
      | conn =>
          rw [State.advance_inner_conn hcall hcallee, Option.some.injEq]
            at hstep
          refine ⟨_, _, _, .callback, by simp [Call.rank],
            hstep.symm.trans ?_⟩
          rw [Body.answer, Body.closes, hcallee, hcloses, ← hcallbacks]
          rfl
  | again hself =>
      rw [State.advance_swap hcall, hflag, body.opens_one,
        if_neg Bool.false_ne_true, Option.some.injEq] at hstep
      refine ⟨_, _, _, .refused hself, by simp [Call.rank],
        hstep.symm.trans ?_⟩
      simp [State.setCall, hflag, Option.or_of_isSome hsome, ← hcloses,
        ← hcallbacks]
  | refused hself =>
      rw [State.advance_resume hcall, Option.some.injEq] at hstep
      refine ⟨_, _, _, .callback, by simp [Call.rank], hstep.symm.trans ?_⟩
      rw [Body.answer, Body.closes, hself, ← hcloses, ← hcallbacks]
      rfl
  | callback =>
      rw [State.advance_callback hcall, Option.some.injEq] at hstep
      refine ⟨_, _, _, .ret ?_, by simp [Call.rank],
        hstep.symm.trans (by rw [← hcloses]; rfl)⟩
      rw [hcallbacks, Body.notifies]
      split <;> rfl
  | ret hargs =>
      rw [State.advance_ret hcall, Option.some.injEq] at hstep
      refine ⟨_, _, _, .returned hargs, by simp [Call.rank],
        hstep.symm.trans ?_⟩
      rw [← hcloses, ← hcallbacks]
      rfl
  | returned hargs => simp [State.advance, hcall] at hstep

theorem Inv.call (hinv : Inv body conn s) (hcall : s.calls i = .notCalled) :
    Inv body conn (s.setCall i (.running .swap [])) := by
  cases hinv with
  | before hfirst hflag hcloses hcallbacks hearly =>
      refine .before hfirst hflag hcloses hcallbacks ?_
      exact State.forall_setCall (P := fun _ => Early) .swap
        fun j _ => hearly j
  | after first hfirst hflag hleads htrails =>
      have hne : first ≠ i := by
        rintro rfl
        rw [hcall] at hleads
        cases hleads
      refine .after first hfirst hflag ?_ ?_
      · rw [State.setCall_of_ne s _ hne]
        exact hleads
      · exact State.forall_setCall (P := fun j call => j ≠ first → Trails call)
          (fun _ => .early .swap) fun j _ => htrails j

/-- A step of a call keeps what holds, and brings the call nearer to its end. -/
theorem Inv.advance (hinv : Inv body conn s)
    (hstep : s.advance body conn i = some s') :
    Inv body conn s' ∧ (s'.calls i).rank < (s.calls i).rank ∧
      ∀ j, j ≠ i → s'.calls j = s.calls j := by
  cases hinv with
  | before hfirst hflag hcloses hcallbacks hearly =>
      obtain ⟨hswap, rfl⟩ := (hearly i).advance hflag hstep
      refine ⟨.after i ?_ rfl ?_ ?_, ?_, ?_⟩
      · rw [hfirst, Option.none_or]
      · rw [State.setCall_self]
        dsimp only [State.setCall]
        rw [hcloses, hcallbacks]
        exact .inner
      · intro j hj
        rw [State.setCall_of_ne s _ hj]
        exact .early (hearly j)
      · rw [State.setCall_self, hswap]
        simp [Call.rank]
      · exact fun j hj => State.setCall_of_ne s _ hj
  | after first hfirst hflag hleads htrails =>
      have hsome : s.first.isSome := by rw [hfirst]; rfl
      by_cases hi : i = first
      · subst hi
        obtain ⟨call', closes', callbacks', hleads', hrank, rfl⟩ :=
          hleads.advance hflag hsome hstep
        refine ⟨.after i hfirst hflag ?_ ?_, ?_, ?_⟩
        · rw [State.setCall_self]
          exact hleads'
        · intro j hj
          rw [State.setCall_of_ne s _ hj]
          exact htrails j hj
        · rw [State.setCall_self]
          exact hrank
        · exact fun j hj => State.setCall_of_ne s _ hj
      · obtain ⟨call', htrails', hrank, rfl⟩ :=
          (htrails i hi).advance hflag hsome hstep
        refine ⟨.after first hfirst hflag ?_ ?_, ?_, ?_⟩
        · rw [State.setCall_of_ne s _ (Ne.symm hi)]
          exact hleads
        · exact State.forall_setCall
            (P := fun j call => j ≠ first → Trails call) (fun _ => htrails')
            fun j _ => htrails j
        · rw [State.setCall_self]
          exact hrank
        · exact fun j hj => State.setCall_of_ne s _ hj

theorem call_cases (hstep : step body conn s (.call i) = some s') :
    s.calls i = .notCalled ∧ s' = s.setCall i (.running .swap []) := by
  cases hcall : s.calls i with
  | notCalled =>
      simp only [step, hcall, Option.some.injEq] at hstep
      exact ⟨rfl, hstep.symm⟩
  | running top below => simp [step, hcall] at hstep
  | returned err => simp [step, hcall] at hstep

theorem Inv.step {action : Action T} (hinv : Inv body conn s)
    (hstep : step body conn s action = some s') : Inv body conn s' := by
  cases action with
  | call i =>
      obtain ⟨hcall, rfl⟩ := call_cases hstep
      exact hinv.call hcall
  | advance i => exact (hinv.advance hstep).1
  | count totals =>
      cases hstep
      cases hinv with
      | before hfirst hflag hcloses hcallbacks hearly =>
          exact .before hfirst hflag hcloses hcallbacks hearly
      | after first hfirst hflag hleads htrails =>
          exact .after first hfirst hflag hleads htrails

theorem inv_of_reaches {word : List (Action T)}
    (hreaches : (system body conn totals).Reaches word s) : Inv body conn s :=
  System.Reaches.invariant inv_init (fun _ _ _ hinv hstep => hinv.step hstep)
    hreaches

/-- The steps of call `i`. -/
def Action.advances (i : Nat) : Action T → Bool
  | .advance j => j = i
  | .call _ | .count _ => false

/-- No call takes more than six steps, whatever the others do. -/
theorem advances_le {word : List (Action T)}
    (hreaches : (system body conn totals).Reaches word s) (i : Nat) :
    word.countP (Action.advances i) + (s.calls i).rank ≤ 6 := by
  induction hreaches with
  | nil => exact Nat.le_refl 6
  | @snoc word state next action hbefore _ hstep ih =>
      rw [List.countP_append, List.countP_singleton]
      cases action with
      | call j =>
          have hcalls : step body conn state (.call j) = some next := hstep
          obtain ⟨hcall, rfl⟩ := call_cases hcalls
          by_cases hij : i = j
          · subst hij
            rw [hcall] at ih
            rw [State.setCall_self]
            exact ih
          · rw [State.setCall_of_ne state _ hij]
            exact ih
      | advance j =>
          obtain ⟨-, hrank, hothers⟩ := (inv_of_reaches hbefore).advance hstep
          by_cases hij : i = j
          · subst hij
            simp only [Action.advances, decide_true, if_true]
            omega
          · have hji : Action.advances (T := T) i (.advance j) = false := by
              simpa [Action.advances] using Ne.symm hij
            rw [hothers i hij, hji]
            exact ih
      | count totals =>
          cases hstep
          exact ih

/-- The stack of a call that has not returned. -/
theorem Inv.shape (hinv : Inv body conn s) {top : Frame E}
    {below : List (Frame E)} (hcall : s.calls i = .running top below) :
    top ≠ .waiting ∧ (below = [] ∨ below = [.waiting]) := by
  cases hinv with
  | before hfirst hflag hcloses hcallbacks hearly =>
      have hshape := hearly i
      rw [hcall] at hshape
      cases hshape
      simp
  | after first hfirst hflag hleads htrails =>
      by_cases hi : i = first
      · subst hi
        rw [hcall] at hleads
        generalize s.connCloses = closes at hleads
        generalize s.callbacks = callbacks at hleads
        cases hleads <;> simp
      · have hshape := htrails i hi
        rw [hcall] at hshape
        cases hshape with
        | early hearly =>
            cases hearly
            simp
        | ret => simp

/-- A call that has not returned can take its next step. -/
theorem Inv.progresses (hinv : Inv body conn s) {top : Frame E}
    {below : List (Frame E)} (hcall : s.calls i = .running top below) :
    ∃ s', s.advance body conn i = some s' := by
  obtain ⟨htop, hbelow⟩ := hinv.shape hcall
  cases top with
  | swap => exact ⟨_, State.advance_swap hcall⟩
  | inner =>
      cases hcallee : body.callee with
      | self => exact ⟨_, State.advance_inner_self hcall hcallee⟩
      | conn => exact ⟨_, State.advance_inner_conn hcall hcallee⟩
  | waiting => exact absurd rfl htop
  | callback err => exact ⟨_, State.advance_callback hcall⟩
  | ret err =>
      rcases hbelow with rfl | rfl
      · exact ⟨_, State.advance_ret hcall⟩
      · exact ⟨_, State.advance_resume hcall⟩

theorem Body.closes_le (body : Body) : body.closes ≤ 1 := by
  unfold closes
  split <;> decide

theorem Body.notifies_le (body : Body) : body.notifies ≤ 1 := by
  unfold notifies
  split <;> decide

theorem Leads.at_most_once {call : Call E} {closes : Nat} {callbacks : List T}
    (hleads : Leads body conn call closes callbacks) :
    closes ≤ 1 ∧ callbacks.length ≤ 1 := by
  cases hleads with
  | inner => exact ⟨Nat.zero_le 1, Nat.zero_le 1⟩
  | again hself => exact ⟨Nat.zero_le 1, Nat.zero_le 1⟩
  | refused hself => exact ⟨Nat.zero_le 1, Nat.zero_le 1⟩
  | callback => exact ⟨body.closes_le, Nat.zero_le 1⟩
  | ret hargs => exact ⟨body.closes_le, hargs ▸ body.notifies_le⟩
  | returned hargs => exact ⟨body.closes_le, hargs ▸ body.notifies_le⟩

/-- In every state the function has been called once at most, and so has `Close` of
the wrapped connection. -/
theorem at_most_once {word : List (Action T)}
    (hreaches : (system body conn totals).Reaches word s) :
    s.connCloses ≤ 1 ∧ s.callbacks.length ≤ 1 := by
  cases inv_of_reaches hreaches with
  | before hfirst hflag hnone hcallbacks hearly =>
      rw [hnone, hcallbacks]
      exact ⟨Nat.zero_le 1, Nat.zero_le 1⟩
  | after first hfirst hflag hleads htrails => exact hleads.at_most_once

/-- There has been a call, and every call has returned. -/
structure State.Finished (s : State E T) : Prop where
  called : ∃ i, s.calls i ≠ .notCalled
  returned : ∀ i, s.calls i = .notCalled ∨ ∃ err, s.calls i = .returned err

/-- The wrapped connection has been closed once, the function has been called once
if there is one, and the first call has the error of the connection. -/
structure State.ClosedOnce (body : Body) (conn : Nat → Option E)
    (s : State E T) : Prop where
  closed : s.connCloses = 1
  notified : s.callbacks.length = body.notifies
  answered : ∃ i, s.first = some i ∧ s.calls i = .returned (conn 0)

/-- What the calls have done when all of them have returned. -/
theorem Inv.finished (hinv : Inv body conn s) (hfinished : s.Finished) :
    s.connCloses = body.closes ∧ s.callbacks.length = body.notifies ∧
      ∃ i, s.first = some i ∧ s.calls i = .returned (body.answer conn) := by
  cases hinv with
  | before hfirst hflag hcloses hcallbacks hearly =>
      obtain ⟨i, hcalled⟩ := hfinished.called
      rcases hfinished.returned i with hnot | ⟨err, hreturned⟩
      · exact absurd hnot hcalled
      · have hshape := hearly i
        rw [hreturned] at hshape
        cases hshape
  | after first hfirst hflag hleads htrails =>
      rcases hfinished.returned first with hnot | ⟨err, hreturned⟩
      · rw [hnot] at hleads
        cases hleads
      · rw [hreturned] at hleads
        generalize hcloses : s.connCloses = closes at hleads
        generalize hcallbacks : s.callbacks = callbacks at hleads
        cases hleads with
        | returned hargs =>
            exact ⟨rfl, hargs, first, hfirst, hreturned⟩

/-- A `StatsConn` is closed once, in every interleaving of its calls. -/
theorem statsConn_closedOnce (statsFunc : Bool) (conn : Nat → Option E)
    (totals : T) {word : List (Action T)} {s : State E T}
    (hreaches : (system (statsConn statsFunc) conn totals).Reaches word s)
    (hfinished : s.Finished) : s.ClosedOnce (statsConn statsFunc) conn := by
  obtain ⟨hcloses, hnotified, hanswered⟩ :=
    (inv_of_reaches hreaches).finished hfinished
  exact ⟨hcloses, hnotified, hanswered⟩

/-- A `CloseNotifyConn` is never closed once: whenever its calls have all
returned the wrapped connection is open, the first call has returned nil, and all
that has been done is one call of `closeFn`.  No call takes more than six steps. -/
theorem closeNotifyConn_not_closedOnce (closeFn : Bool)
    (conn : Nat → Option E) (totals : T) {word : List (Action T)}
    {s : State E T}
    (hreaches : (system (closeNotifyConn closeFn) conn totals).Reaches word s)
    (hfinished : s.Finished) :
    ¬ s.ClosedOnce (closeNotifyConn closeFn) conn ∧ s.connCloses = 0 ∧
      s.callbacks.length = (closeNotifyConn closeFn).notifies ∧
      (∃ i, s.first = some i ∧ s.calls i = .returned none) ∧
      ∀ i, word.countP (Action.advances i) ≤ 6 := by
  obtain ⟨hcloses, hnotified, hanswered⟩ :=
    (inv_of_reaches hreaches).finished hfinished
  refine ⟨?_, hcloses, hnotified, hanswered, ?_⟩
  · intro honce
    have hzero : s.connCloses = 0 := hcloses
    rw [honce.closed] at hzero
    cases hzero
  · intro i
    exact Nat.le_trans (Nat.le_add_right _ _) (advances_le hreaches i)

/-- Two calls at once, as from both directions of a copy: call 1 comes to the flag
first. -/
def twoCloses : List (Action Unit) :=
  [Action.call 0, .call 1, .advance 1, .advance 0, .advance 1, .advance 1,
    .advance 0, .advance 1, .advance 1, .advance 1]

theorem closeNotifyConn_not_closedOnce_twoCloses :
    ∃ s : State Unit Unit,
      (system (closeNotifyConn true) (fun _ => some ()) ()).Reaches twoCloses
        s ∧ s.Finished ∧ ¬ s.ClosedOnce (closeNotifyConn true)
          (fun _ => some ()) ∧ s.connCloses = 0 ∧ s.callbacks.length = 1 := by
  obtain ⟨s, hreaches, hfinished⟩ : ∃ s : State Unit Unit,
      (system (closeNotifyConn true) (fun _ => some ()) ()).Reaches twoCloses
        s ∧ s.Finished := by
    refine ⟨_, System.reaches_of_exec rfl, ⟨0, by decide⟩, ?_⟩
    intro i
    match i with
    | 0 => exact .inr ⟨_, rfl⟩
    | 1 => exact .inr ⟨_, rfl⟩
    | n + 2 => exact .inl rfl
  obtain ⟨honce, hcloses, hnotified, -⟩ :=
    closeNotifyConn_not_closedOnce true (fun _ => some ()) () hreaches hfinished
  exact ⟨s, hreaches, hfinished, honce, hcloses, hnotified⟩

/-- One call of `Close` on a websocket connection. -/
def oneClose : List (Action Unit) :=
  .call 0 :: List.replicate 6 (.advance 0)

/-- The call has returned, and the connection has not been closed. -/
theorem not_closedOnce_oneClose :
    ∃ s : State Unit Unit,
      (system (closeNotifyConn true) (fun _ => none) ()).Reaches oneClose s ∧
        s.Finished ∧
        ¬ s.ClosedOnce (closeNotifyConn true) (fun _ => none) := by
  refine ⟨_, System.reaches_of_exec rfl, ⟨⟨0, by decide⟩, ?_⟩, ?_⟩
  · intro i
    match i with
    | 0 => exact .inr ⟨_, rfl⟩
    | n + 1 => exact .inl rfl
  · intro honce
    cases honce.closed

end CloseOnce

end Frp
