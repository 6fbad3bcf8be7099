/-
A process of goroutines: what a goroutine attempts is done, blocks or panics,
and a panic that nothing recovers ends the process.
-/
import Frp.Lib.System
import Frp.Lib.Chan

namespace GoChan

open Transition

universe u v

variable {S : Type u} {A : Type v}

/-- The state of a process; nothing moves after a crash. -/
structure Process (S : Type u) where
  state : S
  crashed : Bool

namespace Process

def step (attempt : S → A → Outcome S) (p : Process S) (action : A) :
    Option (Process S) :=
  if p.crashed then none
  else
    match attempt p.state action with
    | .done next => some ⟨next, false⟩
    | .block => none
    | .panic => some ⟨p.state, true⟩

/-- The process that starts in `start`. -/
def system (start : S) (attempt : S → A → Outcome S) :
    System (Process S) A where
  start := ⟨start, false⟩
  step := step attempt

variable {attempt : S → A → Outcome S} {cond : S → A → Prop}

theorem step_cases {p p' : Process S} {action : A}
    (hstep : step attempt p action = some p') :
    (attempt p.state action = .done p'.state ∧ p'.crashed = false) ∨
      attempt p.state action = .panic := by
  cases hattempt : attempt p.state action with
  | done next =>
      simp only [step, hattempt, Option.ite_none_left_eq_some,
        Option.some.injEq] at hstep
      obtain ⟨_, rfl⟩ := hstep
      exact Or.inl ⟨rfl, rfl⟩
  | block => simp [step, hattempt] at hstep
  | panic => exact Or.inr rfl

/-- A panic leaves the state as it was. -/
theorem step_state {p p' : Process S} {action : A}
    (hstep : step attempt p action = some p') :
    attempt p.state action = .done p'.state ∨
      attempt p.state action = .panic ∧ p'.state = p.state := by
  cases hattempt : attempt p.state action with
  | panic =>
      simp only [step, hattempt, Option.ite_none_left_eq_some,
        Option.some.injEq] at hstep
      obtain ⟨_, rfl⟩ := hstep
      exact Or.inr ⟨rfl, rfl⟩
  | _ =>
      rcases step_cases hstep with ⟨hdone, _⟩ | hpanic
      · exact Or.inl (hattempt ▸ hdone)
      · rw [hattempt] at hpanic
        cases hpanic

/-- The crash rule: where no permitted attempt panics, as long as an invariant
holds that every permitted attempt keeps, the process never crashes. -/
theorem not_crashed_of_run {I : S → Prop} {start : S} (hstart : I start)
    (hsafe : ∀ s action, I s → cond s action → attempt s action ≠ .panic)
    (hkeep : ∀ s action s', I s → cond s action →
      attempt s action = .done s' → I s')
    {word : List A} {p : Process S}
    (hrun : (system start attempt).Run (fun q => cond q.state) word p) :
    p.crashed = false := by
  have hinv : I p.state ∧ p.crashed = false := by
    refine System.Run.invariant (I := fun q : Process S =>
      I q.state ∧ q.crashed = false) ⟨hstart, rfl⟩ ?_ hrun
    intro q action next hq hcond hstep
    rcases step_cases hstep with ⟨hdone, hrunning⟩ | hpanic
    · exact ⟨hkeep _ _ _ hq.1 hcond hdone, hrunning⟩
    · exact absurd hpanic (hsafe _ _ hq.1 hcond)
  exact hinv.2

end Process

end GoChan
