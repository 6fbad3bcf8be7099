/-
Labelled transition systems with an executable step.  A run carries the word of
actions it took, so a bad run is a list that can be replayed, and it may be
restricted by a condition on every step.
-/
import Mathlib.Logic.Function.Basic

namespace Transition

universe u v

variable {S : Type u} {A : Type v}

/-- A system is a start state and a partial step; nondeterminism lives in the
action, so each step can be computed. -/
structure System (S : Type u) (A : Type v) where
  start : S
  step : S → A → Option S

/-- The runs whose every step meets `cond` in the state it is taken from. -/
inductive System.Run (M : System S A) (cond : S → A → Prop) :
    List A → S → Prop where
  | nil : M.Run cond [] M.start
  | snoc {word : List A} {state next : S} {action : A} :
      M.Run cond word state → cond state action →
      M.step state action = some next → M.Run cond (word ++ [action]) next

/-- The unrestricted runs. -/
def System.Reaches (M : System S A) (word : List A) (state : S) : Prop :=
  M.Run (fun _ _ => True) word state

/-- Replay a word from a state, checking `cond` before each step. -/
def System.replay (M : System S A) (cond : S → A → Prop)
    [∀ state action, Decidable (cond state action)] :
    S → List A → Option S
  | state, [] => some state
  | state, action :: word =>
      if cond state action then
        match M.step state action with
        | none => none
        | some next => M.replay cond next word
      else none

/-- Replay a word without a condition. -/
def System.exec (M : System S A) (state : S) (word : List A) : Option S :=
  M.replay (fun _ _ => True) state word

namespace System

variable {M : System S A} {cond : S → A → Prop}

theorem Run.reaches {word : List A} {state : S}
    (hrun : M.Run cond word state) : M.Reaches word state := by
  induction hrun with
  | nil => exact Run.nil
  | snoc _ _ hstep ih => exact Run.snoc ih trivial hstep

/-- The invariant rule: what the start state has and every permitted step keeps
holds at the end of every permitted run. -/
theorem Run.invariant {I : S → Prop} (hstart : I M.start)
    (hstep : ∀ state action next, I state → cond state action →
      M.step state action = some next → I next)
    {word : List A} {state : S} (hrun : M.Run cond word state) :
    I state := by
  induction hrun with
  | nil => exact hstart
  | snoc _ hcond hnext ih => exact hstep _ _ _ ih hcond hnext

/-- The invariant rule for unrestricted runs. -/
theorem Reaches.invariant {I : S → Prop} (hstart : I M.start)
    (hstep : ∀ state action next, I state →
      M.step state action = some next → I next)
    {word : List A} {state : S} (hrun : M.Reaches word state) :
    I state :=
  Run.invariant hstart (fun s a t hs _ h => hstep s a t hs h) hrun

theorem Run.append_replay [∀ state action, Decidable (cond state action)]
    {word more : List A} {state final : S} (hrun : M.Run cond word state)
    (hreplay : M.replay cond state more = some final) :
    M.Run cond (word ++ more) final := by
  induction more generalizing word state with
  | nil =>
      simp only [replay, Option.some.injEq] at hreplay
      subst hreplay
      simpa using hrun
  | cons action more ih =>
      by_cases hcond : cond state action
      · cases hnext : M.step state action with
        | none => simp [replay, hcond, hnext] at hreplay
        | some next =>
            have hlonger : M.Run cond (word ++ [action]) next :=
              Run.snoc hrun hcond hnext
            have hrest : M.replay cond next more = some final := by
              simpa [replay, hcond, hnext] using hreplay
            simpa using ih hlonger hrest
      · simp [replay, hcond] at hreplay

/-- A word that replays from the start is a run. -/
theorem run_of_replay [∀ state action, Decidable (cond state action)]
    {word : List A} {state : S}
    (hreplay : M.replay cond M.start word = some state) :
    M.Run cond word state := by
  simpa using Run.append_replay Run.nil hreplay

theorem reaches_of_exec {word : List A} {state : S}
    (hexec : M.exec M.start word = some state) : M.Reaches word state :=
  run_of_replay hexec

/-- A property found by replaying a word holds at the end of a run. -/
theorem exists_run_of_replay [∀ state action, Decidable (cond state action)]
    {word : List A} {P : S → Prop} [DecidablePred P]
    (hreplay : (M.replay cond M.start word).any (fun s => decide (P s))) :
    ∃ state, M.Run cond word state ∧ P state := by
  obtain ⟨hsome, hP⟩ := (Option.any_eq_true_iff_get _ _).mp hreplay
  exact ⟨_, run_of_replay (Option.some_get hsome).symm, of_decide_eq_true hP⟩

theorem exists_reaches_of_exec {word : List A} {P : S → Prop}
    [DecidablePred P]
    (hexec : (M.exec M.start word).any (fun s => decide (P s))) :
    ∃ state, M.Reaches word state ∧ P state :=
  exists_run_of_replay hexec

/-- The rule of simulation: when every permitted step is seen as a permitted step
of another system or not at all, every permitted run is seen as one of that
system. -/
theorem Run.simulates {T : Type u} {B : Type v} {N : System T B}
    {cond' : T → B → Prop} {view : S → T} (hstart : view M.start = N.start)
    (hstep : ∀ state action next, cond state action →
      M.step state action = some next → view next = view state ∨
        ∃ seen, cond' (view state) seen ∧
          N.step (view state) seen = some (view next))
    {word : List A} {state : S} (hrun : M.Run cond word state) :
    ∃ seen, N.Run cond' seen (view state) := by
  induction hrun with
  | nil => exact ⟨[], hstart ▸ Run.nil⟩
  | snoc _ hcond hnext ih =>
      obtain ⟨seen, hseen⟩ := ih
      rcases hstep _ _ _ hcond hnext with hsame | ⟨action, hcond', hnext'⟩
      · exact ⟨seen, hsame ▸ hseen⟩
      · exact ⟨seen ++ [action], Run.snoc hseen hcond' hnext'⟩

/-- Where a permitted step keeps `J`, and under `J` exactly the permitted steps
lead to `P`, the runs through states with `P` are the permitted ones. -/
theorem run_leads_iff {P J : S → Prop} (hstart : J M.start)
    (hkeep : ∀ state action next, J state → cond state action →
      M.step state action = some next → J next)
    (hiff : ∀ state action next, J state →
      M.step state action = some next → (P next ↔ cond state action))
    (word : List A) (state : S) :
    M.Run (fun s a => ∀ next ∈ M.step s a, P next) word state ↔
      M.Run cond word state := by
  constructor
  · intro hrun
    induction hrun with
    | nil => exact Run.nil
    | snoc _ hleads hnext ih =>
        have hJ := Run.invariant hstart hkeep ih
        exact Run.snoc ih ((hiff _ _ _ hJ hnext).mp (hleads _ hnext)) hnext
  · intro hrun
    induction hrun with
    | nil => exact Run.nil
    | snoc hbefore hcond hnext ih =>
        have hJ := Run.invariant hstart hkeep hbefore
        refine Run.snoc ih ?_ hnext
        intro other hother
        obtain rfl := Option.some.inj (hnext.symm.trans hother)
        exact (hiff _ _ _ hJ hnext).mpr hcond

/-- Where exactly the steps that are not permitted leave a mark, and no step
takes it away, the permitted runs are those that end without one. -/
theorem Reaches.run_iff_not_marked {Marked : S → Prop}
    (hstart : ¬ Marked M.start)
    (hstep : ∀ {word : List A} {state next : S} {action : A},
      M.Reaches word state → M.step state action = some next →
      (Marked next ↔ Marked state ∨ ¬ cond state action))
    {word : List A} {state : S} (hreaches : M.Reaches word state) :
    M.Run cond word state ↔ ¬ Marked state := by
  constructor
  · intro hrun
    clear hreaches
    induction hrun with
    | nil => exact hstart
    | snoc hbefore hcond hnext ih =>
        rw [hstep hbefore.reaches hnext]
        exact fun hmarked => hmarked.elim ih fun hwrong => hwrong hcond
  · intro hclean
    induction hreaches with
    | nil => exact Run.nil
    | snoc hbefore _ hnext ih =>
        rw [hstep hbefore hnext, not_or, not_not] at hclean
        exact Run.snoc (ih hclean.1) hclean.2 hnext

/-- A property that every step keeps survives any continuation. -/
theorem exec_preserves {I : S → Prop}
    (hstep : ∀ state action next, I state →
      M.step state action = some next → I next)
    {word : List A} {state final : S} (hstate : I state)
    (hexec : M.exec state word = some final) : I final := by
  induction word generalizing state with
  | nil =>
      simp only [exec, replay, Option.some.injEq] at hexec
      exact hexec ▸ hstate
  | cons action word ih =>
      cases hnext : M.step state action with
      | none => simp [exec, replay, hnext] at hexec
      | some next =>
          have hrest : M.exec next word = some final := by
            simpa [exec, replay, hnext] using hexec
          exact ih (hstep state action next hstate hnext) hrest

end System

end Transition
