/-
A register with one entry per key, and owners who each hold at most one key.
What an owner holds must stand under its name in the register, so an operation
that overwrites or deletes by key alone is safe only on a key nobody holds.
-/
import Mathlib.Algebra.Ring.Int.Defs
import Mathlib.Logic.Function.Basic

namespace Ledger

universe u v

variable {K : Type u} {O : Type v}

/-- Whatever is held is entered under its holder. -/
def Backed (entry : K → Option O) (holds : O → Option K) : Prop :=
  ∀ owner key, holds owner = some key → entry key = some owner

/-- The entries are those of the holders and no others. -/
def Exact (entry : K → Option O) (holds : O → Option K) : Prop :=
  ∀ owner key, entry key = some owner ↔ holds owner = some key

variable {entry : K → Option O} {holds : O → Option K}

theorem Exact.backed (hexact : Exact entry holds) : Backed entry holds :=
  fun owner key hheld => (hexact owner key).mpr hheld

theorem Backed.injective (hbacked : Backed entry holds) {left right : O}
    {key : K} (hleft : holds left = some key)
    (hright : holds right = some key) : left = right := by
  have hentry := hbacked left key hleft
  rw [hbacked right key hright, Option.some.injEq] at hentry
  exact hentry.symm

theorem Backed.not_held (hbacked : Backed entry holds) {key : K}
    (hfree : entry key = none) (owner : O) : holds owner ≠ some key := by
  intro hheld
  rw [hbacked owner key hheld] at hfree
  cases hfree

variable [DecidableEq K]

/-- A key that nobody holds may be entered and deleted at will. -/
theorem Backed.overwrite (hbacked : Backed entry holds) {key : K}
    (hfree : ∀ owner, holds owner ≠ some key) (value : Option O) :
    Backed (Function.update entry key value) holds := by
  intro owner other hheld
  have hne : other ≠ key := by
    rintro rfl
    exact hfree owner hheld
  rw [Function.update_of_ne hne]
  exact hbacked owner other hheld

variable [DecidableEq O]

omit [DecidableEq K] in
/-- An owner may give up what it holds without touching the register. -/
theorem Backed.forget (hbacked : Backed entry holds) (owner : O) :
    Backed entry (Function.update holds owner none) := by
  intro other key hheld
  by_cases hother : other = owner
  · simp [hother] at hheld
  · rw [Function.update_of_ne hother] at hheld
    exact hbacked other key hheld

theorem Backed.claim (hbacked : Backed entry holds) {key : K}
    (hfree : ∀ other, holds other ≠ some key) (owner : O) :
    Backed (Function.update entry key (some owner))
      (Function.update holds owner (some key)) := by
  intro other otherKey hheld
  by_cases hother : other = owner
  · rw [hother, Function.update_self, Option.some.injEq] at hheld
    rw [← hheld, Function.update_self, hother]
  · rw [Function.update_of_ne hother] at hheld
    exact hbacked.overwrite hfree (some owner) other otherKey hheld

/-- Deleting by key together with its holder leaves the others alone. -/
theorem Backed.drop (hbacked : Backed entry holds) {owner : O} {key : K}
    (hheld : holds owner = some key) :
    Backed (Function.update entry key none)
      (Function.update holds owner none) := by
  apply (hbacked.forget owner).overwrite
  intro other hother
  by_cases hsame : other = owner
  · simp [hsame] at hother
  · rw [Function.update_of_ne hsame] at hother
    exact hsame (hbacked.injective hother hheld)

/-- A key that is not entered may be claimed by an owner who holds nothing. -/
theorem Exact.claim (hexact : Exact entry holds) {owner : O} {key : K}
    (hfree : entry key = none) (hnone : holds owner = none) :
    Exact (Function.update entry key (some owner))
      (Function.update holds owner (some key)) := by
  intro other otherKey
  constructor
  · intro hentry
    by_cases hkey : otherKey = key
    · rw [hkey, Function.update_self, Option.some.injEq] at hentry
      rw [← hentry, Function.update_self, hkey]
    · rw [Function.update_of_ne hkey, hexact] at hentry
      have hother : other ≠ owner := by
        rintro rfl
        rw [hnone] at hentry
        cases hentry
      rw [Function.update_of_ne hother]
      exact hentry
  · exact hexact.backed.claim (hexact.backed.not_held hfree) owner other
      otherKey

theorem Exact.drop (hexact : Exact entry holds) {owner : O} {key : K}
    (hheld : holds owner = some key) :
    Exact (Function.update entry key none)
      (Function.update holds owner none) := by
  intro other otherKey
  constructor
  · intro hentry
    by_cases hkey : otherKey = key
    · simp [hkey] at hentry
    · rw [Function.update_of_ne hkey, hexact] at hentry
      have hother : other ≠ owner := by
        rintro rfl
        rw [hheld, Option.some.injEq] at hentry
        exact hkey hentry.symm
      rw [Function.update_of_ne hother]
      exact hentry
  · exact hexact.backed.drop hheld other otherKey

section Numbered

variable {K : Type u} [DecidableEq K] {entry : K → Option Nat} {made : Nat}

/-- The owners are numbered as they are made, and one stands under one key at
most. -/
structure Numbered (entry : K → Option Nat) (made : Nat) : Prop where
  below : ∀ key owner, entry key = some owner → owner < made
  one : ∀ left right owner, entry left = some owner →
    entry right = some owner → left = right

/-- What is entered after the next owner has been made. -/
theorem Numbered.cases_insert (hnumbered : Numbered entry made)
    {key other : K} {owner : Nat}
    (hentry : Function.update entry key (some made) other = some owner) :
    (other = key ∧ owner = made) ∨ (owner ≠ made ∧ entry other = some owner) := by
  by_cases hother : other = key
  · rw [hother, Function.update_self, Option.some.injEq] at hentry
    exact Or.inl ⟨hother, hentry.symm⟩
  · rw [Function.update_of_ne hother] at hentry
    exact Or.inr ⟨Nat.ne_of_lt (hnumbered.below other owner hentry), hentry⟩

theorem Numbered.insert (hnumbered : Numbered entry made) (key : K) :
    Numbered (Function.update entry key (some made)) (made + 1) where
  below other owner hentry := by
    rcases hnumbered.cases_insert hentry with ⟨_, rfl⟩ | ⟨_, hold⟩
    · exact Nat.lt_succ_self _
    · exact Nat.lt_succ_of_lt (hnumbered.below other owner hold)
  one left right owner hleft hright := by
    rcases hnumbered.cases_insert hleft with ⟨hkey, hnew⟩ | ⟨hne, hold⟩
    · rcases hnumbered.cases_insert hright with ⟨hkey', _⟩ | ⟨hne', _⟩
      · rw [hkey, hkey']
      · exact absurd hnew hne'
    · rcases hnumbered.cases_insert hright with ⟨_, hnew⟩ | ⟨_, hold'⟩
      · exact absurd hnew hne
      · exact hnumbered.one left right owner hold hold'

/-- What is left after a key has been deleted. -/
theorem of_remove {key other : K} {owner : Nat}
    (hentry : Function.update entry key none other = some owner) :
    other ≠ key ∧ entry other = some owner := by
  by_cases hother : other = key
  · simp [hother] at hentry
  · rw [Function.update_of_ne hother] at hentry
    exact ⟨hother, hentry⟩

theorem Numbered.remove (hnumbered : Numbered entry made) (key : K) :
    Numbered (Function.update entry key none) made where
  below other owner hentry := hnumbered.below other owner (of_remove hentry).2
  one left right owner hleft hright :=
    hnumbered.one left right owner (of_remove hleft).2 (of_remove hright).2

end Numbered

section Sole

variable {K : Type u} {O : Type v} {entry : K → Option O}
  {owners owners' : K → List O}

/-- What is entered under a key is its only owner, and a key that is not entered
has none. -/
def Sole (entry : K → Option O) (owners : K → List O) : Prop :=
  ∀ key, owners key = (entry key).toList

theorem Sole.entry_of_mem (hsole : Sole entry owners) {key : K} {owner : O}
    (hmem : owner ∈ owners key) : entry key = some owner := by
  rw [hsole key, Option.mem_toList] at hmem
  exact hmem

theorem Sole.owners_of_entry (hsole : Sole entry owners) {key : K} {owner : O}
    (hentry : entry key = some owner) : owners key = [owner] := by
  rw [hsole key, hentry]
  rfl

variable [DecidableEq K]

theorem Sole.enter (hsole : Sole entry owners) {key : K}
    (hfree : entry key = none) (owner : O)
    (hkey : owners' key = owners key ++ [owner])
    (hother : ∀ other, other ≠ key → owners' other = owners other) :
    Sole (Function.update entry key (some owner)) owners' := by
  intro other
  by_cases hsame : other = key
  · rw [hsame, hkey, hsole key, hfree, Function.update_self]
    rfl
  · rw [hother other hsame, hsole other, Function.update_of_ne hsame]

/-- An owner who leaves was the only one. -/
theorem Sole.leave (hsole : Sole entry owners) {key : K} {owner : O}
    {before after : List O} (hhere : owners key = before ++ owner :: after)
    (hkey : owners' key = before ++ after)
    (hother : ∀ other, other ≠ key → owners' other = owners other) :
    Sole (Function.update entry key none) owners' := by
  intro other
  by_cases hsame : other = key
  · have hentry := hsole.entry_of_mem (hhere ▸ by simp : owner ∈ owners key)
    have hlength := congrArg List.length
      (hhere.symm.trans (hsole.owners_of_entry hentry))
    simp only [List.length_append, List.length_cons, List.length_nil] at hlength
    have hnone : before ++ after = [] :=
      List.eq_nil_of_length_eq_zero (by rw [List.length_append]; omega)
    rw [hsame, hkey, hnone, Function.update_self]
    rfl
  · rw [hother other hsame, hsole other, Function.update_of_ne hsame]

end Sole

section Sum

variable {O : Type v} {owner : O} {amount amount' : O → Int} {owners : List O}

/-- What one owner has changes the sum by the difference. -/
theorem sum_map_change (hnodup : owners.Nodup) (hmem : owner ∈ owners)
    (hother : ∀ other, other ≠ owner → amount' other = amount other) :
    (owners.map amount').sum =
      (owners.map amount).sum + (amount' owner - amount owner) := by
  induction owners with
  | nil => exact absurd hmem List.not_mem_nil
  | cons head rest ih =>
      rw [List.nodup_cons] at hnodup
      rw [List.map_cons, List.map_cons, List.sum_cons, List.sum_cons]
      rcases List.mem_cons.mp hmem with rfl | hrest
      · have hsame : rest.map amount' = rest.map amount :=
          List.map_congr_left fun other hin =>
            hother other fun heq => hnodup.1 (heq ▸ hin)
        rw [hsame]
        omega
      · have hne : head ≠ owner := fun heq => hnodup.1 (heq ▸ hrest)
        rw [ih hnodup.2 hrest, hother head hne]
        omega

end Sum

end Ledger
