/-
The integers of a Go program: an `int` of either width, as a mathematical integer
with the two's-complement wrap onto its range.
-/
import Mathlib.Algebra.Ring.Int.Defs
import Mathlib.Algebra.Ring.Nat

namespace GoInt

/-- The widths an `int` has. -/
inductive Width where
  | bits32
  | bits64
deriving DecidableEq, Repr

namespace Width

def bits : Width → Nat
  | .bits32 => 32
  | .bits64 => 64

/-- The first number past the largest of the width. -/
def half : Width → Nat
  | .bits32 => 2147483648
  | .bits64 => 9223372036854775808

/-- The largest number of the width. -/
def maxInt (w : Width) : Int := w.half - 1

/-- The numbers of the width. -/
def Holds (w : Width) (x : Int) : Prop := -w.half ≤ x ∧ x < w.half

instance (w : Width) (x : Int) : Decidable (w.Holds x) :=
  inferInstanceAs (Decidable (_ ∧ _))

/-- What the machine makes of an exact result. -/
def wrap (w : Width) (x : Int) : Int := x.bmod (2 * w.half)

variable {w : Width}

theorem half_pos : 0 < w.half := by
  cases w <;> decide

theorem two_pow_bits : 2 ^ w.bits = 2 * w.half := by
  cases w <;> decide

theorem holds_wrap (x : Int) : w.Holds (w.wrap x) := by
  have hpos := w.half_pos
  have hlow := @Int.le_bmod x (2 * w.half) (by omega)
  have hhigh := @Int.bmod_lt x (2 * w.half) (by omega)
  unfold Holds wrap
  omega

theorem wrap_of_holds {x : Int} (hx : w.Holds x) : w.wrap x = x := by
  have hpos := w.half_pos
  obtain ⟨hlow, hhigh⟩ := hx
  exact Int.bmod_eq_of_le (by omega) (by omega)

/-- Past the largest number the count goes on at the least one. -/
theorem wrap_of_half_le {x : Int} (hlow : w.half ≤ x)
    (hhigh : x < 3 * w.half) : w.wrap x = x - 2 * w.half := by
  have hturn : w.wrap x = w.wrap (x - 2 * w.half) := by
    have hsub := Int.sub_bmod_right x (2 * w.half)
    rw [Int.natCast_mul] at hsub
    exact hsub.symm
  rw [hturn, wrap_of_holds]
  constructor <;> omega

/-- A number that is too large for the width turns negative. -/
theorem wrap_neg_of_half_le {x : Int} (hlow : w.half ≤ x)
    (hhigh : x < 2 * w.half) : w.wrap x < 0 := by
  rw [wrap_of_half_le hlow (by omega)]
  omega

/-- A sum that the machine finds not negative is not. -/
theorem nonneg_of_wrap {n k : Int} (hn : w.Holds n) (hk : 0 ≤ k)
    (hwrap : 0 ≤ w.wrap (n + k)) : 0 ≤ n + k := by
  by_contra hneg
  have hpos := w.half_pos
  have hholds : w.Holds (n + k) := by
    obtain ⟨hlow, _⟩ := hn
    constructor <;> omega
  rw [wrap_of_holds hholds] at hwrap
  exact hneg hwrap

/-- An unsigned counter of 64 bits and the number it counts convert alike. -/
theorem wrap_mod_two_pow (n : Nat) :
    w.wrap ((n % 2 ^ 64 : Nat) : Int) = w.wrap n := by
  have hturns : ∃ turns : Nat, 2 ^ 64 = 2 * w.half * turns := by
    cases w with
    | bits32 => exact ⟨4294967296, by decide⟩
    | bits64 => exact ⟨1, by decide⟩
  obtain ⟨turns, hturns⟩ := hturns
  have hsum : (n : Int) = ((n % 2 ^ 64 : Nat) : Int) +
      ((2 * w.half : Nat) : Int) * (turns * (n / 2 ^ 64) : Nat) := by
    have hdiv := Nat.mod_add_div n (2 ^ 64)
    rw [← Int.natCast_mul, ← Int.natCast_add, ← Nat.mul_assoc, ← hturns, hdiv]
  conv_rhs => rw [hsum]
  exact (Int.add_mul_bmod_self_left _ _ _).symm

/-- The number after the largest is the least. -/
theorem wrap_add_one (x : Int) : w.wrap (x + 1) = w.wrap x + 1 ∨
    (w.wrap x = w.maxInt ∧ w.wrap (x + 1) = -w.half) := by
  have hstep : w.wrap (x + 1) = w.wrap (w.wrap x + 1) :=
    (Int.bmod_add_bmod).symm
  obtain ⟨hlow, hhigh⟩ := w.holds_wrap x
  have hpos := w.half_pos
  unfold maxInt
  by_cases hlast : w.wrap x + 1 < w.half
  · left
    rw [hstep]
    exact wrap_of_holds ⟨by omega, hlast⟩
  · right
    have hmax : w.wrap x = w.half - 1 := by omega
    refine ⟨hmax, ?_⟩
    rw [hstep, wrap_of_half_le (by omega) (by omega)]
    omega

/-- Of `n` consecutive numbers that the machine finds not negative or multiples of
`n`, only the last can be past the largest. -/
theorem wrap_count {n : Nat} (hn : 1 < n) {x : Int}
    (hrun : ∀ i < n, 0 ≤ w.wrap (x + i) ∨ (n : Int) ∣ w.wrap (x + i)) :
    ∀ i < n, w.wrap (x + i) = w.wrap x + i ∨
      (w.wrap (x + i) = -w.half ∧ w.wrap x + i = w.half ∧ i + 1 = n) := by
  have hnotOne : ¬ (n : Int) ∣ 1 := by
    intro hdvd
    have hle := Int.le_of_dvd (by omega) hdvd
    omega
  -- two neighbours are not both multiples
  have hnext : ∀ y : Int, (n : Int) ∣ y → ¬ (n : Int) ∣ y + 1 := by
    intro y hy hy'
    exact hnotOne ((Int.dvd_add_right hy).mp hy')
  intro i
  induction i with
  | zero => simp
  | succ i ih =>
      intro hi
      have hcast : x + ((i + 1 : Nat) : Int) = x + i + 1 := by omega
      have hhere := hrun i (by omega)
      have hthere := hrun (i + 1) hi
      rw [hcast] at hthere ⊢
      have hhalf : (2 : Int) ≤ w.half := by
        cases w <;> decide
      rcases w.wrap_add_one (x + i) with hsucc | ⟨hmax, hleast⟩
      · rcases ih (by omega) with hcount | ⟨_, _, hend⟩
        · left
          omega
        · omega
      · right
        unfold maxInt at hmax
        have hcount : w.wrap (x + i) = w.wrap x + i := by
          rcases ih (by omega) with hcount | ⟨hneg, _, _⟩
          · exact hcount
          · omega
        refine ⟨hleast, by omega, ?_⟩
        by_contra hmore
        have hafter := hrun (i + 2) (by omega)
        have hcast' : x + ((i + 2 : Nat) : Int) = x + i + 1 + 1 := by omega
        rw [hcast'] at hafter
        have hsucc : w.wrap (x + i + 1 + 1) = w.wrap (x + i + 1) + 1 := by
          rcases w.wrap_add_one (x + i + 1) with hsucc | ⟨hmax', _⟩
          · exact hsucc
          · unfold maxInt at hmax'
            omega
        rcases hthere with hnonneg | hdvd
        · omega
        · rcases hafter with hnonneg | hdvd'
          · omega
          · rw [hsucc] at hdvd'
            exact hnext _ hdvd hdvd'

/-- Such a stretch counts on modulo `n`. -/
theorem wrap_emod_count {n : Nat} {x : Int}
    (hrun : ∀ i < n, 0 ≤ w.wrap (x + i) ∨ (n : Int) ∣ w.wrap (x + i))
    {i : Nat} (hi : i < n) :
    w.wrap (x + i) % n = (w.wrap x + i) % n := by
  by_cases hn : 1 < n
  · rcases wrap_count hn hrun i hi with hcount | ⟨hleast, hsum, _⟩
    · rw [hcount]
    · have hpos := w.half_pos
      have hdvd : (n : Int) ∣ w.wrap (x + i) := by
        rcases hrun i hi with hnonneg | hdvd
        · omega
        · exact hdvd
      rw [hleast] at hdvd ⊢
      rw [hsum, Int.emod_eq_zero_of_dvd hdvd,
        Int.emod_eq_zero_of_dvd (Int.dvd_neg.mp hdvd)]
  · have hone : n = 1 := by omega
    subst hone
    omega

/-- The wrap never adds to a number that is not negative. -/
theorem wrap_le {x : Int} (hx : 0 ≤ x) : w.wrap x ≤ x := by
  rw [wrap, Int.bmod_eq_emod]
  cases w with
  | bits32 =>
      simp only [half]
      omega
  | bits64 =>
      simp only [half]
      omega

end Width

/-- A remainder has the sign of its dividend. -/
theorem tmod_neg_iff {n : Nat} {x : Int} :
    x.tmod n < 0 ↔ x < 0 ∧ ¬ (n : Int) ∣ x := by
  rw [Int.dvd_iff_tmod_eq_zero]
  by_cases hx : 0 ≤ x
  · have hnonneg := Int.tmod_nonneg n hx
    omega
  · have hneg : (-x).tmod n = -x.tmod n := Int.neg_tmod x n
    have hnonneg := @Int.tmod_nonneg (-x) n (by omega)
    omega

/-- It is the mathematical one where it is not negative. -/
theorem tmod_eq_emod {n : Nat} {x : Int} (hx : 0 ≤ x ∨ (n : Int) ∣ x) :
    x.tmod n = x % n := by
  rcases hx with hx | hx
  · exact Int.tmod_eq_emod_of_nonneg hx
  · rw [Int.tmod_eq_zero_of_dvd hx, Int.emod_eq_zero_of_dvd hx]

end GoInt
