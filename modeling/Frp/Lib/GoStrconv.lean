/-
Numbers and white space in byte strings, as the `strconv` and `strings` packages
of the Go standard library read them.
-/
import Frp.Lib.GoInt
import Frp.Lib.GoStrings

namespace GoStrconv

open GoInt GoStrings

/-- `ErrSyntax` and `ErrRange`. -/
inductive NumErrorKind where
  | errSyntax
  | errRange
deriving DecidableEq, Repr

def NumErrorKind.text : NumErrorKind → String
  | .errSyntax => "invalid syntax"
  | .errRange => "value out of range"

/-- Why a text is no number: the function that read it, the text and the
reason. -/
structure NumError where
  func : String
  num : Bytes
  err : NumErrorKind
deriving DecidableEq, Repr

/-- The text of the error; `quote` is the function of that name. -/
def NumError.text (quote : Bytes → String) (e : NumError) : String :=
  "strconv." ++ e.func ++ ": parsing " ++ quote e.num ++ ": " ++ e.err.text

def plus : UInt8 := 43

def dash : UInt8 := 45

def isDigit (byte : UInt8) : Bool := decide (48 ≤ byte ∧ byte ≤ 57)

/-- The digits of a number in base ten; the first one that takes it past
`limit` ends the reading. -/
def parseDigits (limit : Nat) : Nat → Bytes → Except NumErrorKind Nat
  | n, [] => .ok n
  | n, byte :: rest =>
      if isDigit byte then
        if 10 * n + (byte.toNat - 48) ≤ limit then
          parseDigits limit (10 * n + (byte.toNat - 48)) rest
        else .error .errRange
      else .error .errSyntax

/-- `ParseUint` in base ten, for 64 bits or for the width of an `int`. -/
def parseUint (w : Width) (text : Bytes) : Except NumErrorKind Nat :=
  if text = [] then .error .errSyntax
  else parseDigits (2 * w.half - 1) 0 text

/-- The sign of a number and what stands behind it. -/
def splitSign : Bytes → Bool × Bytes
  | [] => (false, [])
  | byte :: rest =>
      if byte = plus then (false, rest)
      else if byte = dash then (true, rest)
      else (false, byte :: rest)

/-- `ParseInt` in base ten.  Out of range it returns the nearest number of the
width beside its error. -/
def parseInt (w : Width) (text : Bytes) : Int × Option NumErrorKind :=
  let (neg, digits) := splitSign text
  match parseUint w digits with
  | .error .errSyntax => (0, some .errSyntax)
  | .error .errRange => (if neg then -w.half else w.maxInt, some .errRange)
  | .ok n =>
      if neg then
        if n ≤ w.half then (-n, none) else (-w.half, some .errRange)
      else
        if n < w.half then (n, none) else (w.maxInt, some .errRange)

/-- `Atoi`, which reads a short text without `ParseInt` to the same result. -/
def atoi (w : Width) (text : Bytes) : Int × Option NumErrorKind :=
  parseInt w text

/-- A text that is a number of the width. -/
def IsInt (w : Width) (text : Bytes) (n : Int) : Prop :=
  parseInt w text = (n, none)

instance (w : Width) (text : Bytes) (n : Int) : Decidable (IsInt w text n) :=
  inferInstanceAs (Decidable (_ = _))

theorem IsInt.holds {w : Width} {text : Bytes} {n : Int}
    (hint : IsInt w text n) : w.Holds n := by
  unfold IsInt parseInt at hint
  dsimp only at hint
  have hpos := w.half_pos
  split at hint
  · simp at hint
  · simp at hint
  · split at hint
    · split at hint
      · simp only [Prod.mk.injEq, and_true] at hint
        unfold Width.Holds
        omega
      · simp at hint
    · split at hint
      · simp only [Prod.mk.injEq, and_true] at hint
        unfold Width.Holds
        omega
      · simp at hint

/-- The characters that `unicode.IsSpace` accepts, in UTF-8. -/
def spaces : List Bytes :=
  [[9], [10], [11], [12], [13], [32], [0xC2, 0x85], [0xC2, 0xA0],
    [0xE1, 0x9A, 0x80], [0xE2, 0x80, 0x80], [0xE2, 0x80, 0x81],
    [0xE2, 0x80, 0x82], [0xE2, 0x80, 0x83], [0xE2, 0x80, 0x84],
    [0xE2, 0x80, 0x85], [0xE2, 0x80, 0x86], [0xE2, 0x80, 0x87],
    [0xE2, 0x80, 0x88], [0xE2, 0x80, 0x89], [0xE2, 0x80, 0x8A],
    [0xE2, 0x80, 0xA8], [0xE2, 0x80, 0xA9], [0xE2, 0x80, 0xAF],
    [0xE2, 0x81, 0x9F], [0xE3, 0x80, 0x80]]

/-- Take the given words off the front, at most `fuel` of them. -/
def stripFront (words : List Bytes) : Nat → Bytes → Bytes
  | 0, text => text
  | fuel + 1, text =>
      match words.find? fun word => word.isPrefixOf text with
      | none => text
      | some word => stripFront words fuel (text.drop word.length)

/-- `strings.TrimSpace`.  No encoding of a white space begins or ends with
another, so it does not matter which is taken first. -/
def trimSpace (text : Bytes) : Bytes :=
  let left := stripFront spaces text.length text
  (stripFront (spaces.map List.reverse) left.length left.reverse).reverse

/-- Nothing that `trimSpace` takes is left at either end. -/
structure Trimmed (text : Bytes) : Prop where
  front : ∀ space ∈ spaces, ¬ space <+: text
  back : ∀ space ∈ spaces, ¬ space <:+ text

theorem stripFront_suffix (words : List Bytes) (fuel : Nat) (text : Bytes) :
    stripFront words fuel text <:+ text := by
  induction fuel generalizing text with
  | zero => exact List.suffix_rfl
  | succ fuel ih =>
      unfold stripFront
      split
      · exact List.suffix_rfl
      · exact (ih _).trans (List.drop_suffix _ text)

/-- With enough fuel no word is left. -/
theorem not_prefix_stripFront {words : List Bytes} (hwords : [] ∉ words)
    {fuel : Nat} {text : Bytes} (hfuel : text.length ≤ fuel) :
    ∀ word ∈ words, ¬ word <+: stripFront words fuel text := by
  induction fuel generalizing text with
  | zero =>
      obtain rfl := List.length_eq_zero_iff.mp (Nat.le_zero.mp hfuel)
      intro word hword hpre
      exact hwords (List.prefix_nil.mp hpre ▸ hword)
  | succ fuel ih =>
      unfold stripFront
      split
      · next hnone =>
          intro word hword hpre
          have hnot := List.find?_eq_none.mp hnone word hword
          exact hnot (List.isPrefixOf_iff_prefix.mpr hpre)
      · next word hsome =>
          have hne : word ≠ [] :=
            fun hnil => hwords (hnil ▸ List.mem_of_find?_eq_some hsome)
          have hpos := List.length_pos_of_ne_nil hne
          exact ih (by rw [List.length_drop]; omega)

theorem stripFront_of_not_prefix {words : List Bytes} {text : Bytes}
    (hnone : ∀ word ∈ words, ¬ word <+: text) (fuel : Nat) :
    stripFront words fuel text = text := by
  cases fuel with
  | zero => rfl
  | succ fuel =>
      have hfind : words.find? (fun word => word.isPrefixOf text) = none := by
        rw [List.find?_eq_none]
        intro word hword hpre
        exact hnone word hword (List.isPrefixOf_iff_prefix.mp hpre)
      simp only [stripFront, hfind]

theorem trimSpace_of_trimmed {text : Bytes} (htrimmed : Trimmed text) :
    trimSpace text = text := by
  have hback : ∀ word ∈ spaces.map List.reverse, ¬ word <+: text.reverse := by
    intro word hword
    obtain ⟨space, hspace, rfl⟩ := List.mem_map.mp hword
    rw [List.reverse_prefix]
    exact htrimmed.back space hspace
  rw [trimSpace, stripFront_of_not_prefix htrimmed.front, stripFront_of_not_prefix hback,
    List.reverse_reverse]

/-- What is left is a part of the text, and from its first byte on when the text
does not begin with a white space. -/
theorem trimSpace_prefix_stripFront (text : Bytes) :
    trimSpace text <+: stripFront spaces text.length text := by
  have hsuffix := stripFront_suffix (spaces.map List.reverse)
    (stripFront spaces text.length text).length
    (stripFront spaces text.length text).reverse
  have hpre := List.reverse_prefix.mpr hsuffix
  rwa [List.reverse_reverse] at hpre

theorem trimSpace_infix (text : Bytes) : trimSpace text <:+: text :=
  (trimSpace_prefix_stripFront text).isInfix.trans
    (stripFront_suffix spaces text.length text).isInfix

theorem trimmed_trimSpace (text : Bytes) : Trimmed (trimSpace text) := by
  constructor
  · intro space hspace hpre
    exact not_prefix_stripFront (by decide) le_rfl space hspace
      (hpre.trans (trimSpace_prefix_stripFront text))
  · intro space hspace hsuffix
    have hword : space.reverse ∈ spaces.map List.reverse :=
      List.mem_map_of_mem hspace
    have hpre := List.reverse_prefix.mpr hsuffix
    rw [trimSpace, List.reverse_reverse] at hpre
    exact not_prefix_stripFront (by decide) (List.length_reverse).le space.reverse
      hword hpre

/-- The byte of an ASCII character. -/
def charByte (c : Char) : UInt8 := UInt8.ofNat c.toNat

/-- The decimal digits of a number. -/
def formatNat (n : Nat) : Bytes := (Nat.toDigits 10 n).map charByte

/-- `%d` of an integer. -/
def formatInt (i : Int) : Bytes :=
  if i < 0 then dash :: formatNat i.natAbs else formatNat i.toNat

theorem toNat_le_of_isDigit {c : Char} (hdigit : c.isDigit = true) :
    48 ≤ c.toNat ∧ c.toNat ≤ 57 := by
  simp only [Char.isDigit, Bool.and_eq_true, decide_eq_true_eq] at hdigit
  exact ⟨UInt32.le_iff_toNat_le.mp hdigit.1,
    UInt32.le_iff_toNat_le.mp hdigit.2⟩

theorem ofNat_charByte {c : Char} (hdigit : c.isDigit = true) :
    Char.ofNat (charByte c).toNat = c := by
  have hbound := (toNat_le_of_isDigit hdigit).2
  have hsame : c.toNat % 256 = c.toNat := Nat.mod_eq_of_lt (by omega)
  simp [charByte, hsame]

/-- The digits can be read back. -/
theorem formatNat_inj {m n : Nat} (hsame : formatNat m = formatNat n) :
    m = n := by
  have hback : ∀ k, (formatNat k).map (fun byte => Char.ofNat byte.toNat) =
      Nat.toDigits 10 k := by
    intro k
    rw [formatNat, List.map_map]
    conv_rhs => rw [← List.map_id (Nat.toDigits 10 k)]
    apply List.map_congr_left
    intro c hc
    exact ofNat_charByte (Nat.isDigit_of_mem_toDigits (by decide) (by decide) hc)
  calc m = Nat.ofDigitChars 10 (Nat.toDigits 10 m) 0 :=
        Nat.ofDigitChars_ten_toDigits.symm
    _ = Nat.ofDigitChars 10 (Nat.toDigits 10 n) 0 := by
        rw [← hback, ← hback, hsame]
    _ = n := Nat.ofDigitChars_ten_toDigits

theorem isDigit_of_mem_formatNat {n : Nat} {byte : UInt8}
    (hmem : byte ∈ formatNat n) : isDigit byte = true := by
  obtain ⟨c, hc, rfl⟩ := List.mem_map.mp hmem
  obtain ⟨hlow, hhigh⟩ := toNat_le_of_isDigit
    (Nat.isDigit_of_mem_toDigits (by decide) (by decide) hc)
  have hsame : c.toNat % 256 = c.toNat := Nat.mod_eq_of_lt (by omega)
  simp [isDigit, charByte, UInt8.le_iff_toNat_le, hsame, hlow, hhigh]

theorem le_ofDigitChars (digits : List Char) (n : Nat) :
    n ≤ Nat.ofDigitChars 10 digits n := by
  induction digits generalizing n with
  | nil => exact Nat.le_of_eq (by simp [Nat.ofDigitChars_nil])
  | cons c rest ih =>
      rw [Nat.ofDigitChars_cons]
      exact Nat.le_trans (by omega) (ih _)

/-- Reading digits within the limit gives their value. -/
theorem parseDigits_digits {limit : Nat} (digits : List Char) (n : Nat)
    (hdigits : ∀ c ∈ digits, c.isDigit = true)
    (hlimit : Nat.ofDigitChars 10 digits n ≤ limit) :
    parseDigits limit n (digits.map charByte) =
      .ok (Nat.ofDigitChars 10 digits n) := by
  induction digits generalizing n with
  | nil => rw [Nat.ofDigitChars_nil]; rfl
  | cons c rest ih =>
      have hc := hdigits c List.mem_cons_self
      obtain ⟨hlow, hhigh⟩ := toNat_le_of_isDigit hc
      have hbyte : (charByte c).toNat = c.toNat := by
        simp only [charByte, UInt8.toNat_ofNat']
        omega
      have hisDigit : isDigit (charByte c) = true := by
        simp only [isDigit, UInt8.le_iff_toNat_le, hbyte, decide_eq_true_eq]
        exact ⟨hlow, hhigh⟩
      have hvalue : 10 * n + ((charByte c).toNat - 48) =
          10 * n + (c.toNat - '0'.toNat) := by
        rw [hbyte]
        rfl
      rw [Nat.ofDigitChars_cons] at hlimit ⊢
      have hfits := Nat.le_trans (le_ofDigitChars rest _) hlimit
      rw [List.map_cons, parseDigits, if_pos hisDigit, hvalue, if_pos hfits]
      exact ih _ (fun d hd => hdigits d (List.mem_cons_of_mem c hd)) hlimit

/-- A number that was formatted is read back. -/
theorem atoi_formatNat (w : Width) {n : Nat} (hn : (n : Int) < w.half) :
    atoi w (formatNat n) = ((n : Int), none) := by
  have hdigits : ∀ c ∈ Nat.toDigits 10 n, c.isDigit = true := fun c hc =>
    Nat.isDigit_of_mem_toDigits (by decide) (by decide) hc
  have hvalue : Nat.ofDigitChars 10 (Nat.toDigits 10 n) 0 = n :=
    Nat.ofDigitChars_ten_toDigits
  have hne : formatNat n ≠ [] := by
    simp [formatNat, Nat.toDigits_ne_nil]
  have hparse : parseUint w (formatNat n) = .ok n := by
    rw [parseUint, if_neg hne, formatNat,
      parseDigits_digits _ 0 hdigits (by rw [hvalue]; omega), hvalue]
  have hsign : splitSign (formatNat n) = (false, formatNat n) := by
    cases hformat : formatNat n with
    | nil => exact absurd hformat hne
    | cons byte rest =>
        have hbyte : isDigit byte = true :=
          isDigit_of_mem_formatNat (n := n) (by rw [hformat]; exact List.mem_cons_self)
        have hplus : byte ≠ plus := by
          rintro rfl
          revert hbyte
          decide
        have hdash : byte ≠ dash := by
          rintro rfl
          revert hbyte
          decide
        rw [splitSign, if_neg hplus, if_neg hdash]
  rw [atoi, parseInt, hsign]
  simp only [hparse, Bool.false_eq_true, if_false]
  rw [if_pos (by omega)]

example : formatInt (-1234) = ascii "-1234" := by decide

example : trimSpace (ascii "\t 12 3 \n") = ascii "12 3" := by decide

example : parseInt .bits64 (ascii "-9223372036854775808") =
    (-9223372036854775808, none) := by decide

end GoStrconv
