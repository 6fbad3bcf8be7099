/-
The standard base64 encoding with padding, on byte strings.  Decoding skips line
breaks and does not look at the bits the padding stands for, as the usual
non-strict decoders do.
-/
import Mathlib.Data.List.Basic
import Mathlib.Tactic.IntervalCases

namespace Base64

abbrev Bytes := List UInt8

/-- The padding character. -/
def pad : UInt8 := 61

/-- The letter of a six-bit value. -/
def letter (value : Nat) : UInt8 :=
  if value < 26 then UInt8.ofNat (65 + value)
  else if value < 52 then UInt8.ofNat (71 + value)
  else if value < 62 then UInt8.ofNat (value - 4)
  else if value = 62 then 43
  else 47

/-- The value of a letter of the alphabet. -/
def value? (byte : UInt8) : Option Nat :=
  let code := byte.toNat
  if 65 ≤ code ∧ code ≤ 90 then some (code - 65)
  else if 97 ≤ code ∧ code ≤ 122 then some (code - 71)
  else if 48 ≤ code ∧ code ≤ 57 then some (code + 4)
  else if code = 43 then some 62
  else if code = 47 then some 63
  else none

def encode : Bytes → Bytes
  | [] => []
  | [a] => [letter (a.toNat / 4), letter (a.toNat % 4 * 16), pad, pad]
  | [a, b] =>
      [letter (a.toNat / 4), letter (a.toNat % 4 * 16 + b.toNat / 16),
        letter (b.toNat % 16 * 4), pad]
  | a :: b :: c :: rest =>
      letter (a.toNat / 4) :: letter (a.toNat % 4 * 16 + b.toNat / 16) ::
        letter (b.toNat % 16 * 4 + c.toNat / 64) :: letter (c.toNat % 64) ::
          encode rest

/-- Decode text without line breaks, four letters at a time; padding may only
end the last quantum. -/
def decodeQuanta : Bytes → Option Bytes
  | [] => some []
  | a :: b :: c :: d :: rest =>
      match value? a, value? b with
      | some x, some y =>
          if c = pad then
            if d = pad ∧ rest = [] then some [UInt8.ofNat (x * 4 + y / 16)]
            else none
          else
            match value? c with
            | none => none
            | some z =>
                if d = pad then
                  if rest = [] then
                    some [UInt8.ofNat (x * 4 + y / 16),
                      UInt8.ofNat (y % 16 * 16 + z / 4)]
                  else none
                else
                  match value? d with
                  | none => none
                  | some w =>
                      (decodeQuanta rest).map fun tail =>
                        UInt8.ofNat (x * 4 + y / 16) ::
                          UInt8.ofNat (y % 16 * 16 + z / 4) ::
                            UInt8.ofNat (z % 4 * 64 + w) :: tail
      | _, _ => none
  | _ => none

def isLineBreak (byte : UInt8) : Bool := byte == 10 || byte == 13

def decode (text : Bytes) : Option Bytes :=
  decodeQuanta (text.filter fun byte => !isLineBreak byte)

/-- What a letter of the alphabet is, for every six-bit value. -/
theorem letter_spec {value : Nat} (hvalue : value < 64) :
    value? (letter value) = some value ∧ letter value ≠ pad ∧
      isLineBreak (letter value) = false ∧ letter value ≠ 46 := by
  interval_cases value <;> decide

@[simp] theorem value?_letter {value : Nat} (hvalue : value < 64) :
    value? (letter value) = some value :=
  (letter_spec hvalue).1

theorem letter_ne_pad {value : Nat} (hvalue : value < 64) :
    letter value ≠ pad :=
  (letter_spec hvalue).2.1

theorem letter_not_lineBreak {value : Nat} (hvalue : value < 64) :
    isLineBreak (letter value) = false :=
  (letter_spec hvalue).2.2.1

/-- The full stop is not a letter. -/
theorem letter_ne_dot {value : Nat} (hvalue : value < 64) :
    letter value ≠ 46 :=
  (letter_spec hvalue).2.2.2

/-- Every byte of an encoding is a letter or the padding. -/
theorem mem_encode {bytes : Bytes} {byte : UInt8}
    (hbyte : byte ∈ encode bytes) :
    byte = pad ∨ ∃ value < 64, byte = letter value := by
  induction bytes using encode.induct with
  | case1 => simp [encode] at hbyte
  | case2 a =>
      have ha := a.toNat_lt
      simp only [encode, List.mem_cons, List.not_mem_nil, or_false] at hbyte
      rcases hbyte with h | h | h | h
      · exact Or.inr ⟨_, by omega, h⟩
      · exact Or.inr ⟨_, by omega, h⟩
      · exact Or.inl h
      · exact Or.inl h
  | case3 a b =>
      have ha := a.toNat_lt
      have hb := b.toNat_lt
      simp only [encode, List.mem_cons, List.not_mem_nil, or_false] at hbyte
      rcases hbyte with h | h | h | h
      · exact Or.inr ⟨_, by omega, h⟩
      · exact Or.inr ⟨_, by omega, h⟩
      · exact Or.inr ⟨_, by omega, h⟩
      · exact Or.inl h
  | case4 a b c rest ih =>
      have ha := a.toNat_lt
      have hb := b.toNat_lt
      have hc := c.toNat_lt
      simp only [encode, List.mem_cons] at hbyte
      rcases hbyte with h | h | h | h | h
      · exact Or.inr ⟨_, by omega, h⟩
      · exact Or.inr ⟨_, by omega, h⟩
      · exact Or.inr ⟨_, by omega, h⟩
      · exact Or.inr ⟨_, by omega, h⟩
      · exact ih h

theorem dot_not_mem_encode (bytes : Bytes) : (46 : UInt8) ∉ encode bytes := by
  intro hdot
  rcases mem_encode hdot with h | ⟨value, hvalue, h⟩
  · simp [pad] at h
  · exact letter_ne_dot hvalue h.symm

theorem filter_encode (bytes : Bytes) :
    (encode bytes).filter (fun byte => !isLineBreak byte) = encode bytes := by
  rw [List.filter_eq_self]
  intro byte hbyte
  rcases mem_encode hbyte with h | ⟨value, hvalue, h⟩
  · rw [h]
    decide
  · rw [h, letter_not_lineBreak hvalue]
    rfl

/-- The three bytes of a quantum come back from its four values. -/
theorem quantum_bytes (a b c : UInt8) :
    UInt8.ofNat (a.toNat / 4 * 4 + (a.toNat % 4 * 16 + b.toNat / 16) / 16) = a ∧
      UInt8.ofNat ((a.toNat % 4 * 16 + b.toNat / 16) % 16 * 16 +
        (b.toNat % 16 * 4 + c.toNat / 64) / 4) = b ∧
      UInt8.ofNat ((b.toNat % 16 * 4 + c.toNat / 64) % 4 * 64 +
        c.toNat % 64) = c := by
  have ha := a.toNat_lt
  have hb := b.toNat_lt
  have hc := c.toNat_lt
  refine ⟨?_, ?_, ?_⟩
  · rw [show a.toNat / 4 * 4 + (a.toNat % 4 * 16 + b.toNat / 16) / 16 =
      a.toNat by omega, UInt8.ofNat_toNat]
  · rw [show (a.toNat % 4 * 16 + b.toNat / 16) % 16 * 16 +
      (b.toNat % 16 * 4 + c.toNat / 64) / 4 = b.toNat by omega,
      UInt8.ofNat_toNat]
  · rw [show (b.toNat % 16 * 4 + c.toNat / 64) % 4 * 64 + c.toNat % 64 =
      c.toNat by omega, UInt8.ofNat_toNat]

theorem decodeQuanta_encode (bytes : Bytes) :
    decodeQuanta (encode bytes) = some bytes := by
  induction bytes using encode.induct with
  | case1 => rfl
  | case2 a =>
      have ha := a.toNat_lt
      obtain ⟨hfirst, _, _⟩ := quantum_bytes a 0 0
      have hx : a.toNat / 4 < 64 := by omega
      have hy : a.toNat % 4 * 16 < 64 := by omega
      simp only [encode, decodeQuanta, value?_letter hx, value?_letter hy,
        and_self, if_true]
      simpa using hfirst
  | case3 a b =>
      have ha := a.toNat_lt
      have hb := b.toNat_lt
      obtain ⟨hfirst, hsecond, _⟩ := quantum_bytes a b 0
      have hx : a.toNat / 4 < 64 := by omega
      have hy : a.toNat % 4 * 16 + b.toNat / 16 < 64 := by omega
      have hz : b.toNat % 16 * 4 < 64 := by omega
      simp only [encode, decodeQuanta, value?_letter hx, value?_letter hy,
        value?_letter hz, letter_ne_pad hz, if_true, if_false]
      simp only [UInt8.toNat_zero, Nat.zero_div, Nat.add_zero] at hsecond
      rw [hfirst, hsecond]
  | case4 a b c rest ih =>
      have ha := a.toNat_lt
      have hb := b.toNat_lt
      have hc := c.toNat_lt
      obtain ⟨hfirst, hsecond, hthird⟩ := quantum_bytes a b c
      have hx : a.toNat / 4 < 64 := by omega
      have hy : a.toNat % 4 * 16 + b.toNat / 16 < 64 := by omega
      have hz : b.toNat % 16 * 4 + c.toNat / 64 < 64 := by omega
      have hw : c.toNat % 64 < 64 := by omega
      simp only [encode, decodeQuanta, value?_letter hx, value?_letter hy,
        value?_letter hz, value?_letter hw, letter_ne_pad hz, letter_ne_pad hw,
        if_false, ih, Option.map_some]
      rw [hfirst, hsecond, hthird]

/-- Decoding undoes encoding. -/
theorem decode_encode (bytes : Bytes) : decode (encode bytes) = some bytes := by
  rw [decode, filter_encode, decodeQuanta_encode]

theorem encode_injective : Function.Injective encode := by
  intro left right heq
  have hdecode := congrArg decode heq
  simpa [decode_encode] using hdecode

example : encode [77, 97, 110, 77] = [84, 87, 70, 117, 84, 81, 61, 61] := by
  decide

end Base64
