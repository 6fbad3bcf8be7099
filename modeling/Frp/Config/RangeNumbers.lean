/-
`ParseRangeNumbers` of `pkg/util/util/util.go`, which reads `allow_ports`.  Its
loop over the numbers of a range is given as many turns as a fuel allows, so that
a loop without an end is one that no fuel is enough for.
-/
import Mathlib.Data.Int.Range
import Frp.Lib.GoStrconv

namespace Frp

open GoInt GoStrings GoStrconv

namespace RangeNumbers

def comma : UInt8 := 44

inductive RangeError where
  | invalid
  | notNumber (err : NumError)
deriving DecidableEq, Repr

def RangeError.text (quote : Bytes → String) : RangeError → String
  | .invalid => "range number is invalid"
  | .notNumber err => "range number is invalid, " ++ err.text quote

/-- The numbers so far, and the error that ended the reading. -/
abbrev Result := List Int × Option RangeError

/-- `for i := min; i <= max; i++`, where `i` is an int64. -/
def expand (max : Int) : Nat → List Int → Int → Option (List Int)
  | 0, _, _ => none
  | fuel + 1, numbers, i =>
      if i ≤ max then
        expand max fuel (numbers ++ [i]) (Width.bits64.wrap (i + 1))
      else some numbers

/-- `strconv.ParseInt(strings.TrimSpace(token), 10, 64)`. -/
def parseToken (token : Bytes) : Except RangeError Int :=
  match parseInt .bits64 (trimSpace token) with
  | (n, none) => .ok n
  | (_, some kind) =>
      .error (.notNumber ⟨"ParseInt", trimSpace token, kind⟩)

/-- The body of the loop over the items. -/
def parseItem (fuel : Nat) (numbers : List Int) (item : Bytes) :
    Option Result :=
  match item.splitOn dash with
  | [token] =>
      match parseToken token with
      | .error err => some (numbers, some err)
      | .ok singleNum => some (numbers ++ [singleNum], none)
  | [low, high] =>
      match parseToken low with
      | .error err => some (numbers, some err)
      | .ok min =>
          match parseToken high with
          | .error err => some (numbers, some err)
          | .ok max =>
              if max < min then some (numbers, some .invalid)
              else (expand max fuel numbers min).map fun numbers =>
                (numbers, none)
  | _ => some (numbers, some .invalid)

def parseItems (fuel : Nat) : List Int → List Bytes → Option Result
  | numbers, [] => some (numbers, none)
  | numbers, item :: rest =>
      match parseItem fuel numbers item with
      | none => none
      | some (numbers, some err) => some (numbers, some err)
      | some (numbers, none) => parseItems fuel numbers rest

def parseRangeNumbers (fuel : Nat) (rangeStr : Bytes) : Option Result :=
  parseItems fuel [] ((trimSpace rangeStr).splitOn comma)

/-- One number: no dash, and a number of 64 bits between white space. -/
structure Token (text : Bytes) (n : Int) : Prop where
  noDash : dash ∉ text
  value : IsInt .bits64 (trimSpace text) n

/-- An item of the list and its numbers: one, or all from one to another. -/
inductive Item : Bytes → List Int → Prop
  | single {text : Bytes} {n : Int} (htoken : Token text n) : Item text [n]
  | pair {low high : Bytes} {min max : Int} (hlow : Token low min)
      (hhigh : Token high max) (hle : min ≤ max) :
      Item (low ++ dash :: high) (Int.range min (max + 1))

/-- A comma-separated list of items and the numbers of all of them in order. -/
structure RangeList (text : Bytes) (numbers : List Int) : Prop where
  items : ∃ items parts, text = [comma].intercalate items ∧ items ≠ [] ∧
    (∀ item ∈ items, comma ∉ item) ∧ List.Forall₂ Item items parts ∧
    numbers = parts.flatten

/-- The reading ends; it succeeds on a list of items and on nothing else, and
then with the numbers of the list. -/
def Exact (rangeStr : Bytes) : Prop :=
  ∃ fuel numbers err, parseRangeNumbers fuel rangeStr = some (numbers, err) ∧
    (err = none ↔ ∃ all, RangeList (trimSpace rangeStr) all) ∧
    (err = none → RangeList (trimSpace rangeStr) numbers)

/-- A range up to the largest int64. -/
def ToTheTop (item : Bytes) : Prop :=
  ∃ low high min, item = low ++ dash :: high ∧ Token low min ∧
    Token high Width.bits64.maxInt

/-- Behind valid items only, one is a range up to the largest int64. -/
def Endless (items : List Bytes) : Prop :=
  ∃ before item after, items = before ++ item :: after ∧
    (∀ good ∈ before, ∃ part, Item good part) ∧ ToTheTop item

theorem parseToken_eq_ok_iff {token : Bytes} {n : Int} :
    parseToken token = .ok n ↔ IsInt .bits64 (trimSpace token) n := by
  unfold parseToken IsInt
  split
  · rename_i heq
    simp [heq]
  · rename_i heq
    simp [heq]

theorem range_cons {low high : Int} (hlt : low < high) :
    Int.range low high = low :: Int.range (low + 1) high := by
  have hlength : (high - low).toNat = (high - (low + 1)).toNat + 1 := by omega
  rw [Int.range, Int.range, hlength, List.range_succ_eq_map, List.map_cons,
    List.map_map]
  congr 1
  · simp
  · apply List.map_congr_left
    intro n _
    simp only [Function.comp_apply, Nat.cast_succ]
    omega

theorem range_self (low : Int) : Int.range low low = [] := by
  simp [Int.range]

/-- Below the largest int64 the loop counts up to `max` and ends. -/
theorem expand_eq {max : Int} (htop : max < Width.bits64.maxInt) (fuel : Nat)
    (numbers : List Int) {i : Int} (hholds : Width.bits64.Holds i)
    (hi : i ≤ max + 1) :
    expand max fuel numbers i =
      if max + 1 - i < fuel then some (numbers ++ Int.range i (max + 1))
      else none := by
  induction fuel generalizing numbers i with
  | zero => rw [expand, if_neg (by omega)]
  | succ fuel ih =>
      rw [expand]
      by_cases hle : i ≤ max
      · have hnext : Width.bits64.Holds (i + 1) := by
          unfold Width.maxInt at htop
          obtain ⟨hlow, _⟩ := hholds
          constructor <;> omega
        rw [if_pos hle, Width.wrap_of_holds hnext, ih _ hnext (by omega),
          range_cons (by omega : i < max + 1), List.append_assoc,
          List.singleton_append]
        by_cases hfuel : max + 1 - i < (fuel + 1 : Nat)
        · rw [if_pos hfuel, if_pos (by omega)]
        · rw [if_neg hfuel, if_neg (by omega)]
      · obtain rfl : i = max + 1 := by omega
        rw [if_neg hle, if_pos (by omega), range_self, List.append_nil]

/-- Every int64 is at most the largest one, so the loop up to it has no end. -/
theorem expand_top (fuel : Nat) (numbers : List Int) {i : Int}
    (hholds : Width.bits64.Holds i) :
    expand Width.bits64.maxInt fuel numbers i = none := by
  induction fuel generalizing numbers i with
  | zero => rfl
  | succ fuel ih =>
      have hle : i ≤ Width.bits64.maxInt := by
        unfold Width.maxInt
        have hhigh := hholds.2
        omega
      rw [expand, if_pos hle]
      exact ih _ (Width.holds_wrap (i + 1))

section Items

variable {item low high : Bytes} {n min max : Int} {part : List Int}

theorem parseItem_single (htoken : Token item n) (fuel : Nat)
    (numbers : List Int) :
    parseItem fuel numbers item = some (numbers ++ [n], none) := by
  have hsplit : item.splitOn dash = [item] :=
    splitOn_eq_singleton_iff.mpr ⟨rfl, htoken.noDash⟩
  simp only [parseItem, hsplit, parseToken_eq_ok_iff.mpr htoken.value]

theorem parseItem_pair (hlow : Token low min) (hhigh : Token high max)
    (hle : min ≤ max) (fuel : Nat) (numbers : List Int) :
    parseItem fuel numbers (low ++ dash :: high) =
      (expand max fuel numbers min).map fun numbers => (numbers, none) := by
  have hsplit : (low ++ dash :: high).splitOn dash = [low, high] :=
    splitOn_eq_pair_iff.mpr ⟨rfl, hlow.noDash, hhigh.noDash⟩
  simp only [parseItem, hsplit, parseToken_eq_ok_iff.mpr hlow.value,
    parseToken_eq_ok_iff.mpr hhigh.value, if_neg (not_lt.mpr hle)]

theorem Token.le_maxInt (htoken : Token item n) :
    n ≤ Width.bits64.maxInt := by
  have hhigh := htoken.value.holds.2
  unfold Width.maxInt
  omega

/-- A range up to the top is never read to its end. -/
theorem parseItem_toTheTop (htop : ToTheTop item) (fuel : Nat)
    (numbers : List Int) : parseItem fuel numbers item = none := by
  obtain ⟨low, high, min, rfl, hlow, hhigh⟩ := htop
  rw [parseItem_pair hlow hhigh hlow.le_maxInt,
    expand_top fuel numbers hlow.value.holds]
  rfl

/-- Any other item is, and its numbers are added. -/
theorem parseItem_item (hitem : Item item part) (hends : ¬ ToTheTop item) :
    ∃ enough, ∀ fuel ≥ enough, ∀ numbers,
      parseItem fuel numbers item = some (numbers ++ part, none) := by
  cases hitem with
  | single htoken =>
      exact ⟨0, fun fuel _ numbers => parseItem_single htoken fuel numbers⟩
  | @pair low high min max hlow hhigh hle =>
      have hne : max ≠ Width.bits64.maxInt := fun heq =>
        hends ⟨low, high, min, rfl, hlow, heq ▸ hhigh⟩
      have hbelow : max < Width.bits64.maxInt := by
        have hmax := hhigh.le_maxInt
        omega
      refine ⟨(max + 1 - min).toNat + 1, ?_⟩
      intro fuel hfuel numbers
      rw [parseItem_pair hlow hhigh hle,
        expand_eq hbelow fuel numbers hlow.value.holds (by omega),
        if_pos (by omega)]
      rfl

theorem err_of_parseItem (hitem : Item item part) {fuel : Nat}
    {numbers : List Int} {result : Result}
    (hparse : parseItem fuel numbers item = some result) :
    result.2 = none := by
  cases hitem with
  | single htoken =>
      rw [parseItem_single htoken, Option.some.injEq] at hparse
      rw [← hparse]
  | pair hlow hhigh hle =>
      rw [parseItem_pair hlow hhigh hle, Option.map_eq_some_iff] at hparse
      obtain ⟨read, _, rfl⟩ := hparse
      rfl

/-- What is no item is refused. -/
theorem parseItem_of_not_item (hbad : ∀ part, ¬ Item item part) :
    ∃ err, ∀ fuel numbers,
      parseItem fuel numbers item = some (numbers, some err) := by
  cases hsplit : item.splitOn dash with
  | nil => exact absurd hsplit (List.splitOn_ne_nil dash item)
  | cons first rest =>
      cases rest with
      | nil =>
          obtain ⟨rfl, hdash⟩ := splitOn_eq_singleton_iff.mp hsplit
          cases htoken : parseToken item with
          | error err =>
              exact ⟨err, fun fuel numbers => by
                simp only [parseItem, hsplit, htoken]⟩
          | ok n =>
              exact absurd
                (Item.single ⟨hdash, parseToken_eq_ok_iff.mp htoken⟩)
                (hbad [n])
      | cons second rest =>
          cases rest with
          | cons third rest =>
              exact ⟨.invalid, fun fuel numbers => by
                simp only [parseItem, hsplit]⟩
          | nil =>
              obtain ⟨rfl, hfirst, hsecond⟩ := splitOn_eq_pair_iff.mp hsplit
              cases hlow : parseToken first with
              | error err =>
                  exact ⟨err, fun fuel numbers => by
                    simp only [parseItem, hsplit, hlow]⟩
              | ok min =>
                  cases hhigh : parseToken second with
                  | error err =>
                      exact ⟨err, fun fuel numbers => by
                        simp only [parseItem, hsplit, hlow, hhigh]⟩
                  | ok max =>
                      have hlt : max < min := by
                        by_contra hle
                        exact hbad _ (Item.pair
                          ⟨hfirst, parseToken_eq_ok_iff.mp hlow⟩
                          ⟨hsecond, parseToken_eq_ok_iff.mp hhigh⟩
                          (not_lt.mp hle))
                      exact ⟨.invalid, fun fuel numbers => by
                        simp only [parseItem, hsplit, hlow, hhigh,
                          if_pos hlt]⟩

end Items

theorem Endless.cons {item : Bytes} {items : List Bytes}
    (hitem : ∃ part, Item item part) (hendless : Endless items) :
    Endless (item :: items) := by
  obtain ⟨before, top, after, rfl, hbefore, htop⟩ := hendless
  refine ⟨item :: before, top, after, rfl, ?_, htop⟩
  intro good hgood
  rcases List.mem_cons.mp hgood with rfl | hgood
  · exact hitem
  · exact hbefore good hgood

/-- Behind a range up to the top nothing is reached, and in front of it no error
ends the reading. -/
theorem parseItems_endless {items : List Bytes} (hendless : Endless items)
    (fuel : Nat) (numbers : List Int) :
    parseItems fuel numbers items = none := by
  obtain ⟨before, top, after, rfl, hbefore, htop⟩ := hendless
  induction before generalizing numbers with
  | nil =>
      rw [List.nil_append, parseItems, parseItem_toTheTop htop]
  | cons item before ih =>
      have hrest : ∀ numbers,
          parseItems fuel numbers (before ++ top :: after) = none := by
        intro numbers
        apply ih
        intro good hgood
        exact hbefore good (List.mem_cons_of_mem item hgood)
      obtain ⟨part, hitem⟩ := hbefore item List.mem_cons_self
      rw [List.cons_append, parseItems]
      cases hparse : parseItem fuel numbers item with
      | none => rfl
      | some result =>
          obtain ⟨read, err⟩ := result
          cases err with
          | none => exact hrest read
          | some err => cases err_of_parseItem hitem hparse

/-- Otherwise the reading ends, without an error exactly on items alone. -/
theorem parseItems_ends {items : List Bytes} (hends : ¬ Endless items) :
    ∃ enough read err, (∀ fuel ≥ enough, ∀ numbers,
        parseItems fuel numbers items = some (numbers ++ read, err)) ∧
      (err = none ↔ ∃ parts, List.Forall₂ Item items parts) ∧
      (err = none → ∃ parts, List.Forall₂ Item items parts ∧
        read = parts.flatten) := by
  induction items with
  | nil =>
      refine ⟨0, [], none, ?_, ?_, ?_⟩
      · intro fuel _ numbers
        rw [parseItems, List.append_nil]
      · exact iff_of_true rfl ⟨[], .nil⟩
      · exact fun _ => ⟨[], .nil, rfl⟩
  | cons item rest ih =>
      by_cases hitem : ∃ part, Item item part
      · obtain ⟨part, hpart⟩ := hitem
        have hfinite : ¬ ToTheTop item := fun htop =>
          hends ⟨[], item, rest, rfl, by simp, htop⟩
        obtain ⟨enough, hread⟩ := parseItem_item hpart hfinite
        obtain ⟨more, read, err, hrest, hnone, hparts⟩ :=
          ih fun hendless => hends (hendless.cons ⟨part, hpart⟩)
        refine ⟨Nat.max enough more, part ++ read, err, ?_, ?_, ?_⟩
        · intro fuel hfuel numbers
          rw [parseItems, hread fuel (le_trans (Nat.le_max_left _ _) hfuel)]
          dsimp only
          rw [hrest fuel (le_trans (Nat.le_max_right _ _) hfuel),
            List.append_assoc]
        · rw [hnone]
          constructor
          · rintro ⟨parts, hall⟩
            exact ⟨part :: parts, .cons hpart hall⟩
          · rintro ⟨parts, hall⟩
            cases hall with
            | cons _ hall => exact ⟨_, hall⟩
        · intro herr
          obtain ⟨parts, hall, rfl⟩ := hparts herr
          exact ⟨part :: parts, .cons hpart hall, rfl⟩
      · obtain ⟨err, hbad⟩ := parseItem_of_not_item fun part hpart =>
          hitem ⟨part, hpart⟩
        refine ⟨0, [], some err, ?_, ?_, by simp⟩
        · intro fuel _ numbers
          rw [parseItems, hbad, List.append_nil]
        · refine iff_of_false (by simp) ?_
          rintro ⟨parts, hall⟩
          cases hall with
          | cons hhead _ => exact hitem ⟨_, hhead⟩

theorem rangeList_iff {text : Bytes} {numbers : List Int} :
    RangeList text numbers ↔
      ∃ parts, List.Forall₂ Item (text.splitOn comma) parts ∧
        numbers = parts.flatten := by
  constructor
  · rintro ⟨items, parts, rfl, hne, hcomma, hall, hnumbers⟩
    rw [List.splitOn_intercalate comma hcomma hne]
    exact ⟨parts, hall, hnumbers⟩
  · rintro ⟨parts, hall, hnumbers⟩
    exact ⟨text.splitOn comma, parts, (List.intercalate_splitOn comma).symm,
      List.splitOn_ne_nil comma text, fun _ => not_mem_of_mem_splitOn, hall,
      hnumbers⟩

theorem not_exact_of_endless {rangeStr : Bytes}
    (hendless : Endless ((trimSpace rangeStr).splitOn comma)) :
    ¬ Exact rangeStr := by
  rintro ⟨fuel, numbers, err, hparse, _⟩
  rw [parseRangeNumbers, parseItems_endless hendless] at hparse
  cases hparse

/-- The parser is total and exact on a text exactly when the text does not have,
behind valid items only, a range up to the largest int64. -/
theorem exact_iff_not_endless (rangeStr : Bytes) :
    Exact rangeStr ↔ ¬ Endless ((trimSpace rangeStr).splitOn comma) := by
  constructor
  · intro hexact hendless
    exact not_exact_of_endless hendless hexact
  · intro hends
    obtain ⟨enough, read, err, hread, hnone, hparts⟩ := parseItems_ends hends
    refine ⟨enough, read, err, ?_, ?_, ?_⟩
    · rw [parseRangeNumbers, hread enough le_rfl, List.nil_append]
    · rw [hnone]
      constructor
      · rintro ⟨parts, hall⟩
        exact ⟨_, rangeList_iff.mpr ⟨parts, hall, rfl⟩⟩
      · rintro ⟨all, hlist⟩
        obtain ⟨parts, hall, _⟩ := rangeList_iff.mp hlist
        exact ⟨parts, hall⟩
    · intro herr
      obtain ⟨parts, hall, rfl⟩ := hparts herr
      exact rangeList_iff.mpr ⟨parts, hall, rfl⟩

/-- The reading of the largest int64 as a range has no end. -/
theorem not_exact_largest :
    ¬ Exact (ascii "9223372036854775807-9223372036854775807") := by
  apply not_exact_of_endless
  refine ⟨[], _, [], by decide, by simp, ascii "9223372036854775807",
    ascii "9223372036854775807", 9223372036854775807, rfl, ?_, ?_⟩
  · exact ⟨by decide, by decide⟩
  · exact ⟨by decide, by decide⟩

example : parseRangeNumbers 5 (ascii " 3-5,8, 10-12 ") =
    some ([3, 4, 5, 8, 10, 11, 12], none) := by decide

end RangeNumbers

end Frp
