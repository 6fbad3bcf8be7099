/-
The header of an HTTP message as Go's `net/http` keeps it: a map from the names
of fields to their values, whose operations bring a name into its canonical form.
-/
import Frp.Lib.GoStrings
import Mathlib.Data.List.AList

namespace GoHeader

open GoStrings

def hyphen : UInt8 := 45

/-- Upper case of a seven-bit letter, every other byte as it is. -/
def upperByte (byte : UInt8) : UInt8 :=
  if 97 ≤ byte ∧ byte ≤ 122 then byte - 32 else byte

/-- A byte that may stand in the name of a field: a letter, a digit or one of
fifteen marks. -/
def isTokenByte (byte : UInt8) : Bool :=
  decide (97 ≤ byte ∧ byte ≤ 122) || decide (65 ≤ byte ∧ byte ≤ 90) ||
    decide (48 ≤ byte ∧ byte ≤ 57) ||
    [33, 35, 36, 37, 38, 39, 42, 43, 45, 46, 94, 95, 96, 124, 126].contains byte

/-- Upper case at the start and behind a hyphen, lower case elsewhere. -/
def canonicalBytes : Bool → Bytes → Bytes
  | _, [] => []
  | upper, byte :: rest =>
      let byte := if upper then upperByte byte else lowerByte byte
      byte :: canonicalBytes (byte == hyphen) rest

/-- `CanonicalMIMEHeaderKey`; what is no field name stays as it is. -/
def canonicalMIMEHeaderKey (key : Bytes) : Bytes :=
  if key.all isTokenByte then canonicalBytes true key else key

def isASCIISpace (byte : UInt8) : Bool := [32, 9, 10, 13].contains byte

/-- `textproto.TrimString`. -/
def trimString (text : Bytes) : Bytes :=
  ((text.dropWhile isASCIISpace).reverse.dropWhile isASCIISpace).reverse

/-- The values of the fields by canonical name; `none` is Go's nil slice. -/
structure Header where
  fields : AList fun _ : Bytes => Option (List Bytes)
  canonical : ∀ key ∈ fields, canonicalMIMEHeaderKey key = key

theorem isTokenByte_upperByte {byte : UInt8} (htoken : isTokenByte byte = true) :
    isTokenByte (upperByte byte) = true := by
  unfold upperByte
  split
  · have hupper : 65 ≤ byte - 32 ∧ byte - 32 ≤ 90 := by grind
    simp [isTokenByte, hupper]
  · exact htoken

theorem isTokenByte_lowerByte {byte : UInt8} (htoken : isTokenByte byte = true) :
    isTokenByte (lowerByte byte) = true := by
  unfold lowerByte
  split
  · have hlower : 97 ≤ byte + 32 ∧ byte + 32 ≤ 122 := by grind
    simp [isTokenByte, hlower]
  · exact htoken

theorem upperByte_upperByte (byte : UInt8) :
    upperByte (upperByte byte) = upperByte byte := by
  unfold upperByte
  grind

theorem lowerByte_lowerByte (byte : UInt8) :
    lowerByte (lowerByte byte) = lowerByte byte := by
  unfold lowerByte
  grind

theorem all_isTokenByte_canonicalBytes (upper : Bool) {key : Bytes}
    (htoken : key.all isTokenByte = true) :
    (canonicalBytes upper key).all isTokenByte = true := by
  induction key generalizing upper with
  | nil => rfl
  | cons byte rest ih =>
      rw [List.all_cons, Bool.and_eq_true] at htoken
      rw [canonicalBytes, List.all_cons, Bool.and_eq_true]
      refine ⟨?_, ih _ htoken.2⟩
      cases upper with
      | false => exact isTokenByte_lowerByte htoken.1
      | true => exact isTokenByte_upperByte htoken.1

theorem canonicalBytes_canonicalBytes (upper : Bool) (key : Bytes) :
    canonicalBytes upper (canonicalBytes upper key) =
      canonicalBytes upper key := by
  induction key generalizing upper with
  | nil => rfl
  | cons byte rest ih =>
      cases upper with
      | false => simp [canonicalBytes, lowerByte_lowerByte, ih]
      | true => simp [canonicalBytes, upperByte_upperByte, ih]

@[simp] theorem canonicalMIMEHeaderKey_idem (key : Bytes) :
    canonicalMIMEHeaderKey (canonicalMIMEHeaderKey key) =
      canonicalMIMEHeaderKey key := by
  by_cases htoken : key.all isTokenByte = true
  · simp only [canonicalMIMEHeaderKey, if_pos htoken,
      all_isTokenByte_canonicalBytes true htoken, if_true,
      canonicalBytes_canonicalBytes]
  · simp only [canonicalMIMEHeaderKey, if_neg htoken]

example : canonicalMIMEHeaderKey (ascii "x-forwarded-FOR") =
    ascii "X-Forwarded-For" := by decide

namespace Header

def empty : Header where
  fields := ∅
  canonical key hkey := absurd hkey (AList.notMem_empty key)

/-- `h[key]` of the map, with its second result. -/
def lookup (h : Header) (key : Bytes) : Option (Option (List Bytes)) :=
  h.fields.lookup key

/-- `h[key]` of the map as a slice to range over. -/
def values (h : Header) (key : Bytes) : List Bytes :=
  ((h.lookup key).getD none).getD []

def get (h : Header) (key : Bytes) : Bytes :=
  (h.values (canonicalMIMEHeaderKey key)).headD []

def set (h : Header) (key value : Bytes) : Header where
  fields := h.fields.insert (canonicalMIMEHeaderKey key) (some [value])
  canonical other hother := by
    rcases (AList.mem_insert _).mp hother with rfl | hold
    · exact canonicalMIMEHeaderKey_idem key
    · exact h.canonical other hold

def add (h : Header) (key value : Bytes) : Header where
  fields := h.fields.insert (canonicalMIMEHeaderKey key)
    (some (h.values (canonicalMIMEHeaderKey key) ++ [value]))
  canonical other hother := by
    rcases (AList.mem_insert _).mp hother with rfl | hold
    · exact canonicalMIMEHeaderKey_idem key
    · exact h.canonical other hold

def del (h : Header) (key : Bytes) : Header where
  fields := h.fields.erase (canonicalMIMEHeaderKey key)
  canonical other hother := h.canonical other (AList.mem_erase.mp hother).2

@[simp] theorem lookup_empty (key : Bytes) : empty.lookup key = none := rfl

theorem lookup_set (h : Header) (key value other : Bytes) :
    (h.set key value).lookup other =
      if other = canonicalMIMEHeaderKey key then some (some [value])
      else h.lookup other := by
  unfold lookup set
  split
  · next heq => rw [heq, AList.lookup_insert]
  · next hne => rw [AList.lookup_insert_ne hne]

theorem lookup_del (h : Header) (key other : Bytes) :
    (h.del key).lookup other =
      if other = canonicalMIMEHeaderKey key then none else h.lookup other := by
  unfold lookup del
  split
  · next heq => rw [heq, AList.lookup_erase]
  · next hne => rw [AList.lookup_erase_ne hne]

theorem values_add (h : Header) (key value other : Bytes) :
    (h.add key value).values other =
      if other = canonicalMIMEHeaderKey key then h.values other ++ [value]
      else h.values other := by
  unfold values lookup add
  split
  · next heq => rw [heq, AList.lookup_insert]; rfl
  · next hne => rw [AList.lookup_insert_ne hne]

/-- What fields are removed depends on their names only. -/
theorem lookup_foldl_del (keys : List Bytes) (h : Header) (other : Bytes) :
    (keys.foldl del h).lookup other =
      if other ∈ keys.map canonicalMIMEHeaderKey then none
      else h.lookup other := by
  induction keys generalizing h with
  | nil => simp
  | cons key rest ih =>
      rw [List.foldl_cons, ih, lookup_del]
      by_cases heq : other = canonicalMIMEHeaderKey key
      · simp [heq]
      · simp [heq]

theorem lookup_foldl_set_of_notMem {pairs : List (Bytes × Bytes)}
    {other : Bytes}
    (hother : other ∉ pairs.map fun kv => canonicalMIMEHeaderKey kv.1)
    (h : Header) :
    (pairs.foldl (fun h kv => h.set kv.1 kv.2) h).lookup other =
      h.lookup other := by
  induction pairs generalizing h with
  | nil => rfl
  | cons pair rest ih =>
      rw [List.map_cons, List.mem_cons, not_or] at hother
      rw [List.foldl_cons, ih hother.2, lookup_set, if_neg hother.1]

end Header

end GoHeader
