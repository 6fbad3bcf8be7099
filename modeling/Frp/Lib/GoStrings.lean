/-
Byte strings and the string functions of the Go standard library that the
models call: searching, splitting at a byte, the host and port of an address,
and the credentials of a basic authorization header.
-/
import Frp.Lib.Base64
import Mathlib.Data.List.Infix

namespace GoStrings

abbrev Bytes := List UInt8

/-- A literal of seven-bit characters. -/
def ascii (text : String) : Bytes :=
  text.toList.map fun char => UInt8.ofNat char.toNat

def dot : UInt8 := 46

def colon : UInt8 := 58

def openBracket : UInt8 := 91

def closeBracket : UInt8 := 93

def indexByte (text : Bytes) (byte : UInt8) : Option Nat :=
  text.findIdx? (· == byte)

def lastIndexByte (text : Bytes) (byte : UInt8) : Option Nat :=
  (text.reverse.findIdx? (· == byte)).map fun back => text.length - 1 - back

def containsSub (text sub : Bytes) : Bool :=
  text.tails.any fun tail => sub.isPrefixOf tail

def hasPrefix (text pre : Bytes) : Bool := pre.isPrefixOf text

def hasSuffix (text suffix : Bytes) : Bool := suffix.isSuffixOf text

def splitDot (text : Bytes) : List Bytes := text.splitOn dot

def joinDot (labels : List Bytes) : Bytes := [dot].intercalate labels

/-- Lower case of a seven-bit letter, every other byte as it is. -/
def lowerByte (byte : UInt8) : UInt8 :=
  if 65 ≤ byte ∧ byte ≤ 90 then byte + 32 else byte

/-- `ToLower` on seven-bit text. -/
def asciiToLower (text : Bytes) : Bytes := text.map lowerByte

/-- Why `SplitHostPort` refuses an address. -/
inductive AddrError where
  | missingPort
  | tooManyColons
  | missingBracket
  | unexpectedOpen
  | unexpectedClose
deriving DecidableEq, Repr

def AddrError.text : AddrError → String
  | .missingPort => "missing port in address"
  | .tooManyColons => "too many colons in address"
  | .missingBracket => "missing ']' in address"
  | .unexpectedOpen => "unexpected '[' in address"
  | .unexpectedClose => "unexpected ']' in address"

/-- The last checks of `SplitHostPort`: no bracket past the given positions. -/
def splitHostPortRest (hostport host : Bytes) (lastColon j k : Nat) :
    Except AddrError (Bytes × Bytes) :=
  if openBracket ∈ hostport.drop j then .error .unexpectedOpen
  else if closeBracket ∈ hostport.drop k then .error .unexpectedClose
  else .ok (host, hostport.drop (lastColon + 1))

def splitHostPort (hostport : Bytes) : Except AddrError (Bytes × Bytes) :=
  match lastIndexByte hostport colon with
  | none => .error .missingPort
  | some i =>
      if hostport.head? = some openBracket then
        match indexByte hostport closeBracket with
        | none => .error .missingBracket
        | some close =>
            if close + 1 = hostport.length then .error .missingPort
            else if close + 1 = i then
              splitHostPortRest hostport ((hostport.take close).drop 1) i 1
                (close + 1)
            else if hostport[close + 1]? = some colon then
              .error .tooManyColons
            else .error .missingPort
      else if colon ∈ hostport.take i then .error .tooManyColons
      else splitHostPortRest hostport (hostport.take i) i 0 0

/-- `net.JoinHostPort`: a host with a colon is put into brackets. -/
def joinHostPort (host port : Bytes) : Bytes :=
  if colon ∈ host then openBracket :: host ++ closeBracket :: colon :: port
  else host ++ colon :: port

/-- A user name and password as a header carries them. -/
structure Credentials where
  user : Bytes
  passwd : Bytes
deriving DecidableEq, Repr

def Credentials.none : Credentials := ⟨[], []⟩

/-- `parseBasicAuth`: six bytes that fold to `Basic `, then the base64 form of
the user and the password with a colon between them.  Both are empty when the
header has another form. -/
def parseBasicAuth (auth : Bytes) : Credentials × Bool :=
  if auth.length < 6 ∨ asciiToLower (auth.take 6) ≠ ascii "basic " then
    (.none, false)
  else
    match Base64.decode (auth.drop 6) with
    | none => (.none, false)
    | some text =>
        match indexByte text colon with
        | none => (.none, false)
        | some s => (⟨text.take s, text.drop (s + 1)⟩, true)

/-- The last occurrence stands where nothing behind it has the byte. -/
theorem lastIndexByte_append {before after : Bytes} {byte : UInt8}
    (hafter : byte ∉ after) :
    lastIndexByte (before ++ byte :: after) byte = some before.length := by
  have hfind : (before ++ byte :: after).reverse.findIdx? (· == byte) =
      some after.length := by
    have hreverse : (before ++ byte :: after).reverse =
        after.reverse ++ byte :: before.reverse := by simp
    have hnone : after.reverse.findIdx? (· == byte) = none := by
      rw [List.findIdx?_eq_none_iff]
      intro other hother
      rw [beq_eq_false_iff_ne]
      rintro rfl
      exact hafter (List.mem_reverse.mp hother)
    rw [hreverse, List.findIdx?_append, hnone, List.findIdx?_cons]
    simp
  rw [lastIndexByte, hfind, Option.map_some, Option.some.injEq,
    List.length_append, List.length_cons]
  omega

theorem indexByte_append {before after : Bytes} {byte : UInt8}
    (hbefore : byte ∉ before) :
    indexByte (before ++ byte :: after) byte = some before.length := by
  have hnone : before.findIdx? (· == byte) = none := by
    rw [List.findIdx?_eq_none_iff]
    intro other hother
    rw [beq_eq_false_iff_ne]
    rintro rfl
    exact hbefore hother
  rw [indexByte, List.findIdx?_append, hnone, List.findIdx?_cons]
  simp

theorem notMem_append_cons {before after : Bytes} {byte sep : UInt8}
    (hbefore : byte ∉ before) (hsep : byte ≠ sep) (hafter : byte ∉ after) :
    byte ∉ before ++ sep :: after := by
  simp [hbefore, hsep, hafter]

/-- A host without brackets and a port are read back from the address that is made
of them, in brackets or not. -/
theorem splitHostPort_joinHostPort {host port : Bytes}
    (hopen : openBracket ∉ host) (hclose : closeBracket ∉ host)
    (hport : ∀ byte ∈ port, byte ≠ colon ∧ byte ≠ openBracket ∧
      byte ≠ closeBracket) :
    splitHostPort (joinHostPort host port) = .ok (host, port) := by
  have hcolonPort : colon ∉ port := fun hmem => (hport _ hmem).1 rfl
  have hopenPort : openBracket ∉ port := fun hmem => (hport _ hmem).2.1 rfl
  have hclosePort : closeBracket ∉ port := fun hmem => (hport _ hmem).2.2 rfl
  by_cases hcolon : colon ∈ host
  · have hjoin : joinHostPort host port =
        openBracket :: host ++ closeBracket :: colon :: port := by
      rw [joinHostPort, if_pos hcolon]
    have hlast : lastIndexByte (joinHostPort host port) colon =
        some (host.length + 2) := by
      have happend : lastIndexByte
          ((openBracket :: host ++ [closeBracket]) ++ colon :: port) colon =
            some (openBracket :: host ++ [closeBracket]).length :=
        lastIndexByte_append hcolonPort
      rw [hjoin]
      simpa using happend
    have hbracket : indexByte (joinHostPort host port) closeBracket =
        some (host.length + 1) := by
      have hbefore : closeBracket ∉ openBracket :: host :=
        List.not_mem_cons_of_ne_of_not_mem (by decide) hclose
      rw [hjoin]
      exact indexByte_append hbefore
    have hlength : (joinHostPort host port).length =
        host.length + 3 + port.length := by
      rw [hjoin]
      simp
      omega
    have hopenRest : openBracket ∉ (joinHostPort host port).drop 1 := by
      rw [hjoin]
      exact notMem_append_cons hopen (by decide)
        (List.not_mem_cons_of_ne_of_not_mem (by decide) hopenPort)
    have hcloseRest : closeBracket ∉
        (joinHostPort host port).drop (host.length + 2) := by
      have hdrop : (joinHostPort host port).drop (host.length + 2) =
          colon :: port := by
        rw [hjoin]
        simp
      rw [hdrop]
      exact List.not_mem_cons_of_ne_of_not_mem (by decide) hclosePort
    have hhost : ((joinHostPort host port).take (host.length + 1)).drop 1 =
        host := by
      rw [hjoin]
      simp
    have hrest : (joinHostPort host port).drop (host.length + 3) = port := by
      rw [hjoin]
      simp
    have hhead : (joinHostPort host port).head? = some openBracket := by
      rw [hjoin]
      rfl
    rw [splitHostPort, hlast]
    simp only [hhead, if_true, hbracket]
    rw [if_neg (by omega), splitHostPortRest, if_neg hopenRest,
      if_neg hcloseRest, hhost, hrest]
  · have hjoin : joinHostPort host port = host ++ colon :: port := by
      rw [joinHostPort, if_neg hcolon]
    have hhead : (host ++ colon :: port).head? ≠ some openBracket := by
      cases host with
      | nil => simp [colon, openBracket]
      | cons byte rest =>
          intro hsame
          apply hopen
          rw [Option.some.inj hsame]
          exact List.mem_cons_self
    have hopenAll : openBracket ∉ host ++ colon :: port :=
      notMem_append_cons hopen (by decide) hopenPort
    have hcloseAll : closeBracket ∉ host ++ colon :: port :=
      notMem_append_cons hclose (by decide) hclosePort
    rw [hjoin, splitHostPort, lastIndexByte_append hcolonPort]
    simp only [if_neg hhead, List.take_left, if_neg hcolon]
    rw [splitHostPortRest, List.drop_zero, if_neg hopenAll, if_neg hcloseAll]
    simp

theorem splitDot_append (left right : Bytes) :
    splitDot (left ++ dot :: right) = splitDot left ++ splitDot right :=
  List.splitOn_append_cons_self left right

theorem splitDot_label {label : Bytes} (hlabel : dot ∉ label) (rest : Bytes) :
    splitDot (label ++ dot :: rest) = label :: splitDot rest :=
  List.splitOn_append_cons_self_of_not_mem hlabel rest

theorem splitDot_ne_nil (text : Bytes) : splitDot text ≠ [] :=
  List.splitOn_ne_nil dot text

/-- A text with a dot has two labels. -/
theorem two_le_length_splitDot {text : Bytes} (hdot : dot ∈ text) :
    2 ≤ (splitDot text).length := by
  obtain ⟨left, right, rfl⟩ := List.append_of_mem hdot
  have hleft := List.length_pos_of_ne_nil (splitDot_ne_nil left)
  have hright := List.length_pos_of_ne_nil (splitDot_ne_nil right)
  rw [splitDot_append, List.length_append]
  omega

@[simp] theorem joinDot_splitDot (text : Bytes) :
    joinDot (splitDot text) = text :=
  List.intercalate_splitOn dot

theorem joinDot_cons {label : Bytes} {rest : List Bytes} (hrest : rest ≠ []) :
    joinDot (label :: rest) = label ++ dot :: joinDot rest := by
  rw [joinDot, List.intercalate_cons_of_ne_nil hrest, joinDot]
  simp

theorem joinDot_append {left right : List Bytes} (hleft : left ≠ [])
    (hright : right ≠ []) :
    joinDot (left ++ right) = joinDot left ++ dot :: joinDot right := by
  induction left with
  | nil => exact absurd rfl hleft
  | cons label rest ih =>
      rw [List.cons_append, joinDot_cons (by simp [hright])]
      cases rest with
      | nil => simp [joinDot]
      | cons second rest =>
          have hsecond : second :: rest ≠ [] := by simp
          rw [ih hsecond, @joinDot_cons label _ hsecond]
          simp

/-- What a split leaves has no separator. -/
theorem not_mem_of_mem_splitOn {sep : UInt8} {text piece : Bytes}
    (hpiece : piece ∈ text.splitOn sep) : sep ∉ piece := by
  induction text generalizing piece with
  | nil =>
      rw [List.splitOn_nil, List.mem_singleton] at hpiece
      simp [hpiece]
  | cons byte rest ih =>
      rw [List.splitOn_cons_eq_if_modifyHead] at hpiece
      split at hpiece
      · rcases List.mem_cons.mp hpiece with rfl | hrest
        · simp
        · exact ih hrest
      · rename_i hbyte
        cases hsplit : rest.splitOn sep with
        | nil => exact absurd hsplit (List.splitOn_ne_nil sep rest)
        | cons head tail =>
            rw [hsplit, List.modifyHead_cons, List.mem_cons] at hpiece
            rcases hpiece with rfl | htail
            · have hhead := ih (hsplit ▸ List.mem_cons_self)
              have hne : sep ≠ byte := fun heq => hbyte (by simp [heq])
              simp [hne, hhead]
            · exact ih (hsplit ▸ List.mem_cons_of_mem head htail)

/-- A text that is cut off keeps its first pieces and a part of the next one. -/
theorem splitOn_take (sep : UInt8) (text : Bytes) (n : Nat) :
    ∃ j piece last, (text.splitOn sep)[j]? = some piece ∧ last <+: piece ∧
      (text.take n).splitOn sep = (text.splitOn sep).take j ++ [last] := by
  induction text generalizing n with
  | nil => exact ⟨0, [], [], by simp, List.prefix_rfl, by simp⟩
  | cons byte rest ih =>
      cases n with
      | zero =>
          obtain ⟨head, tail, hsplit⟩ :=
            List.exists_cons_of_ne_nil (List.splitOn_ne_nil sep (byte :: rest))
          exact ⟨0, head, [], by simp [hsplit], List.nil_prefix, by simp⟩
      | succ n =>
          obtain ⟨j, piece, last, hpiece, hlast, htake⟩ := ih n
          obtain ⟨head, tail, hsplit⟩ :=
            List.exists_cons_of_ne_nil (List.splitOn_ne_nil sep rest)
          simp only [List.take_succ_cons, List.splitOn_cons_eq_if_modifyHead, htake]
          rw [hsplit] at hpiece ⊢
          by_cases hsep : (byte == sep) = true
          · simp only [if_pos hsep]
            exact ⟨j + 1, piece, last, by simpa using hpiece, hlast, by simp⟩
          · simp only [if_neg hsep, List.modifyHead_cons]
            cases j with
            | zero =>
                obtain rfl : head = piece := by simpa using hpiece
                refine ⟨0, byte :: head, byte :: last, by simp, ?_, by simp⟩
                exact List.cons_prefix_cons.mpr ⟨rfl, hlast⟩
            | succ j =>
                exact ⟨j + 1, piece, last, by simpa using hpiece, hlast, by simp⟩

theorem splitOn_eq_singleton_iff {sep : UInt8} {text piece : Bytes} :
    text.splitOn sep = [piece] ↔ text = piece ∧ sep ∉ piece := by
  constructor
  · intro hsplit
    have htext : [sep].intercalate (text.splitOn sep) = text :=
      List.intercalate_splitOn sep
    rw [hsplit, List.intercalate_singleton] at htext
    exact ⟨htext.symm, not_mem_of_mem_splitOn (hsplit ▸ List.mem_cons_self)⟩
  · rintro ⟨rfl, hsep⟩
    exact List.splitOn_eq_singleton hsep

theorem splitOn_eq_pair_iff {sep : UInt8} {text left right : Bytes} :
    text.splitOn sep = [left, right] ↔
      text = left ++ sep :: right ∧ sep ∉ left ∧ sep ∉ right := by
  constructor
  · intro hsplit
    have htext : [sep].intercalate (text.splitOn sep) = text :=
      List.intercalate_splitOn sep
    rw [hsplit] at htext
    have hpiece : ∀ piece ∈ [left, right], sep ∉ piece := by
      intro piece hpiece
      rw [← hsplit] at hpiece
      exact not_mem_of_mem_splitOn hpiece
    refine ⟨?_, hpiece left (by simp), hpiece right (by simp)⟩
    rw [← htext]
    simp [List.intercalate, List.intersperse]
  · rintro ⟨rfl, hleft, hright⟩
    rw [List.splitOn_append_cons_self_of_not_mem hleft,
      List.splitOn_eq_singleton hright]

theorem hasPrefix_iff {text pre : Bytes} :
    hasPrefix text pre = true ↔ pre <+: text :=
  List.isPrefixOf_iff_prefix

theorem containsSub_iff {text sub : Bytes} :
    containsSub text sub = true ↔ sub <:+: text := by
  rw [containsSub, List.any_eq_true]
  constructor
  · rintro ⟨tail, htail, hsub⟩
    exact (List.isPrefixOf_iff_prefix.mp hsub).isInfix.trans
      ((List.mem_tails tail text).mp htail).isInfix
  · rintro ⟨left, right, heq⟩
    refine ⟨sub ++ right, (List.mem_tails _ _).mpr ⟨left, ?_⟩,
      List.isPrefixOf_iff_prefix.mpr (List.prefix_append sub right)⟩
    rw [← heq, List.append_assoc]

theorem length_splitDot (text : Bytes) :
    (splitDot text).length = text.count dot + 1 := by
  induction text with
  | nil => rfl
  | cons byte rest ih =>
      rw [splitDot] at ih
      rw [splitDot, List.splitOn_cons_eq_if_modifyHead, List.count_cons]
      split
      · rw [List.length_cons, ih]
      · rw [List.length_modifyHead, ih, Nat.add_zero]

/-- The last occurrence of a separator splits a text in one way only. -/
theorem append_separator_inj {sep : UInt8} {left left' right right' : Bytes}
    (hright : sep ∉ right) (hright' : sep ∉ right')
    (heq : left ++ [sep] ++ right = left' ++ [sep] ++ right') :
    left = left' ∧ right = right' := by
  simp only [List.append_assoc, List.singleton_append] at heq
  rcases List.append_eq_append_iff.mp heq with
    ⟨between, hleft, htail⟩ | ⟨between, hleft, htail⟩
  · cases between with
    | nil =>
        simp only [List.nil_append, List.cons.injEq, true_and] at htail
        exact ⟨by simpa using hleft.symm, htail⟩
    | cons head rest =>
        simp only [List.cons_append, List.cons.injEq] at htail
        exact absurd (htail.2 ▸ by simp) hright
  · cases between with
    | nil =>
        simp only [List.nil_append, List.cons.injEq, true_and] at htail
        exact ⟨by simpa using hleft, htail.symm⟩
    | cons head rest =>
        simp only [List.cons_append, List.cons.injEq] at htail
        exact absurd (htail.2 ▸ by simp) hright'

example : (splitHostPort (ascii "[::1]:80")).toOption =
    some (ascii "::1", ascii "80") := by decide

example : parseBasicAuth (ascii "BASIC YTpi") = (⟨ascii "a", ascii "b"⟩, true) := by
  decide

end GoStrings
