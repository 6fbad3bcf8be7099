/-
The configuration file of frpc as its admin pages read and write it: `apiGetConfig`
and `apiPutConfig` of `client/admin_api.go`.  The pages neither see nor set a row that
begins with `token`; a token that is set in another way they do.
-/
import Frp.Lib.GoStrconv
import Frp.Lib.System

namespace Frp

open GoStrings Transition

namespace AdminConfig

structure GeneralResponse where
  code : Nat
  msg : Bytes
deriving DecidableEq, Repr

def newline : UInt8 := 10

/-- The rows of a text as both handlers go through them. -/
def rowsOf (content : Bytes) : List Bytes :=
  (content.splitOn newline).map GoStrconv.trimSpace

def joinRows (rows : List Bytes) : Bytes := [newline].intercalate rows

def isToken (row : Bytes) : Bool := hasPrefix row (ascii "token")

def isCommon (row : Bytes) : Bool := hasPrefix row (ascii "[common]")

/-- The rows that are not a token. -/
def keptRows (content : Bytes) : List Bytes :=
  (rowsOf content).filter fun row => !isToken row

/-- `apiGetConfig`, with what `GetRenderedConfFromFile` returns. -/
def apiGetConfig (cfgFile : Bytes) (content : Except Bytes Bytes) :
    GeneralResponse :=
  if cfgFile = [] then ⟨400, ascii "frpc has no config file path"⟩
  else
    match content with
    | .error err => ⟨400, err⟩
    | .ok content =>
        ⟨200, joinRows (keptRows content)⟩

/-- The row that `apiPutConfig` takes for the token, the first one that begins with
the word.  It is looked for in the file as it stands, before a template is filled
in and without regard to quotes. -/
def tokenRow (content : Bytes) : Bytes :=
  ((rowsOf content).find? isToken).getD []

example : tokenRow (ascii "[common]\n\"token\" = abc") = [] := by decide

def insertToken (token : Bytes) (rows : List Bytes) : List Bytes :=
  rows.flatMap fun row => if isCommon row then [row, token] else [row]

def newRows (body content : Bytes) : List Bytes :=
  let token := tokenRow content
  let tmpRows := keptRows body
  if token ≠ [] then insertToken token tmpRows else tmpRows

/-- What is written over `content`. -/
def newContent (body content : Bytes) : Bytes := joinRows (newRows body content)

/-- What becomes of `os.WriteFile`: all is written, the file cannot be opened, or
only `n` bytes get into it. -/
inductive Write where
  | done
  | refused (err : Bytes)
  | cut (n : Nat) (err : Bytes)
deriving DecidableEq, Repr

/-- The file afterwards. -/
def Write.file (write : Write) (old new : Bytes) : Bytes :=
  match write with
  | .done => new
  | .refused _ => old
  | .cut n _ => new.take n

/-- `apiPutConfig`, with what the reads of the body and of the file return; the
second component is what it has written, if it comes to that. -/
def apiPutConfig (body content : Except Bytes Bytes) (write : Write) :
    GeneralResponse × Option Bytes :=
  match body with
  | .error err => (⟨400, ascii "read request body error: " ++ err⟩, none)
  | .ok body =>
      if body = [] then (⟨400, ascii "body can't be empty"⟩, none)
      else
        match content with
        | .error err => (⟨400, err⟩, none)
        | .ok content =>
            let new := newContent body content
            match write with
            | .done => (⟨200, []⟩, some new)
            | .refused err | .cut _ err =>
                (⟨500, ascii "write content to frpc config file error: " ++ err⟩,
                  some new)

/-- `shown` are the answers of `apiGetConfig`, `saved` the bodies that have been
written; `whole` is off when a write has been cut off, `settled` on when the last
one was not. -/
structure State where
  file : Bytes
  shown : List GeneralResponse
  saved : List Bytes
  whole : Bool
  settled : Bool

/-- A read of the file may fail. -/
inductive Action where
  | get (err : Option Bytes)
  | put (body : Except Bytes Bytes) (err : Option Bytes) (write : Write)

def readFile (file : Bytes) : Option Bytes → Except Bytes Bytes
  | none => .ok file
  | some err => .error err

variable (cfgFile : Bytes) (render : Bytes → Except Bytes Bytes)

/-- `apiPutConfig` on the file. -/
def State.put (s : State) (body : Bytes) (write : Write) (new : Bytes) : State :=
  let file := write.file s.file new
  match write with
  | .done => { s with file := file, saved := s.saved ++ [body], settled := true }
  | .refused _ => s
  | .cut _ _ =>
      { s with file := file, saved := s.saved ++ [body], whole := false,
               settled := false }

def step (s : State) : Action → Option State
  | .get err =>
      some { s with shown :=
        s.shown ++ [apiGetConfig cfgFile ((readFile s.file err).bind render)] }
  | .put body err write =>
      match body, (apiPutConfig body (readFile s.file err) write).2 with
      | .ok body, some new => some (s.put body write new)
      | _, _ => some s

def system (original : Bytes) : System State Action where
  start := ⟨original, [], [], true, false⟩
  step := step cfgFile render

/-- Some row begins the section that a token is written to. -/
def hasCommon (body : Bytes) : Bool := (rowsOf body).any isCommon

/-- What can be a row of a file that has been written. -/
structure IsRow (row : Bytes) : Prop where
  trimmed : GoStrconv.Trimmed row
  line : newline ∉ row

theorem isRow_of_mem {row content : Bytes} (hrow : row ∈ rowsOf content) :
    IsRow row := by
  obtain ⟨piece, hpiece, rfl⟩ := List.mem_map.mp hrow
  refine ⟨GoStrconv.trimmed_trimSpace piece, fun hline => ?_⟩
  exact not_mem_of_mem_splitOn hpiece ((GoStrconv.trimSpace_infix piece).subset hline)

theorem not_isToken_of_isCommon {row : Bytes} (hcommon : isCommon row = true) :
    isToken row = false := by
  have hhead := hasPrefix_iff.mp hcommon
  rw [Bool.eq_false_iff]
  intro htoken
  have hsame := List.prefix_of_prefix_length_le (hasPrefix_iff.mp htoken) hhead
    (by decide)
  exact absurd hsame (by decide)

theorem rowsOf_joinRows {rows : List Bytes} (hrows : ∀ row ∈ rows, IsRow row)
    (hne : rows ≠ []) : rowsOf (joinRows rows) = rows := by
  rw [rowsOf, joinRows,
    List.splitOn_intercalate newline (fun row hrow => (hrows row hrow).line) hne]
  conv_rhs => rw [← List.map_id rows]
  exact List.map_congr_left fun row hrow =>
    GoStrconv.trimSpace_of_trimmed (hrows row hrow).trimmed

theorem tokenRow_joinRows {rows : List Bytes} (hrows : ∀ row ∈ rows, IsRow row) :
    tokenRow (joinRows rows) = (rows.find? isToken).getD [] := by
  cases rows with
  | nil => decide
  | cons row rest => rw [tokenRow, rowsOf_joinRows hrows (List.cons_ne_nil _ _)]

/-- A file has no token, or it is one of its rows. -/
theorem tokenRow_cases (content : Bytes) :
    tokenRow content = [] ∧ (rowsOf content).find? isToken = none ∨
      isToken (tokenRow content) = true ∧ tokenRow content ∈ rowsOf content := by
  cases hfind : (rowsOf content).find? isToken with
  | none => exact .inl ⟨by rw [tokenRow, hfind]; rfl, rfl⟩
  | some token =>
      have htoken : tokenRow content = token := by rw [tokenRow, hfind]; rfl
      rw [htoken]
      exact .inr ⟨List.find?_some hfind, List.mem_of_find?_eq_some hfind⟩

theorem ne_nil_of_isToken {row : Bytes} (htoken : isToken row = true) : row ≠ [] := by
  rintro rfl
  exact absurd htoken (by decide)

section Insert

variable {token : Bytes} {rows : List Bytes}

/-- The token stands in the file exactly when there is a section for it. -/
theorem find?_insertToken (htoken : isToken token = true)
    (hrows : ∀ row ∈ rows, isToken row = false) :
    (insertToken token rows).find? isToken =
      if rows.any isCommon then some token else none := by
  induction rows with
  | nil => rfl
  | cons row rest ih =>
      have hrow : isToken row = false := hrows row List.mem_cons_self
      have hrest := ih fun r hr => hrows r (List.mem_cons_of_mem row hr)
      rw [insertToken, List.flatMap_cons, ← insertToken]
      by_cases hcommon : isCommon row = true
      · simp [hcommon, hrow, htoken]
      · simp [hcommon, hrow, hrest]

theorem filter_insertToken (htoken : isToken token = true)
    (hrows : ∀ row ∈ rows, isToken row = false) :
    (insertToken token rows).filter (fun row => !isToken row) = rows := by
  induction rows with
  | nil => rfl
  | cons row rest ih =>
      have hrow : isToken row = false := hrows row List.mem_cons_self
      have hrest := ih fun r hr => hrows r (List.mem_cons_of_mem row hr)
      rw [insertToken, List.flatMap_cons, ← insertToken, List.filter_append, hrest]
      by_cases hcommon : isCommon row = true
      · simp [hcommon, hrow, htoken]
      · simp [hcommon, hrow]

theorem insertToken_of_not_common (hnone : rows.any isCommon = false) :
    insertToken token rows = rows := by
  induction rows with
  | nil => rfl
  | cons row rest ih =>
      rw [List.any_cons, Bool.or_eq_false_iff] at hnone
      rw [insertToken, List.flatMap_cons, ← insertToken, ih hnone.2]
      simp [hnone.1]

theorem mem_insertToken {row : Bytes} (hrow : row ∈ insertToken token rows) :
    row = token ∨ row ∈ rows := by
  obtain ⟨other, hother, hmem⟩ := List.mem_flatMap.mp hrow
  split at hmem
  · obtain rfl | rfl : row = other ∨ row = token := by simpa using hmem
    · exact .inr hother
    · exact .inl rfl
  · obtain rfl : row = other := by simpa using hmem
    exact .inr hother

end Insert

section NewRows

theorem not_isToken_keptRows {body row : Bytes} (hrow : row ∈ keptRows body) :
    isToken row = false := by
  simpa using (List.mem_filter.mp hrow).2

theorem any_keptRows (body : Bytes) : (keptRows body).any isCommon = hasCommon body := by
  rw [keptRows, List.any_filter, hasCommon]
  refine List.any_congr rfl fun row => ?_
  cases hcommon : isCommon row with
  | true => simp [not_isToken_of_isCommon hcommon]
  | false => simp

theorem isRow_keptRows {body row : Bytes} (hrow : row ∈ keptRows body) : IsRow row :=
  isRow_of_mem (List.mem_filter.mp hrow).1

/-- With a token in the file, or without. -/
theorem newRows_cases (body content : Bytes) :
    tokenRow content = [] ∧ newRows body content = keptRows body ∨
      isToken (tokenRow content) = true ∧ IsRow (tokenRow content) ∧
        newRows body content = insertToken (tokenRow content) (keptRows body) := by
  rcases tokenRow_cases content with ⟨hnone, -⟩ | ⟨htoken, hmem⟩
  · exact .inl ⟨hnone, by rw [newRows, hnone]; rfl⟩
  · refine .inr ⟨htoken, isRow_of_mem hmem, ?_⟩
    rw [newRows]
    exact if_pos (ne_nil_of_isToken htoken)

theorem isRow_newRows {body content row : Bytes} (hrow : row ∈ newRows body content) :
    IsRow row := by
  rcases newRows_cases body content with ⟨-, heq⟩ | ⟨-, htoken, heq⟩
  · exact isRow_keptRows (heq ▸ hrow)
  · rcases mem_insertToken (heq ▸ hrow) with rfl | hkept
    · exact htoken
    · exact isRow_keptRows hkept

/-- A body sets no token: the one of the file stays, or is lost. -/
theorem tokenRow_newContent (body content : Bytes) :
    tokenRow (newContent body content) =
      if hasCommon body then tokenRow content else [] := by
  rw [newContent, tokenRow_joinRows fun _ => isRow_newRows]
  rcases newRows_cases body content with ⟨hnone, heq⟩ | ⟨htoken, -, heq⟩
  · have hfind : (keptRows body).find? isToken = none :=
      List.find?_eq_none.mpr fun row hrow => by simp [not_isToken_keptRows hrow]
    rw [heq, hfind, hnone]
    simp
  · rw [heq, find?_insertToken htoken fun _ => not_isToken_keptRows, any_keptRows]
    split <;> rfl

/-- Every token of the file is the same. -/
theorem eq_of_isToken {body content row : Bytes} (hrow : row ∈ newRows body content)
    (hisToken : isToken row = true) : row = tokenRow (newContent body content) := by
  rw [newContent, tokenRow_joinRows fun _ => isRow_newRows]
  rcases newRows_cases body content with ⟨-, heq⟩ | ⟨htoken, -, heq⟩
  · have hnot := not_isToken_keptRows (heq ▸ hrow)
    simp [hisToken] at hnot
  · rcases mem_insertToken (heq ▸ hrow) with rfl | hkept
    · rw [heq, find?_insertToken htoken fun _ => not_isToken_keptRows]
      cases hcommon : (keptRows body).any isCommon with
      | true => rfl
      | false =>
          rw [heq, insertToken_of_not_common hcommon] at hrow
          have hnot := not_isToken_keptRows hrow
          simp [hisToken] at hnot
    · have hnot := not_isToken_keptRows hkept
      simp [hisToken] at hnot

/-- A write that is cut off may cut the token off, and no more. -/
theorem tokenRow_take (body content : Bytes) (n : Nat) :
    tokenRow ((newContent body content).take n) <+:
      tokenRow (newContent body content) := by
  rcases tokenRow_cases ((newContent body content).take n) with ⟨hnone, -⟩ |
    ⟨htoken, hmem⟩
  · rw [hnone]
    exact List.nil_prefix
  · obtain ⟨j, piece, last, hpiece, hlast, htake⟩ :=
      splitOn_take newline (newContent body content) n
    have hne : newRows body content ≠ [] := by
      intro hnil
      rw [newContent, hnil, joinRows, List.intercalate_nil, List.take_nil] at htoken
      exact absurd htoken (by decide)
    have hsplit : (newContent body content).splitOn newline = newRows body content :=
      List.splitOn_intercalate newline (fun row hrow => (isRow_newRows hrow).line) hne
    rw [hsplit] at hpiece htake
    have hrow := List.mem_of_getElem? hpiece
    rw [rowsOf, htake, List.map_append, List.mem_append, List.mem_map] at hmem
    rcases hmem with ⟨row, hrow', heq⟩ | hlast'
    · have hmem := List.mem_of_mem_take hrow'
      rw [GoStrconv.trimSpace_of_trimmed (isRow_newRows hmem).trimmed] at heq
      rw [← heq] at htoken ⊢
      rw [eq_of_isToken hmem htoken]
    · -- the row that is cut off begins as the whole row does
      have heq := List.mem_singleton.mp hlast'
      have hfront : GoStrconv.trimSpace last <+: last := by
        have hpre := GoStrconv.trimSpace_prefix_stripFront last
        rwa [GoStrconv.stripFront_of_not_prefix fun space hspace hspaces =>
          (isRow_newRows hrow).trimmed.front space hspace (hspaces.trans hlast)] at hpre
      have hcut := hfront.trans hlast
      rw [heq] at htoken ⊢
      have hpieceToken : isToken piece = true :=
        hasPrefix_iff.mpr ((hasPrefix_iff.mp htoken).trans hcut)
      exact eq_of_isToken hrow hpieceToken ▸ hcut

/-- Nothing changes when what is shown is saved. -/
theorem newContent_shown (body content : Bytes)
    (hshown : joinRows (keptRows (newContent body content)) ≠ []) :
    newContent (joinRows (keptRows (newContent body content)))
      (newContent body content) = newContent body content := by
  have hne : newRows body content ≠ [] := by
    intro hnil
    rw [newContent, hnil] at hshown
    exact hshown (by decide)
  have hrows : rowsOf (newContent body content) = newRows body content :=
    rowsOf_joinRows (fun _ => isRow_newRows) hne
  have hkeptNe : keptRows (newContent body content) ≠ [] := by
    intro hnil
    rw [hnil] at hshown
    exact hshown rfl
  -- the rows that are shown are the rows of the body
  have hkept : keptRows (newContent body content) = keptRows body := by
    rw [keptRows, hrows]
    rcases newRows_cases body content with ⟨-, heq⟩ | ⟨htoken, -, heq⟩
    · rw [heq]
      exact List.filter_eq_self.mpr fun row hrow => by simp [not_isToken_keptRows hrow]
    · rw [heq]
      exact filter_insertToken htoken fun _ => not_isToken_keptRows
  have hback : keptRows (joinRows (keptRows body)) = keptRows body := by
    rw [keptRows, rowsOf_joinRows (fun _ => isRow_keptRows) (hkept ▸ hkeptNe)]
    exact List.filter_eq_self.mpr fun row hrow => by simp [not_isToken_keptRows hrow]
  rw [hkept]
  suffices hsame : newRows (joinRows (keptRows body)) (newContent body content) =
      newRows body content from congrArg joinRows hsame
  have htoken := tokenRow_newContent body content
  rcases newRows_cases (joinRows (keptRows body)) (newContent body content) with
    ⟨hnone, heq⟩ | ⟨hisToken, -, heq⟩
  · rw [heq, hback]
    rcases newRows_cases body content with ⟨-, hrows⟩ | ⟨htok, -, hrows⟩
    · exact hrows.symm
    · have hcommon : hasCommon body = false := by
        rw [Bool.eq_false_iff]
        intro hcommon
        rw [htoken, if_pos hcommon] at hnone
        exact ne_nil_of_isToken htok hnone
      rw [hrows, insertToken_of_not_common ((any_keptRows body).trans hcommon)]
  · rw [heq, hback]
    have hcommon : hasCommon body = true := by
      by_contra hnot
      rw [htoken, if_neg hnot] at hisToken
      exact ne_nil_of_isToken hisToken rfl
    rw [if_pos hcommon] at htoken
    rw [htoken] at hisToken ⊢
    rcases newRows_cases body content with ⟨hnil, -⟩ | ⟨-, -, hrows⟩
    · exact absurd hnil (ne_nil_of_isToken hisToken)
    · exact hrows.symm

end NewRows

theorem rowsOf_shown {content row : Bytes}
    (hrow : row ∈ rowsOf (joinRows (keptRows content))) : isToken row = false := by
  cases hkept : keptRows content with
  | nil =>
      have hempty : rowsOf (joinRows []) = [[]] := by decide
      rw [hkept, hempty, List.mem_singleton] at hrow
      exact hrow ▸ by decide
  | cons first rest =>
      rw [rowsOf_joinRows (fun _ => isRow_keptRows) (hkept ▸ List.cons_ne_nil _ _)]
        at hrow
      exact not_isToken_keptRows hrow

/-- A body is written when it is not empty and the file can be read. -/
theorem apiPutConfig_some {body file new : Bytes} {err : Option Bytes} {write : Write}
    (hput : (apiPutConfig (.ok body) (readFile file err) write).2 = some new) :
    body ≠ [] ∧ new = newContent body file := by
  unfold apiPutConfig at hput
  by_cases hempty : body = []
  · simp [hempty] at hput
  · refine ⟨hempty, ?_⟩
    cases err with
    | some err => simp [hempty, readFile] at hput
    | none => cases write <;> simpa [hempty, readFile, eq_comm] using hput

/-- What the pages do to the token row of the file that frpc has started with.
What is shown is the file with its template filled in, so that saving it changes
nothing only where there was nothing to fill in. -/
structure State.Kept (cfgFile : Bytes) (render : Bytes → Except Bytes Bytes)
    (original : Bytes) (s : State) : Prop where
  hidden : ∀ reply ∈ s.shown, reply.code = 200 →
    ∀ row ∈ rowsOf reply.msg, isToken row = false
  token : tokenRow s.file <+: tokenRow original
  exact : s.whole = true → tokenRow s.file =
    if s.saved.all hasCommon then tokenRow original else []
  stable : s.settled = true → render s.file = .ok s.file → cfgFile ≠ [] →
    ∀ err write new, (apiPutConfig (.ok (apiGetConfig cfgFile (render s.file)).msg)
      (readFile s.file err) write).2 = some new → new = s.file

structure Inv (original : Bytes) (s : State) : Prop where
  hidden : ∀ reply ∈ s.shown, reply.code = 200 →
    ∀ row ∈ rowsOf reply.msg, isToken row = false
  token : tokenRow s.file <+: tokenRow original
  exact : s.whole = true → tokenRow s.file =
    if s.saved.all hasCommon then tokenRow original else []
  settled : s.settled = true → ∃ body content, s.file = newContent body content

variable {cfgFile render} {original : Bytes} {s s' : State}

namespace Inv

theorem init : Inv original (system cfgFile render original).start where
  hidden _ hreply := absurd hreply List.not_mem_nil
  token := List.prefix_rfl
  exact _ := rfl
  settled h := absurd h (by simp [system])

theorem get (hinv : Inv original s) (content : Except Bytes Bytes) :
    Inv original { s with shown := s.shown ++ [apiGetConfig cfgFile content] } where
  hidden reply hreply hcode row hrow := by
    rcases List.mem_append.mp hreply with hold | hnew
    · exact hinv.hidden reply hold hcode row hrow
    · obtain rfl := List.mem_singleton.mp hnew
      unfold apiGetConfig at hcode hrow
      split at hcode
      · simp at hcode
      · next hpath =>
          rw [if_neg hpath] at hrow
          cases content with
          | error err => simp at hcode
          | ok content => exact rowsOf_shown hrow
  token := hinv.token
  exact := hinv.exact
  settled := hinv.settled

/-- The token that is written is that of the file, whole or cut off. -/
theorem put (hinv : Inv original s) (body : Bytes) (write : Write) :
    Inv original (s.put body write (newContent body s.file)) := by
  have hnew : tokenRow (newContent body s.file) <+: tokenRow original := by
    rw [tokenRow_newContent]
    split
    · exact hinv.token
    · exact List.nil_prefix
  cases write with
  | refused err => exact hinv
  | cut n err =>
      exact ⟨hinv.hidden, (tokenRow_take body s.file n).trans hnew,
        fun h => by simp [State.put] at h, fun h => by simp [State.put] at h⟩
  | done =>
      refine ⟨hinv.hidden, hnew, fun hwhole => ?_, fun _ => ⟨body, s.file, rfl⟩⟩
      have hold := hinv.exact hwhole
      simp only [State.put, Write.file, List.all_append, List.all_cons, List.all_nil,
        Bool.and_true]
      rw [tokenRow_newContent, hold]
      cases s.saved.all hasCommon <;> cases hasCommon body <;> rfl

theorem step {action : Action} (hinv : Inv original s)
    (hstep : step cfgFile render s action = some s') : Inv original s' := by
  cases action with
  | get err =>
      obtain rfl := Option.some.inj hstep
      exact hinv.get _
  | put body err write =>
      simp only [AdminConfig.step] at hstep
      split at hstep
      · next body new hput =>
          obtain rfl := Option.some.inj hstep
          obtain ⟨-, rfl⟩ := apiPutConfig_some hput
          exact hinv.put body write
      · obtain rfl := Option.some.inj hstep
        exact hinv

theorem kept (hinv : Inv original s) : s.Kept cfgFile render original where
  hidden := hinv.hidden
  token := hinv.token
  exact := hinv.exact
  stable hsettled hrender hpath err write new hput := by
    obtain ⟨body, content, hfile⟩ := hinv.settled hsettled
    rw [hrender, apiGetConfig, if_neg hpath] at hput
    obtain ⟨hne, rfl⟩ := apiPutConfig_some hput
    rw [hfile] at hne ⊢
    exact newContent_shown body content hne

end Inv

end AdminConfig

end Frp
