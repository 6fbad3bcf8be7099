/-
`LoadAllProxyConfsFromIni` of `pkg/config/client.go`: the sections whose name
begins with `range:` are rendered into one section for each pair of ports, in the
same file, and then every section is read.  The ini library is taken to keep the
sections in the order of the file, to return a section that exists from
`NewSection`, and to overwrite a key in `NewKey`.
-/
import Mathlib.Data.List.Nodup
import Mathlib.Logic.Function.Basic
import Frp.Config.RangeNumbers

namespace Frp

open GoInt GoStrings GoStrconv

namespace RangeSections

/-- The keys of a section. -/
abbrev Keys := Bytes → Option Bytes

/-- The names of the sections in order, and their keys. -/
structure IniFile where
  names : List Bytes
  nodup : names.Nodup
  keys : Bytes → Keys

namespace IniFile

/-- A section that exists is returned as it is. -/
def newSection (f : IniFile) (name : Bytes) : IniFile :=
  if hname : f.names.contains name then f
  else
    { names := f.names ++ [name]
      nodup := List.nodup_append.mpr ⟨f.nodup, List.nodup_singleton name,
        fun _ hmem _ hlast heq => hname (List.contains_iff_mem.mpr
          ((heq.trans (List.mem_singleton.mp hlast)) ▸ hmem))⟩
      keys := Function.update f.keys name fun _ => none }

def setKeys (f : IniFile) (name : Bytes) (keys : Keys) : IniFile :=
  { f with keys := Function.update f.keys name keys }

end IniFile

/-- `key.String()` of a key that may be missing. -/
def Keys.text (keys : Keys) (key : String) : Bytes :=
  (keys (ascii key)).getD []

def Keys.newKey (keys : Keys) (key : String) (value : Bytes) : Keys :=
  Function.update keys (ascii key) (some value)

def copySection (source target : Keys) : Keys := fun key =>
  (source key).orElse fun _ => target key

def rangePrefix : Bytes := ascii "range:"

def isRange (name : Bytes) : Bool := hasPrefix name rangePrefix

/-- A section that is neither the default nor the common nor a range one. -/
def isProxy (name : Bytes) : Bool :=
  name ≠ ascii "DEFAULT" && name ≠ ascii "common" && !isRange name

inductive RenderError where
  | portEmpty
  | number (err : RangeNumbers.RangeError)
  | differ
  | necessary
deriving DecidableEq, Repr

def RenderError.text (quote : Bytes → String) : RenderError → String
  | .portEmpty => "local_port or remote_port is empty"
  | .number err => err.text quote
  | .differ => "local ports number should be same with remote ports number"
  | .necessary => "local_port and remote_port is necessary"

/-- `none` when the reading of a list of ports does not end. -/
abbrev Reading (T : Type) := Option (Except RenderError T)

def readNumbers (fuel : Nat) (text : Bytes) : Reading (List Int) :=
  match RangeNumbers.parseRangeNumbers fuel text with
  | none => none
  | some (_, some err) => some (.error (.number err))
  | some (numbers, none) => some (.ok numbers)

/-- The validation of a range section: its local and remote ports in pairs. -/
def readPorts (fuel : Nat) (keys : Keys) : Reading (List (Int × Int)) :=
  if keys.text "local_port" = [] ∨ keys.text "remote_port" = [] then
    some (.error .portEmpty)
  else
    match readNumbers fuel (keys.text "local_port") with
    | none => none
    | some (.error err) => some (.error err)
    | some (.ok localPorts) =>
        match readNumbers fuel (keys.text "remote_port") with
        | none => none
        | some (.error err) => some (.error err)
        | some (.ok remotePorts) =>
            if localPorts.length ≠ remotePorts.length then
              some (.error .differ)
            else if localPorts.length = 0 then some (.error .necessary)
            else some (.ok (localPorts.zip remotePorts))

/-- The name of a range section behind `range:`. -/
def templatePrefix (name : Bytes) : Bytes :=
  trimSpace (if isRange name then name.drop rangePrefix.length else name)

def templateName (pre : Bytes) (i : Nat) : Bytes :=
  pre ++ ascii "_" ++ formatNat i

def setPorts (keys : Keys) (ports : Int × Int) : Keys :=
  (keys.newKey "local_port" (formatInt ports.1)).newKey "remote_port"
    (formatInt ports.2)

/-- One turn of the loop over the ports. -/
def renderPort (name : Bytes) (f : IniFile) (port : (Int × Int) × Nat) :
    IniFile :=
  let tmpname := templateName (templatePrefix name) port.2
  let f := f.newSection tmpname
  f.setKeys tmpname
    (setPorts (copySection (f.keys name) (f.keys tmpname)) port.1)

def renderPorts (name : Bytes) (f : IniFile) (ports : List (Int × Int)) :
    IniFile :=
  ports.zipIdx.foldl (renderPort name) f

def renderRangeProxyTemplates (fuel : Nat) (f : IniFile) (name : Bytes) :
    Reading IniFile :=
  match readPorts fuel (f.keys name) with
  | none => none
  | some (.error err) => some (.error err)
  | some (.ok ports) => some (.ok (renderPorts name f ports))

inductive LoadError where
  | render (name : Bytes) (err : RenderError)
  | proxy (name : Bytes) (err : Bytes)
  | visitor (err : Bytes)
  | role (name : Bytes)
deriving DecidableEq, Repr

def LoadError.text (quote str : Bytes → String) : LoadError → String
  | .render name err => "failed to render template for proxy " ++ str name ++
      ": " ++ err.text quote
  | .proxy name err => "failed to parse proxy " ++ str name ++ ", err: " ++
      str err
  | .visitor err => str err
  | .role name => "proxy " ++ str name ++
      " role should be 'server' or 'visitor'"

/-- The loop over the range sections, which have been listed before. -/
def renderAll (fuel : Nat) : IniFile → List Bytes →
    Option (Except LoadError IniFile)
  | f, [] => some (.ok f)
  | f, name :: rest =>
      match renderRangeProxyTemplates fuel f name with
      | none => none
      | some (.error err) => some (.error (.render name err))
      | some (.ok f) => renderAll fuel f rest

/-- The two maps that are returned. -/
structure Confs (P V : Type) where
  proxies : Bytes → Option P
  visitors : Bytes → Option V

namespace Confs

variable {P V : Type}

def empty : Confs P V := ⟨fun _ => none, fun _ => none⟩

def put (confs : Confs P V) (name : Bytes) : P ⊕ V → Confs P V
  | .inl conf =>
      { confs with proxies := Function.update confs.proxies name (some conf) }
  | .inr conf =>
      { confs with visitors := Function.update confs.visitors name (some conf) }

/-- The map of its kind has the configuration under the name. -/
def Has (confs : Confs P V) (name : Bytes) : P ⊕ V → Prop
  | .inl conf => confs.proxies name = some conf
  | .inr conf => confs.visitors name = some conf

theorem has_put (confs : Confs P V) (name : Bytes) (conf : P ⊕ V) :
    (confs.put name conf).Has name conf := by
  cases conf with
  | inl proxy => exact Function.update_self ..
  | inr visitor => exact Function.update_self ..

theorem has_put_of_ne (confs : Confs P V) {name other : Bytes}
    (hne : other ≠ name) (conf conf' : P ⊕ V) :
    (confs.put name conf).Has other conf' ↔ confs.Has other conf' := by
  cases conf <;> cases conf' <;> simp [put, Has, hne]

theorem not_has_empty (name : Bytes) (conf : P ⊕ V) :
    ¬ (empty : Confs P V).Has name conf := by
  cases conf <;> simp [empty, Has]

end Confs

/-- `NewProxyConfFromIni` and `NewVisitorConfFromIni`, which read the keys of a
section through the ini library. -/
structure Readers (P V : Type) where
  newProxyConf : Bytes → Bytes → Keys → Except Bytes P
  newVisitorConf : Bytes → Bytes → Keys → Except Bytes V

variable {P V : Type}

/-- The configuration of one section.  Asking for a missing role sets it. -/
def Readers.conf (readers : Readers P V) (pre name : Bytes) (keys : Keys) :
    Except LoadError (P ⊕ V) :=
  let role := keys.text "role"
  let keys := if (keys (ascii "role")).isNone then keys.newKey "role" []
    else keys
  if role = [] ∨ role = ascii "server" then
    match readers.newProxyConf pre name keys with
    | .error err => .error (.proxy name err)
    | .ok conf => .ok (.inl conf)
  else if role = ascii "visitor" then
    match readers.newVisitorConf pre name keys with
    | .error err => .error (.visitor err)
    | .ok conf => .ok (.inr conf)
  else .error (.role name)

/-- The loop over all sections. -/
def loadSections (readers : Readers P V) (pre : Bytes) (keys : Bytes → Keys) :
    Confs P V → List Bytes → Except LoadError (Confs P V)
  | confs, [] => .ok confs
  | confs, name :: rest =>
      match readers.conf pre name (keys name) with
      | .error err => .error err
      | .ok conf =>
          loadSections readers pre keys (confs.put (pre ++ name) conf) rest

/-- With an empty start list every section is read. -/
def starts (start : List Bytes) (name : Bytes) : Bool :=
  start = [] || start.contains name

/-- `prefix += "."` of a prefix that is not empty. -/
def dotted (pre : Bytes) : Bytes :=
  if pre = [] then [] else pre ++ ascii "."

def loadAllProxyConfsFromIni (readers : Readers P V) (fuel : Nat)
    (pre : Bytes) (f : IniFile) (start : List Bytes) :
    Option (Except LoadError (Confs P V)) :=
  match renderAll fuel f (f.names.filter isRange) with
  | none => none
  | some (.error err) => some (.error err)
  | some (.ok f) =>
      some (loadSections readers (dotted pre) f.keys .empty
        (f.names.filter fun name => isProxy name && starts start name))

/-- The ports of a range section that passes its validation. -/
def ports (fuel : Nat) (keys : Keys) : List (Int × Int) :=
  match readPorts fuel keys with
  | some (.ok ports) => ports
  | _ => []

/-- The sections that a range section stands for. -/
def generated (fuel : Nat) (f : IniFile) (name : Bytes) :
    List (Bytes × Keys) :=
  (ports fuel (f.keys name)).zipIdx.map fun port =>
    (templateName (templatePrefix name) port.2, setPorts (f.keys name) port.1)

/-- The proxies of a file: its own sections with their own keys, and one for each
index of each range section. -/
def expected (fuel : Nat) (f : IniFile) : List (Bytes × Keys) :=
  (f.names.filter isProxy).map (fun name => (name, f.keys name)) ++
    (f.names.filter isRange).flatMap (generated fuel f)

/-- The maps have one configuration for each of the expected proxies, all under
different names. -/
structure Kept (readers : Readers P V) (fuel : Nat) (pre : Bytes) (f : IniFile)
    (confs : Confs P V) : Prop where
  distinct : ((expected fuel f).map Prod.fst).Nodup
  holds : ∀ entry ∈ expected fuel f, ∃ conf,
    readers.conf pre entry.1 entry.2 = .ok conf ∧
      confs.Has (pre ++ entry.1) conf

/-- No two range sections have one name behind `range:` and white space, none is a
range section there again, and no section has a name that a range section
generates. -/
structure Separate (fuel : Nat) (f : IniFile) : Prop where
  prefixes : ((f.names.filter isRange).map templatePrefix).Nodup
  unnested : ∀ name ∈ f.names, isRange name = true →
    isRange (templatePrefix name) = false
  unused : ∀ name ∈ f.names, isRange name = true →
    ∀ i < (ports fuel (f.keys name)).length,
      templateName (templatePrefix name) i ∉ f.names

theorem readPorts_ne_nil {fuel : Nat} {keys : Keys}
    {found : List (Int × Int)}
    (hread : readPorts fuel keys = some (.ok found)) : found ≠ [] := by
  unfold readPorts at hread
  split at hread
  · simp at hread
  cases hlocal : readNumbers fuel (keys.text "local_port") with
  | none => simp [hlocal] at hread
  | some localResult =>
      cases localResult with
      | error err => simp [hlocal] at hread
      | ok localPorts =>
          cases hremote : readNumbers fuel (keys.text "remote_port") with
          | none => simp [hlocal, hremote] at hread
          | some remoteResult =>
              cases remoteResult with
              | error err => simp [hlocal, hremote] at hread
              | ok remotePorts =>
                  simp only [hlocal, hremote] at hread
                  split_ifs at hread with hdiffer hnone
                  · simp at hread
                  · simp at hread
                  · simp only [Option.some.injEq, Except.ok.injEq] at hread
                    intro hnil
                    rw [hnil] at hread
                    have hlength := congrArg List.length hread
                    rw [List.length_zip, List.length_nil] at hlength
                    omega

theorem underscore_not_mem_formatNat (n : Nat) : 95 ∉ formatNat n := by
  intro hmem
  have hdigit := isDigit_of_mem_formatNat hmem
  revert hdigit
  decide

theorem templateName_eq (pre : Bytes) (i : Nat) :
    templateName pre i = pre ++ [95] ++ formatNat i := rfl

/-- What stands behind the last underscore is the index. -/
theorem templateName_inj {pre pre' : Bytes} {i i' : Nat}
    (hsame : templateName pre i = templateName pre' i') :
    pre = pre' ∧ i = i' := by
  rw [templateName_eq, templateName_eq] at hsame
  obtain ⟨hpre, hindex⟩ := append_separator_inj
    (underscore_not_mem_formatNat i) (underscore_not_mem_formatNat i') hsame
  exact ⟨hpre, formatNat_inj hindex⟩

/-- There is no underscore in `range:`. -/
theorem isRange_templateName (pre : Bytes) (i : Nat) :
    isRange (templateName pre i) = isRange pre := by
  rw [Bool.eq_iff_iff, isRange, isRange, hasPrefix_iff, hasPrefix_iff,
    templateName_eq, List.append_assoc]
  constructor
  · intro hrange
    rcases List.prefix_or_prefix_of_prefix hrange (List.prefix_append _ _) with
      hpre | ⟨rest, hrest⟩
    · exact hpre
    · obtain ⟨tail, htail⟩ := hrange
      rw [← hrest, List.append_assoc, List.append_cancel_left_eq] at htail
      cases rest with
      | nil => exact ⟨[], by simpa using hrest.symm⟩
      | cons head rest =>
          have hhead : head = 95 := by
            simp only [List.cons_append, List.nil_append, List.cons.injEq]
              at htail
            exact htail.1
          have hmem : (95 : UInt8) ∈ rangePrefix := by
            rw [← hrest, ← hhead]
            simp
          exact absurd hmem (by decide)
  · exact fun hpre => hpre.trans (List.prefix_append _ _)

theorem underscore_mem_templateName (pre : Bytes) (i : Nat) :
    95 ∈ templateName pre i := by
  simp [templateName_eq]

theorem isProxy_templateName {pre : Bytes} (hpre : isRange pre = false)
    (i : Nat) : isProxy (templateName pre i) = true := by
  have hmem := underscore_mem_templateName pre i
  have hdefault : templateName pre i ≠ ascii "DEFAULT" := by
    intro heq
    rw [heq] at hmem
    revert hmem
    decide
  have hcommon : templateName pre i ≠ ascii "common" := by
    intro heq
    rw [heq] at hmem
    revert hmem
    decide
  simp [isProxy, hdefault, hcommon, isRange_templateName, hpre]

theorem generated_names (fuel : Nat) (f : IniFile) (name : Bytes) :
    (generated fuel f name).map Prod.fst =
      (List.range (ports fuel (f.keys name)).length).map
        (templateName (templatePrefix name)) := by
  rw [generated, List.map_map, List.range_eq_range', ← List.zipIdx_map_snd 0,
    List.map_map]
  rfl

theorem mem_generated_names {fuel : Nat} {f : IniFile} {name tmpname : Bytes} :
    tmpname ∈ (generated fuel f name).map Prod.fst ↔
      ∃ i < (ports fuel (f.keys name)).length,
        templateName (templatePrefix name) i = tmpname := by
  rw [generated_names]
  simp

theorem generated_nodup (fuel : Nat) (f : IniFile) (name : Bytes) :
    ((generated fuel f name).map Prod.fst).Nodup := by
  rw [generated_names]
  exact List.nodup_range.map fun _ _ hsame => (templateName_inj hsame).2

/-- The file has more sections, and nothing else is changed. -/
structure Extends (f : IniFile) (entries : List (Bytes × Keys))
    (f' : IniFile) : Prop where
  names : f'.names = f.names ++ entries.map Prod.fst
  old : ∀ name ∈ f.names, f'.keys name = f.keys name
  new : ∀ entry ∈ entries, f'.keys entry.1 = entry.2

namespace Extends

theorem refl (f : IniFile) : Extends f [] f :=
  ⟨by simp, fun _ _ => rfl, fun _ hmem => absurd hmem List.not_mem_nil⟩

theorem mem {f f' : IniFile} {entries : List (Bytes × Keys)}
    (hext : Extends f entries f') {name : Bytes} (hmem : name ∈ f.names) :
    name ∈ f'.names := by
  rw [hext.names]
  exact List.mem_append_left _ hmem

theorem trans {f g h : IniFile} {first second : List (Bytes × Keys)}
    (hfirst : Extends f first g) (hsecond : Extends g second h) :
    Extends f (first ++ second) h where
  names := by
    rw [hsecond.names, hfirst.names, List.map_append, List.append_assoc]
  old name hmem := by
    rw [hsecond.old name (hfirst.mem hmem), hfirst.old name hmem]
  new entry hmem := by
    rcases List.mem_append.mp hmem with hin | hin
    · have hnamed : entry.1 ∈ g.names := by
        rw [hfirst.names]
        exact List.mem_append_right _ (List.mem_map_of_mem hin)
      rw [hsecond.old entry.1 hnamed, hfirst.new entry hin]
    · exact hsecond.new entry hin

end Extends

/-- A fresh section takes the keys of the range section. -/
theorem extends_renderPort {f : IniFile} {name : Bytes}
    {port : (Int × Int) × Nat} (hname : name ∈ f.names)
    (hfresh : templateName (templatePrefix name) port.2 ∉ f.names) :
    Extends f
      [(templateName (templatePrefix name) port.2,
        setPorts (f.keys name) port.1)]
      (renderPort name f port) := by
  have hsection : renderPort name f port =
      (f.newSection (templateName (templatePrefix name) port.2)).setKeys
        (templateName (templatePrefix name) port.2)
        (setPorts (f.keys name) port.1) := by
    have hne : name ≠ templateName (templatePrefix name) port.2 :=
      fun heq => hfresh (heq ▸ hname)
    have hcopy : copySection (f.keys name) (fun _ => none) = f.keys name := by
      funext key
      simp [copySection]
    simp [renderPort, IniFile.newSection, hfresh, hne, hcopy]
  rw [hsection]
  refine ⟨?_, ?_, ?_⟩
  · simp [IniFile.newSection, IniFile.setKeys, hfresh]
  · intro old hold
    have hne : old ≠ templateName (templatePrefix name) port.2 :=
      fun heq => hfresh (heq ▸ hold)
    simp [IniFile.newSection, IniFile.setKeys, hfresh, hne]
  · intro entry hentry
    rw [List.mem_singleton.mp hentry]
    simp [IniFile.setKeys]

theorem extends_foldl_renderPort {name : Bytes} {keys : Keys}
    (turns : List ((Int × Int) × Nat)) {f : IniFile}
    (hname : name ∈ f.names) (hkeys : f.keys name = keys)
    (hnodup : (turns.map fun port =>
      templateName (templatePrefix name) port.2).Nodup)
    (hfresh : ∀ port ∈ turns,
      templateName (templatePrefix name) port.2 ∉ f.names) :
    Extends f
      (turns.map fun port =>
        (templateName (templatePrefix name) port.2, setPorts keys port.1))
      (turns.foldl (renderPort name) f) := by
  induction turns generalizing f with
  | nil => exact Extends.refl f
  | cons port turns ih =>
      have hfirst := extends_renderPort hname
        (hfresh port List.mem_cons_self)
      rw [List.map_cons, List.nodup_cons] at hnodup
      rw [hkeys] at hfirst
      refine hfirst.trans (ih (hfirst.mem hname)
        ((hfirst.old name hname).trans hkeys) hnodup.2 ?_)
      intro later hlater hmem
      rw [hfirst.names] at hmem
      rcases List.mem_append.mp hmem with hold | hnew
      · exact hfresh later (List.mem_cons_of_mem port hlater) hold
      · exact hnodup.1 (List.mem_map.mpr
          ⟨later, hlater, List.mem_singleton.mp hnew⟩)

/-- A range section that is accepted has been rendered, and has ports. -/
theorem renderRangeProxyTemplates_ok {fuel : Nat} {f f' : IniFile}
    {name : Bytes}
    (hrender : renderRangeProxyTemplates fuel f name = some (.ok f')) :
    f' = renderPorts name f (ports fuel (f.keys name)) ∧
      ports fuel (f.keys name) ≠ [] := by
  rw [renderRangeProxyTemplates] at hrender
  cases hread : readPorts fuel (f.keys name) with
  | none => simp [hread] at hrender
  | some result =>
      cases result with
      | error err => simp [hread] at hrender
      | ok found =>
          have hports : ports fuel (f.keys name) = found := by
            simp [ports, hread]
          simp only [hread, Option.some.injEq, Except.ok.injEq] at hrender
          rw [hports]
          exact ⟨hrender.symm, readPorts_ne_nil hread⟩

theorem renderAll_cons {fuel : Nat} {f f' : IniFile} {name : Bytes}
    {rest : List Bytes}
    (hrender : renderAll fuel f (name :: rest) = some (.ok f')) :
    ∃ f₁, f₁ = renderPorts name f (ports fuel (f.keys name)) ∧
      ports fuel (f.keys name) ≠ [] ∧
      renderAll fuel f₁ rest = some (.ok f') := by
  rw [renderAll] at hrender
  cases hturn : renderRangeProxyTemplates fuel f name with
  | none => simp [hturn] at hrender
  | some result =>
      cases result with
      | error err => simp [hturn] at hrender
      | ok f₁ =>
          simp only [hturn] at hrender
          obtain ⟨hf₁, hports⟩ := renderRangeProxyTemplates_ok hturn
          exact ⟨f₁, hf₁, hports, hrender⟩

theorem generated_congr {fuel : Nat} {f f' : IniFile} {name : Bytes}
    (hkeys : f'.keys name = f.keys name) :
    generated fuel f' name = generated fuel f name := by
  rw [generated, generated, hkeys]

theorem extends_renderPorts {fuel : Nat} {f : IniFile} {name : Bytes}
    (hname : name ∈ f.names)
    (hfresh : ∀ tmpname ∈ (generated fuel f name).map Prod.fst,
      tmpname ∉ f.names) :
    Extends f (generated fuel f name)
      (renderPorts name f (ports fuel (f.keys name))) := by
  refine extends_foldl_renderPort _ hname rfl ?_ ?_
  · have hnodup := generated_nodup fuel f name
    rw [generated, List.map_map] at hnodup
    exact hnodup
  · intro port hport
    refine hfresh _ ?_
    rw [generated, List.map_map]
    exact List.mem_map.mpr ⟨port, hport, rfl⟩

/-- The run of the loop: names that are all new are all appended. -/
theorem extends_renderAll {fuel : Nat} (names : List Bytes) {f f' : IniFile}
    (hnames : ∀ name ∈ names, name ∈ f.names)
    (hnodup : ((names.flatMap (generated fuel f)).map Prod.fst).Nodup)
    (hfresh : ∀ tmpname ∈ (names.flatMap (generated fuel f)).map Prod.fst,
      tmpname ∉ f.names)
    (hrender : renderAll fuel f names = some (.ok f')) :
    Extends f (names.flatMap (generated fuel f)) f' := by
  induction names generalizing f with
  | nil =>
      simp only [renderAll, Option.some.injEq, Except.ok.injEq] at hrender
      exact hrender ▸ Extends.refl f
  | cons name rest ih =>
      obtain ⟨f₁, hf₁, -, hrest⟩ := renderAll_cons hrender
      rw [List.flatMap_cons, List.map_append] at hnodup hfresh
      have hfirst : Extends f (generated fuel f name) f₁ := by
        rw [hf₁]
        exact extends_renderPorts (hnames name List.mem_cons_self)
          fun tmpname hmem => hfresh tmpname (List.mem_append_left _ hmem)
      have hlater : ∀ later ∈ rest, later ∈ f.names :=
        fun later hmem => hnames later (List.mem_cons_of_mem name hmem)
      have hsame : rest.flatMap (generated fuel f₁) =
          rest.flatMap (generated fuel f) :=
        List.flatMap_congr fun later hmem =>
          generated_congr (hfirst.old later (hlater later hmem))
      have hsecond := ih (fun later hmem => hfirst.mem (hlater later hmem))
        (by rw [hsame]; exact (List.nodup_append.mp hnodup).2.1)
        (by
          intro tmpname hmem hin
          rw [hsame] at hmem
          rw [hfirst.names] at hin
          rcases List.mem_append.mp hin with hold | hnew
          · exact hfresh tmpname (List.mem_append_right _ hmem) hold
          · exact (List.nodup_append.mp hnodup).2.2 tmpname hnew tmpname hmem
              rfl)
        hrest
      rw [hsame] at hsecond
      rw [List.flatMap_cons]
      exact hfirst.trans hsecond

section Load

variable {readers : Readers P V} {pre : Bytes} {keys : Bytes → Keys}

theorem loadSections_cons {confs confs' : Confs P V} {name : Bytes}
    {rest : List Bytes}
    (hload : loadSections readers pre keys confs (name :: rest) = .ok confs') :
    ∃ conf, readers.conf pre name (keys name) = .ok conf ∧
      loadSections readers pre keys (confs.put (pre ++ name) conf) rest =
        .ok confs' := by
  rw [loadSections] at hload
  cases hconf : readers.conf pre name (keys name) with
  | error err => simp [hconf] at hload
  | ok conf =>
      simp only [hconf] at hload
      exact ⟨conf, rfl, hload⟩

/-- A name that is not read is left as it was. -/
theorem loadSections_frame {names : List Bytes} {confs confs' : Confs P V}
    {other : Bytes} (hother : other ∉ names)
    (hload : loadSections readers pre keys confs names = .ok confs')
    (conf : P ⊕ V) :
    confs'.Has (pre ++ other) conf ↔ confs.Has (pre ++ other) conf := by
  induction names generalizing confs with
  | nil =>
      simp only [loadSections, Except.ok.injEq] at hload
      rw [hload]
  | cons name rest ih =>
      obtain ⟨first, -, hrest⟩ := loadSections_cons hload
      rw [List.mem_cons, not_or] at hother
      rw [ih hother.2 hrest]
      exact confs.has_put_of_ne
        (fun heq => hother.1 (List.append_cancel_left heq)) first conf

theorem loadSections_has {names : List Bytes} {confs confs' : Confs P V}
    (hnodup : names.Nodup)
    (hload : loadSections readers pre keys confs names = .ok confs') :
    ∀ name ∈ names, ∃ conf, readers.conf pre name (keys name) = .ok conf ∧
      confs'.Has (pre ++ name) conf := by
  induction names generalizing confs with
  | nil => exact fun _ hmem => absurd hmem List.not_mem_nil
  | cons name rest ih =>
      obtain ⟨first, hconf, hrest⟩ := loadSections_cons hload
      rw [List.nodup_cons] at hnodup
      intro later hlater
      rcases List.mem_cons.mp hlater with heq | hin
      · subst heq
        exact ⟨first, hconf, (loadSections_frame hnodup.1 hrest first).mpr
          (confs.has_put _ first)⟩
      · exact ih hnodup.2 hrest later hin

theorem mem_of_has {names : List Bytes} {confs : Confs P V} {name : Bytes}
    {conf : P ⊕ V}
    (hload : loadSections readers pre keys .empty names = .ok confs)
    (hhas : confs.Has (pre ++ name) conf) : name ∈ names := by
  by_contra hnot
  exact Confs.not_has_empty _ conf
    ((loadSections_frame hnot hload conf).mp hhas)

theorem load_cases {fuel : Nat} {f : IniFile} {confs : Confs P V}
    (hload : loadAllProxyConfsFromIni readers fuel pre f [] =
      some (.ok confs)) :
    ∃ f', renderAll fuel f (f.names.filter isRange) = some (.ok f') ∧
      loadSections readers (dotted pre) f'.keys .empty
        (f'.names.filter isProxy) = .ok confs := by
  rw [loadAllProxyConfsFromIni] at hload
  cases hrender : renderAll fuel f (f.names.filter isRange) with
  | none => simp [hrender] at hload
  | some result =>
      cases result with
      | error err => simp [hrender] at hload
      | ok f' =>
          simp only [hrender, starts, decide_true, Bool.true_or,
            Bool.and_true, Option.some.injEq] at hload
          exact ⟨f', rfl, hload⟩

end Load

namespace Separate

variable {fuel : Nat} {f : IniFile}

theorem fresh (hseparate : Separate fuel f) :
    ∀ tmpname ∈ ((f.names.filter isRange).flatMap (generated fuel f)).map
      Prod.fst, tmpname ∉ f.names := by
  intro tmpname hmem
  rw [List.map_flatMap, List.mem_flatMap] at hmem
  obtain ⟨name, hname, hgenerated⟩ := hmem
  obtain ⟨i, hi, rfl⟩ := mem_generated_names.mp hgenerated
  obtain ⟨hin, hrange⟩ := List.mem_filter.mp hname
  exact hseparate.unused name hin hrange i hi

theorem nodup (hseparate : Separate fuel f) :
    (((f.names.filter isRange).flatMap (generated fuel f)).map
      Prod.fst).Nodup := by
  rw [List.map_flatMap, List.nodup_flatMap]
  refine ⟨fun name _ => generated_nodup fuel f name, ?_⟩
  refine (List.pairwise_map.mp hseparate.prefixes).imp ?_
  intro name name' hne tmpname hmem hmem'
  obtain ⟨i, -, hi⟩ := mem_generated_names.mp hmem
  obtain ⟨i', -, hi'⟩ := mem_generated_names.mp hmem'
  exact hne (templateName_inj (hi.trans hi'.symm)).1

theorem isProxy_generated (hseparate : Separate fuel f) :
    ∀ tmpname ∈ ((f.names.filter isRange).flatMap (generated fuel f)).map
      Prod.fst, isProxy tmpname = true := by
  intro tmpname hmem
  rw [List.map_flatMap, List.mem_flatMap] at hmem
  obtain ⟨name, hname, hgenerated⟩ := hmem
  obtain ⟨i, -, rfl⟩ := mem_generated_names.mp hgenerated
  obtain ⟨hin, hrange⟩ := List.mem_filter.mp hname
  exact isProxy_templateName (hseparate.unnested name hin hrange) i

end Separate

theorem expected_names (fuel : Nat) (f : IniFile) :
    (expected fuel f).map Prod.fst = f.names.filter isProxy ++
      ((f.names.filter isRange).flatMap (generated fuel f)).map Prod.fst := by
  rw [expected, List.map_append, List.map_map]
  congr 1
  exact List.map_id _

/-- The sections that are read in the end are the expected ones. -/
theorem kept_of_separate {readers : Readers P V} {fuel : Nat} {pre : Bytes}
    {f : IniFile} {confs : Confs P V}
    (hload : loadAllProxyConfsFromIni readers fuel pre f [] =
      some (.ok confs))
    (hseparate : Separate fuel f) :
    Kept readers fuel (dotted pre) f confs := by
  obtain ⟨f', hrender, hsections⟩ := load_cases hload
  have hext := extends_renderAll _
    (fun name hmem => List.mem_of_mem_filter hmem) hseparate.nodup
    hseparate.fresh hrender
  have hread : f'.names.filter isProxy = (expected fuel f).map Prod.fst := by
    rw [expected_names, hext.names, List.filter_append,
      List.filter_eq_self.mpr hseparate.isProxy_generated]
  refine ⟨hread ▸ f'.nodup.filter _, ?_⟩
  intro entry hentry
  have hkeys : f'.keys entry.1 = entry.2 := by
    rcases List.mem_append.mp hentry with hown | hgenerated
    · obtain ⟨name, hname, rfl⟩ := List.mem_map.mp hown
      exact hext.old name (List.mem_of_mem_filter hname)
    · exact hext.new entry hgenerated
  rw [← hkeys]
  exact loadSections_has (f'.nodup.filter _) hsections entry.1
    (hread ▸ List.mem_map_of_mem hentry)

/-- A range section that is not nested leaves all range sections as they are. -/
theorem keys_renderPorts {name other : Bytes}
    (hpre : isRange (templatePrefix name) = false)
    (hother : isRange other = true) (f : IniFile) (found : List (Int × Int)) :
    (renderPorts name f found).keys other = f.keys other := by
  rw [renderPorts]
  induction found.zipIdx generalizing f with
  | nil => rfl
  | cons port turns ih =>
      have hne : other ≠ templateName (templatePrefix name) port.2 := by
        intro heq
        rw [heq, isRange_templateName, hpre] at hother
        exact absurd hother (by decide)
      rw [List.foldl_cons, ih]
      by_cases hmem : templateName (templatePrefix name) port.2 ∈ f.names
      · simp [renderPort, IniFile.newSection, IniFile.setKeys, hmem, hne]
      · simp [renderPort, IniFile.newSection, IniFile.setKeys, hmem, hne]

/-- If no range section with ports is nested, then each is rendered with its own
keys, and so has ports. -/
theorem ports_ne_nil_of_renderAll {fuel : Nat} {f : IniFile}
    (names : List Bytes) {g g' : IniFile}
    (hnames : ∀ name ∈ names, isRange name = true)
    (hkeys : ∀ name, isRange name = true → g.keys name = f.keys name)
    (hflat : ∀ name ∈ names, ports fuel (f.keys name) ≠ [] →
      isRange (templatePrefix name) = false)
    (hrender : renderAll fuel g names = some (.ok g')) :
    ∀ name ∈ names, ports fuel (f.keys name) ≠ [] := by
  induction names generalizing g with
  | nil => exact fun _ hmem => absurd hmem List.not_mem_nil
  | cons name rest ih =>
      obtain ⟨g₁, hg₁, hports, hrest⟩ := renderAll_cons hrender
      rw [hkeys name (hnames name List.mem_cons_self)] at hports
      have hpre := hflat name List.mem_cons_self hports
      have hkept : ∀ other, isRange other = true →
          g₁.keys other = f.keys other := by
        intro other hother
        rw [hg₁, keys_renderPorts hpre hother, hkeys other hother]
      have hlater := ih
        (fun later hmem => hnames later (List.mem_cons_of_mem name hmem))
        hkept
        (fun later hmem => hflat later (List.mem_cons_of_mem name hmem))
        hrest
      intro later hmem
      rcases List.mem_cons.mp hmem with heq | hin
      · exact heq ▸ hports
      · exact hlater later hin

theorem mem_expected_names {fuel : Nat} {f : IniFile} {name : Bytes}
    (hname : name ∈ f.names) (hrange : isRange name = true) {i : Nat}
    (hi : i < (ports fuel (f.keys name)).length) :
    ∃ entry ∈ expected fuel f,
      entry.1 = templateName (templatePrefix name) i := by
  obtain ⟨entry, hentry, heq⟩ := List.mem_map.mp
    (mem_generated_names.mpr ⟨i, hi, rfl⟩)
  exact ⟨entry, List.mem_append_right _ (List.mem_flatMap.mpr
    ⟨name, List.mem_filter.mpr ⟨hname, hrange⟩, hentry⟩), heq⟩

theorem separate_of_kept {readers : Readers P V} {fuel : Nat} {pre : Bytes}
    {f : IniFile} {confs : Confs P V}
    (hload : loadAllProxyConfsFromIni readers fuel pre f [] =
      some (.ok confs))
    (hkept : Kept readers fuel (dotted pre) f confs) :
    Separate fuel f := by
  obtain ⟨f', hrender, hsections⟩ := load_cases hload
  have hflat : ∀ name ∈ f.names.filter isRange,
      ports fuel (f.keys name) ≠ [] →
        isRange (templatePrefix name) = false := by
    intro name hname hports
    obtain ⟨hin, hrange⟩ := List.mem_filter.mp hname
    obtain ⟨entry, hentry, hfirst⟩ := mem_expected_names hin hrange
      (List.length_pos_iff.mpr hports)
    obtain ⟨conf, -, hhas⟩ := hkept.holds entry hentry
    have hread := (List.mem_filter.mp (mem_of_has hsections hhas)).2
    rw [hfirst] at hread
    have hproxy : isRange (templateName (templatePrefix name) 0) = false := by
      simp only [isProxy, Bool.and_eq_true, Bool.not_eq_true'] at hread
      exact hread.2
    rw [isRange_templateName] at hproxy
    exact hproxy
  have hports := ports_ne_nil_of_renderAll _
    (fun name hname => (List.mem_filter.mp hname).2) (fun _ _ => rfl) hflat
    hrender
  have hdistinct := hkept.distinct
  rw [expected_names, List.nodup_append, List.map_flatMap,
    List.nodup_flatMap] at hdistinct
  obtain ⟨-, ⟨-, hpairwise⟩, hdisjoint⟩ := hdistinct
  have hunnested : ∀ name ∈ f.names, isRange name = true →
      isRange (templatePrefix name) = false := by
    intro name hin hrange
    have hname := List.mem_filter.mpr ⟨hin, hrange⟩
    exact hflat name hname (hports name hname)
  refine ⟨?_, hunnested, ?_⟩
  · -- both of two equal prefixes generate the name of the first index
    refine List.pairwise_map.mpr (hpairwise.imp_of_mem ?_)
    intro name name' hname hname' hsplit heq
    refine hsplit (a := templateName (templatePrefix name) 0) ?_ ?_
    · exact mem_generated_names.mpr
        ⟨0, List.length_pos_iff.mpr (hports name hname), rfl⟩
    · exact mem_generated_names.mpr
        ⟨0, List.length_pos_iff.mpr (hports name' hname'), by rw [heq]⟩
  · intro name hin hrange i hi hused
    have hproxy := isProxy_templateName (hunnested name hin hrange) i
    refine hdisjoint _ (List.mem_filter.mpr ⟨hused, hproxy⟩) _ ?_ rfl
    exact List.mem_flatMap.mpr ⟨name, List.mem_filter.mpr ⟨hin, hrange⟩,
      mem_generated_names.mpr ⟨i, hi, rfl⟩⟩

/-- No proxy is lost if and only if the generated names are all different, and
different from those of the file. -/
theorem kept_iff_separate (readers : Readers P V) (fuel : Nat) (pre : Bytes)
    (f : IniFile) (confs : Confs P V)
    (hload : loadAllProxyConfsFromIni readers fuel pre f [] =
      some (.ok confs)) :
    Kept readers fuel (dotted pre) f confs ↔ Separate fuel f :=
  ⟨separate_of_kept hload, kept_of_separate hload⟩

/-- Readers that keep the name and the two ports of a section. -/
def portReaders : Readers (Bytes × Bytes × Bytes) Bytes where
  newProxyConf pre name keys :=
    .ok (pre ++ name, keys.text "local_port", keys.text "remote_port")
  newVisitorConf pre name _ := .ok (pre ++ name)

def portKeys (localPort remotePort : String) : Keys :=
  (Keys.newKey (fun _ => none) "local_port" (ascii localPort)).newKey
    "remote_port" (ascii remotePort)

/-- A section of its own and a range of two ports. -/
def rangeOfTwo : IniFile where
  names := [ascii "common", ascii "ssh", ascii "range: web"]
  nodup := by decide
  keys name := if name = ascii "ssh" then portKeys "22" "6022"
    else portKeys "80-81" "8080,8090"

theorem kept_iff_separate_rangeOfTwo :
    ∃ confs, loadAllProxyConfsFromIni portReaders 3 (ascii "me") rangeOfTwo [] =
        some (.ok confs) ∧
      Kept portReaders 3 (dotted (ascii "me")) rangeOfTwo confs :=
  ⟨_, rfl, (kept_iff_separate portReaders 3 (ascii "me") rangeOfTwo _ rfl).mpr
    ⟨by decide, by decide, by decide⟩⟩

/-- A section that has the first of the names that the range section gives. -/
def nameInUse : IniFile where
  names := [ascii "web_0", ascii "range:web"]
  nodup := by decide
  keys name := if name = ascii "web_0" then portKeys "22" "6022"
    else portKeys "80" "8080"

/-- The file is accepted, the proxy of the section now has the ports of the range,
and there is no second one. -/
theorem not_kept_nameInUse :
    ∃ confs, loadAllProxyConfsFromIni portReaders 3 [] nameInUse [] =
        some (.ok confs) ∧
      confs.proxies (ascii "web_0") =
        some (ascii "web_0", ascii "80", ascii "8080") ∧
      ¬ Kept portReaders 3 (dotted []) nameInUse confs :=
  ⟨_, rfl, by decide, fun hkept => absurd hkept.distinct (by decide)⟩

end RangeSections

end Frp
