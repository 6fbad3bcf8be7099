/-
The server plugins: the lists and the hooks of `pkg/plugin/server/manager.go`,
five loops of one shape and one that collects errors, and the http plugin of
`pkg/plugin/server/http.go`.
-/
import Frp.Lib.GoStrings

namespace Frp

namespace Plugins

inductive Op where
  | login
  | newProxy
  | closeProxy
  | ping
  | newWorkConn
  | newUserConn
deriving DecidableEq, Repr

/-- The name that a request carries and that `ops` of a plugin lists. -/
def Op.text : Op → String
  | .login => "Login"
  | .newProxy => "NewProxy"
  | .closeProxy => "CloseProxy"
  | .ping => "Ping"
  | .newWorkConn => "NewWorkConn"
  | .newUserConn => "NewUserConn"

/-- What `T` gives is the content of each operation.  A value of type
`interface{}` carries its type along. -/
structure Content (T : Op → Type) where
  type : Op
  value : T type

structure Response (T : Op → Type) where
  reject : Bool
  rejectReason : String
  unchange : Bool
  /-- nil, or a pointer to a content -/
  content : Option (Content T)

/-- The type assertion on what `Handle` returned. -/
def Response.assert {T : Op → Type} (res : Response T) (op : Op) :
    Option (T op) :=
  match res.content with
  | none => none
  | some content =>
      if htype : content.type = op then some (htype ▸ content.value) else none

/-- A plugin acts on the world, in which it may keep a state. -/
structure Plugin (W : Type) (T : Op → Type) where
  name : String
  isSupport : Op → Bool
  handle : W → Op → Content T → W × Except String (Response T)

/-- A call of `Handle`. -/
structure Call (W : Type) (T : Op → Type) where
  plugin : Plugin W T
  op : Op
  content : Content T

inductive Outcome (C : Type) where
  | returned (content : C)
  | failed (err : String)
  | panicked

structure Result (W : Type) (T : Op → Type) (C : Type) where
  world : W
  outcome : Outcome C
  calls : List (Call W T)

variable {W : Type} {T : Op → Type}

def Result.after {C : Type} (result : Result W T C) (call : Call W T) :
    Result W T C :=
  { result with calls := call :: result.calls }

structure HTTPPluginOptions where
  name : String
  addr : String
  path : String
  ops : List String
  tlsVerify : Bool
deriving DecidableEq, Repr

structure Request (T : Op → Type) where
  version : String
  op : String
  content : Content T

def apiVersion : String := "0.1.0"

namespace HTTPPluginOptions

/-- An address without a scheme is one of http. -/
def url (options : HTTPPluginOptions) : String :=
  let url := options.addr ++ options.path
  if url.startsWith "https://" || url.startsWith "http://" then url
  else "http://" ++ url

def isSupport (options : HTTPPluginOptions) (op : Op) : Bool :=
  options.ops.any fun listed => listed = op.text

/-- The http plugin; `post` is the exchange of `do` with a server, to the point
where the answer is decoded. -/
def plugin (options : HTTPPluginOptions)
    (post : String → Bool → W → Request T → W × Except String (Response T)) :
    Plugin W T where
  name := options.name
  isSupport := options.isSupport
  handle world op content :=
    post options.url options.tlsVerify world ⟨apiVersion, op.text, content⟩

end HTTPPluginOptions

structure Manager (W : Type) (T : Op → Type) where
  loginPlugins : List (Plugin W T)
  newProxyPlugins : List (Plugin W T)
  closeProxyPlugins : List (Plugin W T)
  pingPlugins : List (Plugin W T)
  newWorkConnPlugins : List (Plugin W T)
  newUserConnPlugins : List (Plugin W T)

namespace Manager

def newManager : Manager W T := ⟨[], [], [], [], [], []⟩

def register (m : Manager W T) (p : Plugin W T) : Manager W T where
  loginPlugins :=
    if p.isSupport .login then m.loginPlugins ++ [p] else m.loginPlugins
  newProxyPlugins :=
    if p.isSupport .newProxy then m.newProxyPlugins ++ [p]
    else m.newProxyPlugins
  closeProxyPlugins :=
    if p.isSupport .closeProxy then m.closeProxyPlugins ++ [p]
    else m.closeProxyPlugins
  pingPlugins :=
    if p.isSupport .ping then m.pingPlugins ++ [p] else m.pingPlugins
  newWorkConnPlugins :=
    if p.isSupport .newWorkConn then m.newWorkConnPlugins ++ [p]
    else m.newWorkConnPlugins
  newUserConnPlugins :=
    if p.isSupport .newUserConn then m.newUserConnPlugins ++ [p]
    else m.newUserConnPlugins

/-- The plugins in the order in which they are registered. -/
def registerAll (ps : List (Plugin W T)) : Manager W T :=
  ps.foldl register newManager

/-- The loop that the hooks share: `asked` is the operation that the requests
name, `op` the one whose content they carry. -/
def chain (asked op : Op) (errText : String) :
    List (Plugin W T) → W → T op → Result W T (T op)
  | [], world, content => ⟨world, .returned content, []⟩
  | p :: ps, world, content =>
      let call : Call W T := ⟨p, asked, ⟨op, content⟩⟩
      match p.handle world asked ⟨op, content⟩ with
      | (next, .error _) => ⟨next, .failed errText, [call]⟩
      | (next, .ok res) =>
          if res.reject then ⟨next, .failed res.rejectReason, [call]⟩
          else if res.unchange then
            (chain asked op errText ps next content).after call
          else
            match res.assert op with
            | none => ⟨next, .panicked, [call]⟩
            | some content => (chain asked op errText ps next content).after call

def login (m : Manager W T) : W → T .login → Result W T (T .login) :=
  chain .login .login "send Login request to plugin error" m.loginPlugins

def newProxy (m : Manager W T) : W → T .newProxy → Result W T (T .newProxy) :=
  chain .newProxy .newProxy "send NewProxy request to plugin error"
    m.newProxyPlugins

def ping (m : Manager W T) : W → T .ping → Result W T (T .ping) :=
  chain .ping .ping "send Ping request to plugin error" m.pingPlugins

/-- The requests name Ping. -/
def newWorkConn (m : Manager W T) :
    W → T .newWorkConn → Result W T (T .newWorkConn) :=
  chain .ping .newWorkConn "send NewWorkConn request to plugin error"
    m.newWorkConnPlugins

def newUserConn (m : Manager W T) :
    W → T .newUserConn → Result W T (T .newUserConn) :=
  chain .newUserConn .newUserConn "send NewUserConn request to plugin error"
    m.newUserConnPlugins

/-- The loop of `CloseProxy`, which asks every plugin; the errors it collects. -/
def closeAll : List (Plugin W T) → W → T .closeProxy →
    W × List String × List (Call W T)
  | [], world, _ => (world, [], [])
  | p :: ps, world, content =>
      let answer := p.handle world .closeProxy ⟨.closeProxy, content⟩
      let rest := closeAll ps answer.1 content
      let errs :=
        match answer.2 with
        | .error err => ["[" ++ p.name ++ "]: " ++ err]
        | .ok _ => []
      (rest.1, errs ++ rest.2.1,
        ⟨p, .closeProxy, ⟨.closeProxy, content⟩⟩ :: rest.2.2)

def closeProxy (m : Manager W T) (world : W) (content : T .closeProxy) :
    Result W T Unit :=
  match closeAll m.closeProxyPlugins world content with
  | (next, [], calls) => ⟨next, .returned (), calls⟩
  | (next, errs, calls) =>
      ⟨next, .failed ("send CloseProxy request to plugin errors: " ++
        String.intercalate "; " errs), calls⟩

end Manager

/-- The hooks that may change their content. -/
inductive Hook where
  | login
  | newProxy
  | ping
  | newWorkConn
  | newUserConn
deriving DecidableEq, Repr

/-- The operation of a hook. -/
def Hook.op : Hook → Op
  | .login => .login
  | .newProxy => .newProxy
  | .ping => .ping
  | .newWorkConn => .newWorkConn
  | .newUserConn => .newUserConn

def Manager.run (m : Manager W T) :
    (hook : Hook) → W → T hook.op → Result W T (T hook.op)
  | .login => m.login
  | .newProxy => m.newProxy
  | .ping => m.ping
  | .newWorkConn => m.newWorkConn
  | .newUserConn => m.newUserConn

/-- What it is to compose plugins for an operation: each is asked with that
operation and the content as those before it left it, up to the first error or
rejection. -/
inductive Composes (op : Op) :
    List (Plugin W T) → W → T op → Result W T (T op) → Prop where
  | nil {world : W} {content : T op} :
      Composes op [] world content ⟨world, .returned content, []⟩
  | error {p : Plugin W T} {ps : List (Plugin W T)} {world next : W}
      {content : T op} {cause err : String} :
      p.handle world op ⟨op, content⟩ = (next, .error cause) →
      Composes op (p :: ps) world content
        ⟨next, .failed err, [⟨p, op, ⟨op, content⟩⟩]⟩
  | reject {p : Plugin W T} {ps : List (Plugin W T)} {world next : W}
      {content : T op} {res : Response T} {err : String} :
      p.handle world op ⟨op, content⟩ = (next, .ok res) → res.reject = true →
      Composes op (p :: ps) world content
        ⟨next, .failed err, [⟨p, op, ⟨op, content⟩⟩]⟩
  | unchange {p : Plugin W T} {ps : List (Plugin W T)} {world next : W}
      {content : T op} {res : Response T} {result : Result W T (T op)} :
      p.handle world op ⟨op, content⟩ = (next, .ok res) →
      res.reject = false → res.unchange = true →
      Composes op ps next content result →
      Composes op (p :: ps) world content
        (result.after ⟨p, op, ⟨op, content⟩⟩)
  | modify {p : Plugin W T} {ps : List (Plugin W T)} {world next : W}
      {content changed : T op} {res : Response T}
      {result : Result W T (T op)} :
      p.handle world op ⟨op, content⟩ = (next, .ok res) →
      res.reject = false → res.unchange = false →
      res.content = some ⟨op, changed⟩ →
      Composes op ps next changed result →
      Composes op (p :: ps) world content
        (result.after ⟨p, op, ⟨op, content⟩⟩)

/-- No plugin that is asked answers with a change and without a content of the
operation. -/
def Typed (op : Op) : List (Plugin W T) → W → T op → Prop
  | [], _, _ => True
  | p :: ps, world, content =>
      match p.handle world op ⟨op, content⟩ with
      | (_, .error _) => True
      | (next, .ok res) =>
          if res.reject then True
          else if res.unchange then Typed op ps next content
          else
            match res.assert op with
            | none => False
            | some content => Typed op ps next content

theorem Response.assert_eq_some_iff {res : Response T} {op : Op}
    {content : T op} :
    res.assert op = some content ↔ res.content = some ⟨op, content⟩ := by
  obtain ⟨reject, rejectReason, unchange, found⟩ := res
  cases found with
  | none => simp [assert]
  | some found =>
      obtain ⟨type, value⟩ := found
      by_cases htype : type = op
      · subst htype
        simp [assert]
      · simp [assert, htype]

theorem Result.after_injective {C : Type} {call : Call W T}
    {result other : Result W T C} (hsame : result.after call = other.after call) :
    result = other := by
  obtain ⟨world, outcome, calls⟩ := result
  obtain ⟨world', outcome', calls'⟩ := other
  simpa [Result.after] using hsame

namespace Composes

variable {op : Op} {p : Plugin W T} {ps : List (Plugin W T)} {world next : W}
  {content changed : T op} {res : Response T} {result : Result W T (T op)}

/-- After an answer that does not reject, the rest is composed. -/
theorem of_accept
    (hhandle : p.handle world op ⟨op, content⟩ = (next, .ok res))
    (hreject : res.reject = false) {whole : Result W T (T op)}
    (hcomposes : Composes op (p :: ps) world content whole) :
    ∃ result, whole = result.after ⟨p, op, ⟨op, content⟩⟩ ∧
      ((res.unchange = true ∧ Composes op ps next content result) ∨
        (res.unchange = false ∧ ∃ changed, res.content = some ⟨op, changed⟩ ∧
          Composes op ps next changed result)) := by
  cases hcomposes with
  | error hother =>
      rw [hhandle] at hother
      cases hother
  | reject hother hrejected =>
      rw [hhandle] at hother
      cases hother
      rw [hreject] at hrejected
      cases hrejected
  | unchange hother _ hunchange hrest =>
      rw [hhandle] at hother
      cases hother
      exact ⟨_, rfl, .inl ⟨hunchange, hrest⟩⟩
  | modify hother _ hmodify hcontent hrest =>
      rw [hhandle] at hother
      cases hother
      exact ⟨_, rfl, .inr ⟨hmodify, _, hcontent, hrest⟩⟩

/-- After an answer that changes nothing the rest is composed as it was. -/
theorem of_unchange
    (hhandle : p.handle world op ⟨op, content⟩ = (next, .ok res))
    (hreject : res.reject = false) (hunchange : res.unchange = true)
    (hcomposes : Composes op (p :: ps) world content
      (result.after ⟨p, op, ⟨op, content⟩⟩)) :
    Composes op ps next content result := by
  obtain ⟨rest, hafter, ⟨-, hrest⟩ | ⟨hmodify, -⟩⟩ :=
    of_accept hhandle hreject hcomposes
  · exact Result.after_injective hafter ▸ hrest
  · rw [hunchange] at hmodify
    cases hmodify

/-- After an answer that changes the content there is one, and the rest is
composed with it. -/
theorem of_modify
    (hhandle : p.handle world op ⟨op, content⟩ = (next, .ok res))
    (hreject : res.reject = false) (hmodify : res.unchange = false)
    {whole : Result W T (T op)}
    (hcomposes : Composes op (p :: ps) world content whole) :
    ∃ changed result, res.content = some ⟨op, changed⟩ ∧
      whole = result.after ⟨p, op, ⟨op, content⟩⟩ ∧
      Composes op ps next changed result := by
  obtain ⟨rest, hafter, ⟨hunchange, -⟩ | ⟨-, changed, hcontent, hrest⟩⟩ :=
    of_accept hhandle hreject hcomposes
  · rw [hmodify] at hunchange
    cases hunchange
  · exact ⟨changed, rest, hcontent, hafter, hrest⟩

/-- Whatever is asked is asked with the operation. -/
theorem op_eq (hcomposes : Composes op ps world content result) :
    ∀ call ∈ result.calls, call.op = op := by
  induction hcomposes with
  | nil => exact nofun
  | error _ | reject _ _ =>
      intro call hcall
      obtain rfl := List.mem_singleton.mp hcall
      rfl
  | unchange _ _ _ _ ih | modify _ _ _ _ _ ih =>
      intro call hcall
      rcases List.mem_cons.mp hcall with rfl | hrest
      · rfl
      · exact ih call hrest

/-- The plugins are asked in their order, and all of them before the content is
returned. -/
theorem plugins_prefix (hcomposes : Composes op ps world content result) :
    result.calls.map Call.plugin <+: ps ∧
      ∀ final, result.outcome = .returned final →
        result.calls.map Call.plugin = ps := by
  induction hcomposes with
  | nil => exact ⟨List.prefix_rfl, fun _ _ => rfl⟩
  | error _ | reject _ _ =>
      refine ⟨?_, nofun⟩
      exact List.prefix_cons_inj _ |>.mpr List.nil_prefix
  | unchange _ _ _ _ ih | modify _ _ _ _ _ ih =>
      refine ⟨List.prefix_cons_inj _ |>.mpr ih.1, ?_⟩
      intro final hfinal
      exact congrArg _ (ih.2 final hfinal)

end Composes

open Manager

/-- A loop that asks with the operation of its content composes the plugins
unless an answer lacks its content. -/
theorem composes_chain_iff (op : Op) (errText : String) (ps : List (Plugin W T))
    (world : W) (content : T op) :
    Composes op ps world content (chain op op errText ps world content) ↔
      Typed op ps world content := by
  induction ps generalizing world content with
  | nil => exact iff_of_true .nil trivial
  | cons p ps ih =>
      cases hhandle : p.handle world op ⟨op, content⟩ with
      | mk next answer =>
        cases answer with
        | error cause =>
            simp only [chain, Typed, hhandle]
            exact iff_of_true (.error hhandle) trivial
        | ok res =>
            simp only [chain, Typed, hhandle]
            cases hreject : res.reject with
            | true => exact iff_of_true (.reject hhandle hreject) trivial
            | false =>
                cases hunchange : res.unchange with
                | true =>
                    simp only [Bool.false_eq_true, if_false, if_true]
                    rw [← ih next content]
                    exact ⟨Composes.of_unchange hhandle hreject hunchange,
                      .unchange hhandle hreject hunchange⟩
                | false =>
                    simp only [Bool.false_eq_true, if_false]
                    cases hassert : res.assert op with
                    | none =>
                        refine iff_of_false ?_ id
                        intro hcomposes
                        obtain ⟨changed, _, hcontent, -⟩ :=
                          hcomposes.of_modify hhandle hreject hunchange
                        rw [Response.assert_eq_some_iff.mpr hcontent] at hassert
                        cases hassert
                    | some changed =>
                        have hcontent := Response.assert_eq_some_iff.mp hassert
                        simp only
                        rw [← ih next changed]
                        constructor
                        · intro hcomposes
                          obtain ⟨found, _, hfound, hafter, hrest⟩ :=
                            hcomposes.of_modify hhandle hreject hunchange
                          rw [hcontent, Option.some.injEq] at hfound
                          cases hfound
                          exact Result.after_injective hafter ▸ hrest
                        · exact .modify hhandle hreject hunchange hcontent

/-- A loop that asks with another operation composes no plugin. -/
theorem not_composes_chain {asked op : Op} (hasked : asked ≠ op)
    (errText : String) (p : Plugin W T) (ps : List (Plugin W T)) (world : W)
    (content : T op) :
    ¬ Composes op (p :: ps) world content
      (chain asked op errText (p :: ps) world content) := by
  intro hcomposes
  have hfirst : (⟨p, asked, ⟨op, content⟩⟩ : Call W T) ∈
      (chain asked op errText (p :: ps) world content).calls := by
    unfold chain
    split
    · exact List.mem_singleton_self _
    · split
      · exact List.mem_singleton_self _
      · split
        · exact List.mem_cons_self
        · split
          · exact List.mem_singleton_self _
          · exact List.mem_cons_self
  exact hasked (hcomposes.op_eq _ hfirst)

namespace Manager

/-- The list of an operation. -/
def pluginsOf (m : Manager W T) : Op → List (Plugin W T)
  | .login => m.loginPlugins
  | .newProxy => m.newProxyPlugins
  | .closeProxy => m.closeProxyPlugins
  | .ping => m.pingPlugins
  | .newWorkConn => m.newWorkConnPlugins
  | .newUserConn => m.newUserConnPlugins

theorem pluginsOf_register (m : Manager W T) (p : Plugin W T) (op : Op) :
    (m.register p).pluginsOf op =
      m.pluginsOf op ++ [p].filter fun p => p.isSupport op := by
  cases op <;> (simp only [register, pluginsOf]; split <;> simp [*])

theorem pluginsOf_registerAll (ps : List (Plugin W T)) (op : Op) :
    (registerAll ps).pluginsOf op = ps.filter fun p => p.isSupport op := by
  have hfold : ∀ m : Manager W T, (ps.foldl register m).pluginsOf op =
      m.pluginsOf op ++ ps.filter fun p => p.isSupport op := by
    induction ps with
    | nil => simp
    | cons p ps ih =>
        intro m
        rw [List.foldl_cons, ih, pluginsOf_register, List.append_assoc,
          ← List.filter_append, List.singleton_append]
  rw [registerAll, hfold]
  cases op <;> rfl

/-- A loop asks only the plugins of its list, with the operation it is given. -/
theorem of_mem_chain {asked op : Op} {errText : String} {ps : List (Plugin W T)}
    {world : W} {content : T op} {call : Call W T}
    (hcall : call ∈ (chain asked op errText ps world content).calls) :
    call.plugin ∈ ps ∧ call.op = asked := by
  induction ps generalizing world content with
  | nil => cases hcall
  | cons p ps ih =>
      have hfirst : ∀ call ∈ [(⟨p, asked, ⟨op, content⟩⟩ : Call W T)],
          call.plugin ∈ p :: ps ∧ call.op = asked := by
        intro call hcall
        obtain rfl := List.mem_singleton.mp hcall
        exact ⟨List.mem_cons_self, rfl⟩
      have hafter : ∀ next changed, call ∈ ((chain asked op errText ps next
          changed).after ⟨p, asked, ⟨op, content⟩⟩).calls →
            call.plugin ∈ p :: ps ∧ call.op = asked := by
        intro next changed hcall
        rcases List.mem_cons.mp hcall with rfl | hrest
        · exact ⟨List.mem_cons_self, rfl⟩
        · obtain ⟨hmem, hop⟩ := ih hrest
          exact ⟨List.mem_cons_of_mem p hmem, hop⟩
      unfold chain at hcall
      split at hcall
      · exact hfirst call hcall
      · split at hcall
        · exact hfirst call hcall
        · split at hcall
          · exact hafter _ _ hcall
          · split at hcall
            · exact hfirst call hcall
            · exact hafter _ _ hcall

/-- `CloseProxy` asks every plugin of its list, whatever those before it have
answered, and all of them with the same content. -/
theorem calls_closeAll (ps : List (Plugin W T)) (world : W)
    (content : T .closeProxy) :
    (closeAll ps world content).2.2 =
      ps.map fun p => ⟨p, .closeProxy, ⟨.closeProxy, content⟩⟩ := by
  induction ps generalizing world with
  | nil => rfl
  | cons p ps ih => simp only [closeAll, ih, List.map_cons]

theorem calls_closeProxy (ps : List (Plugin W T)) (world : W)
    (content : T .closeProxy) :
    ((registerAll ps).closeProxy world content).calls =
      (ps.filter fun p => p.isSupport .closeProxy).map
        fun p => ⟨p, .closeProxy, ⟨.closeProxy, content⟩⟩ := by
  rw [← pluginsOf_registerAll, closeProxy]
  have hcalls := calls_closeAll (registerAll ps).closeProxyPlugins world content
  split
  · next hclose =>
      rw [hclose] at hcalls
      exact hcalls
  · next hclose =>
      rw [hclose] at hcalls
      exact hcalls

/-- What the hooks send to http plugins: a request goes to one whose `ops` list
the operation, and names it; only those for a work connection name Ping. -/
theorem requests_run
    {post : String → Bool → W → Request T → W × Except String (Response T)}
    {options : List HTTPPluginOptions} {hook : Hook} {world : W}
    {content : T hook.op} {call : Call W T}
    (hcall : call ∈ ((registerAll (options.map fun o => o.plugin post)).run hook
      world content).calls) :
    ∃ o ∈ options, hook.op.text ∈ o.ops ∧ call.plugin = o.plugin post ∧
      (∀ world, call.plugin.handle world call.op call.content =
        post o.url o.tlsVerify world
          ⟨apiVersion, call.op.text, call.content⟩) ∧
      call.op.text = if hook = .newWorkConn then "Ping" else hook.op.text := by
  obtain ⟨hmem, hop⟩ : call.plugin ∈ (registerAll (options.map
      fun o => o.plugin post)).pluginsOf hook.op ∧
        call.op = if hook = .newWorkConn then .ping else hook.op := by
    cases hook <;> exact of_mem_chain hcall
  rw [pluginsOf_registerAll, List.mem_filter] at hmem
  obtain ⟨hplugin, hsupport⟩ := hmem
  obtain ⟨o, ho, hsame⟩ := List.mem_map.mp hplugin
  refine ⟨o, ho, ?_, hsame.symm, ?_, ?_⟩
  · rw [← hsame] at hsupport
    obtain ⟨listed, hlisted, hname⟩ := List.any_eq_true.mp hsupport
    exact of_decide_eq_true hname ▸ hlisted
  · intro world
    rw [← hsame]
    rfl
  · rw [hop]
    split <;> rfl

end Manager

/-- A hook composes the plugins that support its operation if and only if no
answer lacks its content and, for NewWorkConn, there is none to ask. -/
theorem composes_run_iff (ps : List (Plugin W T)) (hook : Hook) (world : W)
    (content : T hook.op) :
    Composes hook.op (ps.filter fun p => p.isSupport hook.op) world content
        ((registerAll ps).run hook world content) ↔
      (hook = .newWorkConn → ∀ p ∈ ps, p.isSupport .newWorkConn = false) ∧
        Typed hook.op (ps.filter fun p => p.isSupport hook.op) world
          content := by
  rw [← pluginsOf_registerAll]
  cases hook with
  | login | newProxy | ping | newUserConn =>
      refine (composes_chain_iff _ _ _ world content).trans ?_
      simp [Hook.op, Manager.pluginsOf]
  | newWorkConn =>
      have hfilter := pluginsOf_registerAll ps .newWorkConn
      change Composes .newWorkConn (registerAll ps).newWorkConnPlugins world
          content (chain .ping .newWorkConn _
            (registerAll ps).newWorkConnPlugins world content) ↔
        _ ∧ Typed .newWorkConn (registerAll ps).newWorkConnPlugins world content
      rw [pluginsOf] at hfilter
      cases hlist : (registerAll ps).newWorkConnPlugins with
      | nil =>
          rw [hlist, eq_comm, List.filter_eq_nil_iff] at hfilter
          refine iff_of_true .nil ⟨?_, trivial⟩
          exact fun _ p hp => Bool.eq_false_iff.mpr (hfilter p hp)
      | cons p rest =>
          rw [hlist] at hfilter
          refine iff_of_false (not_composes_chain (by decide) _ p rest world _) ?_
          rintro ⟨hnone, -⟩
          have hp : p ∈ ps.filter fun p => p.isSupport .newWorkConn := by
            rw [← hfilter]
            exact List.mem_cons_self
          obtain ⟨hmem, hsupport⟩ := List.mem_filter.mp hp
          rw [hnone rfl p hmem] at hsupport
          cases hsupport

/-- A policy for new work connections, which rejects whatever else it is asked. -/
def workConnPolicy : Plugin Unit fun _ => String where
  name := "policy"
  isSupport op := decide (op = .newWorkConn)
  handle world op content :=
    if op = .newWorkConn then (world, .ok ⟨false, "", true, some content⟩)
    else (world, .ok ⟨true, "not supported", false, none⟩)

/-- The policy is asked for a Ping. -/
theorem not_composes_workConnPolicy :
    ¬ ∀ (ps : List (Plugin Unit fun _ => String)) (hook : Hook) (world : Unit)
      (content : String),
      Composes hook.op (ps.filter fun p => p.isSupport hook.op) world content
        ((registerAll ps).run hook world content) := by
  intro hclaim
  have hcomposes := hclaim [workConnPolicy] .newWorkConn () "run id"
  have hfirst := hcomposes.op_eq ⟨workConnPolicy, .ping, ⟨.newWorkConn, "run id"⟩⟩
    List.mem_cons_self
  cases hfirst

end Plugins

end Frp
