/-
The proxies of frps with the listeners for visitors: the `Run` and `Close` of
`server/proxy/stcp.go` and `server/proxy/sudp.go` in the steps of the Controls,
and the connections of visitors in between.
-/
import Frp.Server.ProxyNames
import Frp.Server.VisitorManager

namespace Frp

open Transition

inductive ProxyKind where
  | stcp
  | sudp
  | xtcp
  | other
deriving DecidableEq, Repr

/-- The kinds whose `Run` listens for visitors. -/
def ProxyKind.secret : ProxyKind → Bool
  | .stcp | .sudp => true
  | .xtcp | .other => false

namespace Visitors

structure State where
  base : NatHole.State
  kinds : Nat → ProxyKind
  vm : VisitorManager

/-- The steps of the Controls, `closeBase` being `BaseProxy.Close` in the `Close`
of a proxy; a visitor that comes; and an `Accept` of the proxy. -/
inductive Action where
  | create (c i : Nat) (name : String) (kind : ProxyKind) (sk : String)
  | run (c : Nat) (success : Bool)
  | closeBase (c : Nat)
  | advance (c : Nat)
  | panic (c : Nat)
  | closeProxy (c : Nat) (name : String)
  | stop (c : Nat)
  | stopNext (c : Nat) (name : String)
  | newConn (conn : Nat) (m : NewVisitorConn)
      (withEncryption : Except String Unit)
  | accept (i : Nat)

def init : State := ⟨NatHole.init, fun _ => .other, .newManager⟩

/-- A proxy in the rollback of `RegisterProxy` or in `CloseProxy` or the stoper is
about to be closed. -/
def closes : ProxyPc → Bool
  | .rejected | .closing => true
  | .unused | .created | .ran | .added | .registered | .closed | .abandoned
  | .gone => false

namespace State

def name (s : State) (i : Nat) : String := (s.base.heap i).name

def sk (s : State) (i : Nat) : String := (s.base.heap i).sk

def secret (s : State) (i : Nat) : Bool := (s.kinds i).secret

/-- A step of the Controls that the visitor manager has no part in. -/
def lift (s : State) (action : NatHole.Action) : Option State :=
  (NatHole.step s.base action).map fun base => { s with base := base }

def setListener (s : State) (i : Nat) (l : CustomListener) : State :=
  { s with vm := { s.vm with
      listeners := Function.update s.vm.listeners i l } }

end State

/-- `Run` of a stcp or sudp proxy fails if `Listen` does, and its `Close` goes on
to `CloseListener` when `BaseProxy.Close` has closed the listener, which does not
panic. -/
def step (md5 : String → List UInt8) (s : State) : Action → Option State
  | .create c i name kind sk =>
      { s with kinds := Function.update s.kinds i kind }.lift
        (.create c i name (decide (kind = ProxyKind.xtcp)) sk)
  | .run c success =>
      match (s.base.controls c).busy with
      | none => none
      | some i =>
          if s.secret i && success then
            match s.vm.listen (s.name i) (s.sk i) i with
            | .error _ => s.lift (.run c false)
            | .ok vm => { s with vm := vm }.lift (.run c true)
          else s.lift (.run c success)
  | .closeBase c =>
      match (s.base.controls c).busy with
      | none => none
      | some i =>
          if s.secret i && closes (s.base.heap i).pc then
            some (s.setListener i (s.vm.listeners i).close)
          else none
  | .advance c =>
      match (s.base.controls c).busy with
      | none => none
      | some i =>
          if s.secret i && closes (s.base.heap i).pc then
            if (s.vm.listeners i).closed then
              { s with vm := s.vm.closeListener (s.name i) }.lift (.advance c)
            else none
          else s.lift (.advance c)
  | .panic c =>
      match (s.base.controls c).busy with
      | none => none
      | some i => if s.secret i then none else s.lift (.panic c)
  | .closeProxy c name => s.lift (.closeProxy c name)
  | .stop c => s.lift (.stop c)
  | .stopNext c name => s.lift (.stopNext c name)
  | .newConn conn m withEncryption =>
      some { s with vm := (s.vm.newConn md5 conn m withEncryption).1 }
  | .accept i =>
      match (s.vm.listeners i).accept with
      | none => none
      | some (l, _) => some (s.setListener i l)

def system (md5 : String → List UInt8) : System State Action where
  start := init
  step := step md5

/-- The Controls with the visitor manager in the place of the client table, and
the stcp and sudp proxies in that of the xtcp proxies. -/
def view (base : NatHole.State) (kinds : Nat → ProxyKind)
    (vm : VisitorManager) : NatHole.State where
  clientCfgs name := (vm.visitorListeners name).map fun i =>
    ⟨name, (vm.skMap name).getD "", i⟩
  pxys := base.pxys
  heap i := { base.heap i with xtcp := (kinds i).secret }
  controls := base.controls

namespace State

abbrev seen (s : State) : NatHole.State := view s.base s.kinds s.vm

end State

section View

variable (base : NatHole.State) (kinds : Nat → ProxyKind) (vm : VisitorManager)

theorem view_setProxy (i : Nat) (pxy : ServerProxy) (kind : ProxyKind) :
    view (base.setProxy i pxy) (Function.update kinds i kind) vm =
      (view base kinds vm).setProxy i { pxy with xtcp := kind.secret } := by
  simp only [view, NatHole.State.setProxy, NatHole.State.mk.injEq, true_and,
    and_true]
  funext j
  by_cases hsame : j = i
  · simp [hsame]
  · simp [hsame]

theorem view_setPc (i : Nat) (pc : ProxyPc) :
    view (base.setPc i pc) kinds vm = (view base kinds vm).setPc i pc := by
  have hset := view_setProxy base kinds vm i { base.heap i with pc := pc }
    (kinds i)
  rw [Function.update_eq_self] at hset
  exact hset

theorem view_setControl (c : Nat) (ctl : ServerControl) :
    view (base.setControl c ctl) kinds vm =
      (view base kinds vm).setControl c ctl := rfl

theorem view_setBusy (c : Nat) (busy : Option Nat) :
    view (base.setBusy c busy) kinds vm =
      (view base kinds vm).setBusy c busy := rfl

theorem view_setPxy (name : String) (value : Option Nat) :
    view (base.setPxy name value) kinds vm =
      (view base kinds vm).setPxy name value := rfl

theorem view_remember (c i : Nat) :
    view (base.remember c i) kinds vm = (view base kinds vm).remember c i :=
  rfl

theorem view_forget (c : Nat) (name : String) :
    view (base.forget c name) kinds vm = (view base kinds vm).forget c name := by
  unfold NatHole.State.forget
  cases hstopping : (base.controls c).stopping with
  | true =>
      have hseen : ((view base kinds vm).controls c).stopping = true := hstopping
      rw [if_pos rfl, if_pos hseen]
  | false =>
      have hseen : ¬ ((view base kinds vm).controls c).stopping = true := by
        simpa [view] using hstopping
      rw [if_neg Bool.false_ne_true, if_neg hseen]
      rfl

/-- The client table of the xtcp proxies is out of view. -/
theorem view_runProxy (i : Nat) :
    view (base.runProxy i) kinds vm = view base kinds vm := by
  unfold NatHole.State.runProxy
  split <;> rfl

theorem view_closeProxy (i : Nat) :
    view (base.closeProxy i) kinds vm = view base kinds vm := by
  unfold NatHole.State.closeProxy
  split <;> rfl

theorem view_closeListener (name : String) :
    view base kinds (vm.closeListener name) =
      (view base kinds vm).closeClient name := by
  simp only [view, NatHole.State.closeClient, VisitorManager.closeListener,
    NatHole.State.mk.injEq, and_true]
  funext other
  by_cases hsame : other = name
  · simp [hsame]
  · simp [hsame]

theorem view_listen {vm' : VisitorManager} {name sk : String} {l : Nat}
    (hlisten : vm.listen name sk l = .ok vm') :
    vm.visitorListeners name = none ∧
      view base kinds vm' = (view base kinds vm).listenClient name sk l := by
  unfold VisitorManager.listen at hlisten
  cases hfree : vm.visitorListeners name with
  | some other => simp [hfree] at hlisten
  | none =>
      simp only [hfree, Except.ok.injEq] at hlisten
      subst hlisten
      refine ⟨rfl, ?_⟩
      simp only [view, NatHole.State.listenClient, NatHole.State.mk.injEq,
        and_true]
      funext other
      by_cases hsame : other = name
      · simp [hsame]
      · simp [hsame]

@[simp] theorem view_controls :
    (view base kinds vm).controls = base.controls := rfl

@[simp] theorem view_pxys : (view base kinds vm).pxys = base.pxys := rfl

@[simp] theorem view_pc (i : Nat) :
    ((view base kinds vm).heap i).pc = (base.heap i).pc := rfl

@[simp] theorem view_name (i : Nat) :
    ((view base kinds vm).heap i).name = (base.heap i).name := rfl

@[simp] theorem view_xtcp (i : Nat) :
    ((view base kinds vm).heap i).xtcp = (kinds i).secret := rfl

variable {base kinds vm} {base' : NatHole.State} {c i : Nat}

/-- A registration that comes to an end before the proxy listens. -/
theorem step_run_false (hstep : NatHole.step base (.run c false) = some base') :
    NatHole.step (view base kinds vm) (.run c false) =
      some (view base' kinds vm) := by
  cases hbusy : (base.controls c).busy with
  | none => simp [NatHole.step, hbusy] at hstep
  | some i =>
      simp only [NatHole.step, hbusy, Option.ite_none_right_eq_some,
        Bool.false_eq_true, if_false, Option.some.injEq] at hstep
      obtain ⟨hcreated, rfl⟩ := hstep
      rw [view_setPc, view_setBusy]
      simp [NatHole.step, hbusy, hcreated]

/-- `Run` of a proxy, with what it does to the visitor manager. -/
theorem step_run_true {vm' : VisitorManager}
    (hstep : NatHole.step base (.run c true) = some base')
    (hbusy : (base.controls c).busy = some i)
    (hvm : view base kinds vm' = (view base kinds vm).runProxy i) :
    NatHole.step (view base kinds vm) (.run c true) =
      some (view base' kinds vm') := by
  simp only [NatHole.step, hbusy, Option.ite_none_right_eq_some, if_true,
    Option.some.injEq] at hstep
  obtain ⟨hcreated, rfl⟩ := hstep
  rw [view_setPc, view_runProxy, hvm]
  simp [NatHole.step, hbusy, hcreated]

/-- The next step of a Control, with what it does to the visitor manager if it
closes the proxy. -/
theorem step_advance {vm' : VisitorManager}
    (hstep : NatHole.step base (.advance c) = some base')
    (hbusy : (base.controls c).busy = some i)
    (hvm : view base kinds vm' =
      if closes (base.heap i).pc then (view base kinds vm).closeProxy i
      else view base kinds vm) :
    NatHole.step (view base kinds vm) (.advance c) =
      some (view base' kinds vm') := by
  simp only [NatHole.step, hbusy, view_controls] at hstep ⊢
  cases NatHole.State.advances_of_advance hstep with
  | reject hran htaken =>
      rw [hran] at hvm
      rw [view_setPc, hvm]
      simp [NatHole.State.advance, hran, htaken, closes]
  | add hran hfree =>
      rw [hran] at hvm
      rw [view_setPc, view_setPxy, hvm]
      simp [NatHole.State.advance, hran, hfree, closes]
  | register hadded =>
      rw [hadded] at hvm
      rw [view_setPc, view_setBusy, view_remember, hvm]
      simp [NatHole.State.advance, hadded, closes]
  | giveUp hrejected =>
      rw [hrejected] at hvm
      rw [view_setPc, view_setBusy, view_closeProxy, hvm]
      simp [NatHole.State.advance, hrejected, closes]
  | close hclosing =>
      rw [hclosing] at hvm
      rw [view_setPc, view_closeProxy, hvm]
      simp [NatHole.State.advance, hclosing, closes]
  | del hclosed =>
      rw [hclosed] at hvm
      rw [view_setPc, view_setBusy, view_forget, view_setPxy, hvm]
      simp [NatHole.State.advance, hclosed, closes]

theorem view_abort (c : Nat) (site : CloseSite) :
    view (base.abort c site) kinds vm = (view base kinds vm).abort c site :=
  rfl

/-- A `Close` that panics is none of a stcp or sudp proxy. -/
theorem step_panic (hstep : NatHole.step base (.panic c) = some base')
    (hbusy : (base.controls c).busy = some i)
    (hother : (kinds i).secret = false) :
    NatHole.step (view base kinds vm) (.panic c) =
      some (view base' kinds vm) := by
  simp only [NatHole.step, hbusy, NatHole.State.panic,
    Option.ite_none_left_eq_some] at hstep
  obtain ⟨_, hnext⟩ := hstep
  cases hpc : (base.heap i).pc with
  | created | rejected =>
      simp only [hpc, Option.some.injEq] at hnext
      subst hnext
      rw [view_setPc, view_abort]
      simp [NatHole.step, NatHole.State.panic, hbusy, hpc, hother]
  | closing =>
      simp only [hpc, Option.some.injEq] at hnext
      subst hnext
      rw [view_setPc, view_abort]
      simp only [NatHole.step, NatHole.State.panic, view_controls, hbusy,
        view_xtcp, hother, Bool.false_eq_true, if_false, view_pc, hpc]
      rfl
  | unused | ran | added | registered | closed | abandoned | gone =>
      simp [hpc] at hnext

theorem step_create {name sk : String} {kind : ProxyKind} {xtcp : Bool}
    (hstep : NatHole.step base (.create c i name xtcp sk) = some base') :
    NatHole.step (view base kinds vm) (.create c i name kind.secret sk) =
      some (view base' (Function.update kinds i kind) vm) := by
  simp only [NatHole.step, Option.ite_none_right_eq_some,
    Option.some.injEq] at hstep
  obtain ⟨hguard, rfl⟩ := hstep
  rw [view_setBusy, view_setProxy]
  simp [NatHole.step, hguard]

theorem step_closeProxy {name : String}
    (hstep : NatHole.step base (.closeProxy c name) = some base') :
    NatHole.step (view base kinds vm) (.closeProxy c name) =
      some (view base' kinds vm) := by
  simp only [NatHole.step, Option.ite_none_right_eq_some] at hstep
  obtain ⟨hguard, hfound⟩ := hstep
  cases hentry : (base.controls c).proxies name with
  | none => simp [hentry] at hfound
  | some i =>
      simp only [hentry, Option.some.injEq] at hfound
      subst hfound
      rw [view_setPc, view_setBusy]
      simp [NatHole.step, hguard, hentry]

theorem step_stop (hstep : NatHole.step base (.stop c) = some base') :
    NatHole.step (view base kinds vm) (.stop c) =
      some (view base' kinds vm) := by
  simp only [NatHole.step, Option.ite_none_right_eq_some,
    Option.some.injEq] at hstep
  obtain ⟨hguard, rfl⟩ := hstep
  rw [view_setControl]
  simp [NatHole.step, hguard]

theorem step_stopNext {name : String}
    (hstep : NatHole.step base (.stopNext c name) = some base') :
    NatHole.step (view base kinds vm) (.stopNext c name) =
      some (view base' kinds vm) := by
  simp only [NatHole.step, Option.ite_none_right_eq_some] at hstep
  obtain ⟨hguard, hfound⟩ := hstep
  cases hentry : (base.controls c).proxies name with
  | none => simp [hentry] at hfound
  | some i =>
      simp only [hentry, Option.some.injEq] at hfound
      subst hfound
      rw [view_setPc, view_setControl]
      simp [NatHole.step, hguard, hentry]

end View

namespace State

variable {md5 : String → List UInt8} {s s' : State} {action : Action}

theorem lift_eq_some {act : NatHole.Action} :
    s.lift act = some s' ↔ ∃ base, NatHole.step s.base act = some base ∧
      { s with base := base } = s' := Option.map_eq_some_iff

/-- A `Run` is seen as a permitted one, since `Listen` finds no entry when it
succeeds. -/
theorem simulates_run {c : Nat} {success : Bool}
    (hstep : Visitors.step md5 s (.run c success) = some s') :
    ∃ act, NatHole.Permitted s.seen act ∧
      NatHole.step s.seen act = some s'.seen := by
  cases hbusy : (s.base.controls c).busy with
  | none => simp [Visitors.step, hbusy] at hstep
  | some i =>
      simp only [Visitors.step, hbusy] at hstep
      split at hstep
      · next hruns =>
          obtain ⟨hsecret, _⟩ := Bool.and_eq_true_iff.mp hruns
          split at hstep
          · obtain ⟨base, hbase, rfl⟩ := lift_eq_some.mp hstep
            exact ⟨.run c false, trivial, step_run_false hbase⟩
          · next vm hlisten =>
              obtain ⟨base, hbase, rfl⟩ := lift_eq_some.mp hstep
              obtain ⟨hfree, hvm⟩ := view_listen s.base s.kinds s.vm hlisten
              refine ⟨.run c true, ?_, step_run_true hbase hbusy ?_⟩
              · intro j hj _
                obtain rfl := Option.some.inj (hbusy.symm.trans hj)
                simpa [view, State.name] using hfree
              · have hseen : (s.seen.heap i).xtcp = true := hsecret
                rw [hvm, NatHole.State.runProxy, if_pos hseen]
                rfl
      · next hruns =>
          obtain ⟨base, hbase, rfl⟩ := lift_eq_some.mp hstep
          cases success with
          | false =>
              exact ⟨.run c false, trivial, step_run_false hbase⟩
          | true =>
              have hother : s.secret i = false := by simpa using hruns
              refine ⟨.run c true, ?_, step_run_true hbase hbusy ?_⟩
              · intro j hj hsecret
                obtain rfl := Option.some.inj (hbusy.symm.trans hj)
                rw [view_xtcp] at hsecret
                rw [State.secret, hsecret] at hother
                cases hother
              · have hseen : ¬ (s.seen.heap i).xtcp = true := by
                  simpa [State.secret] using hother
                rw [NatHole.State.runProxy, if_neg hseen]

/-- A Control that goes on closes the listener of a secret proxy with it. -/
theorem advance_cases {c : Nat}
    (hstep : Visitors.step md5 s (.advance c) = some s') :
    ∃ i, (s.base.controls c).busy = some i ∧
      ((s.secret i = true ∧ closes (s.base.heap i).pc = true ∧
        State.lift { s with vm := s.vm.closeListener (s.name i) }
          (.advance c) = some s') ∨
      (¬ (s.secret i = true ∧ closes (s.base.heap i).pc = true) ∧
        s.lift (.advance c) = some s')) := by
  cases hbusy : (s.base.controls c).busy with
  | none => simp [Visitors.step, hbusy] at hstep
  | some i =>
      refine ⟨i, rfl, ?_⟩
      simp only [Visitors.step, hbusy] at hstep
      split at hstep
      · next hcloses =>
          obtain ⟨hsecret, hpc⟩ := Bool.and_eq_true_iff.mp hcloses
          rw [Option.ite_none_right_eq_some] at hstep
          exact Or.inl ⟨hsecret, hpc, hstep.2⟩
      · next hcloses =>
          rw [Bool.and_eq_true_iff] at hcloses
          exact Or.inr ⟨hcloses, hstep⟩

theorem simulates_advance {c : Nat}
    (hstep : Visitors.step md5 s (.advance c) = some s') :
    ∃ act, NatHole.Permitted s.seen act ∧
      NatHole.step s.seen act = some s'.seen := by
  obtain ⟨i, hbusy, ⟨hsecret, hpc, hlift⟩ | ⟨hcloses, hlift⟩⟩ :=
    advance_cases hstep
  · obtain ⟨base, hbase, rfl⟩ := lift_eq_some.mp hlift
    refine ⟨.advance c, trivial, step_advance hbase hbusy ?_⟩
    have hseen : (s.seen.heap i).xtcp = true := hsecret
    rw [if_pos hpc, view_closeListener, NatHole.State.closeProxy,
      if_pos hseen]
    rfl
  · obtain ⟨base, hbase, rfl⟩ := lift_eq_some.mp hlift
    refine ⟨.advance c, trivial, step_advance hbase hbusy ?_⟩
    by_cases hpc : closes (s.base.heap i).pc = true
    · have hseen : ¬ (s.seen.heap i).xtcp = true := by
        intro hsecret
        exact hcloses ⟨hsecret, hpc⟩
      rw [if_pos hpc, NatHole.State.closeProxy, if_neg hseen]
    · rw [if_neg hpc]

/-- A `Close` that panics belongs to a proxy without a listener for visitors. -/
theorem panic_cases {c : Nat}
    (hstep : Visitors.step md5 s (.panic c) = some s') :
    ∃ i, (s.base.controls c).busy = some i ∧ s.secret i = false ∧
      s.lift (.panic c) = some s' := by
  cases hbusy : (s.base.controls c).busy with
  | none => simp [Visitors.step, hbusy] at hstep
  | some i =>
      simp only [Visitors.step, hbusy, Option.ite_none_left_eq_some] at hstep
      exact ⟨i, rfl, by simpa using hstep.1, hstep.2⟩

/-- Every step is seen as a permitted step of the Controls, or it is not seen. -/
theorem simulates (hstep : Visitors.step md5 s action = some s') :
    s'.seen = s.seen ∨ ∃ act, NatHole.Permitted s.seen act ∧
      NatHole.step s.seen act = some s'.seen := by
  cases action with
  | create c i name kind sk =>
      obtain ⟨base, hbase, rfl⟩ := lift_eq_some.mp hstep
      exact Or.inr ⟨.create c i name kind.secret sk, trivial, step_create hbase⟩
  | run c success => exact Or.inr (simulates_run hstep)
  | closeBase c =>
      cases hbusy : (s.base.controls c).busy with
      | none => simp [Visitors.step, hbusy] at hstep
      | some i =>
          simp only [Visitors.step, hbusy, Option.ite_none_right_eq_some,
            Option.some.injEq] at hstep
          obtain ⟨_, rfl⟩ := hstep
          exact Or.inl rfl
  | advance c => exact Or.inr (simulates_advance hstep)
  | panic c =>
      obtain ⟨i, hbusy, hother, hlift⟩ := panic_cases hstep
      obtain ⟨base, hbase, rfl⟩ := lift_eq_some.mp hlift
      exact Or.inr ⟨.panic c, trivial, step_panic hbase hbusy hother⟩
  | closeProxy c name =>
      obtain ⟨base, hbase, rfl⟩ := lift_eq_some.mp hstep
      exact Or.inr ⟨.closeProxy c name, trivial, step_closeProxy hbase⟩
  | stop c =>
      obtain ⟨base, hbase, rfl⟩ := lift_eq_some.mp hstep
      exact Or.inr ⟨.stop c, trivial, step_stop hbase⟩
  | stopNext c name =>
      obtain ⟨base, hbase, rfl⟩ := lift_eq_some.mp hstep
      exact Or.inr ⟨.stopNext c name, trivial, step_stopNext hbase⟩
  | newConn conn m withEncryption =>
      obtain rfl := Option.some.inj hstep
      left
      rcases s.vm.newConn_cases md5 conn m withEncryption with
        hsame | ⟨l, encryption, _, _, hput⟩
      · simp only [State.seen, hsame]
      · simp only [State.seen, hput]
        rfl
  | accept i =>
      simp only [Visitors.step] at hstep
      split at hstep
      · cases hstep
      · obtain rfl := Option.some.inj hstep
        exact Or.inl rfl

theorem inv_of_reaches {word : List Action}
    (hreaches : (system md5).Reaches word s) : s.seen.Inv := by
  have hstart : State.seen (system md5).start = NatHole.system.start := rfl
  obtain ⟨seen, hrun⟩ := System.Run.simulates hstart
    (fun _ _ _ _ hstep => simulates hstep) hreaches
  exact NatHole.inv_of_run hrun

/-- All that one step does to the visitor manager. -/
inductive Manages (md5 : String → List UInt8) (s : State) (action : Action)
    (s' : State) : Prop where
  | same (hvm : s'.vm = s.vm)
  | listen (c i : Nat) (haction : action = .run c true)
      (hbusy : (s.base.controls c).busy = some i)
      (hlisten : s.vm.listen (s.name i) (s.sk i) i = .ok s'.vm)
      (hran : (s'.base.heap i).pc = .ran)
  | closeListener (c i : Nat) (haction : action = .advance c)
      (hbusy : (s.base.controls c).busy = some i) (hsecret : s.secret i = true)
      (hcloses : closes (s.base.heap i).pc = true)
      (hvm : s'.vm = s.vm.closeListener (s.name i))
  | put (name : String) (l : Nat) (conn : VisitorConn)
      (hlistener : s.vm.visitorListeners name = some l)
      (hkey : conn.signKey =
        getAuthKey md5 ((s.vm.skMap name).getD "") conn.timestamp)
      (hvm : s'.vm = (s.vm.putConn l conn).1)
  | setListener (i : Nat) (l : CustomListener)
      (hbuf : l.acceptCh.buf = s.vm.waiting i ∨
        ∃ head, s.vm.waiting i = head :: l.acceptCh.buf)
      (hvm : s'.vm = { s.vm with
        listeners := Function.update s.vm.listeners i l })

theorem manages_of_step (hstep : Visitors.step md5 s action = some s') :
    Manages md5 s action s' := by
  have hlifted : ∀ {vm : VisitorManager} {act : NatHole.Action},
      State.lift { s with vm := vm } act = some s' → s'.vm = vm := by
    intro vm act hlift
    obtain ⟨base, _, rfl⟩ := lift_eq_some.mp hlift
    rfl
  cases action with
  | create c i name kind sk =>
      obtain ⟨base, _, rfl⟩ := lift_eq_some.mp hstep
      exact .same rfl
  | run c success =>
      cases hbusy : (s.base.controls c).busy with
      | none => simp [Visitors.step, hbusy] at hstep
      | some i =>
          simp only [Visitors.step, hbusy] at hstep
          split at hstep
          · next hruns =>
              obtain ⟨_, rfl⟩ := Bool.and_eq_true_iff.mp hruns
              split at hstep
              · exact .same (hlifted hstep)
              · next vm hlisten =>
                  obtain ⟨base, hbase, rfl⟩ := lift_eq_some.mp hstep
                  refine .listen c i rfl hbusy hlisten ?_
                  simp only [NatHole.step, hbusy, Option.ite_none_right_eq_some,
                    if_true, Option.some.injEq] at hbase
                  obtain ⟨_, rfl⟩ := hbase
                  simp [NatHole.State.setPc, NatHole.State.setProxy]
          · exact .same (hlifted hstep)
  | closeBase c =>
      cases hbusy : (s.base.controls c).busy with
      | none => simp [Visitors.step, hbusy] at hstep
      | some i =>
          simp only [Visitors.step, hbusy, Option.ite_none_right_eq_some,
            Option.some.injEq] at hstep
          obtain ⟨_, rfl⟩ := hstep
          exact .setListener i _ (Or.inl (s.vm.listeners i).close_buf) rfl
  | advance c =>
      obtain ⟨i, hbusy, ⟨hsecret, hpc, hlift⟩ | ⟨_, hlift⟩⟩ :=
        advance_cases hstep
      · exact .closeListener c i rfl hbusy hsecret hpc (hlifted hlift)
      · exact .same (hlifted hlift)
  | panic c =>
      obtain ⟨_, _, _, hlift⟩ := panic_cases hstep
      exact .same (hlifted hlift)
  | closeProxy c name => exact .same (hlifted hstep)
  | stop c => exact .same (hlifted hstep)
  | stopNext c name => exact .same (hlifted hstep)
  | newConn conn m withEncryption =>
      obtain rfl := Option.some.inj hstep
      rcases s.vm.newConn_cases md5 conn m withEncryption with
        hsame | ⟨l, encryption, hlistener, hkey, hput⟩
      · exact .same hsame
      · exact .put m.proxyName l _ hlistener hkey hput
  | accept i =>
      simp only [Visitors.step] at hstep
      split at hstep
      · cases hstep
      · next l conn haccept =>
          obtain rfl := Option.some.inj hstep
          exact .setListener i l (CustomListener.accept_buf haccept) rfl

/-- What a step does to the entries: it adds that of a proxy whose `Run` comes
back, or removes that of a proxy that a Control closes. -/
theorem Manages.entries (hmanages : Manages md5 s action s') (name : String) :
    (s'.vm.visitorListeners name = s.vm.visitorListeners name ∧
      s'.vm.skMap name = s.vm.skMap name) ∨
    (∃ c i, action = .run c true ∧ (s.base.controls c).busy = some i ∧
      (s'.base.heap i).pc = .ran ∧ s.name i = name ∧
      s.vm.visitorListeners name = none ∧
      s'.vm.visitorListeners name = some i ∧
      s'.vm.skMap name = some (s.sk i)) ∨
    (∃ c i, action = .advance c ∧ (s.base.controls c).busy = some i ∧
      s.secret i = true ∧ closes (s.base.heap i).pc = true ∧
      s.name i = name ∧ s'.vm.visitorListeners name = none ∧
      s'.vm.skMap name = none) := by
  cases hmanages with
  | same hvm => exact Or.inl (by simp [hvm])
  | listen c i haction hbusy hlisten hran =>
      unfold VisitorManager.listen at hlisten
      cases hfree : s.vm.visitorListeners (s.name i) with
      | some other => simp [hfree] at hlisten
      | none =>
          simp only [hfree, Except.ok.injEq] at hlisten
          by_cases hname : name = s.name i
          · refine Or.inr (Or.inl ⟨c, i, haction, hbusy, hran, hname.symm,
              hname ▸ hfree, ?_, ?_⟩)
            · simp [← hlisten, hname]
            · simp [← hlisten, hname]
          · exact Or.inl (by simp [← hlisten, hname])
  | closeListener c i haction hbusy hsecret hcloses hvm =>
      by_cases hname : name = s.name i
      · refine Or.inr (Or.inr ⟨c, i, haction, hbusy, hsecret, hcloses,
          hname.symm, ?_, ?_⟩)
        · simp [hvm, VisitorManager.closeListener, hname]
        · simp [hvm, VisitorManager.closeListener, hname]
      · exact Or.inl (by simp [hvm, VisitorManager.closeListener, hname])
  | put _ l conn _ _ hvm => exact Or.inl (by simp [hvm, VisitorManager.putConn])
  | setListener i l _ hvm => exact Or.inl (by simp [hvm])

/-- What a step does to the connections that wait at a listener: only one with
the right key for the entry of the listener is put into it. -/
theorem Manages.waiting (hmanages : Manages md5 s action s') (i : Nat) :
    s'.vm.waiting i = s.vm.waiting i ∨
    (∃ head, s.vm.waiting i = head :: s'.vm.waiting i) ∨
    s'.vm.waiting i = [] ∨
    ∃ name conn, s.vm.visitorListeners name = some i ∧
      conn.signKey =
        getAuthKey md5 ((s.vm.skMap name).getD "") conn.timestamp ∧
      s'.vm.waiting i = s.vm.waiting i ++ [conn] := by
  cases hmanages with
  | same hvm => exact Or.inl (by rw [hvm])
  | listen c j _ _ hlisten _ =>
      unfold VisitorManager.listen at hlisten
      split at hlisten
      · cases hlisten
      · obtain hvm := Except.ok.inj hlisten
        by_cases hsame : i = j
        · refine Or.inr (Or.inr (Or.inl ?_))
          simp [← hvm, VisitorManager.waiting, hsame,
            CustomListener.newCustomListener]
        · exact Or.inl (by simp [← hvm, VisitorManager.waiting, hsame])
  | closeListener c j _ _ _ _ hvm =>
      exact Or.inl (by rw [hvm]; rfl)
  | put name l conn hlistener hkey hvm =>
      by_cases hsame : i = l
      · subst hsame
        rcases (s.vm.listeners i).putConn_buf conn with hbuf | hbuf
        · left
          simpa [hvm, VisitorManager.waiting, VisitorManager.putConn] using hbuf
        · refine Or.inr (Or.inr (Or.inr ⟨name, conn, hlistener, hkey, ?_⟩))
          simpa [hvm, VisitorManager.waiting, VisitorManager.putConn] using hbuf
      · left
        simp [hvm, VisitorManager.waiting, VisitorManager.putConn, hsame]
  | setListener j l hbuf hvm =>
      by_cases hsame : i = j
      · subst hsame
        have hnow : s'.vm.waiting i = l.acceptCh.buf := by
          simp [hvm, VisitorManager.waiting]
        rw [hnow]
        rcases hbuf with hkept | htaken
        · exact Or.inl hkept
        · exact Or.inr (Or.inl htaken)
      · exact Or.inl (by simp [hvm, VisitorManager.waiting, hsame])

end State

/-- `Run` of the proxy has succeeded and its `Close` is not over. -/
def isOpen : ProxyPc → Bool
  | .ran | .rejected | .added | .registered | .closing | .abandoned => true
  | .unused | .created | .closed | .gone => false

namespace State

variable {md5 : String → List UInt8} {s s' : State} {action : Action}

/-- A stcp or sudp proxy that listens for visitors. -/
def Open (s : State) (i : Nat) : Prop :=
  s.secret i = true ∧ isOpen (s.base.heap i).pc = true

/-- The entries are those of the open proxies, each with the secret of its own,
and everybody who waits has the right key for it. -/
structure Owned (md5 : String → List UInt8) (s : State) : Prop where
  keys : ∀ name, (s.vm.visitorListeners name).isSome =
    (s.vm.skMap name).isSome
  owner : ∀ name i, s.vm.visitorListeners name = some i ↔
    s.Open i ∧ s.name i = name
  sk : ∀ name i, s.vm.visitorListeners name = some i →
    s.vm.skMap name = some (s.sk i)
  authentic : ∀ i, ∀ conn ∈ s.vm.waiting i,
    conn.signKey = getAuthKey md5 (s.sk i) conn.timestamp

/-- What a step may do to the entries and to the connections that wait. -/
structure Guarded (md5 : String → List UInt8) (s : State) (action : Action)
    (s' : State) : Prop where
  creates : ∀ name i, s'.vm.visitorListeners name = some i →
    s.vm.visitorListeners name ≠ some i →
    ∃ c, action = .run c true ∧ (s.base.controls c).busy = some i ∧
      s.name i = name ∧ (s'.base.heap i).pc = .ran
  removes : ∀ name i, s.vm.visitorListeners name = some i →
    s'.vm.visitorListeners name ≠ some i →
    ∃ c, action = .advance c ∧ (s.base.controls c).busy = some i ∧
      closes (s.base.heap i).pc = true
  puts : ∀ i conn, s'.vm.waiting i = s.vm.waiting i ++ [conn] →
    ∃ name, s.vm.visitorListeners name = some i ∧
      conn.signKey = getAuthKey md5 (s.sk i) conn.timestamp

theorem listens_seen (s : State) (i : Nat) (name : String) :
    NatHole.listens (s.seen.heap i) = some name ↔ s.Open i ∧ s.name i = name := by
  unfold NatHole.listens Open State.secret State.name
  cases hsecret : (s.kinds i).secret <;> cases hpc : (s.base.heap i).pc <;>
    simp [view, hsecret, hpc, isOpen]

theorem listener_seen (s : State) (name : String) :
    s.seen.listener name = s.vm.visitorListeners name := by
  cases hlistener : s.vm.visitorListeners name with
  | none => simp [NatHole.State.listener, view, hlistener]
  | some i => simp [NatHole.State.listener, view, hlistener]

/-- An entry is that of the open proxy of the name, and the secret under the name
is that of the proxy. -/
theorem owner_of_inv (hinv : s.seen.Inv) (name : String) (i : Nat) :
    s.vm.visitorListeners name = some i ↔ s.Open i ∧ s.name i = name := by
  rw [← listener_seen, hinv.tables.listening i name]
  exact listens_seen s i name

theorem sk_of_inv (hinv : s.seen.Inv) {name : String} {i : Nat}
    (hlistener : s.vm.visitorListeners name = some i) :
    (s.vm.skMap name).getD "" = s.sk i := by
  have hcfg : s.seen.clientCfgs name =
      some ⟨name, (s.vm.skMap name).getD "", i⟩ := by
    simp [view, hlistener]
  have htruthful := hinv.tables.truthful name _ hcfg
  exact congrArg ClientCfg.sk htruthful

/-- Both maps have the same keys. -/
def Keyed (s : State) : Prop :=
  ∀ name, (s.vm.visitorListeners name).isSome = (s.vm.skMap name).isSome

theorem Keyed.step (hkeyed : s.Keyed)
    (hstep : Visitors.step md5 s action = some s') : s'.Keyed := by
  intro name
  rcases (manages_of_step hstep).entries name with
    ⟨hlistener, hsk⟩ | ⟨_, _, _, _, _, _, _, hlistener, hsk⟩ |
    ⟨_, _, _, _, _, _, _, hlistener, hsk⟩
  · rw [hlistener, hsk]
    exact hkeyed name
  · rw [hlistener, hsk]
    rfl
  · rw [hlistener, hsk]
    rfl

/-- A proxy that has been made keeps its secret. -/
theorem sk_of_effect {t t' : NatHole.State} (heffect : t.Effect t') {i : Nat}
    (hused : (t.heap i).pc ≠ .unused) :
    (t'.heap i).pc ≠ .unused ∧ (t'.heap i).sk = (t.heap i).sk := by
  have hmoved : ∀ {j : Nat} {pc : ProxyPc}, pc ≠ .unused →
      t'.heap = Function.update t.heap j { t.heap j with pc := pc } →
      (t'.heap i).pc ≠ .unused ∧ (t'.heap i).sk = (t.heap i).sk := by
    intro j pc hpc hheap
    by_cases hsame : i = j
    · simp [hheap, hsame, hpc]
    · simpa [hheap, hsame] using hused
  cases heffect with
  | create j pxy _ hunused _ hheap _ _ =>
      have hother : i ≠ j := by
        rintro rfl
        exact hused hunused
      simpa [hheap, hother] using hused
  | proceed j pc hsilent hheap _ _ =>
      refine hmoved ?_ hheap
      rintro rfl
      cases hpc : (t.heap j).pc <;> simp [NatHole.State.Silent, hpc] at hsilent
  | add j _ _ hheap => exact hmoved (by simp) hheap
  | register j _ hheap => exact hmoved (by simp) hheap
  | del j _ hheap => exact hmoved (by simp) hheap
  | take j _ hheap => exact hmoved (by simp) hheap
  | stop c _ hheap =>
      rw [hheap]
      exact ⟨hused, rfl⟩

/-- Everybody who waits at a listener waits at that of a proxy that has been made,
and has the right key. -/
def Authentic (md5 : String → List UInt8) (s : State) : Prop :=
  ∀ i, ∀ conn ∈ s.vm.waiting i, (s.base.heap i).pc ≠ .unused ∧
    conn.signKey = getAuthKey md5 (s.sk i) conn.timestamp

theorem Authentic.step (hauthentic : s.Authentic md5) (hinv : s.seen.Inv)
    (hstep : Visitors.step md5 s action = some s') : s'.Authentic md5 := by
  have hkept : ∀ i, (s.base.heap i).pc ≠ .unused →
      (s'.base.heap i).pc ≠ .unused ∧ s'.sk i = s.sk i := by
    intro i hused
    rcases simulates hstep with hsame | ⟨act, _, hseen⟩
    · have hpc := congrArg (fun t => (t.heap i).pc) hsame
      have hsk := congrArg (fun t => (t.heap i).sk) hsame
      exact ⟨fun hunused => hused (hpc.symm.trans hunused), hsk⟩
    · exact sk_of_effect (NatHole.State.effect_of_step hinv.schedule hseen) hused
  have hold : ∀ i, ∀ conn ∈ s.vm.waiting i, (s'.base.heap i).pc ≠ .unused ∧
      conn.signKey = getAuthKey md5 (s'.sk i) conn.timestamp := by
    intro i conn hconn
    obtain ⟨hused, hkey⟩ := hauthentic i conn hconn
    obtain ⟨hstill, hsk⟩ := hkept i hused
    exact ⟨hstill, hsk ▸ hkey⟩
  intro i conn hconn
  rcases (manages_of_step hstep).waiting i with
    hsame | ⟨head, htaken⟩ | hempty | ⟨name, new, hlistener, hkey, hput⟩
  · exact hold i conn (hsame ▸ hconn)
  · apply hold i conn
    rw [htaken]
    exact List.mem_cons_of_mem head hconn
  · rw [hempty] at hconn
    cases hconn
  · rw [hput, List.mem_append, List.mem_singleton] at hconn
    rcases hconn with hconn | rfl
    · exact hold i conn hconn
    · obtain ⟨hopen, _⟩ := (owner_of_inv hinv name i).mp hlistener
      have hused : (s.base.heap i).pc ≠ .unused := by
        intro hunused
        have hpc := hopen.2
        rw [hunused] at hpc
        cases hpc
      obtain ⟨hstill, hsk⟩ := hkept i hused
      rw [sk_of_inv hinv hlistener] at hkey
      exact ⟨hstill, hsk ▸ hkey⟩

theorem guarded_of_step (hinv : s.seen.Inv)
    (hstep : Visitors.step md5 s action = some s') :
    s.Guarded md5 action s' where
  creates name i hnow hbefore := by
    rcases (manages_of_step hstep).entries name with
      ⟨hsame, _⟩ | ⟨c, j, haction, hbusy, hran, hname, _, hlistener, _⟩ |
      ⟨_, _, _, _, _, _, _, hnone, _⟩
    · rw [hsame] at hnow
      exact absurd hnow hbefore
    · rw [hlistener, Option.some.injEq] at hnow
      subst hnow
      exact ⟨c, haction, hbusy, hname, hran⟩
    · rw [hnone] at hnow
      cases hnow
  removes name i hbefore hnow := by
    rcases (manages_of_step hstep).entries name with
      ⟨hsame, _⟩ | ⟨_, _, _, _, _, _, hnone, _, _⟩ |
      ⟨c, j, haction, hbusy, hsecret, hcloses, hname, _, _⟩
    · rw [hsame] at hnow
      exact absurd hbefore hnow
    · rw [hnone] at hbefore
      cases hbefore
    · -- the proxy that is being closed is open, so the entry is its own
      have hopen : s.Open j := by
        refine ⟨hsecret, ?_⟩
        cases hpc : (s.base.heap j).pc <;> simp [hpc, closes] at hcloses <;> rfl
      have hown := (owner_of_inv hinv name j).mpr ⟨hopen, hname⟩
      rw [hown, Option.some.injEq] at hbefore
      subst hbefore
      exact ⟨c, haction, hbusy, hcloses⟩
  puts i conn hput := by
    rcases (manages_of_step hstep).waiting i with
      hsame | ⟨head, htaken⟩ | hempty | ⟨name, new, hlistener, hkey, hnew⟩
    · rw [hsame] at hput
      simpa using congrArg List.length hput
    · rw [hput] at htaken
      have hlength := congrArg List.length htaken
      simp only [List.length_cons, List.length_append] at hlength
      omega
    · rw [hempty] at hput
      simpa using congrArg List.length hput
    · rw [hput] at hnew
      have hconn : conn = new := by simpa using hnew
      subst hconn
      rw [sk_of_inv hinv hlistener] at hkey
      exact ⟨name, hlistener, hkey⟩

end State

/-- In every run the entries belong to the proxies that listen, each is removed by
the `Close` of its own proxy only, and who is let in has the right key. -/
theorem owned_of_reaches (md5 : String → List UInt8) {word : List Action}
    {s : State} (hreaches : (system md5).Reaches word s) :
    s.Owned md5 ∧ ∀ action s', step md5 s action = some s' →
      s.Guarded md5 action s' := by
  obtain ⟨hinv, hkeyed, hauthentic⟩ :
      s.seen.Inv ∧ s.Keyed ∧ s.Authentic md5 := by
    induction hreaches with
    | nil =>
        refine ⟨State.inv_of_reaches System.Run.nil, fun _ => rfl, ?_⟩
        intro i conn hconn
        cases hconn
    | snoc hword _ hstep ih =>
        obtain ⟨hinv, hkeyed, hauthentic⟩ := ih
        exact ⟨State.inv_of_reaches (hword.snoc trivial hstep),
          hkeyed.step hstep, hauthentic.step hinv hstep⟩
  refine ⟨⟨hkeyed, State.owner_of_inv hinv, ?_, ?_⟩, ?_⟩
  · intro name i hlistener
    have hsome : (s.vm.skMap name).isSome = true := by
      rw [← hkeyed name, hlistener]
      rfl
    obtain ⟨sk, hsk⟩ := Option.isSome_iff_exists.mp hsome
    have hown := State.sk_of_inv hinv hlistener
    rw [hsk, Option.getD_some] at hown
    rw [hsk, hown]
  · intro i conn hconn
    exact (hauthentic i conn hconn).2
  · intro action s' hstep
    exact State.guarded_of_step hinv hstep

/-- The hash of `abc0`. -/
def sampleDigest : String → List UInt8 := fun _ =>
  [87, 117, 113, 190, 77, 233, 220, 206, 133, 160, 65, 186,
    4, 16, 242, 159]

/-- A stcp proxy is registered and a visitor comes in; a xtcp proxy of another
client takes the name and is rejected. -/
def visited : List Action :=
  [.create 0 0 "ssh" .stcp "abc", .run 0 true, .advance 0, .advance 0,
    .newConn 7 ⟨"ssh", "577571be4de9dcce85a041ba0410f29f", 0, false, false⟩ (.ok ()),
    .create 1 1 "ssh" .xtcp "", .run 1 true, .advance 1, .advance 1]

theorem owned_of_reaches_visited :
    ∃ s, (system sampleDigest).Reaches visited s ∧
      s.vm.visitorListeners "ssh" = some 0 ∧
      (s.vm.waiting 0).map VisitorConn.conn = [7] ∧
      s.Owned sampleDigest ∧ ∀ action s', step sampleDigest s action = some s' →
        s.Guarded sampleDigest action s' := by
  obtain ⟨s, hreaches, hlistener, hconn⟩ :
      ∃ s, (system sampleDigest).Reaches visited s ∧
        s.vm.visitorListeners "ssh" = some 0 ∧
        (s.vm.waiting 0).map VisitorConn.conn = [7] :=
    ⟨_, System.reaches_of_exec rfl, rfl, rfl⟩
  exact ⟨s, hreaches, hlistener, hconn, owned_of_reaches sampleDigest hreaches⟩

end Visitors

end Frp
