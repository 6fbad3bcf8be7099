/-
The two managers of a client Control while it is closed: `Reload` and `Close` of
`client/proxy/proxy_manager.go`, the VisitorManager of
`client/visitor_manager.go`, and `ReloadConf` of `client/control.go`, which
calls both of them one after the other.
-/
import Frp.Client.ProxyManager

namespace Frp

open Transition

namespace Managers

/-- The goroutine of `VisitorManager.Run`; `ticked` has chosen the ticker in the
select and waits for the mutex. -/
inductive RunPc where
  | created
  | selecting
  | ticked
  | returned
deriving DecidableEq, Repr

/-- All of it is under `vm.mu`.  The visitors are numbered by the calls of their
`Run`: `started` is every such call with whether it succeeded, `closes` the
visitors that have been closed. -/
structure VisitorManager (V : Type) where
  cfgs : ConfMap V
  visitors : ConfMap Nat
  started : List (String × Bool)
  closes : List Nat
  stopChClosed : Bool
  run : RunPc

namespace VisitorManager

variable {V : Type}

/-- A call of `Reload`, of `Run` or of `Close`, or the next step of `Run`.  What
`Run` of a visitor returns is part of the action. -/
inductive Action (V : Type) where
  | reload (new : ConfMap V) (runs : String → Bool)
  | run
  | tick
  | retry (runs : String → Bool)
  | finish
  | close

def newVisitorManager (V : Type) : VisitorManager V where
  cfgs := .empty
  visitors := .empty
  started := []
  closes := []
  stopChClosed := false
  run := .created

def startVisitor (runs : String → Bool) (vm : VisitorManager V)
    (name : String) : VisitorManager V :=
  { vm with
    visitors :=
      if runs name then vm.visitors.insert name vm.started.length
      else vm.visitors
    started := vm.started ++ [(name, runs name)] }

/-- A loop that starts visitors one after the other. -/
def startAll (runs : String → Bool) (vm : VisitorManager V)
    (names : List String) : VisitorManager V :=
  names.foldl (startVisitor runs) vm

variable (compare : V → V → Bool)

/-- The names that the first loop of `Reload` deletes. -/
def delNames (vm : VisitorManager V) (new : ConfMap V) : List String :=
  (vm.cfgs.entries.filter fun entry => !ConfMap.Keeps compare new entry).map
    Prod.fst

def reload (vm : VisitorManager V) (new : ConfMap V) (runs : String → Bool) :
    VisitorManager V :=
  startAll runs
    { vm with
      cfgs := vm.cfgs.reload compare new
      visitors := (vm.delNames compare new).foldl ConfMap.erase vm.visitors
      closes := vm.closes ++ (vm.delNames compare new).filterMap vm.visitors.get }
    ((ConfMap.added compare vm.cfgs new).map Prod.fst)

/-- The names that a tick of `Run` finds without a visitor. -/
def missing (vm : VisitorManager V) : List String :=
  vm.cfgs.names.filter fun name => (vm.visitors.get name).isNone

def close (vm : VisitorManager V) : VisitorManager V :=
  { vm with
    closes := vm.closes ++ vm.visitors.entries.map Prod.snd
    stopChClosed := true }

/-- With `stopCh` closed and a tick due the select of `Run` may take either. -/
def step (vm : VisitorManager V) : Action V → Option (VisitorManager V)
  | .reload new runs => some (vm.reload compare new runs)
  | .run =>
      match vm.run with
      | .created => some { vm with run := .selecting }
      | _ => none
  | .tick =>
      match vm.run with
      | .selecting => some { vm with run := .ticked }
      | _ => none
  | .retry runs =>
      match vm.run with
      | .ticked => some (startAll runs { vm with run := .selecting } vm.missing)
      | _ => none
  | .finish =>
      match vm.run with
      | .selecting =>
          if vm.stopChClosed then some { vm with run := .returned } else none
      | _ => none
  | .close => some vm.close

/-- The new configuration has nothing that is not configured already. -/
def AddsNone (vm : VisitorManager V) (new : ConfMap V) : Prop :=
  ∀ entry ∈ new.entries, ∃ old ∈ vm.cfgs.get entry.1,
    compare old entry.2 = true

/-- Every name of `vm.cfgs` has an entry in `vm.visitors`. -/
def AllEntered (vm : VisitorManager V) : Prop :=
  ∀ name ∈ vm.cfgs.names, (vm.visitors.get name).isSome = true

instance (vm : VisitorManager V) (new : ConfMap V) :
    Decidable (vm.AddsNone compare new) :=
  inferInstanceAs (Decidable (∀ entry ∈ new.entries,
    ∃ old ∈ vm.cfgs.get entry.1, compare old entry.2 = true))

instance (vm : VisitorManager V) : Decidable vm.AllEntered :=
  inferInstanceAs (Decidable (∀ name ∈ vm.cfgs.names, _))

theorem startAll_started (runs : String → Bool) (vm : VisitorManager V)
    (names : List String) :
    (startAll runs vm names).started =
      vm.started ++ names.map fun name => (name, runs name) := by
  induction names generalizing vm with
  | nil => simp [startAll]
  | cons name names ih =>
      have hrest := ih (startVisitor runs vm name)
      simpa [startAll, startVisitor] using hrest

theorem startAll_stopChClosed (runs : String → Bool) (vm : VisitorManager V)
    (names : List String) :
    (startAll runs vm names).stopChClosed = vm.stopChClosed := by
  induction names generalizing vm with
  | nil => rfl
  | cons name names ih => exact ih (startVisitor runs vm name)

variable {compare}

theorem added_eq_nil {vm : VisitorManager V} {new : ConfMap V}
    (hnone : vm.AddsNone compare new) :
    ConfMap.added compare vm.cfgs new = [] := by
  apply List.filter_eq_nil_iff.mpr
  intro entry hentry
  obtain ⟨old, hold, hsame⟩ := hnone entry hentry
  have hkept : (entry.1, old) ∈ ConfMap.kept compare vm.cfgs new := by
    apply List.mem_filter.mpr
    refine ⟨ConfMap.mem_of_get hold, ?_⟩
    rw [ConfMap.Keeps, ConfMap.get_of_mem hentry]
    exact hsame
  simpa using ⟨old, hkept⟩

theorem missing_eq_nil {vm : VisitorManager V} (hall : vm.AllEntered) :
    vm.missing = [] := by
  apply List.filter_eq_nil_iff.mpr
  intro name hname
  simpa using Option.isSome_iff_ne_none.mp (hall name hname)

/-- The condition on a call or a tick of a VisitorManager that has been closed. -/
def Starts (compare : V → V → Bool) (vm : VisitorManager V) : Action V → Prop
  | .reload new _ => ¬ vm.AddsNone compare new
  | .retry _ => ¬ vm.AllEntered
  | .run | .tick | .finish | .close => False

instance (vm : VisitorManager V) (action : Action V) :
    Decidable (vm.Starts compare action) :=
  match action with
  | .reload new _ => inferInstanceAs (Decidable (¬ vm.AddsNone compare new))
  | .retry _ => inferInstanceAs (Decidable (¬ vm.AllEntered))
  | .run | .tick | .finish | .close => inferInstanceAs (Decidable False)

theorem reload_quiet {vm : VisitorManager V} {new : ConfMap V}
    (hnone : vm.AddsNone compare new) (runs : String → Bool) :
    (vm.reload compare new runs).started = vm.started := by
  rw [reload, startAll_started, added_eq_nil hnone]
  simp

/-- A step starts visitors, closes, or only moves the goroutine of `Run`. -/
theorem step_cases {vm vm' : VisitorManager V} {action : Action V}
    (hstep : vm.step compare action = some vm') :
    (∃ new runs, action = .reload new runs ∧ vm' = vm.reload compare new runs) ∨
    (∃ runs, action = .retry runs ∧
      vm' = startAll runs { vm with run := .selecting } vm.missing) ∨
    (action = .close ∧ vm' = vm.close) ∨
    ∃ pc, vm' = { vm with run := pc } := by
  cases action with
  | reload new runs =>
      cases hstep
      exact .inl ⟨new, runs, rfl, rfl⟩
  | close =>
      cases hstep
      exact .inr (.inr (.inl ⟨rfl, rfl⟩))
  | run | tick =>
      simp only [step] at hstep
      split at hstep
      · cases hstep
        exact .inr (.inr (.inr ⟨_, rfl⟩))
      · cases hstep
  | retry runs =>
      simp only [step] at hstep
      split at hstep
      · cases hstep
        exact .inr (.inl ⟨runs, rfl, rfl⟩)
      · cases hstep
  | finish =>
      simp only [step] at hstep
      split at hstep
      · simp only [Option.ite_none_right_eq_some, Option.some.injEq] at hstep
        exact .inr (.inr (.inr ⟨_, hstep.2.symm⟩))
      · cases hstep

/-- Nothing opens `stopCh` again. -/
theorem stopChClosed_of_step {vm vm' : VisitorManager V} {action : Action V}
    (hstep : vm.step compare action = some vm')
    (hclosed : vm.stopChClosed = true) : vm'.stopChClosed = true := by
  obtain ⟨new, runs, -, rfl⟩ | ⟨runs, -, rfl⟩ | ⟨-, rfl⟩ | ⟨pc, rfl⟩ :=
    step_cases hstep
  · exact (startAll_stopChClosed _ _ _).trans hclosed
  · exact (startAll_stopChClosed _ _ _).trans hclosed
  · rfl
  · exact hclosed

theorem started_of_step {vm vm' : VisitorManager V} {action : Action V}
    (hstep : vm.step compare action = some vm')
    (hquiet : ¬ vm.Starts compare action) : vm'.started = vm.started := by
  obtain ⟨new, runs, rfl, rfl⟩ | ⟨runs, rfl, rfl⟩ | ⟨-, rfl⟩ | ⟨pc, rfl⟩ :=
    step_cases hstep
  · exact reload_quiet (not_not.mp hquiet) runs
  · rw [startAll_started, missing_eq_nil (not_not.mp hquiet)]
    simp
  · rfl
  · rfl

end VisitorManager

/-- A call of `ReloadConf` of the Control: the visitors first, then the proxies. -/
inductive CallPc where
  | reloadVisitors
  | reloadPxys
  | done
deriving DecidableEq, Repr

structure Call (P V : Type) where
  pxyCfgs : ConfMap P
  visitorCfgs : ConfMap V
  pc : CallPc

/-- `pmClosed` says that `Close` of the proxy Manager has returned; `closed` is
how many Wrappers had been made and how many visitors started when it and `Close`
of the VisitorManager both had. -/
structure State (P V : Type) where
  pm : ProxyManager.State P
  vm : VisitorManager V
  calls : List (Call P V)
  pmClosed : Bool
  closed : Option (Nat × Nat)

inductive Action (P V : Type) where
  | proxy (action : ProxyManager.Action P)
  | visitor (action : VisitorManager.Action V)
  | reloadConf (pxyCfgs : ConfMap P) (visitorCfgs : ConfMap V)
  | advance (i : Nat) (runs : String → Bool)

variable {P V : Type}

def init (P V : Type) : State P V where
  pm := ProxyManager.init P
  vm := .newVisitorManager V
  calls := []
  pmClosed := false
  closed := none

namespace State

/-- Record the moment from which both managers are closed. -/
def mark (s : State P V) : State P V :=
  if s.closed = none ∧ s.pmClosed = true ∧ s.vm.stopChClosed = true then
    { s with closed := some (s.pm.made, s.vm.started.length) }
  else s

def setCall (s : State P V) (i : Nat) (call : Call P V) (pc : CallPc) :
    State P V :=
  { s with calls := s.calls.set i { call with pc := pc } }

end State

variable (comparePxy : P → P → Bool) (healthCheck : P → Bool)
  (compareVisitor : V → V → Bool)

/-- A step of the proxy Manager. -/
def proxyStep (s : State P V) (action : ProxyManager.Action P) :
    Option (State P V) :=
  (ProxyManager.step comparePxy healthCheck s.pm action).map fun pm =>
    { s with
      pm := pm
      pmClosed := s.pmClosed || (action matches .closed) }.mark

/-- A step of the VisitorManager. -/
def visitorStep (s : State P V) (action : VisitorManager.Action V) :
    Option (State P V) :=
  (s.vm.step compareVisitor action).map fun vm => { s with vm := vm }.mark

def step (s : State P V) : Action P V → Option (State P V)
  | .proxy action => proxyStep comparePxy healthCheck s action
  | .visitor action => visitorStep compareVisitor s action
  | .reloadConf pxyCfgs visitorCfgs =>
      some { s with calls := s.calls ++ [⟨pxyCfgs, visitorCfgs, .reloadVisitors⟩] }
  | .advance i runs =>
      match s.calls[i]? with
      | none => none
      | some call =>
          match call.pc with
          | .reloadVisitors =>
              visitorStep compareVisitor (s.setCall i call .reloadPxys)
                (.reload call.visitorCfgs runs)
          | .reloadPxys =>
              proxyStep comparePxy healthCheck (s.setCall i call .done)
                (.reload call.pxyCfgs)
          | .done => none

def system : System (State P V) (Action P V) where
  start := init P V
  step := step comparePxy healthCheck compareVisitor

/-- Nothing has been made or started since both managers were closed. -/
def State.Quiet (s : State P V) : Prop :=
  ∀ counts ∈ s.closed,
    s.pm.made = counts.1 ∧ s.vm.started.length = counts.2

/-- A `Reload` of the proxy Manager that has proxies to run. -/
def Makes : ProxyManager.Action P → Prop
  | .reload new => new.entries ≠ []
  | _ => False

instance (action : ProxyManager.Action P) : Decidable (Makes action) :=
  match action with
  | .reload new =>
      inferInstanceAs (Decidable (new.entries ≠ []))
  | .elapse _ | .health _ _ | .look _ | .check _ | .startProxy _ _ _
  | .setRunning _ | .closeSendCh | .delete _ | .deleted | .add _ | .reloaded
  | .close | .stop _ | .closed => inferInstanceAs (Decidable False)

/-- A closed manager is given nothing to start. -/
def Permitted (s : State P V) : Action P V → Prop
  | .proxy action => s.pmClosed = true → ¬ Makes action
  | .visitor action =>
      s.vm.stopChClosed = true → ¬ s.vm.Starts compareVisitor action
  | .reloadConf _ _ => True
  | .advance i runs => ∀ call ∈ s.calls[i]?,
      (call.pc = .reloadVisitors → s.vm.stopChClosed = true →
        ¬ s.vm.Starts compareVisitor (.reload call.visitorCfgs runs)) ∧
      (call.pc = .reloadPxys → s.pmClosed = true →
        ¬ Makes (.reload call.pxyCfgs : ProxyManager.Action P))

instance (s : State P V) (action : Action P V) :
    Decidable (Permitted compareVisitor s action) :=
  match action with
  | .proxy action =>
      inferInstanceAs (Decidable (s.pmClosed = true → ¬ Makes action))
  | .visitor action => inferInstanceAs (Decidable
      (s.vm.stopChClosed = true → ¬ s.vm.Starts compareVisitor action))
  | .reloadConf _ _ => inferInstanceAs (Decidable True)
  | .advance i _ => inferInstanceAs (Decidable (∀ call ∈ s.calls[i]?, _ ∧ _))

/-- The loop that holds the mutex of the proxy Manager will make no Wrapper. -/
def Barren : ProxyManager.Op P → Prop
  | .deleting _ new _ => new.entries = []
  | .adding _ _ todo => todo = []
  | .idle | .closing _ => True

variable {comparePxy} {healthCheck} {compareVisitor}

/-- Only the second loop of a `Reload` makes Wrappers, one for a proxy of its
configuration. -/
theorem made_of_step {s s' : ProxyManager.State P}
    {action : ProxyManager.Action P}
    (hstep : ProxyManager.step comparePxy healthCheck s action = some s')
    (hbarren : Barren s.op) (hquiet : ¬ Makes action) :
    Barren s'.op ∧ s'.made = s.made := by
  cases ProxyManager.State.steps_of_step hstep with
  | elapse | health | look | check | startProxy | setRunning | closeSendCh =>
      exact ⟨hbarren, rfl⟩
  | reload => exact ⟨not_not.mp hquiet, rfl⟩
  | keep hop | drop hop | deleted hop =>
      rw [hop] at hbarren
      exact ⟨hbarren, rfl⟩
  | pass hop hlookup | add hop hlookup =>
      -- nothing is left to visit
      rw [hop] at hbarren
      obtain rfl := hbarren
      cases hlookup
  | reloaded | close | stop | closed => exact ⟨trivial, rfl⟩

/-- When `Close` of the proxy Manager returns, no loop is left. -/
theorem barren_of_closed {s s' : ProxyManager.State P}
    (hstep : ProxyManager.step comparePxy healthCheck s .closed = some s') :
    Barren s'.op := by
  cases ProxyManager.State.steps_of_step hstep
  exact trivial

namespace State

/-- Once both managers are closed nothing is under way that would start more. -/
structure Inv (s : State P V) : Prop where
  marked : s.closed ≠ none → s.pmClosed = true ∧ s.vm.stopChClosed = true
  barren : s.pmClosed = true → Barren s.pm.op
  quiet : s.Quiet

theorem inv_init : (init P V).Inv where
  marked h := absurd rfl h
  barren h := by cases h
  quiet counts h := by cases h

theorem Inv.mark {s : State P V} (hinv : s.Inv) : s.mark.Inv := by
  unfold State.mark
  split
  · next hclosed =>
      refine ⟨fun _ => hclosed.2, hinv.barren, ?_⟩
      rintro counts ⟨⟩
      exact ⟨rfl, rfl⟩
  · exact hinv

theorem Inv.setCall {s : State P V} (hinv : s.Inv) (i : Nat) (call : Call P V)
    (pc : CallPc) : (s.setCall i call pc).Inv :=
  ⟨hinv.marked, hinv.barren, hinv.quiet⟩

theorem Inv.proxyStep {s s' : State P V} (hinv : s.Inv)
    {action : ProxyManager.Action P}
    (hstep : proxyStep comparePxy healthCheck s action = some s')
    (hquiet : s.pmClosed = true → ¬ Makes action) : s'.Inv := by
  obtain ⟨pm, hpm, rfl⟩ := Option.map_eq_some_iff.mp hstep
  apply Inv.mark
  cases hclosed : s.pmClosed with
  | true =>
      obtain ⟨hbarren, hmade⟩ :=
        made_of_step hpm (hinv.barren hclosed) (hquiet hclosed)
      refine ⟨fun h => ⟨rfl, (hinv.marked h).2⟩, fun _ => hbarren, ?_⟩
      intro counts hcounts
      obtain ⟨hpms, hvms⟩ := hinv.quiet counts hcounts
      exact ⟨hmade.trans hpms, hvms⟩
  | false =>
      have hnone : s.closed = none := by
        by_contra hsome
        rw [(hinv.marked hsome).1] at hclosed
        cases hclosed
      refine ⟨fun h => absurd hnone h, ?_, ?_⟩
      · intro hreturned
        cases action with
        | closed => exact barren_of_closed hpm
        | _ => cases hreturned
      · intro counts hcounts
        have hcounts' : s.closed = some counts := hcounts
        rw [hnone] at hcounts'
        cases hcounts'

theorem Inv.visitorStep {s s' : State P V} (hinv : s.Inv)
    {action : VisitorManager.Action V}
    (hstep : visitorStep compareVisitor s action = some s')
    (hquiet : s.vm.stopChClosed = true → ¬ s.vm.Starts compareVisitor action) :
    s'.Inv := by
  obtain ⟨vm, hvm, rfl⟩ := Option.map_eq_some_iff.mp hstep
  apply Inv.mark
  constructor
  · intro hmarked
    obtain ⟨hpm, hstop⟩ := hinv.marked hmarked
    exact ⟨hpm, VisitorManager.stopChClosed_of_step hvm hstop⟩
  · exact hinv.barren
  · intro counts hcounts
    have hsome : s.closed ≠ none := by
      rintro hnone
      have hcounts' : s.closed = some counts := hcounts
      rw [hnone] at hcounts'
      cases hcounts'
    obtain ⟨hpms, hvms⟩ := hinv.quiet counts hcounts
    have hstop := (hinv.marked hsome).2
    refine ⟨hpms, ?_⟩
    rw [← hvms]
    exact congrArg List.length
      (VisitorManager.started_of_step hvm (hquiet hstop))

theorem Inv.step {s s' : State P V} (hinv : s.Inv) {action : Action P V}
    (hpermitted : Permitted compareVisitor s action)
    (hstep : step comparePxy healthCheck compareVisitor s action = some s') :
    s'.Inv := by
  cases action with
  | proxy action => exact hinv.proxyStep hstep hpermitted
  | visitor action => exact hinv.visitorStep hstep hpermitted
  | reloadConf pxyCfgs visitorCfgs =>
      cases hstep
      exact ⟨hinv.marked, hinv.barren, hinv.quiet⟩
  | advance i runs =>
      simp only [Managers.step] at hstep
      split at hstep
      · cases hstep
      · next call hcall =>
          obtain ⟨hvisitors, hpxys⟩ := hpermitted call hcall
          split at hstep
          · next hpc =>
              exact (hinv.setCall i call _).visitorStep hstep (hvisitors hpc)
          · next hpc =>
              exact (hinv.setCall i call _).proxyStep hstep (hpxys hpc)
          · cases hstep

end State

/-- As long as the closed managers are given nothing to start, they start
nothing. -/
theorem quiet_of_run {word : List (Action P V)} {s : State P V}
    (hrun : (system comparePxy healthCheck compareVisitor).Run
      (Permitted compareVisitor) word s) : s.Quiet := by
  have hinv : s.Inv := System.Run.invariant State.inv_init
    (fun _ _ _ hinv hpermitted hstep => hinv.step hpermitted hstep) hrun
  exact hinv.quiet

/-- A configuration with one name. -/
def single (name : String) (port : Nat) : ConfMap Nat :=
  ⟨[(name, port)], List.nodup_singleton _⟩

/-- One proxy and one visitor are running; the Control is closed, and a reload
that was late brings the same visitor and no proxy. -/
def lateReload : List (Action Nat Nat) :=
  [.visitor (.reload (single "ssh" 22) fun _ => true),
    .proxy (.reload (single "web" 80)), .proxy .deleted, .proxy (.add "web"),
    .proxy .reloaded, .visitor .run, .proxy .close, .proxy (.stop "web"),
    .proxy .closed, .visitor .close, .reloadConf .empty (single "ssh" 22),
    .advance 0 fun _ => true, .advance 0 fun _ => true, .proxy .deleted,
    .proxy .reloaded, .visitor .tick, .visitor (.retry fun _ => true)]

theorem quiet_of_run_lateReload :
    ∃ s : State Nat Nat,
      (system (· == ·) (fun _ => false) (· == ·)).Run (Permitted (· == ·))
        lateReload s ∧ s.closed = some (1, 1) ∧ s.Quiet := by
  obtain ⟨s, hrun, hclosed⟩ : ∃ s : State Nat Nat,
      (system (· == ·) (fun _ => false) (· == ·)).Run (Permitted (· == ·))
        lateReload s ∧ s.closed = some (1, 1) :=
    System.exists_run_of_replay (by decide)
  exact ⟨s, hrun, hclosed, quiet_of_run hrun⟩

/-- The port of the visitor was taken when it was first tried.  After both have
been closed a tick of `Run` starts it, and a reload makes a Wrapper. -/
def startsAfterClose : List (Action Nat Nat) :=
  [.visitor (.reload (single "ssh" 22) fun _ => false), .visitor .run,
    .proxy .close, .proxy .closed, .visitor .close, .visitor .tick,
    .visitor (.retry fun _ => true),
    .reloadConf (single "web" 80) (single "ssh" 22), .advance 0 fun _ => true,
    .advance 0 fun _ => true, .proxy .deleted, .proxy (.add "web")]

theorem not_quiet_startsAfterClose :
    ¬ ∀ (word : List (Action Nat Nat)) (s : State Nat Nat),
      (system (· == ·) (fun _ => false) (· == ·)).Reaches word s → s.Quiet := by
  intro hclaim
  obtain ⟨s, hreaches, hclosed, hmade, -⟩ : ∃ s : State Nat Nat,
      (system (· == ·) (fun _ => false) (· == ·)).Reaches startsAfterClose s ∧
        s.closed = some (0, 1) ∧ s.pm.made = 1 ∧
        s.vm.started = [("ssh", false), ("ssh", true)] :=
    System.exists_reaches_of_exec (by decide)
  have hquiet := hclaim _ s hreaches (0, 1) hclosed
  rw [hmade] at hquiet
  exact absurd hquiet.1 (by decide)

end Managers

end Frp
