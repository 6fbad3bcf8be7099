/-
Registration and closing of proxies by the Controls of frps: the steps of
`RegisterProxy`, `CloseProxy` and `stoper` in `server/control.go` on the proxy
Manager of `server/proxy/proxy.go` and on the client table of
`pkg/nathole/nathole.go`, which `XTCPProxy.Run` and `Close` write by bare name.
-/
import Mathlib.Data.Finset.Insert
import Frp.Lib.System
import Frp.Lib.Ledger
import Frp.Server.ProxyClose

namespace Frp

open Transition

/-- How far a proxy is.  `ran` has returned from `Run`, `rejected` was refused
by the Manager, `closing` is about to be closed, `closed` is still in the
Manager, and so is `abandoned`, whose `Close` has panicked. -/
inductive ProxyPc where
  | unused
  | created
  | ran
  | rejected
  | added
  | registered
  | closing
  | closed
  | abandoned
  | gone
deriving DecidableEq, Repr

structure ServerProxy where
  name : String
  xtcp : Bool
  sk : String
  /-- the Control whose `RegisterProxy` made it -/
  control : Nat
  pc : ProxyPc
deriving DecidableEq, Repr

/-- The channel of a ClientCfg is named by the proxy whose `Run` made it. -/
structure ClientCfg where
  name : String
  sk : String
  sidCh : Nat
deriving DecidableEq, Repr

/-- `busy` is the proxy at work in the goroutine of the manager or, after it,
of the stoper; `visited` are the names that the stoper has ranged over.  A
`Close` that panics has ended this goroutine when `panicked` is set, and `mu` is
the mutex that it may have left locked. -/
structure ServerControl where
  proxies : String → Option Nat
  busy : Option Nat
  stopping : Bool
  visited : Finset String
  panicked : Bool
  mu : Bool

namespace NatHole

structure State where
  clientCfgs : String → Option ClientCfg
  pxys : String → Option Nat
  heap : Nat → ServerProxy
  controls : Nat → ServerControl

inductive Action where
  | create (c i : Nat) (name : String) (xtcp : Bool) (sk : String)
  | run (c : Nat) (success : Bool)
  | advance (c : Nat)
  | panic (c : Nat)
  | closeProxy (c : Nat) (name : String)
  | stop (c : Nat)
  | stopNext (c : Nat) (name : String)

def init : State where
  clientCfgs _ := none
  pxys _ := none
  heap _ := ⟨"", false, "", 0, .unused⟩
  controls _ := ⟨fun _ => none, none, false, ∅, false, false⟩

namespace State

def setProxy (s : State) (i : Nat) (pxy : ServerProxy) : State :=
  { s with heap := Function.update s.heap i pxy }

def setPc (s : State) (i : Nat) (pc : ProxyPc) : State :=
  s.setProxy i { s.heap i with pc := pc }

def setControl (s : State) (c : Nat) (ctl : ServerControl) : State :=
  { s with controls := Function.update s.controls c ctl }

def setBusy (s : State) (c : Nat) (busy : Option Nat) : State :=
  s.setControl c { s.controls c with busy := busy }

/-- `Controller.ListenClient` overwrites what stands under the name. -/
def listenClient (s : State) (name sk : String) (sidCh : Nat) : State :=
  { s with clientCfgs :=
      Function.update s.clientCfgs name (some ⟨name, sk, sidCh⟩) }

/-- `Controller.CloseClient` deletes whatever stands under the name. -/
def closeClient (s : State) (name : String) : State :=
  { s with clientCfgs := Function.update s.clientCfgs name none }

/-- `Run` of the proxy; only that of an xtcp proxy reaches the table. -/
def runProxy (s : State) (i : Nat) : State :=
  if (s.heap i).xtcp then s.listenClient (s.heap i).name (s.heap i).sk i else s

/-- `Close` of the proxy. -/
def closeProxy (s : State) (i : Nat) : State :=
  if (s.heap i).xtcp then s.closeClient (s.heap i).name else s

/-- `Manager.Add` and `Manager.Del`. -/
def setPxy (s : State) (name : String) (value : Option Nat) : State :=
  { s with pxys := Function.update s.pxys name value }

/-- Only `CloseProxy` removes the proxy from the map of the Control. -/
def forget (s : State) (c : Nat) (name : String) : State :=
  if (s.controls c).stopping then s
  else s.setControl c { s.controls c with
    proxies := Function.update (s.controls c).proxies name none }

def remember (s : State) (c i : Nat) : State :=
  s.setControl c { s.controls c with
    proxies := Function.update (s.controls c).proxies (s.heap i).name (some i) }

/-- The next step of the goroutine of `c`, which works on proxy `i`; a `Close`
that it makes returns. -/
def advance (s : State) (c i : Nat) : Option State :=
  match (s.heap i).pc with
  | .ran =>
      match s.pxys (s.heap i).name with
      | some _ => some (s.setPc i .rejected)
      | none => some ((s.setPxy (s.heap i).name (some i)).setPc i .added)
  | .added => some (((s.remember c i).setBusy c none).setPc i .registered)
  | .rejected => some (((s.closeProxy i).setBusy c none).setPc i .gone)
  | .closing => some ((s.closeProxy i).setPc i .closed)
  | .closed =>
      some ((((s.setPxy (s.heap i).name none).forget c
        (s.heap i).name).setBusy c none).setPc i .gone)
  | .unused | .created | .registered | .abandoned | .gone => none

/-- The goroutine of `c` ends by a panic. -/
def abort (s : State) (c : Nat) (site : CloseSite) : State :=
  s.setControl c { s.controls c with
    busy := none
    panicked := true
    mu := site.keepsLock .panicked }

/-- The `Close` of proxy `i` panics: that of a `Run` that fails halfway or of the
rollback in `RegisterProxy`, or that in `CloseProxy` or the stoper, which leave
the proxy in the Manager.  An xtcp proxy has no listener that could panic. -/
def panic (s : State) (c i : Nat) : Option State :=
  if (s.heap i).xtcp then none
  else
    match (s.heap i).pc with
    | .created | .rejected =>
        some ((s.abort c .registerProxy).setPc i .gone)
    | .closing =>
        let site := if (s.controls c).stopping then CloseSite.stoper
          else .closeProxy
        some ((s.abort c site).setPc i .abandoned)
    | .unused | .ran | .added | .registered | .closed | .abandoned
    | .gone => none

end State

def step (s : State) : Action → Option State
  | .create c i name xtcp sk =>
      if (s.controls c).busy = none ∧ (s.controls c).stopping = false ∧
          (s.controls c).panicked = false ∧ (s.heap i).pc = .unused then
        some ((s.setProxy i ⟨name, xtcp, sk, c, .created⟩).setBusy c (some i))
      else none
  | .run c success =>
      match (s.controls c).busy with
      | none => none
      | some i =>
          if (s.heap i).pc = .created then
            if success then some ((s.runProxy i).setPc i .ran)
            else some ((s.setBusy c none).setPc i .gone)
          else none
  | .advance c =>
      match (s.controls c).busy with
      | none => none
      | some i => s.advance c i
  | .panic c =>
      match (s.controls c).busy with
      | none => none
      | some i => s.panic c i
  | .closeProxy c name =>
      if (s.controls c).busy = none ∧ (s.controls c).stopping = false ∧
          (s.controls c).panicked = false then
        match (s.controls c).proxies name with
        | none => none
        | some i => some ((s.setBusy c (some i)).setPc i .closing)
      else none
  | .stop c =>
      if (s.controls c).busy = none ∧ (s.controls c).stopping = false ∧
          (s.controls c).mu = false then
        some (s.setControl c { s.controls c with
          stopping := true
          panicked := false })
      else none
  | .stopNext c name =>
      if (s.controls c).busy = none ∧ (s.controls c).stopping = true ∧
          (s.controls c).panicked = false ∧
          name ∉ (s.controls c).visited then
        match (s.controls c).proxies name with
        | none => none
        | some i => some ((s.setControl c { s.controls c with
            busy := some i
            visited := insert name (s.controls c).visited }).setPc i .closing)
      else none

def system : System State Action where
  start := init
  step := step

namespace State

/-- No registration or close of the name is in progress. -/
def Settled (s : State) (name : String) : Prop :=
  ∀ c i, (s.controls c).busy = some i → (s.heap i).name ≠ name

/-- The ClientCfg that the `Run` of proxy `i` creates. -/
def cfgOf (s : State) (i : Nat) : ClientCfg :=
  ⟨(s.heap i).name, (s.heap i).sk, i⟩

/-- The entry of the name is that of the registered xtcp proxy, and there is
none without such a proxy. -/
def NameOwned (s : State) (name : String) : Prop :=
  (∀ i, s.pxys name = some i → (s.heap i).xtcp = true →
    s.clientCfgs name = some (s.cfgOf i)) ∧
  (∀ cfg, s.clientCfgs name = some cfg →
    ∃ i, s.pxys name = some i ∧ (s.heap i).xtcp = true)

end State

/-- `Run` of an xtcp proxy finds no entry under its name. -/
def Permitted (s : State) : Action → Prop
  | .run c true => ∀ i ∈ (s.controls c).busy, (s.heap i).xtcp = true →
      s.clientCfgs (s.heap i).name = none
  | _ => True

instance (s : State) (action : Action) : Decidable (Permitted s action) :=
  match action with
  | .run c true => inferInstanceAs (Decidable (∀ i ∈ (s.controls c).busy,
      (s.heap i).xtcp = true → s.clientCfgs (s.heap i).name = none))
  | .run _ false | .create _ _ _ _ _ | .advance _ | .panic _
  | .closeProxy _ _ | .stop _ | .stopNext _ _ =>
      inferInstanceAs (Decidable True)

/-- A goroutine of the Control works on the proxy. -/
def atWork : ProxyPc → Bool
  | .created | .ran | .rejected | .added | .closing | .closed => true
  | .unused | .registered | .abandoned | .gone => false

/-- The map of the Control may name the proxy. -/
def mapped : ProxyPc → Bool
  | .registered | .closing | .closed | .abandoned => true
  | .unused | .created | .ran | .rejected | .added | .gone => false

/-- The name under which the proxy has a ClientCfg. -/
def listens (pxy : ServerProxy) : Option String :=
  match pxy.pc with
  | .ran | .rejected | .added | .registered | .closing | .abandoned =>
      if pxy.xtcp then some pxy.name else none
  | .unused | .created | .closed | .gone => none

/-- The name under which the proxy is in the Manager. -/
def enters (pxy : ServerProxy) : Option String :=
  match pxy.pc with
  | .added | .registered | .closing | .closed | .abandoned => some pxy.name
  | .unused | .created | .ran | .rejected | .gone => none

theorem name_of_listens {pxy : ServerProxy} {name : String}
    (hlistens : listens pxy = some name) : pxy.name = name := by
  unfold listens at hlistens
  split at hlistens
  all_goals simp_all

theorem name_of_enters {pxy : ServerProxy} {name : String}
    (henters : enters pxy = some name) : pxy.name = name := by
  unfold enters at henters
  split at henters
  all_goals simp_all

/-- A proxy that nobody works on listens if it is in the Manager and xtcp. -/
theorem listens_iff_of_idle {pxy : ServerProxy}
    (hidle : atWork pxy.pc = false) :
    listens pxy = some pxy.name ↔
      enters pxy = some pxy.name ∧ pxy.xtcp = true := by
  cases hpc : pxy.pc <;> simp [hpc, atWork, listens, enters] at hidle ⊢

namespace State

/-- The table read as a register of the proxies that listen. -/
def listener (s : State) : String → Option Nat :=
  Option.map ClientCfg.sidCh ∘ s.clientCfgs

/-- Both tables list what the proxies hold, with the data of their own `Run`. -/
structure Tables (s : State) : Prop where
  listening : Ledger.Exact s.listener (listens ∘ s.heap)
  entered : Ledger.Exact s.pxys (enters ∘ s.heap)
  truthful : ∀ name cfg, s.clientCfgs name = some cfg →
    cfg = ⟨name, (s.heap cfg.sidCh).sk, cfg.sidCh⟩

/-- Neither goroutine of the Control takes a step again. -/
structure Deserted (ctl : ServerControl) : Prop where
  idle : ctl.busy = none
  panicked : ctl.panicked = true
  last : ctl.stopping = true ∨ ctl.mu = true

/-- Which goroutine works on which proxy, and what the Controls remember. -/
structure Schedule (s : State) : Prop where
  working : ∀ i, atWork (s.heap i).pc = true →
    (s.controls (s.heap i).control).busy = some i
  own : ∀ c i, (s.controls c).busy = some i →
    (s.heap i).control = c ∧ atWork (s.heap i).pc = true
  remembered : ∀ c name i, (s.controls c).proxies name = some i →
    name ∉ (s.controls c).visited →
    (s.heap i).control = c ∧ (s.heap i).name = name ∧
      mapped (s.heap i).pc = true
  visiting : ∀ c i, (s.controls c).busy = some i →
    (s.controls c).stopping = true →
    (s.heap i).name ∈ (s.controls c).visited
  unvisited : ∀ c, (s.controls c).stopping = false →
    (s.controls c).visited = ∅
  abandoned : ∀ i, (s.heap i).pc = .abandoned →
    Deserted (s.controls (s.heap i).control)

theorem tables_init : init.Tables where
  listening owner name := by simp [listener, listens, init]
  entered owner name := by simp [enters, init]
  truthful name cfg hcfg := by simp [init] at hcfg

theorem schedule_init : init.Schedule where
  working i hwork := by simp [atWork, init] at hwork
  own c i hbusy := by simp [init] at hbusy
  remembered c name i hentry := by simp [init] at hentry
  visiting c i hbusy := by simp [init] at hbusy
  unvisited _ _ := rfl
  abandoned i habandoned := by simp [init] at habandoned

/-- One Control works on one of its proxies; everything else stays. -/
theorem Schedule.update {s s' : State} (hschedule : s.Schedule) (c i : Nat)
    {pxy : ServerProxy} {ctl : ServerControl}
    (hheap : s'.heap = Function.update s.heap i pxy)
    (hcontrols : s'.controls = Function.update s.controls c ctl)
    (hcontrol : pxy.control = c)
    (hbusy : ctl.busy = if atWork pxy.pc then some i else none)
    (hbefore : ((s.controls c).busy = none ∧
      (s.controls c).panicked = false) ∨ (s.controls c).busy = some i)
    (hfrom : (s.heap i).control = c ∨ (s.heap i).pc = .unused)
    (hmap : ∀ name j, ctl.proxies name = some j → name ∉ ctl.visited →
      (j = i ∧ pxy.name = name ∧ mapped pxy.pc = true) ∨
      (j ≠ i ∧ (s.controls c).proxies name = some j ∧
        name ∉ (s.controls c).visited))
    (hvisiting : ctl.stopping = true → atWork pxy.pc = true →
      pxy.name ∈ ctl.visited)
    (hunvisited : ctl.stopping = false → ctl.visited = ∅)
    (habandoned : pxy.pc = .abandoned → Deserted ctl) : s'.Schedule := by
  have hother : ∀ {c' j : Nat}, c' ≠ c → (s.heap j).control = c' →
      (s.heap j).pc ≠ .unused → j ≠ i := by
    rintro c' j hc hown hused rfl
    rcases hfrom with hfrom | hunused
    · exact hc (hown.symm.trans hfrom)
    · exact hused hunused
  constructor
  · intro j hwork
    rw [hheap] at hwork ⊢
    rw [hcontrols]
    by_cases hj : j = i
    · subst hj
      rw [Function.update_self] at hwork ⊢
      rw [hcontrol, Function.update_self, hbusy, if_pos hwork]
    · rw [Function.update_of_ne hj] at hwork ⊢
      have hold := hschedule.working j hwork
      have hother : (s.heap j).control ≠ c := by
        intro hc
        rw [hc] at hold
        rcases hbefore with ⟨hnone, _⟩ | hsome
        · simp [hold] at hnone
        · rw [hold, Option.some.injEq] at hsome
          exact hj hsome
      rw [Function.update_of_ne hother]
      exact hold
  · intro c' j hj
    rw [hcontrols] at hj
    rw [hheap]
    by_cases hc : c' = c
    · rw [hc, Function.update_self, hbusy, Option.ite_none_right_eq_some,
        Option.some.injEq] at hj
      rw [← hj.2, Function.update_self]
      exact ⟨hcontrol.trans hc.symm, hj.1⟩
    · rw [Function.update_of_ne hc] at hj
      obtain ⟨hown, hwork⟩ := hschedule.own c' j hj
      rw [Function.update_of_ne (hother hc hown (by
        intro hunused
        simp [hunused, atWork] at hwork))]
      exact ⟨hown, hwork⟩
  · intro c' name j hj hvisited
    rw [hcontrols] at hj hvisited
    rw [hheap]
    by_cases hc : c' = c
    · rw [hc, Function.update_self] at hj hvisited
      rcases hmap name j hj hvisited with ⟨hsame, hname, hmapped⟩ |
        ⟨hsame, hentry, hnot⟩
      · rw [hsame, Function.update_self]
        exact ⟨hcontrol.trans hc.symm, hname, hmapped⟩
      · rw [Function.update_of_ne hsame, hc]
        exact hschedule.remembered c name j hentry hnot
    · rw [Function.update_of_ne hc] at hj hvisited
      obtain ⟨hown, hname, hmapped⟩ :=
        hschedule.remembered c' name j hj hvisited
      rw [Function.update_of_ne (hother hc hown (by
        intro hunused
        simp [hunused, mapped] at hmapped))]
      exact ⟨hown, hname, hmapped⟩
  · intro c' j hj hstopping
    rw [hcontrols] at hj hstopping ⊢
    rw [hheap]
    by_cases hc : c' = c
    · rw [hc, Function.update_self] at hj hstopping ⊢
      rw [hbusy, Option.ite_none_right_eq_some, Option.some.injEq] at hj
      rw [← hj.2, Function.update_self]
      exact hvisiting hstopping hj.1
    · rw [Function.update_of_ne hc] at hj hstopping ⊢
      obtain ⟨hown, hwork⟩ := hschedule.own c' j hj
      rw [Function.update_of_ne (hother hc hown (by
        intro hunused
        simp [hunused, atWork] at hwork))]
      exact hschedule.visiting c' j hj hstopping
  · intro c' hserving
    rw [hcontrols] at hserving ⊢
    by_cases hc : c' = c
    · rw [hc, Function.update_self] at hserving ⊢
      exact hunvisited hserving
    · rw [Function.update_of_ne hc] at hserving ⊢
      exact hschedule.unvisited c' hserving
  · intro j hj
    rw [hheap] at hj ⊢
    rw [hcontrols]
    by_cases hsame : j = i
    · rw [hsame, Function.update_self] at hj ⊢
      rw [hcontrol, Function.update_self]
      exact habandoned hj
    · rw [Function.update_of_ne hsame] at hj ⊢
      have hold := hschedule.abandoned j hj
      have hc : (s.heap j).control ≠ c := by
        intro hc
        rw [hc] at hold
        rcases hbefore with ⟨_, hserves⟩ | hsome
        · simp [hold.panicked] at hserves
        · simp [hold.idle] at hsome
      rw [Function.update_of_ne hc]
      exact hold

/-- The Controls are no part of the tables. -/
theorem Tables.congr {s s' : State} (htables : s.Tables)
    (hcfgs : s'.clientCfgs = s.clientCfgs) (hpxys : s'.pxys = s.pxys)
    (hheap : s'.heap = s.heap) : s'.Tables := by
  obtain ⟨cfgs, pxys, heap, controls⟩ := s'
  subst hcfgs hpxys hheap
  exact ⟨htables.listening, htables.entered, htables.truthful⟩

/-- A proxy without a ClientCfg is the listener of no entry. -/
theorem Tables.sidCh_ne {s : State} (htables : s.Tables) {i : Nat}
    (hsilent : listens (s.heap i) = none) {name : String} {cfg : ClientCfg}
    (hcfg : s.clientCfgs name = some cfg) : cfg.sidCh ≠ i := by
  rintro rfl
  have hentry : s.listener name = some cfg.sidCh := by
    simp [listener, hcfg]
  rw [htables.listening, Function.comp_apply, hsilent] at hentry
  cases hentry

/-- A fresh proxy is in neither table. -/
theorem Tables.create {s : State} (htables : s.Tables) {i : Nat}
    {pxy : ServerProxy} (hunused : (s.heap i).pc = .unused)
    (hcreated : pxy.pc = .created) : (s.setProxy i pxy).Tables where
  listening := by
    have hsame : listens pxy = (listens ∘ s.heap) i := by
      simp [listens, hunused, hcreated]
    show Ledger.Exact s.listener (listens ∘ Function.update s.heap i pxy)
    rw [Function.comp_update, hsame, Function.update_eq_self]
    exact htables.listening
  entered := by
    have hsame : enters pxy = (enters ∘ s.heap) i := by
      simp [enters, hunused, hcreated]
    show Ledger.Exact s.pxys (enters ∘ Function.update s.heap i pxy)
    rw [Function.comp_update, hsame, Function.update_eq_self]
    exact htables.entered
  truthful name cfg hcfg := by
    have hsilent : listens (s.heap i) = none := by
      simp [listens, hunused]
    have hother := htables.sidCh_ne hsilent hcfg
    simpa [setProxy, hother] using htables.truthful name cfg hcfg

/-- A proxy moves on to `pc`: the registers follow it, and a new entry is the
one that its own `Run` makes. -/
theorem Tables.move {s s' : State} (htables : s.Tables) {i : Nat}
    {pc : ProxyPc}
    (hheap : s'.heap = Function.update s.heap i { s.heap i with pc := pc })
    (hlistening : Ledger.Exact s'.listener (Function.update
      (listens ∘ s.heap) i (listens { s.heap i with pc := pc })))
    (hentered : Ledger.Exact s'.pxys (Function.update
      (enters ∘ s.heap) i (enters { s.heap i with pc := pc })))
    (hcfgs : ∀ name cfg, s'.clientCfgs name = some cfg →
      s.clientCfgs name = some cfg ∨
        (name = (s.heap i).name ∧ cfg = s.cfgOf i)) : s'.Tables where
  listening := by
    rw [hheap, Function.comp_update]
    exact hlistening
  entered := by
    rw [hheap, Function.comp_update]
    exact hentered
  truthful name cfg hcfg := by
    have hsk : ∀ j, (s'.heap j).sk = (s.heap j).sk := by
      intro j
      by_cases hj : j = i
      · simp [hheap, hj]
      · simp [hheap, hj]
    rw [hsk]
    rcases hcfgs name cfg hcfg with hold | ⟨hname, hnew⟩
    · exact htables.truthful name cfg hold
    · rw [hname, hnew]
      rfl

theorem listener_listenClient (s : State) (name sk : String) (sidCh : Nat) :
    (s.listenClient name sk sidCh).listener =
      Function.update s.listener name (some sidCh) := by
  simp only [listener, listenClient, Function.comp_update, Option.map_some]

theorem listener_closeClient (s : State) (name : String) :
    (s.closeClient name).listener = Function.update s.listener name none := by
  simp only [listener, closeClient, Function.comp_update, Option.map_none]

/-- A register that does not see the move of proxy `i`. -/
theorem exact_of_same {entry : String → Option Nat}
    {holds : Nat → Option String} (hexact : Ledger.Exact entry holds)
    {i : Nat} {held : Option String} (hheld : held = holds i) :
    Ledger.Exact entry (Function.update holds i held) := by
  rw [hheld, Function.update_eq_self]
  exact hexact

/-- `Run` of a proxy that finds no entry under its name. -/
theorem Tables.run {s : State} (htables : s.Tables) {i : Nat}
    (hcreated : (s.heap i).pc = .created)
    (hfree : (s.heap i).xtcp = true → s.clientCfgs (s.heap i).name = none) :
    ((s.runProxy i).setPc i .ran).Tables := by
  have henters : enters { s.heap i with pc := .ran } =
      (enters ∘ s.heap) i := by
    simp [enters, hcreated]
  by_cases hxtcp : (s.heap i).xtcp = true
  · have hlistens : listens { s.heap i with pc := .ran } =
        some (s.heap i).name := by
      simp [listens, hxtcp]
    have hentry : s.listener (s.heap i).name = none := by
      simp [listener, hfree hxtcp]
    simp only [runProxy, hxtcp, if_true]
    refine htables.move rfl ?_ (exact_of_same htables.entered henters) ?_
    · show Ledger.Exact (s.listenClient _ _ _).listener _
      rw [listener_listenClient, hlistens]
      apply htables.listening.claim hentry
      simp [listens, hcreated]
    · intro name cfg hcfg
      by_cases hname : name = (s.heap i).name
      · right
        subst hname
        refine ⟨rfl, ?_⟩
        have hnew : some (s.cfgOf i) = some cfg := by
          simpa [setPc, State.setProxy, listenClient, cfgOf] using hcfg
        exact (Option.some.inj hnew).symm
      · left
        simpa [setPc, State.setProxy, listenClient, hname] using hcfg
  · simp only [runProxy, hxtcp]
    refine htables.move rfl ?_ (exact_of_same htables.entered henters)
      (fun _ _ hcfg => Or.inl hcfg)
    apply exact_of_same htables.listening
    simp [listens, hcreated, hxtcp]

/-- `Close` of a proxy that listens, on its way to `pc`. -/
theorem Tables.close {s : State} (htables : s.Tables) {i : Nat} {pc : ProxyPc}
    (hlistens : listens (s.heap i) =
      if (s.heap i).xtcp then some (s.heap i).name else none)
    (hsilent : listens { s.heap i with pc := pc } = none)
    (henters : enters { s.heap i with pc := pc } = enters (s.heap i)) :
    ((s.closeProxy i).setPc i pc).Tables := by
  by_cases hxtcp : (s.heap i).xtcp = true
  · rw [if_pos hxtcp] at hlistens
    simp only [State.closeProxy, hxtcp, if_true]
    refine htables.move rfl ?_ (exact_of_same htables.entered henters) ?_
    · show Ledger.Exact (s.closeClient _).listener _
      rw [listener_closeClient, hsilent]
      exact htables.listening.drop hlistens
    · intro name cfg hcfg
      by_cases hname : name = (s.heap i).name
      · simp [setPc, State.setProxy, closeClient, hname] at hcfg
      · left
        simpa [setPc, State.setProxy, closeClient, hname] using hcfg
  · rw [if_neg hxtcp] at hlistens
    simp only [State.closeProxy, hxtcp]
    exact htables.move rfl
      (exact_of_same htables.listening (hsilent.trans hlistens.symm))
      (exact_of_same htables.entered henters) (fun _ _ hcfg => Or.inl hcfg)

theorem Tables.add {s : State} (htables : s.Tables) {i : Nat}
    (hran : (s.heap i).pc = .ran) (hfree : s.pxys (s.heap i).name = none) :
    ((s.setPxy (s.heap i).name (some i)).setPc i .added).Tables := by
  refine htables.move rfl ?_ ?_ (fun _ _ hcfg => Or.inl hcfg)
  · apply exact_of_same htables.listening
    simp [listens, hran]
  · apply htables.entered.claim hfree
    simp [enters, hran]

theorem Tables.del {s : State} (htables : s.Tables) {i : Nat}
    (hclosed : (s.heap i).pc = .closed) :
    ((s.setPxy (s.heap i).name none).setPc i .gone).Tables := by
  refine htables.move rfl ?_ ?_ (fun _ _ hcfg => Or.inl hcfg)
  · apply exact_of_same htables.listening
    simp [listens, hclosed]
  · apply htables.entered.drop
    simp [enters, hclosed]

/-- A move that neither register sees. -/
theorem Tables.setPc {s : State} (htables : s.Tables) {i : Nat} {pc : ProxyPc}
    (hlistens : listens { s.heap i with pc := pc } = listens (s.heap i))
    (henters : enters { s.heap i with pc := pc } = enters (s.heap i)) :
    (s.setPc i pc).Tables :=
  htables.move rfl (exact_of_same htables.listening hlistens)
    (exact_of_same htables.entered henters) (fun _ _ hcfg => Or.inl hcfg)

/-- The Control goes on with the proxy it works on. -/
theorem Schedule.proceed {s s' : State} (hschedule : s.Schedule) {c i : Nat}
    {pc : ProxyPc} (hbusy : (s.controls c).busy = some i)
    (hheap : s'.heap = Function.update s.heap i { s.heap i with pc := pc })
    (hcontrols : s'.controls = s.controls) (hwork : atWork pc = true)
    (hmapped : mapped (s.heap i).pc = true → mapped pc = true) :
    s'.Schedule := by
  obtain ⟨hown, _⟩ := hschedule.own c i hbusy
  refine hschedule.update c i hheap
    (hcontrols.trans (Function.update_eq_self c s.controls).symm) hown
    (by rw [hbusy, if_pos hwork]) (Or.inr hbusy) (Or.inl hown) ?_ ?_
    (hschedule.unvisited c) (by rintro rfl; cases hwork)
  · intro name j hentry hvisited
    by_cases hj : j = i
    · obtain ⟨_, hname, hold⟩ := hschedule.remembered c name j hentry hvisited
      rw [hj] at hname hold
      exact Or.inl ⟨hj, hname, hmapped hold⟩
    · exact Or.inr ⟨hj, hentry, hvisited⟩
  · intro hstopping _
    exact hschedule.visiting c i hbusy hstopping

/-- The Control is done with the proxy, which its map may go on to name, and its
goroutine goes on to other work or ends. -/
theorem Schedule.finish {s s' : State} (hschedule : s.Schedule) {c i : Nat}
    {pc : ProxyPc} {panicked mu : Bool}
    (hbusy : (s.controls c).busy = some i)
    (hheap : s'.heap = Function.update s.heap i { s.heap i with pc := pc })
    (hcontrols : s'.controls = Function.update s.controls c
      { s.controls c with busy := none, panicked := panicked, mu := mu })
    (hidle : atWork pc = false)
    (hmapped : mapped (s.heap i).pc = true → mapped pc = true)
    (habandoned : pc = .abandoned → panicked = true ∧
      ((s.controls c).stopping = true ∨ mu = true)) :
    s'.Schedule := by
  obtain ⟨hown, _⟩ := hschedule.own c i hbusy
  refine hschedule.update c i hheap hcontrols hown (by simp [hidle])
    (Or.inr hbusy) (Or.inl hown) ?_ ?_ (hschedule.unvisited c)
    (fun hpc => ⟨rfl, (habandoned hpc).1, (habandoned hpc).2⟩)
  · intro name j hentry hvisited
    by_cases hj : j = i
    · obtain ⟨_, hname, hold⟩ := hschedule.remembered c name j hentry hvisited
      rw [hj] at hname hold
      exact Or.inl ⟨hj, hname, hmapped hold⟩
    · exact Or.inr ⟨hj, hentry, hvisited⟩
  · intro _ hwork
    rw [hidle] at hwork
    cases hwork

theorem controls_setBusy_setControl (s : State) (c : Nat)
    (ctl : ServerControl) (busy : Option Nat) :
    ((s.setControl c ctl).setBusy c busy).controls =
      Function.update s.controls c { ctl with busy := busy } := by
  simp [setBusy, setControl]

theorem Schedule.insert {s : State} (hschedule : s.Schedule) {c i : Nat}
    (hbusy : (s.controls c).busy = some i) (hadded : (s.heap i).pc = .added) :
    (((s.remember c i).setBusy c none).setPc i .registered).Schedule := by
  obtain ⟨hown, _⟩ := hschedule.own c i hbusy
  refine hschedule.update c i rfl (controls_setBusy_setControl s c _ none)
    hown rfl (Or.inr hbusy) (Or.inl hown) ?_ ?_ (hschedule.unvisited c)
    (fun hpc => by cases hpc)
  · intro name j hentry hvisited
    by_cases hname : name = (s.heap i).name
    · left
      have hsame : i = j := by
        simpa [hname] using hentry
      exact ⟨hsame.symm, hname.symm, rfl⟩
    · right
      have hold : (s.controls c).proxies name = some j := by
        simpa [hname] using hentry
      refine ⟨?_, hold, hvisited⟩
      rintro rfl
      obtain ⟨_, hsame, _⟩ := hschedule.remembered c name j hold hvisited
      exact hname hsame.symm
  · intro _ hwork
    cases hwork

theorem Schedule.del {s : State} (hschedule : s.Schedule) {c i : Nat}
    (hbusy : (s.controls c).busy = some i) :
    ((((s.setPxy (s.heap i).name none).forget c (s.heap i).name).setBusy c
      none).setPc i .gone).Schedule := by
  obtain ⟨hown, _⟩ := hschedule.own c i hbusy
  by_cases hstopping : (s.controls c).stopping = true
  · have hforget : (s.setPxy (s.heap i).name none).forget c (s.heap i).name =
        s.setPxy (s.heap i).name none := by
      simp [forget, setPxy, hstopping]
    rw [hforget]
    refine hschedule.update c i rfl rfl hown rfl (Or.inr hbusy) (Or.inl hown)
      ?_ (fun _ hwork => by cases hwork) (hschedule.unvisited c)
      (fun hpc => by cases hpc)
    intro name j hentry hvisited
    right
    refine ⟨?_, hentry, hvisited⟩
    rintro rfl
    obtain ⟨_, hname, _⟩ := hschedule.remembered c name j hentry hvisited
    exact hvisited (hname ▸ hschedule.visiting c j hbusy hstopping)
  · have hforget : (s.setPxy (s.heap i).name none).forget c (s.heap i).name =
        (s.setPxy (s.heap i).name none).setControl c { s.controls c with
          proxies := Function.update (s.controls c).proxies
            (s.heap i).name none } := by
      simp [forget, setPxy, hstopping]
    rw [hforget]
    refine hschedule.update c i rfl
      (controls_setBusy_setControl _ c _ none) hown rfl (Or.inr hbusy)
      (Or.inl hown) ?_ (fun _ hwork => by cases hwork)
      (hschedule.unvisited c) (fun hpc => by cases hpc)
    intro name j hentry hvisited
    right
    by_cases hname : name = (s.heap i).name
    · simp [hname] at hentry
    · have hold : (s.controls c).proxies name = some j := by
        simpa [hname] using hentry
      refine ⟨?_, hold, hvisited⟩
      rintro rfl
      obtain ⟨_, hsame, _⟩ := hschedule.remembered c name j hold hvisited
      exact hname hsame.symm

/-- An idle Control takes up a registered proxy to close it. -/
theorem Schedule.take {s s' : State} (hschedule : s.Schedule) {c i : Nat}
    {name : String} {visited : Finset String}
    (hbusy : (s.controls c).busy = none)
    (hserves : (s.controls c).panicked = false)
    (hentry : (s.controls c).proxies name = some i)
    (hvisited : name ∉ (s.controls c).visited)
    (hheap : s'.heap =
      Function.update s.heap i { s.heap i with pc := .closing })
    (hcontrols : s'.controls = Function.update s.controls c
      { s.controls c with busy := some i, visited := visited })
    (hmore : (s.controls c).visited ⊆ visited)
    (hstop : (s.controls c).stopping = true → name ∈ visited)
    (hserve : (s.controls c).stopping = false → visited = ∅) :
    s'.Schedule := by
  obtain ⟨hown, hname, _⟩ := hschedule.remembered c name i hentry hvisited
  refine hschedule.update c i hheap hcontrols hown rfl
    (Or.inl ⟨hbusy, hserves⟩) (Or.inl hown) ?_ ?_ hserve
    (fun hpc => by cases hpc)
  · intro other j hother hnot
    have hold : other ∉ (s.controls c).visited := fun h => hnot (hmore h)
    by_cases hj : j = i
    · obtain ⟨_, hsame, _⟩ := hschedule.remembered c other j hother hold
      exact Or.inl ⟨hj, hj ▸ hsame, rfl⟩
    · exact Or.inr ⟨hj, hother, hold⟩
  · intro hstopping _
    exact hname ▸ hstop hstopping

/-- An idle Control knows its proxies as registered. -/
theorem Schedule.registered {s : State} (hschedule : s.Schedule) {c i : Nat}
    {name : String} (hbusy : (s.controls c).busy = none)
    (hserves : (s.controls c).panicked = false)
    (hentry : (s.controls c).proxies name = some i)
    (hvisited : name ∉ (s.controls c).visited) :
    (s.heap i).pc = .registered := by
  obtain ⟨hown, _, hmapped⟩ := hschedule.remembered c name i hentry hvisited
  have hidle : atWork (s.heap i).pc ≠ true := by
    intro hwork
    have hsome := hschedule.working i hwork
    rw [hown, hbusy] at hsome
    cases hsome
  have hkept : (s.heap i).pc ≠ .abandoned := by
    intro habandoned
    have hdeserted := hschedule.abandoned i habandoned
    rw [hown] at hdeserted
    simp [hdeserted.panicked] at hserves
  cases hpc : (s.heap i).pc <;>
    simp [hpc, atWork, mapped] at hidle hmapped hkept ⊢

theorem Schedule.stop {s : State} (hschedule : s.Schedule) {c : Nat}
    (hbusy : (s.controls c).busy = none)
    (hserving : (s.controls c).stopping = false)
    (hfree : (s.controls c).mu = false) :
    (s.setControl c { s.controls c with
      stopping := true, panicked := false }).Schedule := by
  have hfields : ∀ c', ((s.setControl c { s.controls c with
        stopping := true, panicked := false }).controls c').busy =
          (s.controls c').busy ∧
      ((s.setControl c { s.controls c with
        stopping := true, panicked := false }).controls c').proxies =
          (s.controls c').proxies ∧
      ((s.setControl c { s.controls c with
        stopping := true, panicked := false }).controls c').visited =
          (s.controls c').visited := by
    intro c'
    by_cases hc : c' = c
    · simp [setControl, hc]
    · simp [setControl, hc]
  constructor
  · intro i hwork
    exact (hfields _).1.trans (hschedule.working i hwork)
  · intro c' i hsome
    exact hschedule.own c' i ((hfields c').1 ▸ hsome)
  · intro c' name i hentry hvisited
    rw [(hfields c').2.1] at hentry
    rw [(hfields c').2.2] at hvisited
    exact hschedule.remembered c' name i hentry hvisited
  · intro c' i hsome hstopping
    rw [(hfields c').1] at hsome
    rw [(hfields c').2.2]
    by_cases hc : c' = c
    · simp [hc, hbusy] at hsome
    · apply hschedule.visiting c' i hsome
      simpa [setControl, hc] using hstopping
  · intro c' hserving'
    by_cases hc : c' = c
    · simp [setControl, hc] at hserving'
    · rw [(hfields c').2.2]
      apply hschedule.unvisited c'
      simpa [setControl, hc] using hserving'
  · intro i habandoned
    have hdeserted := hschedule.abandoned i habandoned
    have hc : (s.heap i).control ≠ c := by
      intro hc
      rw [hc] at hdeserted
      rcases hdeserted.last with hstopping | hlocked
      · simp [hstopping] at hserving
      · simp [hlocked] at hfree
    simpa [setControl, hc] using hdeserted

@[simp] theorem runProxy_heap (s : State) (i : Nat) : (s.runProxy i).heap = s.heap := by
  unfold runProxy
  split <;> rfl

@[simp] theorem runProxy_controls (s : State) (i : Nat) :
    (s.runProxy i).controls = s.controls := by
  unfold runProxy
  split <;> rfl

@[simp] theorem closeProxy_heap (s : State) (i : Nat) :
    (s.closeProxy i).heap = s.heap := by
  unfold closeProxy
  split <;> rfl

@[simp] theorem closeProxy_controls (s : State) (i : Nat) :
    (s.closeProxy i).controls = s.controls := by
  unfold closeProxy
  split <;> rfl

@[simp] theorem runProxy_pxys (s : State) (i : Nat) :
    (s.runProxy i).pxys = s.pxys := by
  unfold runProxy
  split <;> rfl

@[simp] theorem closeProxy_pxys (s : State) (i : Nat) :
    (s.closeProxy i).pxys = s.pxys := by
  unfold closeProxy
  split <;> rfl

theorem Schedule.create {s : State} (hschedule : s.Schedule) {c i : Nat}
    {name sk : String} {xtcp : Bool} (hbusy : (s.controls c).busy = none)
    (hserving : (s.controls c).stopping = false)
    (hserves : (s.controls c).panicked = false)
    (hunused : (s.heap i).pc = .unused) :
    ((s.setProxy i ⟨name, xtcp, sk, c, .created⟩).setBusy c
      (some i)).Schedule := by
  refine hschedule.update c i rfl rfl rfl rfl (Or.inl ⟨hbusy, hserves⟩)
    (Or.inr hunused) ?_ ?_ (hschedule.unvisited c) (fun hpc => by cases hpc)
  · intro other j hentry hvisited
    right
    refine ⟨?_, hentry, hvisited⟩
    rintro rfl
    obtain ⟨_, _, hmapped⟩ := hschedule.remembered c other j hentry hvisited
    simp [hunused, mapped] at hmapped
  · intro hstopping
    simp [setProxy, hserving] at hstopping

/-- All that the next step of a Control can do for its proxy. -/
inductive Advances (s : State) (c i : Nat) : State → Prop where
  | reject {other : Nat} (hran : (s.heap i).pc = .ran)
      (htaken : s.pxys (s.heap i).name = some other) :
      Advances s c i (s.setPc i .rejected)
  | add (hran : (s.heap i).pc = .ran)
      (hfree : s.pxys (s.heap i).name = none) :
      Advances s c i ((s.setPxy (s.heap i).name (some i)).setPc i .added)
  | register (hadded : (s.heap i).pc = .added) :
      Advances s c i (((s.remember c i).setBusy c none).setPc i .registered)
  | giveUp (hrejected : (s.heap i).pc = .rejected) :
      Advances s c i (((s.closeProxy i).setBusy c none).setPc i .gone)
  | close (hclosing : (s.heap i).pc = .closing) :
      Advances s c i ((s.closeProxy i).setPc i .closed)
  | del (hclosed : (s.heap i).pc = .closed) :
      Advances s c i ((((s.setPxy (s.heap i).name none).forget c
        (s.heap i).name).setBusy c none).setPc i .gone)

theorem advances_of_advance {s s' : State} {c i : Nat}
    (hnext : s.advance c i = some s') : s.Advances c i s' := by
  cases hpc : (s.heap i).pc with
  | ran =>
      cases hpxy : s.pxys (s.heap i).name with
      | some other =>
          simp only [State.advance, hpc, hpxy, Option.some.injEq] at hnext
          exact hnext ▸ .reject hpc hpxy
      | none =>
          simp only [State.advance, hpc, hpxy, Option.some.injEq] at hnext
          exact hnext ▸ .add hpc hpxy
  | added =>
      simp only [State.advance, hpc, Option.some.injEq] at hnext
      exact hnext ▸ .register hpc
  | rejected =>
      simp only [State.advance, hpc, Option.some.injEq] at hnext
      exact hnext ▸ .giveUp hpc
  | closing =>
      simp only [State.advance, hpc, Option.some.injEq] at hnext
      exact hnext ▸ .close hpc
  | closed =>
      simp only [State.advance, hpc, Option.some.injEq] at hnext
      exact hnext ▸ .del hpc
  | unused | created | registered | abandoned | gone =>
      simp [State.advance, hpc] at hnext

/-- All that a `Close` that panics leaves behind. -/
inductive Panics (s : State) (c i : Nat) : State → Prop where
  | giveUp (hxtcp : (s.heap i).xtcp = false)
      (hmaking : (s.heap i).pc = .created ∨ (s.heap i).pc = .rejected) :
      Panics s c i ((s.abort c .registerProxy).setPc i .gone)
  | leave {site : CloseSite} (hxtcp : (s.heap i).xtcp = false)
      (hclosing : (s.heap i).pc = .closing)
      (hlast : (s.controls c).stopping = true ∨
        site.keepsLock .panicked = true) :
      Panics s c i ((s.abort c site).setPc i .abandoned)

theorem panics_of_panic {s s' : State} {c i : Nat}
    (hnext : s.panic c i = some s') : s.Panics c i s' := by
  unfold State.panic at hnext
  split at hnext
  · cases hnext
  · rename_i hother
    have hxtcp : (s.heap i).xtcp = false := by simpa using hother
    cases hpc : (s.heap i).pc with
    | created | rejected =>
        simp only [hpc, Option.some.injEq] at hnext
        subst hnext
        exact .giveUp hxtcp (by simp [hpc])
    | closing =>
        simp only [hpc, Option.some.injEq] at hnext
        subst hnext
        refine .leave hxtcp hpc ?_
        by_cases hstopping : (s.controls c).stopping = true
        · exact Or.inl hstopping
        · simp [hstopping, CloseSite.keepsLock]
    | unused | ran | added | registered | closed | abandoned | gone =>
        simp [hpc] at hnext

theorem Schedule.panic {s s' : State} (hschedule : s.Schedule) {c i : Nat}
    (hbusy : (s.controls c).busy = some i)
    (hnext : s.panic c i = some s') : s'.Schedule := by
  cases panics_of_panic hnext with
  | giveUp _ hmaking =>
      apply hschedule.finish hbusy rfl rfl rfl
      · rcases hmaking with hpc | hpc <;> simp [hpc, mapped]
      · simp
  | leave _ hclosing hlast =>
      exact hschedule.finish hbusy rfl rfl rfl (fun _ => rfl)
        (fun _ => ⟨rfl, hlast⟩)

theorem Schedule.advance {s s' : State} (hschedule : s.Schedule) {c i : Nat}
    (hbusy : (s.controls c).busy = some i)
    (hnext : s.advance c i = some s') : s'.Schedule := by
  cases advances_of_advance hnext with
  | reject hran _ =>
      exact hschedule.proceed hbusy rfl rfl rfl (by simp [mapped, hran])
  | add hran _ =>
      exact hschedule.proceed hbusy rfl rfl rfl (by simp [mapped, hran])
  | register hadded => exact hschedule.insert hbusy hadded
  | giveUp hrejected =>
      apply hschedule.finish hbusy
      · show Function.update (s.closeProxy i).heap i
          { (s.closeProxy i).heap i with pc := .gone } = _
        rw [closeProxy_heap]
      · show Function.update (s.closeProxy i).controls c
          { (s.closeProxy i).controls c with busy := none } = _
        rw [closeProxy_controls]
      · rfl
      · simp [mapped, hrejected]
      · simp
  | close hclosing =>
      apply hschedule.proceed hbusy
      · show Function.update (s.closeProxy i).heap i
          { (s.closeProxy i).heap i with pc := .closed } = _
        rw [closeProxy_heap]
      · exact closeProxy_controls s i
      · rfl
      · exact fun _ => rfl
  | del => exact hschedule.del hbusy

/-- All that a step can do. -/
inductive Steps (s : State) : Action → State → Prop where
  | create {c i : Nat} (name : String) (xtcp : Bool) (sk : String)
      (hbusy : (s.controls c).busy = none)
      (hserving : (s.controls c).stopping = false)
      (hserves : (s.controls c).panicked = false)
      (hunused : (s.heap i).pc = .unused) :
      Steps s (.create c i name xtcp sk)
        ((s.setProxy i ⟨name, xtcp, sk, c, .created⟩).setBusy c (some i))
  | ran {c i : Nat} (hbusy : (s.controls c).busy = some i)
      (hcreated : (s.heap i).pc = .created) :
      Steps s (.run c true) ((s.runProxy i).setPc i .ran)
  | failed {c i : Nat} (hbusy : (s.controls c).busy = some i)
      (hcreated : (s.heap i).pc = .created) :
      Steps s (.run c false) ((s.setBusy c none).setPc i .gone)
  | advance {c i : Nat} {s' : State} (hbusy : (s.controls c).busy = some i)
      (hnext : s.advance c i = some s') : Steps s (.advance c) s'
  | panic {c i : Nat} {s' : State} (hbusy : (s.controls c).busy = some i)
      (hnext : s.panic c i = some s') : Steps s (.panic c) s'
  | closeProxy {c i : Nat} {name : String}
      (hbusy : (s.controls c).busy = none)
      (hserving : (s.controls c).stopping = false)
      (hserves : (s.controls c).panicked = false)
      (hentry : (s.controls c).proxies name = some i) :
      Steps s (.closeProxy c name) ((s.setBusy c (some i)).setPc i .closing)
  | stop {c : Nat} (hbusy : (s.controls c).busy = none)
      (hserving : (s.controls c).stopping = false)
      (hfree : (s.controls c).mu = false) :
      Steps s (.stop c) (s.setControl c { s.controls c with
        stopping := true
        panicked := false })
  | stopNext {c i : Nat} {name : String}
      (hbusy : (s.controls c).busy = none)
      (hstopping : (s.controls c).stopping = true)
      (hserves : (s.controls c).panicked = false)
      (hvisited : name ∉ (s.controls c).visited)
      (hentry : (s.controls c).proxies name = some i) :
      Steps s (.stopNext c name) ((s.setControl c { s.controls c with
        busy := some i
        visited := insert name (s.controls c).visited }).setPc i .closing)

theorem steps_of_step {s s' : State} {action : Action}
    (hstep : NatHole.step s action = some s') : s.Steps action s' := by
  cases action with
  | create c i name xtcp sk =>
      simp only [NatHole.step, Option.ite_none_right_eq_some,
        Option.some.injEq] at hstep
      obtain ⟨⟨hbusy, hserving, hserves, hunused⟩, rfl⟩ := hstep
      exact .create name xtcp sk hbusy hserving hserves hunused
  | run c success =>
      cases hbusy : (s.controls c).busy with
      | none => simp [NatHole.step, hbusy] at hstep
      | some i =>
          simp only [NatHole.step, hbusy, Option.ite_none_right_eq_some] at hstep
          obtain ⟨hcreated, hnext⟩ := hstep
          cases success with
          | true =>
              simp only [if_true, Option.some.injEq] at hnext
              subst hnext
              exact .ran hbusy hcreated
          | false =>
              simp only [Bool.false_eq_true, if_false,
                Option.some.injEq] at hnext
              subst hnext
              exact .failed hbusy hcreated
  | advance c =>
      cases hbusy : (s.controls c).busy with
      | none => simp [NatHole.step, hbusy] at hstep
      | some i =>
          simp only [NatHole.step, hbusy] at hstep
          exact .advance hbusy hstep
  | panic c =>
      cases hbusy : (s.controls c).busy with
      | none => simp [NatHole.step, hbusy] at hstep
      | some i =>
          simp only [NatHole.step, hbusy] at hstep
          exact .panic hbusy hstep
  | closeProxy c name =>
      simp only [NatHole.step, Option.ite_none_right_eq_some] at hstep
      obtain ⟨⟨hbusy, hserving, hserves⟩, hfound⟩ := hstep
      cases hentry : (s.controls c).proxies name with
      | none => simp [hentry] at hfound
      | some i =>
          simp only [hentry, Option.some.injEq] at hfound
          subst hfound
          exact .closeProxy hbusy hserving hserves hentry
  | stop c =>
      simp only [NatHole.step, Option.ite_none_right_eq_some,
        Option.some.injEq] at hstep
      obtain ⟨⟨hbusy, hserving, hfree⟩, rfl⟩ := hstep
      exact .stop hbusy hserving hfree
  | stopNext c name =>
      simp only [NatHole.step, Option.ite_none_right_eq_some] at hstep
      obtain ⟨⟨hbusy, hstopping, hserves, hvisited⟩, hfound⟩ := hstep
      cases hentry : (s.controls c).proxies name with
      | none => simp [hentry] at hfound
      | some i =>
          simp only [hentry, Option.some.injEq] at hfound
          subst hfound
          exact .stopNext hbusy hstopping hserves hvisited hentry

/-- Every step keeps the schedule, whatever it does to the tables. -/
theorem Schedule.step {s s' : State} {action : Action}
    (hschedule : s.Schedule) (hstep : NatHole.step s action = some s') :
    s'.Schedule := by
  cases steps_of_step hstep with
  | create name xtcp sk hbusy hserving hserves hunused =>
      exact hschedule.create hbusy hserving hserves hunused
  | @ran c i hbusy hcreated =>
      apply hschedule.proceed hbusy
      · show Function.update (s.runProxy i).heap i
          { (s.runProxy i).heap i with pc := .ran } = _
        rw [runProxy_heap]
      · exact runProxy_controls s i
      · rfl
      · simp [hcreated, mapped]
  | failed hbusy hcreated =>
      exact hschedule.finish hbusy rfl rfl rfl (by simp [mapped, hcreated])
        (by simp)
  | advance hbusy hnext => exact hschedule.advance hbusy hnext
  | panic hbusy hnext => exact hschedule.panic hbusy hnext
  | @closeProxy c i name hbusy hserving hserves hentry =>
      have hempty := hschedule.unvisited c hserving
      refine hschedule.take hbusy hserves hentry ?_ rfl rfl (fun _ h => h) ?_ ?_
      · simp [hempty]
      · simp [hserving]
      · exact fun _ => hempty
  | stop hbusy hserving hfree => exact hschedule.stop hbusy hserving hfree
  | stopNext hbusy hstopping hserves hvisited hentry =>
      refine hschedule.take hbusy hserves hentry hvisited rfl rfl
        (Finset.subset_insert _ _) ?_ ?_
      · exact fun _ => Finset.mem_insert_self _ _
      · simp [hstopping]

theorem Tables.advance {s s' : State} (htables : s.Tables) {c i : Nat}
    (hnext : s.advance c i = some s') : s'.Tables := by
  cases advances_of_advance hnext with
  | reject hran _ =>
      apply htables.setPc
      · simp [listens, hran]
      · simp [enters, hran]
  | add hran hfree => exact htables.add hran hfree
  | register hadded =>
      have hregistered : (s.setPc i .registered).Tables := by
        apply htables.setPc
        · simp [listens, hadded]
        · simp [enters, hadded]
      exact hregistered.congr rfl rfl rfl
  | giveUp hrejected =>
      have hgone : ((s.closeProxy i).setPc i .gone).Tables := by
        apply htables.close
        · simp [listens, hrejected]
        · simp [listens]
        · simp [enters, hrejected]
      exact hgone.congr rfl rfl rfl
  | close hclosing =>
      apply htables.close
      · simp [listens, hclosing]
      · simp [listens]
      · simp [enters, hclosing]
  | del hclosed =>
      apply (htables.del hclosed).congr
      · simp only [State.forget]
        split <;> rfl
      · simp only [State.forget]
        split <;> rfl
      · simp only [State.forget]
        split <;> rfl

/-- A `Close` that panics changes neither table: no xtcp proxy is concerned. -/
theorem Tables.panic {s s' : State} (htables : s.Tables) {c i : Nat}
    (hnext : s.panic c i = some s') : s'.Tables := by
  cases panics_of_panic hnext with
  | giveUp hxtcp hmaking =>
      have hgone : (s.setPc i .gone).Tables := by
        apply htables.setPc
        · rcases hmaking with hpc | hpc <;> simp [listens, hpc, hxtcp]
        · rcases hmaking with hpc | hpc <;> simp [enters, hpc]
      exact hgone.congr rfl rfl rfl
  | leave hxtcp hclosing =>
      have habandoned : (s.setPc i .abandoned).Tables := by
        apply htables.setPc
        · simp [listens, hclosing]
        · simp [enters, hclosing]
      exact habandoned.congr rfl rfl rfl

/-- Taking up a registered proxy to close it changes neither table. -/
theorem Tables.take {s s' : State} (htables : s.Tables) {c i : Nat}
    (hregistered : (s.heap i).pc = .registered) {ctl : ServerControl}
    (hnext : s' = (s.setControl c ctl).setPc i .closing) : s'.Tables := by
  subst hnext
  have hclosing : (s.setPc i .closing).Tables := by
    apply htables.setPc
    · simp [listens, hregistered]
    · simp [enters, hregistered]
  exact hclosing.congr rfl rfl rfl

theorem Tables.step {s s' : State} {action : Action} (htables : s.Tables)
    (hschedule : s.Schedule) (hpermitted : Permitted s action)
    (hstep : NatHole.step s action = some s') : s'.Tables := by
  cases steps_of_step hstep with
  | create name xtcp sk _ _ _ hunused =>
      exact (htables.create hunused rfl).congr rfl rfl rfl
  | @ran c i hbusy hcreated =>
      exact htables.run hcreated (hpermitted i (by simp [hbusy]))
  | @failed c i hbusy hcreated =>
      have hgone : (s.setPc i .gone).Tables := by
        apply htables.setPc
        · simp [listens, hcreated]
        · simp [enters, hcreated]
      exact hgone.congr rfl rfl rfl
  | advance hbusy hnext => exact htables.advance hnext
  | panic hbusy hnext => exact htables.panic hnext
  | @closeProxy c i name hbusy hserving hserves hentry =>
      have hregistered := hschedule.registered hbusy hserves hentry
        (by simp [hschedule.unvisited c hserving])
      exact htables.take hregistered rfl
  | stop => exact htables.congr rfl rfl rfl
  | stopNext hbusy hstopping hserves hvisited hentry =>
      exact htables.take
        (hschedule.registered hbusy hserves hentry hvisited) rfl

structure Inv (s : State) : Prop where
  tables : s.Tables
  schedule : s.Schedule

/-- Every permitted step keeps the invariant. -/
theorem Inv.step {s s' : State} {action : Action} (hinv : s.Inv)
    (hpermitted : Permitted s action) (hstep : NatHole.step s action = some s') :
    s'.Inv where
  tables := hinv.tables.step hinv.schedule hpermitted hstep
  schedule := hinv.schedule.step hstep

/-- Where nobody works on the name, an xtcp proxy listens if it is in the
Manager. -/
theorem Inv.nameOwned {s : State} (hinv : s.Inv) {name : String}
    (hsettled : s.Settled name) : s.NameOwned name := by
  have hidle : ∀ i, (s.heap i).name = name → atWork (s.heap i).pc = false := by
    intro i hname
    by_contra hwork
    have hbusy := hinv.schedule.working i (by simpa using hwork)
    exact hsettled _ i hbusy hname
  constructor
  · intro i hpxy hxtcp
    have henters := (hinv.tables.entered i name).mp hpxy
    have hname := name_of_enters henters
    subst hname
    have hlistens := (listens_iff_of_idle (hidle i rfl)).mpr ⟨henters, hxtcp⟩
    have hlistener := (hinv.tables.listening i _).mpr hlistens
    obtain ⟨cfg, hcfg, hsid⟩ := Option.map_eq_some_iff.mp hlistener
    rw [hcfg, hinv.tables.truthful _ cfg hcfg, hsid]
    rfl
  · intro cfg hcfg
    have hlistener : s.listener name = some cfg.sidCh := by
      simp [listener, hcfg]
    have hlistens := (hinv.tables.listening _ _).mp hlistener
    have hname := name_of_listens hlistens
    subst hname
    obtain ⟨henters, hxtcp⟩ :=
      (listens_iff_of_idle (hidle cfg.sidCh rfl)).mp hlistens
    exact ⟨cfg.sidCh, (hinv.tables.entered _ _).mpr henters, hxtcp⟩

end State

theorem inv_of_run {word : List Action} {s : State}
    (hrun : system.Run Permitted word s) : s.Inv := by
  refine System.Run.invariant
    ⟨State.tables_init, State.schedule_init⟩ ?_ hrun
  intro state action next hinv hpermitted hstep
  exact State.Inv.step hinv hpermitted hstep

/-- The entry of a name belongs to its registered xtcp proxy, in every run in
which no `Run` of an xtcp proxy overwrites an entry. -/
theorem nameOwned_of_run {word : List Action} {s : State}
    (hrun : system.Run Permitted word s) {name : String}
    (hsettled : s.Settled name) : s.NameOwned name :=
  (inv_of_run hrun).nameOwned hsettled

/-- A client registers an xtcp proxy and closes it, then another client takes
the name over. -/
def takeover : List Action :=
  [.create 0 0 "p2p" true "alice", .run 0 true, .advance 0, .advance 0,
    .closeProxy 0 "p2p", .advance 0, .advance 0,
    .create 1 1 "p2p" true "bob", .run 1 true, .advance 1, .advance 1]

theorem nameOwned_of_run_takeover :
    ∃ s, system.Run Permitted takeover s ∧ s.pxys "p2p" = some 1 ∧
      s.NameOwned "p2p" := by
  have hrun : ∃ s, system.Run Permitted takeover s ∧ s.pxys "p2p" = some 1 ∧
      s.Settled "p2p" := by
    refine ⟨_, System.run_of_replay rfl, rfl, ?_⟩
    rintro (_ | _ | c) i hbusy
    · cases hbusy
    · cases hbusy
    · cases hbusy
  obtain ⟨s, hrun, hpxy, hsettled⟩ := hrun
  exact ⟨s, hrun, hpxy, nameOwned_of_run hrun hsettled⟩

/-- A second client tries to register the name of a registered xtcp proxy and
is rejected. -/
def rejectedName : List Action :=
  [.create 0 0 "p2p" true "alice", .run 0 true, .advance 0, .advance 0,
    .create 1 1 "p2p" true "mallory", .run 1 true, .advance 1, .advance 1]

/-- The rejected registration has deleted the entry of the registered proxy. -/
theorem not_nameOwned_rejectedName :
    ∃ s, system.Reaches rejectedName s ∧ s.Settled "p2p" ∧
      ¬ s.NameOwned "p2p" := by
  refine ⟨_, System.reaches_of_exec rfl, ?_, ?_⟩
  · rintro (_ | _ | c) i hbusy
    · cases hbusy
    · cases hbusy
    · cases hbusy
  · rintro ⟨hentry, _⟩
    have hlost := hentry 0 rfl rfl
    cases hlost

end NatHole

end Frp
