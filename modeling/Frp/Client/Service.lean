/-
Reconnection and hot reload of frpc, `keepControllerWorking` and `ReloadConf`
of `client/service.go`.  The configuration is written under `cfgMu` and read by
the reconnection without a lock; the current Control is guarded by `ctlMu` and
read a second time without it.
-/
import Frp.Lib.System
import Frp.Client.ConfMap

namespace Frp

open Transition

universe u v

namespace Service

variable {P : Type u} {V : Type v}

/-- A Control: what its two managers are configured with, and whether its
connection still works. -/
structure ClientControl (P : Type u) (V : Type v) where
  pxys : ConfMap P
  visitors : ConfMap V
  alive : Bool

/-- Where `keepControllerWorking` is.  `building` has read both maps and made a
Control, `locking` has run it, `publishing` holds `ctlMu` and has closed the
old one. -/
inductive KeeperPc (P : Type u) where
  | waiting
  | login
  | readVisitors (pxys : ConfMap P)
  | building (g : Nat) (pxys : ConfMap P)
  | locking (g : Nat)
  | publishing (g : Nat)

/-- Where a call of `ReloadConf` is.  `storing` holds `cfgMu` and has written
the first of the two maps, `checked` has found that there is a Control. -/
inductive CallPc where
  | storing
  | readCtl
  | checked
  | reloadVisitors (g : Nat)
  | reloadPxys (g : Nat)
  | done
deriving DecidableEq, Repr

structure Call (P : Type u) (V : Type v) where
  pxys : ConfMap P
  visitors : ConfMap V
  pc : CallPc

/-- Which of the two maps a call has stored since the reconnection read it: the
order of the steps so far, of which the code keeps no record. -/
structure Overwritten where
  pxys : Bool
  visitors : Bool
deriving DecidableEq, Repr

/-- The calls stand in the order in which they took `cfgMu`. -/
structure State (P : Type u) (V : Type v) where
  pxyCfgs : ConfMap P
  visitorCfgs : ConfMap V
  controls : Nat → ClientControl P V
  made : Nat
  ctl : Option Nat
  keeper : KeeperPc P
  calls : List (Call P V)
  overwritten : Overwritten

inductive Action (P : Type u) (V : Type v) where
  | fail (g : Nat)
  | keep
  | reloadConf (pxys : ConfMap P) (visitors : ConfMap V)
  | advance (i : Nat)

/-- `Run` logs in for the first time with the same steps. -/
def init (pxyCfgs : ConfMap P) (visitorCfgs : ConfMap V) : State P V where
  pxyCfgs := pxyCfgs
  visitorCfgs := visitorCfgs
  controls _ := ⟨ConfMap.empty, ConfMap.empty, false⟩
  made := 0
  ctl := none
  keeper := .login
  calls := []
  overwritten := ⟨false, false⟩

namespace State

variable (comparePxy : P → P → Bool) (compareVisitor : V → V → Bool)

def setControl (s : State P V) (g : Nat) (control : ClientControl P V) :
    State P V :=
  { s with controls := Function.update s.controls g control }

def setCall (s : State P V) (i : Nat) (call : Call P V) : State P V :=
  { s with calls := s.calls.set i call }

def ctlMuHeld (s : State P V) : Bool :=
  match s.keeper with
  | .publishing _ => true
  | _ => false

def cfgMuHeld (s : State P V) : Bool :=
  s.calls.any fun call => call.pc = .storing

def closeControl (s : State P V) : Option Nat → State P V
  | none => s
  | some g => s.setControl g ⟨ConfMap.empty, (s.controls g).visitors, false⟩

/-- One step of `keepControllerWorking`. -/
def keep (s : State P V) : Option (State P V) :=
  match s.keeper with
  | .waiting =>
      match s.ctl with
      | none => none
      | some g =>
          if (s.controls g).alive then none
          else some { s with keeper := .login }
  | .login => some { s with
      keeper := .readVisitors s.pxyCfgs
      overwritten := { s.overwritten with pxys := false } }
  | .readVisitors pxys =>
      some { s.setControl s.made ⟨ConfMap.empty,
          ConfMap.empty.reload compareVisitor s.visitorCfgs, true⟩ with
        made := s.made + 1
        keeper := .building s.made pxys
        overwritten := { s.overwritten with visitors := false } }
  | .building g pxys =>
      some { s.setControl g { s.controls g with
          pxys := (s.controls g).pxys.reload comparePxy pxys } with
        keeper := .locking g }
  | .locking g => some { s.closeControl s.ctl with keeper := .publishing g }
  | .publishing g => some { s with ctl := some g, keeper := .waiting }

/-- One step of a call of `ReloadConf`. -/
def advance (s : State P V) (i : Nat) (call : Call P V) :
    Option (State P V) :=
  match call.pc with
  | .storing =>
      some ({ s with
        visitorCfgs := call.visitors
        overwritten := { s.overwritten with visitors := true } }.setCall i
          { call with pc := .readCtl })
  | .readCtl =>
      if s.ctlMuHeld then none
      else
        match s.ctl with
        | none => some (s.setCall i { call with pc := .done })
        | some _ => some (s.setCall i { call with pc := .checked })
  | .checked =>
      s.ctl.map fun g => s.setCall i { call with pc := .reloadVisitors g }
  | .reloadVisitors g =>
      some ((s.setControl g { s.controls g with
        visitors := (s.controls g).visitors.reload compareVisitor
          call.visitors }).setCall i { call with pc := .reloadPxys g })
  | .reloadPxys g =>
      some ((s.setControl g { s.controls g with
        pxys := (s.controls g).pxys.reload comparePxy call.pxys }).setCall i
          { call with pc := .done })
  | .done => none

end State

variable (comparePxy : P → P → Bool) (compareVisitor : V → V → Bool)

def step (s : State P V) : Action P V → Option (State P V)
  | .fail g =>
      if (s.controls g).alive then
        some (s.setControl g ⟨ConfMap.empty, (s.controls g).visitors, false⟩)
      else none
  | .keep => s.keep comparePxy compareVisitor
  | .reloadConf pxys visitors =>
      if s.cfgMuHeld then none
      else some { s with
        pxyCfgs := pxys
        calls := s.calls ++ [⟨pxys, visitors, .storing⟩]
        overwritten := { s.overwritten with pxys := true } }
  | .advance i =>
      match s.calls[i]? with
      | none => none
      | some call => s.advance comparePxy compareVisitor i call

def system (pxyCfgs : ConfMap P) (visitorCfgs : ConfMap V) :
    System (State P V) (Action P V) where
  start := init pxyCfgs visitorCfgs
  step := step comparePxy compareVisitor

/-- The call has not read for the second time which Control is the current one,
so it will reload whatever that turns out to be. -/
def CallPc.beforeRead : CallPc → Bool
  | .storing | .readCtl | .checked => true
  | .reloadVisitors _ | .reloadPxys _ | .done => false

/-- The Control whose visitors the call is about to reload. -/
def CallPc.visitorsOf : CallPc → Option Nat
  | .reloadVisitors g => some g
  | _ => none

/-- The Control whose proxies the call is about to reload. -/
def CallPc.pxysOf : CallPc → Option Nat
  | .reloadPxys g => some g
  | _ => none

/-- The call will still reload the proxies of `g`, if `g` stays current. -/
def CallPc.reachesPxys (g : Nat) (pc : CallPc) : Bool :=
  pc.beforeRead || pc.visitorsOf == some g || pc.pxysOf == some g

/-- The call will still reload the visitors of `g`, if `g` stays current. -/
def CallPc.reachesVisitors (g : Nat) (pc : CallPc) : Bool :=
  pc.beforeRead || pc.visitorsOf == some g

def KeeperPc.publishes : KeeperPc P → Option Nat
  | .publishing g => some g
  | _ => none

namespace State

/-- Both the reconnection and every call of `ReloadConf` are through. -/
def Idle (s : State P V) : Prop :=
  (s.keeper matches .waiting) = true ∧ ∀ call ∈ s.calls, call.pc = .done

/-- The live Control is configured with what was last passed to `ReloadConf`. -/
def Configured (s : State P V) : Prop :=
  ∀ g ∈ s.ctl, (s.controls g).alive = true →
    (s.controls g).pxys.Agrees comparePxy s.pxyCfgs ∧
      (s.controls g).visitors.Agrees compareVisitor s.visitorCfgs

/-- The call that stored last stands at a point where `reaches` holds. -/
def LastReaches (s : State P V) (reaches : CallPc → Bool) : Prop :=
  ∃ call ∈ s.calls.getLast?, reaches call.pc = true

/-- A live Control is published before any call stores what it has not read, or
while the call that stored last has yet to read `svr.ctl`. -/
def PublishInOrder (s : State P V) (g : Nat) : Prop :=
  (s.controls g).alive = true →
    s.overwritten = ⟨false, false⟩ ∨ s.LastReaches CallPc.beforeRead

/-- A call that reloads the current Control is the one that stored last, or
that one will still reload it. -/
def ReloadInOrder (s : State P V) (call : Call P V) : Prop :=
  (∀ g ∈ call.pc.visitorsOf, s.ctl = some g →
    s.LastReaches (CallPc.reachesVisitors g)) ∧
  (∀ g ∈ call.pc.pxysOf, s.ctl = some g →
    s.LastReaches (CallPc.reachesPxys g))

end State

/-- The orders of stores, reads, reloads and publications that lose no reload. -/
def Permitted (s : State P V) : Action P V → Prop
  | .keep => ∀ g ∈ s.keeper.publishes, s.PublishInOrder g
  | .advance i => ∀ call ∈ s.calls[i]?, s.ReloadInOrder call
  | .fail _ | .reloadConf _ _ => True

section Decidable

instance (s : State P V) (reaches : CallPc → Bool) :
    Decidable (s.LastReaches reaches) :=
  inferInstanceAs (Decidable (∃ call ∈ s.calls.getLast?, _))

instance (s : State P V) (g : Nat) : Decidable (s.PublishInOrder g) :=
  inferInstanceAs (Decidable (_ → _ ∨ _))

instance (s : State P V) (call : Call P V) :
    Decidable (s.ReloadInOrder call) :=
  inferInstanceAs (Decidable ((∀ g ∈ call.pc.visitorsOf, _) ∧
    (∀ g ∈ call.pc.pxysOf, _)))

instance (s : State P V) (action : Action P V) :
    Decidable (Permitted s action) :=
  match action with
  | .keep => inferInstanceAs (Decidable (∀ g ∈ s.keeper.publishes,
      s.PublishInOrder g))
  | .advance i =>
      inferInstanceAs (Decidable (∀ call ∈ s.calls[i]?, s.ReloadInOrder call))
  | .fail _ | .reloadConf _ _ => inferInstanceAs (Decidable True)

instance (s : State P V) : Decidable s.Idle :=
  inferInstanceAs (Decidable (_ ∧ _))

instance [DecidableEq P] [DecidableEq V] (s : State P V) :
    Decidable (s.Configured comparePxy compareVisitor) :=
  inferInstanceAs (Decidable (∀ g ∈ s.ctl, _ → _ ∧ _))

end Decidable

/-- The proxies that the reconnection has read and not yet used. -/
def KeeperPc.copy : KeeperPc P → Option (ConfMap P)
  | .readVisitors pxys | .building _ pxys => some pxys
  | .waiting | .login | .locking _ | .publishing _ => none

/-- The Control that the reconnection has made and not yet published. -/
def KeeperPc.holds : KeeperPc P → Option Nat
  | .building g _ | .locking g | .publishing g => some g
  | .waiting | .login | .readVisitors _ => none

/-- The Control that the reconnection has run and not yet published. -/
def KeeperPc.ran : KeeperPc P → Option Nat
  | .locking g | .publishing g => some g
  | .waiting | .login | .readVisitors _ | .building _ _ => none

/-- The Control that the call has read from `svr.ctl`. -/
def CallPc.target : CallPc → Option Nat
  | .reloadVisitors g | .reloadPxys g => some g
  | .storing | .readCtl | .checked | .done => none

theorem KeeperPc.holds_of_ran {keeper : KeeperPc P} {g : Nat}
    (hran : g ∈ keeper.ran) : g ∈ keeper.holds := by
  cases keeper with
  | locking other => exact hran
  | publishing other => exact hran
  | waiting => cases hran
  | login => cases hran
  | readVisitors pxys => cases hran
  | building other pxys => cases hran

namespace State

/-- What is stored is what the last call carries; only that one can still be
storing. -/
structure Stored (s : State P V) : Prop where
  storing : ∀ i call, s.calls[i]? = some call → call.pc = .storing →
    i + 1 = s.calls.length
  last : ∀ call ∈ s.calls.getLast?, call.pxys = s.pxyCfgs ∧
    (call.pc = .storing ∨ call.visitors = s.visitorCfgs)

/-- Only the reconnection knows the Control that it has made. -/
structure Known (s : State P V) : Prop where
  ctl : ∀ g ∈ s.ctl, g < s.made
  holds : ∀ g ∈ s.keeper.holds, g < s.made ∧ s.ctl ≠ some g
  target : ∀ call ∈ s.calls, ∀ g ∈ call.pc.target,
    g < s.made ∧ s.keeper.holds ≠ some g

/-- What the reconnection has read and used is what is stored, as long as
nothing has been stored since. -/
structure Built (s : State P V) : Prop where
  copy : ∀ pxys ∈ s.keeper.copy, s.overwritten.pxys = false →
    pxys = s.pxyCfgs
  pxys : ∀ g ∈ s.keeper.ran, (s.controls g).alive = true →
    s.overwritten.pxys = false →
      (s.controls g).pxys.Agrees comparePxy s.pxyCfgs
  visitors : ∀ g ∈ s.keeper.holds, (s.controls g).alive = true →
    s.overwritten.visitors = false →
      (s.controls g).visitors.Agrees compareVisitor s.visitorCfgs

/-- The current Control is configured with what is stored, or the call that
stored last will still reload it. -/
structure Current (s : State P V) : Prop where
  pxys : ∀ g ∈ s.ctl, (s.controls g).alive = true →
    (s.controls g).pxys.Agrees comparePxy s.pxyCfgs ∨
      s.LastReaches (CallPc.reachesPxys g)
  visitors : ∀ g ∈ s.ctl, (s.controls g).alive = true →
    (s.controls g).visitors.Agrees compareVisitor s.visitorCfgs ∨
      s.LastReaches (CallPc.reachesVisitors g)

structure Inv (s : State P V) : Prop where
  stored : s.Stored
  known : s.Known
  built : s.Built comparePxy compareVisitor
  current : s.Current comparePxy compareVisitor

variable {comparePxy compareVisitor}

theorem inv_init (pxyCfgs : ConfMap P) (visitorCfgs : ConfMap V) :
    (init pxyCfgs visitorCfgs).Inv comparePxy compareVisitor where
  stored :=
    { storing := fun i call hcall => by simp [init] at hcall
      last := fun call hcall => by simp [init] at hcall }
  known :=
    { ctl := fun g hg => by simp [init] at hg
      holds := fun g hg => by simp [init, KeeperPc.holds] at hg
      target := fun call hcall => by simp [init] at hcall }
  built :=
    { copy := fun pxys hpxys => by simp [init, KeeperPc.copy] at hpxys
      pxys := fun g hg => by simp [init, KeeperPc.ran] at hg
      visitors := fun g hg => by simp [init, KeeperPc.holds] at hg }
  current :=
    { pxys := fun g hg => by simp [init] at hg
      visitors := fun g hg => by simp [init] at hg }

theorem getLast?_set {calls : List (Call P V)} {i : Nat} {old : Call P V}
    (hold : calls[i]? = some old) (new : Call P V) :
    (calls.set i new).getLast? =
      if i + 1 = calls.length then some new else calls.getLast? := by
  obtain ⟨hlt, _⟩ := List.getElem?_eq_some_iff.mp hold
  rw [List.getLast?_eq_getElem?, List.getLast?_eq_getElem?, List.length_set,
    List.getElem?_set]
  by_cases hlast : i + 1 = calls.length
  · have hi : i = calls.length - 1 := by omega
    rw [if_pos hi, if_pos (hi ▸ hlt), if_pos hlast]
  · have hi : i ≠ calls.length - 1 := by omega
    rw [if_neg hi, if_neg hlast]

theorem mem_getLast? {calls : List (Call P V)} {i : Nat} {call : Call P V}
    (hcall : calls[i]? = some call) (hi : i + 1 = calls.length) :
    call ∈ calls.getLast? := by
  rw [List.getLast?_eq_getElem?, ← hi, Nat.add_sub_cancel, hcall]
  rfl

/-- The call that moves, if it is the last one, still reaches what it did. -/
theorem LastReaches.setCall {s : State P V} {reaches : CallPc → Bool}
    (hlast : s.LastReaches reaches) {i : Nat} {call : Call P V}
    (hcall : s.calls[i]? = some call) {pc : CallPc}
    (hmove : reaches call.pc = true → reaches pc = true) :
    (s.setCall i { call with pc := pc }).LastReaches reaches := by
  obtain ⟨last, hmem, hreaches⟩ := hlast
  rw [LastReaches, State.setCall, getLast?_set hcall]
  by_cases hi : i + 1 = s.calls.length
  · have hsame : last = call :=
      Option.mem_unique hmem (mem_getLast? hcall hi)
    rw [if_pos hi]
    exact ⟨_, rfl, hmove (hsame ▸ hreaches)⟩
  · rw [if_neg hi]
    exact ⟨last, hmem, hreaches⟩

theorem lastReaches_setCall {s : State P V} {i : Nat} {call : Call P V}
    (hcall : s.calls[i]? = some call) (hi : i + 1 = s.calls.length)
    {pc : CallPc} {reaches : CallPc → Bool} (hreaches : reaches pc = true) :
    (s.setCall i { call with pc := pc }).LastReaches reaches := by
  rw [LastReaches, State.setCall, getLast?_set hcall, if_pos hi]
  exact ⟨_, rfl, hreaches⟩

theorem Stored.setCall {s : State P V} (hstored : s.Stored) {i : Nat}
    {call : Call P V} (hcall : s.calls[i]? = some call)
    (hold : call.pc ≠ .storing) {pc : CallPc} (hnew : pc ≠ .storing) :
    (s.setCall i { call with pc := pc }).Stored where
  storing j other hother hpc := by
    rw [State.setCall, List.getElem?_set] at hother
    rw [State.setCall, List.length_set]
    by_cases hj : i = j
    · rw [if_pos hj] at hother
      split at hother
      · obtain rfl := Option.some.inj hother
        exact absurd hpc hnew
      · cases hother
    · rw [if_neg hj] at hother
      exact hstored.storing j other hother hpc
  last other hother := by
    rw [State.setCall, getLast?_set hcall] at hother
    by_cases hi : i + 1 = s.calls.length
    · rw [if_pos hi] at hother
      obtain rfl := Option.some.inj hother
      have hmem : call ∈ s.calls.getLast? := by
        rw [List.getLast?_eq_getElem?, ← hi, Nat.add_sub_cancel, hcall]
        rfl
      obtain ⟨hpxys, hvisitors⟩ := hstored.last call hmem
      exact ⟨hpxys, Or.inr (hvisitors.resolve_left hold)⟩
    · rw [if_neg hi] at hother
      exact hstored.last other hother

theorem Known.setCall {s : State P V} (hknown : s.Known) {i : Nat}
    {call : Call P V} {pc : CallPc}
    (htarget : ∀ g ∈ pc.target, g < s.made ∧ s.keeper.holds ≠ some g) :
    (s.setCall i { call with pc := pc }).Known where
  ctl := hknown.ctl
  holds := hknown.holds
  target other hother g hg := by
    rcases List.mem_or_eq_of_mem_set hother with hmem | rfl
    · exact hknown.target other hmem g hg
    · exact htarget g hg

/-- A call moves on without touching a Control, and still reaches the current
one if it did. -/
theorem Current.setCall {s : State P V}
    (hcurrent : s.Current comparePxy compareVisitor) {i : Nat}
    {call : Call P V} (hcall : s.calls[i]? = some call) {pc : CallPc}
    (hpxys : ∀ g ∈ s.ctl, call.pc.reachesPxys g = true →
      pc.reachesPxys g = true)
    (hvisitors : ∀ g ∈ s.ctl, call.pc.reachesVisitors g = true →
      pc.reachesVisitors g = true) :
    (s.setCall i { call with pc := pc }).Current comparePxy compareVisitor where
  pxys g hg halive :=
    (hcurrent.pxys g hg halive).imp_right fun hlast =>
      hlast.setCall hcall (hpxys g hg)
  visitors g hg halive :=
    (hcurrent.visitors g hg halive).imp_right fun hlast =>
      hlast.setCall hcall (hvisitors g hg)

theorem Stored.setControl {s : State P V} (hstored : s.Stored) (g : Nat)
    (control : ClientControl P V) : (s.setControl g control).Stored :=
  ⟨hstored.storing, hstored.last⟩

theorem Known.setControl {s : State P V} (hknown : s.Known) (g : Nat)
    (control : ClientControl P V) : (s.setControl g control).Known :=
  ⟨hknown.ctl, hknown.holds, hknown.target⟩

/-- What happens to a Control that the reconnection does not hold, or that
ends, does not matter to it. -/
theorem Built.setControl {s : State P V}
    (hbuilt : s.Built comparePxy compareVisitor) (g : Nat)
    (control : ClientControl P V)
    (hdead : s.keeper.holds = some g → control.alive = false) :
    (s.setControl g control).Built comparePxy compareVisitor where
  copy := hbuilt.copy
  pxys other hother halive hread := by
    by_cases hsame : other = g
    · subst hsame
      have hgone := hdead (KeeperPc.holds_of_ran hother)
      simp [State.setControl, hgone] at halive
    · simp only [State.setControl, Function.update_of_ne hsame] at halive ⊢
      exact hbuilt.pxys other hother halive hread
  visitors other hother halive hread := by
    by_cases hsame : other = g
    · subst hsame
      simp [State.setControl, hdead hother] at halive
    · simp only [State.setControl, Function.update_of_ne hsame] at halive ⊢
      exact hbuilt.visitors other hother halive hread

/-- What happens to a Control that is not the current one, or that ends, does
not matter to the current one. -/
theorem Current.setControl {s : State P V}
    (hcurrent : s.Current comparePxy compareVisitor) (g : Nat)
    (control : ClientControl P V)
    (hdead : s.ctl = some g → control.alive = false) :
    (s.setControl g control).Current comparePxy compareVisitor where
  pxys other hother halive := by
    by_cases hsame : other = g
    · subst hsame
      simp [State.setControl, hdead hother] at halive
    · simp only [State.setControl, Function.update_of_ne hsame] at halive ⊢
      exact hcurrent.pxys other hother halive
  visitors other hother halive := by
    by_cases hsame : other = g
    · subst hsame
      simp [State.setControl, hdead hother] at halive
    · simp only [State.setControl, Function.update_of_ne hsame] at halive ⊢
      exact hcurrent.visitors other hother halive

theorem Inv.setControl {s : State P V}
    (hinv : s.Inv comparePxy compareVisitor) (g : Nat)
    (control : ClientControl P V)
    (hheld : s.keeper.holds = some g → control.alive = false)
    (hcurrent : s.ctl = some g → control.alive = false) :
    (s.setControl g control).Inv comparePxy compareVisitor where
  stored := hinv.stored.setControl g control
  known := hinv.known.setControl g control
  built := hinv.built.setControl g control hheld
  current := hinv.current.setControl g control hcurrent

/-- A new Control gets the stored visitors, and nobody else knows it. -/
theorem Inv.make {s : State P V} (hinv : s.Inv comparePxy compareVisitor)
    {pxys : ConfMap P} (hkeeper : s.keeper = .readVisitors pxys) :
    { s.setControl s.made ⟨ConfMap.empty,
        ConfMap.empty.reload compareVisitor s.visitorCfgs, true⟩ with
      made := s.made + 1
      keeper := .building s.made pxys
      overwritten := { s.overwritten with visitors := false } }.Inv comparePxy
        compareVisitor where
  stored := ⟨hinv.stored.storing, hinv.stored.last⟩
  known :=
    { ctl := fun g hg => Nat.lt_succ_of_lt (hinv.known.ctl g hg)
      holds := by
        intro g hg
        obtain rfl : s.made = g := Option.some.inj hg
        refine ⟨Nat.lt_succ_self _, ?_⟩
        intro hctl
        exact Nat.lt_irrefl _ (hinv.known.ctl s.made hctl)
      target := by
        intro call hcall g hg
        have hlt := (hinv.known.target call hcall g hg).1
        refine ⟨Nat.lt_succ_of_lt hlt, ?_⟩
        intro hsame
        exact absurd (Option.some.inj hsame) (Nat.ne_of_gt hlt) }
  built :=
    { copy := fun other hother => hinv.built.copy other (by
        rw [hkeeper]
        exact hother)
      pxys := nofun
      visitors := by
        intro g hg _ _
        obtain rfl : s.made = g := Option.some.inj hg
        simp only [State.setControl, Function.update_self]
        exact ConfMap.agrees_reload compareVisitor _ _ }
  current := by
    have hother := hinv.current.setControl s.made ⟨ConfMap.empty,
      ConfMap.empty.reload compareVisitor s.visitorCfgs, true⟩
      fun hctl => absurd (hinv.known.ctl s.made hctl) (Nat.lt_irrefl _)
    exact ⟨hother.pxys, hother.visitors⟩

/-- `ctl.Run` starts the proxies that were read. -/
theorem Inv.runControl {s : State P V} (hinv : s.Inv comparePxy compareVisitor)
    {g : Nat} {pxys : ConfMap P} (hkeeper : s.keeper = .building g pxys) :
    { s.setControl g { s.controls g with
        pxys := (s.controls g).pxys.reload comparePxy pxys } with
      keeper := .locking g }.Inv comparePxy compareVisitor := by
  have hholds : s.keeper.holds = some g := by rw [hkeeper]; rfl
  have hfresh := (hinv.known.holds g hholds).2
  have hother := hinv.current.setControl g { s.controls g with
    pxys := (s.controls g).pxys.reload comparePxy pxys }
    fun hctl => absurd hctl hfresh
  refine ⟨⟨hinv.stored.storing, hinv.stored.last⟩, ⟨hinv.known.ctl, ?_, ?_⟩,
    ⟨?_, ?_, ?_⟩, ⟨hother.pxys, hother.visitors⟩⟩
  · exact fun held hheld => hinv.known.holds held (hholds.trans hheld)
  · intro call hcall target htarget
    have hknown := hinv.known.target call hcall target htarget
    rw [hholds] at hknown
    exact hknown
  · nofun
  · intro held hheld _ hread
    obtain rfl : g = held := Option.some.inj hheld
    have hcopy : pxys = s.pxyCfgs :=
      hinv.built.copy pxys (by rw [hkeeper]; rfl) hread
    simp only [State.setControl, Function.update_self, hcopy]
    exact ConfMap.agrees_reload comparePxy _ _
  · intro held hheld halive hread
    obtain rfl : g = held := Option.some.inj hheld
    simp only [State.setControl, Function.update_self] at halive ⊢
    exact hinv.built.visitors g hholds halive hread

/-- The keeper moves on with the Control that it has run. -/
theorem Inv.lockCtl {s : State P V} (hinv : s.Inv comparePxy compareVisitor)
    {g : Nat} (hkeeper : s.keeper = .locking g) :
    { s with keeper := .publishing g }.Inv comparePxy compareVisitor := by
  obtain ⟨hstored, hknown, hbuilt, hcurrent⟩ := hinv
  refine ⟨⟨hstored.storing, hstored.last⟩, ⟨hknown.ctl, ?_, ?_⟩,
    ⟨nofun, ?_, ?_⟩,
    ⟨hcurrent.pxys, hcurrent.visitors⟩⟩
  · have hholds := hknown.holds
    rw [hkeeper] at hholds
    exact hholds
  · have htarget := hknown.target
    rw [hkeeper] at htarget
    exact htarget
  · have hpxys := hbuilt.pxys
    rw [hkeeper] at hpxys
    exact hpxys
  · have hvisitors := hbuilt.visitors
    rw [hkeeper] at hvisitors
    exact hvisitors

/-- Before its reads and after its publication the keeper holds no Control. -/
theorem Inv.release {s : State P V} (hinv : s.Inv comparePxy compareVisitor)
    (keeper : KeeperPc P) (overwritten : Overwritten)
    (hholds : keeper.holds = none)
    (hcopy : ∀ pxys ∈ keeper.copy, pxys = s.pxyCfgs) :
    { s with keeper := keeper, overwritten := overwritten }.Inv comparePxy
      compareVisitor where
  stored := ⟨hinv.stored.storing, hinv.stored.last⟩
  known :=
    { ctl := hinv.known.ctl
      holds := fun g hg => by simp [hholds] at hg
      target := fun call hcall g hg =>
        ⟨(hinv.known.target call hcall g hg).1, by simp [hholds]⟩ }
  built :=
    { copy := fun pxys hpxys _ => hcopy pxys hpxys
      pxys := fun g hg => by
        have hheld := KeeperPc.holds_of_ran hg
        simp [hholds] at hheld
      visitors := fun g hg => by simp [hholds] at hg }
  current := ⟨hinv.current.pxys, hinv.current.visitors⟩

/-- The Control that is published has what is stored, or the call that stored
last will read `svr.ctl` and see to it. -/
theorem Inv.publish {s : State P V} (hinv : s.Inv comparePxy compareVisitor)
    {g : Nat} (hkeeper : s.keeper = .publishing g)
    (horder : s.PublishInOrder g) :
    { s with ctl := some g, keeper := .waiting }.Inv comparePxy
      compareVisitor := by
  have hholds : s.keeper.holds = some g := by rw [hkeeper]; rfl
  have hran : s.keeper.ran = some g := by rw [hkeeper]; rfl
  refine ⟨⟨hinv.stored.storing, hinv.stored.last⟩, ⟨?_, ?_, ?_⟩,
    ⟨nofun, nofun, nofun⟩, ⟨?_, ?_⟩⟩
  · intro current hcurrent
    obtain rfl := Option.some.inj hcurrent
    exact (hinv.known.holds g hholds).1
  · nofun
  · intro call hcall target htarget
    exact ⟨(hinv.known.target call hcall target htarget).1, nofun⟩
  · intro current hcurrent halive
    obtain rfl := Option.some.inj hcurrent
    rcases horder halive with hread | ⟨call, hcall, hreaches⟩
    · exact Or.inl (hinv.built.pxys g hran halive (by rw [hread]))
    · exact Or.inr ⟨call, hcall, by simp [CallPc.reachesPxys, hreaches]⟩
  · intro current hcurrent halive
    obtain rfl := Option.some.inj hcurrent
    rcases horder halive with hread | ⟨call, hcall, hreaches⟩
    · exact Or.inl (hinv.built.visitors g hholds halive (by rw [hread]))
    · exact Or.inr ⟨call, hcall, by simp [CallPc.reachesVisitors, hreaches]⟩

theorem Inv.keep {s s' : State P V} (hinv : s.Inv comparePxy compareVisitor)
    (horder : ∀ g ∈ s.keeper.publishes, s.PublishInOrder g)
    (hnext : s.keep comparePxy compareVisitor = some s') :
    s'.Inv comparePxy compareVisitor := by
  cases hkeeper : s.keeper with
  | waiting =>
      cases hctl : s.ctl with
      | none => simp [State.keep, hkeeper, hctl] at hnext
      | some g =>
          simp only [State.keep, hkeeper, hctl,
            Option.ite_none_left_eq_some, Option.some.injEq] at hnext
          rw [← hnext.2]
          have hreleased := hinv.release .login s.overwritten rfl nofun
          rw [hctl] at hreleased
          exact hreleased
  | login =>
      simp only [State.keep, hkeeper, Option.some.injEq] at hnext
      subst hnext
      apply hinv.release _ _ rfl
      rintro pxys hpxys
      exact (Option.some.inj hpxys).symm
  | readVisitors pxys =>
      simp only [State.keep, hkeeper, Option.some.injEq] at hnext
      exact hnext ▸ hinv.make hkeeper
  | building g pxys =>
      simp only [State.keep, hkeeper, Option.some.injEq] at hnext
      exact hnext ▸ hinv.runControl hkeeper
  | locking g =>
      simp only [State.keep, hkeeper, Option.some.injEq] at hnext
      subst hnext
      cases hctl : s.ctl with
      | none => exact hinv.lockCtl hkeeper
      | some old =>
          have hclosed : (s.closeControl (some old)).Inv comparePxy
              compareVisitor := hinv.setControl _ _ (fun _ => rfl)
                fun _ => rfl
          exact hclosed.lockCtl hkeeper
  | publishing g =>
      simp only [State.keep, hkeeper, Option.some.injEq] at hnext
      subst hnext
      exact hinv.publish hkeeper (horder g (by rw [hkeeper]; rfl))

/-- A call moves on without touching a Control, after its second write. -/
theorem Inv.moveCall {s : State P V} (hinv : s.Inv comparePxy compareVisitor)
    {i : Nat} {call : Call P V} (hcall : s.calls[i]? = some call)
    (hold : call.pc ≠ .storing) (pc : CallPc) (hnew : pc ≠ .storing)
    (htarget : ∀ g ∈ pc.target, s.ctl = some g)
    (hpxys : ∀ g ∈ s.ctl, call.pc.reachesPxys g = true →
      pc.reachesPxys g = true)
    (hvisitors : ∀ g ∈ s.ctl, call.pc.reachesVisitors g = true →
      pc.reachesVisitors g = true) :
    (s.setCall i { call with pc := pc }).Inv comparePxy compareVisitor where
  stored := hinv.stored.setCall hcall hold hnew
  known := hinv.known.setCall fun g hg =>
    ⟨hinv.known.ctl g (htarget g hg), fun hholds =>
      (hinv.known.holds g hholds).2 (htarget g hg)⟩
  built := ⟨hinv.built.copy, hinv.built.pxys, hinv.built.visitors⟩
  current := hinv.current.setCall hcall hpxys hvisitors

/-- The second of the two writes of `ReloadConf`, by the call that stores
last. -/
theorem Inv.store {s : State P V} (hinv : s.Inv comparePxy compareVisitor)
    {i : Nat} {call : Call P V} (hcall : s.calls[i]? = some call)
    (hpc : call.pc = .storing) :
    ({ s with
      visitorCfgs := call.visitors
      overwritten := { s.overwritten with visitors := true } }.setCall i
        { call with pc := .readCtl }).Inv comparePxy compareVisitor := by
  have hi := hinv.stored.storing i call hcall hpc
  have hmem := mem_getLast? hcall hi
  have hknown : ({ s with
      visitorCfgs := call.visitors
      overwritten := { s.overwritten with visitors := true } } :
        State P V).Known :=
    ⟨hinv.known.ctl, hinv.known.holds, hinv.known.target⟩
  refine ⟨⟨?_, ?_⟩, hknown.setCall nofun, ⟨hinv.built.copy,
    hinv.built.pxys, nofun⟩, ⟨?_, ?_⟩⟩
  · intro j other hother hstoring
    rw [State.setCall, List.getElem?_set] at hother
    rw [State.setCall, List.length_set]
    by_cases hj : i = j
    · exact hj ▸ hi
    · rw [if_neg hj] at hother
      exact hinv.stored.storing j other hother hstoring
  · intro other hother
    rw [State.setCall, getLast?_set hcall, if_pos hi] at hother
    obtain rfl := Option.some.inj hother
    exact ⟨(hinv.stored.last call hmem).1, Or.inr rfl⟩
  · intro g hg halive
    exact Or.inr (lastReaches_setCall hcall hi rfl)
  · intro g hg halive
    exact Or.inr (lastReaches_setCall hcall hi rfl)

theorem setVisitors_same (s : State P V) (g : Nat) (visitors : ConfMap V)
    (current : Nat) :
    ((s.setControl g { s.controls g with
        visitors := visitors }).controls current).pxys =
        (s.controls current).pxys ∧
      ((s.setControl g { s.controls g with
        visitors := visitors }).controls current).alive =
        (s.controls current).alive := by
  by_cases hg : current = g
  · simp [setControl, hg]
  · simp [setControl, hg]

theorem setPxys_same (s : State P V) (g : Nat) (pxys : ConfMap P)
    (current : Nat) :
    ((s.setControl g { s.controls g with
        pxys := pxys }).controls current).visitors =
        (s.controls current).visitors ∧
      ((s.setControl g { s.controls g with
        pxys := pxys }).controls current).alive =
        (s.controls current).alive := by
  by_cases hg : current = g
  · simp [setControl, hg]
  · simp [setControl, hg]

/-- The last call carries what is stored, so that what it reloads agrees. -/
theorem Stored.carries {s : State P V} (hstored : s.Stored) {i : Nat}
    {call : Call P V} (hcall : s.calls[i]? = some call)
    (hi : i + 1 = s.calls.length) (hpc : call.pc ≠ .storing) :
    call.pxys = s.pxyCfgs ∧ call.visitors = s.visitorCfgs := by
  have hmem := mem_getLast? hcall hi
  obtain ⟨hpxys, hvisitors⟩ := hstored.last call hmem
  exact ⟨hpxys, hvisitors.resolve_left hpc⟩

/-- A call that is not the last one moves, and the last one stays. -/
theorem LastReaches.setCall_ne {s : State P V} {reaches : CallPc → Bool}
    (hlast : s.LastReaches reaches) {i : Nat} {call : Call P V}
    (hcall : s.calls[i]? = some call) (hi : i + 1 ≠ s.calls.length)
    (new : Call P V) : (s.setCall i new).LastReaches reaches := by
  rw [LastReaches, State.setCall, getLast?_set hcall, if_neg hi]
  exact hlast

/-- `vm.Reload` of a call. -/
theorem Inv.reloadVisitors {s : State P V}
    (hinv : s.Inv comparePxy compareVisitor) {i g : Nat} {call : Call P V}
    (hcall : s.calls[i]? = some call) (hpc : call.pc = .reloadVisitors g)
    (horder : s.ReloadInOrder call) :
    ((s.setControl g { s.controls g with
      visitors := (s.controls g).visitors.reload compareVisitor
        call.visitors }).setCall i { call with
          pc := .reloadPxys g }).Inv comparePxy compareVisitor := by
  have htarget := hinv.known.target call (List.mem_of_getElem? hcall) g
    (by rw [hpc]; rfl)
  have hbuilt := hinv.built.setControl g { s.controls g with
    visitors := (s.controls g).visitors.reload compareVisitor call.visitors }
    fun hholds => absurd hholds htarget.2
  have hstoring : call.pc ≠ .storing := by rw [hpc]; nofun
  refine ⟨(hinv.stored.setControl g _).setCall hcall hstoring nofun,
    (hinv.known.setControl g _).setCall ?_,
    ⟨hbuilt.copy, hbuilt.pxys, hbuilt.visitors⟩, ⟨?_, ?_⟩⟩
  · intro target heq
    obtain rfl : g = target := Option.some.inj heq
    exact htarget
  · intro current hcurrent halive
    have hsame := s.setVisitors_same g ((s.controls g).visitors.reload
      compareVisitor call.visitors) current
    rcases hinv.current.pxys current hcurrent (hsame.2 ▸ halive) with
      hagrees | hlast
    · left
      change ConfMap.Agrees comparePxy ((s.setControl g _).controls _).pxys _
      rw [hsame.1]
      exact hagrees
    · right
      apply LastReaches.setCall (s := s.setControl g _) hlast hcall
      intro hreaches
      simpa [hpc, CallPc.reachesPxys, CallPc.beforeRead, CallPc.visitorsOf,
        CallPc.pxysOf] using hreaches
  · intro current hcurrent halive
    by_cases hg : current = g
    · subst hg
      by_cases hi : i + 1 = s.calls.length
      · left
        simp only [State.setCall, State.setControl, Function.update_self,
          (hinv.stored.carries hcall hi hstoring).2]
        exact ConfMap.agrees_reload compareVisitor _ _
      · right
        exact (horder.1 current (by rw [hpc]; rfl) hcurrent).setCall_ne
          (s := s.setControl current _) hcall hi _
    · simp only [State.setCall, State.setControl, Function.update_of_ne hg]
        at halive ⊢
      rcases hinv.current.visitors current hcurrent halive with
        hagrees | hlast
      · exact Or.inl hagrees
      · right
        apply LastReaches.setCall (s := s.setControl g _) hlast hcall
        intro hreaches
        simp [hpc, CallPc.reachesVisitors, CallPc.beforeRead,
          CallPc.visitorsOf, Ne.symm hg] at hreaches

/-- `pm.Reload` of a call, its last step. -/
theorem Inv.reloadPxys {s : State P V}
    (hinv : s.Inv comparePxy compareVisitor) {i g : Nat} {call : Call P V}
    (hcall : s.calls[i]? = some call) (hpc : call.pc = .reloadPxys g)
    (horder : s.ReloadInOrder call) :
    ((s.setControl g { s.controls g with
      pxys := (s.controls g).pxys.reload comparePxy call.pxys }).setCall i
        { call with pc := .done }).Inv comparePxy compareVisitor := by
  have htarget := hinv.known.target call (List.mem_of_getElem? hcall) g
    (by rw [hpc]; rfl)
  have hbuilt := hinv.built.setControl g { s.controls g with
    pxys := (s.controls g).pxys.reload comparePxy call.pxys }
    fun hholds => absurd hholds htarget.2
  have hstoring : call.pc ≠ .storing := by rw [hpc]; nofun
  refine ⟨(hinv.stored.setControl g _).setCall hcall hstoring nofun,
    (hinv.known.setControl g _).setCall nofun,
    ⟨hbuilt.copy, hbuilt.pxys, hbuilt.visitors⟩, ⟨?_, ?_⟩⟩
  · intro current hcurrent halive
    by_cases hg : current = g
    · subst hg
      by_cases hi : i + 1 = s.calls.length
      · left
        simp only [State.setCall, State.setControl, Function.update_self,
          (hinv.stored.carries hcall hi hstoring).1]
        exact ConfMap.agrees_reload comparePxy _ _
      · right
        exact (horder.2 current (by rw [hpc]; rfl) hcurrent).setCall_ne
          (s := s.setControl current _) hcall hi _
    · simp only [State.setCall, State.setControl, Function.update_of_ne hg]
        at halive ⊢
      rcases hinv.current.pxys current hcurrent halive with hagrees | hlast
      · exact Or.inl hagrees
      · right
        apply LastReaches.setCall (s := s.setControl g _) hlast hcall
        intro hreaches
        simp [hpc, CallPc.reachesPxys, CallPc.beforeRead, CallPc.visitorsOf,
          CallPc.pxysOf, Ne.symm hg] at hreaches
  · intro current hcurrent halive
    have hsame := s.setPxys_same g ((s.controls g).pxys.reload comparePxy
      call.pxys) current
    rcases hinv.current.visitors current hcurrent (hsame.2 ▸ halive) with
      hagrees | hlast
    · left
      change ConfMap.Agrees compareVisitor
        ((s.setControl g _).controls _).visitors _
      rw [hsame.1]
      exact hagrees
    · right
      apply LastReaches.setCall (s := s.setControl g _) hlast hcall
      intro hreaches
      simp [hpc, CallPc.reachesVisitors, CallPc.beforeRead,
        CallPc.visitorsOf] at hreaches

theorem Inv.advance {s s' : State P V}
    (hinv : s.Inv comparePxy compareVisitor) {i : Nat} {call : Call P V}
    (hcall : s.calls[i]? = some call) (horder : s.ReloadInOrder call)
    (hnext : s.advance comparePxy compareVisitor i call = some s') :
    s'.Inv comparePxy compareVisitor := by
  cases hpc : call.pc with
  | storing =>
      simp only [State.advance, hpc, Option.some.injEq] at hnext
      exact hnext ▸ hinv.store hcall hpc
  | readCtl =>
      cases hctl : s.ctl with
      | none =>
          simp only [State.advance, hpc, hctl, Option.ite_none_left_eq_some,
            Option.some.injEq] at hnext
          rw [← hnext.2]
          apply hinv.moveCall hcall (by rw [hpc]; nofun) .done nofun nofun
          · simp [hctl]
          · simp [hctl]
      | some g =>
          simp only [State.advance, hpc, hctl, Option.ite_none_left_eq_some,
            Option.some.injEq] at hnext
          rw [← hnext.2]
          exact hinv.moveCall hcall (by rw [hpc]; nofun) .checked nofun nofun
            (fun _ _ _ => rfl) fun _ _ _ => rfl
  | checked =>
      simp only [State.advance, hpc, Option.map_eq_some_iff] at hnext
      obtain ⟨g, hctl, rfl⟩ := hnext
      have hsame : ∀ current ∈ s.ctl, current = g := by
        intro current hcurrent
        exact Option.some.inj (hcurrent.symm.trans hctl)
      apply hinv.moveCall hcall (by rw [hpc]; nofun) (.reloadVisitors g) nofun
      · intro target htarget
        exact Option.some.inj htarget ▸ hctl
      · intro current hcurrent _
        simp [hsame current hcurrent, CallPc.reachesPxys, CallPc.visitorsOf]
      · intro current hcurrent _
        simp [hsame current hcurrent, CallPc.reachesVisitors,
          CallPc.visitorsOf]
  | reloadVisitors g =>
      simp only [State.advance, hpc, Option.some.injEq] at hnext
      exact hnext ▸ hinv.reloadVisitors hcall hpc horder
  | reloadPxys g =>
      simp only [State.advance, hpc, Option.some.injEq] at hnext
      exact hnext ▸ hinv.reloadPxys hcall hpc horder
  | done => simp [State.advance, hpc] at hnext

/-- A new call has stored its proxies and will reload them; it is the only one
that is storing, since it has waited for `cfgMu`. -/
theorem Inv.reloadConf {s : State P V}
    (hinv : s.Inv comparePxy compareVisitor) (hfree : s.cfgMuHeld = false)
    (pxys : ConfMap P) (visitors : ConfMap V) :
    ({ s with
      pxyCfgs := pxys
      calls := s.calls ++ [⟨pxys, visitors, .storing⟩]
      overwritten := { s.overwritten with pxys := true } } : State P V).Inv
        comparePxy compareVisitor := by
  have hlast : ∀ reaches : CallPc → Bool, reaches .storing = true →
      State.LastReaches ({ s with
        pxyCfgs := pxys
        calls := s.calls ++ [⟨pxys, visitors, .storing⟩]
        overwritten := { s.overwritten with pxys := true } } : State P V)
        reaches := by
    intro reaches hreaches
    rw [LastReaches, List.getLast?_concat]
    exact ⟨_, rfl, hreaches⟩
  refine ⟨⟨?_, ?_⟩, ⟨hinv.known.ctl, hinv.known.holds, ?_⟩,
    ⟨nofun, nofun, hinv.built.visitors⟩, ⟨?_, ?_⟩⟩
  · intro i call hcall hpc
    rw [List.length_append, List.length_singleton]
    by_cases hi : i < s.calls.length
    · rw [List.getElem?_append_left hi] at hcall
      have hmem := List.mem_of_getElem? hcall
      simp only [cfgMuHeld, List.any_eq_false, decide_eq_true_eq] at hfree
      exact absurd hpc (hfree call hmem)
    · obtain ⟨hlt, _⟩ := List.getElem?_eq_some_iff.mp hcall
      rw [List.length_append, List.length_singleton] at hlt
      omega
  · intro call hcall
    rw [List.getLast?_concat] at hcall
    obtain rfl := Option.some.inj hcall
    exact ⟨rfl, Or.inl rfl⟩
  · intro call hcall g hg
    rcases List.mem_append.mp hcall with hmem | hmem
    · exact hinv.known.target call hmem g hg
    · rw [List.mem_singleton.mp hmem] at hg
      cases hg
  · exact fun g _ _ => Or.inr (hlast _ rfl)
  · exact fun g _ _ => Or.inr (hlast _ rfl)

/-- Every permitted step keeps the invariant. -/
theorem Inv.step {s s' : State P V} {action : Action P V}
    (hinv : s.Inv comparePxy compareVisitor) (hpermitted : Permitted s action)
    (hstep : Service.step comparePxy compareVisitor s action = some s') :
    s'.Inv comparePxy compareVisitor := by
  cases action with
  | fail g =>
      simp only [Service.step, Option.ite_none_right_eq_some,
        Option.some.injEq] at hstep
      obtain ⟨_, rfl⟩ := hstep
      exact hinv.setControl _ _ (fun _ => rfl) fun _ => rfl
  | keep => exact hinv.keep hpermitted hstep
  | reloadConf pxys visitors =>
      simp only [Service.step, Option.ite_none_left_eq_some,
        Option.some.injEq] at hstep
      obtain ⟨hfree, rfl⟩ := hstep
      exact hinv.reloadConf (Bool.eq_false_iff.mpr hfree) pxys visitors
  | advance i =>
      cases hcall : s.calls[i]? with
      | none => simp [Service.step, hcall] at hstep
      | some call =>
          simp only [Service.step, hcall] at hstep
          exact hinv.advance hcall (hpermitted call hcall) hstep

/-- With every call done nothing is still to come. -/
theorem Inv.configured {s : State P V}
    (hinv : s.Inv comparePxy compareVisitor) (hidle : s.Idle) :
    s.Configured comparePxy compareVisitor := by
  have hdone : ∀ call ∈ s.calls.getLast?, call.pc = .done := by
    intro call hcall
    exact hidle.2 call (List.mem_of_getLast? hcall)
  intro g hg halive
  constructor
  · rcases hinv.current.pxys g hg halive with hagrees | ⟨call, hcall, hreaches⟩
    · exact hagrees
    · simp [hdone call hcall, CallPc.reachesPxys, CallPc.beforeRead,
        CallPc.visitorsOf, CallPc.pxysOf] at hreaches
  · rcases hinv.current.visitors g hg halive with
      hagrees | ⟨call, hcall, hreaches⟩
    · exact hagrees
    · simp [hdone call hcall, CallPc.reachesVisitors, CallPc.beforeRead,
        CallPc.visitorsOf] at hreaches

end State

variable {comparePxy compareVisitor}

theorem inv_of_run {pxyCfgs : ConfMap P} {visitorCfgs : ConfMap V}
    {word : List (Action P V)} {s : State P V}
    (hrun : (system comparePxy compareVisitor pxyCfgs visitorCfgs).Run
      Permitted word s) :
    s.Inv comparePxy compareVisitor := by
  refine System.Run.invariant (State.inv_init pxyCfgs visitorCfgs) ?_ hrun
  intro state action next hinv hpermitted hstep
  exact State.Inv.step hinv hpermitted hstep

/-- No reload is lost, in every run in which no call stores between the reads
of a reconnection and its publication, unless the one that stored last is still
to read `svr.ctl` then, and no call reloads the current Control unless the one
that stored last is to do so now or later. -/
theorem configured_of_idle (pxyCfgs : ConfMap P) (visitorCfgs : ConfMap V)
    {word : List (Action P V)} {s : State P V}
    (hrun : (system comparePxy compareVisitor pxyCfgs visitorCfgs).Run
      Permitted word s) (hidle : s.Idle) :
    s.Configured comparePxy compareVisitor :=
  (inv_of_run hrun).configured hidle

/-- A configuration with one proxy. -/
def oneConf (name conf : String) : ConfMap String :=
  ⟨[(name, conf)], List.nodup_singleton name⟩

/-- The system for configurations that compare as strings. -/
def plainSystem : System (State String String) (Action String String) :=
  system (fun old new => old == new) (fun old new => old == new)
    (oneConf "web" "80") ConfMap.empty

/-- The first login, and a reconnection during which a reload stores its
configuration before the new Control reads it. -/
def reloadBeforeRead : List (Action String String) :=
  [.keep, .keep, .keep, .keep, .keep, .fail 0, .keep,
    .reloadConf (oneConf "web" "8080") ConfMap.empty, .advance 0, .advance 0,
    .advance 0, .keep, .keep, .keep, .keep, .keep, .advance 0, .advance 0]

theorem configured_of_idle_reloadBeforeRead :
    ∃ s, plainSystem.Run (Permitted) reloadBeforeRead s ∧
      s.ctl = some 1 ∧
      s.Configured (fun old new => old == new) (fun old new => old == new) := by
  obtain ⟨s, hrun, hidle, hctl⟩ :
      ∃ s, plainSystem.Run (Permitted) reloadBeforeRead s ∧
        s.Idle ∧ s.ctl = some 1 :=
    System.exists_run_of_replay (by decide)
  exact ⟨s, hrun, hctl,
    configured_of_idle (oneConf "web" "80") ConfMap.empty hrun hidle⟩

/-- A reload after the new Control has read the configuration, which goes to
the old Control. -/
def reloadAfterRead : List (Action String String) :=
  [.keep, .keep, .keep, .keep, .keep, .fail 0, .keep, .keep, .keep,
    .reloadConf (oneConf "web" "8080") ConfMap.empty, .advance 0, .advance 0,
    .advance 0, .advance 0, .advance 0, .keep, .keep, .keep]

theorem not_configured_reloadAfterRead :
    ∃ s, plainSystem.Reaches reloadAfterRead s ∧ s.Idle ∧
      (∃ g ∈ s.ctl, (s.controls g).alive = true) ∧
      ¬ s.Configured (fun old new => old == new) (fun old new => old == new) :=
  System.exists_reaches_of_exec (by decide)

end Service

end Frp
