/-
The gauges of clients and proxies in `pkg/metrics/mem/server.go`, and where
`server/control.go` and `RegisterControl` of `server/service.go` call them: the
manager and the stoper of every Control over the machine of the port quota, each
call a step of its own.
-/
import Frp.Lib.Ledger
import Frp.Server.Quota

namespace Frp

open Transition GoStrings

namespace Gauges

open Quota (Proxies Control Pc Config)

/-- A call that the manager or the stoper is about to make, with the type that it
gives. -/
inductive Report where
  | newProxy (proxyType : Bytes)
  | closeProxy (proxyType : Bytes)
deriving DecidableEq

/-- `message` is the NewProxy message in hand, as `RegisterProxy` leaves it;
`counted` and `finished` say that `NewClient` and `CloseClient` have been
called. -/
structure Client where
  message : NewProxy
  report : Option Report
  counted : Bool
  finished : Bool
deriving DecidableEq

/-- `started` are the Controls that have been started, in order. -/
structure State where
  base : Quota.State
  started : List Nat
  clients : Nat → Client
  clientCounts : Int32
  proxyTypeCounts : Bytes → Option Int32

inductive Action where
  | start (c : Nat)
  | newClient (c : Nat)
  | base (action : Quota.Action)
  | report (c : Nat)
  | closeClient (c : Nat)

def Client.new : Client := ⟨.empty, none, false, false⟩

def init : State where
  base := Quota.init
  started := []
  clients _ := .new
  clientCounts := 0
  proxyTypeCounts _ := none

/-- The Control whose goroutine takes the step. -/
def controlOf : Quota.Action → Nat
  | .newProxy c _ | .proceed c _ | .panic c | .closeProxy c _ | .stop c
  | .stopNext c _ _ => c

/-- `NewProxyConfFromMsg` sets a type that is missing in the message. -/
def messageOf (cfg : Config) (message : NewProxy) : Quota.Action → NewProxy
  | .newProxy _ pMsg => (newProxyConfFromMsg pMsg cfg.serverCfg).1
  | .proceed _ _ | .panic _ | .closeProxy _ _ | .stop _ | .stopNext _ _ _ =>
      message

/-- What is reported after a step: the type of the message when `RegisterProxy`
has returned, and that of the configuration when a proxy has been closed.  A panic
comes before the report. -/
def reportOf (message : NewProxy) (ctl : Control) :
    Quota.Action → Option Report
  | .proceed _ _ =>
      match ctl.pc with
      | .store _ => some (.newProxy message.proxyType)
      | .forget _ pxy => some (.closeProxy pxy.conf.getBaseInfo.proxyType)
      | _ => none
  | .stopNext _ name .returned =>
      (ctl.proxies.lookup name).map fun pxy =>
        .closeProxy pxy.conf.getBaseInfo.proxyType
  | .newProxy _ _ | .panic _ | .closeProxy _ _ | .stop _
  | .stopNext _ _ .panicked => none

/-- `serverMetrics.NewProxy`, and `CloseProxy`, which counts down only a counter
that is there. -/
def count (counts : Bytes → Option Int32) : Report → Bytes → Option Int32
  | .newProxy proxyType =>
      Function.update counts proxyType
        (some ((counts proxyType).getD 0 + 1))
  | .closeProxy proxyType =>
      Function.update counts proxyType
        ((counts proxyType).map fun counter => counter - 1)

namespace State

def setClient (s : State) (c : Nat) (client : Client) : State :=
  { s with clients := Function.update s.clients c client }

def start (s : State) (c : Nat) : Option State :=
  if c ∈ s.started then none
  else some { s with started := s.started ++ [c] }

/-- `RegisterControl` after `Start`, whatever the Control does meanwhile. -/
def newClient (s : State) (c : Nat) : Option State :=
  if c ∈ s.started ∧ (s.clients c).counted = false then
    some { s.setClient c { s.clients c with counted := true } with
      clientCounts := s.clientCounts + 1 }
  else none

/-- A started Control goes on when it has nothing to report. -/
def step (cfg : Config) (s : State) (action : Quota.Action) : Option State :=
  let c := controlOf action
  let client := s.clients c
  if c ∈ s.started ∧ client.report = none then
    (Quota.step cfg s.base action).map fun base =>
      { s.setClient c { client with
          message := messageOf cfg client.message action
          report := reportOf client.message (s.base.controls c) action } with
        base := base }
  else none

def report (s : State) (c : Nat) : Option State :=
  (s.clients c).report.map fun report =>
    { s.setClient c { s.clients c with report := none } with
      proxyTypeCounts := count s.proxyTypeCounts report }

/-- The end of the stoper. -/
def closeClient (s : State) (c : Nat) : Option State :=
  if (s.base.controls c).pc = .stopping [] ∧ (s.clients c).report = none ∧
      (s.clients c).finished = false then
    some { s.setClient c { s.clients c with finished := true } with
      clientCounts := s.clientCounts - 1 }
  else none

end State

def step (cfg : Config) (s : State) : Action → Option State
  | .start c => s.start c
  | .newClient c => s.newClient c
  | .base action => s.step cfg action
  | .report c => s.report c
  | .closeClient c => s.closeClient c

def system (cfg : Config) : System State Action where
  start := init
  step := step cfg

/-- One for a proxy of the type. -/
def ofType (proxyType : Bytes) (pxy : Quota.ServerProxy) : Int :=
  if pxy.conf.getBaseInfo.proxyType = proxyType then 1 else 0

/-- The names that the stoper has not deleted, if it has begun. -/
def ranging : Pc → Option (List Bytes)
  | .stopping left | .aborted left => some left
  | .idle | .quota _ _ | .run _ _ | .add _ _ | .store _ | .close _
  | .rollback _ _ | .closing _ _ | .forget _ _ | .quit | .locked _ _ => none

/-- The proxies of a type in the map that the stoper has not closed yet. -/
def kept (proxyType : Bytes) (ctl : Control) : Int :=
  match ranging ctl.pc with
  | some left =>
      (left.map fun name =>
        ((ctl.proxies.lookup name).map (ofType proxyType)).getD 0).sum
  | none => Proxies.total (ofType proxyType) ctl.proxies

/-- What the gauge is ahead of the map while a call is still to be made. -/
def due (proxyType : Bytes) : Option Report → Int
  | none => 0
  | some (.newProxy other) => if other = proxyType then -1 else 0
  | some (.closeProxy other) => if other = proxyType then 1 else 0

theorem ofType_nonneg (proxyType : Bytes) (pxy : Quota.ServerProxy) :
    0 ≤ ofType proxyType pxy := by
  unfold ofType
  split <;> decide

theorem kept_nonneg (proxyType : Bytes) (ctl : Control) :
    0 ≤ kept proxyType ctl := by
  unfold kept
  split
  · rename_i left hpc
    clear hpc
    induction left with
    | nil => simp
    | cons name rest ih =>
        rw [List.map_cons, List.sum_cons]
        cases ctl.proxies.lookup name with
        | none => simpa using ih
        | some pxy =>
            have hone := ofType_nonneg proxyType pxy
            simp only [Option.map_some, Option.getD_some]
            omega
  · exact Proxies.total_nonneg (ofType_nonneg proxyType) _

section Base

variable {cfg : Config} {s s' : Quota.State} {action : Quota.Action} {c : Nat}

/-- The message in hand has the type of the proxy that is made from it. -/
def Agrees (message : NewProxy) (ctl : Control) : Prop :=
  ∀ name pxy, ctl.pc.making = some (name, pxy) →
    message.proxyType = pxy.conf.getBaseInfo.proxyType

/-- All that a step does to the Control that takes it. -/
inductive Moves (cfg : Config) (ctl : Control) :
    Quota.Action → Control → Prop where
  | keep {action : Quota.Action} {ctl' : Control}
      (hproxies : ctl'.proxies = ctl.proxies)
      (hserving : ranging ctl.pc = none)
      (hserving' : ranging ctl'.pc = none)
      (hreport : ∀ message, reportOf message ctl action = none)
      (hagrees : ∀ message, Agrees message ctl →
        Agrees (messageOf cfg message action) ctl') : Moves cfg ctl action ctl'
  | store {c : Nat} {ok : Bool} (pxy : Quota.ServerProxy)
      (hpc : ctl.pc = .store pxy) :
      Moves cfg ctl (.proceed c ok) { ctl with
        proxies := ctl.proxies.insert pxy.getName pxy
        pc := .idle }
  | forget {c : Nat} {ok : Bool} (name : Bytes) (pxy : Quota.ServerProxy)
      (hpc : ctl.pc = .forget name pxy) :
      Moves cfg ctl (.proceed c ok) { ctl with
        proxies := ctl.proxies.erase name
        pc := .idle }
  | stop {c : Nat} (hpc : ranging ctl.pc = none) :
      Moves cfg ctl (.stop c) { ctl with pc := .stopping ctl.proxies.keys }
  | stopNext {c : Nat} (left : List Bytes) (name : Bytes)
      (pxy : Quota.ServerProxy) (hpc : ctl.pc = .stopping left)
      (hmem : name ∈ left)
      (hentry : ctl.proxies.lookup name = some pxy) :
      Moves cfg ctl (.stopNext c name .returned) { ctl with
        pc := .stopping (left.filter (· ≠ name)) }
  | abort {c : Nat} (left : List Bytes) (name : Bytes)
      (hpc : ctl.pc = .stopping left) (hmem : name ∈ left) :
      Moves cfg ctl (.stopNext c name .panicked) { ctl with pc := .aborted left }

theorem agrees_of_making {message : NewProxy} {ctl ctl' : Control}
    (hmaking : ∀ name pxy, ctl'.pc.making = some (name, pxy) →
      ∃ name', ctl.pc.making = some (name', pxy))
    (hagrees : Agrees message ctl) : Agrees message ctl' := by
  intro name pxy hpxy
  obtain ⟨name', hname'⟩ := hmaking name pxy hpxy
  exact hagrees name' pxy hname'

theorem proxyType_unmarshalFromMsg (conf : ProxyConf) (pMsg : NewProxy) :
    (conf.unmarshalFromMsg pMsg).getBaseInfo.proxyType = pMsg.proxyType := by
  cases conf <;> rfl

/-- The proxy has the type that the message has in the end. -/
theorem proxyType_of_newProxyConfFromMsg {pMsg pMsg' : NewProxy}
    {serverCfg : ServerCommonConf} {conf : ProxyConf}
    (hconf : newProxyConfFromMsg pMsg serverCfg = (pMsg', .ok conf)) :
    pMsg'.proxyType = conf.getBaseInfo.proxyType := by
  obtain ⟨-, -, initial, -, rfl⟩ := newProxyConfFromMsg_ok hconf
  exact (proxyType_unmarshalFromMsg initial pMsg').symm

theorem moves_newProxy {pMsg : NewProxy}
    (hstep : s.newProxy cfg c pMsg = some s') :
    ∃ ctl, s'.controls = Function.update s.controls c ctl ∧
      Moves cfg (s.controls c) (.newProxy c pMsg) ctl := by
  cases hpc : (s.controls c).pc with
  | idle =>
      cases hconf : newProxyConfFromMsg pMsg cfg.serverCfg with
      | mk pMsg' result =>
          cases result with
          | error err =>
              simp only [Quota.State.newProxy, hpc, hconf, Option.some.injEq]
                at hstep
              subst hstep
              refine ⟨s.controls c, (Function.update_eq_self ..).symm,
                .keep rfl (by rw [hpc]; rfl) (by rw [hpc]; rfl) (fun _ => rfl) ?_⟩
              intro message _ name pxy hmaking
              simp [hpc, Pc.making] at hmaking
          | ok conf =>
              simp only [Quota.State.newProxy, hpc, hconf, Option.some.injEq]
                at hstep
              subst hstep
              refine ⟨_, rfl,
                .keep rfl (by rw [hpc]; rfl) rfl (fun _ => rfl) ?_⟩
              intro message _ name pxy hmaking
              simp only [Pc.making, Option.some.injEq, Prod.mk.injEq] at hmaking
              obtain ⟨-, rfl⟩ := hmaking
              rw [messageOf, hconf]
              exact proxyType_of_newProxyConfFromMsg hconf
  | _ => simp [Quota.State.newProxy, hpc] at hstep

theorem moves_proceed {ok : Bool} (hstep : s.proceed cfg c ok = some s') :
    ∃ ctl, s'.controls = Function.update s.controls c ctl ∧
      Moves cfg (s.controls c) (.proceed c ok) ctl := by
  cases hpc : (s.controls c).pc with
  | quota name pxy =>
      simp only [Quota.State.proceed, hpc] at hstep
      split at hstep
      · cases hstep
        exact ⟨_, rfl, .keep rfl (by rw [hpc]; rfl) rfl
          (by simp [reportOf, hpc])
          fun _ => agrees_of_making (by simp [Pc.making])⟩
      · cases hstep
        exact ⟨_, rfl, .keep rfl (by rw [hpc]; rfl) rfl
          (by simp [reportOf, hpc])
          fun _ => agrees_of_making (by simp [hpc, Pc.making])⟩
  | run name pxy =>
      simp only [Quota.State.proceed, hpc, Option.some.injEq] at hstep
      subst hstep
      refine ⟨_, rfl, .keep rfl (by rw [hpc]; rfl) (by cases ok <;> rfl)
        (by simp [reportOf, hpc]) fun _ => agrees_of_making ?_⟩
      cases ok <;> simp [hpc, Pc.making]
  | add name pxy =>
      cases hpxy : s.pxys name with
      | some other =>
          simp only [Quota.State.proceed, hpc, hpxy, Option.some.injEq] at hstep
          subst hstep
          exact ⟨_, rfl, .keep rfl (by rw [hpc]; rfl) rfl
            (by simp [reportOf, hpc])
            fun _ => agrees_of_making (by simp [Pc.making])⟩
      | none =>
          simp only [Quota.State.proceed, hpc, hpxy, Option.some.injEq] at hstep
          subst hstep
          exact ⟨_, rfl, .keep rfl (by rw [hpc]; rfl) rfl
            (by simp [reportOf, hpc])
            fun _ => agrees_of_making (by simp [hpc, Pc.making])⟩
  | store pxy =>
      simp only [Quota.State.proceed, hpc, Option.some.injEq] at hstep
      subst hstep
      exact ⟨_, rfl, .store pxy hpc⟩
  | rollback pxy panicked =>
      simp only [Quota.State.proceed, hpc, Option.some.injEq] at hstep
      subst hstep
      refine ⟨_, rfl, .keep rfl (by rw [hpc]; rfl) (by cases panicked <;> rfl)
        (by simp [reportOf, hpc]) fun _ => agrees_of_making ?_⟩
      cases panicked <;> simp [Pc.making]
  | close pxy | closing name pxy =>
      simp only [Quota.State.proceed, hpc, Option.some.injEq] at hstep
      subst hstep
      exact ⟨_, rfl, .keep rfl (by rw [hpc]; rfl) rfl
        (by simp [reportOf, hpc])
        fun _ => agrees_of_making (by simp [Pc.making])⟩
  | forget name pxy =>
      simp only [Quota.State.proceed, hpc, Option.some.injEq] at hstep
      subst hstep
      exact ⟨_, rfl, .forget name pxy hpc⟩
  | idle | stopping left | quit | locked name pxy | aborted left =>
      simp [Quota.State.proceed, hpc] at hstep

theorem moves_panic (hstep : s.panic c = some s') :
    ∃ ctl, s'.controls = Function.update s.controls c ctl ∧
      Moves cfg (s.controls c) (.panic c) ctl := by
  cases hpc : (s.controls c).pc with
  | run name pxy =>
      simp only [Quota.State.panic, hpc, Option.ite_none_right_eq_some,
        Option.some.injEq] at hstep
      obtain ⟨_, rfl⟩ := hstep
      exact ⟨_, rfl, .keep rfl (by rw [hpc]; rfl) rfl (fun _ => rfl)
        fun _ => agrees_of_making (by simp [Pc.making])⟩
  | close pxy | closing name pxy =>
      simp only [Quota.State.panic, hpc, Option.some.injEq] at hstep
      subst hstep
      exact ⟨_, rfl, .keep rfl (by rw [hpc]; rfl) rfl (fun _ => rfl)
        fun _ => agrees_of_making (by simp [Pc.making, CloseSite.keepsLock])⟩
  | _ => simp [Quota.State.panic, hpc] at hstep

theorem moves_closeProxy {name : Bytes}
    (hstep : s.closeProxy cfg c name = some s') :
    ∃ ctl, s'.controls = Function.update s.controls c ctl ∧
      Moves cfg (s.controls c) (.closeProxy c name) ctl := by
  cases hpc : (s.controls c).pc with
  | idle =>
      cases hentry : (s.controls c).proxies.lookup name with
      | none =>
          simp only [Quota.State.closeProxy, hpc, hentry, Option.some.injEq]
            at hstep
          subst hstep
          exact ⟨s.controls c, (Function.update_eq_self ..).symm,
            .keep rfl (by rw [hpc]; rfl) (by rw [hpc]; rfl) (fun _ => rfl)
              fun _ hagrees => hagrees⟩
      | some pxy =>
          simp only [Quota.State.closeProxy, hpc, hentry, Option.some.injEq]
            at hstep
          subst hstep
          exact ⟨_, rfl, .keep rfl (by rw [hpc]; rfl) rfl (fun _ => rfl)
            fun _ => agrees_of_making (by simp [Pc.making])⟩
  | _ => simp [Quota.State.closeProxy, hpc] at hstep

theorem moves_of_step (hstep : Quota.step cfg s action = some s') :
    ∃ ctl, s'.controls = Function.update s.controls (controlOf action) ctl ∧
      Moves cfg (s.controls (controlOf action)) action ctl := by
  cases action with
  | newProxy c pMsg => exact moves_newProxy hstep
  | proceed c ok => exact moves_proceed hstep
  | panic c => exact moves_panic hstep
  | closeProxy c name => exact moves_closeProxy hstep
  | stop c =>
      cases hpc : (s.controls c).pc with
      | idle | quit =>
          simp only [Quota.step, Quota.State.stop, hpc, Option.some.injEq]
            at hstep
          subst hstep
          exact ⟨_, rfl, .stop (by rw [controlOf, hpc]; rfl)⟩
      | _ => simp [Quota.step, Quota.State.stop, hpc] at hstep
  | stopNext c name close =>
      simp only [Quota.step, Quota.State.stopNext] at hstep
      split at hstep
      · rename_i left pxy hpc hentry
        rw [Option.ite_none_right_eq_some] at hstep
        obtain ⟨hmem, hnext⟩ := hstep
        cases close with
        | returned =>
            cases hnext
            exact ⟨_, rfl, .stopNext left name pxy hpc hmem hentry⟩
        | panicked =>
            cases hnext
            exact ⟨_, rfl, .abort left name hpc hmem⟩
      · cases hstep

theorem total_entries {proxies : Proxies} (f : Quota.ServerProxy → Int) :
    (proxies.keys.map fun name => ((proxies.lookup name).map f).getD 0).sum =
      Proxies.total f proxies := by
  have hlookup : proxies.keys.map
        (fun name => ((proxies.lookup name).map f).getD 0) =
      proxies.entries.map fun entry => f entry.2 := by
    rw [AList.keys, List.keys, List.map_map]
    refine List.map_congr_left fun entry hentry => ?_
    have hsome : proxies.lookup entry.1 = some entry.2 :=
      AList.mem_lookup_iff.mpr hentry
    rw [Function.comp_apply, hsome]
    rfl
  rw [hlookup, Proxies.total]

/-- What the stoper has closed is no longer kept. -/
theorem sum_filter_ne {left : List Bytes} (hnodup : left.Nodup) {name : Bytes}
    (hmem : name ∈ left) (f : Bytes → Int) :
    ((left.filter (· ≠ name)).map f).sum + f name = (left.map f).sum := by
  induction left with
  | nil => exact absurd hmem List.not_mem_nil
  | cons head rest ih =>
      rw [List.nodup_cons] at hnodup
      rw [List.map_cons, List.sum_cons]
      rcases List.mem_cons.mp hmem with rfl | hrest
      · have hsame : (name :: rest).filter (· ≠ name) = rest := by
          rw [List.filter_cons_of_neg (by simp)]
          refine List.filter_eq_self.mpr fun other hin => ?_
          exact decide_eq_true fun heq => hnodup.1 (heq ▸ hin)
        rw [hsame]
        omega
      · have hne : head ≠ name := fun heq => hnodup.1 (heq ▸ hrest)
        rw [List.filter_cons_of_pos (by simpa using hne), List.map_cons,
          List.sum_cons]
        have hih := ih hnodup.2 hrest
        omega

theorem kept_of_serving {ctl : Control} (hserving : ranging ctl.pc = none)
    (proxyType : Bytes) :
    kept proxyType ctl = Proxies.total (ofType proxyType) ctl.proxies := by
  rw [kept, hserving]

namespace Moves

variable {ctl ctl' : Control}

/-- What leaves or enters the map is what is reported. -/
theorem kept_add_due (hmoves : Moves cfg ctl action ctl')
    (hsound : ctl.Sound cfg c)
    (hleft : ∀ left, ranging ctl.pc = some left → left.Nodup)
    {message : NewProxy} (hagrees : Agrees message ctl) (proxyType : Bytes) :
    kept proxyType ctl' + due proxyType (reportOf message ctl action) =
      kept proxyType ctl := by
  cases hmoves with
  | keep hproxies hserving hserving' hreport _ =>
      rw [kept_of_serving hserving, kept_of_serving hserving', hproxies,
        hreport, due, Int.add_zero]
  | store pxy hpc =>
      have hold : kept proxyType ctl = _ :=
        kept_of_serving (by rw [hpc]; rfl) proxyType
      rw [hold, kept_of_serving rfl,
        Proxies.total_insert (hsound.fresh pxy hpc)]
      have htype := hagrees pxy.getName pxy (by rw [hpc]; rfl)
      simp only [reportOf, hpc, due, ofType, htype]
      split <;> omega
  | forget name pxy hpc =>
      have hold : kept proxyType ctl = _ :=
        kept_of_serving (by rw [hpc]; rfl) proxyType
      rw [hold, kept_of_serving rfl, Proxies.total_erase
          (hsound.taking name pxy (by rw [hpc]; rfl))]
      simp only [reportOf, hpc, due, ofType]
      split <;> omega
  | stop hpc =>
      rw [kept_of_serving hpc, reportOf, due, Int.add_zero]
      exact total_entries (ofType proxyType)
  | stopNext left name pxy hpc hmem hentry =>
      have hnodup := hleft left (by rw [hpc]; rfl)
      have hsum := sum_filter_ne hnodup hmem fun name =>
        ((ctl.proxies.lookup name).map (ofType proxyType)).getD 0
      simp only [hentry, Option.map_some, Option.getD_some] at hsum
      simp only [kept, ranging, hpc, reportOf, hentry, Option.map_some, due]
      rw [← hsum]
      rfl
  | abort left name hpc _ =>
      simp only [kept, ranging, hpc, reportOf, due, Int.add_zero]

theorem left_nodup (hmoves : Moves cfg ctl action ctl')
    (hleft : ∀ left, ranging ctl.pc = some left → left.Nodup) (left : List Bytes)
    (hpc' : ranging ctl'.pc = some left) : left.Nodup := by
  cases hmoves with
  | keep _ _ hserving' _ _ =>
      rw [hserving'] at hpc'
      cases hpc'
  | store _ _ => cases hpc'
  | forget _ _ _ => cases hpc'
  | stop _ =>
      cases hpc'
      exact ctl.proxies.keys_nodup
  | stopNext before _ _ hpc _ _ =>
      cases hpc'
      exact (hleft before (by rw [hpc]; rfl)).filter _
  | abort before _ hpc _ =>
      cases hpc'
      exact hleft _ (by rw [hpc]; rfl)

theorem agrees (hmoves : Moves cfg ctl action ctl') {message : NewProxy}
    (hagrees : Agrees message ctl) :
    Agrees (messageOf cfg message action) ctl' := by
  cases hmoves with
  | keep _ _ _ _ hkeep => exact hkeep message hagrees
  | _ => exact fun _ _ hmaking => by simp [Pc.making] at hmaking

/-- A stoper that is through takes no step. -/
theorem not_done (hmoves : Moves cfg ctl action ctl') :
    ctl.pc ≠ .stopping [] := by
  intro hdone
  cases hmoves with
  | keep _ hserving _ _ _ => simp [hdone, ranging] at hserving
  | store _ hpc => simp [hpc] at hdone
  | forget _ _ hpc => simp [hpc] at hdone
  | stop hpc => simp [hdone, ranging] at hpc
  | stopNext left _ _ hpc hmem _ =>
      rw [hpc, Pc.stopping.injEq] at hdone
      rw [hdone] at hmem
      cases hmem
  | abort left _ hpc hmem =>
      rw [hpc, Pc.stopping.injEq] at hdone
      rw [hdone] at hmem
      cases hmem

end Moves

end Base

/-- What a Control has added to the gauge of clients. -/
def Client.alive (client : Client) : Int :=
  (if client.counted then 1 else 0) - if client.finished then 1 else 0

namespace State

/-- The proxies of a type that the gauge has for a Control. -/
def held (s : State) (proxyType : Bytes) (c : Nat) : Int :=
  kept proxyType (s.base.controls c) + due proxyType (s.clients c).report

def alive (s : State) (c : Nat) : Int := (s.clients c).alive

end State

/-- The gauges are the sums over the Controls; `present` says that only a proxy of
a type with a counter can be closed. -/
structure Inv (cfg : Config) (s : State) : Prop where
  base : s.base.Inv cfg
  nodup : s.started.Nodup
  fresh : ∀ c, c ∉ s.started →
    s.base.controls c = .new ∧ s.clients c = .new
  left : ∀ c left, ranging (s.base.controls c).pc = some left → left.Nodup
  agrees : ∀ c, Agrees (s.clients c).message (s.base.controls c)
  proxies : ∀ proxyType, (s.proxyTypeCounts proxyType).getD 0 =
    Int32.ofInt (s.started.map (s.held proxyType)).sum
  present : ∀ proxyType, s.proxyTypeCounts proxyType = none →
    ∀ c, s.held proxyType c = 0
  finished : ∀ c, (s.clients c).finished = true →
    (s.base.controls c).pc = .stopping [] ∧ (s.clients c).report = none
  clients : s.clientCounts = Int32.ofInt (s.started.map s.alive).sum

theorem held_of_new {s : State} {c : Nat} (hcontrol : s.base.controls c = .new)
    (hclient : s.clients c = .new) (proxyType : Bytes) :
    s.held proxyType c = 0 := by
  rw [State.held, hcontrol, hclient]
  rfl

theorem inv_init (cfg : Config) : Inv cfg init where
  base := Quota.inv_init
  nodup := List.nodup_nil
  fresh _ _ := ⟨rfl, rfl⟩
  left _ _ hpc := by simp [init, Quota.init, Control.new, ranging] at hpc
  agrees _ _ _ hmaking := by
    simp [init, Quota.init, Control.new, Pc.making] at hmaking
  proxies _ := rfl
  present proxyType _ _ := held_of_new rfl rfl proxyType
  finished _ hfinished := by simp [init, Client.new] at hfinished
  clients := rfl

namespace Inv

variable {cfg : Config} {s s' : State} {c : Nat}

theorem start (hinv : Inv cfg s) (hstep : s.start c = some s') :
    Inv cfg s' := by
  rw [State.start, Option.ite_none_left_eq_some, Option.some.injEq] at hstep
  obtain ⟨hnew, rfl⟩ := hstep
  obtain ⟨hcontrol, hclient⟩ := hinv.fresh c hnew
  have hheld := held_of_new hcontrol hclient
  have halive : s.alive c = 0 := by
    rw [State.alive, hclient]
    rfl
  exact { hinv with
    nodup := List.nodup_append.mpr ⟨hinv.nodup, List.nodup_singleton c,
      fun other hother last hlast heq =>
        hnew (List.mem_singleton.mp hlast ▸ heq ▸ hother)⟩
    fresh := fun other hother => hinv.fresh other fun hin =>
      hother (List.mem_append_left _ hin)
    proxies := fun proxyType => by
      rw [hinv.proxies proxyType]
      change _ = Int32.ofInt ((s.started ++ [c]).map (s.held proxyType)).sum
      simp [hheld]
    clients := by
      rw [hinv.clients]
      change _ = Int32.ofInt ((s.started ++ [c]).map s.alive).sum
      simp [halive] }

/-- One started Control goes on, and the gauges follow it. -/
theorem change (hinv : Inv cfg s) (hc : c ∈ s.started) {base : Quota.State}
    {client : Client} {clientCounts : Int32}
    {proxyTypeCounts : Bytes → Option Int32} (hbase : base.Inv cfg)
    (hcontrols : ∀ other, other ≠ c →
      base.controls other = s.base.controls other)
    (hleft : ∀ left, ranging (base.controls c).pc = some left → left.Nodup)
    (hagrees : Agrees client.message (base.controls c))
    (hproxies : ∀ proxyType, (proxyTypeCounts proxyType).getD 0 =
      (s.proxyTypeCounts proxyType).getD 0 +
        Int32.ofInt (kept proxyType (base.controls c) +
          due proxyType client.report - s.held proxyType c))
    (hpresent : ∀ proxyType, proxyTypeCounts proxyType = none →
      s.proxyTypeCounts proxyType = none ∧
        kept proxyType (base.controls c) + due proxyType client.report = 0)
    (hfinished : client.finished = true →
      (base.controls c).pc = .stopping [] ∧ client.report = none)
    (hclients : clientCounts =
      s.clientCounts + Int32.ofInt (client.alive - s.alive c)) :
    Inv cfg ⟨base, s.started, Function.update s.clients c client, clientCounts,
      proxyTypeCounts⟩ := by
  have hheld (proxyType : Bytes) (other : Nat) (hother : other ≠ c) :
      kept proxyType (base.controls other) +
          due proxyType (Function.update s.clients c client other).report =
        s.held proxyType other := by
    rw [hcontrols other hother, Function.update_of_ne hother]
    rfl
  have halive (other : Nat) (hother : other ≠ c) :
      (Function.update s.clients c client other).alive = s.alive other := by
    rw [Function.update_of_ne hother]
    rfl
  refine
    { base := hbase
      nodup := hinv.nodup
      fresh := ?_
      left := ?_
      agrees := ?_
      proxies := ?_
      present := ?_
      finished := ?_
      clients := ?_ }
  · intro other hnew
    have hother : other ≠ c := fun heq => hnew (heq ▸ hc)
    obtain ⟨hcontrol, hclient⟩ := hinv.fresh other hnew
    exact ⟨(hcontrols other hother).trans hcontrol,
      (Function.update_of_ne hother ..).trans hclient⟩
  · intro other left hpc
    by_cases hother : other = c
    · exact hleft left (hother ▸ hpc)
    · exact hinv.left other left (hcontrols other hother ▸ hpc)
  · intro other
    by_cases hother : other = c
    · simpa [hother] using hagrees
    · simpa [hother, hcontrols other hother] using hinv.agrees other
  · intro proxyType
    have hsum := Ledger.sum_map_change hinv.nodup hc (hheld proxyType)
    rw [Function.update_self] at hsum
    change _ = Int32.ofInt (s.started.map fun other =>
      kept proxyType (base.controls other) +
        due proxyType (Function.update s.clients c client other).report).sum
    rw [hsum, Int32.ofInt_add, ← hinv.proxies proxyType]
    exact hproxies proxyType
  · intro proxyType hnone other
    obtain ⟨hold, hself⟩ := hpresent proxyType hnone
    by_cases hother : other = c
    · subst hother
      simpa [State.held] using hself
    · exact (hheld proxyType other hother).trans
        (hinv.present proxyType hold other)
  · intro other hdone
    dsimp only at hdone ⊢
    by_cases hother : other = c
    · subst hother
      rw [Function.update_self] at hdone ⊢
      exact hfinished hdone
    · rw [Function.update_of_ne hother] at hdone ⊢
      rw [hcontrols other hother]
      exact hinv.finished other hdone
  · have hsum := Ledger.sum_map_change hinv.nodup hc halive
    rw [Function.update_self] at hsum
    change _ = Int32.ofInt (s.started.map fun other =>
      (Function.update s.clients c client other).alive).sum
    rw [hsum, Int32.ofInt_add, ← hinv.clients]
    exact hclients

theorem newClient (hinv : Inv cfg s) (hstep : s.newClient c = some s') :
    Inv cfg s' := by
  rw [State.newClient, Option.ite_none_right_eq_some, Option.some.injEq]
    at hstep
  obtain ⟨⟨hc, hcounted⟩, rfl⟩ := hstep
  refine hinv.change hc hinv.base (fun _ _ => rfl) (hinv.left c)
    (hinv.agrees c) (fun proxyType => ?_)
    (fun proxyType hnone => ⟨hnone, hinv.present proxyType hnone c⟩)
    (hinv.finished c) ?_
  · simp [State.held, State.setClient]
  · have halive : Client.alive { s.clients c with counted := true } -
        s.alive c = 1 := by
      simp only [State.alive, Client.alive, hcounted, if_true,
        Bool.false_eq_true, if_false]
      omega
    rw [halive]
    rfl

theorem closeClient (hinv : Inv cfg s) (hstep : s.closeClient c = some s') :
    Inv cfg s' := by
  rw [State.closeClient, Option.ite_none_right_eq_some, Option.some.injEq]
    at hstep
  obtain ⟨⟨hpc, hreport, hrunning⟩, rfl⟩ := hstep
  have hc : c ∈ s.started := by
    by_contra hnew
    rw [(hinv.fresh c hnew).1] at hpc
    cases hpc
  refine hinv.change hc hinv.base (fun _ _ => rfl) (hinv.left c)
    (hinv.agrees c) (fun proxyType => ?_)
    (fun proxyType hnone => ⟨hnone, hinv.present proxyType hnone c⟩)
    (fun _ => ⟨hpc, hreport⟩) ?_
  · simp [State.held, State.setClient]
  · have halive : Client.alive { s.clients c with finished := true } -
        s.alive c = -1 := by
      simp only [State.alive, Client.alive, hrunning, if_true,
        Bool.false_eq_true, if_false]
      omega
    rw [halive]
    exact Int32.sub_eq_add_neg ..

theorem step (hinv : Inv cfg s) {action : Quota.Action}
    (hstep : s.step cfg action = some s') : Inv cfg s' := by
  rw [State.step, Option.ite_none_right_eq_some] at hstep
  obtain ⟨⟨hc, hreport⟩, hstep⟩ := hstep
  obtain ⟨base, hbase, rfl⟩ := Option.map_eq_some_iff.mp hstep
  obtain ⟨ctl, hcontrols, hmoves⟩ := moves_of_step hbase
  have hself : base.controls (controlOf action) = ctl := by
    rw [hcontrols, Function.update_self]
  have hagrees := hinv.agrees (controlOf action)
  have hkept (proxyType : Bytes) :
      kept proxyType (base.controls (controlOf action)) +
          due proxyType (reportOf (s.clients (controlOf action)).message
            (s.base.controls (controlOf action)) action) =
        s.held proxyType (controlOf action) := by
    rw [hself, hmoves.kept_add_due (hinv.base.sound _) (hinv.left _) hagrees,
      State.held, hreport, due, Int.add_zero]
  refine hinv.change hc (hinv.base.step hbase) ?_ ?_ ?_ ?_ ?_ ?_ ?_
  · intro other hother
    rw [hcontrols, Function.update_of_ne hother]
  · rw [hself]
    exact hmoves.left_nodup (hinv.left _)
  · rw [hself]
    exact hmoves.agrees hagrees
  · intro proxyType
    rw [hkept, Int.sub_self]
    exact (Int32.add_zero _).symm
  · intro proxyType hnone
    rw [hkept]
    exact ⟨hnone, hinv.present proxyType hnone _⟩
  · intro hfinished
    exact absurd (hinv.finished _ hfinished).1 hmoves.not_done
  · simp [State.alive, Client.alive, State.setClient]

/-- The counter of the type follows the call. -/
theorem count_getD (counts : Bytes → Option Int32) (report : Report)
    (hthere : ∀ proxyType, report = .closeProxy proxyType →
      counts proxyType ≠ none) (proxyType : Bytes) :
    (count counts report proxyType).getD 0 =
      (counts proxyType).getD 0 - Int32.ofInt (due proxyType (some report)) := by
  cases report with
  | newProxy other =>
      by_cases hsame : proxyType = other
      · subst hsame
        simp [count, due]
      · simp [count, due, hsame, Ne.symm hsame]
  | closeProxy other =>
      by_cases hsame : proxyType = other
      · subst hsame
        obtain ⟨counter, hcounter⟩ :=
          Option.ne_none_iff_exists'.mp (hthere proxyType rfl)
        simp [count, due, hcounter]
      · simp [count, due, hsame, Ne.symm hsame]

theorem count_eq_none {counts : Bytes → Option Int32} {report : Report}
    {proxyType : Bytes} (hnone : count counts report proxyType = none) :
    counts proxyType = none ∧ report ≠ .newProxy proxyType := by
  cases report with
  | newProxy other =>
      by_cases hsame : proxyType = other
      · subst hsame
        simp [count] at hnone
      · simp only [count, Function.update_of_ne hsame] at hnone
        exact ⟨hnone, fun heq => hsame (Report.newProxy.inj heq).symm⟩
  | closeProxy other =>
      by_cases hsame : proxyType = other
      · subst hsame
        simpa [count] using hnone
      · simp only [count, Function.update_of_ne hsame] at hnone
        exact ⟨hnone, by simp⟩

theorem report (hinv : Inv cfg s) (hstep : s.report c = some s') :
    Inv cfg s' := by
  obtain ⟨report, hreport, rfl⟩ := Option.map_eq_some_iff.mp hstep
  have hc : c ∈ s.started := by
    by_contra hnew
    rw [(hinv.fresh c hnew).2] at hreport
    cases hreport
  have hheld (proxyType : Bytes) : s.held proxyType c =
      kept proxyType (s.base.controls c) + due proxyType (some report) := by
    rw [State.held, hreport]
  refine hinv.change hc hinv.base (fun _ _ => rfl) (hinv.left c)
    (hinv.agrees c) ?_ ?_ ?_ ?_
  · intro proxyType
    have hthere (other : Bytes) (hclose : report = .closeProxy other) :
        s.proxyTypeCounts other ≠ none := by
      intro hnone
      have hzero := hinv.present other hnone c
      have hkept := kept_nonneg other (s.base.controls c)
      rw [hheld, hclose, due, if_pos rfl] at hzero
      omega
    have hcount := count_getD s.proxyTypeCounts report hthere proxyType
    rw [hheld]
    refine hcount.trans ?_
    simp only [due, Int32.sub_eq_add_neg, ← Int32.ofInt_neg]
    congr 2
    change _ = kept proxyType (s.base.controls c) + 0 - _
    omega
  · intro proxyType hnone
    obtain ⟨hold, hother⟩ := count_eq_none hnone
    have hzero := hinv.present proxyType hold c
    have hkept := kept_nonneg proxyType (s.base.controls c)
    have hdue : 0 ≤ due proxyType (some report) := by
      cases report with
      | newProxy other =>
          have hne : other ≠ proxyType := fun heq => hother (heq ▸ rfl)
          rw [due, if_neg hne]
      | closeProxy other =>
          rw [due]
          split <;> decide
    rw [hheld] at hzero
    refine ⟨hold, ?_⟩
    change kept proxyType (s.base.controls c) + 0 = 0
    omega
  · intro hfinished
    rw [(hinv.finished c hfinished).2] at hreport
    cases hreport
  · simp [State.alive, Client.alive, State.setClient]

end Inv

theorem inv_of_reaches {cfg : Config} {word : List Action} {s : State}
    (hreaches : (system cfg).Reaches word s) : Inv cfg s := by
  refine System.Reaches.invariant (inv_init cfg) ?_ hreaches
  intro state action next hinv hstep
  cases action with
  | start c => exact hinv.start hstep
  | newClient c => exact hinv.newClient hstep
  | base action => exact hinv.step hstep
  | report c => exact hinv.report hstep
  | closeClient c => exact hinv.closeClient hstep

/-- The stoper of the Control has ended, at its end or by a panic. -/
def State.ended (s : State) (c : Nat) : Bool :=
  (s.clients c).finished ||
    match (s.base.controls c).pc with
    | .aborted _ => true
    | _ => false

/-- No registration, close, start or stop is in progress. -/
structure Quiet (s : State) : Prop where
  reported : ∀ c, (s.clients c).report = none
  settled : ∀ c, (s.base.controls c).pc = .idle ∨ s.ended c = true
  counted : ∀ c ∈ s.started, (s.clients c).counted = true

/-- The Controls that have been started and whose stoper has not ended. -/
def State.serving (s : State) : List Nat :=
  s.started.filter fun c => !s.ended c

/-- The proxies of a type in the map of a Control. -/
def State.number (s : State) (proxyType : Bytes) (c : Nat) : Int :=
  Proxies.total (ofType proxyType) (s.base.controls c).proxies

theorem sum_filter {l : List Nat} {p : Nat → Bool} {f g : Nat → Int}
    (hin : ∀ c ∈ l, p c = true → f c = g c)
    (hout : ∀ c ∈ l, p c = false → f c = 0) :
    (l.map f).sum = ((l.filter p).map g).sum := by
  induction l with
  | nil => rfl
  | cons c rest ih =>
      rw [List.forall_mem_cons] at hin hout
      rw [List.map_cons, List.sum_cons, ih hin.2 hout.2]
      cases hp : p c with
      | true =>
          rw [List.filter_cons_of_pos hp, List.map_cons, List.sum_cons,
            hin.1 hp]
      | false =>
          rw [List.filter_cons_of_neg (by simp [hp]), hout.1 hp, Int.zero_add]

/-- No `Close` of a proxy panics. -/
def NoPanic (s : State) : Action → Prop
  | .base action => Quota.NoPanic s.base action
  | _ => True

instance (s : State) (action : Action) : Decidable (NoPanic s action) :=
  match action with
  | .base action => inferInstanceAs (Decidable (Quota.NoPanic s.base action))
  | .start _ | .newClient _ | .report _ | .closeClient _ =>
      inferInstanceAs (Decidable True)

/-- No stoper has ended by a panic. -/
def State.Intact (s : State) : Prop :=
  ∀ c left, (s.base.controls c).pc ≠ .aborted left

theorem Moves.intact {cfg : Config} {s : Quota.State} {ctl ctl' : Control}
    {action : Quota.Action} (hmoves : Moves cfg ctl action ctl')
    (hcalm : Quota.NoPanic s action) (left : List Bytes) :
    ctl'.pc ≠ .aborted left := by
  cases hmoves with
  | keep _ _ hserving' _ _ =>
      intro haborted
      rw [haborted] at hserving'
      cases hserving'
  | abort => exact hcalm.elim
  | store | forget | stop | stopNext => simp

theorem State.Intact.step {cfg : Config} {s s' : State} {action : Action}
    (hintact : s.Intact) (hcalm : NoPanic s action)
    (hstep : Gauges.step cfg s action = some s') : s'.Intact := by
  cases action with
  | base action =>
      simp only [Gauges.step, State.step, Option.ite_none_right_eq_some]
        at hstep
      obtain ⟨_, hstep⟩ := hstep
      obtain ⟨base, hbase, rfl⟩ := Option.map_eq_some_iff.mp hstep
      obtain ⟨ctl, hcontrols, hmoves⟩ := moves_of_step hbase
      have hreturns : Quota.NoPanic s.base action := hcalm
      intro c left
      show (base.controls c).pc ≠ _
      rw [hcontrols]
      by_cases hc : c = controlOf action
      · rw [hc, Function.update_self]
        exact hmoves.intact hreturns left
      · rw [Function.update_of_ne hc]
        exact hintact c left
  | start c =>
      simp only [Gauges.step, State.start, Option.ite_none_left_eq_some,
        Option.some.injEq] at hstep
      obtain ⟨_, rfl⟩ := hstep
      exact hintact
  | newClient c =>
      simp only [Gauges.step, State.newClient, Option.ite_none_right_eq_some,
        Option.some.injEq] at hstep
      obtain ⟨_, rfl⟩ := hstep
      exact hintact
  | report c =>
      obtain ⟨_, _, rfl⟩ := Option.map_eq_some_iff.mp hstep
      exact hintact
  | closeClient c =>
      simp only [Gauges.step, State.closeClient,
        Option.ite_none_right_eq_some, Option.some.injEq] at hstep
      obtain ⟨_, rfl⟩ := hstep
      exact hintact

theorem State.Intact.ended {s : State} (hintact : s.Intact) (c : Nat) :
    s.ended c = (s.clients c).finished := by
  unfold State.ended
  split
  · rename_i left haborted
    exact absurd haborted (hintact c left)
  · simp

/-- The gauges are the numbers of these Controls and of the proxies in their maps,
as the int32 values that they are. -/
def State.Exact (s : State) (controls : List Nat) : Prop :=
  (∀ proxyType, (s.proxyTypeCounts proxyType).getD 0 =
    Int32.ofInt (controls.map (s.number proxyType)).sum) ∧
  s.clientCounts = Int32.ofInt controls.length

/-- Whatever the Controls have been doing without a `Close` that panics, when all
of it is done the gauges are exact for those that still serve.  The map of a
Control that has stopped is left as it is. -/
theorem gauges_exact (cfg : Config) (word : List Action) (s : State)
    (hrun : (system cfg).Run NoPanic word s) (hquiet : Quiet s) :
    s.Exact s.serving := by
  have hinv := inv_of_reaches hrun.reaches
  have hintact : s.Intact := by
    refine System.Run.invariant (I := State.Intact) ?_ ?_ hrun
    · intro c left hpc
      cases hpc
    · intro state action next hold hcalm hnext
      exact hold.step hcalm hnext
  have hended := hintact.ended
  constructor
  · intro proxyType
    rw [hinv.proxies proxyType]
    refine congrArg Int32.ofInt (sum_filter ?_ ?_)
    · intro c _ hserving
      have hrunning : s.ended c = false := by simpa using hserving
      have hidle : (s.base.controls c).pc = .idle :=
        (hquiet.settled c).resolve_right (by simp [hrunning])
      rw [State.held, hquiet.reported c, due, Int.add_zero]
      exact kept_of_serving (by rw [hidle]; rfl) proxyType
    · intro c _ hstopped
      have hfinished : (s.clients c).finished = true := by
        rw [← hended]
        simpa using hstopped
      obtain ⟨hpc, hreport⟩ := hinv.finished c hfinished
      rw [State.held, hreport, due, kept, hpc]
      rfl
  · rw [hinv.clients]
    have halive : (s.started.map s.alive).sum =
        (s.serving.map fun _ => (1 : Int)).sum := by
      refine sum_filter ?_ ?_
      · intro c hc hserving
        have hrunning : (s.clients c).finished = false := by
          rw [← hended]
          simpa using hserving
        simp [State.alive, Client.alive, hquiet.counted c hc, hrunning]
      · intro c hc hstopped
        have hfinished : (s.clients c).finished = true := by
          rw [← hended]
          simpa using hstopped
        simp [State.alive, Client.alive, hquiet.counted c hc, hfinished]
    rw [halive]
    simp

/-- A client registers a proxy. -/
def oneProxy : List Action :=
  [.start 0, .newClient 0, .base (.newProxy 0 (Quota.tcpMsg "web")),
    .base (.proceed 0 true), .base (.proceed 0 true), .base (.proceed 0 true),
    .base (.proceed 0 true), .report 0]

theorem gauges_exact_oneProxy :
    ∃ s, (system Quota.onePort).Run NoPanic oneProxy s ∧
      s.serving = [0] ∧ s.number (ascii "tcp") 0 = 1 ∧ s.Exact s.serving := by
  obtain ⟨s, hrun, hquiet, hserving, hnumber⟩ :
      ∃ s, (system Quota.onePort).Run NoPanic oneProxy s ∧ Quiet s ∧
        s.serving = [0] ∧ s.number (ascii "tcp") 0 = 1 := by
    refine ⟨_, System.run_of_replay rfl, ⟨?_, ?_, ?_⟩, rfl, rfl⟩
    · intro c
      match c with
      | 0 => rfl
      | _ + 1 => rfl
    · intro c
      match c with
      | 0 => exact .inl rfl
      | _ + 1 => exact .inl rfl
    · intro c hc
      rw [List.mem_singleton.mp hc]
      rfl
  exact ⟨s, hrun, hserving, hnumber,
    gauges_exact Quota.onePort oneProxy s hrun hquiet⟩

def twoPorts : Config := ⟨.bits64, ⟨0, 0, 0, []⟩, 2⟩

/-- A client with two proxies goes, and the second `Close` of its stoper panics. -/
def panickedStoper : List Action :=
  [.start 0, .newClient 0, .base (.newProxy 0 (Quota.tcpMsg "web")),
    .base (.proceed 0 true), .base (.proceed 0 true), .base (.proceed 0 true),
    .base (.proceed 0 true), .report 0,
    .base (.newProxy 0 (Quota.tcpMsg "api")), .base (.proceed 0 true),
    .base (.proceed 0 true), .base (.proceed 0 true), .base (.proceed 0 true),
    .report 0, .base (.stop 0), .base (.stopNext 0 (ascii "web") .returned),
    .report 0, .base (.stopNext 0 (ascii "api") .panicked)]

/-- The gauges keep the client and the proxy for ever; they are exact neither for
the Controls that serve nor for all that have been started. -/
theorem not_exact_panickedStoper :
    ∃ s, (system twoPorts).Reaches panickedStoper s ∧ Quiet s ∧
      s.serving = [] ∧ s.clientCounts = 1 ∧
      (s.proxyTypeCounts (ascii "tcp")).getD 0 = 1 ∧
      ¬ s.Exact s.serving ∧ ¬ s.Exact s.started := by
  obtain ⟨s, hreaches, hquiet, hserving, hclients, hgauge, hsum⟩ :
      ∃ s, (system twoPorts).Reaches panickedStoper s ∧ Quiet s ∧
        s.serving = [] ∧ s.clientCounts = 1 ∧
        (s.proxyTypeCounts (ascii "tcp")).getD 0 = 1 ∧
        (s.started.map (s.number (ascii "tcp"))).sum = 2 := by
    refine ⟨_, System.reaches_of_exec rfl, ⟨?_, ?_, ?_⟩, rfl, rfl, rfl, rfl⟩
    · intro c
      match c with
      | 0 => rfl
      | _ + 1 => rfl
    · intro c
      match c with
      | 0 => exact .inr rfl
      | _ + 1 => exact .inl rfl
    · intro c hc
      rw [List.mem_singleton.mp hc]
      rfl
  refine ⟨s, hreaches, hquiet, hserving, hclients, hgauge, ?_, ?_⟩
  · rintro ⟨_, hlength⟩
    rw [hserving, hclients] at hlength
    exact absurd hlength (by decide)
  · rintro ⟨hproxies, _⟩
    have hfalse := hproxies (ascii "tcp")
    rw [hgauge, hsum] at hfalse
    exact absurd hfalse (by decide)

end Gauges

end Frp
