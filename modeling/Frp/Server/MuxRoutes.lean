/-
The https proxies of `server/proxy/https.go` and the tcpmux proxies of
`server/proxy/tcpmux.go`, run and closed one at a time on their muxer: each has a
listener for every domain of its configuration, and nobody else has one for it.
-/
import Frp.Lib.System
import Frp.Server.HTTPProxy
import Frp.Vhost.Payloads

namespace Frp

open GoStrings Transition

/-- What the `Run` of a proxy asks its muxer for, and the port in its address. -/
structure MuxPlan where
  domains : List Bytes
  routeByHTTPUser : Bytes
  port : Int
deriving DecidableEq, Repr

inductive MuxError where
  | router (err : RouterError)
  | unknownMultiplexer (multiplexer : Bytes)
deriving DecidableEq, Repr

def MuxError.text : MuxError → Bytes
  | .router err => ascii err.text
  | .unknownMultiplexer multiplexer =>
      ascii "unknown multiplexer [" ++ multiplexer ++ ascii "]"

/-- The custom domains that are not empty, then the subdomain. -/
def DomainConf.domains (cfg : DomainConf) (serverCfg : ServerCommonConf) :
    List Bytes :=
  cfg.customDomains.elems.filter (· ≠ []) ++
    if cfg.subDomain = [] then []
    else [cfg.subDomain ++ [dot] ++ serverCfg.subDomainHost]

def HTTPSProxy.plan (serverCfg : ServerCommonConf) (cfg : HTTPSProxyConf) :
    Except MuxError MuxPlan :=
  .ok ⟨cfg.toDomainConf.domains serverCfg, [], serverCfg.vhostHTTPSPort⟩

/-- The plan of a proxy that is in no group. -/
def TCPMuxProxy.plan (serverCfg : ServerCommonConf) (cfg : TCPMuxProxyConf) :
    Except MuxError MuxPlan :=
  if cfg.multiplexer = ascii TCPMuxGroup.httpConnectTCPMultiplexer then
    .ok ⟨cfg.toDomainConf.domains serverCfg, cfg.routeByHTTPUser,
      serverCfg.tcpMuxHTTPConnectPort⟩
  else .error (.unknownMultiplexer cfg.multiplexer)

namespace MuxPlan

def routeConfig (plan : MuxPlan) (domain : Bytes) : RouteConfig RealConn :=
  ⟨domain, [], [], [], [], [], plan.routeByHTTPUser, none⟩

/-- The listener that `Listen` returns for a domain. -/
def listener (plan : MuxPlan) (domain : Bytes) : MuxListener :=
  ⟨domain, [], plan.routeByHTTPUser, [], [], []⟩

/-- The loops of `Run`; they stop at the first domain that is taken. -/
def listenDomains (plan : MuxPlan) (v : Muxer) (listeners : List MuxListener) :
    List Bytes → Muxer × List MuxListener × Except RouterError Unit
  | [] => (v, listeners, .ok ())
  | domain :: rest =>
      match v.listen (plan.routeConfig domain) with
      | .error err => (v, listeners, .error err)
      | .ok (v, l) => plan.listenDomains v (listeners ++ [l]) rest

/-- `BaseProxy.Close`. -/
def closeListeners (v : Muxer) (listeners : List MuxListener) : Muxer :=
  listeners.foldl Muxer.close v

/-- `Run`: the listeners and the address, or everything is closed again. -/
def run (plan : MuxPlan) (v : Muxer) :
    Muxer × Except MuxError (List MuxListener × Bytes) :=
  match plan.listenDomains v [] plan.domains with
  | (v, listeners, .error err) => (closeListeners v listeners, .error (.router err))
  | (v, listeners, .ok ()) =>
      let addrs := plan.domains.map fun domain =>
        canonicalAddr domain plan.port
      (v, .ok (listeners, (ascii ",").intercalate addrs))

/-- The listeners that a run of `Listen` calls has added to a muxer. -/
structure Listened (plan : MuxPlan) (before after : Muxer)
    (added : List Bytes) : Prop where
  built : Routers.Built MuxListener.key after
  stores : ∀ l, Routers.Stores MuxListener.key after l ↔
    Routers.Stores MuxListener.key before l ∨ l ∈ added.map plan.listener
  fresh : ∀ domain ∈ added, ∀ l, Routers.Stores MuxListener.key before l →
    l.key ≠ (plan.listener domain).key
  nodup : added.Nodup

theorem listen_eq (plan : MuxPlan) (v : Muxer) (domain : Bytes) :
    v.listen (plan.routeConfig domain) =
      (Routers.addPayload MuxListener.key v (plan.listener domain)).map
        fun v => (v, plan.listener domain) := rfl

theorem Listened.cons {plan : MuxPlan} {before next after : Muxer}
    {domain : Bytes} {added : List Bytes}
    (hbuilt : Routers.Built MuxListener.key before)
    (hadd : Routers.addPayload MuxListener.key before (plan.listener domain) =
      .ok next) (hlistened : plan.Listened next after added) :
    plan.Listened before after (domain :: added) := by
  have hfree := (Routers.addPayload_isOk_iff before _).mp ⟨next, hadd⟩
  have hnew : Routers.Stores MuxListener.key next (plan.listener domain) :=
    (Routers.stores_add hadd _).mpr (Or.inr rfl)
  refine ⟨hlistened.built, ?_, ?_, ?_⟩
  · intro l
    rw [hlistened.stores, Routers.stores_add hadd, List.map_cons,
      List.mem_cons, or_assoc]
  · intro other hother l hl
    rcases List.mem_cons.mp hother with rfl | hrest
    · intro hkey
      exact hfree ((hbuilt.holds_iff _).mpr ⟨l, hl, hkey⟩)
    · exact hlistened.fresh other hrest l
        ((Routers.stores_add hadd l).mpr (Or.inl hl))
  · refine List.nodup_cons.mpr ⟨fun hmem => ?_, hlistened.nodup⟩
    exact hlistened.fresh domain hmem _ hnew rfl

theorem listenDomains_spec (plan : MuxPlan) {v : Muxer}
    (hbuilt : Routers.Built MuxListener.key v) (listeners : List MuxListener)
    (domains : List Bytes) :
    ∃ added, plan.Listened v (plan.listenDomains v listeners domains).1 added ∧
      (plan.listenDomains v listeners domains).2.1 =
        listeners ++ added.map plan.listener ∧
      ((plan.listenDomains v listeners domains).2.2 = .ok () →
        added = domains) := by
  induction domains generalizing v listeners with
  | nil => exact ⟨[], ⟨hbuilt, by simp [listenDomains], by simp, by simp⟩,
      by simp [listenDomains], fun _ => rfl⟩
  | cons domain rest ih =>
      cases hadd : Routers.addPayload MuxListener.key v
          (plan.listener domain) with
      | error err =>
          have hlisten : v.listen (plan.routeConfig domain) = .error err := by
            rw [listen_eq, hadd]
            rfl
          simp only [listenDomains, hlisten]
          exact ⟨[], ⟨hbuilt, by simp, by simp, by simp⟩, by simp,
            fun hok => by cases hok⟩
      | ok next =>
          have hlisten : v.listen (plan.routeConfig domain) =
              .ok (next, plan.listener domain) := by
            rw [listen_eq, hadd]
            rfl
          simp only [listenDomains, hlisten]
          obtain ⟨added, hlistened, hlisteners, hall⟩ :=
            ih (hbuilt.add hadd) (listeners ++ [plan.listener domain])
          refine ⟨domain :: added, hlistened.cons hbuilt hadd, ?_, ?_⟩
          · rw [hlisteners, List.append_assoc]
            rfl
          · intro hok
            rw [hall hok]

/-- Every `Close` takes the entry under the triple of its listener. -/
theorem closeListeners_spec {v : Muxer}
    (hbuilt : Routers.Built MuxListener.key v) (listeners : List MuxListener) :
    Routers.Built MuxListener.key (closeListeners v listeners) ∧
      ∀ l, Routers.Stores MuxListener.key (closeListeners v listeners) l ↔
        Routers.Stores MuxListener.key v l ∧
          l.key ∉ listeners.map MuxListener.key := by
  unfold closeListeners
  induction listeners generalizing v with
  | nil => exact ⟨hbuilt, by simp⟩
  | cons first rest ih =>
      obtain ⟨hclosed, hstores⟩ := ih (Muxer.built_close hbuilt first)
      refine ⟨hclosed, fun l => ?_⟩
      have hfirst : Routers.Stores MuxListener.key (v.close first) l ↔
          Routers.Stores MuxListener.key v l ∧ l.key ≠ first.key :=
        hbuilt.stores_del first.key l
      rw [List.foldl_cons, hstores, hfirst, List.map_cons, List.mem_cons,
        not_or, and_assoc]

/-- A `Run` that succeeds has a listener for each domain. -/
theorem run_ok {plan : MuxPlan} {v : Muxer}
    (hbuilt : Routers.Built MuxListener.key v)
    {listeners : List MuxListener} {addr : Bytes}
    (hrun : (plan.run v).2 = .ok (listeners, addr)) :
    plan.Listened v (plan.run v).1 plan.domains ∧
      listeners = plan.domains.map plan.listener := by
  obtain ⟨added, hlistened, hlisteners, hall⟩ :=
    plan.listenDomains_spec hbuilt [] plan.domains
  unfold run at hrun ⊢
  split at hrun
  · cases hrun
  · next after found hlisten =>
      rw [hlisten] at hlistened hlisteners hall
      have hdomains := hall rfl
      cases hrun
      subst hdomains
      exact ⟨hlistened, hlisteners⟩

/-- A `Run` that fails leaves the listeners of the muxer as they were. -/
theorem run_error {plan : MuxPlan} {v : Muxer}
    (hbuilt : Routers.Built MuxListener.key v) {err : MuxError}
    (hrun : (plan.run v).2 = .error err) :
    Routers.Built MuxListener.key (plan.run v).1 ∧
      ∀ l, Routers.Stores MuxListener.key (plan.run v).1 l ↔
        Routers.Stores MuxListener.key v l := by
  obtain ⟨added, hlistened, hlisteners, -⟩ :=
    plan.listenDomains_spec hbuilt [] plan.domains
  unfold run at hrun ⊢
  split at hrun
  · next after found reason hlisten =>
      rw [hlisten] at hlistened hlisteners
      obtain ⟨hclosed, hstores⟩ := closeListeners_spec hlistened.built found
      refine ⟨hclosed, fun l => ?_⟩
      have hfound : found = added.map plan.listener := hlisteners
      rw [hstores, hlistened.stores, hfound]
      constructor
      · rintro ⟨hbefore | hadded, hkey⟩
        · exact hbefore
        · exact absurd (List.mem_map_of_mem hadded) hkey
      · intro hbefore
        refine ⟨Or.inl hbefore, fun hkey => ?_⟩
        obtain ⟨l', hl', hsame⟩ := List.mem_map.mp hkey
        obtain ⟨domain, hdomain, rfl⟩ := List.mem_map.mp hl'
        exact hlistened.fresh domain hdomain l hbefore hsame.symm
  · cases hrun

end MuxPlan

namespace MuxRoutes

/-- A proxy is closed once, after a `Run` that has succeeded. -/
inductive PxyState where
  | unused
  | opened (plan : MuxPlan) (listeners : List MuxListener)
  | ended

/-- The muxer, the proxies, and the listeners of groups of tcpmux proxies. -/
structure State where
  v : Muxer
  pxys : Nat → PxyState
  groups : List MuxListener

inductive Action (Cfg : Type) where
  | run (i : Nat) (cfg : Cfg)
  | close (i : Nat)
  | groupListen (routeConfig : RouteConfig RealConn)
  | groupClose (l : MuxListener)

def init : State where
  v := Routers.newRouters MuxListener
  pxys _ := .unused
  groups := []

variable {Cfg : Type} (plan : Cfg → Except MuxError MuxPlan)

/-- `Run` of a new proxy on the muxer. -/
def run (v : Muxer) (cfg : Cfg) :
    Muxer × Except MuxError (MuxPlan × List MuxListener × Bytes) :=
  match plan cfg with
  | .error err => (v, .error err)
  | .ok plan => ((plan.run v).1, (plan.run v).2.map fun result => (plan, result))

def step (s : State) : Action Cfg → Option State
  | .run i cfg =>
      match s.pxys i with
      | .unused =>
          match run plan s.v cfg with
          | (v, .error _) =>
              some { s with v := v, pxys := Function.update s.pxys i .ended }
          | (v, .ok (plan, listeners, _)) =>
              some { s with
                v := v
                pxys := Function.update s.pxys i (.opened plan listeners) }
      | .opened .. | .ended => none
  | .close i =>
      match s.pxys i with
      | .opened _ listeners =>
          some { s with
            v := MuxPlan.closeListeners s.v listeners
            pxys := Function.update s.pxys i .ended }
      | .unused | .ended => none
  | .groupListen routeConfig =>
      match s.v.listen routeConfig with
      | .error _ => some s
      | .ok (v, l) => some { s with v := v, groups := l :: s.groups }
  | .groupClose l =>
      if l ∈ s.groups then
        some { s with v := s.v.close l, groups := s.groups.erase l }
      else none

def system : System State (Action Cfg) := ⟨init, step plan⟩

namespace State

/-- Proxy `i` is open and has the listener. -/
def Has (s : State) (i : Nat) (l : MuxListener) : Prop :=
  ∃ plan listeners, s.pxys i = .opened plan listeners ∧ l ∈ listeners

/-- Proxy `i` is open and asks for the route. -/
def Asks (s : State) (i : Nat) (key : RouteKey) : Prop :=
  ∃ plan listeners, s.pxys i = .opened plan listeners ∧
    ∃ domain ∈ plan.domains, key = ⟨domain, [], plan.routeByHTTPUser⟩

/-- The route is that of a group. -/
def OfGroup (s : State) (key : RouteKey) : Prop :=
  ∃ l ∈ s.groups, l.key = key

structure Inv (s : State) : Prop where
  built : Routers.Built MuxListener.key s.v
  stored : ∀ l, Routers.Stores MuxListener.key s.v l ↔
    (∃ i, s.Has i l) ∨ l ∈ s.groups
  planned : ∀ i plan listeners, s.pxys i = .opened plan listeners →
    listeners = plan.domains.map plan.listener
  sole : ∀ i j l, s.Has i l → s.Has j l → i = j
  apart : ∀ i l, s.Has i l → l ∉ s.groups
  nodup : s.groups.Nodup

/-- The muxer is that of the open proxies and of the groups: a lookup for a host
and user finds the first hit among their routes, the listener that it finds has one
owner, no two of them have a domain for the same user, and a `Run` that would fail
here shows nowhere. -/
structure Exact (s : State) : Prop where
  lookups : ∀ host path httpUser key,
    (s.v.getListener host path httpUser).map MuxListener.key = some key ↔
      FirstHit (fun k => (∃ i, s.Asks i k) ∨ s.OfGroup k) host path httpUser key
  owner : ∀ host path httpUser l, s.v.getListener host path httpUser = some l →
    (∃! i, s.Has i l) ∧ l ∉ s.groups ∨ (∀ i, ¬ s.Has i l) ∧ l ∈ s.groups
  sole : ∀ i j key, s.Asks i key → s.Asks j key → i = j
  apart : ∀ i key, s.Asks i key → ¬ s.OfGroup key
  failed : ∀ cfg err, (run plan s.v cfg).2 = .error err →
    ∀ host path httpUser, (run plan s.v cfg).1.getListener host path httpUser =
      s.v.getListener host path httpUser

variable {s s' : State}

theorem inv_init : init.Inv where
  built := .newRouters
  stored l := by
    refine iff_of_false (Routers.not_stores_newRouters l) ?_
    rintro (⟨i, plan, listeners, hopen, -⟩ | hgroup)
    · cases hopen
    · exact absurd hgroup List.not_mem_nil
  planned i plan listeners hopen := by cases hopen
  sole i j l hleft := by
    obtain ⟨plan, listeners, hopen, -⟩ := hleft
    cases hopen
  apart i l hhas := by
    obtain ⟨plan, listeners, hopen, -⟩ := hhas
    cases hopen
  nodup := List.nodup_nil

/-- An open proxy asks for the routes of its listeners. -/
theorem Inv.asks_iff (hinv : s.Inv) (i : Nat) (key : RouteKey) :
    s.Asks i key ↔ ∃ l, s.Has i l ∧ l.key = key := by
  constructor
  · rintro ⟨plan, listeners, hopen, domain, hdomain, rfl⟩
    refine ⟨plan.listener domain, ⟨plan, listeners, hopen, ?_⟩, rfl⟩
    rw [hinv.planned i plan listeners hopen]
    exact List.mem_map_of_mem hdomain
  · rintro ⟨l, ⟨plan, listeners, hopen, hl⟩, rfl⟩
    refine ⟨plan, listeners, hopen, ?_⟩
    rw [hinv.planned i plan listeners hopen] at hl
    obtain ⟨domain, hdomain, rfl⟩ := List.mem_map.mp hl
    exact ⟨domain, hdomain, rfl⟩

/-- Listeners that are open have routes of their own. -/
theorem Inv.eq_of_key (hinv : s.Inv) {l l' : MuxListener}
    (hl : (∃ i, s.Has i l) ∨ l ∈ s.groups)
    (hl' : (∃ i, s.Has i l') ∨ l' ∈ s.groups) (hkey : l.key = l'.key) :
    l = l' :=
  hinv.built.payload_eq ((hinv.stored l).mpr hl) ((hinv.stored l').mpr hl') hkey

theorem Inv.holds_iff (hinv : s.Inv) (key : RouteKey) :
    Routers.Holds s.v key ↔ (∃ i, s.Asks i key) ∨ s.OfGroup key := by
  rw [hinv.built.holds_iff]
  constructor
  · rintro ⟨l, hstored, hkey⟩
    rcases (hinv.stored l).mp hstored with ⟨i, hhas⟩ | hgroup
    · exact Or.inl ⟨i, (hinv.asks_iff i key).mpr ⟨l, hhas, hkey⟩⟩
    · exact Or.inr ⟨l, hgroup, hkey⟩
  · rintro (⟨i, hasks⟩ | ⟨l, hgroup, hkey⟩)
    · obtain ⟨l, hhas, hkey⟩ := (hinv.asks_iff i key).mp hasks
      exact ⟨l, (hinv.stored l).mpr (Or.inl ⟨i, hhas⟩), hkey⟩
    · exact ⟨l, (hinv.stored l).mpr (Or.inr hgroup), hkey⟩

theorem Inv.exact (hinv : s.Inv) : s.Exact plan := by
  constructor
  · intro host path httpUser key
    have hholds : Routers.Holds s.v =
        fun k => (∃ i, s.Asks i k) ∨ s.OfGroup k := by
      funext k
      exact propext (hinv.holds_iff k)
    rw [← hholds, Muxer.getListener_eq_lookup, Option.map_map]
    exact Routers.lookup_eq_some_iff hinv.built.sorted hinv.built.key_payload
  · intro host path httpUser l hget
    have hstored : Routers.Stores MuxListener.key s.v l := by
      rw [Muxer.getListener_eq_lookup, Option.map_eq_some_iff] at hget
      obtain ⟨vr, hlookup, rfl⟩ := hget
      obtain ⟨domain, user, hmem, -⟩ :=
        Routers.firstHit_of_lookup hinv.built.sorted hlookup
      exact (hinv.built.mem_entries_iff.mp hmem).1
    rcases (hinv.stored l).mp hstored with ⟨i, hhas⟩ | hgroup
    · exact Or.inl ⟨⟨i, hhas, fun j hj => hinv.sole j i l hj hhas⟩,
        hinv.apart i l hhas⟩
    · exact Or.inr ⟨fun i hhas => hinv.apart i l hhas hgroup, hgroup⟩
  · intro i j key hi hj
    obtain ⟨l, hl, hkey⟩ := (hinv.asks_iff i key).mp hi
    obtain ⟨l', hl', hkey'⟩ := (hinv.asks_iff j key).mp hj
    have hsame := hinv.eq_of_key (Or.inl ⟨i, hl⟩) (Or.inl ⟨j, hl'⟩)
      (hkey.trans hkey'.symm)
    exact hinv.sole i j l hl (hsame ▸ hl')
  · rintro i key hi ⟨l', hl', hkey'⟩
    obtain ⟨l, hl, hkey⟩ := (hinv.asks_iff i key).mp hi
    have hsame := hinv.eq_of_key (Or.inl ⟨i, hl⟩) (Or.inr hl')
      (hkey.trans hkey'.symm)
    exact hinv.apart i l hl (hsame ▸ hl')
  · intro cfg err hrun host path httpUser
    rw [Muxer.getListener_eq_lookup, Muxer.getListener_eq_lookup]
    congr 1
    unfold run at hrun ⊢
    split at hrun
    · rfl
    · next found hplan =>
        have hfailed : (found.run s.v).2 = .error err := by
          cases hresult : (found.run s.v).2 with
          | error reason =>
              dsimp only at hrun
              rw [hresult] at hrun
              cases hrun
              rfl
          | ok listeners =>
              dsimp only at hrun
              rw [hresult] at hrun
              cases hrun
        obtain ⟨hbuilt, hstores⟩ := MuxPlan.run_error hinv.built hfailed
        exact hbuilt.lookup_eq hinv.built hstores host path httpUser

theorem has_ended {v : Muxer} {groups : List MuxListener} {i j : Nat}
    {l : MuxListener} :
    (⟨v, Function.update s.pxys i .ended, groups⟩ : State).Has j l ↔
      j ≠ i ∧ s.Has j l := by
  by_cases hj : j = i
  · simp [Has, hj]
  · simp [Has, hj]

theorem has_opened {v : Muxer} {groups : List MuxListener} {i j : Nat}
    {plan : MuxPlan} {listeners : List MuxListener} {l : MuxListener} :
    (⟨v, Function.update s.pxys i (.opened plan listeners), groups⟩ :
      State).Has j l ↔ j = i ∧ l ∈ listeners ∨ j ≠ i ∧ s.Has j l := by
  by_cases hj : j = i
  · simp [Has, hj]
  · simp [Has, hj]

theorem not_has_of_unused {i : Nat} (hunused : s.pxys i = .unused)
    (l : MuxListener) : ¬ s.Has i l := by
  rintro ⟨plan, listeners, hopen, -⟩
  rw [hunused] at hopen
  cases hopen

/-- Proxy `i` is over and the listeners of the others are left. -/
theorem Inv.ended (hinv : s.Inv) {i : Nat} {v : Muxer}
    (hbuilt : Routers.Built MuxListener.key v)
    (hstored : ∀ l, Routers.Stores MuxListener.key v l ↔
      (∃ j, j ≠ i ∧ s.Has j l) ∨ l ∈ s.groups) :
    (⟨v, Function.update s.pxys i .ended, s.groups⟩ : State).Inv where
  built := hbuilt
  stored l := by
    rw [hstored]
    simp only [has_ended]
  planned j plan listeners hopen := by
    by_cases hj : j = i
    · simp [hj] at hopen
    · simp only [Function.update_of_ne hj] at hopen
      exact hinv.planned j plan listeners hopen
  sole j k l hj hk := hinv.sole j k l (has_ended.mp hj).2 (has_ended.mp hk).2
  apart j l hj := hinv.apart j l (has_ended.mp hj).2
  nodup := hinv.nodup

theorem Inv.failed (hinv : s.Inv) {i : Nat} (hunused : s.pxys i = .unused)
    {v : Muxer} (hbuilt : Routers.Built MuxListener.key v)
    (hstores : ∀ l, Routers.Stores MuxListener.key v l ↔
      Routers.Stores MuxListener.key s.v l) :
    (⟨v, Function.update s.pxys i .ended, s.groups⟩ : State).Inv := by
  refine hinv.ended hbuilt fun l => ?_
  rw [hstores, hinv.stored]
  apply or_congr_left
  constructor
  · rintro ⟨j, hhas⟩
    refine ⟨j, ?_, hhas⟩
    rintro rfl
    exact not_has_of_unused hunused l hhas
  · rintro ⟨j, -, hhas⟩
    exact ⟨j, hhas⟩

theorem Inv.closed (hinv : s.Inv) {i : Nat} {plan : MuxPlan}
    {listeners : List MuxListener}
    (hopen : s.pxys i = .opened plan listeners) :
    (⟨MuxPlan.closeListeners s.v listeners, Function.update s.pxys i .ended,
      s.groups⟩ : State).Inv := by
  obtain ⟨hbuilt, hstores⟩ := MuxPlan.closeListeners_spec hinv.built listeners
  have hhas : ∀ l, s.Has i l ↔ l ∈ listeners := by
    intro l
    simp [Has, hopen]
  refine hinv.ended hbuilt fun l => ?_
  rw [hstores]
  constructor
  · rintro ⟨hstored, hkey⟩
    have hnot : ¬ s.Has i l := fun h =>
      hkey (List.mem_map_of_mem ((hhas l).mp h))
    rcases (hinv.stored l).mp hstored with ⟨j, hj⟩ | hgroup
    · refine Or.inl ⟨j, ?_, hj⟩
      rintro rfl
      exact hnot hj
    · exact Or.inr hgroup
  · intro hothers
    have hopened : (∃ j, s.Has j l) ∨ l ∈ s.groups :=
      hothers.imp_left fun ⟨j, _, hj⟩ => ⟨j, hj⟩
    refine ⟨(hinv.stored l).mpr hopened, fun hkey => ?_⟩
    obtain ⟨l', hl', hsame⟩ := List.mem_map.mp hkey
    have heq := hinv.eq_of_key (Or.inl ⟨i, (hhas l').mpr hl'⟩) hopened hsame
    subst heq
    rcases hothers with ⟨j, hj, hother⟩ | hgroup
    · exact hj (hinv.sole j i l' hother ((hhas l').mpr hl'))
    · exact hinv.apart i l' ((hhas l').mpr hl') hgroup

/-- Proxy `i` opens with listeners for routes that were free. -/
theorem Inv.opened (hinv : s.Inv) {i : Nat} (hunused : s.pxys i = .unused)
    {plan : MuxPlan} {v : Muxer}
    (hlistened : plan.Listened s.v v plan.domains) :
    (⟨v, Function.update s.pxys i
      (.opened plan (plan.domains.map plan.listener)), s.groups⟩ :
        State).Inv := by
  have hfresh : ∀ l ∈ plan.domains.map plan.listener,
      ¬ Routers.Stores MuxListener.key s.v l := by
    intro l hl hstored
    obtain ⟨domain, hdomain, rfl⟩ := List.mem_map.mp hl
    exact hlistened.fresh domain hdomain _ hstored rfl
  have hold : ∀ j l, s.Has j l → l ∉ plan.domains.map plan.listener :=
    fun j l hj hl => hfresh l hl ((hinv.stored l).mpr (Or.inl ⟨j, hj⟩))
  refine ⟨hlistened.built, ?_, ?_, ?_, ?_, hinv.nodup⟩
  · intro l
    rw [hlistened.stores, hinv.stored]
    simp only [has_opened]
    constructor
    · rintro ((⟨j, hj⟩ | hgroup) | hnew)
      · refine Or.inl ⟨j, Or.inr ⟨?_, hj⟩⟩
        rintro rfl
        exact not_has_of_unused hunused l hj
      · exact Or.inr hgroup
      · exact Or.inl ⟨i, Or.inl ⟨rfl, hnew⟩⟩
    · rintro (⟨j, ⟨-, hnew⟩ | ⟨-, hj⟩⟩ | hgroup)
      · exact Or.inr hnew
      · exact Or.inl (Or.inl ⟨j, hj⟩)
      · exact Or.inl (Or.inr hgroup)
  · intro j other listeners hopen
    by_cases hj : j = i
    · simp only [hj, Function.update_self, PxyState.opened.injEq] at hopen
      obtain ⟨rfl, rfl⟩ := hopen
      rfl
    · simp only [Function.update_of_ne hj] at hopen
      exact hinv.planned j other listeners hopen
  · intro j k l hj hk
    rcases has_opened.mp hj with ⟨rfl, hnew⟩ | ⟨-, hleft⟩
    · rcases has_opened.mp hk with ⟨rfl, -⟩ | ⟨-, hright⟩
      · rfl
      · exact absurd hnew (hold k l hright)
    · rcases has_opened.mp hk with ⟨rfl, hnew⟩ | ⟨-, hright⟩
      · exact absurd hnew (hold j l hleft)
      · exact hinv.sole j k l hleft hright
  · intro j l hj hgroup
    rcases has_opened.mp hj with ⟨-, hnew⟩ | ⟨-, hj⟩
    · exact hfresh l hnew ((hinv.stored l).mpr (Or.inr hgroup))
    · exact hinv.apart j l hj hgroup

theorem Inv.run (hinv : s.Inv) {i : Nat} {cfg : Cfg}
    (hstep : step plan s (.run i cfg) = some s') : s'.Inv := by
  simp only [step] at hstep
  split at hstep
  · next hunused =>
      unfold MuxRoutes.run at hstep
      cases hplan : plan cfg with
      | error err =>
          simp only [hplan, Option.some.injEq] at hstep
          subst hstep
          exact hinv.failed hunused hinv.built fun _ => Iff.rfl
      | ok found =>
          simp only [hplan] at hstep
          cases hresult : (found.run s.v).2 with
          | error err =>
              simp only [hresult, Except.map, Option.some.injEq] at hstep
              subst hstep
              obtain ⟨hbuilt, hstores⟩ := MuxPlan.run_error hinv.built hresult
              exact hinv.failed hunused hbuilt hstores
          | ok result =>
              obtain ⟨listeners, addr⟩ := result
              simp only [hresult, Except.map, Option.some.injEq] at hstep
              subst hstep
              obtain ⟨hlistened, rfl⟩ := MuxPlan.run_ok hinv.built hresult
              exact hinv.opened hunused hlistened
  · cases hstep
  · cases hstep

theorem Inv.groupListen (hinv : s.Inv) {routeConfig : RouteConfig RealConn}
    (hstep : step plan s (.groupListen routeConfig) = some s') : s'.Inv := by
  let l : MuxListener := ⟨routeConfig.domain, routeConfig.location,
    routeConfig.routeByHTTPUser, routeConfig.rewriteHost, routeConfig.username,
    routeConfig.password⟩
  have hlisten : s.v.listen routeConfig =
      (Routers.addPayload MuxListener.key s.v l).map fun v => (v, l) := rfl
  cases hadd : Routers.addPayload MuxListener.key s.v l with
  | error err =>
      simp only [step, hlisten, hadd, Except.map, Option.some.injEq] at hstep
      exact hstep ▸ hinv
  | ok v =>
      simp only [step, hlisten, hadd, Except.map, Option.some.injEq] at hstep
      subst hstep
      have hfresh : ¬ Routers.Stores MuxListener.key s.v l := fun hstored =>
        (Routers.addPayload_isOk_iff s.v l).mp ⟨v, hadd⟩
          ((hinv.built.holds_iff _).mpr ⟨l, hstored, rfl⟩)
      refine ⟨hinv.built.add hadd, ?_, hinv.planned, hinv.sole, ?_, ?_⟩
      · intro other
        rw [Routers.stores_add hadd, hinv.stored, List.mem_cons, or_assoc,
          @or_comm (other ∈ s.groups)]
        exact Iff.rfl
      · intro i other hhas hgroup
        rcases List.mem_cons.mp hgroup with rfl | hold
        · exact hfresh ((hinv.stored _).mpr (Or.inl ⟨i, hhas⟩))
        · exact hinv.apart i other hhas hold
      · exact List.nodup_cons.mpr
          ⟨fun hold => hfresh ((hinv.stored _).mpr (Or.inr hold)), hinv.nodup⟩

theorem Inv.groupClose (hinv : s.Inv) {l : MuxListener}
    (hstep : step plan s (.groupClose l) = some s') : s'.Inv := by
  simp only [step] at hstep
  split at hstep
  · next hgroup =>
      cases hstep
      have hstores : ∀ other, Routers.Stores MuxListener.key (s.v.close l) other ↔
          Routers.Stores MuxListener.key s.v other ∧ other.key ≠ l.key :=
        fun other => hinv.built.stores_del l.key other
      refine ⟨Muxer.built_close hinv.built l, ?_, hinv.planned, hinv.sole, ?_,
        hinv.nodup.erase l⟩
      · intro other
        rw [hstores, hinv.stored]
        constructor
        · rintro ⟨⟨i, hhas⟩ | hother, hkey⟩
          · exact Or.inl ⟨i, hhas⟩
          · refine Or.inr ((List.mem_erase_of_ne ?_).mpr hother)
            rintro rfl
            exact hkey rfl
        · rintro (⟨i, hhas⟩ | hother)
          · refine ⟨Or.inl ⟨i, hhas⟩, fun hkey => ?_⟩
            have hsame := hinv.eq_of_key (Or.inl ⟨i, hhas⟩) (Or.inr hgroup) hkey
            exact hinv.apart i other hhas (hsame ▸ hgroup)
          · obtain ⟨hne, hmem⟩ := hinv.nodup.mem_erase_iff.mp hother
            exact ⟨Or.inr hmem, fun hkey =>
              hne (hinv.eq_of_key (Or.inr hmem) (Or.inr hgroup) hkey)⟩
      · intro i other hhas hother
        exact hinv.apart i other hhas (List.mem_of_mem_erase hother)
  · cases hstep

theorem Inv.step {action : Action Cfg} (hinv : s.Inv)
    (hstep : MuxRoutes.step plan s action = some s') : s'.Inv := by
  cases action with
  | run i cfg => exact hinv.run plan hstep
  | close i =>
      simp only [MuxRoutes.step] at hstep
      split at hstep
      · next found listeners hopen =>
          cases hstep
          exact hinv.closed hopen
      · cases hstep
      · cases hstep
  | groupListen routeConfig => exact hinv.groupListen plan hstep
  | groupClose l => exact hinv.groupClose plan hstep

end State

def httpsConf (customDomains : List Bytes) : HTTPSProxyConf :=
  ⟨defaultBaseProxyConf consts.httpsProxy, ⟨some customDomains, []⟩⟩

/-- A proxy for a domain, for one user of the proxy or for all of them. -/
def tcpMuxConf (routeByHTTPUser : Bytes) : TCPMuxProxyConf :=
  ⟨defaultBaseProxyConf consts.tcpMuxProxy, ⟨some [ascii "a.org"], []⟩,
    routeByHTTPUser, ascii TCPMuxGroup.httpConnectTCPMultiplexer⟩

/-- Two proxies have the domain, the first one for `alice`. -/
def shared : List (Action TCPMuxProxyConf) :=
  [.run 0 (tcpMuxConf (ascii "alice")), .run 1 (tcpMuxConf [])]

end MuxRoutes

end Frp
