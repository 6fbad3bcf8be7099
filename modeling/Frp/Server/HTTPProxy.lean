/-
The http proxy of `server/proxy/http.go`.  `Run` registers one route for every
domain and location, in a group or on its own, and remembers how to undo each;
a `Run` that fails undoes what it has registered.
-/
import Frp.Config.Proxy
import Frp.Group.HTTPRoster

namespace Frp

open GoStrings

/-- What one of the closures in `closeFuncs` will undo. -/
inductive CloseFunc where
  | unRegisterGroup (routeConfig : RouteConfig RealConn)
  | unRegister (routeConfig : RouteConfig RealConn)

structure HTTPProxy where
  name : Bytes
  cfg : HTTPProxyConf
  closeFuncs : List CloseFunc

/-- An address with a port of its own is joined as `net.JoinHostPort` does. -/
def canonicalAddr (host : Bytes) (port : Int) : Bytes :=
  if port = 80 ∨ port = 443 then host
  else if colon ∈ host then
    [openBracket] ++ host ++ [closeBracket, colon] ++ ascii (toString port)
  else host ++ [colon] ++ ascii (toString port)

namespace HTTPProxy

variable (serverCfg : ServerCommonConf)

/-- No locations stand for the empty one. -/
def locations (pxy : HTTPProxy) : List Bytes :=
  if pxy.cfg.locations.elems = [] then [[]] else pxy.cfg.locations.elems

/-- The custom domains that are not empty, then the subdomain. -/
def domains (pxy : HTTPProxy) : List Bytes :=
  pxy.cfg.customDomains.elems.filter (· ≠ []) ++
    if pxy.cfg.subDomain = [] then []
    else [pxy.cfg.subDomain ++ [dot] ++ serverCfg.subDomainHost]

/-- The route configurations in the order in which `Run` registers them. -/
def routeConfigs (pxy : HTTPProxy) : List (RouteConfig RealConn) :=
  (pxy.domains serverCfg).flatMap fun domain =>
    pxy.locations.map fun location =>
      { domain := domain
        location := location
        rewriteHost := pxy.cfg.hostHeaderRewrite
        username := pxy.cfg.httpUser
        password := pxy.cfg.httpPwd
        headers := pxy.cfg.headers.entries.list
        routeByHTTPUser := pxy.cfg.routeByHTTPUser
        createConnFn := some (proxyConn pxy.name) }

/-- One registration, with its closure. -/
def registerRoute (pxy : HTTPProxy) (ctl : HTTPGroupController)
    (routeConfig : RouteConfig RealConn) :
    HTTPGroupController × Except HTTPGroupError CloseFunc :=
  if pxy.cfg.group ≠ [] then
    match ctl.register pxy.name pxy.cfg.group pxy.cfg.groupKey routeConfig with
    | (next, .error err) => (next, .error err)
    | (next, .ok ()) => (next, .ok (.unRegisterGroup routeConfig))
  else
    match ctl.vhostRouter.register routeConfig with
    | .error err => (ctl, .error (.router err))
    | .ok vhostRouter =>
        ({ ctl with vhostRouter := vhostRouter },
          .ok (.unRegister routeConfig))

/-- The loops of `Run`; they stop at the first registration that fails. -/
def registerRoutes (pxy : HTTPProxy) (ctl : HTTPGroupController) :
    List (RouteConfig RealConn) →
      HTTPGroupController × HTTPProxy × Except HTTPGroupError Unit
  | [] => (ctl, pxy, .ok ())
  | routeConfig :: rest =>
      match pxy.registerRoute ctl routeConfig with
      | (next, .error err) => (next, pxy, .error err)
      | (next, .ok closeFn) =>
          { pxy with closeFuncs := pxy.closeFuncs ++ [closeFn] }.registerRoutes
            next rest

def runCloseFunc (pxy : HTTPProxy) (ctl : HTTPGroupController) :
    CloseFunc → HTTPGroupController
  | .unRegisterGroup _ => ctl.unRegister pxy.name pxy.cfg.group
  | .unRegister routeConfig =>
      { ctl with vhostRouter := ctl.vhostRouter.unRegister routeConfig }

/-- `Close` runs the closures in the order of the registrations. -/
def close (pxy : HTTPProxy) (ctl : HTTPGroupController) :
    HTTPGroupController :=
  pxy.closeFuncs.foldl pxy.runCloseFunc ctl

def run (pxy : HTTPProxy) (ctl : HTTPGroupController) :
    HTTPGroupController × HTTPProxy × Except HTTPGroupError Bytes :=
  match pxy.registerRoutes ctl (pxy.routeConfigs serverCfg) with
  | (next, pxy, .error err) => (pxy.close next, pxy, .error err)
  | (next, pxy, .ok ()) =>
      let addrs := (pxy.routeConfigs serverCfg).map fun routeConfig =>
        canonicalAddr routeConfig.domain serverCfg.vhostHTTPPort
      (next, pxy, .ok ((ascii ",").intercalate addrs))

/-- The triples that the proxy asks for. -/
def routeKeys (pxy : HTTPProxy) : List RouteKey :=
  (pxy.routeConfigs serverCfg).map RouteConfig.key

variable {serverCfg : ServerCommonConf}

/-- The routes that plain registrations have added to a table. -/
structure Adds (before after : HTTPReverseProxy RealConn)
    (cfgs : List (RouteConfig RealConn)) : Prop where
  old : ∀ key ∉ cfgs.map RouteConfig.key,
    after.routes key = before.routes key
  new : ∀ key ∈ cfgs.map RouteConfig.key, before.routes key = none ∧
    ∃ cfg ∈ cfgs, after.routes key = some cfg
  sorted : before.vhostRouter.Sorted → after.vhostRouter.Sorted

/-- The routes that closures have removed. -/
structure Removes (before after : HTTPReverseProxy RealConn)
    (keys : List RouteKey) : Prop where
  routes : ∀ key, after.routes key =
    if key ∈ keys then none else before.routes key
  sorted : before.vhostRouter.Sorted → after.vhostRouter.Sorted

theorem adds_nil (rp : HTTPReverseProxy RealConn) : Adds rp rp [] where
  old _ _ := rfl
  new key hkey := by simp at hkey
  sorted := id

theorem Adds.cons {before next after : HTTPReverseProxy RealConn}
    {cfg : RouteConfig RealConn} {cfgs : List (RouteConfig RealConn)}
    (hfree : before.routes cfg.key = none)
    (hadd : before.vhostRouter.add cfg.domain cfg.location cfg.routeByHTTPUser
      cfg = .ok next.vhostRouter) (hadds : Adds next after cfgs) :
    Adds before after (cfg :: cfgs) := by
  have hroutes := HTTPReverseProxy.routes_of_add hadd
  have htaken : cfg.key ∉ cfgs.map RouteConfig.key := by
    intro hkey
    have hnone := (hadds.new cfg.key hkey).1
    simp [hroutes] at hnone
  constructor
  · intro key hkey
    rw [List.map_cons, List.mem_cons, not_or] at hkey
    rw [hadds.old key hkey.2, hroutes, Function.update_of_ne hkey.1]
  · intro key hkey
    rw [List.map_cons, List.mem_cons] at hkey
    rcases hkey with rfl | hkey
    · exact ⟨hfree, cfg, List.mem_cons_self,
        by rw [hadds.old _ htaken, hroutes, Function.update_self]⟩
    · obtain ⟨hnone, found, hfound, hroute⟩ := hadds.new key hkey
      have hne : key ≠ cfg.key := fun heq => htaken (heq ▸ hkey)
      rw [hroutes, Function.update_of_ne hne] at hnone
      exact ⟨hnone, found, List.mem_cons_of_mem _ hfound, hroute⟩
  · exact fun hsorted => hadds.sorted (hsorted.add hadd)

/-- What has been added can be removed again. -/
theorem Adds.undo {before next after : HTTPReverseProxy RealConn}
    {cfgs : List (RouteConfig RealConn)} (hadds : Adds before next cfgs)
    (hremoves : Removes next after (cfgs.map RouteConfig.key)) :
    after.routes = before.routes := by
  funext key
  rw [hremoves.routes]
  split
  · next hkey => exact (hadds.new key hkey).1.symm
  · next hkey => exact hadds.old key hkey

/-- Without a group the loops register the routes one by one. -/
theorem registerRoutes_plain {pxy : HTTPProxy} (hplain : pxy.cfg.group = [])
    (ctl : HTTPGroupController) (cfgs : List (RouteConfig RealConn)) :
    ∃ added rest vhostRouter result, cfgs = added ++ rest ∧
      pxy.registerRoutes ctl cfgs = ({ ctl with vhostRouter := vhostRouter },
        { pxy with closeFuncs := pxy.closeFuncs ++ added.map .unRegister },
        result) ∧
      Adds ctl.vhostRouter vhostRouter added ∧
      (result = .ok () → rest = []) := by
  induction cfgs generalizing pxy ctl with
  | nil => exact ⟨[], [], ctl.vhostRouter, .ok (), rfl,
      by simp [registerRoutes], adds_nil _, fun _ => rfl⟩
  | cons cfg cfgs ih =>
      rcases ctl.vhostRouter.register_cases cfg with
        ⟨next, hregister, hfree, hadd⟩ | ⟨hregister, _⟩
      · have hroute : pxy.registerRoute ctl cfg =
            ({ ctl with vhostRouter := next }, .ok (.unRegister cfg)) := by
          simp [registerRoute, hplain, hregister]
        obtain ⟨added, rest, vhostRouter, result, hcfgs, hrest, hadds, hok⟩ :=
          @ih { pxy with closeFuncs := pxy.closeFuncs ++ [.unRegister cfg] }
            hplain { ctl with vhostRouter := next }
        refine ⟨cfg :: added, rest, vhostRouter, result, by rw [hcfgs]; rfl, ?_,
          hadds.cons hfree hadd, hok⟩
        simp only [registerRoutes, hroute, hrest, List.append_assoc,
          List.map_cons, List.singleton_append]
      · have hroute : pxy.registerRoute ctl cfg =
            (ctl, .error (.router .configConflict)) := by
          simp [registerRoute, hplain, hregister]
        refine ⟨[], cfg :: cfgs, ctl.vhostRouter,
          .error (.router .configConflict), rfl, ?_, adds_nil _, fun hok => ?_⟩
        · simp only [registerRoutes, hroute]
          simp
        · cases hok

theorem close_plain {pxy : HTTPProxy} {cfgs : List (RouteConfig RealConn)}
    (hfuncs : pxy.closeFuncs = cfgs.map .unRegister)
    (ctl : HTTPGroupController) :
    ∃ vhostRouter, pxy.close ctl = { ctl with vhostRouter := vhostRouter } ∧
      Removes ctl.vhostRouter vhostRouter (cfgs.map RouteConfig.key) := by
  rw [close, hfuncs]
  generalize pxy = closing
  clear hfuncs
  induction cfgs generalizing ctl with
  | nil => exact ⟨ctl.vhostRouter, rfl, by simp, id⟩
  | cons cfg cfgs ih =>
      obtain ⟨vhostRouter, hclose, hremoves⟩ :=
        ih { ctl with vhostRouter := ctl.vhostRouter.unRegister cfg }
      refine ⟨vhostRouter, hclose, ?_, ?_⟩
      · intro key
        rw [hremoves.routes, HTTPReverseProxy.unRegister_eq_del,
          HTTPReverseProxy.routes_del, Function.update_apply]
        by_cases hkey : key = cfg.key
        · simp [hkey]
        · simp [hkey]
      · exact fun hsorted => hremoves.sorted (hsorted.del _ _ _)

/-- A `Run` that has failed shows nowhere. -/
structure Unchanged (before after : HTTPGroupController) : Prop where
  coherent : after.Coherent
  roster : after.roster = before.roster
  routes : after.vhostRouter.routes = before.vhostRouter.routes
  sorted : before.vhostRouter.vhostRouter.Sorted →
    after.vhostRouter.vhostRouter.Sorted

/-- What a `Run` comes to. -/
inductive Runs (serverCfg : ServerCommonConf) (pxy : HTTPProxy)
    (ctl next : HTTPGroupController) (pxy' : HTTPProxy) :
    Except HTTPGroupError Bytes → Prop where
  | failed (err : HTTPGroupError) (hunchanged : Unchanged ctl next) :
      Runs serverCfg pxy ctl next pxy' (.error err)
  | plain (addr : Bytes) (vhostRouter : HTTPReverseProxy RealConn)
      (hplain : pxy.cfg.group = [])
      (hpxy : pxy' = { pxy with
        closeFuncs := (pxy.routeConfigs serverCfg).map .unRegister })
      (hadds : Adds ctl.vhostRouter vhostRouter (pxy.routeConfigs serverCfg))
      (hnext : next = { ctl with vhostRouter := vhostRouter })
      (hcoherent : next.Coherent) : Runs serverCfg pxy ctl next pxy' (.ok addr)
  | idle (addr : Bytes) (hgroup : pxy.cfg.group ≠ [])
      (hnone : pxy.routeConfigs serverCfg = []) (hpxy : pxy' = pxy)
      (hnext : next = ctl) : Runs serverCfg pxy ctl next pxy' (.ok addr)
  | member (addr : Bytes) (cfg : RouteConfig RealConn)
      (hgroup : pxy.cfg.group ≠ [])
      (hone : pxy.routeConfigs serverCfg = [cfg])
      (hpxy : pxy' = { pxy with closeFuncs := [.unRegisterGroup cfg] })
      (hregisters : HTTPGroupController.Registers ctl next pxy.name
        pxy.cfg.group cfg.key (.ok ()))
      (hcoherent : next.Coherent) : Runs serverCfg pxy ctl next pxy' (.ok addr)

/-- Routes with the connections of a proxy lead to no group. -/
theorem Adds.routed {ctl : HTTPGroupController}
    {vhostRouter : HTTPReverseProxy RealConn}
    {cfgs : List (RouteConfig RealConn)} {name : Bytes}
    (hadds : Adds ctl.vhostRouter vhostRouter cfgs)
    (hconn : ∀ cfg ∈ cfgs, cfg.createConnFn = some (proxyConn name))
    (key : RouteKey) (i : Nat) :
    ({ ctl with vhostRouter := vhostRouter } : HTTPGroupController).Routed
      key i ↔ ctl.Routed key i := by
  by_cases hkey : key ∈ cfgs.map RouteConfig.key
  · obtain ⟨hnone, cfg, hcfg, hroute⟩ := hadds.new key hkey
    apply iff_of_false
    · rintro ⟨found, hfound, hleads⟩
      rw [hroute, Option.some.injEq] at hfound
      rw [← hfound, hconn cfg hcfg, Option.some.injEq] at hleads
      exact proxyConn_ne_groupConn name i hleads
    · rintro ⟨found, hfound, _⟩
      rw [hnone] at hfound
      cases hfound
  · simp only [HTTPGroupController.Routed, hadds.old key hkey]

theorem createConnFn_of_mem {pxy : HTTPProxy} {cfg : RouteConfig RealConn}
    (hcfg : cfg ∈ pxy.routeConfigs serverCfg) :
    cfg.createConnFn = some (proxyConn pxy.name) := by
  simp only [routeConfigs, List.mem_flatMap, List.mem_map] at hcfg
  obtain ⟨_, _, _, _, rfl⟩ := hcfg
  rfl

theorem runs_plain {pxy : HTTPProxy} (hnew : pxy.closeFuncs = [])
    (hplain : pxy.cfg.group = []) {ctl : HTTPGroupController}
    (hcoherent : ctl.Coherent) :
    Runs serverCfg pxy ctl (pxy.run serverCfg ctl).1
      (pxy.run serverCfg ctl).2.1 (pxy.run serverCfg ctl).2.2 := by
  obtain ⟨added, rest, vhostRouter, result, hcfgs, hregister, hadds, hok⟩ :=
    registerRoutes_plain hplain ctl (pxy.routeConfigs serverCfg)
  rw [hnew, List.nil_append] at hregister
  cases result with
  | error err =>
      simp only [run, hregister]
      obtain ⟨closed, hclose, hremoves⟩ := @close_plain
        { pxy with closeFuncs := added.map .unRegister } added rfl
        { ctl with vhostRouter := vhostRouter }
      have hroutes := hadds.undo hremoves
      rw [hclose]
      refine .failed err ⟨hcoherent.setRouter ?_, rfl, hroutes, ?_⟩
      · intro key i
        simp only [HTTPGroupController.Routed, hroutes]
      · exact fun hsorted => hremoves.sorted (hadds.sorted hsorted)
  | ok _ =>
      obtain rfl := hok rfl
      rw [List.append_nil] at hcfgs
      subst hcfgs
      simp only [run, hregister]
      exact .plain _ vhostRouter hplain rfl hadds rfl
        (hcoherent.setRouter (hadds.routed fun _ => createConnFn_of_mem))

/-- A proxy cannot join its group twice. -/
theorem register_repeated {ctl : HTTPGroupController}
    (hcoherent : ctl.Coherent) {proxyName group : Bytes} {key : RouteKey}
    {names : List Bytes} (hroster : ctl.roster group = some (key, names))
    (hmember : proxyName ∈ names) (groupKey : Bytes)
    (routeConfig : RouteConfig RealConn) :
    ∃ err, (ctl.register proxyName group groupKey routeConfig).2 =
      .error err := by
  have hregisters :=
    (hcoherent.register proxyName group groupKey routeConfig).2
  cases hresult : (ctl.register proxyName group groupKey routeConfig).2 with
  | error err => exact ⟨err, rfl⟩
  | ok _ =>
      rw [hresult] at hregisters
      cases hregisters with
      | founded cfg hempty =>
          rw [hroster] at hempty
          cases hempty
      | joined names' hbefore hnew =>
          rw [hroster, Option.some.injEq, Prod.mk.injEq] at hbefore
          exact absurd (hbefore.2 ▸ hmember) hnew

theorem registerRoute_group {pxy : HTTPProxy} (hgroup : pxy.cfg.group ≠ [])
    (ctl : HTTPGroupController) (cfg : RouteConfig RealConn) :
    pxy.registerRoute ctl cfg =
      ((ctl.register pxy.name pxy.cfg.group pxy.cfg.groupKey cfg).1,
        (ctl.register pxy.name pxy.cfg.group pxy.cfg.groupKey cfg).2.map
          fun _ => .unRegisterGroup cfg) := by
  simp only [registerRoute, if_pos hgroup]
  split
  · next hregister => rw [hregister]; rfl
  · next hregister => rw [hregister]; rfl

/-- The member that has just registered leaves nothing behind. -/
theorem unchanged_of_registers {ctl next after : HTTPGroupController}
    {proxyName group : Bytes} {key : RouteKey}
    (hregisters : HTTPGroupController.Registers ctl next proxyName group key
      (.ok ()))
    (hcoherent : after.Coherent) (hroster : after.roster = next.roster)
    (hrouter : after.vhostRouter = next.vhostRouter) :
    Unchanged ctl (after.unRegister proxyName group) := by
  cases hregisters with
  | founded cfg hempty hfree hroster' hroutes hsorted =>
      rw [hroster'] at hroster
      have hself : after.roster group = some (key, [proxyName]) := by
        rw [hroster, Function.update_self]
      obtain ⟨hleft, ⟨_, hroster'', hrouter''⟩ | ⟨hrest, _⟩⟩ :=
        hcoherent.roster_unRegister hself List.mem_cons_self
      · refine ⟨hleft, ?_, ?_, ?_⟩
        · rw [hroster'', hroster, Function.update_idem, ← hempty,
            Function.update_eq_self]
        · rw [hrouter'', HTTPReverseProxy.routes_del, hrouter, hroutes,
            Function.update_idem, ← hfree, Function.update_eq_self]
        · rw [hrouter'', hrouter]
          exact fun hbefore => (hsorted hbefore).del _ _ _
      · simp at hrest
  | joined names hbefore hnew hroster' hrouter' =>
      rw [hroster'] at hroster
      have hself : after.roster group = some (key, names ++ [proxyName]) := by
        rw [hroster, Function.update_self]
      have herase : (names ++ [proxyName]).erase proxyName = names := by
        rw [List.erase_append_right _ hnew]
        simp
      have hnonempty : names ≠ [] := by
        obtain ⟨_, _, _, _, hnonempty⟩ :=
          HTTPGroupController.roster_eq_some_iff.mp hbefore
        exact hnonempty
      have hmember : proxyName ∈ names ++ [proxyName] := by simp
      obtain ⟨hleft, ⟨hempty, _⟩ | ⟨_, hroster'', hrouter''⟩⟩ :=
        hcoherent.roster_unRegister hself hmember
      · exact absurd (herase ▸ hempty) hnonempty
      · refine ⟨hleft, ?_, ?_, ?_⟩
        · rw [hroster'', hroster, herase, Function.update_idem, ← hbefore,
            Function.update_eq_self]
        · rw [hrouter'', hrouter, hrouter']
        · rw [hrouter'', hrouter, hrouter']
          exact id

/-- A second route of a group proxy is always refused. -/
theorem runs_group {pxy : HTTPProxy} (hnew : pxy.closeFuncs = [])
    (hgroup : pxy.cfg.group ≠ []) {ctl : HTTPGroupController}
    (hcoherent : ctl.Coherent) :
    Runs serverCfg pxy ctl (pxy.run serverCfg ctl).1
      (pxy.run serverCfg ctl).2.1 (pxy.run serverCfg ctl).2.2 := by
  cases hcfgs : pxy.routeConfigs serverCfg with
  | nil =>
      simp only [run, hcfgs, registerRoutes]
      exact .idle _ hgroup hcfgs rfl rfl
  | cons cfg rest =>
      obtain ⟨hfirst, hregisters⟩ :=
        hcoherent.register pxy.name pxy.cfg.group pxy.cfg.groupKey cfg
      have hroute := registerRoute_group hgroup ctl cfg
      generalize ctl.register pxy.name pxy.cfg.group pxy.cfg.groupKey cfg =
        first at hfirst hregisters hroute
      obtain ⟨next, result⟩ := first
      cases result with
      | error err =>
          have hrun : pxy.run serverCfg ctl = (next, pxy, .error err) := by
            simp [run, hcfgs, registerRoutes, hroute, Except.map, close, hnew]
          rw [hrun]
          cases hregisters with
          | rejected err hroster hrouter =>
              exact .failed err ⟨hfirst, hroster, by rw [hrouter],
                by rw [hrouter]; exact id⟩
      | ok _ =>
          cases rest with
          | nil =>
              simp only [run, hcfgs, registerRoutes, hroute, Except.map, hnew,
                List.nil_append]
              exact .member _ cfg hgroup hcfgs rfl hregisters hfirst
          | cons second rest =>
              obtain ⟨names, hroster, hmember⟩ := hregisters.roster_ok
              obtain ⟨err, hrepeated⟩ := register_repeated hfirst hroster
                hmember pxy.cfg.groupKey second
              obtain ⟨hsecond, hrefused⟩ := hfirst.register pxy.name
                pxy.cfg.group pxy.cfg.groupKey second
              rw [hrepeated] at hrefused
              have hroute' := @registerRoute_group { pxy with
                closeFuncs := [.unRegisterGroup cfg] } hgroup next second
              have hrun : pxy.run serverCfg ctl =
                  ((next.register pxy.name pxy.cfg.group pxy.cfg.groupKey
                    second).1.unRegister pxy.name pxy.cfg.group,
                  { pxy with closeFuncs := [.unRegisterGroup cfg] },
                  .error err) := by
                simp [run, hcfgs, registerRoutes, hroute, hroute', Except.map,
                  hnew, hrepeated, close, runCloseFunc]
              rw [hrun]
              cases hrefused with
              | rejected err hroster' hrouter' =>
                  exact .failed err (unchanged_of_registers hregisters hsecond
                    hroster' hrouter')

/-- Every `Run` of a new proxy fails without a trace or registers what it asks
for. -/
theorem runs_of_run {pxy : HTTPProxy} (hnew : pxy.closeFuncs = [])
    {ctl : HTTPGroupController} (hcoherent : ctl.Coherent) :
    Runs serverCfg pxy ctl (pxy.run serverCfg ctl).1
      (pxy.run serverCfg ctl).2.1 (pxy.run serverCfg ctl).2.2 := by
  by_cases hgroup : pxy.cfg.group = []
  · exact runs_plain hnew hgroup hcoherent
  · exact runs_group hnew hgroup hcoherent

end HTTPProxy

end Frp
