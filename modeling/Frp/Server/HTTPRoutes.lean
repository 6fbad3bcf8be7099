/-
All http proxies of frps, run and closed one at a time: the routes and the groups
are those of the open ones.
-/
import Frp.Lib.System
import Frp.Server.HTTPProxy

namespace Frp

open GoStrings Transition

namespace HTTPRoutes

/-- A proxy is closed once, after a `Run` that has succeeded. -/
inductive PxyState where
  | unused
  | opened (pxy : HTTPProxy)
  | ended

structure State where
  ctl : HTTPGroupController
  pxys : Nat → PxyState

inductive Action where
  | run (i : Nat) (name : Bytes) (cfg : HTTPProxyConf)
  | close (i : Nat)

def init : State where
  ctl := .newHTTPGroupController (.newHTTPReverseProxy RealConn)
  pxys _ := .unused

variable (serverCfg : ServerCommonConf)

/-- What the `Run` of a new proxy does. -/
def State.run (s : State) (name : Bytes) (cfg : HTTPProxyConf) :
    HTTPGroupController × HTTPProxy × Except HTTPGroupError Bytes :=
  HTTPProxy.run serverCfg ⟨name, cfg, []⟩ s.ctl

def step (s : State) : Action → Option State
  | .run i name cfg =>
      match s.pxys i with
      | .unused =>
          match s.run serverCfg name cfg with
          | (ctl, _, .error _) =>
              some ⟨ctl, Function.update s.pxys i .ended⟩
          | (ctl, pxy, .ok _) =>
              some ⟨ctl, Function.update s.pxys i (.opened pxy)⟩
      | .opened _ | .ended => none
  | .close i =>
      match s.pxys i with
      | .opened pxy =>
          some ⟨pxy.close s.ctl, Function.update s.pxys i .ended⟩
      | .unused | .ended => none

def system : System State Action where
  start := init
  step := step serverCfg

namespace State

/-- Proxy `i` is open and asks for the route. -/
def Asks (s : State) (i : Nat) (key : RouteKey) : Prop :=
  ∃ pxy, s.pxys i = .opened pxy ∧ key ∈ pxy.routeKeys serverCfg

/-- Proxy `i` is open, has this name and has a route through the group. -/
def Member (s : State) (i : Nat) (group name : Bytes) : Prop :=
  ∃ pxy, s.pxys i = .opened pxy ∧ pxy.cfg.group = group ∧ group ≠ [] ∧
    pxy.name = name ∧ pxy.routeKeys serverCfg ≠ []

/-- The table and the groups are those of the open proxies, and a `Run` that
would fail here shows nowhere. -/
structure Exact (s : State) : Prop where
  routes : ∀ key, s.ctl.vhostRouter.routes key ≠ none ↔
    ∃ i, s.Asks serverCfg i key
  members : ∀ group name, name ∈ s.ctl.pxyNames group ↔
    ∃ i, s.Member serverCfg i group name
  nodup : ∀ group, (s.ctl.pxyNames group).Nodup
  createFuncs : ∀ group i, s.ctl.groups group = some i →
    (s.ctl.heap i).pxyNames.toFinset = (s.ctl.heap i).createFuncs.keys
  lookups : ∀ name cfg err, (s.run serverCfg name cfg).2.2 = .error err →
    ∀ host path httpUser,
      (s.run serverCfg name cfg).1.vhostRouter.vhostRouter.get host path
          httpUser = s.ctl.vhostRouter.vhostRouter.get host path httpUser ∧
        (s.run serverCfg name cfg).1.vhostRouter.getVhost host path httpUser =
          s.ctl.vhostRouter.getVhost host path httpUser
  membership : ∀ name cfg err, (s.run serverCfg name cfg).2.2 = .error err →
    ∀ group, (s.run serverCfg name cfg).1.pxyNames group =
      s.ctl.pxyNames group

structure Inv (s : State) : Prop where
  coherent : s.ctl.Coherent
  sorted : s.ctl.vhostRouter.vhostRouter.Sorted
  routed : ∀ key, s.ctl.vhostRouter.routes key ≠ none ↔
    ∃ i, s.Asks serverCfg i key
  sole : ∀ i pxy key, s.pxys i = .opened pxy → pxy.cfg.group = [] →
    key ∈ pxy.routeKeys serverCfg → ∀ j, s.Asks serverCfg j key → j = i
  undo : ∀ i pxy, s.pxys i = .opened pxy → pxy.cfg.group = [] →
    pxy.closeFuncs = (pxy.routeConfigs serverCfg).map .unRegister
  entered : ∀ i pxy, s.pxys i = .opened pxy → pxy.cfg.group ≠ [] →
    (pxy.routeConfigs serverCfg = [] ∧ pxy.closeFuncs = []) ∨
    ∃ cfg names, pxy.routeConfigs serverCfg = [cfg] ∧
      pxy.closeFuncs = [.unRegisterGroup cfg] ∧
      s.ctl.roster pxy.cfg.group = some (cfg.key, names) ∧ pxy.name ∈ names
  listed : ∀ group key names name, s.ctl.roster group = some (key, names) →
    name ∈ names → ∃ i, s.Member serverCfg i group name
  unique : ∀ i j group name, s.Member serverCfg i group name →
    s.Member serverCfg j group name → i = j

variable {serverCfg}

theorem inv_init : init.Inv serverCfg where
  coherent := by
    apply HTTPGroupController.coherent_newHTTPGroupController
    rintro key i ⟨cfg, hroute, _⟩
    simp [HTTPGroupController.newHTTPGroupController,
      HTTPReverseProxy.newHTTPReverseProxy, HTTPReverseProxy.routes,
      Routers.exist_eq_find] at hroute
  sorted := Routers.sorted_newRouters
  routed key := by
    simp [init, Asks, HTTPGroupController.newHTTPGroupController,
      HTTPReverseProxy.newHTTPReverseProxy, HTTPReverseProxy.routes,
      Routers.exist_eq_find]
  sole i pxy key hopen := by cases hopen
  undo i pxy hopen := by cases hopen
  entered i pxy hopen := by cases hopen
  listed group key names name hroster := by
    simp [HTTPGroupController.roster, init,
      HTTPGroupController.newHTTPGroupController] at hroster
  unique i j group name hmember := by
    obtain ⟨pxy, hopen, _⟩ := hmember
    cases hopen

theorem asks_of_opened {s : State} {i : Nat} {pxy : HTTPProxy}
    (hopen : s.pxys i = .opened pxy) (key : RouteKey) :
    s.Asks serverCfg i key ↔ key ∈ pxy.routeKeys serverCfg := by
  constructor
  · rintro ⟨other, hother, hkey⟩
    rw [hopen, PxyState.opened.injEq] at hother
    rwa [hother]
  · intro hkey
    exact ⟨pxy, hopen, hkey⟩

theorem asks_of_member {s : State} {i : Nat} {group name : Bytes}
    (hmember : s.Member serverCfg i group name) :
    ∃ key, s.Asks serverCfg i key := by
  obtain ⟨pxy, hopen, _, _, _, hroutes⟩ := hmember
  obtain ⟨key, hkey⟩ := List.exists_mem_of_ne_nil _ hroutes
  exact ⟨key, pxy, hopen, hkey⟩

/-- A route that proxy `i` does not ask for is asked for by others or nobody. -/
theorem exists_asks_iff_away {s : State} {i : Nat} {key : RouteKey}
    (haway : ¬ s.Asks serverCfg i key) :
    (∃ j, s.Asks serverCfg j key) ↔ ∃ j, j ≠ i ∧ s.Asks serverCfg j key := by
  constructor
  · rintro ⟨j, hasks⟩
    refine ⟨j, ?_, hasks⟩
    rintro rfl
    exact haway hasks
  · rintro ⟨j, _, hasks⟩
    exact ⟨j, hasks⟩

/-- A proxy is a member of one group, under one name. -/
theorem ne_of_member {s : State} {i j : Nat} {group group' name other : Bytes}
    (hmember : s.Member serverCfg i group name)
    (hother : s.Member serverCfg j group' other)
    (hne : group' ≠ group ∨ other ≠ name) : j ≠ i := by
  rintro rfl
  obtain ⟨left, hleft, rfl, _, rfl, _⟩ := hother
  obtain ⟨right, hright, rfl, _, rfl, _⟩ := hmember
  rw [hleft, PxyState.opened.injEq] at hright
  subst hright
  simp at hne

/-- The names of the members of a group tell them apart. -/
theorem Inv.name_ne_of_member {s : State} (hinv : s.Inv serverCfg) {i j : Nat}
    {group name other : Bytes} (hmember : s.Member serverCfg i group name)
    (hother : s.Member serverCfg j group other) (hj : j ≠ i) :
    other ≠ name := by
  rintro rfl
  exact hj (hinv.unique j i group other hother hmember)

/-- What a member of a group has of it. -/
theorem Inv.roster_of_member {s : State} (hinv : s.Inv serverCfg) {i : Nat}
    {group name : Bytes} (hmember : s.Member serverCfg i group name) :
    ∃ key names, s.ctl.roster group = some (key, names) ∧ name ∈ names ∧
      ∀ other, s.Asks serverCfg i other ↔ other = key := by
  obtain ⟨pxy, hopen, rfl, hgroup, rfl, hroutes⟩ := hmember
  rcases hinv.entered i pxy hopen hgroup with
    ⟨hnone, _⟩ | ⟨cfg, names, hone, _, hroster, hname⟩
  · exact absurd (by simp [HTTPProxy.routeKeys, hnone]) hroutes
  · refine ⟨cfg.key, names, hroster, hname, ?_⟩
    intro other
    rw [asks_of_opened hopen]
    simp [HTTPProxy.routeKeys, hone]

/-- The members of a group ask for its route. -/
theorem Inv.asks_iff_of_roster {s : State} (hinv : s.Inv serverCfg) {i : Nat}
    {group name : Bytes} (hmember : s.Member serverCfg i group name)
    {key : RouteKey} {names : List Bytes}
    (hroster : s.ctl.roster group = some (key, names)) (other : RouteKey) :
    s.Asks serverCfg i other ↔ other = key := by
  obtain ⟨_, _, hfound, _, hasks⟩ := hinv.roster_of_member hmember
  rw [hroster, Option.some.injEq, Prod.mk.injEq] at hfound
  rw [hfound.1]
  exact hasks other

theorem Inv.runs {s : State} (hinv : s.Inv serverCfg) (name : Bytes)
    (cfg : HTTPProxyConf) :
    HTTPProxy.Runs serverCfg ⟨name, cfg, []⟩ s.ctl
      (s.run serverCfg name cfg).1 (s.run serverCfg name cfg).2.1
      (s.run serverCfg name cfg).2.2 :=
  HTTPProxy.runs_of_run rfl hinv.coherent

theorem Inv.exact {s : State} (hinv : s.Inv serverCfg) :
    s.Exact serverCfg := by
  have hrun : ∀ name cfg err, (s.run serverCfg name cfg).2.2 = .error err →
      HTTPProxy.Unchanged s.ctl (s.run serverCfg name cfg).1 := by
    intro name cfg err hresult
    have hruns := hinv.runs name cfg
    rw [hresult] at hruns
    cases hruns with
    | failed err hunchanged => exact hunchanged
  constructor
  · exact hinv.routed
  · intro group name
    rw [HTTPGroupController.pxyNames_eq_roster]
    constructor
    · intro hname
      cases hroster : s.ctl.roster group with
      | none => simp [hroster] at hname
      | some entry =>
          rw [hroster] at hname
          exact hinv.listed group entry.1 entry.2 name hroster hname
    · rintro ⟨i, hmember⟩
      obtain ⟨key, names, hroster, hname, _⟩ := hinv.roster_of_member hmember
      rw [hroster]
      exact hname
  · intro group
    unfold HTTPGroupController.pxyNames
    cases s.ctl.groups group with
    | none => exact List.nodup_nil
    | some i => exact (hinv.coherent.listed i).nodup
  · intro group i _
    exact (hinv.coherent.listed i).names
  · intro name cfg err hresult host path httpUser
    have hunchanged := hrun name cfg err hresult
    have hentries := HTTPReverseProxy.entries_eq_of_routes
      (hunchanged.sorted hinv.sorted) hinv.sorted hunchanged.routes
    exact ⟨HTTPReverseProxy.get_eq_of_entries hentries host path httpUser,
      HTTPReverseProxy.getVhost_eq_of_entries hentries host path httpUser⟩
  · intro name cfg err hresult group
    rw [HTTPGroupController.pxyNames_eq_roster,
      HTTPGroupController.pxyNames_eq_roster,
      (hrun name cfg err hresult).roster]

/-- Proxy `i` is over, and what is left belongs to the others. -/
theorem Inv.ended {s : State} (hinv : s.Inv serverCfg) {i : Nat}
    {ctl : HTTPGroupController} (hcoherent : ctl.Coherent)
    (hsorted : ctl.vhostRouter.vhostRouter.Sorted)
    (hrouted : ∀ key, ctl.vhostRouter.routes key ≠ none ↔
      ∃ j, j ≠ i ∧ s.Asks serverCfg j key)
    (hkept : ∀ j group key names name, j ≠ i → s.Member serverCfg j group name →
      s.ctl.roster group = some (key, names) → name ∈ names →
        ∃ names', ctl.roster group = some (key, names') ∧ name ∈ names')
    (hlisted : ∀ group key names name, ctl.roster group = some (key, names) →
      name ∈ names → ∃ j, j ≠ i ∧ s.Member serverCfg j group name) :
    (⟨ctl, Function.update s.pxys i .ended⟩ : State).Inv serverCfg := by
  have hopened : ∀ {j : Nat} {pxy : HTTPProxy},
      Function.update s.pxys i .ended j = .opened pxy →
        j ≠ i ∧ s.pxys j = .opened pxy := by
    intro j pxy hopen
    by_cases hj : j = i
    · simp [hj] at hopen
    · rw [Function.update_of_ne hj] at hopen
      exact ⟨hj, hopen⟩
  have hstays : ∀ {j : Nat} {pxy : HTTPProxy}, j ≠ i →
      s.pxys j = .opened pxy →
        Function.update s.pxys i .ended j = .opened pxy := by
    intro j pxy hj hopen
    rwa [Function.update_of_ne hj]
  constructor
  · exact hcoherent
  · exact hsorted
  · intro key
    rw [hrouted]
    constructor
    · rintro ⟨j, hj, pxy, hopen, hkey⟩
      exact ⟨j, pxy, hstays hj hopen, hkey⟩
    · rintro ⟨j, pxy, hopen, hkey⟩
      exact ⟨j, (hopened hopen).1, pxy, (hopened hopen).2, hkey⟩
  · rintro j pxy key hopen hplain hkey k ⟨other, hother, hasks⟩
    exact hinv.sole j pxy key (hopened hopen).2 hplain hkey k
      ⟨other, (hopened hother).2, hasks⟩
  · intro j pxy hopen
    exact hinv.undo j pxy (hopened hopen).2
  · intro j pxy hopen hgroup
    obtain ⟨hj, hopen⟩ := hopened hopen
    rcases hinv.entered j pxy hopen hgroup with
      hidle | ⟨cfg, names, hone, hfuncs, hroster, hname⟩
    · exact Or.inl hidle
    · have hmember : s.Member serverCfg j pxy.cfg.group pxy.name :=
        ⟨pxy, hopen, rfl, hgroup, rfl, by simp [HTTPProxy.routeKeys, hone]⟩
      obtain ⟨names', hroster', hname'⟩ :=
        hkept j _ _ _ _ hj hmember hroster hname
      exact Or.inr ⟨cfg, names', hone, hfuncs, hroster', hname'⟩
  · intro group key names name hroster hname
    obtain ⟨j, hj, pxy, hopen, hmember⟩ :=
      hlisted group key names name hroster hname
    exact ⟨j, pxy, hstays hj hopen, hmember⟩
  · rintro j k group name ⟨left, hleft, hj⟩ ⟨right, hright, hk⟩
    exact hinv.unique j k group name ⟨left, (hopened hleft).2, hj⟩
      ⟨right, (hopened hright).2, hk⟩

/-- Proxy `i` opens with routes that no plain proxy has. -/
theorem Inv.opened {s : State} (hinv : s.Inv serverCfg) {i : Nat}
    {pxy : HTTPProxy} {ctl : HTTPGroupController}
    (hunused : s.pxys i = .unused) (hcoherent : ctl.Coherent)
    (hsorted : ctl.vhostRouter.vhostRouter.Sorted)
    (hrouted : ∀ key, ctl.vhostRouter.routes key ≠ none ↔
      key ∈ pxy.routeKeys serverCfg ∨ s.ctl.vhostRouter.routes key ≠ none)
    (hfree : pxy.cfg.group = [] → ∀ key ∈ pxy.routeKeys serverCfg,
      s.ctl.vhostRouter.routes key = none)
    (hapart : ∀ key ∈ pxy.routeKeys serverCfg, ∀ j other,
      s.pxys j = .opened other → other.cfg.group = [] →
        key ∉ other.routeKeys serverCfg)
    (hundo : pxy.cfg.group = [] →
      pxy.closeFuncs = (pxy.routeConfigs serverCfg).map .unRegister)
    (hself : pxy.cfg.group ≠ [] →
      (pxy.routeConfigs serverCfg = [] ∧ pxy.closeFuncs = []) ∨
      ∃ cfg names, pxy.routeConfigs serverCfg = [cfg] ∧
        pxy.closeFuncs = [.unRegisterGroup cfg] ∧
        ctl.roster pxy.cfg.group = some (cfg.key, names) ∧ pxy.name ∈ names)
    (hkept : ∀ group key names, s.ctl.roster group = some (key, names) →
      ∃ names', ctl.roster group = some (key, names') ∧ names ⊆ names')
    (hlisted : ∀ group key names name, ctl.roster group = some (key, names) →
      name ∈ names → (pxy.cfg.group = group ∧ group ≠ [] ∧ pxy.name = name ∧
        pxy.routeKeys serverCfg ≠ []) ∨
      ∃ names', s.ctl.roster group = some (key, names') ∧ name ∈ names')
    (hunique : pxy.routeKeys serverCfg ≠ [] → ∀ key names,
      s.ctl.roster pxy.cfg.group = some (key, names) → pxy.name ∉ names) :
    (⟨ctl, Function.update s.pxys i (.opened pxy)⟩ : State).Inv serverCfg := by
  have hopened : ∀ {j : Nat} {other : HTTPProxy},
      Function.update s.pxys i (.opened pxy) j = .opened other →
        (j = i ∧ other = pxy) ∨ s.pxys j = .opened other := by
    intro j other hopen
    by_cases hj : j = i
    · rw [hj, Function.update_self, PxyState.opened.injEq] at hopen
      exact Or.inl ⟨hj, hopen.symm⟩
    · rw [Function.update_of_ne hj] at hopen
      exact Or.inr hopen
  have hstays : ∀ {j : Nat} {other : HTTPProxy}, s.pxys j = .opened other →
      Function.update s.pxys i (.opened pxy) j = .opened other := by
    intro j other hopen
    have hj : j ≠ i := by
      rintro rfl
      rw [hunused] at hopen
      cases hopen
    rwa [Function.update_of_ne hj]
  constructor
  · exact hcoherent
  · exact hsorted
  · intro key
    rw [hrouted]
    constructor
    · rintro (hkey | hroute)
      · exact ⟨i, pxy, Function.update_self .., hkey⟩
      · obtain ⟨j, other, hopen, hkey⟩ := (hinv.routed key).mp hroute
        exact ⟨j, other, hstays hopen, hkey⟩
    · rintro ⟨j, other, hopen, hkey⟩
      rcases hopened hopen with ⟨_, rfl⟩ | hold
      · exact Or.inl hkey
      · exact Or.inr ((hinv.routed key).mpr ⟨j, other, hold, hkey⟩)
  · rintro j left key hleft hplain hkey k ⟨right, hright, hasks⟩
    rcases hopened hleft with ⟨rfl, rfl⟩ | hold
    · rcases hopened hright with ⟨rfl, _⟩ | hold'
      · rfl
      · have hroute := (hinv.routed key).mpr ⟨k, right, hold', hasks⟩
        exact absurd (hfree hplain key hkey) hroute
    · rcases hopened hright with ⟨_, rfl⟩ | hold'
      · exact absurd hkey (hapart key hasks j left hold hplain)
      · exact hinv.sole j left key hold hplain hkey k ⟨right, hold', hasks⟩
  · intro j other hopen hplain
    rcases hopened hopen with ⟨_, rfl⟩ | hold
    · exact hundo hplain
    · exact hinv.undo j other hold hplain
  · intro j other hopen hgroup
    rcases hopened hopen with ⟨_, rfl⟩ | hold
    · exact hself hgroup
    · rcases hinv.entered j other hold hgroup with
        hidle | ⟨cfg, names, hone, hfuncs, hroster, hname⟩
      · exact Or.inl hidle
      · obtain ⟨names', hroster', hsubset⟩ := hkept _ _ _ hroster
        exact Or.inr ⟨cfg, names', hone, hfuncs, hroster', hsubset hname⟩
  · intro group key names name hroster hname
    rcases hlisted group key names name hroster hname with
      hnew | ⟨names', hroster', hname'⟩
    · exact ⟨i, pxy, Function.update_self .., hnew⟩
    · obtain ⟨j, other, hopen, hmember⟩ :=
        hinv.listed group key names' name hroster' hname'
      exact ⟨j, other, hstays hopen, hmember⟩
  · have hfresh : ∀ {j : Nat} {other : HTTPProxy}, s.pxys j = .opened other →
        other.cfg.group = pxy.cfg.group → pxy.cfg.group ≠ [] →
        other.name = pxy.name → other.routeKeys serverCfg ≠ [] →
        pxy.routeKeys serverCfg ≠ [] → False := by
      intro j other hopen hgroup hnonempty hname hroutes hasks
      obtain ⟨key, names, hroster, hlists, _⟩ := hinv.roster_of_member
        ⟨other, hopen, hgroup, hnonempty, hname, hroutes⟩
      exact hunique hasks key names hroster hlists
    rintro j k group name ⟨left, hleft, rfl, hgroup, rfl, hasks⟩
      ⟨right, hright, hsame, _, hname, hasks'⟩
    rcases hopened hleft with ⟨rfl, rfl⟩ | hold
    · rcases hopened hright with ⟨rfl, _⟩ | hold'
      · rfl
      · exact (hfresh hold' hsame hgroup hname hasks' hasks).elim
    · rcases hopened hright with ⟨_, rfl⟩ | hold'
      · exact (hfresh hold hsame.symm (hsame ▸ hgroup) hname.symm hasks
          hasks').elim
      · exact hinv.unique j k left.cfg.group left.name
          ⟨left, hold, rfl, hgroup, rfl, hasks⟩
          ⟨right, hold', hsame, hgroup, hname, hasks'⟩

/-- A route of the roster belongs to no plain proxy. -/
theorem Inv.not_plain_of_roster {s : State} (hinv : s.Inv serverCfg)
    {group : Bytes} {key : RouteKey} {names : List Bytes}
    (hroster : s.ctl.roster group = some (key, names)) {i : Nat}
    {pxy : HTTPProxy} (hopen : s.pxys i = .opened pxy)
    (hplain : pxy.cfg.group = []) : key ∉ pxy.routeKeys serverCfg := by
  intro hkey
  obtain ⟨_, _, _, _, hnonempty⟩ :=
    HTTPGroupController.roster_eq_some_iff.mp hroster
  obtain ⟨name, hname⟩ := List.exists_mem_of_ne_nil names hnonempty
  obtain ⟨j, hmember⟩ := hinv.listed group key names name hroster hname
  have hasks := hinv.asks_iff_of_roster hmember hroster key
  have hj := hinv.sole i pxy key hopen hplain hkey j (hasks.mpr rfl)
  obtain ⟨other, hother, rfl, hgroup, _⟩ := hmember
  rw [hj, hopen, PxyState.opened.injEq] at hother
  exact hgroup (hother ▸ hplain)

theorem Inv.routes_of_roster {s : State} (hinv : s.Inv serverCfg)
    {group : Bytes} {key : RouteKey} {names : List Bytes}
    (hroster : s.ctl.roster group = some (key, names)) :
    s.ctl.vhostRouter.routes key ≠ none := by
  obtain ⟨i, _, cfg, hroute, _⟩ := hinv.coherent.routed_of_roster hroster
  rw [hroute]
  exact Option.some_ne_none cfg

/-- What is free is asked for by nobody. -/
theorem Inv.not_asked_of_free {s : State} (hinv : s.Inv serverCfg)
    {key : RouteKey} (hfree : s.ctl.vhostRouter.routes key = none) {i : Nat}
    {pxy : HTTPProxy} (hopen : s.pxys i = .opened pxy) :
    key ∉ pxy.routeKeys serverCfg :=
  fun hkey => (hinv.routed key).mpr ⟨i, pxy, hopen, hkey⟩ hfree

/-- A proxy that has asked for nothing is over, and the others keep what they
have. -/
theorem Inv.unchanged {s : State} (hinv : s.Inv serverCfg) {i : Nat}
    (hidle : ∀ key, ¬ s.Asks serverCfg i key) {ctl : HTTPGroupController}
    (hunchanged : HTTPProxy.Unchanged s.ctl ctl) :
    (⟨ctl, Function.update s.pxys i .ended⟩ : State).Inv serverCfg := by
  refine hinv.ended hunchanged.coherent (hunchanged.sorted hinv.sorted)
    ?_ ?_ ?_
  · intro key
    rw [hunchanged.routes, hinv.routed]
    exact exists_asks_iff_away (hidle key)
  · intro j group key names name _ _ hroster hname
    exact ⟨names, by rw [hunchanged.roster, hroster], hname⟩
  · intro group key names name hroster hname
    rw [hunchanged.roster] at hroster
    obtain ⟨j, hmember⟩ := hinv.listed group key names name hroster hname
    refine ⟨j, ?_, hmember⟩
    rintro rfl
    obtain ⟨other, hasks⟩ := asks_of_member hmember
    exact hidle other hasks

/-- A failed `Run` leaves the other proxies what they have. -/
theorem Inv.failed {s : State} (hinv : s.Inv serverCfg) {i : Nat}
    (hunused : s.pxys i = .unused) {ctl : HTTPGroupController}
    (hunchanged : HTTPProxy.Unchanged s.ctl ctl) :
    (⟨ctl, Function.update s.pxys i .ended⟩ : State).Inv serverCfg := by
  refine hinv.unchanged ?_ hunchanged
  rintro key ⟨pxy, hopen, _⟩
  rw [hunused] at hopen
  cases hopen

theorem Inv.openPlain {s : State} (hinv : s.Inv serverCfg) {i : Nat}
    (hunused : s.pxys i = .unused) {pxy : HTTPProxy}
    (hplain : pxy.cfg.group = []) {vhostRouter : HTTPReverseProxy RealConn}
    (hundo : pxy.closeFuncs = (pxy.routeConfigs serverCfg).map .unRegister)
    (hadds : HTTPProxy.Adds s.ctl.vhostRouter vhostRouter
      (pxy.routeConfigs serverCfg))
    (hcoherent : ({ s.ctl with vhostRouter := vhostRouter } :
      HTTPGroupController).Coherent) :
    (⟨{ s.ctl with vhostRouter := vhostRouter },
      Function.update s.pxys i (.opened pxy)⟩ : State).Inv serverCfg := by
  refine hinv.opened hunused hcoherent (hadds.sorted hinv.sorted) ?_ ?_ ?_ ?_
    ?_ ?_ ?_ ?_
  · intro key
    by_cases hkey : key ∈ pxy.routeKeys serverCfg
    · obtain ⟨_, cfg, _, hroute⟩ := hadds.new key hkey
      simp [hroute, hkey]
    · simp [hadds.old key hkey, hkey]
  · intro _ key hkey
    exact (hadds.new key hkey).1
  · intro key hkey j other hopen _
    exact hinv.not_asked_of_free (hadds.new key hkey).1 hopen
  · exact fun _ => hundo
  · exact fun hgroup => absurd hplain hgroup
  · intro group key names hroster
    exact ⟨names, hroster, List.Subset.refl _⟩
  · intro group key names name hroster hname
    exact Or.inr ⟨names, hroster, hname⟩
  · intro _ key names hroster hname
    obtain ⟨j, _, _, _, hgroup, _⟩ := hinv.listed _ key names _ hroster hname
    exact hgroup hplain

theorem Inv.openIdle {s : State} (hinv : s.Inv serverCfg) {i : Nat}
    (hunused : s.pxys i = .unused) {pxy : HTTPProxy}
    (hgroup : pxy.cfg.group ≠ []) (hnew : pxy.closeFuncs = [])
    (hnone : pxy.routeConfigs serverCfg = []) :
    (⟨s.ctl, Function.update s.pxys i (.opened pxy)⟩ : State).Inv
      serverCfg := by
  have hkeys : pxy.routeKeys serverCfg = [] := by
    simp [HTTPProxy.routeKeys, hnone]
  refine hinv.opened hunused hinv.coherent hinv.sorted ?_ ?_ ?_ ?_ ?_ ?_ ?_ ?_
  · simp [hkeys]
  · exact fun hplain => absurd hplain hgroup
  · simp [hkeys]
  · exact fun hplain => absurd hplain hgroup
  · exact fun _ => Or.inl ⟨hnone, hnew⟩
  · intro group key names hroster
    exact ⟨names, hroster, List.Subset.refl _⟩
  · intro group key names name hroster hname
    exact Or.inr ⟨names, hroster, hname⟩
  · exact fun hasks => absurd hkeys hasks

theorem Inv.openMember {s : State} (hinv : s.Inv serverCfg) {i : Nat}
    (hunused : s.pxys i = .unused) {pxy : HTTPProxy}
    (hgroup : pxy.cfg.group ≠ []) {cfg : RouteConfig RealConn}
    (hone : pxy.routeConfigs serverCfg = [cfg])
    (hundo : pxy.closeFuncs = [.unRegisterGroup cfg])
    {ctl : HTTPGroupController} (hcoherent : ctl.Coherent)
    (hregisters : HTTPGroupController.Registers s.ctl ctl pxy.name
      pxy.cfg.group cfg.key (.ok ())) :
    (⟨ctl, Function.update s.pxys i (.opened pxy)⟩ : State).Inv
      serverCfg := by
  have hkeys : pxy.routeKeys serverCfg = [cfg.key] := by
    simp [HTTPProxy.routeKeys, hone]
  obtain ⟨names, hroster, hname⟩ := hregisters.roster_ok
  have hself : (pxy.routeConfigs serverCfg = [] ∧ pxy.closeFuncs = []) ∨
      ∃ cfg names, pxy.routeConfigs serverCfg = [cfg] ∧
        pxy.closeFuncs = [.unRegisterGroup cfg] ∧
        ctl.roster pxy.cfg.group = some (cfg.key, names) ∧
        pxy.name ∈ names := Or.inr ⟨cfg, names, hone, hundo, hroster, hname⟩
  cases hregisters with
  | founded found hempty hfree hroster' hroutes hsorted =>
      refine hinv.opened hunused hcoherent (hsorted hinv.sorted) ?_ ?_ ?_ ?_
        (fun _ => hself) ?_ ?_ ?_
      · intro key
        rw [hroutes, Function.update_apply, hkeys, List.mem_singleton]
        by_cases hkey : key = cfg.key
        · simp [hkey]
        · simp [hkey]
      · exact fun hplain => absurd hplain hgroup
      · intro key hkey j other hopen _
        rw [hkeys, List.mem_singleton] at hkey
        exact hinv.not_asked_of_free (hkey ▸ hfree) hopen
      · exact fun hplain => absurd hplain hgroup
      · intro group key before hbefore
        have hne : group ≠ pxy.cfg.group := by
          rintro rfl
          rw [hempty] at hbefore
          cases hbefore
        exact ⟨before, by rw [hroster', Function.update_of_ne hne, hbefore],
          List.Subset.refl _⟩
      · intro group key after name hafter hlists
        rw [hroster'] at hafter
        by_cases hsame : group = pxy.cfg.group
        · rw [hsame, Function.update_self, Option.some.injEq,
            Prod.mk.injEq] at hafter
          rw [← hafter.2, List.mem_singleton] at hlists
          exact Or.inl ⟨hsame.symm, hsame ▸ hgroup, hlists.symm, by simp [hkeys]⟩
        · rw [Function.update_of_ne hsame] at hafter
          exact Or.inr ⟨after, hafter, hlists⟩
      · intro _ key before hbefore
        rw [hempty] at hbefore
        cases hbefore
  | joined before hbefore hnew hroster' hrouter =>
      refine hinv.opened hunused hcoherent (hrouter ▸ hinv.sorted) ?_ ?_ ?_ ?_
        (fun _ => hself) ?_ ?_ ?_
      · intro key
        rw [hrouter, hkeys, List.mem_singleton]
        apply (or_iff_right_of_imp ?_).symm
        rintro rfl
        exact hinv.routes_of_roster hbefore
      · exact fun hplain => absurd hplain hgroup
      · intro key hkey j other hopen hplain
        rw [hkeys, List.mem_singleton] at hkey
        rw [hkey]
        exact hinv.not_plain_of_roster hbefore hopen hplain
      · exact fun hplain => absurd hplain hgroup
      · intro group key old hold
        by_cases hsame : group = pxy.cfg.group
        · rw [hsame, hbefore, Option.some.injEq, Prod.mk.injEq] at hold
          obtain ⟨rfl, rfl⟩ := hold
          refine ⟨_, by rw [hroster', hsame, Function.update_self], ?_⟩
          exact List.subset_append_left _ _
        · exact ⟨old, by rw [hroster', Function.update_of_ne hsame, hold],
            List.Subset.refl _⟩
      · intro group key after name hafter hlists
        rw [hroster'] at hafter
        by_cases hsame : group = pxy.cfg.group
        · rw [hsame, Function.update_self, Option.some.injEq,
            Prod.mk.injEq] at hafter
          obtain ⟨rfl, rfl⟩ := hafter
          rw [List.mem_append, List.mem_singleton] at hlists
          rcases hlists with hold | rfl
          · exact Or.inr ⟨before, hsame ▸ hbefore, hold⟩
          · exact Or.inl ⟨hsame.symm, hsame ▸ hgroup, rfl, by simp [hkeys]⟩
        · rw [Function.update_of_ne hsame] at hafter
          exact Or.inr ⟨after, hafter, hlists⟩
      · intro _ key old hold
        rw [hbefore, Option.some.injEq, Prod.mk.injEq] at hold
        exact hold.2 ▸ hnew

theorem Inv.closePlain {s : State} (hinv : s.Inv serverCfg) {i : Nat}
    {pxy : HTTPProxy} (hopen : s.pxys i = .opened pxy)
    (hplain : pxy.cfg.group = []) :
    (⟨pxy.close s.ctl, Function.update s.pxys i .ended⟩ : State).Inv
      serverCfg := by
  obtain ⟨vhostRouter, hclose, hremoves⟩ :=
    HTTPProxy.close_plain (hinv.undo i pxy hopen hplain) s.ctl
  have hroutes : ∀ key, vhostRouter.routes key =
      if key ∈ pxy.routeKeys serverCfg then none
      else s.ctl.vhostRouter.routes key := hremoves.routes
  rw [hclose]
  refine hinv.ended ?_ (hremoves.sorted hinv.sorted) ?_ ?_ ?_
  · apply hinv.coherent.setRouter
    intro key g
    by_cases hkey : key ∈ pxy.routeKeys serverCfg
    · apply iff_of_false
      · rintro ⟨cfg, hroute, _⟩
        simp [hroutes, hkey] at hroute
      · intro hrouted
        obtain ⟨group, names, hroster⟩ :=
          hinv.coherent.roster_of_routed hrouted
        exact hinv.not_plain_of_roster hroster hopen hplain hkey
    · simp only [HTTPGroupController.Routed, hroutes, if_neg hkey]
  · intro key
    rw [hroutes]
    split
    · next hkey =>
        apply iff_of_false (not_not.mpr rfl)
        rintro ⟨j, hj, hasks⟩
        exact hj (hinv.sole i pxy key hopen hplain hkey j hasks)
    · next hkey =>
        rw [hinv.routed]
        rw [← asks_of_opened hopen] at hkey
        exact exists_asks_iff_away hkey
  · intro j group key names name _ _ hroster hname
    exact ⟨names, hroster, hname⟩
  · intro group key names name hroster hname
    obtain ⟨j, other, hother, hsame, hgroup, hmember⟩ :=
      hinv.listed group key names name hroster hname
    refine ⟨j, ?_, other, hother, hsame, hgroup, hmember⟩
    rintro rfl
    rw [hopen, PxyState.opened.injEq] at hother
    subst hother
    exact hgroup (hsame.symm.trans hplain)

theorem Inv.closeIdle {s : State} (hinv : s.Inv serverCfg) {i : Nat}
    {pxy : HTTPProxy} (hopen : s.pxys i = .opened pxy)
    (hnone : pxy.routeConfigs serverCfg = []) :
    (⟨s.ctl, Function.update s.pxys i .ended⟩ : State).Inv serverCfg := by
  refine hinv.unchanged ?_ ⟨hinv.coherent, rfl, rfl, id⟩
  intro key
  rw [asks_of_opened hopen]
  simp [HTTPProxy.routeKeys, hnone]

/-- Another proxy with the route of a group is another of its members. -/
theorem Inv.member_of_asks {s : State} (hinv : s.Inv serverCfg) {i j : Nat}
    {group name : Bytes} {key : RouteKey} {names : List Bytes} (hj : j ≠ i)
    (hmember : s.Member serverCfg i group name)
    (hroster : s.ctl.roster group = some (key, names))
    (hasks : s.Asks serverCfg j key) :
    ∃ other ∈ names, other ≠ name := by
  obtain ⟨pxy, hopen, hkey⟩ := hasks
  by_cases hplain : pxy.cfg.group = []
  · exact absurd hkey (hinv.not_plain_of_roster hroster hopen hplain)
  · have hother : s.Member serverCfg j pxy.cfg.group pxy.name :=
      ⟨pxy, hopen, rfl, hplain, rfl, List.ne_nil_of_mem hkey⟩
    obtain ⟨key', names', hroster', hname, hsame⟩ :=
      hinv.roster_of_member hother
    obtain rfl := (hsame key).mp ⟨pxy, hopen, hkey⟩
    have hgroup := hinv.coherent.roster_inj hroster' hroster
    rw [hgroup, hroster, Option.some.injEq, Prod.mk.injEq] at hroster'
    refine ⟨pxy.name, hroster'.2 ▸ hname, ?_⟩
    rintro rfl
    exact hj (hinv.unique j i group pxy.name (hgroup ▸ hother) hmember)

/-- The last member of a group takes its route with it. -/
theorem Inv.closeLast {s : State} (hinv : s.Inv serverCfg) {i : Nat}
    {group name : Bytes} (hmember : s.Member serverCfg i group name)
    {key : RouteKey} {names : List Bytes}
    (hroster : s.ctl.roster group = some (key, names))
    (hempty : names.erase name = []) {ctl : HTTPGroupController}
    (hcoherent : ctl.Coherent)
    (hroster' : ctl.roster = Function.update s.ctl.roster group none)
    (hrouter' : ctl.vhostRouter = s.ctl.vhostRouter.del key) :
    (⟨ctl, Function.update s.pxys i .ended⟩ : State).Inv serverCfg := by
  have halone : ∀ other ∈ names, other = name := by
    intro other hother
    by_contra hne
    have hmem := (List.mem_erase_of_ne hne).mpr hother
    rw [hempty] at hmem
    exact List.not_mem_nil hmem
  have hsame := hinv.asks_iff_of_roster hmember hroster
  refine hinv.ended hcoherent (hrouter' ▸ hinv.sorted.del _ _ _) ?_ ?_ ?_
  · intro other
    rw [hrouter', HTTPReverseProxy.routes_del, Function.update_apply]
    split
    · next hkey =>
        subst hkey
        apply iff_of_false (not_not.mpr rfl)
        rintro ⟨j, hj, hasks⟩
        obtain ⟨another, hlists, hne⟩ :=
          hinv.member_of_asks hj hmember hroster hasks
        exact hne (halone another hlists)
    · next hkey =>
        rw [hinv.routed]
        exact exists_asks_iff_away fun hasks => hkey ((hsame other).mp hasks)
  · intro j group' key' names' other hj hother hfound hlists
    have hne : group' ≠ group := by
      rintro rfl
      rw [hroster, Option.some.injEq, Prod.mk.injEq] at hfound
      exact hinv.name_ne_of_member hmember hother hj
        (halone other (hfound.2 ▸ hlists))
    exact ⟨names', by rw [hroster', Function.update_of_ne hne, hfound], hlists⟩
  · intro group' key' names' other hfound hlists
    rw [hroster'] at hfound
    have hne : group' ≠ group := by
      rintro rfl
      rw [Function.update_self] at hfound
      cases hfound
    rw [Function.update_of_ne hne] at hfound
    obtain ⟨j, hother⟩ := hinv.listed group' key' names' other hfound hlists
    exact ⟨j, ne_of_member hmember hother (Or.inl hne), hother⟩

/-- While a group has other members it keeps its route. -/
theorem Inv.closeShared {s : State} (hinv : s.Inv serverCfg) {i : Nat}
    {group name : Bytes} (hmember : s.Member serverCfg i group name)
    {key : RouteKey} {names : List Bytes}
    (hroster : s.ctl.roster group = some (key, names)) (hnodup : names.Nodup)
    (hrest : names.erase name ≠ []) {ctl : HTTPGroupController}
    (hcoherent : ctl.Coherent)
    (hroster' : ctl.roster = Function.update s.ctl.roster group
      (some (key, names.erase name)))
    (hrouter' : ctl.vhostRouter = s.ctl.vhostRouter) :
    (⟨ctl, Function.update s.pxys i .ended⟩ : State).Inv serverCfg := by
  obtain ⟨another, hanother⟩ := List.exists_mem_of_ne_nil _ hrest
  rw [hnodup.mem_erase_iff] at hanother
  have hkept : ∃ k, k ≠ i ∧ s.Asks serverCfg k key := by
    obtain ⟨k, hk⟩ := hinv.listed group key names another hroster hanother.2
    exact ⟨k, ne_of_member hmember hk (Or.inr hanother.1),
      (hinv.asks_iff_of_roster hk hroster key).mpr rfl⟩
  have hsame := hinv.asks_iff_of_roster hmember hroster
  refine hinv.ended hcoherent (hrouter' ▸ hinv.sorted) ?_ ?_ ?_
  · intro other
    rw [hrouter', hinv.routed]
    by_cases hasks : s.Asks serverCfg i other
    · obtain rfl := (hsame other).mp hasks
      exact iff_of_true ⟨i, hasks⟩ hkept
    · exact exists_asks_iff_away hasks
  · intro j group' key' names' other hj hother hfound hlists
    by_cases hgroup : group' = group
    · subst hgroup
      rw [hroster, Option.some.injEq, Prod.mk.injEq] at hfound
      obtain ⟨rfl, rfl⟩ := hfound
      have hne := hinv.name_ne_of_member hmember hother hj
      exact ⟨_, by rw [hroster', Function.update_self],
        (List.mem_erase_of_ne hne).mpr hlists⟩
    · exact ⟨names', by rw [hroster', Function.update_of_ne hgroup, hfound],
        hlists⟩
  · intro group' key' names' other hfound hlists
    rw [hroster'] at hfound
    by_cases hgroup : group' = group
    · subst hgroup
      rw [Function.update_self, Option.some.injEq, Prod.mk.injEq] at hfound
      obtain ⟨rfl, rfl⟩ := hfound
      rw [hnodup.mem_erase_iff] at hlists
      obtain ⟨j, hother⟩ := hinv.listed group' key names other hroster hlists.2
      exact ⟨j, ne_of_member hmember hother (Or.inr hlists.1), hother⟩
    · rw [Function.update_of_ne hgroup] at hfound
      obtain ⟨j, hother⟩ := hinv.listed group' key' names' other hfound hlists
      exact ⟨j, ne_of_member hmember hother (Or.inl hgroup), hother⟩

theorem Inv.closeMember {s : State} (hinv : s.Inv serverCfg) {i : Nat}
    {group name : Bytes} (hmember : s.Member serverCfg i group name) :
    (⟨s.ctl.unRegister name group, Function.update s.pxys i .ended⟩ :
      State).Inv serverCfg := by
  obtain ⟨key, names, hroster, hname, _⟩ := hinv.roster_of_member hmember
  have hnodup : names.Nodup := by
    obtain ⟨g, _, _, rfl, _⟩ :=
      HTTPGroupController.roster_eq_some_iff.mp hroster
    exact (hinv.coherent.listed g).nodup
  obtain ⟨hcoherent, hcases⟩ := hinv.coherent.roster_unRegister hroster hname
  rcases hcases with ⟨hempty, hroster', hrouter'⟩ | ⟨hrest, hroster', hrouter'⟩
  · exact hinv.closeLast hmember hroster hempty hcoherent hroster' hrouter'
  · exact hinv.closeShared hmember hroster hnodup hrest hcoherent hroster'
      hrouter'

theorem Inv.close {s : State} (hinv : s.Inv serverCfg) {i : Nat}
    {pxy : HTTPProxy} (hopen : s.pxys i = .opened pxy) :
    (⟨pxy.close s.ctl, Function.update s.pxys i .ended⟩ : State).Inv
      serverCfg := by
  by_cases hplain : pxy.cfg.group = []
  · exact hinv.closePlain hopen hplain
  · rcases hinv.entered i pxy hopen hplain with
      ⟨hnone, hfuncs⟩ | ⟨cfg, names, hone, hfuncs, _, _⟩
    · have hclose : pxy.close s.ctl = s.ctl := by
        simp [HTTPProxy.close, hfuncs]
      rw [hclose]
      exact hinv.closeIdle hopen hnone
    · have hclose : pxy.close s.ctl =
          s.ctl.unRegister pxy.name pxy.cfg.group := by
        simp [HTTPProxy.close, hfuncs, HTTPProxy.runCloseFunc]
      rw [hclose]
      exact hinv.closeMember ⟨pxy, hopen, rfl, hplain, rfl,
        by simp [HTTPProxy.routeKeys, hone]⟩

theorem Inv.run {s : State} (hinv : s.Inv serverCfg) {i : Nat}
    (hunused : s.pxys i = .unused) {name : Bytes} {cfg : HTTPProxyConf}
    {ctl : HTTPGroupController} {pxy : HTTPProxy} {addr : Bytes}
    (hrun : s.run serverCfg name cfg = (ctl, pxy, .ok addr)) :
    (⟨ctl, Function.update s.pxys i (.opened pxy)⟩ : State).Inv
      serverCfg := by
  have hruns := hinv.runs name cfg
  rw [hrun] at hruns
  cases hruns with
  | plain addr vhostRouter hplain hpxy hadds hnext hcoherent =>
      dsimp only at hpxy hnext
      subst hpxy hnext
      refine hinv.openPlain hunused ?_ rfl ?_ hcoherent
      · exact hplain
      · exact hadds
  | idle addr hgroup hnone hpxy hnext =>
      dsimp only at hpxy hnext
      subst hpxy hnext
      refine hinv.openIdle hunused ?_ rfl ?_
      · exact hgroup
      · exact hnone
  | member addr routeConfig hgroup hone hpxy hregisters hcoherent =>
      dsimp only at hpxy
      subst hpxy
      refine hinv.openMember hunused ?_ ?_ rfl hcoherent ?_
      · exact hgroup
      · exact hone
      · exact hregisters

theorem Inv.step {s s' : State} {action : Action} (hinv : s.Inv serverCfg)
    (hstep : HTTPRoutes.step serverCfg s action = some s') :
    s'.Inv serverCfg := by
  cases action with
  | run i name cfg =>
      cases hunused : s.pxys i with
      | unused =>
          simp only [HTTPRoutes.step, hunused] at hstep
          split at hstep
          · next ctl pxy err hrun =>
              cases hstep
              have hruns := hinv.runs name cfg
              rw [hrun] at hruns
              cases hruns with
              | failed err hunchanged => exact hinv.failed hunused hunchanged
          · next ctl pxy addr hrun =>
              cases hstep
              exact hinv.run hunused hrun
      | opened | ended => simp [HTTPRoutes.step, hunused] at hstep
  | close i =>
      cases hopen : s.pxys i with
      | opened pxy =>
          simp only [HTTPRoutes.step, hopen, Option.some.injEq] at hstep
          subst hstep
          exact hinv.close hopen
      | unused | ended => simp [HTTPRoutes.step, hopen] at hstep

end State

/-- Whatever http proxies have been run and closed, the routes and the groups
are exactly those of the open ones. -/
theorem exact_of_reaches (serverCfg : ServerCommonConf) {word : List Action}
    {s : State} (hreaches : (system serverCfg).Reaches word s) :
    s.Exact serverCfg := by
  have hinv : s.Inv serverCfg := by
    refine System.Reaches.invariant State.inv_init ?_ hreaches
    intro state action next hinv hstep
    exact State.Inv.step hinv hstep
  exact hinv.exact

def webConf (group : Bytes) (customDomains : List Bytes) : HTTPProxyConf :=
  ⟨{ defaultBaseProxyConf consts.httpProxy with group := group },
    ⟨some customDomains, []⟩, none, [], [], [], none, []⟩

/-- Two proxies share a group; a third is refused at its second domain, and the
first of the group closes before the other. -/
def sharedDomain : List Action :=
  [.run 0 [1] (webConf (ascii "pool") [ascii "a.org"]),
    .run 1 [2] (webConf (ascii "pool") [ascii "a.org"]),
    .run 2 [3] (webConf [] [ascii "b.org", ascii "a.org"]), .close 0]

theorem exact_of_reaches_sharedDomain :
    ∃ s, (system ⟨80, 0, 0, []⟩).Reaches sharedDomain s ∧
      s.ctl.pxyNames (ascii "pool") = [[2]] ∧ s.Exact ⟨80, 0, 0, []⟩ := by
  obtain ⟨s, hreaches, hnames⟩ :
      ∃ s, (system ⟨80, 0, 0, []⟩).Reaches sharedDomain s ∧
        s.ctl.pxyNames (ascii "pool") = [[2]] :=
    ⟨_, System.reaches_of_exec rfl, rfl⟩
  exact ⟨s, hreaches, hnames, exact_of_reaches ⟨80, 0, 0, []⟩ hreaches⟩

end HTTPRoutes

end Frp
