/-
The route table seen as a map: what stands under each triple of domain, location
and HTTP user.  `Add` and `Del` are updates of this map, and with the order in
which the lists are kept it determines every lookup.
-/
import Frp.Vhost.HTTP

namespace Frp

open GoStrings

variable {Conn : Type}

/-- What a route is stored under. -/
structure RouteKey where
  domain : Bytes
  location : Bytes
  httpUser : Bytes
deriving DecidableEq, Repr

def RouteConfig.key (cfg : RouteConfig Conn) : RouteKey :=
  ⟨cfg.domain, cfg.location, cfg.routeByHTTPUser⟩

namespace Routers

variable {P : Type}

/-- Every list is in the order in which the first match is the longest. -/
def Sorted (r : Routers P) : Prop :=
  ∀ domain httpUser, (r.entries domain httpUser).Pairwise byLocationReverse

instance : Std.Total (byLocationReverse (P := P)) where
  total left right := List.le_total right.location left.location

instance : IsTrans (Router P) byLocationReverse where
  trans _ _ _ hleft hright := List.le_trans hright hleft

theorem sorted_newRouters : (newRouters P).Sorted := by
  intro domain httpUser
  simp

theorem Sorted.add {r next : Routers P} (hsorted : r.Sorted)
    {domain location httpUser : Bytes} {payload : P}
    (hadd : r.add domain location httpUser payload = .ok next) :
    next.Sorted := by
  intro domain' httpUser'
  rw [entries_add hadd]
  split
  · exact List.pairwise_insertionSort _ _
  · exact hsorted domain' httpUser'

theorem Sorted.del {r : Routers P} (hsorted : r.Sorted)
    (domain location httpUser : Bytes) :
    (r.del domain location httpUser).Sorted := by
  intro domain' httpUser'
  rw [entries_del]
  split
  · exact (hsorted domain httpUser).filter _
  · exact hsorted domain' httpUser'

/-- With distinct locations, what is found is what is in the list. -/
theorem exist_eq_some_iff {r : Routers P} (hdistinct : r.Distinct)
    {domain location httpUser : Bytes} {vr : Router P} :
    r.exist domain location httpUser = some vr ↔
      vr ∈ r.entries domain httpUser ∧ vr.location = location := by
  rw [exist_eq_find]
  constructor
  · intro hfind
    have hlocation := List.find?_some hfind
    exact ⟨List.mem_of_find?_eq_some hfind, (eq_of_beq hlocation).symm⟩
  · rintro ⟨hvr, rfl⟩
    cases hfind : (r.entries domain httpUser).find?
        fun route => vr.location == route.location with
    | none =>
        have hnot := List.find?_eq_none.mp hfind vr hvr
        simp at hnot
    | some other =>
        have hother := List.mem_of_find?_eq_some hfind
        have hlocation := List.find?_some hfind
        rw [List.inj_on_of_nodup_map (hdistinct domain httpUser) hvr hother
          (by simpa using hlocation)]

end Routers

namespace HTTPReverseProxy

/-- The configuration stored under a triple. -/
def routes (rp : HTTPReverseProxy Conn) (key : RouteKey) :
    Option (RouteConfig Conn) :=
  (rp.vhostRouter.exist key.domain key.location key.httpUser).map
    Router.payload

/-- The lists of the table are those of the map. -/
theorem mem_entries_iff (rp : HTTPReverseProxy Conn)
    {domain httpUser : Bytes} {vr : Router (RouteConfig Conn)} :
    vr ∈ rp.vhostRouter.entries domain httpUser ↔
      rp.routes ⟨domain, vr.location, httpUser⟩ = some vr.payload ∧
        vr.domain = domain ∧ vr.httpUser = httpUser := by
  constructor
  · intro hvr
    obtain ⟨heta, hdomain, huser⟩ := rp.keyed domain httpUser vr hvr
    have hfound := (Routers.exist_eq_some_iff rp.distinct).mpr ⟨hvr, rfl⟩
    refine ⟨by rw [routes, hfound]; rfl, ?_, ?_⟩
    · rw [← hdomain, heta]
    · rw [← huser, heta]
  · rintro ⟨hroute, hdomain, huser⟩
    obtain ⟨other, hfound, hpayload⟩ := Option.map_eq_some_iff.mp hroute
    obtain ⟨hother, hlocation⟩ :=
      (Routers.exist_eq_some_iff rp.distinct).mp hfound
    obtain ⟨heta, hdomain', huser'⟩ := rp.keyed domain httpUser other hother
    have hsame : other = vr := by
      cases other
      cases vr
      simp_all
    exact hsame ▸ hother

theorem routes_eq_none_iff (rp : HTTPReverseProxy Conn) (key : RouteKey) :
    rp.routes key = none ↔
      ∀ vr ∈ rp.vhostRouter.entries key.domain key.httpUser,
        vr.location ≠ key.location := by
  rw [routes, Option.map_eq_none_iff, Option.eq_none_iff_forall_ne_some]
  constructor
  · intro hnone vr hvr hlocation
    exact hnone vr ((Routers.exist_eq_some_iff rp.distinct).mpr
      ⟨hvr, hlocation⟩)
  · intro hfree vr hfound
    obtain ⟨hvr, hlocation⟩ :=
      (Routers.exist_eq_some_iff rp.distinct).mp hfound
    exact hfree vr hvr hlocation

/-- Two tables with the same routes in each list are the same map. -/
theorem routes_ext {rp rp' : HTTPReverseProxy Conn} {key : RouteKey}
    (hlist : ∀ vr : Router (RouteConfig Conn), vr.location = key.location →
      (vr ∈ rp.vhostRouter.entries key.domain key.httpUser ↔
        vr ∈ rp'.vhostRouter.entries key.domain key.httpUser)) :
    rp.routes key = rp'.routes key := by
  rw [routes, routes]
  congr 1
  apply Option.ext
  intro vr
  rw [Routers.exist_eq_some_iff rp.distinct,
    Routers.exist_eq_some_iff rp'.distinct]
  exact and_congr_left fun hlocation => hlist vr hlocation

/-- `Register` succeeds on a free triple only. -/
theorem register_cases (rp : HTTPReverseProxy Conn) (cfg : RouteConfig Conn) :
    (∃ rp', rp.register cfg = .ok rp' ∧ rp.routes cfg.key = none ∧
      rp.vhostRouter.add cfg.domain cfg.location cfg.routeByHTTPUser cfg =
        .ok rp'.vhostRouter) ∨
    (rp.register cfg = .error .configConflict ∧ rp.routes cfg.key ≠ none) := by
  have hfree : (∃ next, rp.vhostRouter.add cfg.domain cfg.location
      cfg.routeByHTTPUser cfg = .ok next) ↔ rp.routes cfg.key = none := by
    rw [routes_eq_none_iff]
    exact Routers.add_isOk_iff rp.vhostRouter cfg.domain cfg.location
      cfg.routeByHTTPUser cfg
  unfold register
  split
  · next err hadd =>
      refine Or.inr ⟨by cases err; rfl, fun hnone => ?_⟩
      obtain ⟨next, hnext⟩ := hfree.mpr hnone
      rw [hadd] at hnext
      cases hnext
  · next vhostRouter hadd =>
      exact Or.inl ⟨_, rfl, hfree.mp ⟨vhostRouter, hadd⟩, hadd⟩

theorem routes_of_add {rp rp' : HTTPReverseProxy Conn}
    {cfg : RouteConfig Conn}
    (hadd : rp.vhostRouter.add cfg.domain cfg.location cfg.routeByHTTPUser cfg =
      .ok rp'.vhostRouter) :
    rp'.routes = Function.update rp.routes cfg.key (some cfg) := by
  funext key
  by_cases hkey : key = cfg.key
  · subst hkey
    rw [Function.update_self]
    have hmem : (⟨cfg.domain, cfg.location, cfg.routeByHTTPUser, cfg⟩ :
        Router (RouteConfig Conn)) ∈
          rp'.vhostRouter.entries cfg.domain cfg.routeByHTTPUser := by
      rw [Routers.entries_add hadd]
      simp
    exact (rp'.mem_entries_iff.mp hmem).1
  · rw [Function.update_of_ne hkey]
    apply routes_ext
    intro vr hlocation
    rw [Routers.entries_add hadd]
    split
    · next hsame =>
        simp only [List.mem_insertionSort, List.mem_append,
          List.mem_singleton, hsame.1, hsame.2]
        apply or_iff_left
        rintro rfl
        cases key
        exact hkey (by simp_all [RouteConfig.key])
    · rfl

/-- `Routers.Del` on the shared table. -/
def del (rp : HTTPReverseProxy Conn) (key : RouteKey) :
    HTTPReverseProxy Conn :=
  ⟨rp.vhostRouter.del key.domain key.location key.httpUser,
    rp.keyed.del _ _ _, rp.distinct.del _ _ _⟩

theorem unRegister_eq_del (rp : HTTPReverseProxy Conn)
    (cfg : RouteConfig Conn) : rp.unRegister cfg = rp.del cfg.key := rfl

theorem routes_del (rp : HTTPReverseProxy Conn) (deleted : RouteKey) :
    (rp.del deleted).routes = Function.update rp.routes deleted none := by
  funext key
  have hentries : ∀ domain httpUser,
      (rp.del deleted).vhostRouter.entries domain httpUser = _ :=
    Routers.entries_del rp.vhostRouter deleted.domain deleted.location
      deleted.httpUser
  by_cases hkey : key = deleted
  · subst hkey
    rw [Function.update_self, routes_eq_none_iff]
    intro vr hvr
    rw [hentries, if_pos ⟨rfl, rfl⟩] at hvr
    simpa using (List.mem_filter.mp hvr).2
  · rw [Function.update_of_ne hkey]
    apply routes_ext
    intro vr hlocation
    rw [hentries]
    split
    · next hsame =>
        rw [List.mem_filter, hsame.1, hsame.2]
        apply and_iff_left
        have hne : vr.location ≠ deleted.location := by
          intro heq
          cases key
          exact hkey (by simp_all)
        simpa using hne
    · rfl

/-- Two sorted tables that are the same map have the same lists, so no lookup
tells them apart. -/
theorem entries_eq_of_routes {rp rp' : HTTPReverseProxy Conn}
    (hsorted : rp.vhostRouter.Sorted) (hsorted' : rp'.vhostRouter.Sorted)
    (hroutes : rp.routes = rp'.routes) (domain httpUser : Bytes) :
    rp.vhostRouter.entries domain httpUser =
      rp'.vhostRouter.entries domain httpUser := by
  have hmem : ∀ vr, vr ∈ rp.vhostRouter.entries domain httpUser ↔
      vr ∈ rp'.vhostRouter.entries domain httpUser := by
    intro vr
    rw [mem_entries_iff, mem_entries_iff, hroutes]
  have hperm : (rp.vhostRouter.entries domain httpUser).Perm
      (rp'.vhostRouter.entries domain httpUser) :=
    (List.perm_ext_iff_of_nodup (rp.distinct domain httpUser).of_map
      (rp'.distinct domain httpUser).of_map).mpr hmem
  refine hperm.eq_of_pairwise ?_ (hsorted _ _) (hsorted' _ _)
  intro left right hleft hright hle hge
  exact List.inj_on_of_nodup_map (rp.distinct domain httpUser) hleft
    ((hmem right).mpr hright) (List.le_antisymm hge hle)

theorem get_eq_of_entries {rp rp' : HTTPReverseProxy Conn}
    (hentries : ∀ domain httpUser, rp.vhostRouter.entries domain httpUser =
      rp'.vhostRouter.entries domain httpUser)
    (host path httpUser : Bytes) :
    rp.vhostRouter.get host path httpUser =
      rp'.vhostRouter.get host path httpUser := by
  rw [Routers.get_eq_find, Routers.get_eq_find, hentries]

theorem getVhost_eq_of_entries {rp rp' : HTTPReverseProxy Conn}
    (hentries : ∀ domain httpUser, rp.vhostRouter.entries domain httpUser =
      rp'.vhostRouter.entries domain httpUser)
    (domain location routeByHTTPUser : Bytes) :
    rp.getVhost domain location routeByHTTPUser =
      rp'.getVhost domain location routeByHTTPUser := by
  have hfind : ∀ host, rp.findRouter host location routeByHTTPUser =
      rp'.findRouter host location routeByHTTPUser := by
    intro host
    simp only [findRouter, get_eq_of_entries hentries]
  have hwildcard : ∀ labels, rp.findWildcard location routeByHTTPUser labels =
      rp'.findWildcard location routeByHTTPUser labels := by
    intro labels
    induction labels with
    | nil => rfl
    | cons label rest ih => simp only [findWildcard, hfind, ih]
  simp only [getVhost, hfind, hwildcard]

end HTTPReverseProxy

end Frp
