/-
Whether every registered http route can be reached.  The domain of a route is
kept as it is configured, while a request looks its canonical host up; so a route
serves what it says exactly when its domain is spelled as hosts are.
-/
import Frp.Server.HTTPRoutes
import Frp.Vhost.CanonicalHost

namespace Frp

open GoStrings Transition

variable {Conn : Type}

namespace HTTPReverseProxy

/-- The triple of the route that a request resolves to, its Host header run
through `CanonicalHost` as in `ServeHTTP`. -/
def resolved (toLower : Bytes → Bytes) (rp : HTTPReverseProxy Conn)
    (host path httpUser : Bytes) : Option RouteKey :=
  (rp.getVhost (canonicalHost toLower host).1 path httpUser).map
    fun vr => vr.payload.key

/-- A route of the domain itself matches the path and the user. -/
def Matches (rp : HTTPReverseProxy Conn) (domain path httpUser : Bytes) : Prop :=
  ∃ key, rp.routes key ≠ none ∧ key.domain = domain ∧
    (key.httpUser = httpUser ∨ key.httpUser = []) ∧ key.location <+: path

/-- The route is reached by what its domain promises.  Nothing lies between the
host of a single label and the wildcard of what follows it, so there the route
yields only to routes of the host, under the name that is looked up. -/
structure Live (toLower : Bytes → Bytes) (rp : HTTPReverseProxy Conn)
    (key : RouteKey) : Prop where
  exact : star ∉ key.domain →
    rp.resolved toLower key.domain key.location key.httpUser = some key
  wildcard : ∀ suffix, key.domain = wildcard suffix →
    ∀ label, IsLabel label →
      ¬ rp.Matches (canonicalHost toLower (label ++ dot :: suffix)).1
          key.location key.httpUser →
      rp.resolved toLower (label ++ dot :: suffix) key.location key.httpUser =
        some key

theorem holds_iff (rp : HTTPReverseProxy Conn) (key : RouteKey) :
    rp.vhostRouter.Holds key ↔ rp.routes key ≠ none := by
  rw [Ne, routes_eq_none_iff, Routers.Holds]
  push Not
  rfl

variable {toLower : Bytes → Bytes} {rp : HTTPReverseProxy Conn}

theorem resolved_eq_some_iff (hsorted : rp.vhostRouter.Sorted)
    {host path httpUser : Bytes} {key : RouteKey} :
    rp.resolved toLower host path httpUser = some key ↔
      FirstHit rp.vhostRouter.Holds (canonicalHost toLower host).1 path httpUser
        key := by
  rw [resolved, getVhost_eq_lookup]
  apply Routers.lookup_eq_some_iff hsorted
  intro domain user vr hvr
  obtain ⟨heta, hdomain, huser⟩ := rp.keyed domain user vr hvr
  have hlocation : vr.payload.location = vr.location := by rw [heta]
  rw [RouteConfig.key, hdomain, huser, hlocation]

/-- A request is resolved to a route of one of the domains of its host. -/
theorem mem_lookupDomains_of_resolved (hsorted : rp.vhostRouter.Sorted)
    {host path httpUser : Bytes} {key : RouteKey}
    (hresolved : rp.resolved toLower host path httpUser = some key) :
    key.domain ∈ lookupDomains (canonicalHost toLower host).1 := by
  obtain ⟨before, after, hscopes, -⟩ :=
    ((resolved_eq_some_iff hsorted).mp hresolved).first
  have hmem : (key.domain, key.httpUser) ∈
      lookupScopes (canonicalHost toLower host).1 httpUser := by
    rw [hscopes]
    simp
  obtain ⟨domain, hdomain, hpair⟩ := List.mem_flatMap.mp hmem
  simp only [List.mem_cons, Prod.mk.injEq, List.not_mem_nil, or_false] at hpair
  rcases hpair with ⟨rfl, -⟩ | ⟨rfl, -⟩
  · exact hdomain
  · exact hdomain

/-- A request with the location and user of a route is resolved to it as soon as
its domain is looked up and nothing that is looked up before matches. -/
theorem resolved_of_scopes (hsorted : rp.vhostRouter.Sorted) {key : RouteKey}
    (hroute : rp.routes key ≠ none) {host : Bytes}
    {before after : List (Bytes × Bytes)}
    (hscopes : lookupScopes (canonicalHost toLower host).1 key.httpUser =
      before ++ (key.domain, key.httpUser) :: after)
    (hbefore : ∀ scope ∈ before, ∀ location, location <+: key.location →
      rp.routes ⟨scope.1, location, scope.2⟩ = none) :
    rp.resolved toLower host key.location key.httpUser = some key := by
  rw [resolved_eq_some_iff hsorted]
  refine ⟨(rp.holds_iff key).mpr hroute, List.prefix_rfl,
    ⟨before, after, hscopes, ?_⟩, ?_⟩
  · intro other hother hcovers hmem
    exact (rp.holds_iff other).mp hother
      (hbefore _ hmem other.location hcovers)
  · intro other _ hcovers _ _
    exact hcovers.length_le

theorem lookupScopes_host (host httpUser : Bytes) :
    ∃ after, lookupScopes host httpUser = [] ++ (host, httpUser) :: after :=
  ⟨_, rfl⟩

theorem live_exact_iff (hsorted : rp.vhostRouter.Sorted) {key : RouteKey}
    (hroute : rp.routes key ≠ none) (hstar : star ∉ key.domain) :
    rp.resolved toLower key.domain key.location key.httpUser = some key ↔
      (canonicalHost toLower key.domain).1 = key.domain := by
  constructor
  · intro hresolved
    have hmem := mem_lookupDomains_of_resolved hsorted hresolved
    rcases mem_lookupDomains.mp hmem with hself | ⟨suffix, -, hwild⟩ | hall
    · exact hself.symm
    · exact absurd (hwild ▸ by simp [Frp.wildcard, ascii, star]) hstar
    · exact absurd (hall ▸ by simp [ascii, star]) hstar
  · intro hcanonical
    obtain ⟨after, hscopes⟩ := lookupScopes_host key.domain key.httpUser
    have hlookup := congrArg (fun host => lookupScopes host key.httpUser)
      hcanonical
    apply resolved_of_scopes hsorted hroute (hlookup.trans hscopes)
    simp

/-- A well spelled wildcard serves every label that has no route. -/
theorem resolved_wildcard (hlower : LowerCase toLower)
    (hsorted : rp.vhostRouter.Sorted) {key : RouteKey}
    (hroute : rp.routes key ≠ none) {suffix : Bytes}
    (hdomain : key.domain = Frp.wildcard suffix)
    (hspelled : SuffixSpelled toLower suffix) {label : Bytes}
    (hlabel : IsLabel label)
    (hfree : ¬ rp.Matches (canonicalHost toLower (label ++ dot :: suffix)).1
      key.location key.httpUser) :
    rp.resolved toLower (label ++ dot :: suffix) key.location key.httpUser =
      some key := by
  rw [hspelled.canonicalHost_eq hlower hlabel] at hfree
  obtain ⟨rest, hsuffixes⟩ := properSuffixes_label
    (hlower.isLabel hlabel).dot hspelled.labels
  have hscopes : lookupScopes (toLower label ++ dot :: suffix) key.httpUser =
      [(toLower label ++ dot :: suffix, key.httpUser),
        (toLower label ++ dot :: suffix, [])] ++
      (key.domain, key.httpUser) :: (key.domain, []) ::
        (rest.map Frp.wildcard ++ [ascii "*"]).flatMap
          fun domain => [(domain, key.httpUser), (domain, [])] := by
    simp [lookupScopes, lookupDomains, hsuffixes, hdomain]
  rw [← hspelled.canonicalHost_eq hlower hlabel] at hscopes
  apply resolved_of_scopes hsorted hroute hscopes
  intro scope hscope location hcovers
  rw [hspelled.canonicalHost_eq hlower hlabel] at hscope
  by_contra hfound
  apply hfree
  simp only [List.mem_cons, List.not_mem_nil, or_false] at hscope
  rcases hscope with rfl | rfl
  · exact ⟨_, hfound, rfl, Or.inl rfl, hcovers⟩
  · exact ⟨_, hfound, rfl, Or.inr rfl, hcovers⟩

/-- A label that no host of a table has: the table is finite. -/
theorem exists_free_label (hlower : LowerCase toLower) {bound : Nat}
    (hbound : ∀ key, rp.routes key ≠ none →
      key.domain ≠ [] ∧ key.domain.length ≤ bound) (suffix : Bytes) :
    ∃ label, IsLabel label ∧ star ∉ toLower label ∧ ∀ path httpUser,
      ¬ rp.Matches (canonicalHost toLower (label ++ dot :: suffix)).1 path
        httpUser := by
  have hletters : ∀ byte ∈ List.replicate (bound + 1) (97 : UInt8),
      byte = 97 := fun byte hbyte => List.eq_of_mem_replicate hbyte
  have hlabel : IsLabel (List.replicate (bound + 1) 97) :=
    ⟨by simp, fun hmem => absurd (hletters _ hmem) (by decide),
      fun hmem => absurd (hletters _ hmem) (by decide),
      fun hmem => absurd (hletters _ hmem) (by decide)⟩
  have hsmall : toLower (List.replicate (bound + 1) 97) =
      List.replicate (bound + 1) 97 := by
    apply hlower.small
    intro byte hbyte
    rw [hletters byte hbyte]
    decide
  refine ⟨_, hlabel, ?_, ?_⟩
  · rw [hsmall]
    exact fun hmem => absurd (hletters _ hmem) (by decide)
  · rintro path httpUser ⟨key, hroute, hdomain, -, -⟩
    obtain ⟨hne, hlength⟩ := hbound key hroute
    rcases canonicalHost_label hlower hlabel suffix with hlost | hkept
    · exact hne (hdomain.trans hlost)
    · rw [hsmall, ← hdomain] at hkept
      have hlong := hkept.length_le
      rw [List.length_replicate] at hlong
      omega

/-- A route of a finite table is reached exactly when its domain is spelled as
hosts are. -/
theorem live_iff (hlower : LowerCase toLower)
    (hsorted : rp.vhostRouter.Sorted) {bound : Nat}
    (hbound : ∀ key, rp.routes key ≠ none →
      key.domain ≠ [] ∧ key.domain.length ≤ bound) {key : RouteKey}
    (hroute : rp.routes key ≠ none) :
    rp.Live toLower key ↔ DomainSpelled toLower key.domain := by
  constructor
  · intro hlive
    refine ⟨?_, ?_⟩
    · intro hstar
      exact (live_exact_iff hsorted hroute hstar).mp (hlive.exact hstar)
    · intro suffix hdomain
      obtain ⟨label, hlabel, hstar, hfree⟩ :=
        rp.exists_free_label hlower hbound suffix
      have hresolved := hlive.wildcard suffix hdomain label hlabel
        (hfree key.location key.httpUser)
      have hmem := mem_lookupDomains_of_resolved hsorted hresolved
      exact suffixSpelled_of_mem hlower hlabel hstar (hdomain ▸ hmem)
  · intro hspelled
    refine ⟨?_, ?_⟩
    · intro hstar
      exact (live_exact_iff hsorted hroute hstar).mpr (hspelled.exact hstar)
    · intro suffix hdomain label hlabel hfree
      exact resolved_wildcard hlower hsorted hroute hdomain
        (hspelled.wildcard suffix hdomain) hlabel hfree

end HTTPReverseProxy

namespace HTTPRoutes

namespace State

/-- The open proxies ask for domains of bounded length: there are finitely many
of them. -/
def Bounded (serverCfg : ServerCommonConf) (s : State) : Prop :=
  ∃ bound, ∀ i key, s.Asks serverCfg i key → key.domain.length ≤ bound

variable {serverCfg : ServerCommonConf}

theorem domain_ne_nil_of_asks {s : State} {i : Nat} {key : RouteKey}
    (hasks : s.Asks serverCfg i key) : key.domain ≠ [] := by
  obtain ⟨pxy, -, hkey⟩ := hasks
  simp only [HTTPProxy.routeKeys, HTTPProxy.routeConfigs, List.mem_map,
    List.mem_flatMap] at hkey
  obtain ⟨cfg, ⟨domain, hdomain, location, -, rfl⟩, rfl⟩ := hkey
  rw [HTTPProxy.domains, List.mem_append] at hdomain
  rcases hdomain with hcustom | hsub
  · have hne : domain ≠ [] := by simpa using (List.mem_filter.mp hcustom).2
    exact hne
  · split at hsub
    · cases hsub
    · rw [List.mem_singleton] at hsub
      simp [RouteConfig.key, hsub]

theorem Bounded.update {s s' : State} (hbounded : s.Bounded serverCfg)
    {i : Nat} {entry : PxyState}
    (hpxys : s'.pxys = Function.update s.pxys i entry) :
    s'.Bounded serverCfg := by
  obtain ⟨bound, hbound⟩ := hbounded
  have hkeep : ∀ j key, j ≠ i → s'.Asks serverCfg j key →
      key.domain.length ≤ bound := by
    rintro j key hne ⟨pxy, hopen, hkey⟩
    rw [hpxys, Function.update_of_ne hne] at hopen
    exact hbound j key ⟨pxy, hopen, hkey⟩
  cases entry with
  | opened pxy =>
      let lengths := (pxy.routeKeys serverCfg).map fun key => key.domain.length
      refine ⟨bound + lengths.max?.getD 0, ?_⟩
      intro j key hasks
      by_cases hne : j = i
      · subst hne
        obtain ⟨found, hopen, hkey⟩ := hasks
        rw [hpxys, Function.update_self] at hopen
        cases hopen
        have hlength : key.domain.length ∈ lengths :=
          List.mem_map.mpr ⟨key, hkey, rfl⟩
        exact Nat.le_add_left_of_le (List.le_max?_getD_of_mem hlength)
      · exact Nat.le_add_right_of_le (hkeep j key hne hasks)
  | unused | ended =>
      refine ⟨bound, ?_⟩
      intro j key hasks
      by_cases hne : j = i
      · subst hne
        obtain ⟨found, hopen, -⟩ := hasks
        rw [hpxys, Function.update_self] at hopen
        cases hopen
      · exact hkeep j key hne hasks

theorem Bounded.step {s s' : State} {action : Action}
    (hbounded : s.Bounded serverCfg)
    (hstep : HTTPRoutes.step serverCfg s action = some s') :
    s'.Bounded serverCfg := by
  cases action with
  | run i name cfg =>
      simp only [HTTPRoutes.step] at hstep
      split at hstep
      · split at hstep
        · cases hstep
          exact hbounded.update rfl
        · cases hstep
          exact hbounded.update rfl
      · cases hstep
      · cases hstep
  | close i =>
      simp only [HTTPRoutes.step] at hstep
      split at hstep
      · cases hstep
        exact hbounded.update rfl
      · cases hstep
      · cases hstep

end State

/-- A route that a `Run` has registered is reached by the requests that its
domain promises exactly when the domain is spelled as hosts are: without an
asterisk its own canonical host, under `*.` two labels at least in lower case
with neither one colon nor a trailing dot. -/
theorem live_iff_spelled {toLower : Bytes → Bytes} (hlower : LowerCase toLower)
    {serverCfg : ServerCommonConf} {word : List Action} {s : State}
    (hreaches : (system serverCfg).Reaches word s) {i : Nat} {key : RouteKey}
    (hasks : s.Asks serverCfg i key) :
    s.ctl.vhostRouter.Live toLower key ↔ DomainSpelled toLower key.domain := by
  have hinv : s.Inv serverCfg :=
    System.Reaches.invariant State.inv_init
      (fun _ _ _ hinv hstep => hinv.step hstep) hreaches
  obtain ⟨bound, hbound⟩ : s.Bounded serverCfg := by
    refine System.Reaches.invariant ⟨0, ?_⟩
      (fun _ _ _ hbounded hstep => hbounded.step hstep) hreaches
    rintro j other ⟨pxy, hopen, -⟩
    cases hopen
  have hfinite : ∀ other, s.ctl.vhostRouter.routes other ≠ none →
      other.domain ≠ [] ∧ other.domain.length ≤ bound := by
    intro other hroute
    obtain ⟨j, hother⟩ := (hinv.routed other).mp hroute
    exact ⟨State.domain_ne_nil_of_asks hother, hbound j other hother⟩
  exact HTTPReverseProxy.live_iff hlower hinv.sorted hfinite
    ((hinv.routed key).mpr ⟨i, hasks⟩)

/-- A wildcard for every host of a top level domain, and a mixed-case domain. -/
def deadDomains : List Action :=
  [.run 0 [1] (webConf [] [ascii "*.com", ascii "Example.org"])]

/-- Neither is ever looked up. -/
theorem not_live_deadDomains :
    ∃ s, (system ⟨80, 0, 0, []⟩).Reaches deadDomains s ∧
      (s.Asks ⟨80, 0, 0, []⟩ 0 ⟨ascii "*.com", [], []⟩ ∧
        ¬ s.ctl.vhostRouter.Live asciiToLower ⟨ascii "*.com", [], []⟩) ∧
      (s.Asks ⟨80, 0, 0, []⟩ 0 ⟨ascii "Example.org", [], []⟩ ∧
        ¬ s.ctl.vhostRouter.Live asciiToLower ⟨ascii "Example.org", [], []⟩) := by
  obtain ⟨s, hreaches, ⟨pxy, hopen, hkeys⟩, hfree, hcom, horg⟩ : ∃ s,
      (system ⟨80, 0, 0, []⟩).Reaches deadDomains s ∧
      (∃ pxy, s.pxys 0 = .opened pxy ∧ pxy.routeKeys ⟨80, 0, 0, []⟩ =
        [⟨ascii "*.com", [], []⟩, ⟨ascii "Example.org", [], []⟩]) ∧
      s.ctl.vhostRouter.vhostRouter.entries (ascii "a.com") [] = [] ∧
      s.ctl.vhostRouter.resolved asciiToLower (ascii "a.com") [] [] = none ∧
      s.ctl.vhostRouter.resolved asciiToLower (ascii "Example.org") [] [] =
        none :=
    ⟨_, System.reaches_of_exec rfl, ⟨_, rfl, rfl⟩, rfl, rfl, rfl⟩
  refine ⟨s, hreaches, ⟨⟨pxy, hopen, by simp [hkeys]⟩, ?_⟩,
    ⟨pxy, hopen, by simp [hkeys]⟩, ?_⟩
  · intro hlive
    have hlabel : IsLabel (ascii "a") := by constructor <;> decide
    have hresolved := hlive.wildcard (ascii "com") rfl (ascii "a") hlabel ?_
    · rw [show ascii "a" ++ dot :: ascii "com" = ascii "a.com" from rfl,
        hcom] at hresolved
      cases hresolved
    · rintro ⟨⟨domain, location, httpUser⟩, hroute, rfl, huser, -⟩
      obtain rfl : httpUser = [] := huser.elim id id
      apply hroute
      rw [HTTPReverseProxy.routes_eq_none_iff]
      intro vr hvr
      rw [show (canonicalHost asciiToLower (ascii "a" ++ dot :: ascii "com")).1 =
        ascii "a.com" from rfl, hfree] at hvr
      cases hvr
  · intro hlive
    have hresolved := hlive.exact (by decide)
    rw [horg] at hresolved
    cases hresolved

/-- The route of the shared domain is live. -/
theorem live_iff_spelled_sharedDomain :
    ∃ s, (system ⟨80, 0, 0, []⟩).Reaches sharedDomain s ∧
      s.ctl.vhostRouter.Live asciiToLower ⟨ascii "a.org", [], []⟩ := by
  obtain ⟨s, hreaches, pxy, hopen, hkeys⟩ : ∃ s,
      (system ⟨80, 0, 0, []⟩).Reaches sharedDomain s ∧
      ∃ pxy, s.pxys 1 = .opened pxy ∧ pxy.routeKeys ⟨80, 0, 0, []⟩ =
        [⟨ascii "a.org", [], []⟩] :=
    ⟨_, System.reaches_of_exec rfl, _, rfl, rfl⟩
  have hasks : s.Asks ⟨80, 0, 0, []⟩ 1 ⟨ascii "a.org", [], []⟩ :=
    ⟨pxy, hopen, by simp [hkeys]⟩
  refine ⟨s, hreaches,
    (live_iff_spelled lowerCase_asciiToLower hreaches hasks).mpr ⟨?_, ?_⟩⟩
  · intro _
    rfl
  · intro suffix hdomain
    have hstar : star ∈ ascii "a.org" := by
      rw [show ascii "a.org" = wildcard suffix from hdomain]
      exact List.mem_append_left _ (by decide)
    exact absurd hstar (by decide)

end HTTPRoutes

end Frp
