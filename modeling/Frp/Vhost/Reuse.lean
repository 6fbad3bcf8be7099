/-
Whether the connections that the HTTP transport reuses stay on their route.  The
transport reuses by the URL host that `Director` writes: the key of the route,
or the Host header of a request that has no route.
-/
import Frp.Vhost.HTTP

namespace Frp

open GoStrings HTTPReverseProxy

variable {Conn : Type}

/-- A request that may be served on a connection of `first` has its route. -/
def ReuseKeepsRoute (toLower : Bytes → Bytes) (rp : HTTPReverseProxy Conn)
    (first second : Request) : Prop :=
  ∀ vr, rp.routeOf toLower (injectRequestInfoToCtx first) = some vr →
    (rp.director toLower first).urlHost =
      (rp.director toLower second).urlHost →
    rp.routeOf toLower (injectRequestInfoToCtx second) = some vr

/-- The Host header of a request without a route is the key of a route that
`first` resolves to. -/
def HostForgesKey (toLower : Bytes → Bytes) (rp : HTTPReverseProxy Conn)
    (first second : Request) : Prop :=
  rp.routeOf toLower (injectRequestInfoToCtx second) = none ∧
    ∃ vr, rp.routeOf toLower (injectRequestInfoToCtx first) = some vr ∧
      second.host = reuseKey vr.payload

/-- The base64 fields have no full stop, so the key determines the triple. -/
theorem reuseKey_inj {left right : RouteConfig Conn}
    (heq : reuseKey left = reuseKey right) :
    left.domain = right.domain ∧ left.location = right.location ∧
      left.routeByHTTPUser = right.routeByHTTPUser := by
  unfold reuseKey at heq
  obtain ⟨hfront, huser⟩ := append_separator_inj
    (Base64.dot_not_mem_encode _) (Base64.dot_not_mem_encode _) heq
  obtain ⟨hdomain, hlocation⟩ := append_separator_inj
    (Base64.dot_not_mem_encode _) (Base64.dot_not_mem_encode _) hfront
  exact ⟨hdomain, Base64.encode_injective hlocation,
    Base64.encode_injective huser⟩

theorem director_urlHost_of_route {toLower : Bytes → Bytes}
    {rp : HTTPReverseProxy Conn} {req : Request}
    {vr : Router (RouteConfig Conn)}
    (hroute : rp.routeOf toLower (injectRequestInfoToCtx req) = some vr) :
    (rp.director toLower req).urlHost = reuseKey vr.payload := by
  unfold routeOf at hroute
  simp [director, getRouteConfig, hroute]

theorem director_urlHost_of_none {toLower : Bytes → Bytes}
    {rp : HTTPReverseProxy Conn} {req : Request}
    (hroute : rp.routeOf toLower (injectRequestInfoToCtx req) = none) :
    (rp.director toLower req).urlHost = req.host := by
  unfold routeOf at hroute
  simp [director, getRouteConfig, hroute]

/-- Two routes of one table with the same key are the same route. -/
theorem router_eq_of_reuseKey {toLower : Bytes → Bytes}
    {rp : HTTPReverseProxy Conn} {first second : RouteInfo}
    {left right : Router (RouteConfig Conn)}
    (hleft : rp.routeOf toLower first = some left)
    (hright : rp.routeOf toLower second = some right)
    (hkey : reuseKey left.payload = reuseKey right.payload) :
    left = right := by
  obtain ⟨domain, httpUser, hmem⟩ := mem_entries_of_getVhost hleft
  obtain ⟨domain', httpUser', hmem'⟩ := mem_entries_of_getVhost hright
  obtain ⟨heta, hdomain, huser⟩ := rp.keyed domain httpUser left hmem
  obtain ⟨heta', hdomain', huser'⟩ := rp.keyed domain' httpUser' right hmem'
  obtain ⟨hsame, hlocation, hsameUser⟩ := reuseKey_inj hkey
  rw [← hdomain, ← huser, hsame, hsameUser, hdomain', huser'] at hmem
  have hnodup := rp.distinct domain' httpUser'
  apply List.inj_on_of_nodup_map hnodup hmem hmem'
  rw [heta, heta']
  exact hlocation

/-- A connection is only ever reused off its route by a request without a route
whose Host header is the key of that route. -/
theorem reuseKeepsRoute_iff (toLower : Bytes → Bytes)
    (rp : HTTPReverseProxy Conn) (first second : Request) :
    ReuseKeepsRoute toLower rp first second ↔
      ¬ HostForgesKey toLower rp first second := by
  constructor
  · rintro hkeeps ⟨hnone, vr, hroute, hhost⟩
    have hsecond := hkeeps vr hroute (by
      rw [director_urlHost_of_route hroute, director_urlHost_of_none hnone,
        hhost])
    rw [hnone] at hsecond
    cases hsecond
  · intro hforge vr hroute hurlHost
    rw [director_urlHost_of_route hroute] at hurlHost
    cases hsecond : rp.routeOf toLower (injectRequestInfoToCtx second) with
    | none =>
        rw [director_urlHost_of_none hsecond] at hurlHost
        exact absurd ⟨hsecond, vr, hroute, hurlHost.symm⟩ hforge
    | some vr' =>
        rw [director_urlHost_of_route hsecond] at hurlHost
        rw [router_eq_of_reuseKey hroute hsecond hurlHost]

/-- An HTTP proxy for `example.com` with the default location and user. -/
def plainTable : HTTPReverseProxy Unit :=
  match (newHTTPReverseProxy Unit).register
      { domain := ascii "example.com"
        location := []
        rewriteHost := []
        username := ascii "bob"
        password := ascii "secret"
        headers := []
        routeByHTTPUser := []
        createConnFn := none } with
  | .ok rp => rp
  | .error _ => newHTTPReverseProxy Unit

/-- `GET /` with this Host header. -/
def plainRequest (host : Bytes) : Request where
  method := ascii "GET"
  host := host
  urlPath := ascii "/"
  urlHost := []
  remoteAddr := ascii "192.0.2.1:4000"
  authorization := []
  proxyAuthorization := []

/-- The host `example.com..` has no route and is the key of `example.com`. -/
theorem not_reuseKeepsRoute_plainTable :
    ¬ ∀ (rp : HTTPReverseProxy Unit) (first second : Request),
      ReuseKeepsRoute asciiToLower rp first second := by
  intro hall
  have hsecond := hall plainTable (plainRequest (ascii "example.com"))
    (plainRequest (ascii "example.com..")) _ rfl (by decide)
  have hnone : plainTable.routeOf asciiToLower
      (injectRequestInfoToCtx (plainRequest (ascii "example.com.."))) =
        none := rfl
  rw [hnone] at hsecond
  cases hsecond

end Frp
