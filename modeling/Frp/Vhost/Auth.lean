/-
Whether the authorization check of `ServeHTTP` covers the route that the request
then takes.  The check routes by the user of the Authorization header, the
context by the user of Proxy-Authorization when the request line has a host.
-/
import Frp.Vhost.HTTP

namespace Frp

open GoStrings HTTPReverseProxy

variable {Conn : Type}

/-- A request that is let through carries the credentials of the guarded route
it is resolved to. -/
def AuthCovers (toLower : Bytes → Bytes) (rp : HTTPReverseProxy Conn)
    (req : Request) : Prop :=
  rp.serveHTTP toLower req ≠ .unauthorized →
    ∀ vr, rp.routeOf toLower (injectRequestInfoToCtx req) = some vr →
      vr.payload.username ≠ [] ∨ vr.payload.password ≠ [] →
        req.basicAuth.1.user = vr.payload.username ∧
          req.basicAuth.1.passwd = vr.payload.password

/-- The route that the check looks at. -/
def checkedRoute (toLower : Bytes → Bytes) (rp : HTTPReverseProxy Conn)
    (req : Request) : Option (Router (RouteConfig Conn)) :=
  rp.getVhost (canonicalHost toLower req.host).1 req.urlPath
    req.basicAuth.1.user

/-- A route that is absent, open, or guarded by these credentials. -/
def Passes (route : Option (Router (RouteConfig Conn))) (cred : Credentials) :
    Prop :=
  ∀ vr, route = some vr → accepts vr.payload cred = true

/-- The headers name one user to route by: the request line has no host, or
Proxy-Authorization names nobody, or the user of the Authorization header. -/
def Request.SingleUser (req : Request) : Prop :=
  req.urlHost = [] ∨ req.proxyAuthorization = [] ∨
    (parseBasicAuth req.proxyAuthorization).1.user = [] ∨
    (parseBasicAuth req.proxyAuthorization).1.user = req.basicAuth.1.user

theorem accepts_iff (rc : RouteConfig Conn) (cred : Credentials) :
    accepts rc cred = true ↔
      (rc.username ≠ [] ∨ rc.password ≠ [] →
        cred.user = rc.username ∧ cred.passwd = rc.password) := by
  simp only [accepts, Bool.not_eq_true', Bool.and_eq_false_iff,
    Bool.or_eq_false_iff, bne_eq_false_iff_eq]
  constructor
  · rintro (⟨huser, hpasswd⟩ | ⟨huser, hpasswd⟩) hguard
    · simp [huser, hpasswd] at hguard
    · exact ⟨huser.symm, hpasswd.symm⟩
  · intro hguarded
    by_cases hguard : rc.username ≠ [] ∨ rc.password ≠ []
    · obtain ⟨huser, hpasswd⟩ := hguarded hguard
      exact Or.inr ⟨huser.symm, hpasswd.symm⟩
    · exact Or.inl (by simpa using hguard)

theorem serveHTTP_authorized_iff (toLower : Bytes → Bytes)
    (rp : HTTPReverseProxy Conn) (req : Request) :
    rp.serveHTTP toLower req ≠ .unauthorized ↔
      Passes (checkedRoute toLower rp req) req.basicAuth.1 := by
  have hcheck : rp.checkAuth (canonicalHost toLower req.host).1 req.urlPath
      req.basicAuth.1.user req.basicAuth.1 = true ↔
        Passes (checkedRoute toLower rp req) req.basicAuth.1 := by
    unfold checkAuth Passes checkedRoute
    cases rp.getVhost (canonicalHost toLower req.host).1 req.urlPath
        req.basicAuth.1.user with
    | none => simp
    | some vr => simp
  rw [← hcheck]
  by_cases hpassed : rp.checkAuth (canonicalHost toLower req.host).1
      req.urlPath req.basicAuth.1.user req.basicAuth.1 = true
  · by_cases hconnect : req.method = ascii "CONNECT"
    · simp [serveHTTP, hpassed, hconnect]
    · simp [serveHTTP, hpassed, hconnect]
  · simp [serveHTTP, hpassed]

theorem authCovers_iff_passes (toLower : Bytes → Bytes)
    (rp : HTTPReverseProxy Conn) (req : Request) :
    AuthCovers toLower rp req ↔
      (Passes (checkedRoute toLower rp req) req.basicAuth.1 →
        Passes (rp.routeOf toLower (injectRequestInfoToCtx req))
          req.basicAuth.1) := by
  unfold AuthCovers
  rw [serveHTTP_authorized_iff]
  constructor
  · intro hcovers hchecked vr hvr
    rw [accepts_iff]
    exact hcovers hchecked vr hvr
  · intro hpasses hchecked vr hvr
    exact (accepts_iff vr.payload req.basicAuth.1).mp (hpasses hchecked vr hvr)

theorem routingUser_eq_iff (req : Request) :
    routingUser req = req.basicAuth.1.user ↔ req.SingleUser := by
  unfold routingUser proxyUser Request.SingleUser
  by_cases hhost : req.urlHost = []
  · simp [hhost]
  · by_cases hproxy : req.proxyAuthorization = []
    · simp [hproxy]
    · by_cases huser : (parseBasicAuth req.proxyAuthorization).1.user = []
      · simp [hhost, hproxy, huser]
      · simp [hhost, hproxy, huser]

/-- With one user to route by, the checked route is the route that is used. -/
theorem routeOf_eq_checkedRoute (toLower : Bytes → Bytes)
    (rp : HTTPReverseProxy Conn) {req : Request} (hsingle : req.SingleUser) :
    rp.routeOf toLower (injectRequestInfoToCtx req) =
      checkedRoute toLower rp req := by
  rw [← routingUser_eq_iff] at hsingle
  simp only [routeOf, injectRequestInfoToCtx, checkedRoute, hsingle]

/-- The only route of a table: for one user and guarded. -/
def guardedRoute (domain user : Bytes) (cred : Credentials) :
    RouteConfig Conn where
  domain := domain
  location := []
  rewriteHost := []
  username := cred.user
  password := cred.passwd
  headers := []
  routeByHTTPUser := user
  createConnFn := none

theorem exists_guarded_table (domain user : Bytes) (cred : Credentials) :
    ∃ rp : HTTPReverseProxy Conn, ∀ domain' user',
      rp.vhostRouter.entries domain' user' =
        if domain' = domain ∧ user' = user then
          [⟨domain, [], user, guardedRoute domain user cred⟩]
        else [] := by
  obtain ⟨table, htable⟩ := (Routers.add_isOk_iff
    (Routers.newRouters (RouteConfig Conn)) domain [] user
      (guardedRoute domain user cred)).mpr (by simp)
  refine ⟨⟨table, ?_, ?_⟩, ?_⟩
  · exact (newHTTPReverseProxy Conn).keyed.add
      (guardedRoute domain user cred) htable
  · exact (newHTTPReverseProxy Conn).distinct.add htable
  · intro domain' user'
    rw [Routers.entries_add htable]
    simp

/-- A request whose headers name two users is let through to a guarded route
of some table without its credentials. -/
theorem exists_uncovered (toLower : Bytes → Bytes) {req : Request}
    (htwo : ¬ req.SingleUser) :
    ∃ rp : HTTPReverseProxy Conn, ¬ AuthCovers toLower rp req := by
  have hne : routingUser req ≠ req.basicAuth.1.user := by
    rwa [Ne, routingUser_eq_iff]
  have hsome : routingUser req ≠ [] := by
    intro hnil
    by_cases hproxy : proxyUser req = []
    · exact hne (if_pos hproxy)
    · exact hproxy (by rwa [routingUser, if_neg hproxy] at hnil)
  let host := (canonicalHost toLower req.host).1
  let other : Credentials := ⟨0 :: req.basicAuth.1.user, []⟩
  obtain ⟨rp, hrp⟩ :=
    @exists_guarded_table Conn host (routingUser req) other
  refine ⟨rp, ?_⟩
  have hchecked : checkedRoute toLower rp req = none := by
    apply getVhost_eq_none
    · intro domain
      rw [hrp, if_neg (fun h => hne h.2.symm)]
    · intro domain
      rw [hrp, if_neg (fun h => hsome h.2.symm)]
  have hused : rp.routeOf toLower (injectRequestInfoToCtx req) =
      some ⟨host, [], routingUser req,
        guardedRoute host (routingUser req) other⟩ := by
    have hget : rp.vhostRouter.get host req.urlPath (routingUser req) =
        some ⟨host, [], routingUser req,
          guardedRoute host (routingUser req) other⟩ := by
      rw [Routers.get_eq_find, hrp, if_pos ⟨rfl, rfl⟩]
      simp [hasPrefix]
    simp only [routeOf, injectRequestInfoToCtx, getVhost, findRouter]
    rw [show (canonicalHost toLower req.host).1 = host from rfl, hget]
  rw [authCovers_iff_passes, hchecked, hused]
  intro hpasses
  have haccepts := hpasses (by simp [Passes]) _ rfl
  rw [accepts_iff] at haccepts
  simp [guardedRoute, other] at haccepts

/-- In one table, the check covers the route that is used when both lookups agree
or their disagreement does no harm. -/
theorem authCovers_iff_routes (toLower : Bytes → Bytes)
    (rp : HTTPReverseProxy Conn) (req : Request) :
    AuthCovers toLower rp req ↔
      rp.routeOf toLower (injectRequestInfoToCtx req) =
          checkedRoute toLower rp req ∨
        Passes (rp.routeOf toLower (injectRequestInfoToCtx req))
          req.basicAuth.1 ∨
        ¬ Passes (checkedRoute toLower rp req) req.basicAuth.1 := by
  rw [authCovers_iff_passes]
  constructor
  · intro hcovers
    by_cases hchecked : Passes (checkedRoute toLower rp req) req.basicAuth.1
    · exact Or.inr (Or.inl (hcovers hchecked))
    · exact Or.inr (Or.inr hchecked)
  · rintro (hsame | hused | hrefused) hchecked
    · rwa [hsame]
    · exact hused
    · exact absurd hchecked hrefused

/-- `Director`, `DialContext` and `connectHandler` all go by the route that the
context leads to, and dial nobody where it leads nowhere. -/
structure GoesBy (toLower : Bytes → Bytes) (rp : HTTPReverseProxy Conn)
    (req : Request) : Prop where
  director : ∀ vr, rp.routeOf toLower (injectRequestInfoToCtx req) = some vr →
    (rp.director toLower req).urlHost = reuseKey vr.payload
  dials : ∀ vr fn,
    rp.routeOf toLower (injectRequestInfoToCtx req) = some vr →
    vr.payload.createConnFn = some fn →
      rp.dialContext toLower (injectRequestInfoToCtx req) =
          fn req.remoteAddr ∧
        rp.connectHandler toLower (injectRequestInfoToCtx req) =
          fn req.remoteAddr
  refuses : rp.routeOf toLower (injectRequestInfoToCtx req) = none →
    ∃ err, rp.dialContext toLower (injectRequestInfoToCtx req) = .error err ∧
      rp.connectHandler toLower (injectRequestInfoToCtx req) = .error err

theorem goesBy (toLower : Bytes → Bytes) (rp : HTTPReverseProxy Conn)
    (req : Request) : GoesBy toLower rp req where
  director vr hroute := by
    unfold routeOf at hroute
    simp only [HTTPReverseProxy.director, getRouteConfig, hroute, Option.map_some]
  dials vr fn hroute hfn := dialContext_eq toLower rp _ hroute hfn
  refuses hroute := by
    unfold routeOf at hroute
    simp only [dialContext, connectHandler, createConnection, hroute]
    exact ⟨_, rfl, rfl⟩

/-- The check covers the route that is used in every table exactly when the
headers name one user; that route is the one that is dialed. -/
theorem authCovers_iff (toLower : Bytes → Bytes) (req : Request) :
    (∀ rp : HTTPReverseProxy Conn, AuthCovers toLower rp req ↔
      rp.routeOf toLower (injectRequestInfoToCtx req) =
          checkedRoute toLower rp req ∨
        Passes (rp.routeOf toLower (injectRequestInfoToCtx req))
          req.basicAuth.1 ∨
        ¬ Passes (checkedRoute toLower rp req) req.basicAuth.1) ∧
    ((∀ rp : HTTPReverseProxy Conn, AuthCovers toLower rp req) ↔
      req.SingleUser) ∧
    ∀ rp : HTTPReverseProxy Conn, GoesBy toLower rp req := by
  refine ⟨fun rp => authCovers_iff_routes toLower rp req, ?_,
    fun rp => goesBy toLower rp req⟩
  constructor
  · intro hall
    by_contra htwo
    obtain ⟨rp, hrp⟩ := @exists_uncovered Conn toLower req htwo
    exact hrp (hall rp)
  · intro hsingle rp
    rw [authCovers_iff_passes, routeOf_eq_checkedRoute toLower rp hsingle]
    exact id

/-- A route of `example.com` for the user `bob`, who has a password. -/
def bobTable : HTTPReverseProxy Unit :=
  match (newHTTPReverseProxy Unit).register
      (guardedRoute (ascii "example.com") (ascii "bob")
        ⟨ascii "bob", ascii "secret"⟩) with
  | .ok rp => rp
  | .error _ => newHTTPReverseProxy Unit

/-- `GET http://example.com/` with `Proxy-Authorization: Basic Ym9iOg==`. -/
def bobRequest : Request where
  method := ascii "GET"
  host := ascii "example.com"
  urlPath := ascii "/"
  urlHost := ascii "example.com"
  remoteAddr := ascii "192.0.2.1:4000"
  authorization := []
  proxyAuthorization := ascii "Basic Ym9iOg=="

/-- The request reaches the route of `bob` without his password. -/
theorem not_authCovers_bobRequest :
    ¬ ∀ (rp : HTTPReverseProxy Unit) (req : Request),
      AuthCovers asciiToLower rp req := by
  intro hall
  have hserved : bobTable.serveHTTP asciiToLower bobRequest ≠ .unauthorized := by
    decide
  obtain ⟨vr, hvr, hname⟩ :
      ∃ vr, bobTable.routeOf asciiToLower
          (injectRequestInfoToCtx bobRequest) = some vr ∧
        vr.payload.username = ascii "bob" :=
    ⟨_, rfl, by decide⟩
  have hcovered := (hall bobTable bobRequest hserved vr hvr
    (Or.inl (by rw [hname]; decide))).1
  rw [hname] at hcovered
  exact absurd hcovered (by decide)

end Frp
