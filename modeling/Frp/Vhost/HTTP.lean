/-
The HTTP reverse proxy of `pkg/util/vhost/http.go`: the search for the route of
a request, the authorization check, the values stored in the request context,
and the URL host by which the transport reuses connections.
-/
import Frp.Vhost.Routers

namespace Frp

open GoStrings

variable {Conn : Type}

structure RouteConfig (Conn : Type) where
  domain : Bytes
  location : Bytes
  rewriteHost : Bytes
  username : Bytes
  password : Bytes
  headers : List (Bytes × Bytes)
  routeByHTTPUser : Bytes
  createConnFn : Option (Bytes → Except Bytes Conn)

/-- Every route is stored under the triple that its configuration names. -/
def Routers.Keyed (r : Routers (RouteConfig Conn)) : Prop :=
  ∀ domain httpUser, ∀ vr ∈ r.entries domain httpUser,
    vr = ⟨vr.payload.domain, vr.payload.location, vr.payload.routeByHTTPUser,
      vr.payload⟩ ∧
    vr.payload.domain = domain ∧ vr.payload.routeByHTTPUser = httpUser

/-- No two routes of one list share a location. -/
def Routers.Distinct {P : Type} (r : Routers P) : Prop :=
  ∀ domain httpUser, ((r.entries domain httpUser).map Router.location).Nodup

/-- The proxy with its shared route table.  The table is only written through
`Add` and `Del` with the fields of the configuration, so it stays keyed. -/
structure HTTPReverseProxy (Conn : Type) where
  vhostRouter : Routers (RouteConfig Conn)
  keyed : vhostRouter.Keyed
  distinct : vhostRouter.Distinct

theorem Routers.Keyed.add {r next : Routers (RouteConfig Conn)}
    (hkeyed : r.Keyed) (cfg : RouteConfig Conn)
    (hadd : r.add cfg.domain cfg.location cfg.routeByHTTPUser cfg = .ok next) :
    next.Keyed := by
  intro domain httpUser vr hvr
  rw [Routers.entries_add hadd] at hvr
  split at hvr
  · rename_i hsame
    simp only [List.mem_insertionSort, List.mem_append, List.mem_singleton]
      at hvr
    rcases hvr with hold | rfl
    · obtain ⟨heta, hdomain, huser⟩ := hkeyed _ _ vr hold
      exact ⟨heta, hdomain.trans hsame.1.symm, huser.trans hsame.2.symm⟩
    · exact ⟨rfl, hsame.1.symm, hsame.2.symm⟩
  · exact hkeyed _ _ vr hvr

theorem Routers.Distinct.add {P : Type} {r next : Routers P}
    (hdistinct : r.Distinct) {domain location httpUser : Bytes} {payload : P}
    (hadd : r.add domain location httpUser payload = .ok next) :
    next.Distinct := by
  intro domain' httpUser'
  rw [Routers.entries_add hadd]
  split
  · have hfree := (Routers.add_isOk_iff r domain location httpUser payload).mp
      ⟨next, hadd⟩
    have hperm := (List.perm_insertionSort byLocationReverse
      (r.entries domain httpUser ++
        [(⟨domain, location, httpUser, payload⟩ : Router P)])).map
          Router.location
    rw [hperm.nodup_iff, List.map_append, List.map_singleton,
      List.nodup_append]
    refine ⟨hdistinct _ _, List.nodup_singleton _, ?_⟩
    intro old hold new hnew heq
    simp only [List.mem_map] at hold
    obtain ⟨vr, hvr, rfl⟩ := hold
    rw [List.mem_singleton] at hnew
    exact hfree vr hvr (heq.trans hnew)
  · exact hdistinct _ _

theorem Routers.Keyed.del {r : Routers (RouteConfig Conn)} (hkeyed : r.Keyed)
    (domain location httpUser : Bytes) :
    (r.del domain location httpUser).Keyed := by
  intro domain' httpUser' vr hvr
  rw [Routers.entries_del] at hvr
  split at hvr
  · rename_i hsame
    obtain ⟨rfl, rfl⟩ := hsame
    exact hkeyed _ _ vr (List.mem_of_mem_filter hvr)
  · exact hkeyed _ _ vr hvr

theorem Routers.Distinct.del {P : Type} {r : Routers P}
    (hdistinct : r.Distinct) (domain location httpUser : Bytes) :
    (r.del domain location httpUser).Distinct := by
  intro domain' httpUser'
  rw [Routers.entries_del]
  split
  · exact (hdistinct _ _).sublist (List.filter_sublist.map _)
  · exact hdistinct _ _

/-- What the models read of an HTTP request; a header that is absent is empty. -/
structure Request where
  method : Bytes
  host : Bytes
  urlPath : Bytes
  urlHost : Bytes
  remoteAddr : Bytes
  authorization : Bytes
  proxyAuthorization : Bytes
deriving DecidableEq, Repr

/-- The `RouteInfo` values of a request context. -/
structure RouteInfo where
  url : Bytes
  host : Bytes
  urlHost : Bytes
  httpUser : Bytes
  remote : Bytes
deriving DecidableEq, Repr

/-- The fields that `Director` writes to the outgoing request. -/
structure Directed where
  urlScheme : Bytes
  urlHost : Bytes
  host : Bytes
  setHeaders : List (Bytes × Bytes)
deriving DecidableEq, Repr

/-- `ServeHTTP` answers 401, tunnels, or proxies. -/
inductive Served where
  | unauthorized
  | connect (info : RouteInfo)
  | proxied (info : RouteInfo)
deriving DecidableEq, Repr

def Request.basicAuth (req : Request) : Credentials × Bool :=
  if req.authorization = [] then (.none, false)
  else parseBasicAuth req.authorization

def hasPort (host : Bytes) : Bool :=
  let colons := host.count colon
  if colons = 0 then false
  else if colons = 1 then true
  else host.head? == some openBracket &&
    containsSub host [closeBracket, colon]

def stripTrailingDot (host : Bytes) : Bytes :=
  if hasSuffix host [dot] then host.dropLast else host

/-- `CanonicalHost`; the callers drop the error and go on with an empty host. -/
def canonicalHost (toLower : Bytes → Bytes) (host : Bytes) :
    Bytes × Option AddrError :=
  let host := toLower host
  if hasPort host then
    match splitHostPort host with
    | .error err => ([], some err)
    | .ok (host, _) => (stripTrailingDot host, none)
  else (stripTrailingDot host, none)

namespace HTTPReverseProxy

def newHTTPReverseProxy (Conn : Type) : HTTPReverseProxy Conn where
  vhostRouter := Routers.newRouters (RouteConfig Conn)
  keyed := by simp [Routers.Keyed]
  distinct := by simp [Routers.Distinct]

def register (rp : HTTPReverseProxy Conn) (routeCfg : RouteConfig Conn) :
    Except RouterError (HTTPReverseProxy Conn) :=
  match hadd : rp.vhostRouter.add routeCfg.domain routeCfg.location
      routeCfg.routeByHTTPUser routeCfg with
  | .error err => .error err
  | .ok vhostRouter =>
      .ok ⟨vhostRouter, rp.keyed.add _ hadd, rp.distinct.add hadd⟩

def unRegister (rp : HTTPReverseProxy Conn) (routeCfg : RouteConfig Conn) :
    HTTPReverseProxy Conn :=
  ⟨rp.vhostRouter.del routeCfg.domain routeCfg.location
      routeCfg.routeByHTTPUser,
    rp.keyed.del _ _ _, rp.distinct.del _ _ _⟩

/-- The inner `findRouter`: a route for every user matches when there is none
for this one. -/
def findRouter (rp : HTTPReverseProxy Conn)
    (domain location routeByHTTPUser : Bytes) :
    Option (Router (RouteConfig Conn)) :=
  match rp.vhostRouter.get domain location routeByHTTPUser with
  | some vr => some vr
  | none => rp.vhostRouter.get domain location []

/-- The wildcard loop of `getVhost` over the labels that are left. -/
def findWildcard (rp : HTTPReverseProxy Conn)
    (location routeByHTTPUser : Bytes) :
    List Bytes → Option (Router (RouteConfig Conn))
  | [] => none
  | label :: rest =>
      if (label :: rest).length < 3 then none
      else
        match rp.findRouter (joinDot (ascii "*" :: rest)) location
            routeByHTTPUser with
        | some vr => some vr
        | none => rp.findWildcard location routeByHTTPUser rest

def getVhost (rp : HTTPReverseProxy Conn)
    (domain location routeByHTTPUser : Bytes) :
    Option (Router (RouteConfig Conn)) :=
  match rp.findRouter domain location routeByHTTPUser with
  | some vr => some vr
  | none =>
      match rp.findWildcard location routeByHTTPUser (splitDot domain) with
      | some vr => some vr
      | none => rp.findRouter (ascii "*") location routeByHTTPUser

def getRouteConfig (rp : HTTPReverseProxy Conn)
    (domain location routeByHTTPUser : Bytes) : Option (RouteConfig Conn) :=
  (rp.getVhost domain location routeByHTTPUser).map Router.payload

def errNoRouteFound (domain location routeByHTTPUser : Bytes) : Bytes :=
  ascii "no route found: " ++ domain ++ ascii " " ++ location ++ ascii " " ++
    routeByHTTPUser

def createConnection (rp : HTTPReverseProxy Conn)
    (domain location routeByHTTPUser remoteAddr : Bytes) : Except Bytes Conn :=
  match rp.getVhost domain location routeByHTTPUser with
  | some vr =>
      match vr.payload.createConnFn with
      | some fn => fn remoteAddr
      | none => .error (errNoRouteFound domain location routeByHTTPUser)
  | none => .error (errNoRouteFound domain location routeByHTTPUser)

/-- The credentials pass a route that asks for none or for exactly these. -/
def accepts (routeCfg : RouteConfig Conn) (cred : Credentials) : Bool :=
  let checkUser := routeCfg.username
  let checkPasswd := routeCfg.password
  !((checkUser != [] || checkPasswd != []) &&
    (checkUser != cred.user || checkPasswd != cred.passwd))

def checkAuth (rp : HTTPReverseProxy Conn)
    (domain location routeByHTTPUser : Bytes) (cred : Credentials) : Bool :=
  match rp.getVhost domain location routeByHTTPUser with
  | some vr => accepts vr.payload cred
  | none => true

/-- The user of Proxy-Authorization, looked at only when the request line has a
host. -/
def proxyUser (req : Request) : Bytes :=
  if req.urlHost ≠ [] then
    if req.proxyAuthorization ≠ [] then
      (parseBasicAuth req.proxyAuthorization).1.user
    else []
  else []

/-- The user that `injectRequestInfoToCtx` routes by. -/
def routingUser (req : Request) : Bytes :=
  if proxyUser req = [] then req.basicAuth.1.user else proxyUser req

def injectRequestInfoToCtx (req : Request) : RouteInfo where
  url := req.urlPath
  host := req.host
  urlHost := req.urlHost
  httpUser := routingUser req
  remote := req.remoteAddr

section Hosts

variable (toLower : Bytes → Bytes)

/-- The route that the context values of a request lead to. -/
def routeOf (rp : HTTPReverseProxy Conn) (info : RouteInfo) :
    Option (Router (RouteConfig Conn)) :=
  rp.getVhost (canonicalHost toLower info.host).1 info.url info.httpUser

/-- `{domain}.{location}.{routeByHTTPUser}`, the last two in base64. -/
def reuseKey (rc : RouteConfig Conn) : Bytes :=
  rc.domain ++ [dot] ++ Base64.encode rc.location ++ [dot] ++
    Base64.encode rc.routeByHTTPUser

def director (rp : HTTPReverseProxy Conn) (req : Request) : Directed :=
  let info := injectRequestInfoToCtx req
  let oldHost := (canonicalHost toLower info.host).1
  match rp.getRouteConfig oldHost info.url info.httpUser with
  | some rc =>
      { urlScheme := ascii "http"
        urlHost := reuseKey rc
        host := if rc.rewriteHost ≠ [] then rc.rewriteHost else req.host
        setHeaders := rc.headers }
  | none =>
      { urlScheme := ascii "http"
        urlHost := req.host
        host := req.host
        setHeaders := [] }

def dialContext (rp : HTTPReverseProxy Conn) (info : RouteInfo) :
    Except Bytes Conn :=
  let host := (canonicalHost toLower info.host).1
  rp.createConnection host info.url info.httpUser info.remote

/-- `connectHandler` dials as `DialContext` does. -/
def connectHandler (rp : HTTPReverseProxy Conn) (info : RouteInfo) :
    Except Bytes Conn :=
  let domain := (canonicalHost toLower info.host).1
  rp.createConnection domain info.url info.httpUser info.remote

def serveHTTP (rp : HTTPReverseProxy Conn) (req : Request) : Served :=
  let domain := (canonicalHost toLower req.host).1
  let location := req.urlPath
  let cred := req.basicAuth.1
  if rp.checkAuth domain location cred.user cred = false then .unauthorized
  else if req.method = ascii "CONNECT" then
    .connect (injectRequestInfoToCtx req)
  else .proxied (injectRequestInfoToCtx req)

end Hosts

/-- A route found under a domain and user is in the list of that domain for
that user or for every user. -/
theorem mem_entries_of_findRouter {rp : HTTPReverseProxy Conn}
    {domain location routeByHTTPUser : Bytes}
    {vr : Router (RouteConfig Conn)}
    (hfind : rp.findRouter domain location routeByHTTPUser = some vr) :
    vr ∈ rp.vhostRouter.entries domain routeByHTTPUser ∨
      vr ∈ rp.vhostRouter.entries domain [] := by
  unfold findRouter at hfind
  split at hfind
  · rename_i found hget
    rw [Option.some.injEq] at hfind
    exact Or.inl (hfind ▸ Routers.mem_entries_of_get hget)
  · exact Or.inr (Routers.mem_entries_of_get hfind)

theorem mem_entries_of_findWildcard {rp : HTTPReverseProxy Conn}
    {location routeByHTTPUser : Bytes} {labels : List Bytes}
    {vr : Router (RouteConfig Conn)}
    (hfind : rp.findWildcard location routeByHTTPUser labels = some vr) :
    ∃ domain httpUser, vr ∈ rp.vhostRouter.entries domain httpUser := by
  induction labels with
  | nil => simp [findWildcard] at hfind
  | cons label rest ih =>
      unfold findWildcard at hfind
      split at hfind
      · cases hfind
      · split at hfind
        · rename_i found hrouter
          rw [Option.some.injEq] at hfind
          subst hfind
          rcases mem_entries_of_findRouter hrouter with h | h
          · exact ⟨_, _, h⟩
          · exact ⟨_, _, h⟩
        · exact ih hfind

/-- Every route that a request resolves to is registered in the table. -/
theorem mem_entries_of_getVhost {rp : HTTPReverseProxy Conn}
    {domain location routeByHTTPUser : Bytes}
    {vr : Router (RouteConfig Conn)}
    (hget : rp.getVhost domain location routeByHTTPUser = some vr) :
    ∃ domain httpUser, vr ∈ rp.vhostRouter.entries domain httpUser := by
  unfold getVhost at hget
  split at hget
  · rename_i found hrouter
    rw [Option.some.injEq] at hget
    subst hget
    rcases mem_entries_of_findRouter hrouter with h | h
    · exact ⟨_, _, h⟩
    · exact ⟨_, _, h⟩
  · split at hget
    · rename_i found hwildcard
      rw [Option.some.injEq] at hget
      exact hget ▸ mem_entries_of_findWildcard hwildcard
    · rcases mem_entries_of_findRouter hget with h | h
      · exact ⟨_, _, h⟩
      · exact ⟨_, _, h⟩

/-- A table without routes for this user or for every user resolves nothing. -/
theorem getVhost_eq_none {rp : HTTPReverseProxy Conn}
    {routeByHTTPUser : Bytes}
    (huser : ∀ domain, rp.vhostRouter.entries domain routeByHTTPUser = [])
    (hall : ∀ domain, rp.vhostRouter.entries domain [] = [])
    (domain location : Bytes) :
    rp.getVhost domain location routeByHTTPUser = none := by
  have hrouter : ∀ name,
      rp.findRouter name location routeByHTTPUser = none := by
    intro name
    rw [findRouter, Routers.get_eq_none_of_entries (huser name),
      Routers.get_eq_none_of_entries (hall name)]
  have hwildcard : ∀ labels,
      rp.findWildcard location routeByHTTPUser labels = none := by
    intro labels
    induction labels with
    | nil => rfl
    | cons label rest ih =>
        unfold findWildcard
        rw [hrouter, ih]
        split <;> rfl
  rw [getVhost, hrouter, hwildcard, hrouter]

/-- `DialContext` and `connectHandler` connect through the route that the
context leads to. -/
theorem dialContext_eq (toLower : Bytes → Bytes) (rp : HTTPReverseProxy Conn)
    (info : RouteInfo) {vr : Router (RouteConfig Conn)}
    {fn : Bytes → Except Bytes Conn}
    (hroute : rp.routeOf toLower info = some vr)
    (hfn : vr.payload.createConnFn = some fn) :
    rp.dialContext toLower info = fn info.remote ∧
      rp.connectHandler toLower info = fn info.remote := by
  unfold routeOf at hroute
  simp [dialContext, connectHandler, createConnection, hroute, hfn]

end HTTPReverseProxy

end Frp
