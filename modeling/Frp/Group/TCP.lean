/-
The two kinds of group with listeners.  A TCP group takes a port of the port
manager, `server/group/tcp.go`; a tcpmux group takes a route of the muxer of
`pkg/util/vhost/vhost.go`, `server/group/tcpmux.go`.
-/
import Frp.Group.ListenInv

namespace Frp

open GoStrings

/-- An order in which to range over each set of ports. -/
structure MapRange where
  list : Finset Int → List Int
  nodup : ∀ ports, (list ports).Nodup
  toFinset : ∀ ports, (list ports).toFinset = ports

/-- The ascending order. -/
def MapRange.ascending : MapRange where
  list ports := ports.sort (· ≤ ·)
  nodup ports := ports.sort_nodup (· ≤ ·)
  toFinset ports := ports.sort_toFinset (· ≤ ·)

/-- The port manager of the server and what the system answers; `held` are the
ports of the proxies that are in no group.  A PortCtx is known by number. -/
structure TCPPorts where
  pm : PortManager
  clock : Nat
  made : Nat
  isPortAvailable : Int → Bool
  order : MapRange
  answer : String → Int → Except String Int
  held : List Int
  fresh : ∀ port ctx, pm.usedPorts port = some ctx → ctx < made
  disjoint : pm.Disjoint

namespace TCPPorts

/-- The ports of `NewManager`, of which nothing has been acquired yet. -/
def newPorts (allowPorts : Finset Int) (isPortAvailable : Int → Bool)
    (order : MapRange) (answer : String → Int → Except String Int) :
    TCPPorts where
  pm := .newManager allowPorts
  clock := 0
  made := 0
  isPortAvailable := isPortAvailable
  order := order
  answer := answer
  held := []
  fresh port ctx hused := by cases hused
  disjoint := PortManager.newManager_disjoint allowPorts

theorem mem_order (env : TCPPorts) :
    ∀ port ∈ env.order.list env.pm.freePorts, port ∈ env.pm.freePorts := by
  intro port hport
  rw [← env.order.toFinset env.pm.freePorts]
  exact List.mem_toFinset.mpr hport

/-- `Acquire` with the system as it is. -/
def acquired (env : TCPPorts) (name : String) (port : Int) :
    PortManager × Except PortError Int :=
  env.pm.acquire env.made name env.clock port env.isPortAvailable
    (env.order.list env.pm.freePorts)

theorem acquired_cases (env : TCPPorts) (name : String) (port : Int) :
    (∃ realPort, env.acquired name port =
        (env.pm.take env.made name env.clock realPort, .ok realPort) ∧
      (realPort ∈ env.pm.freePorts ∨
        env.pm.reservedPort name port env.isPortAvailable = some realPort)) ∨
    (∃ err, env.acquired name port =
        (env.pm.take env.made name env.clock 0, .error err) ∧
      0 ∈ env.pm.freePorts) ∨
    (∃ err, env.acquired name port = (env.pm, .error err)) :=
  PortManager.acquire_cases env.pm env.made name env.clock port
    env.isPortAvailable _ env.mem_order

theorem fresh_take (env : TCPPorts) (name : String) (taken port : Int)
    {ctx : Nat}
    (hused : (env.pm.take env.made name env.clock taken).usedPorts port =
      some ctx) : ctx < env.made + 1 := by
  by_cases hsame : port = taken
  · simp only [PortManager.take, hsame, Function.update_self,
      Option.some.injEq] at hused
    omega
  · simp only [PortManager.take, Function.update_of_ne hsame] at hused
    exact Nat.lt_succ_of_lt (env.fresh port ctx hused)

theorem fresh_acquired (env : TCPPorts) (name : String) (asked port : Int)
    {ctx : Nat}
    (hused : (env.acquired name asked).1.usedPorts port = some ctx) :
    ctx < env.made + 1 := by
  rcases env.acquired_cases name asked with
    ⟨realPort, hresult, _⟩ | ⟨err, hresult, _⟩ | ⟨err, hresult⟩
  · rw [hresult] at hused
    exact env.fresh_take name realPort port hused
  · rw [hresult] at hused
    exact env.fresh_take name 0 port hused
  · rw [hresult] at hused
    exact Nat.lt_succ_of_lt (env.fresh port ctx hused)

theorem disjoint_acquired (env : TCPPorts) (name : String) (port : Int) :
    (env.acquired name port).1.Disjoint := by
  rcases env.acquired_cases name port with
    ⟨realPort, hresult, _⟩ | ⟨err, hresult, _⟩ | ⟨err, hresult⟩
  · rw [hresult]
    exact env.disjoint.take env.made name env.clock realPort
  · rw [hresult]
    exact env.disjoint.take env.made name env.clock 0
  · rw [hresult]
    exact env.disjoint

def acquire (env : TCPPorts) (name : String) (port : Int) :
    TCPPorts × Except PortError Int :=
  ({ env with
    pm := (env.acquired name port).1
    made := env.made + 1
    fresh := fun _ _ hused => env.fresh_acquired name port _ hused
    disjoint := env.disjoint_acquired name port }, (env.acquired name port).2)

def release (env : TCPPorts) (port : Int) : TCPPorts :=
  { env with
    pm := env.pm.release env.clock port
    fresh := by
      intro other ctx hused
      rw [PortManager.release_usedPorts, Function.update_apply] at hused
      split at hused
      · cases hused
      · exact env.fresh other ctx hused
    disjoint := env.disjoint.release env.clock port }

/-- `net.Listen`: the system chooses a port for port zero. -/
def netListen (env : TCPPorts) (addr : String) (port : Int) :
    Except String TCPAddr :=
  (env.answer addr port).map fun chosen =>
    ⟨addr, if port = 0 then chosen else port⟩

@[simp] theorem acquire_pm (env : TCPPorts) (name : String) (port : Int) :
    (env.acquire name port).1.pm = (env.acquired name port).1 := rfl

@[simp] theorem acquire_held (env : TCPPorts) (name : String) (port : Int) :
    (env.acquire name port).1.held = env.held := rfl

@[simp] theorem release_pm (env : TCPPorts) (port : Int) :
    (env.release port).pm = env.pm.release env.clock port := rfl

/-- What else happens: the system changes its answers, time goes by, and proxies
that are in no group acquire ports and release those that they have. -/
inductive Other where
  | system (isPortAvailable : Int → Bool) (order : MapRange)
      (answer : String → Int → Except String Int)
  | elapse (seconds : Nat)
  | acquire (name : String) (port : Int)
  | release (port : Int)
  | clean

def other (env : TCPPorts) : Other → Option TCPPorts
  | .system isPortAvailable order answer =>
      some { env with
        isPortAvailable := isPortAvailable
        order := order
        answer := answer }
  | .elapse seconds => some { env with clock := env.clock + seconds }
  | .acquire name port =>
      match env.acquire name port with
      | (env, .error _) => some env
      | (env, .ok realPort) =>
          some { env with held := realPort :: env.held }
  | .release port =>
      if port ∈ env.held then
        some { env.release port with held := env.held.erase port }
      else none
  | .clean =>
      some { env with
        pm := env.pm.cleanReservedPorts env.clock
        fresh := env.fresh
        disjoint := env.disjoint }

end TCPPorts

structure TCPRequest where
  proxyName : String
  addr : String
  port : Int
deriving DecidableEq, Repr

/-- The fields of `TCPGroup` that its first member sets, `lnAddr` the address of
`tcpLn`. -/
structure TCPReal where
  addr : String
  port : Int
  realPort : Int
  lnAddr : TCPAddr
deriving DecidableEq, Repr, Inhabited

abbrev TCPGroup := ListenGroup TCPReal

abbrev TCPGroupCtl := ListenCtl TCPReal TCPPorts

namespace TCPGroup

/-- The first member acquires a port, and listens on the one it asked for. -/
def realListen (env : TCPPorts) (req : TCPRequest) :
    TCPPorts × Except ListenError TCPReal :=
  match env.acquire req.proxyName req.port with
  | (env, .error err) => (env, .error (.port err))
  | (env, .ok realPort) =>
      match env.netListen req.addr req.port with
      | .error text => (env, .error (.netListen text))
      | .ok lnAddr => (env, .ok ⟨req.addr, req.port, realPort, lnAddr⟩)

theorem realListen_of_error {env : TCPPorts} {req : TCPRequest}
    {err : PortError}
    (hacquired : (env.acquired req.proxyName req.port).2 = .error err) :
    realListen env req =
      ((env.acquire req.proxyName req.port).1, .error (.port err)) := by
  have hacquire : env.acquire req.proxyName req.port =
      ((env.acquire req.proxyName req.port).1, .error err) :=
    Prod.ext rfl hacquired
  rw [realListen, hacquire]

theorem realListen_of_ok {env : TCPPorts} {req : TCPRequest} {realPort : Int}
    (hacquired : (env.acquired req.proxyName req.port).2 = .ok realPort) :
    realListen env req = ((env.acquire req.proxyName req.port).1,
      match env.netListen req.addr req.port with
      | .error text => .error (.netListen text)
      | .ok lnAddr => .ok ⟨req.addr, req.port, realPort, lnAddr⟩) := by
  have hacquire : env.acquire req.proxyName req.port =
      ((env.acquire req.proxyName req.port).1, .ok realPort) :=
    Prod.ext rfl hacquired
  have hnet : (env.acquire req.proxyName req.port).1.netListen req.addr
      req.port = env.netListen req.addr req.port := rfl
  rw [realListen, hacquire]
  simp only [hnet]
  cases env.netListen req.addr req.port <;> rfl

theorem realListen_eq_error {env env' : TCPPorts} {req : TCPRequest}
    {err : ListenError} (hlisten : realListen env req = (env', .error err)) :
    env' = (env.acquire req.proxyName req.port).1 := by
  cases hacquired : (env.acquired req.proxyName req.port).2 with
  | error text =>
      rw [realListen_of_error hacquired] at hlisten
      exact (congrArg Prod.fst hlisten).symm
  | ok realPort =>
      rw [realListen_of_ok hacquired] at hlisten
      exact (congrArg Prod.fst hlisten).symm

theorem realListen_eq_ok {env env' : TCPPorts} {req : TCPRequest}
    {real : TCPReal} (hlisten : realListen env req = (env', .ok real)) :
    env' = (env.acquire req.proxyName req.port).1 ∧
      (env.acquired req.proxyName req.port).2 = .ok real.realPort ∧
      env.netListen req.addr req.port = .ok real.lnAddr := by
  cases hacquired : (env.acquired req.proxyName req.port).2 with
  | error text =>
      rw [realListen_of_error hacquired] at hlisten
      cases congrArg Prod.snd hlisten
  | ok realPort =>
      rw [realListen_of_ok hacquired] at hlisten
      have hreal := congrArg Prod.snd hlisten
      cases hnet : env.netListen req.addr req.port with
      | error text =>
          rw [hnet] at hreal
          cases hreal
      | ok lnAddr =>
          rw [hnet] at hreal
          cases hreal
          exact ⟨(congrArg Prod.fst hlisten).symm, rfl, rfl⟩

def admits (g : TCPGroup) (group groupKey : String) (req : TCPRequest) :
    Except GroupError Unit :=
  if g.group ≠ group ∨ g.real.addr ≠ req.addr then .error .paramsInvalid
  else if g.real.port ≠ req.port then .error .differentPort
  else if g.groupKey ≠ groupKey then .error .authFailed
  else .ok ()

theorem group_of_admits {g : TCPGroup} {group groupKey : String}
    {req : TCPRequest} (hadmits : admits g group groupKey req = .ok ()) :
    g.group = group := by
  by_contra hne
  simp [admits, hne] at hadmits

def kind : GroupKind TCPRequest TCPReal TCPPorts TCPPorts.Other where
  dispatch _ := .ok ()
  realListen := realListen
  addr real := some real.lnAddr
  admits := admits
  group_of_admits _ _ _ _ hadmits := group_of_admits hadmits
  realClose env real := env.release real.realPort
  other := TCPPorts.other

end TCPGroup

namespace TCPGroupCtl

/-- `TCPGroup.Listen` of the group `i`: the listener and the real port. -/
def listen (ctl : TCPGroupCtl) (i : Nat)
    (proxyName group groupKey addr : String) (port : Int) :
    TCPGroupCtl × Except ListenError (Nat × Int) :=
  let result := ListenCtl.listen TCPGroup.kind ctl i group groupKey
    ⟨proxyName, addr, port⟩
  (result.1, result.2.map fun ln => (ln, (result.1.heap i).real.realPort))

/-- `TCPGroup.CloseListener` up to the call of `RemoveGroup`. -/
def closeListener (ctl : TCPGroupCtl) (ln : Nat) : TCPGroupCtl × CloseEnd :=
  ListenCtl.closeListener TCPGroup.kind ctl ln

end TCPGroupCtl

/-- The listener of a muxer for one route. -/
structure MuxListener where
  name : Bytes
  location : Bytes
  routeByHTTPUser : Bytes
  rewriteHost : Bytes
  userName : Bytes
  passWord : Bytes
deriving DecidableEq, Repr, Inhabited

/-- The muxer by its `registryRouter`. -/
abbrev Muxer := Routers MuxListener

namespace Muxer

def listen (v : Muxer) (cfg : RouteConfig RealConn) :
    Except RouterError (Muxer × MuxListener) :=
  let l : MuxListener :=
    ⟨cfg.domain, cfg.location, cfg.routeByHTTPUser, cfg.rewriteHost,
      cfg.username, cfg.password⟩
  (v.add cfg.domain cfg.location cfg.routeByHTTPUser l).map fun v => (v, l)

/-- `Close` of the listener. -/
def close (v : Muxer) (l : MuxListener) : Muxer :=
  v.del l.name l.location l.routeByHTTPUser

/-- Proxies that are in no group listen and close too. -/
inductive Other where
  | listen (cfg : RouteConfig RealConn)
  | close (l : MuxListener)

def other (v : Muxer) : Other → Option Muxer
  | .listen cfg =>
      match v.listen cfg with
      | .error _ => some v
      | .ok (v, _) => some v
  | .close l => some (v.close l)

end Muxer

structure TCPMuxRequest where
  multiplexer : String
  routeConfig : RouteConfig RealConn

/-- The fields of `TCPMuxGroup` that its first member sets. -/
structure TCPMuxReal where
  domain : Bytes
  routeByHTTPUser : Bytes
  tcpMuxLn : MuxListener
deriving DecidableEq, Repr, Inhabited

abbrev TCPMuxGroup := ListenGroup TCPMuxReal

abbrev TCPMuxGroupCtl := ListenCtl TCPMuxReal Muxer

namespace TCPMuxGroup

def httpConnectTCPMultiplexer : String := "httpconnect"

/-- The switch of the controller, between its section and that of the group. -/
def dispatch (req : TCPMuxRequest) : Except ListenError Unit :=
  if req.multiplexer = httpConnectTCPMultiplexer then .ok ()
  else .error (.unknownMultiplexer req.multiplexer)

def realListen (v : Muxer) (req : TCPMuxRequest) :
    Muxer × Except ListenError TCPMuxReal :=
  match v.listen req.routeConfig with
  | .error err => (v, .error (.router err))
  | .ok (v, tcpMuxLn) =>
      (v, .ok ⟨req.routeConfig.domain, req.routeConfig.routeByHTTPUser,
        tcpMuxLn⟩)

def admits (g : TCPMuxGroup) (group groupKey : String) (req : TCPMuxRequest) :
    Except GroupError Unit :=
  if g.group ≠ group ∨ g.real.domain ≠ req.routeConfig.domain ∨
      g.real.routeByHTTPUser ≠ req.routeConfig.routeByHTTPUser then
    .error .paramsInvalid
  else if g.groupKey ≠ groupKey then .error .authFailed
  else .ok ()

theorem group_of_admits {g : TCPMuxGroup} {group groupKey : String}
    {req : TCPMuxRequest} (hadmits : admits g group groupKey req = .ok ()) :
    g.group = group := by
  by_contra hne
  simp [admits, hne] at hadmits

def kind : GroupKind TCPMuxRequest TCPMuxReal Muxer Muxer.Other where
  dispatch := dispatch
  realListen := realListen
  addr _ := none
  admits := admits
  group_of_admits _ _ _ _ hadmits := group_of_admits hadmits
  realClose v real := v.close real.tcpMuxLn
  other := Muxer.other

end TCPMuxGroup

end Frp
