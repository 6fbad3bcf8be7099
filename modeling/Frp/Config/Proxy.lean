/-
The proxy configurations of `pkg/config/proxy.go` and how they are carried by a
`NewProxy` message of `pkg/msg/msg.go`: every proxy type has its own encoder and
decoder over one flat message, and its own check on frps.
-/
import Frp.Lib.GoStrings

namespace Frp

open GoStrings

/-- A slice of strings; `none` is nil. -/
abbrev Strings := Option (List Bytes)

def Strings.elems (slice : Strings) : List Bytes := slice.getD []

/-- The entries of a map in the order of their keys, so that equal maps have
equal entries. -/
structure MapEntries where
  list : List (Bytes × Bytes)
  sorted : list.Pairwise fun left right => left.1 < right.1
deriving DecidableEq

def MapEntries.none : MapEntries := ⟨[], .nil⟩

/-- A map from strings to strings; `none` is nil. -/
abbrev StringMap := Option MapEntries

def StringMap.entries (strMap : StringMap) : MapEntries := strMap.getD .none

namespace consts

def tcpProxy : Bytes := ascii "tcp"

def udpProxy : Bytes := ascii "udp"

def tcpMuxProxy : Bytes := ascii "tcpmux"

def httpProxy : Bytes := ascii "http"

def httpsProxy : Bytes := ascii "https"

def stcpProxy : Bytes := ascii "stcp"

def xtcpProxy : Bytes := ascii "xtcp"

def sudpProxy : Bytes := ascii "sudp"

def httpConnectTCPMultiplexer : Bytes := ascii "httpconnect"

end consts

structure NewProxy where
  proxyName : Bytes
  proxyType : Bytes
  useEncryption : Bool
  useCompression : Bool
  group : Bytes
  groupKey : Bytes
  metas : StringMap
  remotePort : Int
  customDomains : Strings
  subDomain : Bytes
  locations : Strings
  httpUser : Bytes
  httpPwd : Bytes
  hostHeaderRewrite : Bytes
  headers : StringMap
  routeByHTTPUser : Bytes
  sk : Bytes
  multiplexer : Bytes
deriving DecidableEq

/-- The message before any field is set. -/
def NewProxy.empty : NewProxy where
  proxyName := []
  proxyType := []
  useEncryption := false
  useCompression := false
  group := []
  groupKey := []
  metas := none
  remotePort := 0
  customDomains := none
  subDomain := []
  locations := none
  httpUser := []
  httpPwd := []
  hostHeaderRewrite := []
  headers := none
  routeByHTTPUser := []
  sk := []
  multiplexer := []

/-- The fields of `ServerCommonConf` that the checks read. -/
structure ServerCommonConf where
  vhostHTTPPort : Int
  vhostHTTPSPort : Int
  tcpMuxHTTPConnectPort : Int
  subDomainHost : Bytes
deriving DecidableEq, Repr

structure BandwidthQuantity where
  s : Bytes
  i : Int
deriving DecidableEq, Repr

structure LocalSvrConf where
  localIP : Bytes
  localPort : Int
  plugin : Bytes
  pluginParams : StringMap
deriving DecidableEq

structure HealthCheckConf where
  healthCheckType : Bytes
  healthCheckTimeoutS : Int
  healthCheckMaxFailed : Int
  healthCheckIntervalS : Int
  healthCheckURL : Bytes
  healthCheckAddr : Bytes
deriving DecidableEq, Repr

structure BaseProxyConf extends LocalSvrConf, HealthCheckConf where
  proxyName : Bytes
  proxyType : Bytes
  useEncryption : Bool
  useCompression : Bool
  group : Bytes
  groupKey : Bytes
  proxyProtocolVersion : Bytes
  bandwidthLimit : BandwidthQuantity
  metas : StringMap
deriving DecidableEq

structure DomainConf where
  customDomains : Strings
  subDomain : Bytes
deriving DecidableEq, Repr

structure TCPProxyConf extends BaseProxyConf where
  remotePort : Int
deriving DecidableEq

structure TCPMuxProxyConf extends BaseProxyConf, DomainConf where
  routeByHTTPUser : Bytes
  multiplexer : Bytes
deriving DecidableEq

structure UDPProxyConf extends BaseProxyConf where
  remotePort : Int
deriving DecidableEq

structure HTTPProxyConf extends BaseProxyConf, DomainConf where
  locations : Strings
  httpUser : Bytes
  httpPwd : Bytes
  hostHeaderRewrite : Bytes
  headers : StringMap
  routeByHTTPUser : Bytes
deriving DecidableEq

structure HTTPSProxyConf extends BaseProxyConf, DomainConf
deriving DecidableEq

structure STCPProxyConf extends BaseProxyConf where
  role : Bytes
  sk : Bytes
deriving DecidableEq

structure XTCPProxyConf extends BaseProxyConf where
  role : Bytes
  sk : Bytes
deriving DecidableEq

structure SUDPProxyConf extends BaseProxyConf where
  role : Bytes
  sk : Bytes
deriving DecidableEq

inductive ProxyConf where
  | tcp (cfg : TCPProxyConf)
  | tcpMux (cfg : TCPMuxProxyConf)
  | udp (cfg : UDPProxyConf)
  | http (cfg : HTTPProxyConf)
  | https (cfg : HTTPSProxyConf)
  | stcp (cfg : STCPProxyConf)
  | xtcp (cfg : XTCPProxyConf)
  | sudp (cfg : SUDPProxyConf)
deriving DecidableEq

def defaultBaseProxyConf (proxyType : Bytes) : BaseProxyConf where
  proxyName := []
  proxyType := proxyType
  useEncryption := false
  useCompression := false
  group := []
  groupKey := []
  proxyProtocolVersion := []
  bandwidthLimit := ⟨[], 0⟩
  metas := none
  localIP := ascii "127.0.0.1"
  localPort := 0
  plugin := []
  pluginParams := none
  healthCheckType := []
  healthCheckTimeoutS := 0
  healthCheckMaxFailed := 0
  healthCheckIntervalS := 0
  healthCheckURL := []
  healthCheckAddr := []

def defaultDomainConf : DomainConf := ⟨none, []⟩

def defaultProxyConf (proxyType : Bytes) : Option ProxyConf :=
  let base := defaultBaseProxyConf proxyType
  if proxyType = consts.tcpProxy then some (.tcp ⟨base, 0⟩)
  else if proxyType = consts.tcpMuxProxy then
    some (.tcpMux ⟨base, defaultDomainConf, [], []⟩)
  else if proxyType = consts.udpProxy then some (.udp ⟨base, 0⟩)
  else if proxyType = consts.httpProxy then
    some (.http ⟨base, defaultDomainConf, none, [], [], [], none, []⟩)
  else if proxyType = consts.httpsProxy then
    some (.https ⟨base, defaultDomainConf⟩)
  else if proxyType = consts.stcpProxy then
    some (.stcp ⟨base, ascii "server", []⟩)
  else if proxyType = consts.xtcpProxy then
    some (.xtcp ⟨base, ascii "server", []⟩)
  else if proxyType = consts.sudpProxy then
    some (.sudp ⟨base, ascii "server", []⟩)
  else none

namespace BaseProxyConf

def marshalToMsg (cfg : BaseProxyConf) (pMsg : NewProxy) : NewProxy :=
  { pMsg with
    proxyName := cfg.proxyName
    proxyType := cfg.proxyType
    useEncryption := cfg.useEncryption
    useCompression := cfg.useCompression
    group := cfg.group
    groupKey := cfg.groupKey
    metas := cfg.metas }

def unmarshalFromMsg (cfg : BaseProxyConf) (pMsg : NewProxy) :
    BaseProxyConf :=
  { cfg with
    proxyName := pMsg.proxyName
    proxyType := pMsg.proxyType
    useEncryption := pMsg.useEncryption
    useCompression := pMsg.useCompression
    group := pMsg.group
    groupKey := pMsg.groupKey
    metas := pMsg.metas }

end BaseProxyConf

namespace DomainConf

def check (cfg : DomainConf) : Except Bytes Unit :=
  if cfg.customDomains.elems = [] ∧ cfg.subDomain = [] then
    .error (ascii "custom_domains and subdomain should set at least one of them")
  else .ok ()

/-- A custom domain must not be one of the subdomains that frps hands out. -/
def checkCustomDomain (serverCfg : ServerCommonConf) (domain : Bytes) :
    Except Bytes Unit :=
  if serverCfg.subDomainHost ≠ [] ∧
      (splitDot serverCfg.subDomainHost).length < (splitDot domain).length ∧
      containsSub domain serverCfg.subDomainHost then
    .error (ascii "custom domain [" ++ domain ++
      ascii "] should not belong to subdomain_host [" ++
      serverCfg.subDomainHost ++ ascii "]")
  else .ok ()

def checkSubDomain (serverCfg : ServerCommonConf) (subDomain : Bytes) :
    Except Bytes Unit :=
  if subDomain = [] then .ok ()
  else if serverCfg.subDomainHost = [] then
    .error (ascii ("subdomain is not supported because this feature is not " ++
      "enabled in remote frps"))
  else if containsSub subDomain (ascii ".") ∨
      containsSub subDomain (ascii "*") then
    .error (ascii "'.' and '*' is not supported in subdomain")
  else .ok ()

def checkForSvr (cfg : DomainConf) (serverCfg : ServerCommonConf) :
    Except Bytes Unit := do
  cfg.check
  cfg.customDomains.elems.forM (checkCustomDomain serverCfg)
  checkSubDomain serverCfg cfg.subDomain

/-- The check as the three types with domains make it. -/
def checkForProxy (cfg : DomainConf) (proxyName : Bytes)
    (serverCfg : ServerCommonConf) : Except Bytes Unit :=
  (cfg.checkForSvr serverCfg).mapError fun err =>
    ascii "proxy [" ++ proxyName ++ ascii "] domain conf check error: " ++ err

end DomainConf

namespace TCPProxyConf

def unmarshalFromMsg (cfg : TCPProxyConf) (pMsg : NewProxy) : TCPProxyConf :=
  { cfg with
    toBaseProxyConf := cfg.toBaseProxyConf.unmarshalFromMsg pMsg
    remotePort := pMsg.remotePort }

def marshalToMsg (cfg : TCPProxyConf) (pMsg : NewProxy) : NewProxy :=
  { cfg.toBaseProxyConf.marshalToMsg pMsg with remotePort := cfg.remotePort }

def checkForSvr (_cfg : TCPProxyConf) (_serverCfg : ServerCommonConf) :
    Except Bytes Unit := .ok ()

end TCPProxyConf

namespace TCPMuxProxyConf

def unmarshalFromMsg (cfg : TCPMuxProxyConf) (pMsg : NewProxy) :
    TCPMuxProxyConf :=
  { cfg with
    toBaseProxyConf := cfg.toBaseProxyConf.unmarshalFromMsg pMsg
    customDomains := pMsg.customDomains
    subDomain := pMsg.subDomain
    multiplexer := pMsg.multiplexer
    routeByHTTPUser := pMsg.routeByHTTPUser }

def marshalToMsg (cfg : TCPMuxProxyConf) (pMsg : NewProxy) : NewProxy :=
  { cfg.toBaseProxyConf.marshalToMsg pMsg with
    customDomains := cfg.customDomains
    subDomain := cfg.subDomain
    multiplexer := cfg.multiplexer
    routeByHTTPUser := cfg.routeByHTTPUser }

def checkForSvr (cfg : TCPMuxProxyConf) (serverCfg : ServerCommonConf) :
    Except Bytes Unit :=
  if cfg.multiplexer ≠ consts.httpConnectTCPMultiplexer then
    .error (ascii "proxy [" ++ cfg.proxyName ++
      ascii "] incorrect multiplexer [" ++ cfg.multiplexer ++ ascii "]")
  else if cfg.multiplexer = consts.httpConnectTCPMultiplexer ∧
      serverCfg.tcpMuxHTTPConnectPort = 0 then
    .error (ascii "proxy [" ++ cfg.proxyName ++ ascii ("] type [tcpmux] with " ++
      "multiplexer [httpconnect] requires tcpmux_httpconnect_port configuration"))
  else cfg.toDomainConf.checkForProxy cfg.proxyName serverCfg

end TCPMuxProxyConf

namespace UDPProxyConf

def unmarshalFromMsg (cfg : UDPProxyConf) (pMsg : NewProxy) : UDPProxyConf :=
  { cfg with
    toBaseProxyConf := cfg.toBaseProxyConf.unmarshalFromMsg pMsg
    remotePort := pMsg.remotePort }

def marshalToMsg (cfg : UDPProxyConf) (pMsg : NewProxy) : NewProxy :=
  { cfg.toBaseProxyConf.marshalToMsg pMsg with remotePort := cfg.remotePort }

def checkForSvr (_cfg : UDPProxyConf) (_serverCfg : ServerCommonConf) :
    Except Bytes Unit := .ok ()

end UDPProxyConf

namespace HTTPProxyConf

def unmarshalFromMsg (cfg : HTTPProxyConf) (pMsg : NewProxy) :
    HTTPProxyConf :=
  { cfg with
    toBaseProxyConf := cfg.toBaseProxyConf.unmarshalFromMsg pMsg
    customDomains := pMsg.customDomains
    subDomain := pMsg.subDomain
    locations := pMsg.locations
    hostHeaderRewrite := pMsg.hostHeaderRewrite
    httpUser := pMsg.httpUser
    httpPwd := pMsg.httpPwd
    headers := pMsg.headers
    routeByHTTPUser := pMsg.routeByHTTPUser }

def marshalToMsg (cfg : HTTPProxyConf) (pMsg : NewProxy) : NewProxy :=
  { cfg.toBaseProxyConf.marshalToMsg pMsg with
    customDomains := cfg.customDomains
    subDomain := cfg.subDomain
    locations := cfg.locations
    hostHeaderRewrite := cfg.hostHeaderRewrite
    httpUser := cfg.httpUser
    httpPwd := cfg.httpPwd
    headers := cfg.headers
    routeByHTTPUser := cfg.routeByHTTPUser }

def checkForSvr (cfg : HTTPProxyConf) (serverCfg : ServerCommonConf) :
    Except Bytes Unit :=
  if serverCfg.vhostHTTPPort = 0 then
    .error (ascii "type [http] not support when vhost_http_port is not set")
  else cfg.toDomainConf.checkForProxy cfg.proxyName serverCfg

end HTTPProxyConf

namespace HTTPSProxyConf

def unmarshalFromMsg (cfg : HTTPSProxyConf) (pMsg : NewProxy) :
    HTTPSProxyConf :=
  { cfg with
    toBaseProxyConf := cfg.toBaseProxyConf.unmarshalFromMsg pMsg
    customDomains := pMsg.customDomains
    subDomain := pMsg.subDomain }

def marshalToMsg (cfg : HTTPSProxyConf) (pMsg : NewProxy) : NewProxy :=
  { cfg.toBaseProxyConf.marshalToMsg pMsg with
    customDomains := cfg.customDomains
    subDomain := cfg.subDomain }

def checkForSvr (cfg : HTTPSProxyConf) (serverCfg : ServerCommonConf) :
    Except Bytes Unit :=
  if serverCfg.vhostHTTPSPort = 0 then
    .error (ascii "type [https] not support when vhost_https_port is not set")
  else cfg.toDomainConf.checkForProxy cfg.proxyName serverCfg

end HTTPSProxyConf

namespace STCPProxyConf

/-- Only for role server. -/
def unmarshalFromMsg (cfg : STCPProxyConf) (pMsg : NewProxy) :
    STCPProxyConf :=
  { cfg with
    toBaseProxyConf := cfg.toBaseProxyConf.unmarshalFromMsg pMsg
    sk := pMsg.sk }

def marshalToMsg (cfg : STCPProxyConf) (pMsg : NewProxy) : NewProxy :=
  { cfg.toBaseProxyConf.marshalToMsg pMsg with sk := cfg.sk }

def checkForSvr (_cfg : STCPProxyConf) (_serverCfg : ServerCommonConf) :
    Except Bytes Unit := .ok ()

end STCPProxyConf

namespace XTCPProxyConf

/-- Only for role server. -/
def unmarshalFromMsg (cfg : XTCPProxyConf) (pMsg : NewProxy) :
    XTCPProxyConf :=
  { cfg with
    toBaseProxyConf := cfg.toBaseProxyConf.unmarshalFromMsg pMsg
    sk := pMsg.sk }

def marshalToMsg (cfg : XTCPProxyConf) (pMsg : NewProxy) : NewProxy :=
  { cfg.toBaseProxyConf.marshalToMsg pMsg with sk := cfg.sk }

def checkForSvr (_cfg : XTCPProxyConf) (_serverCfg : ServerCommonConf) :
    Except Bytes Unit := .ok ()

end XTCPProxyConf

namespace SUDPProxyConf

/-- Only for role server. -/
def unmarshalFromMsg (cfg : SUDPProxyConf) (pMsg : NewProxy) :
    SUDPProxyConf :=
  { cfg with
    toBaseProxyConf := cfg.toBaseProxyConf.unmarshalFromMsg pMsg
    sk := pMsg.sk }

def marshalToMsg (cfg : SUDPProxyConf) (pMsg : NewProxy) : NewProxy :=
  { cfg.toBaseProxyConf.marshalToMsg pMsg with sk := cfg.sk }

def checkForSvr (_cfg : SUDPProxyConf) (_serverCfg : ServerCommonConf) :
    Except Bytes Unit := .ok ()

end SUDPProxyConf

namespace ProxyConf

def getBaseInfo : ProxyConf → BaseProxyConf
  | .tcp cfg => cfg.toBaseProxyConf
  | .tcpMux cfg => cfg.toBaseProxyConf
  | .udp cfg => cfg.toBaseProxyConf
  | .http cfg => cfg.toBaseProxyConf
  | .https cfg => cfg.toBaseProxyConf
  | .stcp cfg => cfg.toBaseProxyConf
  | .xtcp cfg => cfg.toBaseProxyConf
  | .sudp cfg => cfg.toBaseProxyConf

def unmarshalFromMsg (conf : ProxyConf) (pMsg : NewProxy) : ProxyConf :=
  match conf with
  | .tcp cfg => .tcp (cfg.unmarshalFromMsg pMsg)
  | .tcpMux cfg => .tcpMux (cfg.unmarshalFromMsg pMsg)
  | .udp cfg => .udp (cfg.unmarshalFromMsg pMsg)
  | .http cfg => .http (cfg.unmarshalFromMsg pMsg)
  | .https cfg => .https (cfg.unmarshalFromMsg pMsg)
  | .stcp cfg => .stcp (cfg.unmarshalFromMsg pMsg)
  | .xtcp cfg => .xtcp (cfg.unmarshalFromMsg pMsg)
  | .sudp cfg => .sudp (cfg.unmarshalFromMsg pMsg)

def marshalToMsg (conf : ProxyConf) (pMsg : NewProxy) : NewProxy :=
  match conf with
  | .tcp cfg => cfg.marshalToMsg pMsg
  | .tcpMux cfg => cfg.marshalToMsg pMsg
  | .udp cfg => cfg.marshalToMsg pMsg
  | .http cfg => cfg.marshalToMsg pMsg
  | .https cfg => cfg.marshalToMsg pMsg
  | .stcp cfg => cfg.marshalToMsg pMsg
  | .xtcp cfg => cfg.marshalToMsg pMsg
  | .sudp cfg => cfg.marshalToMsg pMsg

def checkForSvr (conf : ProxyConf) (serverCfg : ServerCommonConf) :
    Except Bytes Unit :=
  match conf with
  | .tcp cfg => cfg.checkForSvr serverCfg
  | .tcpMux cfg => cfg.checkForSvr serverCfg
  | .udp cfg => cfg.checkForSvr serverCfg
  | .http cfg => cfg.checkForSvr serverCfg
  | .https cfg => cfg.checkForSvr serverCfg
  | .stcp cfg => cfg.checkForSvr serverCfg
  | .xtcp cfg => cfg.checkForSvr serverCfg
  | .sudp cfg => cfg.checkForSvr serverCfg

end ProxyConf

/-- An empty type stands for tcp. -/
def NewProxy.orTCP (pMsg : NewProxy) : NewProxy :=
  if pMsg.proxyType = [] then { pMsg with proxyType := consts.tcpProxy }
  else pMsg

/-- The type is also written back into the message. -/
def newProxyConfFromMsg (pMsg : NewProxy) (serverCfg : ServerCommonConf) :
    NewProxy × Except Bytes ProxyConf :=
  let pMsg := pMsg.orTCP
  match defaultProxyConf pMsg.proxyType with
  | none => (pMsg, .error (ascii "proxy [" ++ pMsg.proxyName ++
      ascii "] type [" ++ pMsg.proxyType ++ ascii "] error"))
  | some conf =>
      let conf := conf.unmarshalFromMsg pMsg
      match conf.checkForSvr serverCfg with
      | .error err => (pMsg, .error err)
      | .ok () => (pMsg, .ok conf)

/-- A proxy that is made has been read from the message that is returned, and has
passed its check. -/
theorem newProxyConfFromMsg_ok {pMsg pMsg' : NewProxy}
    {serverCfg : ServerCommonConf} {conf : ProxyConf}
    (hconf : newProxyConfFromMsg pMsg serverCfg = (pMsg', .ok conf)) :
    pMsg' = pMsg.orTCP ∧ conf.checkForSvr serverCfg = .ok () ∧
      ∃ initial, defaultProxyConf pMsg'.proxyType = some initial ∧
        conf = initial.unmarshalFromMsg pMsg' := by
  unfold newProxyConfFromMsg at hconf
  cases hdefault : defaultProxyConf pMsg.orTCP.proxyType with
  | none => simp [hdefault] at hconf
  | some initial =>
      simp only [hdefault] at hconf
      cases hcheck : (initial.unmarshalFromMsg pMsg.orTCP).checkForSvr
          serverCfg with
      | error err => simp [hcheck] at hconf
      | ok =>
          simp only [hcheck, Prod.mk.injEq, Except.ok.injEq] at hconf
          obtain ⟨rfl, rfl⟩ := hconf
          exact ⟨rfl, hcheck, initial, hdefault, rfl⟩

end Frp
