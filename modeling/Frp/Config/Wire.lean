/-
What a proxy configuration keeps on its way from frpc to frps.  The JSON of a
message drops the difference between a nil and an empty slice or map, and
nothing else.
-/
import Frp.Config.Proxy

namespace Frp

open GoStrings

/-- The message with an empty slice or map for every nil one. -/
def NewProxy.filled (pMsg : NewProxy) : NewProxy :=
  { pMsg with
    metas := some pMsg.metas.entries
    customDomains := some pMsg.customDomains.elems
    locations := some pMsg.locations.elems
    headers := some pMsg.headers.entries }

/-- What the transport may make of a message. -/
def NewProxy.Carries (sent pMsg : NewProxy) : Prop :=
  sent.filled = pMsg.filled

def BaseProxyConf.filled (cfg : BaseProxyConf) : BaseProxyConf :=
  { cfg with
    metas := some cfg.metas.entries
    pluginParams := some cfg.pluginParams.entries }

def DomainConf.filled (cfg : DomainConf) : DomainConf :=
  { cfg with customDomains := some cfg.customDomains.elems }

/-- What the two sides must agree on for every type. -/
structure BaseProxyConf.Agrees (conf cfg : BaseProxyConf) : Prop where
  proxyName : conf.proxyName = cfg.proxyName
  proxyType : conf.proxyType = cfg.proxyType
  useEncryption : conf.useEncryption = cfg.useEncryption
  useCompression : conf.useCompression = cfg.useCompression
  group : conf.group = cfg.group
  groupKey : conf.groupKey = cfg.groupKey
  metas : conf.metas.entries = cfg.metas.entries

structure DomainConf.Agrees (conf cfg : DomainConf) : Prop where
  customDomains : conf.customDomains.elems = cfg.customDomains.elems
  subDomain : conf.subDomain = cfg.subDomain

structure HTTPProxyConf.Agrees (conf cfg : HTTPProxyConf) : Prop where
  base : conf.toBaseProxyConf.Agrees cfg.toBaseProxyConf
  domain : conf.toDomainConf.Agrees cfg.toDomainConf
  locations : conf.locations.elems = cfg.locations.elems
  httpUser : conf.httpUser = cfg.httpUser
  httpPwd : conf.httpPwd = cfg.httpPwd
  hostHeaderRewrite : conf.hostHeaderRewrite = cfg.hostHeaderRewrite
  headers : conf.headers.entries = cfg.headers.entries
  routeByHTTPUser : conf.routeByHTTPUser = cfg.routeByHTTPUser

namespace ProxyConf

/-- The type that belongs to the configuration. -/
def typeName : ProxyConf → Bytes
  | .tcp _ => consts.tcpProxy
  | .tcpMux _ => consts.tcpMuxProxy
  | .udp _ => consts.udpProxy
  | .http _ => consts.httpProxy
  | .https _ => consts.httpsProxy
  | .stcp _ => consts.stcpProxy
  | .xtcp _ => consts.xtcpProxy
  | .sudp _ => consts.sudpProxy

/-- Its ProxyType is set accordingly. -/
def Typed (cfg : ProxyConf) : Prop :=
  cfg.getBaseInfo.proxyType = cfg.typeName

instance (cfg : ProxyConf) : Decidable cfg.Typed :=
  inferInstanceAs (Decidable (_ = _))

/-- The configuration with an empty slice or map for every nil one. -/
def filled : ProxyConf → ProxyConf
  | .tcp cfg => .tcp { cfg with toBaseProxyConf := cfg.toBaseProxyConf.filled }
  | .tcpMux cfg => .tcpMux { cfg with
      toBaseProxyConf := cfg.toBaseProxyConf.filled
      toDomainConf := cfg.toDomainConf.filled }
  | .udp cfg => .udp { cfg with toBaseProxyConf := cfg.toBaseProxyConf.filled }
  | .http cfg => .http { cfg with
      toBaseProxyConf := cfg.toBaseProxyConf.filled
      toDomainConf := cfg.toDomainConf.filled
      locations := some cfg.locations.elems
      headers := some cfg.headers.entries }
  | .https cfg => .https { cfg with
      toBaseProxyConf := cfg.toBaseProxyConf.filled
      toDomainConf := cfg.toDomainConf.filled }
  | .stcp cfg => .stcp { cfg with
      toBaseProxyConf := cfg.toBaseProxyConf.filled }
  | .xtcp cfg => .xtcp { cfg with
      toBaseProxyConf := cfg.toBaseProxyConf.filled }
  | .sudp cfg => .sudp { cfg with
      toBaseProxyConf := cfg.toBaseProxyConf.filled }

/-- Both are of one type and agree on what frps reads for it. -/
inductive Agrees : ProxyConf → ProxyConf → Prop where
  | tcp {conf cfg : TCPProxyConf}
      (base : conf.toBaseProxyConf.Agrees cfg.toBaseProxyConf)
      (remotePort : conf.remotePort = cfg.remotePort) :
      Agrees (.tcp conf) (.tcp cfg)
  | tcpMux {conf cfg : TCPMuxProxyConf}
      (base : conf.toBaseProxyConf.Agrees cfg.toBaseProxyConf)
      (domain : conf.toDomainConf.Agrees cfg.toDomainConf)
      (multiplexer : conf.multiplexer = cfg.multiplexer)
      (routeByHTTPUser : conf.routeByHTTPUser = cfg.routeByHTTPUser) :
      Agrees (.tcpMux conf) (.tcpMux cfg)
  | udp {conf cfg : UDPProxyConf}
      (base : conf.toBaseProxyConf.Agrees cfg.toBaseProxyConf)
      (remotePort : conf.remotePort = cfg.remotePort) :
      Agrees (.udp conf) (.udp cfg)
  | http {conf cfg : HTTPProxyConf} (agrees : conf.Agrees cfg) :
      Agrees (.http conf) (.http cfg)
  | https {conf cfg : HTTPSProxyConf}
      (base : conf.toBaseProxyConf.Agrees cfg.toBaseProxyConf)
      (domain : conf.toDomainConf.Agrees cfg.toDomainConf) :
      Agrees (.https conf) (.https cfg)
  | stcp {conf cfg : STCPProxyConf}
      (base : conf.toBaseProxyConf.Agrees cfg.toBaseProxyConf)
      (sk : conf.sk = cfg.sk) : Agrees (.stcp conf) (.stcp cfg)
  | xtcp {conf cfg : XTCPProxyConf}
      (base : conf.toBaseProxyConf.Agrees cfg.toBaseProxyConf)
      (sk : conf.sk = cfg.sk) : Agrees (.xtcp conf) (.xtcp cfg)
  | sudp {conf cfg : SUDPProxyConf}
      (base : conf.toBaseProxyConf.Agrees cfg.toBaseProxyConf)
      (sk : conf.sk = cfg.sk) : Agrees (.sudp conf) (.sudp cfg)

theorem Agrees.getBaseInfo {conf cfg : ProxyConf} (hagrees : conf.Agrees cfg) :
    conf.getBaseInfo.Agrees cfg.getBaseInfo := by
  cases hagrees with
  | tcp base | tcpMux base | udp base | https base | stcp base | xtcp base
  | sudp base => exact base
  | http agrees => exact agrees.base

/-- What frps makes of the configuration once `sent` has arrived: its own check
decides, and what it accepts is the configuration. -/
structure Survives (cfg : ProxyConf) (sent : NewProxy)
    (serverCfg : ServerCommonConf) : Prop where
  verdict : (newProxyConfFromMsg sent serverCfg).2.map (fun _ => ()) =
    cfg.checkForSvr serverCfg
  decoded : ∀ conf, (newProxyConfFromMsg sent serverCfg).2 = .ok conf →
    conf.Agrees cfg

/-- The decoders and the checks see no difference between nil and empty. -/
theorem filled_unmarshalFromMsg (conf : ProxyConf) (pMsg : NewProxy) :
    (conf.unmarshalFromMsg pMsg.filled).filled =
      (conf.unmarshalFromMsg pMsg).filled := by
  cases conf <;> rfl

theorem checkForSvr_filled (conf : ProxyConf) (serverCfg : ServerCommonConf) :
    conf.filled.checkForSvr serverCfg = conf.checkForSvr serverCfg := by
  cases conf <;> rfl

theorem checkForSvr_unmarshalFromMsg_filled (conf : ProxyConf)
    (pMsg : NewProxy) (serverCfg : ServerCommonConf) :
    (conf.unmarshalFromMsg pMsg.filled).checkForSvr serverCfg =
      (conf.unmarshalFromMsg pMsg).checkForSvr serverCfg := by
  rw [← checkForSvr_filled, filled_unmarshalFromMsg, checkForSvr_filled]

end ProxyConf

/-- What comes back once the type is known. -/
theorem newProxyConfFromMsg_of_default {pMsg : NewProxy} {conf : ProxyConf}
    (hdefault : defaultProxyConf pMsg.orTCP.proxyType = some conf)
    (serverCfg : ServerCommonConf) :
    (newProxyConfFromMsg pMsg serverCfg).2 =
      ((conf.unmarshalFromMsg pMsg.orTCP).checkForSvr serverCfg).map
        fun _ => conf.unmarshalFromMsg pMsg.orTCP := by
  simp only [newProxyConfFromMsg, hdefault]
  cases (conf.unmarshalFromMsg pMsg.orTCP).checkForSvr serverCfg <;> rfl

theorem newProxyConfFromMsg_of_unknown {pMsg : NewProxy}
    (hdefault : defaultProxyConf pMsg.orTCP.proxyType = none)
    (serverCfg : ServerCommonConf) :
    (newProxyConfFromMsg pMsg serverCfg).2 =
      .error (ascii "proxy [" ++ pMsg.orTCP.proxyName ++ ascii "] type [" ++
        pMsg.orTCP.proxyType ++ ascii "] error") := by
  simp only [newProxyConfFromMsg, hdefault]

theorem NewProxy.orTCP_filled (pMsg : NewProxy) :
    pMsg.filled.orTCP = pMsg.orTCP.filled := by
  by_cases hempty : pMsg.proxyType = []
  · have hfilled : pMsg.filled.proxyType = [] := hempty
    simp only [orTCP, hempty, hfilled, if_true]
    rfl
  · have hfilled : pMsg.filled.proxyType ≠ [] := hempty
    simp only [orTCP, hempty, hfilled, if_false]

/-- Messages that the transport may confuse are decoded to the same. -/
theorem newProxyConfFromMsg_filled (pMsg : NewProxy)
    (serverCfg : ServerCommonConf) :
    (newProxyConfFromMsg pMsg.filled serverCfg).2.map ProxyConf.filled =
      (newProxyConfFromMsg pMsg serverCfg).2.map ProxyConf.filled := by
  have hname : pMsg.filled.orTCP.proxyName = pMsg.orTCP.proxyName := by
    rw [NewProxy.orTCP_filled]
    rfl
  have htype : pMsg.filled.orTCP.proxyType = pMsg.orTCP.proxyType := by
    rw [NewProxy.orTCP_filled]
    rfl
  cases hdefault : defaultProxyConf pMsg.orTCP.proxyType with
  | none =>
      rw [newProxyConfFromMsg_of_unknown hdefault,
        newProxyConfFromMsg_of_unknown (htype ▸ hdefault), hname, htype]
  | some conf =>
      rw [newProxyConfFromMsg_of_default hdefault,
        newProxyConfFromMsg_of_default (htype ▸ hdefault),
        NewProxy.orTCP_filled, ProxyConf.checkForSvr_unmarshalFromMsg_filled]
      cases (conf.unmarshalFromMsg pMsg.orTCP).checkForSvr serverCfg with
      | error err => rfl
      | ok _ =>
          exact congrArg Except.ok
            (ProxyConf.filled_unmarshalFromMsg conf pMsg.orTCP)

/-- The fields of all types arrive with a message that holds them. -/
theorem BaseProxyConf.agrees_of_carries {conf cfg : BaseProxyConf}
    {sent pMsg : NewProxy} (hsent : sent.Carries pMsg)
    (hheld : cfg.marshalToMsg pMsg = pMsg) :
    (conf.unmarshalFromMsg sent).Agrees cfg := by
  have hfields : sent.filled = (cfg.marshalToMsg pMsg).filled := by
    rw [hheld]
    exact hsent
  exact {
    proxyName := congrArg NewProxy.proxyName hfields
    proxyType := congrArg NewProxy.proxyType hfields
    useEncryption := congrArg NewProxy.useEncryption hfields
    useCompression := congrArg NewProxy.useCompression hfields
    group := congrArg NewProxy.group hfields
    groupKey := congrArg NewProxy.groupKey hfields
    metas := Option.some.inj (congrArg NewProxy.metas hfields) }

theorem NewProxy.Carries.domain {cfg : DomainConf} {sent pMsg : NewProxy}
    (hsent : sent.Carries pMsg)
    (hcustomDomains : pMsg.customDomains = cfg.customDomains)
    (hsubDomain : pMsg.subDomain = cfg.subDomain) :
    DomainConf.Agrees ⟨sent.customDomains, sent.subDomain⟩ cfg := by
  have hfields : sent.filled = pMsg.filled := hsent
  constructor
  · rw [← hcustomDomains]
    exact Option.some.inj (congrArg NewProxy.customDomains hfields)
  · rw [← hsubDomain]
    have hsent := congrArg NewProxy.subDomain hfields
    exact hsent

namespace ProxyConf

theorem typeName_ne_nil (cfg : ProxyConf) : cfg.typeName ≠ [] := by
  cases cfg <;> exact List.cons_ne_nil _ _

/-- Each decoder reads back what the encoder of its type has written. -/
theorem agrees_of_carries (cfg : ProxyConf) {sent : NewProxy}
    (hsent : sent.Carries (cfg.marshalToMsg .empty)) :
    ∃ conf, defaultProxyConf cfg.typeName = some conf ∧
      (conf.unmarshalFromMsg sent).Agrees cfg := by
  have hfields : sent.filled = (cfg.marshalToMsg .empty).filled := hsent
  cases cfg with
  | tcp cfg =>
      exact ⟨_, rfl, .tcp (BaseProxyConf.agrees_of_carries hsent rfl)
        (congrArg NewProxy.remotePort hfields)⟩
  | tcpMux cfg =>
      exact ⟨_, rfl, .tcpMux (BaseProxyConf.agrees_of_carries hsent rfl)
        (hsent.domain rfl rfl) (congrArg NewProxy.multiplexer hfields)
        (congrArg NewProxy.routeByHTTPUser hfields)⟩
  | udp cfg =>
      exact ⟨_, rfl, .udp (BaseProxyConf.agrees_of_carries hsent rfl)
        (congrArg NewProxy.remotePort hfields)⟩
  | http cfg =>
      exact ⟨_, rfl, .http {
        base := BaseProxyConf.agrees_of_carries hsent rfl
        domain := hsent.domain rfl rfl
        locations := Option.some.inj (congrArg NewProxy.locations hfields)
        httpUser := congrArg NewProxy.httpUser hfields
        httpPwd := congrArg NewProxy.httpPwd hfields
        hostHeaderRewrite := congrArg NewProxy.hostHeaderRewrite hfields
        headers := Option.some.inj (congrArg NewProxy.headers hfields)
        routeByHTTPUser := congrArg NewProxy.routeByHTTPUser hfields }⟩
  | https cfg =>
      exact ⟨_, rfl, .https (BaseProxyConf.agrees_of_carries hsent rfl)
        (hsent.domain rfl rfl)⟩
  | stcp cfg =>
      exact ⟨_, rfl, .stcp (BaseProxyConf.agrees_of_carries hsent rfl)
        (congrArg NewProxy.sk hfields)⟩
  | xtcp cfg =>
      exact ⟨_, rfl, .xtcp (BaseProxyConf.agrees_of_carries hsent rfl)
        (congrArg NewProxy.sk hfields)⟩
  | sudp cfg =>
      exact ⟨_, rfl, .sudp (BaseProxyConf.agrees_of_carries hsent rfl)
        (congrArg NewProxy.sk hfields)⟩

end ProxyConf

theorem DomainConf.Agrees.checkForProxy {conf cfg : DomainConf}
    (hagrees : conf.Agrees cfg) (proxyName : Bytes)
    (serverCfg : ServerCommonConf) :
    conf.checkForProxy proxyName serverCfg =
      cfg.checkForProxy proxyName serverCfg := by
  simp only [DomainConf.checkForProxy, DomainConf.checkForSvr,
    DomainConf.check, hagrees.customDomains, hagrees.subDomain]

namespace ProxyConf

/-- The check on frps reads nothing else. -/
theorem checkForSvr_of_agrees {conf cfg : ProxyConf}
    (hagrees : conf.Agrees cfg) (serverCfg : ServerCommonConf) :
    conf.checkForSvr serverCfg = cfg.checkForSvr serverCfg := by
  cases hagrees with
  | tcpMux base domain multiplexer _ =>
      simp only [checkForSvr, TCPMuxProxyConf.checkForSvr, base.proxyName,
        multiplexer, domain.checkForProxy]
  | http agrees =>
      simp only [checkForSvr, HTTPProxyConf.checkForSvr,
        agrees.base.proxyName, agrees.domain.checkForProxy]
  | https base domain =>
      simp only [checkForSvr, HTTPSProxyConf.checkForSvr, base.proxyName,
        domain.checkForProxy]
  | tcp | udp | stcp | xtcp | sudp => rfl

theorem survives_of_carries (cfg : ProxyConf) (htyped : cfg.Typed)
    {sent : NewProxy} (hsent : sent.Carries (cfg.marshalToMsg .empty))
    (serverCfg : ServerCommonConf) : cfg.Survives sent serverCfg := by
  have htype : sent.proxyType = cfg.typeName := by
    have hmarshalled : (cfg.marshalToMsg .empty).proxyType =
        cfg.getBaseInfo.proxyType := by
      cases cfg <;> rfl
    have hfields : sent.filled = (cfg.marshalToMsg .empty).filled := hsent
    have hread := congrArg NewProxy.proxyType hfields
    rw [← htyped, ← hmarshalled]
    exact hread
  have hset : sent.orTCP = sent := by
    rw [NewProxy.orTCP, if_neg (htype ▸ cfg.typeName_ne_nil)]
  obtain ⟨conf, hdefault, hagrees⟩ := cfg.agrees_of_carries hsent
  have hresult := newProxyConfFromMsg_of_default
    (show defaultProxyConf sent.orTCP.proxyType = some conf by
      rw [hset, htype, hdefault]) serverCfg
  rw [hset, checkForSvr_of_agrees hagrees] at hresult
  constructor
  · rw [hresult]
    cases cfg.checkForSvr serverCfg <;> rfl
  · intro decoded hdecoded
    rw [hresult] at hdecoded
    cases hcheck : cfg.checkForSvr serverCfg with
    | error err =>
        rw [hcheck] at hdecoded
        cases hdecoded
    | ok _ =>
        rw [hcheck] at hdecoded
        cases hdecoded
        exact hagrees

/-- Whatever the transport makes of their messages, frps makes the same of
both configurations. -/
def SameOnServer (cfg cfg' : ProxyConf) (serverCfg : ServerCommonConf) : Prop :=
  ∀ sent sent' : NewProxy, sent.Carries (cfg.marshalToMsg .empty) →
    sent'.Carries (cfg'.marshalToMsg .empty) →
    (newProxyConfFromMsg sent serverCfg).2.map filled =
      (newProxyConfFromMsg sent' serverCfg).2.map filled

theorem sameOnServer_of_marshalToMsg {cfg cfg' : ProxyConf}
    (hsame : cfg.marshalToMsg .empty = cfg'.marshalToMsg .empty)
    (serverCfg : ServerCommonConf) : cfg.SameOnServer cfg' serverCfg := by
  intro sent sent' hsent hsent'
  have hfilled : sent.filled = sent'.filled := by
    rw [NewProxy.Carries] at hsent hsent'
    rw [hsent, hsent', hsame]
  rw [← newProxyConfFromMsg_filled, hfilled, newProxyConfFromMsg_filled]

/-- A configuration survives the wire, and frps tells two configurations apart
by their messages only. -/
theorem survivesWire (serverCfg : ServerCommonConf) :
    (∀ cfg : ProxyConf, cfg.Typed → ∀ sent : NewProxy,
      sent.Carries (cfg.marshalToMsg .empty) → cfg.Survives sent serverCfg) ∧
    ∀ cfg cfg' : ProxyConf, cfg.marshalToMsg .empty = cfg'.marshalToMsg .empty →
      cfg.SameOnServer cfg' serverCfg :=
  ⟨fun cfg htyped _ hsent => cfg.survives_of_carries htyped hsent serverCfg,
    fun _ _ hsame => sameOnServer_of_marshalToMsg hsame serverCfg⟩

/-- An http proxy in a group, with neither locations nor headers. -/
def webConf : ProxyConf :=
  .http ⟨{ defaultBaseProxyConf consts.httpProxy with
      proxyName := ascii "web"
      group := ascii "pool" },
    ⟨some [ascii "www.frp.org"], []⟩, none, ascii "admin", ascii "pass", [], none, []⟩

/-- Its message arrives with empty slices and maps. -/
theorem survivesWire_webConf :
    webConf.Survives (webConf.marshalToMsg .empty).filled ⟨80, 0, 0, []⟩ ∧
      webConf.SameOnServer webConf ⟨80, 0, 0, []⟩ :=
  ⟨(survivesWire _).1 webConf rfl _ rfl, (survivesWire _).2 _ _ rfl⟩

end ProxyConf

end Frp
