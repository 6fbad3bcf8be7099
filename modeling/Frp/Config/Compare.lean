/-
The comparisons of configurations that `Reload` relies on: `Compare` of the eight
proxy types of `pkg/config/proxy.go` and of the three visitor types of
`pkg/config/visitor.go`.
-/
import Mathlib.Logic.Relation
import Frp.Client.ConfMap
import Frp.Config.Proxy

namespace Frp

open GoStrings

/-- `reflect.DeepEqual` on strings, numbers, and slices and maps of strings; a nil
slice or map differs from an empty one. -/
def deepEqual {T : Type} [DecidableEq T] (x y : T) : Bool := x = y

namespace BandwidthQuantity

def equal (q u : BandwidthQuantity) : Bool := q.i = u.i

def bytes (q : BandwidthQuantity) : Int := q.i

end BandwidthQuantity

namespace BaseProxyConf

def compare (cfg cmp : BaseProxyConf) : Bool :=
  if cfg.proxyName ≠ cmp.proxyName ∨
      cfg.proxyType ≠ cmp.proxyType ∨
      cfg.useEncryption ≠ cmp.useEncryption ∨
      cfg.useCompression ≠ cmp.useCompression ∨
      cfg.group ≠ cmp.group ∨
      cfg.groupKey ≠ cmp.groupKey ∨
      cfg.proxyProtocolVersion ≠ cmp.proxyProtocolVersion ∨
      !cfg.bandwidthLimit.equal cmp.bandwidthLimit ∨
      !deepEqual cfg.metas cmp.metas then false
  else if !deepEqual cfg.toLocalSvrConf cmp.toLocalSvrConf then false
  else if !deepEqual cfg.toHealthCheckConf cmp.toHealthCheckConf then false
  else true

end BaseProxyConf

def TCPProxyConf.compare (cfg cmp : TCPProxyConf) : Bool :=
  if !cfg.toBaseProxyConf.compare cmp.toBaseProxyConf then false
  else if cfg.remotePort ≠ cmp.remotePort then false
  else true

def TCPMuxProxyConf.compare (cfg cmp : TCPMuxProxyConf) : Bool :=
  if !cfg.toBaseProxyConf.compare cmp.toBaseProxyConf then false
  else if !deepEqual cfg.toDomainConf cmp.toDomainConf then false
  else if cfg.multiplexer ≠ cmp.multiplexer ∨
      cfg.routeByHTTPUser ≠ cmp.routeByHTTPUser then false
  else true

def UDPProxyConf.compare (cfg cmp : UDPProxyConf) : Bool :=
  if !cfg.toBaseProxyConf.compare cmp.toBaseProxyConf then false
  else if cfg.remotePort ≠ cmp.remotePort then false
  else true

def HTTPProxyConf.compare (cfg cmp : HTTPProxyConf) : Bool :=
  if !cfg.toBaseProxyConf.compare cmp.toBaseProxyConf then false
  else if !deepEqual cfg.toDomainConf cmp.toDomainConf then false
  else if !deepEqual cfg.locations cmp.locations ∨
      cfg.httpUser ≠ cmp.httpUser ∨
      cfg.httpPwd ≠ cmp.httpPwd ∨
      cfg.hostHeaderRewrite ≠ cmp.hostHeaderRewrite ∨
      cfg.routeByHTTPUser ≠ cmp.routeByHTTPUser ∨
      !deepEqual cfg.headers cmp.headers then false
  else true

def HTTPSProxyConf.compare (cfg cmp : HTTPSProxyConf) : Bool :=
  if !cfg.toBaseProxyConf.compare cmp.toBaseProxyConf then false
  else if !deepEqual cfg.toDomainConf cmp.toDomainConf then false
  else true

def SUDPProxyConf.compare (cfg cmp : SUDPProxyConf) : Bool :=
  if !cfg.toBaseProxyConf.compare cmp.toBaseProxyConf then false
  else if cfg.role ≠ cmp.role ∨ cfg.sk ≠ cmp.sk then false
  else true

def STCPProxyConf.compare (cfg cmp : STCPProxyConf) : Bool :=
  if !cfg.toBaseProxyConf.compare cmp.toBaseProxyConf then false
  else if cfg.role ≠ cmp.role ∨ cfg.sk ≠ cmp.sk then false
  else true

def XTCPProxyConf.compare (cfg cmp : XTCPProxyConf) : Bool :=
  if !cfg.toBaseProxyConf.compare cmp.toBaseProxyConf then false
  else if cfg.role ≠ cmp.role ∨ cfg.sk ≠ cmp.sk then false
  else true

/-- The type assertion of each `Compare` fails on another type. -/
def ProxyConf.compare : ProxyConf → ProxyConf → Bool
  | .tcp cfg, .tcp cmp => cfg.compare cmp
  | .tcpMux cfg, .tcpMux cmp => cfg.compare cmp
  | .udp cfg, .udp cmp => cfg.compare cmp
  | .http cfg, .http cmp => cfg.compare cmp
  | .https cfg, .https cmp => cfg.compare cmp
  | .stcp cfg, .stcp cmp => cfg.compare cmp
  | .xtcp cfg, .xtcp cmp => cfg.compare cmp
  | .sudp cfg, .sudp cmp => cfg.compare cmp
  | _, _ => false

/-- The texts are bytes, or strings where a message carries them. -/
structure BaseVisitorConf (T : Type) where
  proxyName : T
  proxyType : T
  useEncryption : Bool
  useCompression : Bool
  role : T
  sk : T
  serverName : T
  bindAddr : T
  bindPort : Int
deriving DecidableEq, Repr

def BaseVisitorConf.compare (cfg cmp : BaseVisitorConf Bytes) : Bool :=
  if cfg.proxyName ≠ cmp.proxyName ∨
      cfg.proxyType ≠ cmp.proxyType ∨
      cfg.useEncryption ≠ cmp.useEncryption ∨
      cfg.useCompression ≠ cmp.useCompression ∨
      cfg.role ≠ cmp.role ∨
      cfg.sk ≠ cmp.sk ∨
      cfg.serverName ≠ cmp.serverName ∨
      cfg.bindAddr ≠ cmp.bindAddr ∨
      cfg.bindPort ≠ cmp.bindPort then false
  else true

structure SUDPVisitorConf extends BaseVisitorConf Bytes
deriving DecidableEq, Repr

structure STCPVisitorConf extends BaseVisitorConf Bytes
deriving DecidableEq, Repr

structure XTCPVisitorConf extends BaseVisitorConf Bytes
deriving DecidableEq, Repr

def SUDPVisitorConf.compare (cfg cmp : SUDPVisitorConf) : Bool :=
  if !cfg.toBaseVisitorConf.compare cmp.toBaseVisitorConf then false else true

def STCPVisitorConf.compare (cfg cmp : STCPVisitorConf) : Bool :=
  if !cfg.toBaseVisitorConf.compare cmp.toBaseVisitorConf then false else true

def XTCPVisitorConf.compare (cfg cmp : XTCPVisitorConf) : Bool :=
  if !cfg.toBaseVisitorConf.compare cmp.toBaseVisitorConf then false else true

inductive VisitorConf where
  | sudp (cfg : SUDPVisitorConf)
  | stcp (cfg : STCPVisitorConf)
  | xtcp (cfg : XTCPVisitorConf)
deriving DecidableEq, Repr

def VisitorConf.compare : VisitorConf → VisitorConf → Bool
  | .sudp cfg, .sudp cmp => cfg.compare cmp
  | .stcp cfg, .stcp cmp => cfg.compare cmp
  | .xtcp cfg, .xtcp cmp => cfg.compare cmp
  | _, _ => false

/-- A configuration without the text of its bandwidth limit, which only `String`
and `MarshalJSON` read. -/
def BaseProxyConf.canon (cfg : BaseProxyConf) : BaseProxyConf :=
  { cfg with bandwidthLimit := ⟨[], cfg.bandwidthLimit.i⟩ }

theorem BaseProxyConf.compare_iff (cfg cmp : BaseProxyConf) :
    cfg.compare cmp = true ↔ cfg.canon = cmp.canon := by
  obtain ⟨⟨ip, port, plugin, params⟩, ⟨ht, hto, hm, hi, hu, ha⟩, name, type, enc,
    comp, group, key, version, ⟨s, i⟩, metas⟩ := cfg
  obtain ⟨⟨ip', port', plugin', params'⟩, ⟨ht', hto', hm', hi', hu', ha'⟩, name',
    type', enc', comp', group', key', version', ⟨s', i'⟩, metas'⟩ := cmp
  simp [compare, canon, deepEqual, BandwidthQuantity.equal]
  grind

def TCPProxyConf.canon (cfg : TCPProxyConf) : TCPProxyConf :=
  { cfg with toBaseProxyConf := cfg.toBaseProxyConf.canon }

def TCPMuxProxyConf.canon (cfg : TCPMuxProxyConf) : TCPMuxProxyConf :=
  { cfg with toBaseProxyConf := cfg.toBaseProxyConf.canon }

def UDPProxyConf.canon (cfg : UDPProxyConf) : UDPProxyConf :=
  { cfg with toBaseProxyConf := cfg.toBaseProxyConf.canon }

def HTTPProxyConf.canon (cfg : HTTPProxyConf) : HTTPProxyConf :=
  { cfg with toBaseProxyConf := cfg.toBaseProxyConf.canon }

def HTTPSProxyConf.canon (cfg : HTTPSProxyConf) : HTTPSProxyConf :=
  { cfg with toBaseProxyConf := cfg.toBaseProxyConf.canon }

def STCPProxyConf.canon (cfg : STCPProxyConf) : STCPProxyConf :=
  { cfg with toBaseProxyConf := cfg.toBaseProxyConf.canon }

def XTCPProxyConf.canon (cfg : XTCPProxyConf) : XTCPProxyConf :=
  { cfg with toBaseProxyConf := cfg.toBaseProxyConf.canon }

def SUDPProxyConf.canon (cfg : SUDPProxyConf) : SUDPProxyConf :=
  { cfg with toBaseProxyConf := cfg.toBaseProxyConf.canon }

theorem TCPProxyConf.compare_iff (cfg cmp : TCPProxyConf) :
    cfg.compare cmp = true ↔ cfg.canon = cmp.canon := by
  simp [compare, canon, BaseProxyConf.compare_iff]

theorem TCPMuxProxyConf.compare_iff (cfg cmp : TCPMuxProxyConf) :
    cfg.compare cmp = true ↔ cfg.canon = cmp.canon := by
  simp [compare, canon, deepEqual, BaseProxyConf.compare_iff]
  exact fun _ _ => and_comm

theorem UDPProxyConf.compare_iff (cfg cmp : UDPProxyConf) :
    cfg.compare cmp = true ↔ cfg.canon = cmp.canon := by
  simp [compare, canon, BaseProxyConf.compare_iff]

theorem HTTPProxyConf.compare_iff (cfg cmp : HTTPProxyConf) :
    cfg.compare cmp = true ↔ cfg.canon = cmp.canon := by
  simp [compare, canon, deepEqual, BaseProxyConf.compare_iff]
  exact fun _ _ _ _ _ _ => and_comm

theorem HTTPSProxyConf.compare_iff (cfg cmp : HTTPSProxyConf) :
    cfg.compare cmp = true ↔ cfg.canon = cmp.canon := by
  simp [compare, canon, deepEqual, BaseProxyConf.compare_iff]

theorem STCPProxyConf.compare_iff (cfg cmp : STCPProxyConf) :
    cfg.compare cmp = true ↔ cfg.canon = cmp.canon := by
  simp [compare, canon, BaseProxyConf.compare_iff]

theorem XTCPProxyConf.compare_iff (cfg cmp : XTCPProxyConf) :
    cfg.compare cmp = true ↔ cfg.canon = cmp.canon := by
  simp [compare, canon, BaseProxyConf.compare_iff]

theorem SUDPProxyConf.compare_iff (cfg cmp : SUDPProxyConf) :
    cfg.compare cmp = true ↔ cfg.canon = cmp.canon := by
  simp [compare, canon, BaseProxyConf.compare_iff]

/-- The concrete types behind `ProxyConf`. -/
inductive ProxyConf.Kind where
  | tcp
  | tcpMux
  | udp
  | http
  | https
  | stcp
  | xtcp
  | sudp
deriving DecidableEq, Repr

namespace ProxyConf

def kind : ProxyConf → Kind
  | .tcp _ => .tcp
  | .tcpMux _ => .tcpMux
  | .udp _ => .udp
  | .http _ => .http
  | .https _ => .https
  | .stcp _ => .stcp
  | .xtcp _ => .xtcp
  | .sudp _ => .sudp

/-- The role and the key of the types that have them. -/
def secret : ProxyConf → Option (Bytes × Bytes)
  | .stcp cfg => some (cfg.role, cfg.sk)
  | .xtcp cfg => some (cfg.role, cfg.sk)
  | .sudp cfg => some (cfg.role, cfg.sk)
  | .tcp _ | .tcpMux _ | .udp _ | .http _ | .https _ => none

def canon : ProxyConf → ProxyConf
  | .tcp cfg => .tcp cfg.canon
  | .tcpMux cfg => .tcpMux cfg.canon
  | .udp cfg => .udp cfg.canon
  | .http cfg => .http cfg.canon
  | .https cfg => .https cfg.canon
  | .stcp cfg => .stcp cfg.canon
  | .xtcp cfg => .xtcp cfg.canon
  | .sudp cfg => .sudp cfg.canon

/-- `Compare` is equality up to the text of the bandwidth limit. -/
theorem compare_iff (a b : ProxyConf) :
    a.compare b = true ↔ a.canon = b.canon := by
  cases a with
  | tcp cfg => cases b <;> simp [compare, canon, TCPProxyConf.compare_iff]
  | tcpMux cfg => cases b <;> simp [compare, canon, TCPMuxProxyConf.compare_iff]
  | udp cfg => cases b <;> simp [compare, canon, UDPProxyConf.compare_iff]
  | http cfg => cases b <;> simp [compare, canon, HTTPProxyConf.compare_iff]
  | https cfg => cases b <;> simp [compare, canon, HTTPSProxyConf.compare_iff]
  | stcp cfg => cases b <;> simp [compare, canon, STCPProxyConf.compare_iff]
  | xtcp cfg => cases b <;> simp [compare, canon, XTCPProxyConf.compare_iff]
  | sudp cfg => cases b <;> simp [compare, canon, SUDPProxyConf.compare_iff]

@[simp] theorem kind_canon (a : ProxyConf) : a.canon.kind = a.kind := by
  cases a <;> rfl

@[simp] theorem secret_canon (a : ProxyConf) : a.canon.secret = a.secret := by
  cases a <;> rfl

@[simp] theorem getBaseInfo_canon (a : ProxyConf) :
    a.canon.getBaseInfo = a.getBaseInfo.canon := by
  cases a <;> rfl

@[simp] theorem marshalToMsg_canon (a : ProxyConf) (pMsg : NewProxy) :
    a.canon.marshalToMsg pMsg = a.marshalToMsg pMsg := by
  cases a <;> rfl

/-- frps is sent the same message, and frpc serves the proxy the same way. -/
structure Interchangeable (a b : ProxyConf) : Prop where
  kind : a.kind = b.kind
  message : ∀ pMsg, a.marshalToMsg pMsg = b.marshalToMsg pMsg
  localSvr : a.getBaseInfo.toLocalSvrConf = b.getBaseInfo.toLocalSvrConf
  proxyProtocolVersion :
    a.getBaseInfo.proxyProtocolVersion = b.getBaseInfo.proxyProtocolVersion
  bandwidthLimit :
    a.getBaseInfo.bandwidthLimit.bytes = b.getBaseInfo.bandwidthLimit.bytes
  healthCheck :
    a.getBaseInfo.toHealthCheckConf = b.getBaseInfo.toHealthCheckConf
  useEncryption : a.getBaseInfo.useEncryption = b.getBaseInfo.useEncryption
  useCompression : a.getBaseInfo.useCompression = b.getBaseInfo.useCompression
  secret : a.secret = b.secret

/-- All that is read of a configuration can be read of its canonical form. -/
theorem Interchangeable.of_canon {a b : ProxyConf} (hcanon : a.canon = b.canon) :
    a.Interchangeable b := by
  have hread : ∀ {T : Type} (read : ProxyConf → T),
      (∀ c, read c.canon = read c) → read a = read b := by
    intro T read hread
    rw [← hread a, ← hread b, hcanon]
  have hbase : ∀ {T : Type} (read : BaseProxyConf → T),
      (∀ c, read c.canon = read c) →
      read a.getBaseInfo = read b.getBaseInfo := by
    intro T read hcanon
    refine hread (fun c => read c.getBaseInfo) fun c => ?_
    rw [getBaseInfo_canon, hcanon]
  exact
    { kind := hread ProxyConf.kind kind_canon
      message := fun pMsg =>
        hread (fun c => c.marshalToMsg pMsg) fun c => marshalToMsg_canon c pMsg
      localSvr := hbase _ fun _ => rfl
      proxyProtocolVersion := hbase _ fun _ => rfl
      bandwidthLimit := hbase (fun c => c.bandwidthLimit.bytes) fun _ => rfl
      healthCheck := hbase _ fun _ => rfl
      useEncryption := hbase _ fun _ => rfl
      useCompression := hbase _ fun _ => rfl
      secret := hread ProxyConf.secret secret_canon }

theorem compare_equivalence :
    Equivalence fun a b : ProxyConf => a.compare b = true := by
  have hcanon : (fun a b : ProxyConf => a.compare b = true) =
      fun a b => a.canon = b.canon := by
    funext a b
    exact propext (compare_iff a b)
  rw [hcanon]
  exact eq_equivalence.comap canon

end ProxyConf

namespace VisitorConf

theorem base_compare_iff (cfg cmp : BaseVisitorConf Bytes) :
    cfg.compare cmp = true ↔ cfg = cmp := by
  cases cfg
  cases cmp
  simp [BaseVisitorConf.compare]

/-- Every field of a visitor is compared. -/
theorem compare_iff (a b : VisitorConf) : a.compare b = true ↔ a = b := by
  have hstcp : ∀ cfg cmp : STCPVisitorConf, cfg.compare cmp = true ↔ cfg = cmp := by
    rintro ⟨cfg⟩ ⟨cmp⟩
    simp [STCPVisitorConf.compare, base_compare_iff]
  have hxtcp : ∀ cfg cmp : XTCPVisitorConf, cfg.compare cmp = true ↔ cfg = cmp := by
    rintro ⟨cfg⟩ ⟨cmp⟩
    simp [XTCPVisitorConf.compare, base_compare_iff]
  have hsudp : ∀ cfg cmp : SUDPVisitorConf, cfg.compare cmp = true ↔ cfg = cmp := by
    rintro ⟨cfg⟩ ⟨cmp⟩
    simp [SUDPVisitorConf.compare, base_compare_iff]
  cases a with
  | sudp cfg => cases b <;> simp [compare, hsudp]
  | stcp cfg => cases b <;> simp [compare, hstcp]
  | xtcp cfg => cases b <;> simp [compare, hxtcp]

theorem compare_equivalence :
    Equivalence fun a b : VisitorConf => a.compare b = true := by
  have heq : (fun a b : VisitorConf => a.compare b = true) = Eq := by
    funext a b
    exact propext (compare_iff a b)
  rw [heq]
  exact eq_equivalence

end VisitorConf

/-- An entry that `Reload` keeps compares equal to the new one of its name. -/
theorem ConfMap.kept_compare {C : Type} {compare : C → C → Bool}
    {live new : ConfMap C} {entry : String × C}
    (hkept : entry ∈ kept compare live new) :
    ∃ conf, new.get entry.1 = some conf ∧ compare entry.2 conf = true := by
  have hkeeps := (List.mem_filter.mp hkept).2
  obtain ⟨conf, hconf, hsame⟩ := (Option.any_eq_true _ _).mp hkeeps
  exact ⟨conf, hconf, hsame⟩

/-- `Compare` is an equivalence, of proxies and of visitors, and configurations
that compare equal are interchangeable; so what `Reload` keeps has not changed. -/
theorem compare_interchangeable :
    (Equivalence fun a b : ProxyConf => a.compare b = true) ∧
    (∀ a b : ProxyConf, a.compare b = true → a.Interchangeable b) ∧
    (Equivalence fun a b : VisitorConf => a.compare b = true) ∧
    (∀ a b : VisitorConf, a.compare b = true → a = b) ∧
    (∀ (live new : ConfMap ProxyConf) (entry : String × ProxyConf),
      entry ∈ ConfMap.kept ProxyConf.compare live new →
      ∃ conf, new.get entry.1 = some conf ∧ entry.2.Interchangeable conf) ∧
    (∀ (live new : ConfMap VisitorConf) (entry : String × VisitorConf),
      entry ∈ ConfMap.kept VisitorConf.compare live new →
      new.get entry.1 = some entry.2) := by
  have hproxy : ∀ a b : ProxyConf, a.compare b = true → a.Interchangeable b :=
    fun a b hsame => .of_canon ((ProxyConf.compare_iff a b).mp hsame)
  refine ⟨ProxyConf.compare_equivalence, hproxy,
    VisitorConf.compare_equivalence,
    fun a b => (VisitorConf.compare_iff a b).mp, ?_, ?_⟩
  · intro live new entry hkept
    obtain ⟨conf, hconf, hsame⟩ := ConfMap.kept_compare hkept
    exact ⟨conf, hconf, hproxy _ _ hsame⟩
  · intro live new entry hkept
    obtain ⟨conf, hconf, hsame⟩ := ConfMap.kept_compare hkept
    rw [hconf, (VisitorConf.compare_iff _ _).mp hsame]

/-- A tcp proxy with this text for its limit of 1048576 bytes. -/
def limited (text : String) : ProxyConf :=
  .tcp ⟨{ defaultBaseProxyConf consts.tcpProxy with
    bandwidthLimit := ⟨ascii text, 1048576⟩ }, 6000⟩

theorem compare_interchangeable_limited :
    limited "1MB" ≠ limited "1024KB" ∧
      (limited "1MB").Interchangeable (limited "1024KB") :=
  ⟨by decide, compare_interchangeable.2.1 _ _ (by decide)⟩

end Frp
