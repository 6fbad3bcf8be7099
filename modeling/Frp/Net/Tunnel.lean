/-
The path of a user's bytes: frps joins the user connection with a work connection,
frpc joins the work connection with the local service, and each side puts its end
of the work connection into encryption and compression as its own copy of the
configuration says.  A visitor adds a connection of its own in front.
-/
import Frp.Auth.Token
import Frp.Config.Wire
import Frp.Lib.Relay
import Frp.Net.Limit
import Frp.Server.VisitorManager
import Frp.Server.WorkConnPool

namespace Frp

open GoInt GoStrings GoStrconv Relay
open Server (PoolResult StartWorkConn)

namespace Tunnel

/-- The stream wrappers of the io library.  An end that encrypts draws an initial
vector for what it sends. -/
structure Wrappers (V : Type) where
  encryption : Bytes → V → End UInt8
  compression : End UInt8

/-- Ends with the same key understand each other, whatever vectors they draw.
Nothing is known of different keys. -/
structure Wrappers.Sound {V : Type} (io : Wrappers V) : Prop where
  encryption : ∀ key iv iv',
    (io.encryption key iv).Carries (io.encryption key iv')
  compression : io.compression.Carries io.compression

/-- The burst of a limiter of `NewProxy`. -/
structure Burst where
  b : Int
  pos : 1 ≤ b

/-- The chunks of at most `b` bytes in which a limited writer passes a slice on. -/
def pieces (b : Burst) : Bytes → List Bytes
  | [] => []
  | byte :: rest =>
      (byte :: rest).take b.b.toNat ::
        pieces b ((byte :: rest).drop b.b.toNat)
termination_by p => p.length
decreasing_by
  have := b.pos
  rw [List.length_drop, List.length_cons]
  omega

/-- The bound of a chunk cuts the slice where the burst does. -/
theorem take_stop (b : Burst) (p : Bytes) :
    p.take (Limit.stop b.b p).toNat = p.take b.b.toNat ∧
      p.drop (Limit.stop b.b p).toNat = p.drop b.b.toNat := by
  unfold Limit.stop
  split
  · exact ⟨rfl, rfl⟩
  · have hlong : p.length ≤ b.b.toNat := by omega
    rw [Int.toNat_natCast, List.take_length, List.drop_length,
      List.take_of_length_le hlong, List.drop_eq_nil_of_le hlong]
    exact ⟨rfl, rfl⟩

/-- A call of the limited writer that returns no error has made these writes. -/
theorem sent_eq_pieces {W E : Type} (w : Limit.Writer W UInt8 E) (b : Burst)
    {fuel n total : Nat} {world : W} {p : Bytes} {run : Limit.Run W UInt8 E}
    (hrun : w.loop b.b fuel world n p = some run)
    (hending : run.ending = .returned total none) :
    run.sent.map GoStream.Sent.chunk = pieces b p := by
  induction fuel generalizing world n p run with
  | zero => cases hrun
  | succ fuel ih =>
      cases p with
      | nil =>
          cases hrun
          simp [pieces]
      | cons byte rest =>
          have hp : (byte :: rest).length ≠ 0 := by simp
          obtain ⟨hpos, _, _⟩ := Limit.stop_spec b.pos hp
          obtain ⟨htake, hdrop⟩ := take_stop b (byte :: rest)
          cases hwait : w.limiter.waitN world (Limit.stop b.b (byte :: rest)) with
          | mk world' granted =>
              cases granted with
              | some err =>
                  rw [w.loop_refused hp hwait] at hrun
                  cases hrun
                  cases hending
              | none =>
                  cases herr : (w.w.write world' ((byte :: rest).take
                      (Limit.stop b.b (byte :: rest)).toNat)).err with
                  | some err =>
                      rw [w.loop_cut hp hwait (by omega) rfl herr] at hrun
                      cases hrun
                      cases hending
                  | none =>
                      rw [w.loop_next hp hwait (by omega) rfl herr] at hrun
                      obtain ⟨next, hnext, rfl⟩ := Option.map_eq_some_iff.mp hrun
                      have hrest := ih hnext hending
                      rw [Limit.Run.after, List.map_cons, hrest, htake, hdrop,
                        pieces]

theorem flatten_pieces (b : Burst) (p : Bytes) : (pieces b p).flatten = p := by
  induction p using pieces.induct b with
  | case1 => simp [pieces]
  | case2 byte rest ih =>
      rw [pieces, List.flatten_cons, ih, List.take_append_drop]

/-- The reader and the writer of `pkg/util/limit` over the connection. -/
def limited (b : Burst) : End UInt8 where
  write chunks := chunks.flatMap (pieces b)
  read bytes := bytes

theorem flatten_write_limited (b : Burst) (chunks : List Bytes) :
    ((limited b).write chunks).flatten = chunks.flatten := by
  induction chunks with
  | nil => rfl
  | cons chunk rest ih =>
      change (List.flatMap (pieces b) (chunk :: rest)).flatten = _
      rw [List.flatMap_cons, List.flatten_append, flatten_pieces]
      exact congrArg (chunk ++ ·) ih

variable {V : Type}

namespace Wrappers

variable (io : Wrappers V)

/-- `frpIo.WithEncryption`, which fails where no vector can be drawn. -/
def withEncryption (rwc : End UInt8) (key : Bytes) (iv : Except Bytes V) :
    Except Bytes (End UInt8) :=
  iv.map fun iv => (io.encryption key iv).atop rwc

def withCompression (rwc : End UInt8) : End UInt8 := io.compression.atop rwc

/-- The lines that every handler has: encryption first, compression over it. -/
def wrap (useEncryption useCompression : Bool) (key : Bytes) (iv : Except Bytes V)
    (rwc : End UInt8) : Except Bytes (End UInt8) :=
  (if useEncryption then io.withEncryption rwc key iv else .ok rwc).map
    fun rwc => if useCompression then io.withCompression rwc else rwc

/-- Without encryption neither the key nor the vector matters. -/
theorem wrap_false (useCompression : Bool) (key key' : Bytes)
    (iv iv' : Except Bytes V) (rwc : End UInt8) :
    io.wrap false useCompression key iv rwc =
      io.wrap false useCompression key' iv' rwc := rfl

theorem wrap_ok (useEncryption useCompression : Bool) (key : Bytes) (iv : V)
    (rwc : End UInt8) :
    ∃ near, io.wrap useEncryption useCompression key (.ok iv) rwc = .ok near := by
  cases useEncryption with
  | true => exact ⟨_, rfl⟩
  | false => exact ⟨_, rfl⟩

variable {io} {useEncryption useCompression : Bool} {key : Bytes}
  {iv iv' : Except Bytes V} {rwc rwc' near far : End UInt8}

theorem Sound.withEncryption (hio : io.Sound) (hrwc : rwc.Carries rwc')
    (hnear : io.withEncryption rwc key iv = .ok near)
    (hfar : io.withEncryption rwc' key iv' = .ok far) : near.Carries far := by
  cases iv with
  | error err => cases hnear
  | ok iv =>
      cases iv' with
      | error err => cases hfar
      | ok iv' =>
          cases hnear
          cases hfar
          exact (hio.encryption key iv iv').atop hrwc

/-- Two sides that want the same, with the same key, understand each other. -/
theorem Sound.wrap (hio : io.Sound) (hrwc : rwc.Carries rwc')
    (hnear : io.wrap useEncryption useCompression key iv rwc = .ok near)
    (hfar : io.wrap useEncryption useCompression key iv' rwc' = .ok far) :
    near.Carries far := by
  have hcompressed : ∀ {a b : End UInt8}, a.Carries b →
      (if useCompression then io.withCompression a else a).Carries
        (if useCompression then io.withCompression b else b) := by
    intro a b hab
    split
    · exact hio.compression.atop hab
    · exact hab
  cases useEncryption with
  | false =>
      cases hnear
      cases hfar
      exact hcompressed hrwc
  | true =>
      cases hleft : io.withEncryption rwc key iv with
      | error err => simp [Wrappers.wrap, hleft, Except.map] at hnear
      | ok a =>
          cases hright : io.withEncryption rwc' key iv' with
          | error err => simp [Wrappers.wrap, hright, Except.map] at hfar
          | ok b =>
              simp only [Wrappers.wrap, if_true, hleft, hright, Except.map,
                Except.ok.injEq] at hnear hfar
              subst hnear
              subst hfar
              exact hcompressed (hio.withEncryption hrwc hleft hright)

end Wrappers

theorem carries_limited (b : Burst) : (limited b).Carries .raw where
  keeps chunks more := by
    change chunks.flatMap (pieces b) <+: (chunks ++ more).flatMap (pieces b)
    rw [List.flatMap_append]
    exact List.prefix_append _ _
  grows hpre := hpre
  inverts chunks := flatten_write_limited b chunks

theorem carries_limited_back (b : Burst) : End.raw.Carries (limited b) where
  keeps chunks more := List.prefix_append chunks more
  grows hpre := hpre
  inverts _ := rfl

section server

variable (io : Wrappers V)

/-- What becomes of a user connection. -/
inductive UserTCP where
  | rejected (err : Bytes)
  | noWorkConn (err : Bytes)
  | panicked
  | notEncrypted (conn : Nat) (err : Bytes)
  | joined (conn : Nat) (workConn : End UInt8)

/-- `HandleUserTCPConnection` up to the join; `newUserConn` is what the plugins
say, `pool` what `GetWorkConnFromPool` returns. -/
def handleUserTCPConnection (cfg : BaseProxyConf) (token : Bytes)
    (newUserConn : Except Bytes Unit) (pool : PoolResult) (iv : Except Bytes V) :
    UserTCP :=
  match newUserConn with
  | .error err => .rejected err
  | .ok () =>
      match pool.err with
      | some err => .noWorkConn err
      | none =>
          match pool.workConn with
          | none => .panicked
          | some conn =>
              match io.wrap cfg.useEncryption cfg.useCompression token iv
                .raw with
              | .error err => .notEncrypted conn err
              | .ok rwc => .joined conn rwc

/-- `HTTPProxy.GetRealConn`, which wraps whatever the pool has returned. -/
def getRealConn (cfg : BaseProxyConf) (token : Bytes) (pool : PoolResult)
    (iv : Except Bytes V) : Except Bytes (Option Nat × End UInt8) :=
  match pool.err with
  | some err => .error err
  | none =>
      match io.wrap cfg.useEncryption cfg.useCompression token iv .raw with
      | .error err => .error err
      | .ok rwc => .ok (pool.workConn, rwc)

/-- The work connection that a proxy of frps joins with a user or, for http, hands
to the reverse proxy. -/
def userConn (conf : ProxyConf) (token : Bytes) (newUserConn : Except Bytes Unit)
    (pool : PoolResult) (iv : Except Bytes V) : Option (Nat × End UInt8) :=
  match conf with
  | .tcp _ | .tcpMux _ | .https _ | .stcp _ | .sudp _ =>
      match handleUserTCPConnection io conf.getBaseInfo token newUserConn pool
        iv with
      | .joined conn rwc => some (conn, rwc)
      | .rejected _ | .noWorkConn _ | .panicked | .notEncrypted _ _ => none
  | .http _ =>
      match getRealConn io conf.getBaseInfo token pool iv with
      | .ok (some conn, rwc) => some (conn, rwc)
      | .ok (none, _) | .error _ => none
  | .udp _ | .xtcp _ => none

variable {io}

theorem handleUserTCPConnection_eq_joined {cfg : BaseProxyConf} {token : Bytes}
    {newUserConn : Except Bytes Unit} {pool : PoolResult} {iv : Except Bytes V}
    {conn : Nat} {rwc : End UInt8} (hjoined : handleUserTCPConnection io cfg
      token newUserConn pool iv = .joined conn rwc) :
    pool.workConn = some conn ∧
      io.wrap cfg.useEncryption cfg.useCompression token iv .raw = .ok rwc := by
  unfold handleUserTCPConnection at hjoined
  cases newUserConn with
  | error err => cases hjoined
  | ok =>
      cases herr : pool.err with
      | some err => simp [herr] at hjoined
      | none =>
          cases hworkConn : pool.workConn with
          | none => simp [herr, hworkConn] at hjoined
          | some conn' =>
              cases hwrap : io.wrap cfg.useEncryption cfg.useCompression token
                  iv .raw with
              | error err => simp [herr, hworkConn, hwrap] at hjoined
              | ok rwc' =>
                  simp only [herr, hworkConn, hwrap, UserTCP.joined.injEq] at hjoined
                  exact ⟨congrArg some hjoined.1, congrArg Except.ok hjoined.2⟩

theorem getRealConn_eq_ok {cfg : BaseProxyConf} {token : Bytes}
    {pool : PoolResult} {iv : Except Bytes V} {workConn : Option Nat}
    {rwc : End UInt8}
    (hok : getRealConn io cfg token pool iv = .ok (workConn, rwc)) :
    pool.workConn = workConn ∧
      io.wrap cfg.useEncryption cfg.useCompression token iv .raw = .ok rwc := by
  unfold getRealConn at hok
  cases herr : pool.err with
  | some err => simp [herr] at hok
  | none =>
      cases hwrap : io.wrap cfg.useEncryption cfg.useCompression token iv
          .raw with
      | error err => simp [herr, hwrap] at hok
      | ok rwc' =>
          simp only [herr, hwrap, Except.ok.injEq, Prod.mk.injEq] at hok
          exact ⟨hok.1, congrArg Except.ok hok.2⟩

/-- Both paths of frps wrap the connection from the pool in the same way. -/
theorem userConn_eq_some {conf : ProxyConf} {token : Bytes}
    {newUserConn : Except Bytes Unit} {pool : PoolResult} {iv : Except Bytes V}
    {conn : Nat} {rwc : End UInt8}
    (hsome : userConn io conf token newUserConn pool iv = some (conn, rwc)) :
    pool.workConn = some conn ∧
      io.wrap conf.getBaseInfo.useEncryption conf.getBaseInfo.useCompression
        token iv .raw = .ok rwc := by
  have huser : ∀ outcome : UserTCP, (match outcome with
      | .joined conn rwc => some (conn, rwc)
      | .rejected _ | .noWorkConn _ | .panicked | .notEncrypted _ _ => none) =
        some (conn, rwc) → outcome = .joined conn rwc := by
    intro outcome houtcome
    cases outcome with
    | joined conn' rwc' => cases houtcome; rfl
    | rejected err => cases houtcome
    | noWorkConn err => cases houtcome
    | panicked => cases houtcome
    | notEncrypted conn' err => cases houtcome
  cases conf with
  | tcp | tcpMux | https | stcp | sudp =>
      exact handleUserTCPConnection_eq_joined (huser _ hsome)
  | http cfg =>
      cases hreal : getRealConn io (ProxyConf.http cfg).getBaseInfo token pool
          iv with
      | error err => simp [userConn, hreal] at hsome
      | ok result =>
          obtain ⟨workConn, rwc'⟩ := result
          cases workConn with
          | none => simp [userConn, hreal] at hsome
          | some conn' =>
              simp only [userConn, hreal, Option.some.injEq,
                Prod.mk.injEq] at hsome
              obtain ⟨rfl, rfl⟩ := hsome
              exact getRealConn_eq_ok hreal
  | udp | xtcp => cases hsome

end server

section client

inductive TransportProtocol where
  | tcpv4
  | tcpv6
deriving DecidableEq, Repr

/-- `pp.Header`; the addresses as they are resolved. -/
structure Header where
  version : UInt8
  transportProtocol : TransportProtocol
  sourceAddr : Bytes
  destinationAddr : Bytes
deriving DecidableEq, Repr

/-- The PROXY header of the user for the local service, where the configuration
asks for one and the message names a user; `writeTo` is `Header.WriteTo`. -/
def extraInfo (writeTo : Header → Bytes) (baseInfo : BaseProxyConf)
    (m : StartWorkConn) : Bytes :=
  if baseInfo.proxyProtocolVersion ≠ [] ∧ m.srcAddr ≠ [] ∧ m.srcPort ≠ 0 then
    let dstAddr := if m.dstAddr = [] then ascii "127.0.0.1" else m.dstAddr
    writeTo
      { version :=
          if baseInfo.proxyProtocolVersion = ascii "v1" then 1
          else if baseInfo.proxyProtocolVersion = ascii "v2" then 2
          else 0
        transportProtocol :=
          if containsSub m.srcAddr (ascii ".") then .tcpv4 else .tcpv6
        sourceAddr := joinHostPort m.srcAddr (formatNat m.srcPort.toNat)
        destinationAddr := joinHostPort dstAddr (formatNat m.dstPort.toNat) }
  else []

/-- What becomes of a work connection. -/
inductive LocalTCP where
  | notEncrypted (err : Bytes)
  | plugin (remote : End UInt8) (extraInfo : Bytes)
  | notDialed (err : Bytes)
  | joined (remote : End UInt8) (extraInfo : Bytes)

/-- The work connection, or the limited reader and writer over it. -/
def workConnEnd : Option Burst → End UInt8
  | none => .raw
  | some b => (limited b).atop .raw

/-- `HandleTCPWorkConnection` up to the join; `dial` is what the dial of the local
service returns. -/
def handleTCPWorkConnection (io : Wrappers V) (writeTo : Header → Bytes)
    (proxyPlugin : Bool) (baseInfo : BaseProxyConf) (limiter : Option Burst)
    (encKey : Bytes) (m : StartWorkConn) (iv : Except Bytes V)
    (dial : Except Bytes Unit) : LocalTCP :=
  match io.wrap baseInfo.useEncryption baseInfo.useCompression encKey iv
      (workConnEnd limiter) with
  | .error err => .notEncrypted err
  | .ok remote =>
      if proxyPlugin then .plugin remote (extraInfo writeTo baseInfo m)
      else
        match dial with
        | .error err => .notDialed err
        | .ok () => .joined remote (extraInfo writeTo baseInfo m)

/-- What `InWorkConn` joins with the local service: the remote stream, and what
it writes to the service first. -/
def inWorkConn (io : Wrappers V) (writeTo : Header → Bytes) (proxyPlugin : Bool)
    (cfg : ProxyConf) (limiter : Option Burst) (token : Bytes) (m : StartWorkConn)
    (iv : Except Bytes V) (dial : Except Bytes Unit) :
    Option (End UInt8 × Bytes) :=
  match cfg with
  | .tcp _ | .tcpMux _ | .http _ | .https _ | .stcp _ =>
      match handleTCPWorkConnection io writeTo proxyPlugin cfg.getBaseInfo
        limiter token m iv dial with
      | .joined remote info => some (remote, info)
      | .notEncrypted _ | .plugin _ _ | .notDialed _ => none
  | .udp _ | .xtcp _ | .sudp _ => none

theorem handleTCPWorkConnection_eq_joined {io : Wrappers V}
    {writeTo : Header → Bytes} {proxyPlugin : Bool} {baseInfo : BaseProxyConf}
    {limiter : Option Burst} {encKey : Bytes} {m : StartWorkConn}
    {iv : Except Bytes V} {dial : Except Bytes Unit} {remote : End UInt8}
    {info : Bytes} (hjoined : handleTCPWorkConnection io writeTo proxyPlugin
      baseInfo limiter encKey m iv dial = .joined remote info) :
    io.wrap baseInfo.useEncryption baseInfo.useCompression encKey iv
        (workConnEnd limiter) = .ok remote ∧
      info = extraInfo writeTo baseInfo m := by
  unfold handleTCPWorkConnection at hjoined
  cases hwrap : io.wrap baseInfo.useEncryption baseInfo.useCompression encKey iv
      (workConnEnd limiter) with
  | error err =>
      rw [hwrap] at hjoined
      cases hjoined
  | ok rwc =>
      cases proxyPlugin with
      | true =>
          rw [hwrap] at hjoined
          cases hjoined
      | false =>
          cases dial with
          | error err =>
              rw [hwrap] at hjoined
              cases hjoined
          | ok =>
              rw [hwrap] at hjoined
              cases hjoined
              exact ⟨rfl, rfl⟩

theorem inWorkConn_eq_some {io : Wrappers V} {writeTo : Header → Bytes}
    {proxyPlugin : Bool} {cfg : ProxyConf} {limiter : Option Burst}
    {token : Bytes} {m : StartWorkConn} {iv : Except Bytes V}
    {dial : Except Bytes Unit} {remote : End UInt8} {info : Bytes}
    (hsome : inWorkConn io writeTo proxyPlugin cfg limiter token m iv dial =
      some (remote, info)) :
    handleTCPWorkConnection io writeTo proxyPlugin cfg.getBaseInfo limiter token
      m iv dial = .joined remote info := by
  have hmatch : ∀ outcome : LocalTCP, (match outcome with
      | .joined remote info => some (remote, info)
      | .notEncrypted _ | .plugin _ _ | .notDialed _ => none) =
        some (remote, info) → outcome = .joined remote info := by
    intro outcome houtcome
    cases outcome with
    | joined remote' info' => cases houtcome; rfl
    | notEncrypted err => cases houtcome
    | plugin remote' info' => cases houtcome
    | notDialed err => cases houtcome
  cases cfg with
  | tcp | tcpMux | http | https | stcp => exact hmatch _ hsome
  | udp | xtcp | sudp => cases hsome

end client

/-- `[]byte` of a string. -/
def keyBytes (text : String) : Bytes := text.toUTF8.toList

/-- A limited end of the work connection and a plain one. -/
theorem carries_workConnEnd (limiter : Option Burst) :
    End.raw.Carries (workConnEnd limiter) ∧
      (workConnEnd limiter).Carries .raw := by
  cases limiter with
  | none => exact ⟨End.Carries.raw, End.Carries.raw⟩
  | some b => exact
      ⟨(carries_limited_back b).atop .raw, (carries_limited b).atop .raw⟩

/-- A link carries in both directions. -/
structure Duplex (near far : End UInt8) : Prop where
  forth : near.Carries far
  back : far.Carries near

theorem Wrappers.Sound.duplex {io : Wrappers V} (hio : io.Sound)
    {useEncryption useCompression : Bool} {key : Bytes} {iv iv' : Except Bytes V}
    {rwc rwc' near far : End UInt8} (hrwc : Duplex rwc rwc')
    (hnear : io.wrap useEncryption useCompression key iv rwc = .ok near)
    (hfar : io.wrap useEncryption useCompression key iv' rwc' = .ok far) :
    Duplex near far :=
  ⟨hio.wrap hrwc.forth hnear hfar, hio.wrap hrwc.back hfar hnear⟩

/-- A proxy of an frpc that has logged in, with what frps has made of its message. -/
structure Registered (md5 : String → List UInt8) where
  client : TokenAuthSetterVerifier
  server : TokenAuthSetterVerifier
  now : Int
  distinct : NoCollision md5 (server.token ++ toString now)
    (client.token ++ toString now)
  login : TokenAuth.verifyLogin md5 server
    (TokenAuth.setLogin md5 client ⟨"", now⟩) = .ok ()
  cfg : ProxyConf
  typed : cfg.Typed
  sent : NewProxy
  carried : sent.Carries (cfg.marshalToMsg .empty)
  serverCfg : ServerCommonConf
  conf : ProxyConf
  accepted : (newProxyConfFromMsg sent serverCfg).2 = .ok conf

namespace Registered

variable {md5 : String → List UInt8}

theorem token_eq (r : Registered md5) : r.client.token = r.server.token :=
  (TokenAuth.checkKey_getAuthKey_iff r.distinct).mp r.login

theorem agrees (r : Registered md5) : r.conf.Agrees r.cfg :=
  (r.cfg.survives_of_carries r.typed r.carried r.serverCfg).decoded r.conf
    r.accepted

/-- frps does with the stream what frpc does. -/
theorem base_agrees (r : Registered md5) :
    r.conf.getBaseInfo.Agrees r.cfg.getBaseInfo :=
  r.agrees.getBaseInfo

end Registered

/-- `if len(extraInfo) > 0`. -/
def service (info : Bytes) : Link UInt8 :=
  ⟨.raw, .raw, if info = [] then [] else [info]⟩

theorem flatten_greeting_service (info : Bytes) :
    (service info).greeting.flatten = info := by
  unfold service
  split
  · next hempty => rw [hempty]; rfl
  · simp

/-- A user of the proxy who has got a work connection: `near` is the end that frps
joins with the user, `far` the end that frpc joins with the service. -/
structure Served {md5 : String → List UInt8} (io : Wrappers V)
    (r : Registered md5) where
  width : Width
  pxy : Server.BaseProxy
  src : Option Bytes
  dst : Option Bytes
  attempts : Nat → Server.Attempt
  newUserConn : Except Bytes Unit
  conn : Nat
  iv : Except Bytes V
  near : End UInt8
  frps : userConn io r.conf (keyBytes r.server.token) newUserConn
    (pxy.getWorkConnFromPool width src dst attempts) iv = some (conn, near)
  m : StartWorkConn
  started : (conn, m) ∈
    (pxy.getWorkConnFromPool width src dst attempts).started
  writeTo : Header → Bytes
  proxyPlugin : Bool
  limiter : Option Burst
  iv' : Except Bytes V
  dial : Except Bytes Unit
  far : End UInt8
  info : Bytes
  frpc : inWorkConn io writeTo proxyPlugin r.cfg limiter
    (keyBytes r.client.token) m iv' dial = some (far, info)

namespace Served

variable {md5 : String → List UInt8} {io : Wrappers V} {r : Registered md5}

/-- The two ends of the work connection understand each other. -/
theorem duplex (hio : io.Sound) (s : Served io r) : Duplex s.near s.far := by
  have hnear := (userConn_eq_some s.frps).2
  have hfar := (handleTCPWorkConnection_eq_joined (inWorkConn_eq_some s.frpc)).1
  rw [r.base_agrees.useEncryption, r.base_agrees.useCompression,
    ← r.token_eq] at hnear
  obtain ⟨hforth, hback⟩ := carries_workConnEnd s.limiter
  exact hio.duplex ⟨hforth, hback⟩ hnear hfar

/-- From frps to the local service. -/
def forth (s : Served io r) : List (Link UInt8) :=
  [⟨s.near, s.far, []⟩, service s.info]

/-- From the local service to frps. -/
def back (s : Served io r) : List (Link UInt8) :=
  [.raw, ⟨s.far, s.near, []⟩]

/-- The PROXY header of the user, as frpc makes it from the message. -/
theorem info_eq (s : Served io r) : s.info = extraInfo s.writeTo
    r.cfg.getBaseInfo (s.pxy.startMsg s.width s.src s.dst) := by
  rw [← Server.started_getWorkConnFromPool s.started]
  exact (handleTCPWorkConnection_eq_joined (inWorkConn_eq_some s.frpc)).2

end Served

/-- An address of TCP as it is printed. -/
structure IsTCPAddr (addr host : Bytes) (port : Nat) : Prop where
  eq : addr = joinHostPort host (formatNat port)
  nonempty : host ≠ []
  openBracket : openBracket ∉ host
  closeBracket : closeBracket ∉ host
  port : port < 65536

/-- The message carries a printed address without loss. -/
theorem IsTCPAddr.addrPort {addr host : Bytes} {port : Nat}
    (haddr : IsTCPAddr addr host port) (w : Width) :
    Server.addrPort w (some addr) = (host, UInt16.ofNat port) := by
  have hdigits : ∀ byte ∈ formatNat port, byte ≠ colon ∧
      byte ≠ GoStrings.openBracket ∧ byte ≠ GoStrings.closeBracket := by
    intro byte hbyte
    have hdigit := isDigit_of_mem_formatNat hbyte
    refine ⟨?_, ?_, ?_⟩ <;>
      · rintro rfl
        revert hdigit
        decide
  have hhalf : (port : Int) < w.half := by
    have hport := haddr.port
    cases w <;> simp only [Width.half] <;> omega
  rw [Server.addrPort, haddr.eq,
    splitHostPort_joinHostPort haddr.openBracket haddr.closeBracket hdigits]
  have hsame : UInt16.ofInt (port : Int) = UInt16.ofNat port := by
    have hmod : (port : Int) % 2 ^ 16 = (port : Int) :=
      Int.emod_eq_of_lt (by omega) (by have := haddr.port; omega)
    rw [UInt16.ofInt, hmod, Int.toNat_natCast]
  simp only [atoi_formatNat w hhalf, hsame]

theorem toNat_port {port : Nat} (hport : port < 65536) :
    (UInt16.ofNat port).toNat = port := by
  rw [UInt16.toNat_ofNat']
  exact Nat.mod_eq_of_lt hport

def percent : UInt8 := 37

def isHex (byte : UInt8) : Bool :=
  isDigit byte || (97 ≤ byte && byte ≤ 102)

/-- An IP address as it is printed, with its family: numbers and dots, or groups
and colons, perhaps with a zone behind them, which may be any name of an
interface. -/
inductive IsIP : Bytes → TransportProtocol → Bytes → Prop where
  | v4 {ip : Bytes} (hbytes : ∀ byte ∈ ip, isDigit byte = true ∨ byte = dot)
      (hdot : dot ∈ ip) : IsIP ip .tcpv4 []
  | v6 {ip : Bytes} (hbytes : ∀ byte ∈ ip, isHex byte = true ∨ byte = colon) :
      IsIP ip .tcpv6 []
  | zoned {ip zone : Bytes}
      (hbytes : ∀ byte ∈ ip, isHex byte = true ∨ byte = colon) :
      IsIP (ip ++ percent :: zone) .tcpv6 zone

theorem containsSub_dot (text : Bytes) :
    containsSub text (ascii ".") = true ↔ dot ∈ text := by
  have hdot : ascii "." = [dot] := by decide
  rw [containsSub_iff, hdot, List.singleton_infix_iff]

/-- What `HandleTCPWorkConnection` takes for the family: a zone with a dot makes
it the older one. -/
theorem IsIP.containsSub_dot {host zone : Bytes} {protocol : TransportProtocol}
    (hip : IsIP host protocol zone) :
    (if containsSub host (ascii ".") then TransportProtocol.tcpv4 else .tcpv6) =
      if dot ∈ zone then .tcpv4 else protocol := by
  have hnone : ∀ ip : Bytes, (∀ byte ∈ ip, isHex byte = true ∨ byte = colon) →
      dot ∉ ip := by
    intro ip hbytes hdot
    rcases hbytes dot hdot with hhex | hcolon
    · revert hhex
      decide
    · revert hcolon
      decide
  simp only [Tunnel.containsSub_dot]
  cases hip with
  | v4 hbytes hdot => simp [hdot]
  | v6 hbytes => simp [hnone host hbytes]
  | zoned hbytes =>
      have hpercent : dot ≠ percent := by decide
      simp [hnone _ hbytes, hpercent]

/-- A header is written exactly where the configuration asks for one and the port
of the user is not zero, and it names the user and the listener as frps sees them;
the reverse proxy of http names no listener.  The family is that of the user's
address, unless the address has a zone with a dot. -/
theorem extraInfo_startMsg (writeTo : Header → Bytes) (baseInfo : BaseProxyConf)
    (pxy : Server.BaseProxy) (w : Width) {src host zone : Bytes} {port : Nat}
    {protocol : TransportProtocol} (hsrc : IsTCPAddr src host port)
    (hip : IsIP host protocol zone) {dst : Option Bytes}
    (hdst : ∀ addr, dst = some addr → ∃ host port, IsTCPAddr addr host port) :
    extraInfo writeTo baseInfo (pxy.startMsg w (some src) dst) =
      if baseInfo.proxyProtocolVersion ≠ [] ∧ port ≠ 0 then
        writeTo
          { version :=
              if baseInfo.proxyProtocolVersion = ascii "v1" then 1
              else if baseInfo.proxyProtocolVersion = ascii "v2" then 2
              else 0
            transportProtocol := if dot ∈ zone then .tcpv4 else protocol
            sourceAddr := src
            destinationAddr := dst.getD (ascii "127.0.0.1:0") }
      else [] := by
  have hport := toNat_port hsrc.port
  have hzero : UInt16.ofNat port ≠ 0 ↔ port ≠ 0 := by
    rw [Ne, ← UInt16.toNat_inj, hport]
    rfl
  have hdestination : joinHostPort
      (if (Server.addrPort w dst).1 = [] then ascii "127.0.0.1"
        else (Server.addrPort w dst).1)
      (formatNat (Server.addrPort w dst).2.toNat) =
        dst.getD (ascii "127.0.0.1:0") := by
    cases dst with
    | none =>
        have hnone : joinHostPort (ascii "127.0.0.1")
            (formatNat (UInt16.ofInt 0).toNat) = ascii "127.0.0.1:0" := by decide
        exact hnone
    | some addr =>
        obtain ⟨host', port', haddr⟩ := hdst addr rfl
        rw [haddr.addrPort w, if_neg haddr.nonempty, toNat_port haddr.port,
          Option.getD_some, haddr.eq]
  have hsource : joinHostPort host (formatNat port) = src := hsrc.eq.symm
  unfold extraInfo Server.BaseProxy.startMsg
  simp only [hsrc.addrPort w, hdestination, hport, hsource, hzero, ne_eq,
    hsrc.nonempty, not_false_eq_true, true_and, hip.containsSub_dot]

theorem isTCPAddr_ipv6 :
    IsTCPAddr (ascii "[fe80::1%eth0]:5000") (ascii "fe80::1%eth0") 5000 where
  eq := by decide
  nonempty := by decide
  openBracket := by decide
  closeBracket := by decide
  port := by decide

theorem isIP_ipv6 : IsIP (ascii "fe80::1%eth0") .tcpv6 (ascii "eth0") := by
  have hbytes : ∀ byte ∈ ascii "fe80::1", isHex byte = true ∨ byte = colon := by
    decide +kernel
  exact .zoned hbytes

/-- A header that shows the addresses and the family. -/
def shownHeader (header : Header) : Bytes :=
  header.sourceAddr ++ ascii " " ++ header.destinationAddr ++
    (if header.transportProtocol = .tcpv6 then ascii " TCP6" else ascii " TCP4")

/-- A user of http with an address of the newer kind. -/
theorem extraInfo_startMsg_ipv6 :
    extraInfo shownHeader
      { defaultBaseProxyConf consts.httpProxy with
        proxyProtocolVersion := ascii "v2" }
      (Server.BaseProxy.startMsg .bits64 ⟨ascii "web", 0⟩
        (some (ascii "[fe80::1%eth0]:5000")) none) =
      ascii "[fe80::1%eth0]:5000 127.0.0.1:0 TCP6" := by
  rw [extraInfo_startMsg _ _ _ .bits64 isTCPAddr_ipv6 isIP_ipv6
    (fun addr haddr => by cases haddr)]
  decide

/-- A vlan interface has a dot in its name. -/
example :
    extraInfo shownHeader
      { defaultBaseProxyConf consts.httpProxy with
        proxyProtocolVersion := ascii "v2" }
      (Server.BaseProxy.startMsg .bits64 ⟨ascii "web", 0⟩
        (some (ascii "[fe80::1%eth0.100]:5000")) none) =
      ascii "[fe80::1%eth0.100]:5000 127.0.0.1:0 TCP4" := by decide

/-- A link that carries and adds nothing. -/
structure Plain (link : Link UInt8) : Prop where
  carries : link.Carries
  silent : link.greeting = []

theorem plain_raw : Plain .raw := ⟨Link.carries_raw, rfl⟩

/-- With any plain links between the user and frps, each side gets what the other
one sent, and the service gets the PROXY header before it. -/
theorem Served.transparent_behind {md5 : String → List UInt8} {io : Wrappers V}
    {r : Registered md5} (hio : io.Sound) (s : Served io r)
    {front rear : List (Link UInt8)} (hfront : ∀ link ∈ front, Plain link)
    (hrear : ∀ link ∈ rear, Plain link) :
    Chain.TransparentAfter (front ++ s.forth) (extraInfo s.writeTo
        r.cfg.getBaseInfo (s.pxy.startMsg s.width s.src s.dst)) ∧
      Chain.TransparentAfter (s.back ++ rear) [] := by
  obtain ⟨hforth, hback⟩ := s.duplex hio
  have hservice : (service s.info).Carries := Link.carries_raw
  constructor
  · have hgreeting : Chain.greetings (front ++ s.forth) = extraInfo s.writeTo
        r.cfg.getBaseInfo (s.pxy.startMsg s.width s.src s.dst) := by
      rw [Chain.greetings_append,
        Chain.greetings_eq_nil fun link hlink => (hfront link hlink).silent,
        List.append_nil, ← s.info_eq]
      simp [Chain.greetings, forth, flatten_greeting_service]
    rw [← hgreeting]
    apply Chain.transparentAfter (by simp [forth])
    intro link hlink
    rcases List.mem_append.mp hlink with hin | hin
    · exact (hfront link hin).carries
    · simp only [forth, List.mem_cons, List.not_mem_nil, or_false] at hin
      rcases hin with rfl | rfl
      · exact hforth
      · exact hservice
  · have hgreeting : Chain.greetings (s.back ++ rear) = [] := by
      rw [Chain.greetings_append,
        Chain.greetings_eq_nil fun link hlink => (hrear link hlink).silent]
      rfl
    rw [← hgreeting]
    apply Chain.transparentAfter (by simp [back])
    intro link hlink
    rcases List.mem_append.mp hlink with hin | hin
    · simp only [back, List.mem_cons, List.not_mem_nil, or_false] at hin
      rcases hin with rfl | rfl
      · exact Link.carries_raw
      · exact hback
    · exact (hrear link hin).carries

/-- A wrapper that puts a tag in front of all that is written, and without the tag
hands out nothing. -/
def tagged (tag : Bytes) : End UInt8 where
  write chunks := if chunks = [] then [] else tag :: chunks
  read bytes := if tag <+: bytes then bytes.drop tag.length else []

theorem carries_tagged (tag : Bytes) : (tagged tag).Carries (tagged tag) where
  keeps chunks more := by
    cases chunks with
    | nil => exact List.nil_prefix
    | cons chunk rest => simp [tagged]
  grows {bytes more} hpre := by
    by_cases htag : tag <+: bytes
    · simp only [tagged, htag, htag.trans hpre, if_true]
      exact hpre.drop tag.length
    · simp only [tagged, htag, if_false]
      exact List.nil_prefix
  inverts chunks := by
    cases chunks with
    | nil => simp [tagged]
    | cons chunk rest => simp [tagged]

/-- Stand-ins that mark an encrypted stream with the key and a compressed one with
a byte. -/
def sampleWrappers : Wrappers Unit :=
  ⟨fun key _ => tagged (0 :: key), tagged [1]⟩

theorem sound_sampleWrappers : sampleWrappers.Sound :=
  ⟨fun _ _ _ => carries_tagged _, carries_tagged _⟩

def sampleConf (wrapped : Bool) (proxyProtocolVersion : Bytes) : ProxyConf :=
  .tcp ⟨{ defaultBaseProxyConf consts.tcpProxy with
    proxyName := ascii "ssh"
    useEncryption := wrapped
    useCompression := wrapped
    proxyProtocolVersion := proxyProtocolVersion }, 6000⟩

def sampleRegistered (wrapped : Bool) : Registered TokenAuth.sampleDigest where
  client := ⟨⟨false, false⟩, "token"⟩
  server := ⟨⟨false, false⟩, "token"⟩
  now := 1600000000
  distinct _ := rfl
  login := by decide
  cfg := sampleConf wrapped (ascii "v1")
  typed := rfl
  sent := (sampleConf wrapped (ascii "v1")).marshalToMsg .empty
  carried := rfl
  serverCfg := ⟨0, 0, 0, []⟩
  conf := sampleConf wrapped []
  accepted := rfl

/-- The stream of the sample over a connection. -/
def sampleEnd (wrapped : Bool) : End UInt8 :=
  match wrapped with
  | true => (tagged [1]).atop ((tagged (0 :: keyBytes "token")).atop .raw)
  | false => .raw

def sampleServed (wrapped : Bool) :
    Served sampleWrappers (sampleRegistered wrapped) where
  width := .bits64
  pxy := ⟨ascii "ssh", 1⟩
  src := some (ascii "192.0.2.1:5000")
  dst := some (ascii "198.51.100.1:6000")
  attempts _ := ⟨.ok 7, none⟩
  newUserConn := .ok ()
  conn := 7
  iv := .ok ()
  near := sampleEnd wrapped
  frps := by cases wrapped <;> rfl
  m := Server.BaseProxy.startMsg .bits64 ⟨ascii "ssh", 1⟩
    (some (ascii "192.0.2.1:5000")) (some (ascii "198.51.100.1:6000"))
  started := by decide
  writeTo _ := ascii "PROXY TCP4 192.0.2.1 198.51.100.1 5000 6000\r\n"
  proxyPlugin := false
  limiter := none
  iv' := .ok ()
  dial := .ok ()
  far := sampleEnd wrapped
  info := ascii "PROXY TCP4 192.0.2.1 198.51.100.1 5000 6000\r\n"
  frpc := by cases wrapped <;> rfl

end Tunnel

end Frp
