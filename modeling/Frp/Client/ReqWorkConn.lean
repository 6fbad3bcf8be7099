/-
A work connection that frpc opens for frps: `HandleReqWorkConn` of
`client/control.go`, `Manager.HandleWorkConn` of `client/proxy/proxy_manager.go`
and `Wrapper.InWorkConn`, with the two setters of `pkg/auth`.  The chain is a
function of what its calls answer and returns what becomes of the connection.
-/
import Frp.Auth.OIDC
import Frp.Client.Wrapper
import Frp.Server.VisitorManager
import Frp.Server.WorkConnPool

namespace Frp

/-- The message that binds a work connection to a run id. -/
structure NewWorkConn where
  runID : String
  privilegeKey : String
  timestamp : Int
deriving DecidableEq, Repr

/-- What `NewAuthSetter` makes for the methods token and oidc. -/
inductive AuthSetter where
  | tokenAuth (base : AuthBaseConfig) (token : String)
  | oidcAuth (base : AuthBaseConfig)
deriving DecidableEq, Repr

namespace AuthSetter

def generateAccessToken (tokenObj : Except String String) :
    Except String String :=
  match tokenObj with
  | .error err => .error ("couldn't generate OIDC token for login: " ++ err)
  | .ok accessToken => .ok accessToken

/-- `tokenObj` is the answer of the token endpoint.  A failed call leaves an
empty key in the message. -/
def setNewWorkConn (md5 : String → List UInt8) (now : Int)
    (tokenObj : Except String String) (m : NewWorkConn) :
    AuthSetter → NewWorkConn × Option String
  | .tokenAuth base token =>
      if base.authenticateNewWorkConns then
        ({ m with
            timestamp := now
            privilegeKey := getAuthKey md5 token now }, none)
      else (m, none)
  | .oidcAuth base =>
      if base.authenticateNewWorkConns then
        match generateAccessToken tokenObj with
        | .error err => ({ m with privilegeKey := "" }, some err)
        | .ok key => ({ m with privilegeKey := key }, none)
      else (m, none)

/-- The token endpoint is asked for a key and has none. -/
def LacksKey (tokenObj : Except String String) : AuthSetter → Prop
  | .tokenAuth _ _ => False
  | .oidcAuth base =>
      base.authenticateNewWorkConns = true ∧ ∃ err, tokenObj = .error err

theorem setNewWorkConn_eq_none_iff (md5 : String → List UInt8) (now : Int)
    (tokenObj : Except String String) (m : NewWorkConn) (auth : AuthSetter) :
    (auth.setNewWorkConn md5 now tokenObj m).2 = none ↔
      ¬ auth.LacksKey tokenObj := by
  cases auth with
  | tokenAuth base token =>
      cases hbase : base.authenticateNewWorkConns with
      | true => simp [setNewWorkConn, LacksKey, hbase]
      | false => simp [setNewWorkConn, LacksKey, hbase]
  | oidcAuth base =>
      cases hbase : base.authenticateNewWorkConns with
      | false => simp [setNewWorkConn, LacksKey, hbase]
      | true =>
          cases tokenObj with
          | error err =>
              simp [setNewWorkConn, generateAccessToken, LacksKey, hbase]
          | ok key =>
              simp [setNewWorkConn, generateAccessToken, LacksKey, hbase]

end AuthSetter

/-- The fields of `ClientCommonConf` that `connectServer` reads. -/
structure ClientCommonConf where
  tcpMux : Bool
  serverAddr : String
  serverPort : Nat
  tlsEnable : Bool
  tlsServerName : String
  tlsCertFile : String
  tlsKeyFile : String
  tlsTrustedCaFile : String
  httpProxy : String
  protocol : String
  connectServerLocalIP : String
  dialServerTimeout : Int
  dialServerKeepAlive : Int
  disableCustomTLSFirstByte : Bool
deriving DecidableEq, Repr

/-- The options of `libdial.Dial`; `headByte` holds when the hook of
`DialHookCustomTLSHeadByte` writes the byte. -/
structure DialOptions (TLS Proxy : Type) where
  websocket : Bool
  localAddr : Option String
  protocol : String
  timeout : Int
  keepAlive : Int
  proxy : Proxy
  tlsConfig : Option TLS
  headByte : Bool

/-- The libraries under `connectServer`: the session, `NewClientTLSConfig`,
`ParseProxyURL` and `Dial`. -/
structure Dialer (TLS Proxy : Type) where
  openStream : Except String Nat
  newClientTLSConfig :
    String → String → String → String → Except String TLS
  parseProxyURL : String → Except String Proxy
  dial : String → Nat → DialOptions TLS Proxy → Except String Nat

namespace ClientCommonConf

variable {TLS Proxy : Type}

def tlsConfig (cfg : ClientCommonConf) (dialer : Dialer TLS Proxy) :
    Except String (Option TLS) :=
  let sn :=
    if cfg.tlsServerName = "" then cfg.serverAddr else cfg.tlsServerName
  if cfg.tlsEnable then
    some <$> dialer.newClientTLSConfig cfg.tlsCertFile cfg.tlsKeyFile
      cfg.tlsTrustedCaFile sn
  else .ok none

def dialOptions (cfg : ClientCommonConf) (proxy : Proxy)
    (tlsConfig : Option TLS) : DialOptions TLS Proxy where
  websocket := cfg.protocol = "websocket"
  localAddr :=
    if cfg.connectServerLocalIP = "" then none
    else some cfg.connectServerLocalIP
  protocol := if cfg.protocol = "websocket" then "tcp" else cfg.protocol
  timeout := cfg.dialServerTimeout
  keepAlive := cfg.dialServerKeepAlive
  proxy := proxy
  tlsConfig := tlsConfig
  headByte := tlsConfig.isSome && !cfg.disableCustomTLSFirstByte

end ClientCommonConf

/-- A stream of the session, or a connection of its own. -/
def connectServer {TLS Proxy : Type} (cfg : ClientCommonConf)
    (dialer : Dialer TLS Proxy) : Except String Nat :=
  if cfg.tcpMux then dialer.openStream
  else do
    let tlsConfig ← cfg.tlsConfig dialer
    let proxy ← dialer.parseProxyURL cfg.httpProxy
    dialer.dial cfg.serverAddr cfg.serverPort (cfg.dialOptions proxy tlsConfig)

namespace ReqWorkConn

open GoStrings

/-- What the client does with a work connection, in order. -/
inductive ConnEvent where
  | write (m : NewWorkConn)
  | inWorkConn (pxy : Nat) (m : Server.StartWorkConn)
  | close
deriving DecidableEq, Repr

/-- A Wrapper as `InWorkConn` finds it.  `phase` is read after the mutex has been
released. -/
structure Found where
  pxy : Option Nat
  phase : Phase
deriving DecidableEq, Repr

/-- `Wrapper.InWorkConn`. -/
def Found.inWorkConn (pw : Found) (m : Server.StartWorkConn) :
    List ConnEvent :=
  match pw.pxy with
  | some pxy =>
      if pw.phase = .running then [.inWorkConn pxy m] else [.close]
  | none => [.close]

/-- `Manager.HandleWorkConn`. -/
def handleWorkConn (proxies : Bytes → Option Found) (name : Bytes)
    (m : Server.StartWorkConn) : List ConnEvent :=
  match proxies name with
  | some pw => pw.inWorkConn m
  | none => [.close]

/-- The fields of a Control that answer a request. -/
structure Control where
  runID : String
  clientCfg : ClientCommonConf
  authSetter : AuthSetter

/-- What the calls of one request answer, `proxies` the Wrappers by name at the
time. -/
structure Answers (TLS Proxy : Type) where
  dialer : Dialer TLS Proxy
  now : Int
  tokenObj : Except String String
  write : Option String
  read : Except String Server.StartWorkConn
  proxies : Bytes → Option Found

/-- From the StartWorkConn message on. -/
def startWorkConn (proxies : Bytes → Option Found) :
    Except String Server.StartWorkConn → List ConnEvent
  | .error _ => [.close]
  | .ok startMsg =>
      if startMsg.error ≠ [] then [.close]
      else handleWorkConn proxies startMsg.proxyName startMsg

/-- The connection that was opened, and what has been done with it. -/
structure Handled where
  workConn : Nat
  events : List ConnEvent
deriving DecidableEq, Repr

variable {TLS Proxy : Type} (md5 : String → List UInt8)

/-- The connection stays open where `SetNewWorkConn` fails. -/
def handleReqWorkConn (ctl : Control) (a : Answers TLS Proxy) :
    Option Handled :=
  match connectServer ctl.clientCfg a.dialer with
  | .error _ => none
  | .ok workConn =>
      match ctl.authSetter.setNewWorkConn md5 a.now a.tokenObj
          ⟨ctl.runID, "", 0⟩ with
      | (_, some _) => some ⟨workConn, []⟩
      | (m, none) =>
          if a.write.isSome then some ⟨workConn, [.write m, .close]⟩
          else some ⟨workConn, .write m :: startWorkConn a.proxies a.read⟩

/-- The proxies that the connection has been passed to. -/
def Handled.handedTo (h : Handled) : List Nat :=
  h.events.filterMap fun event =>
    match event with
    | .inWorkConn pxy _ => some pxy
    | _ => none

/-- Exactly one `InWorkConn` has the connection, or it has been closed. -/
def Handled.Released (h : Handled) : Prop :=
  h.handedTo.length = 1 ∨ .close ∈ h.events

instance (h : Handled) : Decidable h.Released :=
  inferInstanceAs (Decidable (_ ∨ _))

/-- The two ways in which a connection leaves the chain. -/
def ConnEvent.Ends : ConnEvent → Prop
  | .write _ => False
  | .inWorkConn _ _ => True
  | .close => True

theorem inWorkConn_ends (pw : Found) (m : Server.StartWorkConn) :
    ∃ last, pw.inWorkConn m = [last] ∧ last.Ends := by
  cases hpxy : pw.pxy with
  | none => exact ⟨.close, by simp [Found.inWorkConn, hpxy], trivial⟩
  | some pxy =>
      by_cases hphase : pw.phase = .running
      · exact ⟨.inWorkConn pxy m, by simp [Found.inWorkConn, hpxy, hphase],
          trivial⟩
      · exact ⟨.close, by simp [Found.inWorkConn, hpxy, hphase], trivial⟩

/-- With the server's answer on, the chain ends with one event that is either. -/
theorem startWorkConn_ends (proxies : Bytes → Option Found)
    (read : Except String Server.StartWorkConn) :
    ∃ last, startWorkConn proxies read = [last] ∧ last.Ends := by
  cases read with
  | error err => exact ⟨.close, rfl, trivial⟩
  | ok startMsg =>
      by_cases herror : startMsg.error = []
      · have hstart : startWorkConn proxies (.ok startMsg) =
            handleWorkConn proxies startMsg.proxyName startMsg := by
          simp [startWorkConn, herror]
        rw [hstart, handleWorkConn]
        cases proxies startMsg.proxyName with
        | none => exact ⟨.close, rfl, trivial⟩
        | some pw => exact inWorkConn_ends pw startMsg
      · exact ⟨.close, by simp [startWorkConn, herror], trivial⟩

theorem Handled.released_of_ends {conn : Nat} {m : NewWorkConn}
    {last : ConnEvent} (hends : last.Ends) :
    Handled.Released ⟨conn, [.write m, last]⟩ := by
  cases last with
  | write m' => exact hends.elim
  | inWorkConn pxy start => exact Or.inl rfl
  | close => exact Or.inr (by simp)

/-- All that the chain can do with a connection that was opened. -/
theorem handleReqWorkConn_cases (ctl : Control) (a : Answers TLS Proxy)
    {conn : Nat} (hconn : connectServer ctl.clientCfg a.dialer = .ok conn) :
    (ctl.authSetter.LacksKey a.tokenObj ∧
      handleReqWorkConn md5 ctl a = some ⟨conn, []⟩) ∨
    (¬ ctl.authSetter.LacksKey a.tokenObj ∧ ∃ m last,
      handleReqWorkConn md5 ctl a = some ⟨conn, [.write m, last]⟩ ∧
      last.Ends) := by
  have hset := AuthSetter.setNewWorkConn_eq_none_iff md5 a.now a.tokenObj
    ⟨ctl.runID, "", 0⟩ ctl.authSetter
  rcases hm : ctl.authSetter.setNewWorkConn md5 a.now a.tokenObj
    ⟨ctl.runID, "", 0⟩ with ⟨m, err⟩
  rw [hm] at hset
  cases err with
  | some err =>
      left
      refine ⟨?_, by simp [handleReqWorkConn, hconn, hm]⟩
      by_contra hkey
      exact absurd (hset.mpr hkey) (by simp)
  | none =>
      right
      refine ⟨hset.mp rfl, m, ?_⟩
      cases hwrite : a.write with
      | some err =>
          exact ⟨.close, by simp [handleReqWorkConn, hconn, hm, hwrite],
            trivial⟩
      | none =>
          obtain ⟨last, hlast, hends⟩ := startWorkConn_ends a.proxies a.read
          exact ⟨last, by simp [handleReqWorkConn, hconn, hm, hwrite, hlast],
            hends⟩

/-- A connection that was opened is passed on once or closed, except where the
setter was to fetch a key and could not. -/
theorem released_iff_not_lacksKey (ctl : Control) (a : Answers TLS Proxy) :
    (∀ conn, connectServer ctl.clientCfg a.dialer = .ok conn →
      ∃ h, handleReqWorkConn md5 ctl a = some h ∧ h.workConn = conn ∧
        h.Released) ↔
    (∀ conn, connectServer ctl.clientCfg a.dialer = .ok conn →
      ¬ ctl.authSetter.LacksKey a.tokenObj) := by
  constructor
  · intro hreleased conn hconn hkey
    obtain ⟨h, hh, _, hrel⟩ := hreleased conn hconn
    rcases handleReqWorkConn_cases md5 ctl a hconn with
      ⟨_, hopen⟩ | ⟨hok, _⟩
    · rw [hopen] at hh
      cases hh
      simp [Handled.Released, Handled.handedTo] at hrel
    · exact hok hkey
  · intro hkey conn hconn
    rcases handleReqWorkConn_cases md5 ctl a hconn with
      ⟨hlacks, _⟩ | ⟨_, m, last, hlast, hends⟩
    · exact absurd hlacks (hkey conn hconn)
    · exact ⟨_, hlast, rfl, Handled.released_of_ends hends⟩

/-- A client that shows an OIDC key on every work connection. -/
def oidcControl : Control where
  runID := "run"
  clientCfg :=
    ⟨true, "frps", 7000, false, "", "", "", "", "", "tcp", "", 10, 7200, false⟩
  authSetter := .oidcAuth ⟨false, true⟩

/-- The session opens stream 1, the token endpoint does not answer. -/
def endpointDown : Answers Unit Unit where
  dialer :=
    ⟨.ok 1, fun _ _ _ _ => .ok (), fun _ => .ok (), fun _ _ _ => .ok 2⟩
  now := 0
  tokenObj := .error "connection refused"
  write := none
  read := .error "EOF"
  proxies := fun _ => none

theorem not_released_endpointDown :
    connectServer oidcControl.clientCfg endpointDown.dialer = .ok 1 ∧
      ∃ h, handleReqWorkConn (fun _ => []) oidcControl endpointDown = some h ∧
        h.workConn = 1 ∧ ¬ h.Released := by
  exact ⟨rfl, ⟨1, []⟩, rfl, rfl, by decide⟩

end ReqWorkConn

end Frp
