/-
How frps looks at the first bytes of a connection without taking them from whoever
gets it afterwards: the TLS check of `pkg/util/net/tls.go`, `GetHTTPSHostname` of
`pkg/util/vhost/https.go` and the CONNECT muxer of `pkg/util/tcpmux/httpconnect.go`.
All three read through the reader of a `gnet.SharedConn`.
-/
import Frp.Vhost.MuxHandle

namespace Frp

open GoStrings MuxHandle

namespace Sniff

/-- `FRPTLSHeadByte`. -/
def frpTLSHeadByte : UInt8 := 0x17

/-- The type of a TLS record that carries a handshake. -/
def handshakeByte : UInt8 := 0x16

inductive TLSError where
  | read
  | nonTLS
deriving DecidableEq, Repr

def TLSError.text : TLSError → String
  | .read => "EOF"
  | .nonTLS => "non-TLS connection received on a TlsOnly server"

/-- What is read from `out` below the TLS layer, if there is one. -/
structure Checked where
  out : Bytes
  isTLS : Bool
  custom : Bool
deriving DecidableEq, Repr

/-- A method and the fields that the CONNECT muxer reads. -/
structure ConnectRequest where
  method : Bytes
  host : Bytes
  proxyAuthorization : Bytes
deriving DecidableEq, Repr

/-- What a parser says about the bytes that it has seen so far. -/
inductive Parsed (R : Type) where
  | incomplete
  | malformed
  | parsed (r : R) (len : Nat)
deriving DecidableEq

inductive SniffError where
  | eof
  | malformed
  | notConnect
deriving DecidableEq, Repr

/-- The bytes that went through the reader, and what the connection still holds
in the pieces in which it will be read. -/
structure Seen where
  seen : Bytes
  rest : List Bytes
deriving DecidableEq, Repr

structure HTTPConnectTCPMuxer where
  passthrough : Bool
  authRequired : Bool

/-- `NewHTTPConnectTCPMuxer`. -/
def newHTTPConnectTCPMuxer (passthrough : Bool) : HTTPConnectTCPMuxer :=
  ⟨passthrough, false⟩

/-- What `DialHookCustomTLSHeadByte` writes before the TLS layer. -/
def dialHook (enableTLS disableCustomTLSHeadByte : Bool) : Bytes :=
  if enableTLS && !disableCustomTLSHeadByte then [frpTLSHeadByte] else []

/-- A reader goes on with the next piece until its parser has enough. -/
def readParsed {R : Type} (parse : Bytes → Parsed R) (seen : Bytes) :
    List Bytes → Except SniffError (R × Seen)
  | [] =>
      match parse seen with
      | .parsed r _ => .ok (r, ⟨seen, []⟩)
      | .malformed => .error .malformed
      | .incomplete => .error .eof
  | piece :: rest =>
      match parse seen with
      | .parsed r _ => .ok (r, ⟨seen, piece :: rest⟩)
      | .malformed => .error .malformed
      | .incomplete => readParsed parse (seen ++ piece) rest

section Shared

-- What a `SharedConn` reads, from the bytes that went through its reader and the
-- rest of the connection.
variable (replay : Bytes → Bytes → Bytes)

/-- `CheckAndEnableTLSServerConnWithTimeout`, which reads one byte. -/
def checkAndEnableTLS (tlsOnly : Bool) : Bytes → Except TLSError Checked
  | [] => .error .read
  | byte :: rest =>
      if byte = frpTLSHeadByte then .ok ⟨rest, true, true⟩
      else if byte = handshakeByte then .ok ⟨replay [byte] rest, true, false⟩
      else if tlsOnly then .error .nonTLS
      else .ok ⟨replay [byte] rest, false, false⟩

/-- `GetHTTPSHostname`; `hello` reads the server name of a Client Hello. -/
def getHTTPSHostname (hello : Bytes → Parsed Bytes) (pieces : List Bytes) :
    Except SniffError (Bytes × ReqInfo) :=
  match readParsed hello [] pieces with
  | .error err => .error err
  | .ok (serverName, s) =>
      .ok (replay s.seen s.rest.flatten, ⟨serverName, [], []⟩)

variable (toLower : Bytes → Bytes)

/-- What `readHTTPConnectRequest` takes from a request. -/
def connectReqInfo (req : ConnectRequest) : ReqInfo :=
  let httpUser :=
    if req.proxyAuthorization ≠ [] then
      (parseBasicAuth req.proxyAuthorization).1.user
    else []
  ⟨(canonicalHost toLower req.host).1, [], httpUser⟩

/-- `getHostFromHTTPConnect`; `request` is `http.ReadRequest`. -/
def HTTPConnectTCPMuxer.getHostFromHTTPConnect (muxer : HTTPConnectTCPMuxer)
    (request : Bytes → Parsed ConnectRequest) (pieces : List Bytes) :
    Except SniffError (Bytes × ReqInfo) :=
  match readParsed request [] pieces with
  | .error err => .error err
  | .ok (req, s) =>
      if req.method ≠ ascii "CONNECT" then .error .notConnect
      else
        let reqInfo := connectReqInfo toLower req
        let outConn :=
          if muxer.passthrough then
            if muxer.authRequired && reqInfo.httpUser == [] then s.rest.flatten
            else replay s.seen s.rest.flatten
          else s.rest.flatten
        .ok (outConn, reqInfo)

end Shared

/-- A parser has enough with the first `k` pieces and not before. -/
def Enough {R : Type} (parse : Bytes → Parsed R) (pieces : List Bytes) (k : Nat)
    (r : R) (len : Nat) : Prop :=
  k ≤ pieces.length ∧
    parse (pieces.take k).flatten = .parsed r len ∧
      ∀ j, j < k → parse (pieces.take j).flatten = .incomplete

theorem readParsed_ok {R : Type} {parse : Bytes → Parsed R} {r : R} {s : Seen}
    {pieces : List Bytes} (seen : List Bytes)
    (hread : readParsed parse seen.flatten pieces = .ok (r, s))
    (hbefore : ∀ j, j < seen.length →
      parse ((seen ++ pieces).take j).flatten = .incomplete) :
    ∃ k len, Enough parse (seen ++ pieces) k r len ∧
      s = ⟨((seen ++ pieces).take k).flatten, (seen ++ pieces).drop k⟩ := by
  induction pieces generalizing seen with
  | nil =>
      simp only [List.append_nil] at hbefore ⊢
      cases hparse : parse seen.flatten with
      | incomplete => simp [readParsed, hparse] at hread
      | malformed => simp [readParsed, hparse] at hread
      | parsed r' len =>
          simp only [readParsed, hparse, Except.ok.injEq, Prod.mk.injEq] at hread
          obtain ⟨rfl, rfl⟩ := hread
          exact ⟨seen.length, len, ⟨le_rfl, by simpa using hparse, hbefore⟩,
            by simp⟩
  | cons piece rest ih =>
      cases hparse : parse seen.flatten with
      | malformed => simp [readParsed, hparse] at hread
      | parsed r' len =>
          simp only [readParsed, hparse, Except.ok.injEq, Prod.mk.injEq] at hread
          obtain ⟨rfl, rfl⟩ := hread
          exact ⟨seen.length, len, ⟨by simp, by simpa using hparse, hbefore⟩,
            by simp⟩
      | incomplete =>
          simp only [readParsed, hparse] at hread
          have hassoc : seen ++ piece :: rest = (seen ++ [piece]) ++ rest := by simp
          rw [hassoc] at hbefore ⊢
          refine ih (seen ++ [piece]) (by simpa using hread) fun j hj => ?_
          rw [List.length_append, List.length_singleton] at hj
          rcases Nat.lt_succ_iff_lt_or_eq.mp hj with hlt | rfl
          · exact hbefore j hlt
          · simpa using hparse

/-- The bytes that a muxer has read go on in front of the others. -/
theorem readParsed_split {R : Type} {parse : Bytes → Parsed R} {r : R} {s : Seen}
    {pieces : List Bytes} (hread : readParsed parse [] pieces = .ok (r, s)) :
    ∃ k len, Enough parse pieces k r len ∧
      s = ⟨(pieces.take k).flatten, (pieces.drop k)⟩ := by
  simpa using readParsed_ok [] (by simpa using hread) (by simp)

theorem readParsed_of_enough {R : Type} {parse : Bytes → Parsed R} {r : R}
    {k len : Nat} {pieces : List Bytes} (seen : List Bytes)
    (henough : Enough parse (seen ++ pieces) k r len) (hk : seen.length ≤ k) :
    readParsed parse seen.flatten pieces =
      .ok (r, ⟨((seen ++ pieces).take k).flatten, (seen ++ pieces).drop k⟩) := by
  induction pieces generalizing seen with
  | nil =>
      obtain ⟨hle, hparse, -⟩ := henough
      simp only [List.append_nil] at hle hparse ⊢
      obtain rfl : k = seen.length := le_antisymm hle hk
      rw [List.take_length] at hparse
      simp [readParsed, hparse]
  | cons piece rest ih =>
      rcases hk.lt_or_eq with hlt | rfl
      · have hparse := henough.2.2 seen.length hlt
        rw [List.take_left] at hparse
        have hassoc : seen ++ piece :: rest = (seen ++ [piece]) ++ rest := by simp
        rw [hassoc] at henough ⊢
        simp only [readParsed, hparse]
        simpa using ih (seen ++ [piece]) henough (by simpa using Nat.succ_le_of_lt hlt)
      · have hparse := henough.2.1
        rw [List.take_left] at hparse
        simp [readParsed, hparse]

theorem readParsed_iff {R : Type} {parse : Bytes → Parsed R} {r : R} {s : Seen}
    {pieces : List Bytes} :
    readParsed parse [] pieces = .ok (r, s) ↔
      ∃ k len, Enough parse pieces k r len ∧
        s = ⟨(pieces.take k).flatten, pieces.drop k⟩ := by
  constructor
  · exact readParsed_split
  · rintro ⟨k, len, henough, rfl⟩
    exact readParsed_of_enough [] henough (Nat.zero_le k)

section HandOver

variable {replay : Bytes → Bytes → Bytes}

/-- For every way in which a client may be set up: a plain one is turned away by a
server with `tls_only`, and otherwise the server finds the layers that the client
has put on and reads what the client wrote below them. -/
theorem checkAndEnableTLS_dialHook
    (hshared : ∀ seen rest, replay seen rest = seen ++ rest)
    {enableTLS : Bool} {byte : UInt8} {rest : Bytes}
    (htls : enableTLS = true → byte = handshakeByte)
    (hplain : enableTLS = false → byte ≠ handshakeByte ∧ byte ≠ frpTLSHeadByte)
    (disableCustomTLSHeadByte tlsOnly : Bool) :
    checkAndEnableTLS replay tlsOnly
        (dialHook enableTLS disableCustomTLSHeadByte ++ byte :: rest) =
      if tlsOnly && !enableTLS then .error .nonTLS
      else .ok ⟨byte :: rest, enableTLS, enableTLS && !disableCustomTLSHeadByte⟩ := by
  have hne : handshakeByte ≠ frpTLSHeadByte := by decide
  cases enableTLS with
  | true =>
      obtain rfl := htls rfl
      cases disableCustomTLSHeadByte <;>
        simp [dialHook, checkAndEnableTLS, hshared, hne]
  | false =>
      obtain ⟨hhandshake, hhead⟩ := hplain rfl
      cases tlsOnly <;> simp [dialHook, checkAndEnableTLS, hshared, hhandshake, hhead]

theorem replay_pieces (hshared : ∀ seen rest, replay seen rest = seen ++ rest)
    (pieces : List Bytes) (k : Nat) :
    replay (pieces.take k).flatten (pieces.drop k).flatten = pieces.flatten := by
  rw [hshared, ← List.flatten_append, List.take_append_drop]

/-- The HTTPS muxer hands on all of a connection that has begun with a Client
Hello. -/
theorem getHTTPSHostname_iff
    (hshared : ∀ seen rest, replay seen rest = seen ++ rest)
    {hello : Bytes → Parsed Bytes} {pieces : List Bytes}
    {out : Bytes} {info : ReqInfo} :
    getHTTPSHostname replay hello pieces = .ok (out, info) ↔
      ∃ k serverName len, Enough hello pieces k serverName len ∧
        out = pieces.flatten ∧ info = ⟨serverName, [], []⟩ := by
  have hall := replay_pieces hshared pieces
  constructor
  · intro hok
    unfold getHTTPSHostname at hok
    cases hread : readParsed hello [] pieces with
    | error err => simp [hread] at hok
    | ok p =>
        obtain ⟨serverName, s⟩ := p
        obtain ⟨k, len, henough, rfl⟩ := readParsed_split hread
        simp only [hread, Except.ok.injEq, Prod.mk.injEq, hall] at hok
        exact ⟨k, serverName, len, henough, hok.1.symm, hok.2.symm⟩
  · rintro ⟨k, serverName, len, henough, rfl, rfl⟩
    have hread := readParsed_iff.mpr ⟨k, len, henough, rfl⟩
    simp only [getHTTPSHostname, hread, hall]

/-- The CONNECT muxer goes on with a connection exactly when its first pieces are a
CONNECT request.  With `tcpmux_passthrough` it hands on all of it.  Without, it hands
on the pieces that it has not read: what stands behind the request in the last
piece read is for nobody. -/
theorem getHostFromHTTPConnect_iff
    (hshared : ∀ seen rest, replay seen rest = seen ++ rest)
    {request : Bytes → Parsed ConnectRequest}
    (hrequest : ∀ seen req len, request seen = .parsed req len → len ≤ seen.length)
    {toLower : Bytes → Bytes} {passthrough : Bool} {pieces : List Bytes}
    {out : Bytes} {info : ReqInfo} :
    (newHTTPConnectTCPMuxer passthrough).getHostFromHTTPConnect replay toLower
        request pieces = .ok (out, info) ↔
      ∃ k req len, Enough request pieces k req len ∧
        req.method = ascii "CONNECT" ∧ info = connectReqInfo toLower req ∧
          if passthrough then out = pieces.flatten
          else pieces.flatten.drop len = (pieces.take k).flatten.drop len ++ out := by
  have hrest {k : Nat} {req : ConnectRequest} {len : Nat}
      (henough : Enough request pieces k req len) :
      pieces.flatten.drop len =
        (pieces.take k).flatten.drop len ++ (pieces.drop k).flatten := by
    have hle := hrequest _ _ _ henough.2.1
    conv_lhs => rw [← List.take_append_drop k pieces, List.flatten_append]
    exact List.drop_append_of_le_length hle
  constructor
  · intro hok
    unfold HTTPConnectTCPMuxer.getHostFromHTTPConnect at hok
    cases hread : readParsed request [] pieces with
    | error err => simp [hread] at hok
    | ok p =>
        obtain ⟨req, s⟩ := p
        obtain ⟨k, len, henough, rfl⟩ := readParsed_split hread
        by_cases hmethod : req.method = ascii "CONNECT"
        · cases passthrough with
          | true =>
              simp [hread, hmethod, newHTTPConnectTCPMuxer,
                replay_pieces hshared] at hok
              exact ⟨k, req, len, henough, hmethod, hok.2.symm, hok.1.symm⟩
          | false =>
              simp [hread, hmethod, newHTTPConnectTCPMuxer] at hok
              refine ⟨k, req, len, henough, hmethod, hok.2.symm, ?_⟩
              rw [← hok.1]
              exact hrest henough
        · simp [hread, hmethod] at hok
  · rintro ⟨k, req, len, henough, hmethod, rfl, hout⟩
    have hread := readParsed_iff.mpr ⟨k, len, henough, rfl⟩
    unfold HTTPConnectTCPMuxer.getHostFromHTTPConnect
    cases passthrough with
    | true =>
        obtain rfl : out = pieces.flatten := hout
        simp [hread, hmethod, newHTTPConnectTCPMuxer, replay_pieces hshared]
    | false =>
        have hout : pieces.flatten.drop len =
            (pieces.take k).flatten.drop len ++ out := hout
        obtain rfl := List.append_cancel_left ((hrest henough).symm.trans hout)
        simp [hread, hmethod, newHTTPConnectTCPMuxer]

end HandOver

def sampleConnect : ConnectRequest :=
  ⟨ascii "CONNECT", ascii "a:80", []⟩

def sampleText : Bytes :=
  ascii "CONNECT a:80 HTTP/1.1\r\nHost: a:80\r\n\r\n"

/-- `http.ReadRequest` as far as `sampleText` goes. -/
def sampleParse (seen : Bytes) : Parsed ConnectRequest :=
  if sampleText <+: seen then .parsed sampleConnect sampleText.length
  else .incomplete

/-- The client has not waited for the answer with all that it sends. -/
def samplePieces : List Bytes :=
  [sampleText.take 9, sampleText.drop 9 ++ [1, 2], [3]]

theorem sampleParse_length {seen : Bytes} {req : ConnectRequest} {len : Nat}
    (hparse : sampleParse seen = .parsed req len) : len ≤ seen.length := by
  unfold sampleParse at hparse
  split at hparse
  · next hpre =>
      cases hparse
      exact hpre.length_le
  · cases hparse

theorem samplePieces_enough :
    Enough sampleParse samplePieces 2 sampleConnect sampleText.length := by
  refine ⟨by decide, ?_, ?_⟩
  · decide +kernel
  · decide +kernel

theorem getHostFromHTTPConnect_iff_samplePieces :
    (newHTTPConnectTCPMuxer false).getHostFromHTTPConnect (· ++ ·) id sampleParse
      samplePieces = .ok ([3], connectReqInfo id sampleConnect) :=
  (getHostFromHTTPConnect_iff (fun _ _ => rfl)
    (fun _ _ _ => sampleParse_length)).mpr
    ⟨2, sampleConnect, sampleText.length, samplePieces_enough, rfl, rfl,
      by decide +kernel⟩

end Sniff

end Frp
