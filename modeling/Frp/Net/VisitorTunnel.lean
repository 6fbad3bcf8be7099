/-
Visitors.  The stream of an stcp or sudp visitor passes through frps, which takes
the wrapping from the visitor's message; the stream of an xtcp visitor goes to the
other frpc directly, and each of the two goes by its own configuration.
-/
import Frp.Config.Compare
import Frp.Net.Tunnel

namespace Frp

open GoStrings Relay Tunnel

variable {V : Type} {md5 : String → List UInt8}

namespace BaseVisitorConf

def newVisitorConnMsg (md5 : String → List UInt8) (cfg : BaseVisitorConf String)
    (now : Int) : NewVisitorConn where
  proxyName := cfg.serverName
  signKey := getAuthKey md5 cfg.sk now
  timestamp := now
  useEncryption := cfg.useEncryption
  useCompression := cfg.useCompression

/-- The lines of `handleConn` and of `getNewVisitorConn` that wrap the stream. -/
def wrap (io : Wrappers V) (cfg : BaseVisitorConf String)
    (iv : Except Bytes V) (rwc : End UInt8) : Except Bytes (End UInt8) :=
  io.wrap cfg.useEncryption cfg.useCompression (keyBytes cfg.sk) iv rwc

end BaseVisitorConf

namespace Tunnel

inductive VisitorStream where
  | refused (err : String)
  | notEncrypted (err : Bytes)
  | joined (remote : End UInt8)

/-- `STCPVisitor.handleConn` and `SUDPVisitor.getNewVisitorConn` once the response
of frps is there. -/
def visitorStream (io : Wrappers V) (cfg : BaseVisitorConf String)
    (respError : String) (iv : Except Bytes V) : VisitorStream :=
  if respError ≠ "" then .refused respError
  else
    match cfg.wrap io iv .raw with
    | .error err => .notEncrypted err
    | .ok remote => .joined remote

/-- The stream that `NewConn` puts into the listener. -/
def acceptedStream (io : Wrappers V) (conn : VisitorConn) (iv : Except Bytes V) :
    Except Bytes (End UInt8) :=
  io.wrap conn.encryption.isSome conn.compression
    (keyBytes (conn.encryption.getD "")) iv .raw

theorem visitorStream_eq_joined {io : Wrappers V}
    {cfg : BaseVisitorConf String} {respError : String} {iv : Except Bytes V} {remote : End UInt8}
    (hjoined : visitorStream io cfg respError iv = .joined remote) :
    cfg.wrap io iv .raw = .ok remote := by
  unfold visitorStream at hjoined
  split at hjoined
  · cases hjoined
  · cases hwrap : cfg.wrap io iv .raw with
    | error err =>
        rw [hwrap] at hjoined
        cases hjoined
    | ok rwc =>
        rw [hwrap] at hjoined
        cases hjoined
        rfl

/-- A connection that has been put into a listener is wrapped as its message says,
with the secret of the proxy, and the key of the message is made with it. -/
structure PutAs (md5 : String → List UInt8) (sk : String) (m : NewVisitorConn)
    (conn : VisitorConn) : Prop where
  key : m.signKey = getAuthKey md5 sk m.timestamp
  encryption : conn.encryption = if m.useEncryption then some sk else none
  compression : conn.compression = m.useCompression

theorem mem_waiting_putConn {vm : VisitorManager} {l i : Nat}
    {conn other : VisitorConn} (hmem : other ∈ (vm.putConn l conn).1.waiting i)
    (hnew : other ∉ vm.waiting i) : other = conn := by
  unfold VisitorManager.putConn VisitorManager.waiting at hmem
  by_cases hi : i = l
  · subst hi
    simp only [Function.update_self] at hmem
    rcases (vm.listeners i).putConn_buf conn with hbuf | hbuf
    · rw [hbuf] at hmem
      exact absurd hmem hnew
    · rw [hbuf] at hmem
      rcases List.mem_append.mp hmem with hold | hlast
      · exact absurd hold hnew
      · exact List.mem_singleton.mp hlast
  · simp only [Function.update_of_ne hi] at hmem
    exact absurd hmem hnew

theorem putAs_of_newConn {vm : VisitorManager} {number i : Nat}
    {m : NewVisitorConn} {withEncryption : Except String Unit}
    {conn : VisitorConn}
    (hmem : conn ∈ (vm.newConn md5 number m withEncryption).1.waiting i)
    (hnew : conn ∉ vm.waiting i) :
    PutAs md5 ((vm.skMap m.proxyName).getD "") m conn := by
  unfold VisitorManager.newConn at hmem
  cases hlistener : vm.visitorListeners m.proxyName with
  | none => exact absurd (by simpa [hlistener] using hmem) hnew
  | some l =>
      simp only [hlistener] at hmem
      split at hmem
      · exact absurd hmem hnew
      · next hkey =>
          have hsign := (not_not.mp hkey).symm
          cases hflag : m.useEncryption with
          | false =>
              simp only [hflag, Bool.false_eq_true, if_false] at hmem
              rw [mem_waiting_putConn hmem hnew]
              exact ⟨hsign, by rw [hflag]; rfl, rfl⟩
          | true =>
              cases withEncryption with
              | error text =>
                  simp only [hflag, if_true] at hmem
                  exact absurd hmem hnew
              | ok =>
                  simp only [hflag, if_true] at hmem
                  rw [mem_waiting_putConn hmem hnew]
                  exact ⟨hsign, by rw [hflag]; rfl, rfl⟩

/-- A visitor that has been let in: `near` is its end, `far` the one that the proxy
takes from the listener. -/
structure Visited (md5 : String → List UInt8) (io : Wrappers V) where
  cfg : BaseVisitorConf String
  now : Int
  vm : VisitorManager
  distinct : NoCollision md5
    ((vm.skMap cfg.serverName).getD "" ++ toString now)
    (cfg.sk ++ toString now)
  number : Nat
  withEncryption : Except String Unit
  l : Nat
  conn : VisitorConn
  before : conn ∉ vm.waiting l
  waits : conn ∈ (vm.newConn md5 number (cfg.newVisitorConnMsg md5 now)
    withEncryption).1.waiting l
  respError : String
  iv : Except Bytes V
  near : End UInt8
  visitor : visitorStream io cfg respError iv = .joined near
  iv' : Except Bytes V
  far : End UInt8
  frps : acceptedStream io conn iv' = .ok far

namespace Visited

variable {io : Wrappers V}

/-- The visitor and frps understand each other: the wrapping comes from the
message, and the secret is the same since the key was right. -/
theorem duplex (hio : io.Sound) (v : Visited md5 io) : Duplex v.near v.far := by
  have hput := putAs_of_newConn v.waits v.before
  have hsk : (v.vm.skMap v.cfg.serverName).getD "" = v.cfg.sk :=
    getAuthKey_injective v.distinct hput.key.symm
  have hencryption : v.conn.encryption =
      if v.cfg.useEncryption then some v.cfg.sk else none := by
    rw [hput.encryption]
    exact congrArg (fun sk => if v.cfg.useEncryption then some sk else none) hsk
  have hcompression : v.conn.compression = v.cfg.useCompression :=
    hput.compression
  have hnear : io.wrap v.cfg.useEncryption v.cfg.useCompression
      (keyBytes v.cfg.sk) v.iv .raw = .ok v.near :=
    visitorStream_eq_joined v.visitor
  have hfar := v.frps
  rw [acceptedStream, hencryption, hcompression] at hfar
  cases hflag : v.cfg.useEncryption with
  | true =>
      simp only [hflag, if_true, Option.isSome_some, Option.getD_some] at hnear hfar
      exact hio.duplex ⟨End.Carries.raw, End.Carries.raw⟩ hnear hfar
  | false =>
      simp only [hflag, Bool.false_eq_true, if_false, Option.isSome_none] at hnear hfar
      rw [io.wrap_false _ _ (keyBytes v.cfg.sk) _ v.iv] at hfar
      exact hio.duplex ⟨End.Carries.raw, End.Carries.raw⟩ hnear hfar

/-- From the user to frps. -/
def forth (v : Visited md5 io) : List (Link UInt8) :=
  [.raw, ⟨v.near, v.far, []⟩]

/-- From frps to the user. -/
def back (v : Visited md5 io) : List (Link UInt8) :=
  [⟨v.far, v.near, []⟩, .raw]

theorem plain_forth (hio : io.Sound) (v : Visited md5 io) :
    ∀ link ∈ v.forth, Plain link := by
  intro link hlink
  simp only [forth, List.mem_cons, List.not_mem_nil, or_false] at hlink
  rcases hlink with rfl | rfl
  · exact plain_raw
  · exact ⟨(v.duplex hio).forth, rfl⟩

theorem plain_back (hio : io.Sound) (v : Visited md5 io) :
    ∀ link ∈ v.back, Plain link := by
  intro link hlink
  simp only [back, List.mem_cons, List.not_mem_nil, or_false] at hlink
  rcases hlink with rfl | rfl
  · exact ⟨(v.duplex hio).back, rfl⟩
  · exact plain_raw

end Visited

/-- Through both frpcs and frps: whatever the visitor wants for its stream and the
proxy for its own, the user and the service get what the other one sent. -/
theorem visited_transparent {io : Wrappers V} {r : Registered md5}
    (hio : io.Sound) (v : Visited md5 io) (s : Served io r) :
    Chain.TransparentAfter (v.forth ++ s.forth) (extraInfo s.writeTo
        r.cfg.getBaseInfo (s.pxy.startMsg s.width s.src s.dst)) ∧
      Chain.TransparentAfter (s.back ++ v.back) [] :=
  s.transparent_behind hio (v.plain_forth hio) (v.plain_back hio)

/-- A visitor that encrypts, in front of the proxy that does or does not. -/
def sampleVisited : Visited TokenAuth.sampleDigest sampleWrappers where
  cfg :=
    { proxyName := "ssh_visitor"
      proxyType := "stcp"
      useEncryption := true
      useCompression := false
      role := "visitor"
      sk := "sk"
      serverName := "ssh"
      bindAddr := "127.0.0.1"
      bindPort := 9000 }
  now := 1600000000
  vm :=
    { visitorListeners := fun _ => some 0
      skMap := fun _ => some "sk"
      listeners := fun _ => .newCustomListener }
  distinct _ := rfl
  number := 3
  withEncryption := .ok ()
  l := 0
  conn := ⟨3, some "sk", false, getAuthKey TokenAuth.sampleDigest "sk" 1600000000,
    1600000000⟩
  before := by decide
  waits := by decide
  respError := ""
  iv := .ok ()
  near := (tagged (0 :: keyBytes "sk")).atop .raw
  visitor := rfl
  iv' := .ok ()
  far := (tagged (0 :: keyBytes "sk")).atop .raw
  frps := rfl

theorem visited_transparent_sampleVisited :
    Chain.TransparentAfter (sampleVisited.forth ++ (sampleServed true).forth)
        (ascii "PROXY TCP4 192.0.2.1 198.51.100.1 5000 6000\r\n") ∧
      Chain.TransparentAfter ((sampleServed false).back ++ sampleVisited.back)
        [] := by
  obtain ⟨hforth, _⟩ := visited_transparent sound_sampleWrappers sampleVisited
    (sampleServed true)
  obtain ⟨_, hback⟩ := visited_transparent sound_sampleWrappers sampleVisited
    (sampleServed false)
  exact ⟨hforth, hback⟩

/-- `XTCPVisitor.handleConn` over the stream of the hole. -/
def xtcpVisitorStream (io : Wrappers V) (cfg : BaseVisitorConf String)
    (iv : Except Bytes V) : Except Bytes (End UInt8) :=
  cfg.wrap io iv .raw

/-- What `XTCPProxy.InWorkConn` has `HandleTCPWorkConnection` join over the stream
of the hole, with the secret for a key. -/
def xtcpWorkConn (io : Wrappers V) (cfg : XTCPProxyConf)
    (limiter : Option Burst) (iv : Except Bytes V) : Except Bytes (End UInt8) :=
  io.wrap cfg.useEncryption cfg.useCompression cfg.sk iv (workConnEnd limiter)

/-- The configurations of the two frpcs fit. -/
structure Fits (vis : BaseVisitorConf String) (own : XTCPProxyConf) : Prop where
  encryption : vis.useEncryption = own.useEncryption
  compression : vis.useCompression = own.useCompression
  key : vis.useEncryption = true → keyBytes vis.sk = own.sk

instance (vis : BaseVisitorConf String) (own : XTCPProxyConf) :
    Decidable (Fits vis own) :=
  decidable_of_iff (vis.useEncryption = own.useEncryption ∧
      vis.useCompression = own.useCompression ∧
      (vis.useEncryption = true → keyBytes vis.sk = own.sk))
    ⟨fun h => ⟨h.1, h.2.1, h.2.2⟩, fun h => ⟨h.1, h.2, h.3⟩⟩

/-- What the other frpc reads of a chunk that the visitor has written. -/
def xtcpReads (io : Wrappers V) (vis : BaseVisitorConf String)
    (own : XTCPProxyConf) (iv : Except Bytes V) (limiter : Option Burst) (chunk : Bytes) :
    Except Bytes Bytes := do
  let near ← xtcpVisitorStream io vis iv
  let far ← xtcpWorkConn io own limiter iv
  pure (far.read (near.write [chunk]).flatten)

theorem read_workConnEnd (limiter : Option Burst) (bytes : Bytes) :
    (workConnEnd limiter).read bytes = bytes := by
  cases limiter <;> rfl

/-- Encryption that shows, compression that shows, and encryption that shows for
the key of the visitor only. -/
def showsEncryption : Wrappers Unit := ⟨fun _ _ => tagged [0], .raw⟩

def showsCompression : Wrappers Unit := ⟨fun _ _ => .raw, tagged [0]⟩

def showsKey (shown : Bytes) : Wrappers Unit :=
  ⟨fun key _ => tagged (if key = shown then [0] else []), .raw⟩

theorem xtcpReads_eq (io : Wrappers V) (vis : BaseVisitorConf String)
    (own : XTCPProxyConf) (iv : V) (limiter : Option Burst) (chunk : Bytes) :
    xtcpReads io vis own (.ok iv) limiter chunk = .ok (
      let near := if vis.useEncryption then
        (io.encryption (keyBytes vis.sk) iv).atop .raw else .raw
      let far := if own.useEncryption then
        (io.encryption own.sk iv).atop (workConnEnd limiter)
        else workConnEnd limiter
      ((if own.useCompression then io.compression.atop far else far).read
        ((if vis.useCompression then io.compression.atop near else near).write
          [chunk]).flatten)) := by
  unfold xtcpReads xtcpVisitorStream xtcpWorkConn BaseVisitorConf.wrap
    Wrappers.wrap Wrappers.withEncryption
  cases vis.useEncryption <;> cases own.useEncryption <;> rfl

/-- A compression that does nothing leaves the ends as they are. -/
theorem compressed_raw (useCompression : Bool) (rwc : End UInt8) :
    (if useCompression then End.raw.atop rwc else rwc) = rwc := by
  cases useCompression <;> rfl

theorem encrypted_raw (useEncryption : Bool) (rwc : End UInt8) :
    (if useEncryption then End.raw.atop rwc else rwc) = rwc := by
  cases useEncryption <;> rfl

/-- An end with a tag and one without do not understand each other. -/
theorem tagged_reads_iff (near far : Bool) (limiter : Option Burst) :
    (if far then (tagged [0]).atop (workConnEnd limiter)
        else workConnEnd limiter).read
      ((if near then (tagged [0]).atop .raw else .raw).write [[1]]).flatten =
        [1] ↔ near = far := by
  cases near <;> cases far <;>
    simp [End.atop, End.raw, tagged, read_workConnEnd]

theorem fits_of_reads {vis : BaseVisitorConf String} {own : XTCPProxyConf}
    (limiter : Option Burst) (hreads : ∀ io : Wrappers Unit, io.Sound →
      xtcpReads io vis own (.ok ()) limiter [1] = .ok [1]) : Fits vis own := by
  have hencryption : vis.useEncryption = own.useEncryption := by
    have hread := hreads showsEncryption
      ⟨fun _ _ _ => carries_tagged [0], End.Carries.raw⟩
    simp only [xtcpReads_eq, showsEncryption, compressed_raw,
      Except.ok.injEq] at hread
    exact (tagged_reads_iff _ _ limiter).mp hread
  have hcompression : vis.useCompression = own.useCompression := by
    have hread := hreads showsCompression
      ⟨fun _ _ _ => End.Carries.raw, carries_tagged [0]⟩
    simp only [xtcpReads_eq, showsCompression, encrypted_raw,
      Except.ok.injEq] at hread
    exact (tagged_reads_iff _ _ limiter).mp hread
  refine ⟨hencryption, hcompression, fun hon => ?_⟩
  have hread := hreads (showsKey (keyBytes vis.sk))
    ⟨fun _ _ _ => carries_tagged _, End.Carries.raw⟩
  simp only [xtcpReads_eq, showsKey, compressed_raw, ← hencryption, hon, if_true,
    Except.ok.injEq] at hread
  -- without its tag the visitor's chunk comes out longer
  by_contra hother
  rw [if_neg fun hsame => hother hsame.symm] at hread
  simp [End.atop, End.raw, tagged, read_workConnEnd] at hread

/-- The stream of an xtcp visitor is transparent, in both directions, exactly when
the two configurations fit: nobody tells either side what the other one does. -/
theorem xtcp_transparent_iff (vis : BaseVisitorConf String)
    (own : XTCPProxyConf) (limiter : Option Burst) :
    (∀ (V : Type) (io : Wrappers V), io.Sound →
      ∀ (iv iv' : Except Bytes V) (near far : End UInt8),
        xtcpVisitorStream io vis iv = .ok near →
        xtcpWorkConn io own limiter iv' = .ok far →
        Chain.TransparentAfter [⟨near, far, []⟩] [] ∧
          Chain.TransparentAfter [⟨far, near, []⟩] []) ↔
      Fits vis own := by
  constructor
  · intro htransparent
    refine fits_of_reads limiter fun io hio => ?_
    obtain ⟨near, hnear⟩ := io.wrap_ok vis.useEncryption vis.useCompression
      (keyBytes vis.sk) () .raw
    obtain ⟨far, hfar⟩ := io.wrap_ok own.useEncryption own.useCompression
      own.sk () (workConnEnd limiter)
    have hforth := (htransparent Unit io hio _ _ near far hnear hfar).1
    have hreads : xtcpReads io vis own (.ok ()) limiter [1] =
        .ok (far.read (near.write [[1]]).flatten) := by
      rw [xtcpReads, show xtcpVisitorStream io vis (.ok ()) = .ok near from hnear,
        show xtcpWorkConn io own limiter (.ok ()) = .ok far from hfar]
      rfl
    rw [hreads, hforth.read_write [1]]
  · intro hfits V io hio iv iv' near far hnear hfar
    have hduplex : Duplex near far := by
      obtain ⟨hforth, hback⟩ := carries_workConnEnd limiter
      rw [xtcpVisitorStream, BaseVisitorConf.wrap, hfits.encryption,
        hfits.compression] at hnear
      cases hflag : own.useEncryption with
      | true =>
          have hsk := hfits.key (hfits.encryption.trans hflag)
          rw [hsk] at hnear
          exact hio.duplex ⟨hforth, hback⟩ hnear hfar
      | false =>
          rw [hflag, io.wrap_false _ _ own.sk _ iv'] at hnear
          rw [xtcpWorkConn, hflag] at hfar
          exact hio.duplex ⟨hforth, hback⟩ hnear hfar
    have hplain : ∀ {a b : End UInt8}, a.Carries b →
        Chain.TransparentAfter [⟨a, b, []⟩] [] := by
      intro a b hab
      have hgreeting : Chain.greetings [(⟨a, b, []⟩ : Link UInt8)] = [] := rfl
      rw [← hgreeting]
      apply Chain.transparentAfter (by simp)
      intro link hlink
      rw [List.mem_singleton.mp hlink]
      exact hab
    exact ⟨hplain hduplex.forth, hplain hduplex.back⟩

end Tunnel

end Frp
