/-
`ForwardUserConn`: one goroutine reads datagrams from the UDP socket and offers
them to `sendCh`, another one writes what comes from `readCh` to the socket.
Nothing recovers a panic in either of them.
-/
import Frp.Lib.GoStrings
import Frp.Lib.Base64
import Frp.Lib.Chan

namespace Frp

open GoChan GoStrings

namespace Udp

structure UDPAddr where
  ip : Bytes
  port : Nat
  zone : Bytes
deriving DecidableEq

structure UDPPacket where
  content : Bytes
  localAddr : Option UDPAddr
  remoteAddr : Option UDPAddr
deriving DecidableEq

def newUDPPacket (buf : Bytes) (laddr raddr : Option UDPAddr) : UDPPacket :=
  ⟨Base64.encode buf, laddr, raddr⟩

def getContent (m : UDPPacket) : Option Bytes :=
  Base64.decode m.content

/-- The loop reads the socket, or stands before the select with a packet. -/
inductive LoopPc where
  | read
  | select (udpMsg : UDPPacket)
  | returned
deriving DecidableEq

/-- The loop has a packet in hand. -/
def LoopPc.holding : LoopPc → Bool
  | .select _ => true
  | .read | .returned => false

/-- The goroutine that ranges over `readCh`. -/
inductive ReplyPc where
  | range
  | returned
deriving DecidableEq

/-- `written` is what has been written to the users. -/
structure ForwardUserConn where
  udpClosed : Bool
  loop : LoopPc
  reply : ReplyPc
  readCh : Chan UDPPacket 1024
  sendCh : Chan UDPPacket 1024
  written : List (Bytes × Option UDPAddr)

namespace ForwardUserConn

def start : ForwardUserConn where
  udpClosed := false
  loop := .read
  reply := .range
  readCh := Chan.make UDPPacket 1024
  sendCh := Chan.make UDPPacket 1024
  written := []

/-- `ReadFromUDP` fails on a closed socket; a datagram that does not fit in the
buffer is cut. -/
def read (bufSize : Nat) (f : ForwardUserConn)
    (result : Option (Bytes × UDPAddr)) : Outcome ForwardUserConn :=
  match f.loop with
  | .read =>
      match result with
      | some (datagram, remoteAddr) =>
          if f.udpClosed then .block
          else .done { f with
            loop := .select
              (newUDPPacket (datagram.take bufSize) none (some remoteAddr)) }
      | none => .done { f with loop := .returned }
  | .select _ | .returned => .block

/-- The select with the default branch: a full channel drops the packet, a
closed one panics all the same. -/
def select (f : ForwardUserConn) : Outcome ForwardUserConn :=
  match f.loop with
  | .select udpMsg =>
      match f.sendCh.send udpMsg with
      | .done chan => .done { f with sendCh := chan, loop := .read }
      | .block => .done { f with loop := .read }
      | .panic => .panic
  | .read | .returned => .block

def writeReply (f : ForwardUserConn) : Outcome ForwardUserConn :=
  match f.reply with
  | .range =>
      match f.readCh.recv with
      | .value udpMsg chan =>
          match getContent udpMsg with
          | none => .done { f with readCh := chan }
          | some buf => .done { f with
              readCh := chan
              written := f.written ++ [(buf, udpMsg.remoteAddr)] }
      | .closed => .done { f with reply := .returned }
      | .block => .block
  | .returned => .block

end ForwardUserConn

/-- A Close on its way: the next thing to close. -/
inductive ClosePc where
  | check
  | workConn
  | udpConn
  | checkCloseCh
  | readCh
  | sendCh
  | leave
deriving DecidableEq

/-- Whether the socket is closed; `begun` says that some Close has found the
proxy open, and `mu` is the Close that holds the mutex. -/
def closedUdp (begun : Bool) : Option ClosePc → Bool
  | none | some .check | some .leave => begun
  | some .workConn | some .udpConn => false
  | some .checkCloseCh | some .readCh | some .sendCh => true

def closedRead (begun : Bool) : Option ClosePc → Bool
  | none | some .check | some .leave => begun
  | some .workConn | some .udpConn | some .checkCloseCh
  | some .readCh => false
  | some .sendCh => true

def closedSend (begun : Bool) : Option ClosePc → Bool
  | none | some .check | some .leave => begun
  | some .workConn | some .udpConn | some .checkCloseCh | some .readCh
  | some .sendCh => false

/-- The Close that holds the mutex is past its check. -/
def ClosePc.closing : ClosePc → Bool
  | .workConn | .udpConn | .checkCloseCh | .readCh | .sendCh => true
  | .check | .leave => false

namespace ForwardUserConn

/-- The socket and the channels are as closed as the Close in progress has
made them, and nobody holds a packet for a closed `sendCh`. -/
structure Inv (f : ForwardUserConn) (begun : Bool) (mu : Option ClosePc) :
    Prop where
  once : ∀ pc ∈ mu, pc.closing = true → begun = true
  udp : f.udpClosed = closedUdp begun mu
  read : f.readCh.closed = closedRead begun mu
  send : f.sendCh.closed = closedSend begun mu
  held : f.sendCh.closed = true → f.loop.holding = false

variable {f f' : ForwardUserConn} {begun : Bool} {mu : Option ClosePc}

theorem inv_start : start.Inv false none :=
  ⟨by simp, rfl, rfl, rfl, fun _ => rfl⟩

/-- `sendCh` is closed after the socket. -/
theorem Inv.udpClosed_of_send (hinv : f.Inv begun mu)
    (hsend : f.sendCh.closed = true) : f.udpClosed = true := by
  rw [hinv.udp]
  rw [hinv.send] at hsend
  cases mu with
  | none => exact hsend
  | some pc => cases pc <;> first | exact hsend | rfl

/-- A step that closes nothing. -/
theorem Inv.keep (hinv : f.Inv begun mu) (hudp : f'.udpClosed = f.udpClosed)
    (hread : f'.readCh.closed = f.readCh.closed)
    (hsend : f'.sendCh.closed = f.sendCh.closed)
    (hheld : f.sendCh.closed = true → f'.loop.holding = false) :
    f'.Inv begun mu where
  once := hinv.once
  udp := hudp.trans hinv.udp
  read := hread.trans hinv.read
  send := hsend.trans hinv.send
  held := fun hclosed => hheld (hsend.symm.trans hclosed)

theorem Inv.readStep (hinv : f.Inv begun mu) {bufSize : Nat}
    {result : Option (Bytes × UDPAddr)}
    (hdone : f.read bufSize result = .done f') : f'.Inv begun mu := by
  cases hloop : f.loop with
  | read =>
      cases result with
      | none =>
          simp only [ForwardUserConn.read, hloop, Outcome.done.injEq] at hdone
          subst hdone
          exact hinv.keep rfl rfl rfl fun _ => rfl
      | some packet =>
          cases hudp : f.udpClosed with
          | true => simp [ForwardUserConn.read, hloop, hudp] at hdone
          | false =>
              simp only [ForwardUserConn.read, hloop, hudp,
                Bool.false_eq_true, if_false, Outcome.done.injEq] at hdone
              subst hdone
              refine hinv.keep hudp.symm rfl rfl ?_
              intro hclosed
              rw [hinv.udpClosed_of_send hclosed] at hudp
              cases hudp
  | select udpMsg => simp [ForwardUserConn.read, hloop] at hdone
  | returned => simp [ForwardUserConn.read, hloop] at hdone

theorem Inv.selectStep (hinv : f.Inv begun mu)
    (hdone : f.select = .done f') : f'.Inv begun mu := by
  cases hloop : f.loop with
  | select udpMsg =>
      cases hsend : f.sendCh.send udpMsg with
      | done chan =>
          simp only [ForwardUserConn.select, hloop, hsend,
            Outcome.done.injEq] at hdone
          subst hdone
          obtain ⟨hopen, _, hkept⟩ := Chan.send_eq_done_iff.mp hsend
          exact hinv.keep rfl rfl (hkept.trans hopen.symm) fun _ => rfl
      | block =>
          simp only [ForwardUserConn.select, hloop, hsend,
            Outcome.done.injEq] at hdone
          subst hdone
          exact hinv.keep rfl rfl rfl fun _ => rfl
      | panic => simp [ForwardUserConn.select, hloop, hsend] at hdone
  | read => simp [ForwardUserConn.select, hloop] at hdone
  | returned => simp [ForwardUserConn.select, hloop] at hdone

theorem Inv.writeReplyStep (hinv : f.Inv begun mu)
    (hdone : f.writeReply = .done f') : f'.Inv begun mu := by
  cases hreply : f.reply with
  | returned => simp [ForwardUserConn.writeReply, hreply] at hdone
  | range =>
      cases hrecv : f.readCh.recv with
      | value udpMsg chan =>
          have hkept := (Chan.recv_eq_value_iff.mp hrecv).2
          cases hcontent : getContent udpMsg with
          | none =>
              simp only [ForwardUserConn.writeReply, hreply, hrecv, hcontent,
                Outcome.done.injEq] at hdone
              subst hdone
              exact hinv.keep rfl hkept rfl hinv.held
          | some buf =>
              simp only [ForwardUserConn.writeReply, hreply, hrecv, hcontent,
                Outcome.done.injEq] at hdone
              subst hdone
              exact hinv.keep rfl hkept rfl hinv.held
      | closed =>
          simp only [ForwardUserConn.writeReply, hreply, hrecv,
            Outcome.done.injEq] at hdone
          subst hdone
          exact hinv.keep rfl rfl rfl hinv.held
      | block => simp [ForwardUserConn.writeReply, hreply, hrecv] at hdone

/-- The select panics only with a packet for a closed channel. -/
theorem Inv.select_ne_panic (hinv : f.Inv begun mu) : f.select ≠ .panic := by
  intro hpanic
  cases hloop : f.loop with
  | select udpMsg =>
      cases hsend : f.sendCh.send udpMsg with
      | panic =>
          have hheld := hinv.held (Chan.send_eq_panic_iff.mp hsend)
          rw [hloop] at hheld
          cases hheld
      | done chan => simp [ForwardUserConn.select, hloop, hsend] at hpanic
      | block => simp [ForwardUserConn.select, hloop, hsend] at hpanic
  | read => simp [ForwardUserConn.select, hloop] at hpanic
  | returned => simp [ForwardUserConn.select, hloop] at hpanic

theorem read_ne_panic (f : ForwardUserConn) (bufSize : Nat)
    (result : Option (Bytes × UDPAddr)) : f.read bufSize result ≠ .panic := by
  intro hpanic
  cases hloop : f.loop with
  | read =>
      cases result with
      | none => simp [ForwardUserConn.read, hloop] at hpanic
      | some packet =>
          cases hudp : f.udpClosed <;>
            simp [ForwardUserConn.read, hloop, hudp] at hpanic
  | select udpMsg => simp [ForwardUserConn.read, hloop] at hpanic
  | returned => simp [ForwardUserConn.read, hloop] at hpanic

theorem writeReply_ne_panic (f : ForwardUserConn) : f.writeReply ≠ .panic := by
  intro hpanic
  cases hreply : f.reply with
  | returned => simp [ForwardUserConn.writeReply, hreply] at hpanic
  | range =>
      cases hrecv : f.readCh.recv with
      | value udpMsg chan =>
          cases hcontent : getContent udpMsg <;>
            simp [ForwardUserConn.writeReply, hreply, hrecv, hcontent]
              at hpanic
      | closed => simp [ForwardUserConn.writeReply, hreply, hrecv] at hpanic
      | block => simp [ForwardUserConn.writeReply, hreply, hrecv] at hpanic

/-- A goroutine has received from `sendCh` or sent on `readCh`. -/
theorem Inv.setChans (hinv : f.Inv begun mu) {readCh sendCh : Chan UDPPacket 1024}
    (hread : readCh.closed = f.readCh.closed)
    (hsend : sendCh.closed = f.sendCh.closed) :
    { f with readCh := readCh, sendCh := sendCh }.Inv begun mu :=
  hinv.keep rfl hread hsend hinv.held

/-- The Close goes on without closing the socket or a channel. -/
theorem Inv.moveMu (hinv : f.Inv begun mu) {begun' : Bool}
    {mu' : Option ClosePc}
    (honce : ∀ pc ∈ mu', pc.closing = true → begun' = true)
    (hudp : closedUdp begun' mu' = closedUdp begun mu)
    (hread : closedRead begun' mu' = closedRead begun mu)
    (hsend : closedSend begun' mu' = closedSend begun mu) :
    f.Inv begun' mu' where
  once := honce
  udp := hinv.udp.trans hudp.symm
  read := hinv.read.trans hread.symm
  send := hinv.send.trans hsend.symm
  held := hinv.held

theorem Inv.closeUdpConn (hinv : f.Inv begun mu) {pc : ClosePc}
    (hbegun : begun = true) (hudp : closedUdp begun (some pc) = true)
    (hread : closedRead begun (some pc) = closedRead begun mu)
    (hsend : closedSend begun (some pc) = closedSend begun mu) :
    { f with udpClosed := true }.Inv begun (some pc) where
  once := fun _ _ _ => hbegun
  udp := hudp.symm
  read := hinv.read.trans hread.symm
  send := hinv.send.trans hsend.symm
  held := hinv.held

theorem Inv.closeReadCh (hinv : f.Inv begun (some .readCh))
    {chan : Chan UDPPacket 1024} (hclose : f.readCh.close = .done chan) :
    { f with readCh := chan }.Inv begun (some .sendCh) where
  once := fun _ _ _ => hinv.once _ rfl rfl
  udp := hinv.udp
  read := (Chan.close_eq_done_iff.mp hclose).2.2
  send := hinv.send
  held := hinv.held

/-- The loop must not hold a packet when `sendCh` is closed. -/
theorem Inv.closeSendCh (hinv : f.Inv begun (some .sendCh))
    (hloop : f.loop.holding = false) {chan : Chan UDPPacket 1024}
    (hclose : f.sendCh.close = .done chan) {mu' : Option ClosePc}
    (hmu : mu' = none ∨ mu' = some .leave) :
    { f with sendCh := chan }.Inv begun mu' := by
  have hbegun : begun = true := hinv.once _ rfl rfl
  have hclosed := (Chan.close_eq_done_iff.mp hclose).2.2
  have hudp := hinv.udp
  have hread := hinv.read
  rcases hmu with rfl | rfl
  · exact ⟨by simp, hudp.trans hbegun.symm, hread.trans hbegun.symm,
      hclosed.trans hbegun.symm, fun _ => hloop⟩
  · exact ⟨by simp [ClosePc.closing], hudp.trans hbegun.symm,
      hread.trans hbegun.symm, hclosed.trans hbegun.symm, fun _ => hloop⟩

theorem Inv.readCh_close (hinv : f.Inv begun (some .readCh)) :
    ∃ chan, f.readCh.close = .done chan := by
  obtain ⟨chan, hclose, _⟩ := Chan.exists_close_done hinv.read
  exact ⟨chan, hclose⟩

theorem Inv.sendCh_close (hinv : f.Inv begun (some .sendCh)) :
    ∃ chan, f.sendCh.close = .done chan := by
  obtain ⟨chan, hclose, _⟩ := Chan.exists_close_done hinv.send
  exact ⟨chan, hclose⟩

end ForwardUserConn

end Udp

end Frp
