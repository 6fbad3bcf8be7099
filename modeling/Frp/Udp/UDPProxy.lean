/-
The goroutines of a `UDPProxy` of frps: the two of `ForwardUserConn`, the one
that keeps a work connection, a reader and a sender for every work connection it
has had, and any number of calls of `Close`.
-/
import Mathlib.Logic.Function.Basic
import Frp.Lib.Process
import Frp.Udp.Forward

namespace Frp

open Transition GoChan GoStrings

namespace Udp

/-- What comes over a work connection. -/
inductive WorkMsg where
  | ping
  | packet (m : UDPPacket)
  | other
deriving DecidableEq

namespace UDPProxy

/-- What the attempt to get a work connection ends in; with `badStream` the
encryption of the connection could not be set up. -/
inductive GetResult where
  | failed
  | badStream
  | conn
deriving DecidableEq

/-- The goroutine that keeps a work connection: it gets one, looks at
`checkCloseCh` after a failure, or waits there for the reader. -/
inductive KeeperPc where
  | getConn
  | check
  | wait (conn : Nat)
  | returned
deriving DecidableEq

/-- `notify` is the send on `checkCloseCh`. -/
inductive ReaderPc where
  | idle
  | read
  | notify
  | push (m : UDPPacket)
  | returned
deriving DecidableEq

inductive SenderPc where
  | idle
  | select
  | write (udpMsg : UDPPacket)
  | returned
deriving DecidableEq

/-- `mu` is the call of `Close` that holds the mutex; the work connections are
numbered as they come. -/
structure State where
  forward : ForwardUserConn
  mu : Option ClosePc
  isClosed : Bool
  checkCloseCh : Chan Unit 0
  workConn : Option Nat
  connClosed : Nat → Bool
  nextConn : Nat
  keeper : KeeperPc
  readers : Nat → ReaderPc
  senders : Nat → SenderPc
  cancelled : Nat → Bool

/-- `lock` is a call of `Close` that gets the mutex, by whomever it is made;
`ForwardUserConn` makes one when it returns. -/
inductive Action where
  | read (result : Option (Bytes × UDPAddr))
  | select
  | reply
  | getWorkConn (result : GetResult)
  | check
  | waitClosed
  | reader (i : Nat) (input : Option WorkMsg)
  | notify (i : Nat)
  | sender (i : Nat) (ok : Bool)
  | cancel (i : Nat)
  | lock
  | close
deriving DecidableEq

def run : State where
  forward := ForwardUserConn.start
  mu := none
  isClosed := false
  checkCloseCh := Chan.make Unit 0
  workConn := none
  connClosed := fun _ => false
  nextConn := 0
  keeper := .getConn
  readers := fun _ => .idle
  senders := fun _ => .idle
  cancelled := fun _ => false

namespace State

def setForward (s : State) (forward : ForwardUserConn) : State :=
  { s with forward := forward }

def closeConn (s : State) (i : Nat) : State :=
  { s with connClosed := Function.update s.connClosed i true }

def setReader (s : State) (i : Nat) (pc : ReaderPc) : State :=
  { s with readers := Function.update s.readers i pc }

def setSender (s : State) (i : Nat) (pc : SenderPc) : State :=
  { s with senders := Function.update s.senders i pc }

def closeWorkConn (s : State) : State :=
  match s.workConn with
  | none => s
  | some i => s.closeConn i

/-- The old connection is closed before the stream of the new one is set up. -/
def getWorkConn (s : State) (result : GetResult) : Outcome State :=
  match s.keeper with
  | .getConn =>
      match result with
      | .failed => .done { s with keeper := .check }
      | .badStream => .done { s.closeWorkConn.closeConn s.nextConn with
          nextConn := s.nextConn + 1 }
      | .conn => .done
          { (s.closeWorkConn.setReader s.nextConn .read).setSender
              s.nextConn .select with
            workConn := some s.nextConn
            nextConn := s.nextConn + 1
            keeper := .wait s.nextConn }
  | .check | .wait _ | .returned => .block

/-- The select with the default branch after a failure. -/
def check (s : State) : Outcome State :=
  match s.keeper with
  | .check =>
      match s.checkCloseCh.recv with
      | .closed => .done { s with keeper := .returned }
      | .value _ _ | .block => .done { s with keeper := .getConn }
  | .getConn | .wait _ | .returned => .block

def cancel (s : State) (i : Nat) : State :=
  { s with cancelled := Function.update s.cancelled i true }

def waitClosed (s : State) : Outcome State :=
  match s.keeper with
  | .wait conn =>
      match s.checkCloseCh.recv with
      | .closed => .done { s.cancel conn with keeper := .returned }
      | .value _ _ => .done { s.cancel conn with keeper := .getConn }
      | .block => .block
  | .getConn | .check | .returned => .block

/-- A reader sends on `checkCloseCh` under `PanicToError`.  The channel has no
buffer, so the keeper must be there to receive. -/
def notify (s : State) (i : Nat) : Outcome State :=
  match s.readers i with
  | .notify =>
      match s.checkCloseCh.send () with
      | .panic | .done _ => .done (s.setReader i .returned)
      | .block =>
          match s.keeper with
          | .wait conn => .done
              { (s.setReader i .returned).cancel conn with keeper := .getConn }
          | .check => .done { s.setReader i .returned with keeper := .getConn }
          | .getConn | .returned => .block
  | .idle | .read | .push _ | .returned => .block

/-- The send on `readCh` is under `PanicToError`. -/
def workConnReader (s : State) (i : Nat) (input : Option WorkMsg) :
    Outcome State :=
  match s.readers i with
  | .read =>
      match input with
      | none => .done ((s.closeConn i).setReader i .notify)
      | some rawMsg =>
          if s.connClosed i then .block
          else
            match rawMsg with
            | .packet m => .done (s.setReader i (.push m))
            | .ping | .other => .done s
  | .push m =>
      match s.forward.readCh.send m with
      | .done chan => .done
          { s.setReader i .read with
            forward := { s.forward with readCh := chan } }
      | .block => .block
      | .panic => .done ((s.closeConn i).setReader i .returned)
  | .idle | .notify | .returned => .block

def workConnSender (s : State) (i : Nat) (ok : Bool) : Outcome State :=
  match s.senders i with
  | .select =>
      match s.forward.sendCh.recv with
      | .value udpMsg chan => .done
          { s.setSender i (.write udpMsg) with
            forward := { s.forward with sendCh := chan } }
      | .closed => .done (s.setSender i .returned)
      | .block => .block
  | .write _ =>
      if ok then
        if s.connClosed i then .block else .done (s.setSender i .select)
      else .done ((s.closeConn i).setSender i .returned)
  | .idle | .returned => .block

/-- One statement of the Close that holds the mutex. -/
def close (s : State) : Outcome State :=
  match s.mu with
  | none => .block
  | some .check =>
      if s.isClosed then .done { s with mu := some .leave }
      else .done { s with isClosed := true, mu := some .workConn }
  | some .workConn => .done { s.closeWorkConn with mu := some .udpConn }
  | some .udpConn => .done { s with
      forward := { s.forward with udpClosed := true }
      mu := some .checkCloseCh }
  | some .checkCloseCh =>
      match s.checkCloseCh.close with
      | .done chan => .done { s with checkCloseCh := chan, mu := some .readCh }
      | .block => .block
      | .panic => .panic
  | some .readCh =>
      match s.forward.readCh.close with
      | .done chan => .done { s with
          forward := { s.forward with readCh := chan }
          mu := some .sendCh }
      | .block => .block
      | .panic => .panic
  | some .sendCh =>
      match s.forward.sendCh.close with
      | .done chan => .done { s with
          forward := { s.forward with sendCh := chan }
          mu := some .leave }
      | .block => .block
      | .panic => .panic
  | some .leave => .done { s with mu := none }

end State

def attempt (bufSize : Nat) (s : State) : Action → Outcome State
  | .read result => (s.forward.read bufSize result).map s.setForward
  | .select => s.forward.select.map s.setForward
  | .reply => s.forward.writeReply.map s.setForward
  | .getWorkConn result => s.getWorkConn result
  | .check => s.check
  | .waitClosed => s.waitClosed
  | .reader i input => s.workConnReader i input
  | .notify i => s.notify i
  | .sender i ok => s.workConnSender i ok
  | .cancel i =>
      if s.senders i = .select ∧ s.cancelled i then
        .done (s.setSender i .returned)
      else .block
  | .lock =>
      match s.mu with
      | none => .done { s with mu := some .check }
      | some _ => .block
  | .close => s.close

def system (bufSize : Nat) : System (Process State) Action :=
  Process.system run (attempt bufSize)

/-- `Close` does not close `sendCh` while the loop of `ForwardUserConn` has a
packet for it. -/
def Permitted (s : State) : Action → Prop
  | .close => s.mu = some .sendCh → s.forward.loop.holding = false
  | _ => True

instance (s : State) (action : Action) : Decidable (Permitted s action) :=
  match action with
  | .close => inferInstanceAs (Decidable (_ → _))
  | .read _ | .select | .reply | .getWorkConn _ | .check | .waitClosed
  | .reader _ _ | .notify _ | .sender _ _ | .cancel _ | .lock =>
      inferInstanceAs (Decidable True)

/-- Whether `checkCloseCh` is closed: a Close closes it after the socket. -/
def closedCheck (begun : Bool) : Option ClosePc → Bool
  | none | some .check | some .leave => begun
  | some .workConn | some .udpConn | some .checkCloseCh => false
  | some .readCh | some .sendCh => true

namespace State

structure Inv (s : State) : Prop where
  forward : s.forward.Inv s.isClosed s.mu
  check : s.checkCloseCh.closed = closedCheck s.isClosed s.mu

theorem inv_run : run.Inv :=
  ⟨ForwardUserConn.inv_start, rfl⟩

/-- Only the bookkeeping of the work connections has changed. -/
structure SameChans (s s' : State) : Prop where
  forward : s'.forward = s.forward
  mu : s'.mu = s.mu
  isClosed : s'.isClosed = s.isClosed
  checkCloseCh : s'.checkCloseCh = s.checkCloseCh

theorem Inv.keep {s s' : State} (hinv : s.Inv) (hsame : SameChans s s') :
    s'.Inv where
  forward := by
    rw [hsame.forward, hsame.isClosed, hsame.mu]
    exact hinv.forward
  check := by
    rw [hsame.checkCloseCh, hsame.isClosed, hsame.mu]
    exact hinv.check

theorem Inv.setForward {s : State} (hinv : s.Inv) {forward : ForwardUserConn}
    (hforward : forward.Inv s.isClosed s.mu) :
    (s.setForward forward).Inv :=
  ⟨hforward, hinv.check⟩

theorem closeWorkConn_same (s : State) : SameChans s s.closeWorkConn := by
  cases hconn : s.workConn with
  | none =>
      rw [closeWorkConn, hconn]
      exact ⟨rfl, rfl, rfl, rfl⟩
  | some i =>
      rw [closeWorkConn, hconn]
      exact ⟨rfl, rfl, rfl, rfl⟩

theorem getWorkConn_same {s s' : State} {result : GetResult}
    (hdone : s.getWorkConn result = .done s') : SameChans s s' := by
  have hclose := closeWorkConn_same s
  cases hkeeper : s.keeper with
  | getConn =>
      cases result <;> simp only [getWorkConn, hkeeper, Outcome.done.injEq]
        at hdone <;> subst hdone
      · exact ⟨rfl, rfl, rfl, rfl⟩
      · exact ⟨hclose.forward, hclose.mu, hclose.isClosed,
          hclose.checkCloseCh⟩
      · exact ⟨hclose.forward, hclose.mu, hclose.isClosed,
          hclose.checkCloseCh⟩
  | check | wait conn | returned => simp [getWorkConn, hkeeper] at hdone

theorem check_same {s s' : State} (hdone : s.check = .done s') :
    SameChans s s' := by
  unfold check at hdone
  split at hdone
  all_goals try split at hdone
  all_goals cases hdone
  all_goals exact ⟨rfl, rfl, rfl, rfl⟩

theorem waitClosed_same {s s' : State} (hdone : s.waitClosed = .done s') :
    SameChans s s' := by
  unfold waitClosed at hdone
  split at hdone
  all_goals try split at hdone
  all_goals cases hdone
  all_goals exact ⟨rfl, rfl, rfl, rfl⟩

theorem notify_same {s s' : State} {i : Nat}
    (hdone : s.notify i = .done s') : SameChans s s' := by
  unfold notify at hdone
  split at hdone
  all_goals try split at hdone
  all_goals try split at hdone
  all_goals cases hdone
  all_goals exact ⟨rfl, rfl, rfl, rfl⟩

theorem Inv.workConnReader {s s' : State} (hinv : s.Inv) {i : Nat}
    {input : Option WorkMsg} (hdone : s.workConnReader i input = .done s') :
    s'.Inv := by
  cases hreader : s.readers i with
  | read =>
      have hsame : SameChans s s' := by
        simp only [State.workConnReader, hreader] at hdone
        split at hdone
        all_goals try split at hdone
        all_goals try split at hdone
        all_goals cases hdone
        all_goals exact ⟨rfl, rfl, rfl, rfl⟩
      exact hinv.keep hsame
  | push m =>
      cases hsend : s.forward.readCh.send m with
      | done chan =>
          simp only [State.workConnReader, hreader, hsend,
            Outcome.done.injEq] at hdone
          subst hdone
          obtain ⟨hopen, _, hkept⟩ := Chan.send_eq_done_iff.mp hsend
          exact ⟨hinv.forward.setChans (hkept.trans hopen.symm) rfl,
            hinv.check⟩
      | block => simp [State.workConnReader, hreader, hsend] at hdone
      | panic =>
          simp only [State.workConnReader, hreader, hsend,
            Outcome.done.injEq] at hdone
          subst hdone
          exact hinv.keep ⟨rfl, rfl, rfl, rfl⟩
  | idle | notify | returned =>
      simp [State.workConnReader, hreader] at hdone

theorem Inv.workConnSender {s s' : State} (hinv : s.Inv) {i : Nat}
    {ok : Bool} (hdone : s.workConnSender i ok = .done s') : s'.Inv := by
  cases hsender : s.senders i with
  | select =>
      cases hrecv : s.forward.sendCh.recv with
      | value udpMsg chan =>
          simp only [State.workConnSender, hsender, hrecv,
            Outcome.done.injEq] at hdone
          subst hdone
          exact ⟨hinv.forward.setChans rfl (Chan.recv_eq_value_iff.mp hrecv).2,
            hinv.check⟩
      | closed =>
          simp only [State.workConnSender, hsender, hrecv,
            Outcome.done.injEq] at hdone
          subst hdone
          exact hinv.keep ⟨rfl, rfl, rfl, rfl⟩
      | block => simp [State.workConnSender, hsender, hrecv] at hdone
  | write udpMsg =>
      have hsame : SameChans s s' := by
        simp only [State.workConnSender, hsender] at hdone
        split at hdone
        all_goals try split at hdone
        all_goals cases hdone
        all_goals exact ⟨rfl, rfl, rfl, rfl⟩
      exact hinv.keep hsame
  | idle | returned => simp [State.workConnSender, hsender] at hdone

/-- The Close that holds the mutex closes nothing twice. -/
theorem Inv.close_ne_panic {s : State} (hinv : s.Inv) : s.close ≠ .panic := by
  have hforward := hinv.forward
  have hcheck := hinv.check
  intro hpanic
  cases hmu : s.mu with
  | none => simp [close, hmu] at hpanic
  | some pc =>
      rw [hmu] at hforward hcheck
      cases pc with
      | check =>
          cases hclosed : s.isClosed <;> simp [close, hmu, hclosed] at hpanic
      | workConn => simp [close, hmu] at hpanic
      | udpConn => simp [close, hmu] at hpanic
      | checkCloseCh =>
          obtain ⟨chan, hclose, _⟩ := Chan.exists_close_done hcheck
          simp [close, hmu, hclose] at hpanic
      | readCh =>
          obtain ⟨chan, hclose⟩ := hforward.readCh_close
          simp [close, hmu, hclose] at hpanic
      | sendCh =>
          obtain ⟨chan, hclose⟩ := hforward.sendCh_close
          simp [close, hmu, hclose] at hpanic
      | leave => simp [close, hmu] at hpanic

theorem Inv.close {s s' : State} (hinv : s.Inv)
    (hpermitted : s.mu = some .sendCh → s.forward.loop.holding = false)
    (hdone : s.close = .done s') : s'.Inv := by
  have hforward := hinv.forward
  have hcheck := hinv.check
  cases hmu : s.mu with
  | none => simp [State.close, hmu] at hdone
  | some pc =>
      rw [hmu] at hforward hcheck
      cases pc with
      | check =>
          cases hclosed : s.isClosed with
          | true =>
              simp only [State.close, hmu, hclosed, if_true,
                Outcome.done.injEq] at hdone
              subst hdone
              rw [hclosed] at hforward hcheck
              exact ⟨hforward.moveMu (by simp) rfl rfl rfl, hcheck⟩
          | false =>
              simp only [State.close, hmu, hclosed, Bool.false_eq_true,
                if_false, Outcome.done.injEq] at hdone
              subst hdone
              rw [hclosed] at hforward hcheck
              exact ⟨hforward.moveMu (by simp) rfl rfl rfl, hcheck⟩
      | workConn =>
          simp only [State.close, hmu, Outcome.done.injEq] at hdone
          subst hdone
          have hbegun := hforward.once _ rfl rfl
          have hclose := closeWorkConn_same s
          refine ⟨?_, ?_⟩
          · change s.closeWorkConn.forward.Inv s.closeWorkConn.isClosed _
            rw [hclose.forward, hclose.isClosed]
            exact hforward.moveMu (fun _ _ _ => hbegun) rfl rfl rfl
          · change s.closeWorkConn.checkCloseCh.closed = _
            rw [hclose.checkCloseCh]
            exact hcheck
      | udpConn =>
          simp only [State.close, hmu, Outcome.done.injEq] at hdone
          subst hdone
          have hbegun := hforward.once _ rfl rfl
          exact ⟨hforward.closeUdpConn hbegun rfl rfl rfl, hcheck⟩
      | checkCloseCh =>
          obtain ⟨chan, hclose, _, hclosed⟩ := Chan.exists_close_done hcheck
          simp only [State.close, hmu, hclose, Outcome.done.injEq] at hdone
          subst hdone
          have hbegun := hforward.once _ rfl rfl
          exact ⟨hforward.moveMu (fun _ _ _ => hbegun) rfl rfl rfl, hclosed⟩
      | readCh =>
          obtain ⟨chan, hclose⟩ := hforward.readCh_close
          simp only [State.close, hmu, hclose, Outcome.done.injEq] at hdone
          subst hdone
          exact ⟨hforward.closeReadCh hclose, hcheck⟩
      | sendCh =>
          obtain ⟨chan, hclose⟩ := hforward.sendCh_close
          simp only [State.close, hmu, hclose, Outcome.done.injEq] at hdone
          subst hdone
          have hbegun := hforward.once _ rfl rfl
          exact ⟨hforward.closeSendCh (hpermitted hmu) hclose (Or.inr rfl),
            hcheck.trans hbegun.symm⟩
      | leave =>
          simp only [State.close, hmu, Outcome.done.injEq] at hdone
          subst hdone
          exact ⟨hforward.moveMu (by simp) rfl rfl rfl, hcheck⟩

theorem Inv.attempt {bufSize : Nat} {s s' : State} {action : Action}
    (hinv : s.Inv) (hpermitted : Permitted s action)
    (hdone : UDPProxy.attempt bufSize s action = .done s') : s'.Inv := by
  cases action with
  | read result =>
      obtain ⟨forward, hforward, rfl⟩ := Outcome.map_eq_done_iff.mp hdone
      exact hinv.setForward (hinv.forward.readStep hforward)
  | select =>
      obtain ⟨forward, hforward, rfl⟩ := Outcome.map_eq_done_iff.mp hdone
      exact hinv.setForward (hinv.forward.selectStep hforward)
  | reply =>
      obtain ⟨forward, hforward, rfl⟩ := Outcome.map_eq_done_iff.mp hdone
      exact hinv.setForward (hinv.forward.writeReplyStep hforward)
  | getWorkConn result => exact hinv.keep (getWorkConn_same hdone)
  | check => exact hinv.keep (check_same hdone)
  | waitClosed => exact hinv.keep (waitClosed_same hdone)
  | reader i input => exact hinv.workConnReader hdone
  | notify i => exact hinv.keep (notify_same hdone)
  | sender i ok => exact hinv.workConnSender hdone
  | cancel i =>
      simp only [UDPProxy.attempt] at hdone
      split at hdone
      · cases hdone
        exact hinv.keep ⟨rfl, rfl, rfl, rfl⟩
      · cases hdone
  | lock =>
      cases hmu : s.mu with
      | none =>
          simp only [UDPProxy.attempt, hmu, Outcome.done.injEq] at hdone
          subst hdone
          have hforward := hinv.forward
          have hcheck := hinv.check
          rw [hmu] at hforward hcheck
          exact ⟨hforward.moveMu (by simp [ClosePc.closing]) rfl rfl rfl,
            hcheck⟩
      | some pc => simp [UDPProxy.attempt, hmu] at hdone
  | close => exact hinv.close hpermitted hdone

/-- Outside of `Close` and the select of the loop every send that can panic is
under `PanicToError`. -/
theorem Inv.attempt_ne_panic {bufSize : Nat} {s : State} {action : Action}
    (hinv : s.Inv) : UDPProxy.attempt bufSize s action ≠ .panic := by
  cases action with
  | read result =>
      rw [UDPProxy.attempt, Ne, Outcome.map_eq_panic_iff]
      exact s.forward.read_ne_panic bufSize result
  | select =>
      rw [UDPProxy.attempt, Ne, Outcome.map_eq_panic_iff]
      exact hinv.forward.select_ne_panic
  | reply =>
      rw [UDPProxy.attempt, Ne, Outcome.map_eq_panic_iff]
      exact s.forward.writeReply_ne_panic
  | close => exact hinv.close_ne_panic
  | getWorkConn result =>
      simp only [UDPProxy.attempt, getWorkConn]
      split
      all_goals try split
      all_goals simp
  | check =>
      simp only [UDPProxy.attempt, State.check]
      split
      all_goals try split
      all_goals simp
  | waitClosed =>
      simp only [UDPProxy.attempt, waitClosed]
      split
      all_goals try split
      all_goals simp
  | reader i input =>
      simp only [UDPProxy.attempt, State.workConnReader]
      split
      all_goals try split
      all_goals try split
      all_goals try split
      all_goals simp
  | notify i =>
      simp only [UDPProxy.attempt, notify]
      split
      all_goals try split
      all_goals try split
      all_goals simp
  | sender i ok =>
      simp only [UDPProxy.attempt, State.workConnSender]
      split
      all_goals try split
      all_goals try split
      all_goals simp
  | cancel i =>
      simp only [UDPProxy.attempt]
      split <;> simp
  | lock =>
      simp only [UDPProxy.attempt]
      split <;> simp

end State

theorem not_crashed_of_run {bufSize : Nat} {word : List Action}
    {p : Process State}
    (hrun : (system bufSize).Run (fun q => Permitted q.state) word p) :
    p.crashed = false := by
  refine Process.not_crashed_of_run State.inv_run ?_ ?_ hrun
  · intro s action hinv _
    exact hinv.attempt_ne_panic
  · intro s action s' hinv hpermitted hdone
    exact State.Inv.attempt hinv hpermitted hdone

end UDPProxy

end Udp

end Frp
