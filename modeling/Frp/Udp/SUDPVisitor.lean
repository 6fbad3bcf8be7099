/-
The goroutines of a `SUDPVisitor` of frpc: the two of `ForwardUserConn`, the
dispatcher, the reader and the sender of every worker it has run, and any number
of calls of `Close`.
-/
import Frp.Udp.UDPProxy

namespace Frp

open Transition GoChan GoStrings

namespace Udp

namespace SUDPVisitor

/-- The dispatcher waits for a first packet, connects to frps with it, waits for
the worker, and looks at `checkCloseCh`. -/
inductive DispatcherPc where
  | select
  | connect (firstPacket : UDPPacket)
  | work (conn : Nat)
  | check
  | returned
deriving DecidableEq

/-- `leave` is the deferred function. -/
inductive ReaderPc where
  | idle
  | read
  | push (m : UDPPacket)
  | leave
  | returned
deriving DecidableEq

inductive SenderPc where
  | idle
  | select
  | write (udpMsg : UDPPacket)
  | returned
deriving DecidableEq

/-- `closeChs` are the channels that the workers make. -/
structure State where
  forward : ForwardUserConn
  mu : Option ClosePc
  checkCloseCh : Chan Unit 0
  connClosed : Nat → Bool
  nextConn : Nat
  dispatcher : DispatcherPc
  readers : Nat → ReaderPc
  senders : Nat → SenderPc
  closeChs : Nat → Chan Unit 0

/-- `receive` and `closed` are the two cases of the select of the dispatcher,
and `join` is the end of its worker. -/
inductive Action where
  | read (result : Option (Bytes × UDPAddr))
  | select
  | reply
  | receive
  | closed
  | connect (ok : Bool)
  | join
  | check
  | reader (i : Nat) (input : Option WorkMsg)
  | sender (i : Nat) (ok : Bool)
  | cancel (i : Nat)
  | lock
  | close
deriving DecidableEq

def run : State where
  forward := ForwardUserConn.start
  mu := none
  checkCloseCh := Chan.make Unit 0
  connClosed := fun _ => false
  nextConn := 0
  dispatcher := .select
  readers := fun _ => .idle
  senders := fun _ => .idle
  closeChs := fun _ => Chan.make Unit 0

namespace State

def setForward (s : State) (forward : ForwardUserConn) : State :=
  { s with forward := forward }

def closeConn (s : State) (i : Nat) : State :=
  { s with connClosed := Function.update s.connClosed i true }

def setReader (s : State) (i : Nat) (pc : ReaderPc) : State :=
  { s with readers := Function.update s.readers i pc }

def setSender (s : State) (i : Nat) (pc : SenderPc) : State :=
  { s with senders := Function.update s.senders i pc }

def setCloseCh (s : State) (i : Nat) (chan : Chan Unit 0) : State :=
  { s with closeChs := Function.update s.closeChs i chan }

/-- A nil packet comes only from a closed channel. -/
def receive (s : State) : Outcome State :=
  match s.dispatcher with
  | .select =>
      match s.forward.sendCh.recv with
      | .value firstPacket chan => .done { s with
          forward := { s.forward with sendCh := chan }
          dispatcher := .connect firstPacket }
      | .closed => .done { s with dispatcher := .returned }
      | .block => .block
  | .connect _ | .work _ | .check | .returned => .block

def closed (s : State) : Outcome State :=
  match s.dispatcher with
  | .select =>
      match s.checkCloseCh.recv with
      | .closed | .value _ _ => .done { s with dispatcher := .returned }
      | .block => .block
  | .connect _ | .work _ | .check | .returned => .block

/-- `getNewVisitorConn` and the start of the worker, whose sender begins with
the first packet. -/
def connect (s : State) (ok : Bool) : Outcome State :=
  match s.dispatcher with
  | .connect firstPacket =>
      if ok then .done
        { ((s.setReader s.nextConn .read).setSender s.nextConn
            (.write firstPacket)).setCloseCh s.nextConn (Chan.make Unit 0) with
          nextConn := s.nextConn + 1
          dispatcher := .work s.nextConn }
      else .done { s with dispatcher := .select }
  | .select | .work _ | .check | .returned => .block

def join (s : State) : Outcome State :=
  match s.dispatcher with
  | .work conn =>
      if s.readers conn = .returned ∧ s.senders conn = .returned then
        .done { s with dispatcher := .check }
      else .block
  | .select | .connect _ | .check | .returned => .block

def check (s : State) : Outcome State :=
  match s.dispatcher with
  | .check =>
      match s.checkCloseCh.recv with
      | .closed | .value _ _ => .done { s with dispatcher := .returned }
      | .block => .done { s with dispatcher := .select }
  | .select | .connect _ | .work _ | .returned => .block

/-- The send on `readCh` is under `PanicToError`, the deferred close of
`closeCh` is not. -/
def workConnReader (s : State) (i : Nat) (input : Option WorkMsg) :
    Outcome State :=
  match s.readers i with
  | .read =>
      match input with
      | none => .done (s.setReader i .leave)
      | some rawMsg =>
          if s.connClosed i then .block
          else
            match rawMsg with
            | .packet m => .done (s.setReader i (.push m))
            | .ping | .other => .done s
  | .push m =>
      match s.forward.readCh.send m with
      | .done chan => .done
          { s.setReader i .read with
            forward := { s.forward with readCh := chan } }
      | .block => .block
      | .panic => .done (s.setReader i .leave)
  | .leave =>
      match (s.closeChs i).close with
      | .done chan => .done
          (((s.closeConn i).setCloseCh i chan).setReader i .returned)
      | .block => .block
      | .panic => .panic
  | .idle | .returned => .block

def workConnSender (s : State) (i : Nat) (ok : Bool) : Outcome State :=
  match s.senders i with
  | .select =>
      match s.forward.sendCh.recv with
      | .value udpMsg chan => .done
          { s.setSender i (.write udpMsg) with
            forward := { s.forward with sendCh := chan } }
      | .closed => .done ((s.closeConn i).setSender i .returned)
      | .block => .block
  | .write _ =>
      if ok then
        if s.connClosed i then .block else .done (s.setSender i .select)
      else .done ((s.closeConn i).setSender i .returned)
  | .idle | .returned => .block

/-- One statement of the Close that holds the mutex.  `checkCloseCh` is closed
by the default branch of the check; there is no work connection to close. -/
def close (s : State) : Outcome State :=
  match s.mu with
  | none => .block
  | some .check =>
      match s.checkCloseCh.recv with
      | .closed | .value _ _ => .done { s with mu := some .leave }
      | .block =>
          match s.checkCloseCh.close with
          | .done chan => .done { s with
              checkCloseCh := chan
              mu := some .udpConn }
          | .block => .block
          | .panic => .panic
  | some .udpConn => .done { s with
      forward := { s.forward with udpClosed := true }
      mu := some .readCh }
  | some .readCh =>
      match s.forward.readCh.close with
      | .done chan => .done { s with
          forward := { s.forward with readCh := chan }
          mu := some .sendCh }
      | .block => .block
      | .panic => .panic
  | some .sendCh =>
      match s.forward.sendCh.close with
      | .done chan => .done { s with
          forward := { s.forward with sendCh := chan }
          mu := some .leave }
      | .block => .block
      | .panic => .panic
  | some .leave => .done { s with mu := none }
  | some .workConn | some .checkCloseCh => .block

end State

def attempt (bufSize : Nat) (s : State) : Action → Outcome State
  | .read result => (s.forward.read bufSize result).map s.setForward
  | .select => s.forward.select.map s.setForward
  | .reply => s.forward.writeReply.map s.setForward
  | .receive => s.receive
  | .closed => s.closed
  | .connect ok => s.connect ok
  | .join => s.join
  | .check => s.check
  | .reader i input => s.workConnReader i input
  | .sender i ok => s.workConnSender i ok
  | .cancel i =>
      if s.senders i = .select ∧ (s.closeChs i).closed then
        .done ((s.closeConn i).setSender i .returned)
      else .block
  | .lock =>
      match s.mu with
      | none => .done { s with mu := some .check }
      | some _ => .block
  | .close => s.close

def system (bufSize : Nat) : System (Process State) Action :=
  Process.system run (attempt bufSize)

/-- `Close` does not close `sendCh` while the loop of `ForwardUserConn` has a
packet for it. -/
def Permitted (s : State) : Action → Prop
  | .close => s.mu = some .sendCh → s.forward.loop.holding = false
  | _ => True

instance (s : State) (action : Action) : Decidable (Permitted s action) :=
  match action with
  | .close => inferInstanceAs (Decidable (_ → _))
  | .read _ | .select | .reply | .receive | .closed | .connect _ | .join
  | .check | .reader _ _ | .sender _ _ | .cancel _ | .lock =>
      inferInstanceAs (Decidable True)

namespace State

/-- The closed `checkCloseCh` tells that a Close has begun, and a reader has
closed the channel of its worker once it has returned. -/
structure Inv (s : State) : Prop where
  forward : s.forward.Inv s.checkCloseCh.closed s.mu
  workers : ∀ i, (s.closeChs i).closed = true ↔ s.readers i = .returned

theorem inv_run : run.Inv where
  forward := ForwardUserConn.inv_start
  workers i := by simp [run]

theorem Inv.setForward {s : State} (hinv : s.Inv) {forward : ForwardUserConn}
    (hforward : forward.Inv s.checkCloseCh.closed s.mu) :
    (s.setForward forward).Inv :=
  ⟨hforward, hinv.workers⟩

theorem Inv.setDispatcher {s : State} (hinv : s.Inv) (pc : DispatcherPc) :
    { s with dispatcher := pc }.Inv :=
  ⟨hinv.forward, hinv.workers⟩

theorem Inv.closeConn {s : State} (hinv : s.Inv) (i : Nat) :
    (s.closeConn i).Inv :=
  ⟨hinv.forward, hinv.workers⟩

theorem Inv.setSender {s : State} (hinv : s.Inv) (i : Nat) (pc : SenderPc) :
    (s.setSender i pc).Inv :=
  ⟨hinv.forward, hinv.workers⟩

/-- A reader goes on and does not return. -/
theorem Inv.setReader {s : State} (hinv : s.Inv) {i : Nat} {pc : ReaderPc}
    (hbefore : s.readers i ≠ .returned) (hafter : pc ≠ .returned) :
    (s.setReader i pc).Inv where
  forward := hinv.forward
  workers j := by
    by_cases hj : j = i
    · have hworker := hinv.workers i
      simp_all [State.setReader]
    · simpa [State.setReader, hj] using hinv.workers j

/-- A reader and the channel of its worker change together. -/
theorem Inv.setWorker {s : State} (hinv : s.Inv) {i : Nat} {pc : ReaderPc}
    {chan : Chan Unit 0} (hworker : chan.closed = true ↔ pc = .returned) :
    ((s.setCloseCh i chan).setReader i pc).Inv where
  forward := hinv.forward
  workers j := by
    by_cases hj : j = i
    · simpa [State.setReader, State.setCloseCh, hj] using hworker
    · simpa [State.setReader, State.setCloseCh, hj] using hinv.workers j

theorem Inv.receive {s s' : State} (hinv : s.Inv)
    (hdone : s.receive = .done s') : s'.Inv := by
  cases hdispatcher : s.dispatcher with
  | select =>
      cases hrecv : s.forward.sendCh.recv with
      | value firstPacket chan =>
          simp only [State.receive, hdispatcher, hrecv,
            Outcome.done.injEq] at hdone
          subst hdone
          exact ⟨hinv.forward.setChans rfl (Chan.recv_eq_value_iff.mp hrecv).2,
            hinv.workers⟩
      | closed =>
          simp only [State.receive, hdispatcher, hrecv,
            Outcome.done.injEq] at hdone
          subst hdone
          exact hinv.setDispatcher _
      | block => simp [State.receive, hdispatcher, hrecv] at hdone
  | connect firstPacket | work conn | check | returned =>
      simp [State.receive, hdispatcher] at hdone

theorem Inv.closed {s s' : State} (hinv : s.Inv)
    (hdone : s.closed = .done s') : s'.Inv := by
  unfold State.closed at hdone
  split at hdone
  all_goals try split at hdone
  all_goals cases hdone
  all_goals exact hinv.setDispatcher _

theorem Inv.connect {s s' : State} (hinv : s.Inv) {ok : Bool}
    (hdone : s.connect ok = .done s') : s'.Inv := by
  cases hdispatcher : s.dispatcher with
  | connect firstPacket =>
      cases ok with
      | true =>
          simp only [State.connect, hdispatcher, if_true,
            Outcome.done.injEq] at hdone
          subst hdone
          have hworker : ((s.setCloseCh s.nextConn (Chan.make Unit 0)).setReader
              s.nextConn .read).Inv := hinv.setWorker (by simp)
          exact ⟨hinv.forward, hworker.workers⟩
      | false =>
          simp only [State.connect, hdispatcher, Bool.false_eq_true, if_false,
            Outcome.done.injEq] at hdone
          subst hdone
          exact hinv.setDispatcher _
  | select | work conn | check | returned =>
      simp [State.connect, hdispatcher] at hdone

theorem Inv.join {s s' : State} (hinv : s.Inv)
    (hdone : s.join = .done s') : s'.Inv := by
  unfold State.join at hdone
  split at hdone
  all_goals try split at hdone
  all_goals cases hdone
  all_goals exact hinv.setDispatcher _

theorem Inv.check {s s' : State} (hinv : s.Inv)
    (hdone : s.check = .done s') : s'.Inv := by
  unfold State.check at hdone
  split at hdone
  all_goals try split at hdone
  all_goals cases hdone
  all_goals exact hinv.setDispatcher _

theorem Inv.workConnReader {s s' : State} (hinv : s.Inv) {i : Nat}
    {input : Option WorkMsg} (hdone : s.workConnReader i input = .done s') :
    s'.Inv := by
  cases hreader : s.readers i with
  | read =>
      have hbefore : s.readers i ≠ .returned := by simp [hreader]
      simp only [State.workConnReader, hreader] at hdone
      split at hdone
      · cases hdone
        exact hinv.setReader hbefore (by simp)
      · split at hdone
        · cases hdone
        · split at hdone
          · cases hdone
            exact hinv.setReader hbefore (by simp)
          all_goals cases hdone
          all_goals exact hinv
  | push m =>
      have hbefore : s.readers i ≠ .returned := by simp [hreader]
      cases hsend : s.forward.readCh.send m with
      | done chan =>
          simp only [State.workConnReader, hreader, hsend,
            Outcome.done.injEq] at hdone
          subst hdone
          obtain ⟨hopen, _, hkept⟩ := Chan.send_eq_done_iff.mp hsend
          have hmoved : (s.setReader i .read).Inv :=
            hinv.setReader hbefore (by simp)
          exact ⟨hinv.forward.setChans (hkept.trans hopen.symm) rfl,
            hmoved.workers⟩
      | block => simp [State.workConnReader, hreader, hsend] at hdone
      | panic =>
          simp only [State.workConnReader, hreader, hsend,
            Outcome.done.injEq] at hdone
          subst hdone
          exact hinv.setReader hbefore (by simp)
  | leave =>
      cases hclose : (s.closeChs i).close with
      | done chan =>
          simp only [State.workConnReader, hreader, hclose,
            Outcome.done.injEq] at hdone
          subst hdone
          have hclosed := (Chan.close_eq_done_iff.mp hclose).2.2
          exact (hinv.closeConn i).setWorker (by simp [hclosed])
      | block => simp at hclose
      | panic => simp [State.workConnReader, hreader, hclose] at hdone
  | idle | returned => simp [State.workConnReader, hreader] at hdone

theorem Inv.workConnSender {s s' : State} (hinv : s.Inv) {i : Nat}
    {ok : Bool} (hdone : s.workConnSender i ok = .done s') : s'.Inv := by
  cases hsender : s.senders i with
  | select =>
      cases hrecv : s.forward.sendCh.recv with
      | value udpMsg chan =>
          simp only [State.workConnSender, hsender, hrecv,
            Outcome.done.injEq] at hdone
          subst hdone
          exact ⟨hinv.forward.setChans rfl (Chan.recv_eq_value_iff.mp hrecv).2,
            hinv.workers⟩
      | closed =>
          simp only [State.workConnSender, hsender, hrecv,
            Outcome.done.injEq] at hdone
          subst hdone
          exact (hinv.closeConn i).setSender i _
      | block => simp [State.workConnSender, hsender, hrecv] at hdone
  | write udpMsg =>
      simp only [State.workConnSender, hsender] at hdone
      split at hdone
      · split at hdone
        · cases hdone
        · cases hdone
          exact hinv.setSender i _
      · cases hdone
        exact (hinv.closeConn i).setSender i _
  | idle | returned => simp [State.workConnSender, hsender] at hdone

/-- What the check of Close sees of `checkCloseCh`. -/
theorem recv_checkCloseCh (chan : Chan Unit 0) :
    chan.recv = if chan.closed then .closed else .block := by
  have hbuf : chan.buf = [] :=
    List.eq_nil_of_length_eq_zero (Nat.le_zero.mp chan.fits)
  cases hclosed : chan.closed with
  | true => simp [hbuf, hclosed]
  | false => simp [hbuf, hclosed]

theorem Inv.close_ne_panic {s : State} (hinv : s.Inv) : s.close ≠ .panic := by
  have hforward := hinv.forward
  intro hpanic
  cases hmu : s.mu with
  | none => simp [close, hmu] at hpanic
  | some pc =>
      rw [hmu] at hforward
      cases pc with
      | check =>
          cases hclosed : s.checkCloseCh.closed with
          | true => simp [close, hmu, recv_checkCloseCh, hclosed] at hpanic
          | false =>
              obtain ⟨chan, hclose, _⟩ := Chan.exists_close_done hclosed
              simp [close, hmu, recv_checkCloseCh, hclosed, hclose] at hpanic
      | readCh =>
          obtain ⟨chan, hclose⟩ := hforward.readCh_close
          simp [close, hmu, hclose] at hpanic
      | sendCh =>
          obtain ⟨chan, hclose⟩ := hforward.sendCh_close
          simp [close, hmu, hclose] at hpanic
      | udpConn | leave | workConn | checkCloseCh =>
          simp [close, hmu] at hpanic

theorem Inv.close {s s' : State} (hinv : s.Inv)
    (hpermitted : s.mu = some .sendCh → s.forward.loop.holding = false)
    (hdone : s.close = .done s') : s'.Inv := by
  have hforward := hinv.forward
  have hworkers := hinv.workers
  cases hmu : s.mu with
  | none => simp [State.close, hmu] at hdone
  | some pc =>
      rw [hmu] at hforward
      cases pc with
      | check =>
          cases hclosed : s.checkCloseCh.closed with
          | true =>
              simp only [State.close, hmu, recv_checkCloseCh, hclosed, if_true,
                Outcome.done.injEq] at hdone
              subst hdone
              exact ⟨hforward.moveMu (by simp [ClosePc.closing]) rfl rfl rfl,
                hworkers⟩
          | false =>
              obtain ⟨chan, hclose, _, hbegun⟩ :=
                Chan.exists_close_done hclosed
              simp only [State.close, hmu, recv_checkCloseCh, hclosed,
                Bool.false_eq_true, if_false, hclose,
                Outcome.done.injEq] at hdone
              subst hdone
              rw [hclosed] at hforward
              exact ⟨hforward.moveMu (fun _ _ _ => hbegun) rfl rfl rfl,
                hworkers⟩
      | udpConn =>
          simp only [State.close, hmu, Outcome.done.injEq] at hdone
          subst hdone
          have hbegun := hforward.once _ rfl rfl
          exact ⟨hforward.closeUdpConn hbegun rfl rfl rfl, hworkers⟩
      | readCh =>
          obtain ⟨chan, hclose⟩ := hforward.readCh_close
          simp only [State.close, hmu, hclose, Outcome.done.injEq] at hdone
          subst hdone
          exact ⟨hforward.closeReadCh hclose, hworkers⟩
      | sendCh =>
          obtain ⟨chan, hclose⟩ := hforward.sendCh_close
          simp only [State.close, hmu, hclose, Outcome.done.injEq] at hdone
          subst hdone
          exact ⟨hforward.closeSendCh (hpermitted hmu) hclose (Or.inr rfl),
            hworkers⟩
      | leave =>
          simp only [State.close, hmu, Outcome.done.injEq] at hdone
          subst hdone
          exact ⟨hforward.moveMu (by simp) rfl rfl rfl, hworkers⟩
      | workConn | checkCloseCh => simp [State.close, hmu] at hdone

theorem Inv.attempt {bufSize : Nat} {s s' : State} {action : Action}
    (hinv : s.Inv) (hpermitted : Permitted s action)
    (hdone : SUDPVisitor.attempt bufSize s action = .done s') : s'.Inv := by
  cases action with
  | read result =>
      obtain ⟨forward, hforward, rfl⟩ := Outcome.map_eq_done_iff.mp hdone
      exact hinv.setForward (hinv.forward.readStep hforward)
  | select =>
      obtain ⟨forward, hforward, rfl⟩ := Outcome.map_eq_done_iff.mp hdone
      exact hinv.setForward (hinv.forward.selectStep hforward)
  | reply =>
      obtain ⟨forward, hforward, rfl⟩ := Outcome.map_eq_done_iff.mp hdone
      exact hinv.setForward (hinv.forward.writeReplyStep hforward)
  | receive => exact hinv.receive hdone
  | closed => exact hinv.closed hdone
  | connect ok => exact hinv.connect hdone
  | join => exact hinv.join hdone
  | check => exact hinv.check hdone
  | reader i input => exact hinv.workConnReader hdone
  | sender i ok => exact hinv.workConnSender hdone
  | cancel i =>
      simp only [SUDPVisitor.attempt] at hdone
      split at hdone
      · cases hdone
        exact (hinv.closeConn i).setSender i _
      · cases hdone
  | lock =>
      cases hmu : s.mu with
      | none =>
          simp only [SUDPVisitor.attempt, hmu, Outcome.done.injEq] at hdone
          subst hdone
          have hforward := hinv.forward
          rw [hmu] at hforward
          exact ⟨hforward.moveMu (by simp [ClosePc.closing]) rfl rfl rfl,
            hinv.workers⟩
      | some pc => simp [SUDPVisitor.attempt, hmu] at hdone
  | close => exact hinv.close hpermitted hdone

/-- A reader closes the channel of its worker once. -/
theorem Inv.workConnReader_ne_panic {s : State} (hinv : s.Inv) (i : Nat)
    (input : Option WorkMsg) : s.workConnReader i input ≠ .panic := by
  intro hpanic
  unfold State.workConnReader at hpanic
  split at hpanic
  · split at hpanic
    · cases hpanic
    · split at hpanic
      · cases hpanic
      · split at hpanic <;> cases hpanic
  · split at hpanic <;> cases hpanic
  · rename_i hleave
    split at hpanic
    · cases hpanic
    · cases hpanic
    · rename_i hclose
      have hreturned :=
        (hinv.workers i).mp (Chan.close_eq_panic_iff.mp hclose)
      rw [hleave] at hreturned
      cases hreturned
  all_goals cases hpanic

theorem Inv.attempt_ne_panic {bufSize : Nat} {s : State} {action : Action}
    (hinv : s.Inv) : SUDPVisitor.attempt bufSize s action ≠ .panic := by
  cases action with
  | read result =>
      rw [SUDPVisitor.attempt, Ne, Outcome.map_eq_panic_iff]
      exact s.forward.read_ne_panic bufSize result
  | select =>
      rw [SUDPVisitor.attempt, Ne, Outcome.map_eq_panic_iff]
      exact hinv.forward.select_ne_panic
  | reply =>
      rw [SUDPVisitor.attempt, Ne, Outcome.map_eq_panic_iff]
      exact s.forward.writeReply_ne_panic
  | reader i input => exact hinv.workConnReader_ne_panic i input
  | close => exact hinv.close_ne_panic
  | receive =>
      simp only [SUDPVisitor.attempt, State.receive]
      split
      all_goals try split
      all_goals simp
  | closed =>
      simp only [SUDPVisitor.attempt, State.closed]
      split
      all_goals try split
      all_goals simp
  | connect ok =>
      simp only [SUDPVisitor.attempt, State.connect]
      split
      all_goals try split
      all_goals simp
  | join =>
      simp only [SUDPVisitor.attempt, State.join]
      split
      all_goals try split
      all_goals simp
  | check =>
      simp only [SUDPVisitor.attempt, State.check]
      split
      all_goals try split
      all_goals simp
  | sender i ok =>
      simp only [SUDPVisitor.attempt, State.workConnSender]
      split
      all_goals try split
      all_goals try split
      all_goals simp
  | cancel i =>
      simp only [SUDPVisitor.attempt]
      split <;> simp
  | lock =>
      simp only [SUDPVisitor.attempt]
      split <;> simp

end State

theorem not_crashed_of_run {bufSize : Nat} {word : List Action}
    {p : Process State}
    (hrun : (system bufSize).Run (fun q => Permitted q.state) word p) :
    p.crashed = false := by
  refine Process.not_crashed_of_run State.inv_run ?_ ?_ hrun
  · intro s action hinv _
    exact hinv.attempt_ne_panic
  · intro s action s' hinv hpermitted hdone
    exact State.Inv.attempt hinv hpermitted hdone

end SUDPVisitor

end Udp

end Frp
