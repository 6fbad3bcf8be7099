/-
Which channels the worker of a Control has closed, which latches are set and
who is in the queue of `sendCh`, as an invariant of every run.
-/
import Frp.Client.Control

namespace Frp.Client

open Transition GoChan

variable {cfg : Config}

namespace State

/-- The worker closes `readCh` after the reader has closed `closedCh`, and
`sendCh` after the handler is done; the handler is in the queue of `sendCh` once
while it waits there. -/
structure Inv (s : State) : Prop where
  calls : s.calls.Inv
  handlers : s.calls.handlers = if s.handler = .waiting then 1 else 0
  readClosed : s.readCh.closed = s.worker.closedRead
  sendClosed : s.calls.sendCh.closed = s.worker.closedSend
  closedCh : s.closedCh = s.reader.closed
  readerLatch : s.readerDone = true ↔ s.reader = .exited
  handlerLatch : s.handlerDone = true ↔ s.handler = .exited
  writerLatch : s.writerDone = true ↔ s.writer = .exited
  workerSafe : s.worker ≠ .panicked
  readOrder : s.worker.pastClosed = true → s.closedCh = true
  sendOrder : s.worker.pastHandler = true → s.handlerDone = true
  finished : s.closedDoneCh = true ↔ s.worker = .exited

theorem inv_init : init.Inv where
  calls := Calls.inv_init
  handlers := rfl
  readClosed := rfl
  sendClosed := rfl
  closedCh := rfl
  readerLatch := by simp [init]
  handlerLatch := by simp [init]
  writerLatch := by simp [init]
  workerSafe := by simp [init]
  readOrder := by simp [init, WorkerPc.pastClosed]
  sendOrder := by simp [init, WorkerPc.pastHandler]
  finished := by simp [init]

/-- The reader goes on without closing `closedCh`. -/
theorem Inv.moveReader {s : State} (hinv : s.Inv) (pc : ReaderPc)
    (connFailed : Bool) (hclosed : pc.closed = s.reader.closed)
    (hrunning : s.reader ≠ .exited) (hgoes : pc ≠ .exited) :
    { s with reader := pc, connFailed := connFailed }.Inv :=
  { hinv with
    closedCh := hinv.closedCh.trans hclosed.symm
    readerLatch := by simpa [hrunning, hgoes] using hinv.readerLatch }

theorem Inv.readerStep {s s' : State} (hinv : s.Inv) {input : ReadResult}
    (hnext : s.readerStep input = some s') : s'.Inv := by
  cases hreader : s.reader with
  | read =>
      cases input with
      | message msg =>
          simp only [State.readerStep, hreader, Option.ite_none_left_eq_some,
            Option.some.injEq] at hnext
          obtain ⟨_, rfl⟩ := hnext
          exact hinv.moveReader _ _ (by rw [hreader]; rfl) (by simp [hreader])
            (by simp)
      | eof =>
          simp only [State.readerStep, hreader, Option.ite_none_right_eq_some,
            Option.some.injEq] at hnext
          obtain ⟨_, rfl⟩ := hnext
          exact hinv.moveReader _ _ (by rw [hreader]; rfl) (by simp [hreader])
            (by simp)
      | error =>
          simp only [State.readerStep, hreader, Option.ite_none_right_eq_some,
            Option.some.injEq] at hnext
          obtain ⟨_, rfl⟩ := hnext
          exact hinv.moveReader _ _ (by rw [hreader]; rfl) (by simp [hreader])
            (by simp)
  | push msg =>
      cases hsend : s.readCh.send msg with
      | done chan =>
          simp only [State.readerStep, hreader, hsend,
            Option.some.injEq] at hnext
          subst hnext
          obtain ⟨hopen, _, hkept⟩ := Chan.send_eq_done_iff.mp hsend
          have hmoved := hinv.moveReader .read s.connFailed
            (by rw [hreader]; rfl) (by simp [hreader]) (by simp)
          exact { hmoved with
            readClosed := by rw [← hinv.readClosed, hopen, hkept] }
      | block => simp [State.readerStep, hreader, hsend] at hnext
      | panic =>
          simp only [State.readerStep, hreader, hsend,
            Option.some.injEq] at hnext
          subst hnext
          exact hinv.moveReader _ _ (by rw [hreader]; rfl) (by simp [hreader])
            (by simp)
  | closing =>
      simp only [State.readerStep, hreader, Option.some.injEq] at hnext
      subst hnext
      exact { hinv with
        closedCh := rfl
        readerLatch := by simpa [hreader] using hinv.readerLatch
        readOrder := fun _ => rfl }
  | leaving =>
      simp only [State.readerStep, hreader, Option.some.injEq] at hnext
      subst hnext
      have hclosed := hinv.closedCh
      rw [hreader] at hclosed
      exact { hinv with
        closedCh := hclosed
        readerLatch := by simp }
  | exited => simp [State.readerStep, hreader] at hnext

/-- The writer goes on without setting its latch. -/
theorem Inv.moveWriter {s : State} (hinv : s.Inv) (pc : WriterPc)
    (connFailed : Bool) (hrunning : s.writer ≠ .exited)
    (hgoes : pc ≠ .exited) :
    { s with writer := pc, connFailed := connFailed }.Inv :=
  { hinv with
    writerLatch := by simpa [hrunning, hgoes] using hinv.writerLatch }

/-- A message has been received, and with it a sender may have been let go. -/
theorem Inv.serve {s : State} (hinv : s.Inv) {msg : ControlMsg}
    {chan : Chan ControlMsg 100}
    (hrecv : s.calls.sendCh.recv = .value msg chan) :
    { s with
      calls := s.calls.serve chan
      handler :=
        if s.calls.servesHandler then .select else s.handler : State }.Inv := by
  obtain ⟨hcalls, hclosed, hhandlers⟩ := hinv.calls.serve hrecv
  rw [hinv.handlers] at hhandlers
  cases hserves : s.calls.servesHandler with
  | false =>
      rw [hserves] at hhandlers
      exact { hinv with
        calls := hcalls
        handlers := by simpa using hhandlers
        sendClosed := hclosed.trans hinv.sendClosed }
  | true =>
      rw [hserves, if_pos rfl] at hhandlers
      have hwaiting : s.handler = .waiting := by
        by_contra hother
        rw [if_neg hother] at hhandlers
        omega
      rw [if_pos hwaiting] at hhandlers
      have hnone : (s.calls.serve chan).handlers = 0 := by omega
      exact { hinv with
        calls := hcalls
        handlers := hnone
        sendClosed := hclosed.trans hinv.sendClosed
        handlerLatch := by simpa [hwaiting] using hinv.handlerLatch }

theorem Inv.writerStep {s s' : State} (hinv : s.Inv) {ok : Bool}
    (hnext : s.writerStep ok = some s') : s'.Inv := by
  cases hwriter : s.writer with
  | newWriter =>
      cases ok with
      | true =>
          simp only [State.writerStep, hwriter, if_true,
            Option.some.injEq] at hnext
          subst hnext
          exact hinv.moveWriter _ _ (by simp [hwriter]) (by simp)
      | false =>
          simp only [State.writerStep, hwriter, Bool.false_eq_true, if_false,
            Option.some.injEq] at hnext
          subst hnext
          exact hinv.moveWriter _ _ (by simp [hwriter]) (by simp)
  | recv =>
      cases hrecv : s.calls.sendCh.recv with
      | value msg chan =>
          simp only [State.writerStep, hwriter, hrecv,
            Option.some.injEq] at hnext
          subst hnext
          exact (hinv.serve hrecv).moveWriter _ _ (by simp [hwriter])
            (by simp)
      | closed =>
          simp only [State.writerStep, hwriter, hrecv,
            Option.some.injEq] at hnext
          subst hnext
          exact hinv.moveWriter _ _ (by simp [hwriter]) (by simp)
      | block => simp [State.writerStep, hwriter, hrecv] at hnext
  | write msg =>
      cases ok with
      | true =>
          simp only [State.writerStep, hwriter, if_true,
            Option.ite_none_left_eq_some, Option.some.injEq] at hnext
          obtain ⟨_, rfl⟩ := hnext
          exact hinv.moveWriter _ _ (by simp [hwriter]) (by simp)
      | false =>
          simp only [State.writerStep, hwriter, Bool.false_eq_true, if_false,
            Option.some.injEq] at hnext
          subst hnext
          exact hinv.moveWriter _ _ (by simp [hwriter]) (by simp)
  | leaving =>
      simp only [State.writerStep, hwriter, Option.some.injEq] at hnext
      subst hnext
      exact { hinv with writerLatch := by simp }
  | exited => simp [State.writerStep, hwriter] at hnext

/-- The handler goes on without waiting and without setting its latch. -/
theorem Inv.moveHandler {s : State} (hinv : s.Inv) (pc : HandlerPc)
    (hrunning : s.handler ≠ .exited ∧ s.handler ≠ .waiting)
    (hgoes : pc ≠ .exited ∧ pc ≠ .waiting) :
    { s with handler := pc }.Inv :=
  { hinv with
    handlers := by
      have hhandlers := hinv.handlers
      rw [if_neg hrunning.2] at hhandlers
      rw [if_neg hgoes.2]
      exact hhandlers
    handlerLatch := by simpa [hrunning, hgoes] using hinv.handlerLatch }

/-- The handler has made a send. -/
theorem Inv.offered {s : State} (hinv : s.Inv)
    (hrunning : s.handler ≠ .exited ∧ s.handler ≠ .waiting)
    {result : Calls × Bool} (hcalls : result.1.Inv)
    (hclosed : result.1.sendCh.closed = s.calls.sendCh.closed)
    (hhandlers : result.1.handlers =
      s.calls.handlers + if result.2 then 0 else 1) :
    { s with
      calls := result.1
      handler := if result.2 then .select else .waiting : State }.Inv := by
  rw [hinv.handlers, if_neg hrunning.2] at hhandlers
  exact { hinv with
    calls := hcalls
    handlers := by
      rw [hhandlers]
      cases result.2 <;> simp
    sendClosed := hclosed.trans hinv.sendClosed
    handlerLatch := by
      have hlatch := hinv.handlerLatch
      cases result.2 <;> simpa [hrunning] using hlatch }

theorem Inv.setConnFailed {s : State} (hinv : s.Inv) (connFailed : Bool) :
    { s with connFailed := connFailed }.Inv :=
  { hinv with }

theorem Inv.handle {s : State} (hinv : s.Inv) (hselect : s.handler = .select)
    (msg : ServerMessage) : (s.handle msg).Inv := by
  have hrunning : s.handler ≠ .exited ∧ s.handler ≠ .waiting := by
    simp [hselect]
  cases msg with
  | reqWorkConn => exact hinv
  | other => exact hinv
  | newProxyResp name resp => exact hinv.moveHandler _ hrunning (by simp)
  | pong error =>
      by_cases hnone : error = ""
      · rw [State.handle, if_pos hnone]
        exact { hinv with }
      · rw [State.handle, if_neg hnone]
        exact (hinv.moveHandler .leaving hrunning (by simp)).setConnFailed true

theorem Inv.handlerStep {s s' : State} (hinv : s.Inv)
    {runErr : Option String} (hnext : s.handlerStep runErr = some s') :
    s'.Inv := by
  cases hhandler : s.handler with
  | select =>
      cases hrecv : s.readCh.recv with
      | value msg chan =>
          simp only [State.handlerStep, hhandler, hrecv,
            Option.some.injEq] at hnext
          subst hnext
          have hkept := (Chan.recv_eq_value_iff.mp hrecv).2
          have htaken : { s with readCh := chan }.Inv :=
            { hinv with readClosed := hkept.trans hinv.readClosed }
          rw [← hhandler]
          exact htaken.handle hhandler msg
      | closed =>
          simp only [State.handlerStep, hhandler, hrecv,
            Option.some.injEq] at hnext
          subst hnext
          exact hinv.moveHandler _ (by simp [hhandler]) (by simp)
      | block => simp [State.handlerStep, hhandler, hrecv] at hnext
  | lookup name resp =>
      simp only [State.handlerStep, hhandler, Option.ite_none_left_eq_some,
        Option.some.injEq] at hnext
      obtain ⟨_, rfl⟩ := hnext
      apply hinv.moveHandler _ (by simp [hhandler])
      cases s.calls.proxies.lookup name <;> simp
  | setRunning i resp =>
      simp only [State.handlerStep, hhandler, Option.ite_none_left_eq_some,
        Option.some.injEq] at hnext
      obtain ⟨_, rfl⟩ := hnext
      obtain ⟨hcalls, hclosed, hhandlers⟩ := hinv.calls.setRunningStatus
        s.clock i resp.remoteAddr resp.error runErr
      exact hinv.offered (by simp [hhandler]) hcalls hclosed hhandlers
  | leaving =>
      simp only [State.handlerStep, hhandler, Option.some.injEq] at hnext
      subst hnext
      have hhandlers := hinv.handlers
      rw [hhandler] at hhandlers
      exact { hinv with
        handlers := hhandlers
        handlerLatch := by simp
        sendOrder := fun _ => rfl }
  | waiting => simp [State.handlerStep, hhandler] at hnext
  | exited => simp [State.handlerStep, hhandler] at hnext

theorem Inv.tickStep {s : State} (hinv : s.Inv) (hselect : s.handler = .select)
    (ok : Bool) : (s.tickStep ok).Inv := by
  have hrunning : s.handler ≠ .exited ∧ s.handler ≠ .waiting := by
    simp [hselect]
  unfold State.tickStep
  split
  · split
    · exact hinv.moveHandler _ hrunning (by simp)
    · obtain ⟨hcalls, hclosed, hhandlers⟩ :=
        hinv.calls.offerHandler (w := .ping) .ping rfl
      exact hinv.offered hrunning hcalls hclosed hhandlers
  · exact hinv.moveHandler _ hrunning (by simp)

/-- A closed `sendCh` has no queue, and nobody holds a mutex. -/
theorem Inv.queue_nil_of_closed {s : State} (hinv : s.Inv)
    (hclosed : s.calls.sendCh.closed = true) : s.calls.sendq = [] := by
  by_contra hwaiting
  have hopen := (hinv.calls.full hwaiting).2
  rw [hclosed] at hopen
  cases hopen

theorem Inv.free_of_closed {s : State} (hinv : s.Inv)
    (hclosed : s.calls.sendCh.closed = true) : ¬ s.calls.Busy := by
  intro hbusy
  exact hinv.calls.queue_ne_nil_of_busy hbusy (hinv.queue_nil_of_closed hclosed)

/-- Only a handler that waits is let go. -/
theorem Inv.servesHandler_eq_false {s : State} (hinv : s.Inv)
    (hother : s.handler ≠ .waiting) : s.calls.servesHandler = false := by
  have hhandlers := hinv.handlers
  rw [if_neg hother, Calls.handlers, List.countP_eq_zero] at hhandlers
  cases hqueue : s.calls.sendq with
  | nil => simp [Calls.servesHandler, hqueue]
  | cons first rest =>
      have hfirst := hhandlers first (by simp [hqueue])
      simpa [Calls.servesHandler, hqueue] using hfirst

/-- The worker goes on without closing `sendCh` and without being done. -/
theorem Inv.moveWorker {s : State} (hinv : s.Inv) (pc : WorkerPc)
    (hrunning : s.worker ≠ .exited) (hgoes : pc ≠ .exited ∧ pc ≠ .panicked)
    (hread : s.readCh.closed = pc.closedRead)
    (hsend : s.calls.sendCh.closed = pc.closedSend)
    (hclosed : pc.pastClosed = true → s.closedCh = true)
    (hhandler : pc.pastHandler = true → s.handlerDone = true) :
    { s with worker := pc }.Inv :=
  { hinv with
    readClosed := hread
    sendClosed := hsend
    workerSafe := hgoes.2
    readOrder := hclosed
    sendOrder := hhandler
    finished := by simpa [hrunning, hgoes.1] using hinv.finished }

theorem Inv.workerStep {s s' : State} (hinv : s.Inv)
    (hnext : s.workerStep = some s') : s'.Inv := by
  have hread := hinv.readClosed
  have hsend := hinv.sendClosed
  have hclosed := hinv.readOrder
  have hhandler := hinv.sendOrder
  cases hworker : s.worker with
  | waitClosed =>
      simp only [State.workerStep, hworker, Option.ite_none_right_eq_some,
        Option.some.injEq] at hnext
      obtain ⟨hdone, rfl⟩ := hnext
      rw [hworker] at hread hsend hhandler
      exact hinv.moveWorker _ (by simp [hworker]) (by simp) hread hsend
        (fun _ => hdone) hhandler
  | closeRead =>
      rw [hworker] at hread hsend hclosed hhandler
      obtain ⟨chan, hclose, _, hchan⟩ := Chan.exists_close_done hread
      simp only [State.workerStep, hworker, hclose, Option.some.injEq] at hnext
      subst hnext
      exact { hinv with
        readClosed := hchan
        sendClosed := hsend
        workerSafe := by simp
        readOrder := hclosed
        sendOrder := hhandler
        finished := by simpa [hworker] using hinv.finished }
  | waitReader =>
      simp only [State.workerStep, hworker, Option.ite_none_right_eq_some,
        Option.some.injEq] at hnext
      obtain ⟨_, rfl⟩ := hnext
      rw [hworker] at hread hsend hclosed hhandler
      exact hinv.moveWorker _ (by simp [hworker]) (by simp) hread hsend
        hclosed hhandler
  | waitHandler =>
      simp only [State.workerStep, hworker, Option.ite_none_right_eq_some,
        Option.some.injEq] at hnext
      obtain ⟨hdone, rfl⟩ := hnext
      rw [hworker] at hread hsend hclosed
      exact hinv.moveWorker _ (by simp [hworker]) (by simp) hread hsend
        hclosed (fun _ => hdone)
  | closeSend =>
      rw [hworker] at hread hsend hclosed hhandler
      cases hclose : s.calls.closeSendCh with
      | done calls =>
          simp only [State.workerStep, hworker, hclose,
            Option.some.injEq] at hnext
          subst hnext
          obtain ⟨hchan, hqueue, hstopping⟩ := Calls.closeSendCh_spec hclose
          have hexited := hinv.handlerLatch.mp (hhandler rfl)
          exact { hinv with
            calls := Calls.inv_of_empty hqueue hstopping
            handlers := by simp [Calls.handlers, hqueue, hexited]
            readClosed := hread
            sendClosed := hchan
            workerSafe := by simp
            readOrder := hclosed
            sendOrder := hhandler
            finished := by simpa [hworker] using hinv.finished }
      | block => simp [State.workerStep, hworker, hclose] at hnext
      | panic =>
          have hchan := Calls.closed_of_panic hclose
          rw [hsend] at hchan
          cases hchan
  | waitWriter =>
      simp only [State.workerStep, hworker, Option.ite_none_right_eq_some,
        Option.some.injEq] at hnext
      obtain ⟨_, rfl⟩ := hnext
      rw [hworker] at hread hsend hclosed hhandler
      exact hinv.moveWorker _ (by simp [hworker]) (by simp) hread hsend
        hclosed hhandler
  | closeProxies =>
      simp only [State.workerStep, hworker, Option.map_eq_some_iff] at hnext
      obtain ⟨calls, hclose, rfl⟩ := hnext
      obtain ⟨hcalls, hgoes⟩ := hinv.calls.close hclose
      rw [hworker] at hread hsend hclosed hhandler
      exact { hinv with
        calls := hcalls
        handlers := hgoes.handlers.trans hinv.handlers
        readClosed := hread
        sendClosed := hgoes.closed.trans hsend
        workerSafe := by simp
        readOrder := hclosed
        sendOrder := hhandler
        finished := by simpa [hworker] using hinv.finished }
  | closeVisitors =>
      simp only [State.workerStep, hworker, Option.some.injEq] at hnext
      subst hnext
      rw [hworker] at hread hsend hclosed hhandler
      exact hinv.moveWorker _ (by simp [hworker]) (by simp) hread hsend
        hclosed hhandler
  | closeDone =>
      simp only [State.workerStep, hworker, Option.some.injEq] at hnext
      subst hnext
      rw [hworker] at hread hsend hclosed hhandler
      exact { hinv with
        readClosed := hread
        sendClosed := hsend
        workerSafe := by simp
        readOrder := hclosed
        sendOrder := hhandler
        finished := by simp }
  | exited => simp [State.workerStep, hworker] at hnext
  | panicked => simp [State.workerStep, hworker] at hnext

/-- Calls beside the four goroutines have gone on. -/
theorem Inv.setCalls {s : State} (hinv : s.Inv) {calls : Calls}
    (hcalls : calls.Inv ∧ Calls.Goes s.calls calls) : (s.setCalls calls).Inv :=
  { hinv with
    calls := hcalls.1
    handlers := hcalls.2.handlers.trans hinv.handlers
    sendClosed := hcalls.2.closed.trans hinv.sendClosed }

theorem healthStep_cases {s s' : State} {i : Nat} {healthy : Bool}
    (hnext : s.healthStep i healthy = some s') :
    ∃ name pw, s.calls.wrappers i = some (name, pw) ∧ pw.monitor = true ∧
      s' = s.setCalls (s.calls.setWrapper i name
        (if healthy then pw.statusNormalCallback
          else pw.statusFailedCallback)) := by
  unfold State.healthStep at hnext
  split at hnext
  · cases hnext
  · next name pw hwrapper =>
      obtain ⟨hmonitor, hsame⟩ := Option.ite_none_right_eq_some.mp hnext
      exact ⟨name, pw, hwrapper, hmonitor, (Option.some.inj hsame).symm⟩

theorem Inv.step {s s' : State} {action : Action} (hinv : s.Inv)
    (hstep : Client.step cfg s action = some s') : s'.Inv := by
  cases action with
  | reader input => exact hinv.readerStep hstep
  | writer ok => exact hinv.writerStep hstep
  | handler runErr => exact hinv.handlerStep hstep
  | worker => exact hinv.workerStep hstep
  | tick ok =>
      simp only [Client.step, Option.ite_none_right_eq_some,
        Option.some.injEq] at hstep
      obtain ⟨⟨hselect, _⟩, rfl⟩ := hstep
      exact hinv.tickStep hselect ok
  | timeout =>
      simp only [Client.step, Option.ite_none_right_eq_some,
        Option.some.injEq] at hstep
      obtain ⟨⟨hselect, _⟩, rfl⟩ := hstep
      exact (hinv.moveHandler .leaving (by simp [hselect])
        (by simp)).setConnFailed true
  | connFail =>
      simp only [Client.step, Option.some.injEq] at hstep
      subst hstep
      exact hinv.setConnFailed true
  | elapse seconds =>
      simp only [Client.step, Option.some.injEq] at hstep
      subst hstep
      exact { hinv with }
  | health i healthy =>
      obtain ⟨name, pw, -, -, rfl⟩ := healthStep_cases hstep
      have hsame := s.calls.setWrapper_same i
      exact hinv.setCalls ⟨(hsame _ _).inv hinv.calls, (hsame _ _).goes⟩
  | check i =>
      simp only [Client.step, Option.map_eq_some_iff] at hstep
      obtain ⟨calls, hcheck, rfl⟩ := hstep
      exact hinv.setCalls (hinv.calls.check hcheck)
  | reload cfgs order =>
      simp only [Client.step, Option.map_eq_some_iff] at hstep
      obtain ⟨calls, hreload, rfl⟩ := hstep
      exact hinv.setCalls (hinv.calls.reload hreload)
  | gracefulClose order =>
      simp only [Client.step, Option.map_eq_some_iff] at hstep
      obtain ⟨calls, hclose, rfl⟩ := hstep
      exact hinv.setCalls (hinv.calls.close hclose)

end State

theorem inv_of_reaches {word : List Action} {s : State}
    (hreach : (system cfg).Reaches word s) : s.Inv := by
  refine System.Reaches.invariant State.inv_init ?_ hreach
  intro state action next hinv hstep
  exact State.Inv.step hinv hstep

end Frp.Client
