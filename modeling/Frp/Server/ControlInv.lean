/-
Which goroutines of a Control have been started, which channels its stoper has
closed and which latches are set, as an invariant of every run.
-/
import Frp.Server.Control

namespace Frp.Server

open Transition GoChan

variable {cfg : Config}

namespace State

/-- Who has been started, which channels the stoper has closed, and which
latches are set. -/
structure Inv (s : State cfg) : Prop where
  started : s.start = .started ↔ s.stoper ≠ .notStarted
  managerStarted : s.manager = .notStarted ↔ s.stoper = .notStarted
  readerStarted : s.reader = .notStarted ↔ s.stoper = .notStarted
  writerStarted : s.start = .login ↔ s.writer = .notStarted
  startSafe : s.start ≠ .panicked
  stoperSafe : s.stoper ≠ .panicked
  readClosed : s.readCh.closed = s.stoper.closedRead
  sendClosed : s.sendCh.closed = s.stoper.closedSend
  workClosed : s.pool.workConnCh.closed = s.stoper.closedWork
  readerLatch : s.readerDone = s.reader.done
  managerLatch : s.managerDone = s.manager.done
  writerLatch : s.writerDone = s.writer.done
  readerStop : s.reader = .exited → s.allStarted = true
  readOrder : s.stoper.pastReader = true → s.readerDone = true
  sendOrder : s.stoper.pastManager = true → s.managerDone = true
  workOrder : s.stoper.pastWriter = true → s.writerDone = true
  finished : s.allDone = true ↔ s.stoper = .exited
  locked : s.mu = true → s.manager = .closing ∨ s.manager.returned = true

theorem startStep_frame {s s' : State cfg} (hnext : s.startStep = some s') :
    s'.pool = s.pool ∧ (s'.stoper = s.stoper ∨ s'.stoper = .waitStart) := by
  unfold State.startStep at hnext
  split at hnext
  all_goals try split at hnext
  all_goals cases hnext
  all_goals simp

/-- The writer leaves all but its own part as it was. -/
theorem writerStep_frame {s s' : State cfg} {ok : Bool}
    (hnext : s.writerStep ok = some s') :
    s' = { s with
      writer := s'.writer
      sendCh := s'.sendCh
      writerDone := s'.writerDone
      allStarted := s'.allStarted } := by
  unfold State.writerStep at hnext
  split at hnext
  all_goals try split at hnext
  all_goals try split at hnext
  all_goals cases hnext
  all_goals rfl

/-- The reader leaves all but its own part as it was. -/
theorem readerStep_frame {s s' : State cfg} {input : ReadResult}
    (hnext : s.readerStep input = some s') :
    s' = { s with
      reader := s'.reader
      readCh := s'.readCh
      connFailed := s'.connFailed
      readerDone := s'.readerDone
      allStarted := s'.allStarted } := by
  unfold State.readerStep at hnext
  split at hnext
  all_goals try split at hnext
  all_goals try split at hnext
  all_goals cases hnext
  all_goals rfl

/-- The manager leaves all but its own part as it was. -/
theorem managerStep_frame {s s' : State cfg} {close : CloseResult}
    (hnext : s.managerStep close = some s') :
    s' = { s with
      manager := s'.manager
      mu := s'.mu
      readCh := s'.readCh
      sendCh := s'.sendCh
      managerDone := s'.managerDone
      allStarted := s'.allStarted } := by
  unfold State.managerStep at hnext
  split at hnext
  all_goals try split at hnext
  all_goals cases hnext
  all_goals rfl

/-- The calls of `GetWorkConn` leave the goroutines as they were. -/
theorem getStep_frame {s s' : State cfg} {j : Nat}
    (hnext : s.getStep j = some s') :
    s' = { s with sendCh := s'.sendCh, pool := s'.pool } := by
  unfold State.getStep at hnext
  split at hnext
  all_goals try split at hnext
  all_goals simp only [Option.map_eq_some_iff, Option.some.injEq,
    reduceCtorEq] at hnext
  all_goals first
    | subst hnext
      rfl
    | obtain ⟨_, _, rfl⟩ := hnext
      rfl

theorem inv_init : (init cfg).Inv := by
  constructor <;> simp [init, StoperPc.closedRead, StoperPc.closedSend,
    StoperPc.closedWork, StoperPc.pastReader, StoperPc.pastManager,
    StoperPc.pastWriter, ReaderPc.done, ManagerPc.done, WriterPc.done]

/-- The mutex is free unless `CloseProxy` has it or the manager has ended. -/
theorem Inv.unlocked {s : State cfg} (hinv : s.Inv)
    (hfree : s.manager.unlocked = true) : s.mu = false := by
  by_contra hlocked
  have hholds := hinv.locked (by simpa using hlocked)
  cases hmanager : s.manager <;>
    simp [hmanager, ManagerPc.unlocked, ManagerPc.returned] at hfree hholds

/-- Until the stoper runs no channel is closed. -/
theorem Inv.sendOpen {s : State cfg} (hinv : s.Inv)
    (hstart : s.start ≠ .started) : s.sendCh.closed = false := by
  have hstoper : s.stoper = .notStarted := by
    by_contra hne
    exact hstart (hinv.started.mpr hne)
  rw [hinv.sendClosed, hstoper]
  rfl

theorem Inv.startStep {s s' : State cfg} (hinv : s.Inv)
    (hnext : s.startStep = some s') : s'.Inv := by
  cases hstart : s.start with
  | login =>
      simp only [State.startStep, hstart, Option.some.injEq] at hnext
      subst hnext
      have hlatch := hinv.writerLatch
      rw [hinv.writerStarted.mp hstart] at hlatch
      exact { hinv with
        started := by simpa [hstart] using hinv.started
        writerStarted := by simp
        startSafe := by simp
        writerLatch := hlatch }
  | pooling left =>
      have hstoper : s.stoper = .notStarted := by
        simpa [hstart] using hinv.started
      have hwriter : s.writer ≠ .notStarted := by
        simpa [hstart] using hinv.writerStarted
      cases left with
      | zero =>
          simp only [State.startStep, hstart, Option.some.injEq] at hnext
          subst hnext
          have hread := hinv.readClosed
          have hsend := hinv.sendClosed
          have hwork := hinv.workClosed
          have hfinished := hinv.finished
          have hreader := hinv.readerLatch
          have hmanager := hinv.managerLatch
          rw [hstoper] at hread hsend hwork hfinished
          rw [hinv.readerStarted.mpr hstoper] at hreader
          have hunlocked := hinv.unlocked (by
            simp [hinv.managerStarted.mpr hstoper, ManagerPc.unlocked])
          rw [hinv.managerStarted.mpr hstoper] at hmanager
          exact { hinv with
            started := by simp
            managerStarted := by simp
            readerStarted := by simp
            writerStarted := by simpa using hwriter
            startSafe := by simp
            stoperSafe := by simp
            readClosed := hread
            sendClosed := hsend
            workClosed := hwork
            readerLatch := hreader
            managerLatch := hmanager
            readerStop := by simp
            readOrder := by simp [StoperPc.pastReader]
            sendOrder := by simp [StoperPc.pastManager]
            workOrder := by simp [StoperPc.pastWriter]
            finished := by simpa using hfinished
            locked := by simp [hunlocked] }
      | succ left =>
          have hopen := hinv.sendOpen (by simp [hstart])
          cases hsend : s.sendCh.send .reqWorkConn with
          | done chan =>
              simp only [State.startStep, hstart, hsend,
                Option.some.injEq] at hnext
              subst hnext
              have hkept := (Chan.send_eq_done_iff.mp hsend).2.2
              exact { hinv with
                started := by simpa using hstoper
                writerStarted := by simpa using hwriter
                startSafe := by simp
                sendClosed := by
                  rw [← hinv.sendClosed, hopen, hkept] }
          | block => simp [State.startStep, hstart, hsend] at hnext
          | panic => simp [hopen] at hsend
  | started | panicked => simp [State.startStep, hstart] at hnext

/-- The writer goes on without setting its latch. -/
theorem Inv.moveWriter {s : State cfg} (hinv : s.Inv) (pc : WriterPc)
    {allStarted : Bool} (hwriter : s.writer ≠ .notStarted)
    (hpc : pc ≠ .notStarted) (hdone : pc.done = s.writer.done)
    (hall : s.allStarted = true → allStarted = true) :
    { s with writer := pc, allStarted := allStarted }.Inv :=
  { hinv with
    writerStarted := by simpa [hpc, hwriter] using hinv.writerStarted
    writerLatch := hinv.writerLatch.trans hdone.symm
    readerStop := fun hexited => hall (hinv.readerStop hexited) }

theorem Inv.writerStep {s s' : State cfg} (hinv : s.Inv) {ok : Bool}
    (hnext : s.writerStep ok = some s') : s'.Inv := by
  cases hwriter : s.writer with
  | newWriter =>
      cases ok with
      | true =>
          simp only [State.writerStep, hwriter, if_true,
            Option.some.injEq] at hnext
          subst hnext
          exact hinv.moveWriter _ (by simp [hwriter]) (by simp)
            (by rw [hwriter]; rfl) (fun h => h)
      | false =>
          simp only [State.writerStep, hwriter, Bool.false_eq_true, if_false,
            Option.some.injEq] at hnext
          subst hnext
          exact hinv.moveWriter _ (by simp [hwriter]) (by simp)
            (by rw [hwriter]; rfl) (fun _ => rfl)
  | recv =>
      cases hrecv : s.sendCh.recv with
      | value msg chan =>
          simp only [State.writerStep, hwriter, hrecv,
            Option.some.injEq] at hnext
          subst hnext
          have hkept := (Chan.recv_eq_value_iff.mp hrecv).2
          have hmoved := hinv.moveWriter (.write msg)
            (by simp [hwriter]) (by simp) (by rw [hwriter]; rfl) (fun h => h)
          exact { hmoved with
            sendClosed := hkept.trans hinv.sendClosed }
      | closed =>
          simp only [State.writerStep, hwriter, hrecv,
            Option.some.injEq] at hnext
          subst hnext
          exact hinv.moveWriter _ (by simp [hwriter]) (by simp)
            (by rw [hwriter]; rfl) (fun h => h)
      | block => simp [State.writerStep, hwriter, hrecv] at hnext
  | write msg =>
      cases ok with
      | true =>
          simp only [State.writerStep, hwriter, if_true,
            Option.ite_none_left_eq_some, Option.some.injEq] at hnext
          obtain ⟨_, rfl⟩ := hnext
          exact hinv.moveWriter _ (by simp [hwriter]) (by simp)
            (by rw [hwriter]; rfl) (fun h => h)
      | false =>
          simp only [State.writerStep, hwriter, Bool.false_eq_true, if_false,
            Option.some.injEq] at hnext
          subst hnext
          exact hinv.moveWriter _ (by simp [hwriter]) (by simp)
            (by rw [hwriter]; rfl) (fun h => h)
  | leaving =>
      simp only [State.writerStep, hwriter, Option.some.injEq] at hnext
      subst hnext
      exact { hinv with
        writerStarted := by simpa [hwriter] using hinv.writerStarted
        writerLatch := rfl
        workOrder := fun _ => rfl }
  | starting =>
      simp only [State.writerStep, hwriter, Option.some.injEq] at hnext
      subst hnext
      exact hinv.moveWriter _ (by simp [hwriter]) (by simp)
        (by rw [hwriter]; rfl) (fun _ => rfl)
  | notStarted | exited => simp [State.writerStep, hwriter] at hnext

/-- The reader goes on without setting its latch. -/
theorem Inv.moveReader {s : State cfg} (hinv : s.Inv) (pc : ReaderPc)
    (connFailed : Bool) (hreader : s.reader ≠ .notStarted)
    (hpc : pc ≠ .notStarted) (hrunning : pc ≠ .exited)
    (hdone : pc.done = s.reader.done) :
    { s with reader := pc, connFailed := connFailed }.Inv :=
  { hinv with
    readerStarted := by simpa [hpc, hreader] using hinv.readerStarted
    readerLatch := hinv.readerLatch.trans hdone.symm
    readerStop := fun hexited => absurd hexited hrunning }

theorem Inv.readerStep {s s' : State cfg} (hinv : s.Inv) {input : ReadResult}
    (hnext : s.readerStep input = some s') : s'.Inv := by
  cases hreader : s.reader with
  | read =>
      cases input with
      | message msg =>
          simp only [State.readerStep, hreader, Option.ite_none_left_eq_some,
            Option.some.injEq] at hnext
          obtain ⟨_, rfl⟩ := hnext
          exact hinv.moveReader _ _ (by simp [hreader]) (by simp) (by simp)
            (by rw [hreader]; rfl)
      | eof =>
          simp only [State.readerStep, hreader, Option.ite_none_right_eq_some,
            Option.some.injEq] at hnext
          obtain ⟨_, rfl⟩ := hnext
          exact hinv.moveReader _ _ (by simp [hreader]) (by simp) (by simp)
            (by rw [hreader]; rfl)
      | error =>
          simp only [State.readerStep, hreader, Option.ite_none_right_eq_some,
            Option.some.injEq] at hnext
          obtain ⟨_, rfl⟩ := hnext
          exact hinv.moveReader _ _ (by simp [hreader]) (by simp) (by simp)
            (by rw [hreader]; rfl)
  | push msg =>
      cases hsend : s.readCh.send msg with
      | done chan =>
          simp only [State.readerStep, hreader, hsend,
            Option.some.injEq] at hnext
          subst hnext
          obtain ⟨hopen, _, hkept⟩ := Chan.send_eq_done_iff.mp hsend
          have hmoved := hinv.moveReader .read s.connFailed
            (by simp [hreader]) (by simp) (by simp) (by rw [hreader]; rfl)
          exact { hmoved with
            readClosed := by rw [← hinv.readClosed, hopen, hkept] }
      | block => simp [State.readerStep, hreader, hsend] at hnext
      | panic =>
          simp only [State.readerStep, hreader, hsend,
            Option.some.injEq] at hnext
          subst hnext
          exact hinv.moveReader _ _ (by simp [hreader]) (by simp) (by simp)
            (by rw [hreader]; rfl)
  | leaving =>
      simp only [State.readerStep, hreader, Option.some.injEq] at hnext
      subst hnext
      exact { hinv with
        readerStarted := by simpa [hreader] using hinv.readerStarted
        readerLatch := rfl
        readerStop := by simp
        readOrder := fun _ => rfl }
  | starting =>
      simp only [State.readerStep, hreader, Option.some.injEq] at hnext
      subst hnext
      have hlatch := hinv.readerLatch
      rw [hreader] at hlatch
      exact { hinv with
        readerStarted := by simpa [hreader] using hinv.readerStarted
        readerLatch := hlatch
        readerStop := fun _ => rfl }
  | notStarted | exited => simp [State.readerStep, hreader] at hnext

/-- The manager goes on without setting its latch. -/
theorem Inv.moveManager {s : State cfg} (hinv : s.Inv) (pc : ManagerPc)
    (mu : Bool) {allStarted : Bool} (hmanager : s.manager ≠ .notStarted)
    (hpc : pc ≠ .notStarted) (hdone : pc.done = s.manager.done)
    (hall : s.allStarted = true → allStarted = true)
    (hlocked : mu = true → pc = .closing ∨ pc.returned = true) :
    { s with manager := pc, mu := mu, allStarted := allStarted }.Inv :=
  { hinv with
    managerStarted := by simpa [hpc, hmanager] using hinv.managerStarted
    managerLatch := hinv.managerLatch.trans hdone.symm
    readerStop := fun hexited => hall (hinv.readerStop hexited)
    locked := hlocked }

theorem managerNext_running (msg : ClientMessage) :
    managerNext msg ≠ .notStarted ∧ (managerNext msg).done = false := by
  cases msg <;> simp [managerNext, ManagerPc.done]

theorem Inv.managerStep {s s' : State cfg} (hinv : s.Inv)
    {close : CloseResult} (hnext : s.managerStep close = some s') : s'.Inv := by
  cases hmanager : s.manager with
  | select =>
      have hfree := hinv.unlocked (by rw [hmanager]; rfl)
      cases hrecv : s.readCh.recv with
      | value msg chan =>
          simp only [State.managerStep, hmanager, hrecv,
            Option.some.injEq] at hnext
          subst hnext
          have hkept := (Chan.recv_eq_value_iff.mp hrecv).2
          obtain ⟨hpc, hdone⟩ := managerNext_running msg
          have hmoved := hinv.moveManager (managerNext msg) s.mu
            (by simp [hmanager]) hpc (by rw [hmanager, hdone]; rfl)
            (fun h => h) (by simp [hfree])
          exact { hmoved with
            readClosed := hkept.trans hinv.readClosed }
      | closed =>
          simp only [State.managerStep, hmanager, hrecv,
            Option.some.injEq] at hnext
          subst hnext
          exact hinv.moveManager _ _ (by simp [hmanager]) (by simp)
            (by rw [hmanager]; rfl) (fun h => h) (by simp [hfree])
      | block => simp [State.managerStep, hmanager, hrecv] at hnext
  | registerProxy =>
      simp only [State.managerStep, hmanager, Option.ite_none_left_eq_some,
        Option.some.injEq] at hnext
      obtain ⟨_, rfl⟩ := hnext
      cases close with
      | returned | panicked =>
          exact hinv.moveManager _ _ (by simp [hmanager]) (by simp)
            (by rw [hmanager]; rfl) (fun h => h) (by simp [CloseSite.keepsLock])
  | closeProxy =>
      simp only [State.managerStep, hmanager, Option.ite_none_left_eq_some,
        Option.some.injEq] at hnext
      obtain ⟨_, rfl⟩ := hnext
      exact hinv.moveManager _ _ (by simp [hmanager]) (by simp)
        (by rw [hmanager]; rfl) (fun h => h) (by simp)
  | closing =>
      simp only [State.managerStep, hmanager, Option.some.injEq] at hnext
      subst hnext
      cases close with
      | returned =>
          exact hinv.moveManager _ _ (by simp [hmanager]) (by simp)
            (by rw [hmanager]; rfl) (fun h => h) (by simp [CloseSite.keepsLock])
      | panicked =>
          exact hinv.moveManager _ _ (by simp [hmanager]) (by simp)
            (by rw [hmanager]; rfl) (fun h => h)
            (by simp [ManagerPc.returned])
  | respond msg goOn =>
      have hfree := hinv.unlocked (by rw [hmanager]; rfl)
      cases hsend : s.sendCh.send msg with
      | done chan =>
          simp only [State.managerStep, hmanager, hsend,
            Option.some.injEq] at hnext
          subst hnext
          obtain ⟨hopen, _, hkept⟩ := Chan.send_eq_done_iff.mp hsend
          have hmoved := hinv.moveManager
            (if goOn then .select else .leaving) s.mu (by simp [hmanager])
            (by cases goOn <;> simp) (by rw [hmanager]; cases goOn <;> rfl)
            (fun h => h) (by simp [hfree])
          exact { hmoved with
            sendClosed := by rw [← hinv.sendClosed, hopen, hkept] }
      | block => simp [State.managerStep, hmanager, hsend] at hnext
      | panic =>
          simp only [State.managerStep, hmanager, hsend,
            Option.some.injEq] at hnext
          subst hnext
          exact hinv.moveManager _ _ (by simp [hmanager]) (by simp)
            (by rw [hmanager]; rfl) (fun h => h) (by simp [hfree])
  | leaving =>
      simp only [State.managerStep, hmanager, Option.some.injEq] at hnext
      subst hnext
      exact { hinv with
        managerStarted := by simpa [hmanager] using hinv.managerStarted
        managerLatch := rfl
        sendOrder := fun _ => rfl
        locked := fun _ => Or.inr rfl }
  | starting =>
      simp only [State.managerStep, hmanager, Option.some.injEq] at hnext
      subst hnext
      exact hinv.moveManager _ _ (by simp [hmanager]) (by simp)
        (by rw [hmanager]; rfl) (fun _ => rfl) (by simp [ManagerPc.returned])
  | notStarted | exited => simp [State.managerStep, hmanager] at hnext

/-- The stoper goes on to a place where it is not yet done. -/
theorem Inv.moveStoper {s : State cfg} (hinv : s.Inv) (pc : StoperPc)
    (connFailed : Bool) (readCh : Chan ClientMessage 10)
    (sendCh : Chan ServerMsg 10) (pool : Pool cfg.workConnCap) {mu : Bool}
    (hbefore : s.stoper ≠ .notStarted ∧ s.stoper ≠ .exited)
    (hafter : pc ≠ .notStarted ∧ pc ≠ .panicked ∧ pc ≠ .exited)
    (hread : readCh.closed = pc.closedRead)
    (hsend : sendCh.closed = pc.closedSend)
    (hwork : pool.workConnCh.closed = pc.closedWork)
    (hreader : pc.pastReader = true → s.readerDone = true)
    (hmanager : pc.pastManager = true → s.managerDone = true)
    (hwriter : pc.pastWriter = true → s.writerDone = true)
    (hlocked : mu = true →
      s.manager = .closing ∨ s.manager.returned = true) :
    { s with
      stoper := pc, mu := mu, connFailed := connFailed, readCh := readCh,
      sendCh := sendCh, pool := pool }.Inv :=
  { hinv with
    started := by simpa [hafter, hbefore] using hinv.started
    managerStarted := by simpa [hafter, hbefore] using hinv.managerStarted
    readerStarted := by simpa [hafter, hbefore] using hinv.readerStarted
    stoperSafe := hafter.2.1
    readClosed := hread
    sendClosed := hsend
    workClosed := hwork
    readOrder := hreader
    sendOrder := hmanager
    workOrder := hwriter
    finished := by simpa [hafter, hbefore] using hinv.finished
    locked := hlocked }

/-- A manager that has set its latch has returned. -/
theorem Inv.manager_returned {s : State cfg} (hinv : s.Inv)
    (hdone : s.managerDone = true) : s.manager.returned = true := by
  rw [hinv.managerLatch] at hdone
  cases hmanager : s.manager <;>
    simp [hmanager, ManagerPc.done, ManagerPc.returned] at hdone ⊢

theorem Inv.stoperStep {s s' : State cfg} (hinv : s.Inv)
    {close : CloseResult} (hnext : s.stoperStep close = some s') : s'.Inv := by
  have hread := hinv.readClosed
  have hsend := hinv.sendClosed
  have hwork := hinv.workClosed
  have hreader := hinv.readOrder
  have hmanager := hinv.sendOrder
  have hwriter := hinv.workOrder
  cases hstoper : s.stoper with
  | notStarted | exited | aborted | panicked =>
      simp [State.stoperStep, hstoper] at hnext
  | waitStart =>
      simp only [State.stoperStep, hstoper, Option.ite_none_right_eq_some,
        Option.some.injEq] at hnext
      obtain ⟨_, rfl⟩ := hnext
      rw [hstoper] at hread hsend hwork hreader hmanager hwriter
      exact hinv.moveStoper _ _ _ _ _ (by simp [hstoper]) (by simp) hread
        hsend hwork hreader hmanager hwriter hinv.locked
  | closeConn =>
      simp only [State.stoperStep, hstoper, Option.some.injEq] at hnext
      subst hnext
      rw [hstoper] at hread hsend hwork hreader hmanager hwriter
      exact hinv.moveStoper _ _ _ _ _ (by simp [hstoper]) (by simp) hread
        hsend hwork hreader hmanager hwriter hinv.locked
  | waitReader =>
      simp only [State.stoperStep, hstoper, Option.ite_none_right_eq_some,
        Option.some.injEq] at hnext
      obtain ⟨hdone, rfl⟩ := hnext
      rw [hstoper] at hread hsend hwork hmanager hwriter
      exact hinv.moveStoper _ _ _ _ _ (by simp [hstoper]) (by simp) hread
        hsend hwork (fun _ => hdone) hmanager hwriter hinv.locked
  | closeRead =>
      rw [hstoper] at hread hsend hwork hreader hmanager hwriter
      obtain ⟨chan, hclose, _, hclosed⟩ := Chan.exists_close_done hread
      simp only [State.stoperStep, hstoper, hclose, Option.some.injEq] at hnext
      subst hnext
      exact hinv.moveStoper _ _ _ _ _ (by simp [hstoper]) (by simp)
        hclosed hsend hwork hreader hmanager hwriter hinv.locked
  | waitManager =>
      simp only [State.stoperStep, hstoper, Option.ite_none_right_eq_some,
        Option.some.injEq] at hnext
      obtain ⟨hdone, rfl⟩ := hnext
      rw [hstoper] at hread hsend hwork hreader hwriter
      exact hinv.moveStoper _ _ _ _ _ (by simp [hstoper]) (by simp) hread
        hsend hwork hreader (fun _ => hdone) hwriter hinv.locked
  | closeSend =>
      rw [hstoper] at hread hsend hwork hreader hmanager hwriter
      obtain ⟨chan, hclose, _, hclosed⟩ := Chan.exists_close_done hsend
      simp only [State.stoperStep, hstoper, hclose, Option.some.injEq] at hnext
      subst hnext
      exact hinv.moveStoper _ _ _ _ _ (by simp [hstoper]) (by simp) hread
        hclosed hwork hreader hmanager hwriter hinv.locked
  | waitWriter =>
      simp only [State.stoperStep, hstoper, Option.ite_none_right_eq_some,
        Option.some.injEq] at hnext
      obtain ⟨hdone, rfl⟩ := hnext
      rw [hstoper] at hread hsend hwork hreader hmanager
      exact hinv.moveStoper _ _ _ _ _ (by simp [hstoper]) (by simp) hread
        hsend hwork hreader hmanager (fun _ => hdone) hinv.locked
  | lock =>
      simp only [State.stoperStep, hstoper, Option.ite_none_left_eq_some,
        Option.some.injEq] at hnext
      obtain ⟨_, rfl⟩ := hnext
      rw [hstoper] at hread hsend hwork hreader hmanager hwriter
      exact hinv.moveStoper _ _ _ _ _ (by simp [hstoper]) (by simp) hread
        hsend hwork hreader hmanager hwriter
        (fun _ => Or.inr (hinv.manager_returned (hmanager rfl)))
  | closeWork =>
      rw [hstoper] at hread hsend hwork hreader hmanager hwriter
      obtain ⟨chan, hclose, _, hclosed⟩ := Chan.exists_close_done hwork
      simp only [State.stoperStep, hstoper, hclose, Option.some.injEq] at hnext
      subst hnext
      exact hinv.moveStoper _ _ _ _ _ (by simp [hstoper]) (by simp) hread
        hsend hclosed hreader hmanager hwriter hinv.locked
  | drain =>
      rw [hstoper] at hread hsend hwork hreader hmanager hwriter
      cases hrecv : s.pool.workConnCh.recv with
      | value conn chan =>
          simp only [State.stoperStep, hstoper, hrecv,
            Option.some.injEq] at hnext
          subst hnext
          have hkept := (Chan.recv_eq_value_iff.mp hrecv).2
          exact hinv.moveStoper _ _ _ _ _ (by simp [hstoper]) (by simp) hread
            hsend (hkept.trans hwork) hreader hmanager hwriter hinv.locked
      | closed =>
          simp only [State.stoperStep, hstoper, hrecv,
            Option.some.injEq] at hnext
          subst hnext
          exact hinv.moveStoper _ _ _ _ _ (by simp [hstoper]) (by simp) hread
            hsend hwork hreader hmanager hwriter hinv.locked
      | block => simp [State.stoperStep, hstoper, hrecv] at hnext
  | closeProxies =>
      rw [hstoper] at hread hsend hwork hreader hmanager hwriter
      cases close with
      | returned =>
          simp only [State.stoperStep, hstoper, if_true,
            Option.some.injEq] at hnext
          subst hnext
          exact { hinv with
            started := by simpa [hstoper] using hinv.started
            managerStarted := by simpa [hstoper] using hinv.managerStarted
            readerStarted := by simpa [hstoper] using hinv.readerStarted
            stoperSafe := by simp
            readClosed := hread
            sendClosed := hsend
            workClosed := hwork
            readOrder := hreader
            sendOrder := hmanager
            workOrder := hwriter
            finished := by simp
            locked := by simp [CloseSite.keepsLock] }
      | panicked =>
          simp only [State.stoperStep, hstoper, reduceCtorEq, if_false,
            Option.some.injEq] at hnext
          subst hnext
          exact hinv.moveStoper _ _ _ _ _ (by simp [hstoper]) (by simp) hread
            hsend hwork hreader hmanager hwriter (by simp [CloseSite.keepsLock])

/-- The calls use the channels without closing them. -/
theorem Inv.setPool {s : State cfg} (hinv : s.Inv) {sendCh : Chan ServerMsg 10}
    {pool : Pool cfg.workConnCap} (hsend : sendCh.closed = s.sendCh.closed)
    (hwork : pool.workConnCh.closed = s.pool.workConnCh.closed) :
    { s with sendCh := sendCh, pool := pool }.Inv :=
  { hinv with
    sendClosed := hsend.trans hinv.sendClosed
    workClosed := hwork.trans hinv.workClosed }

theorem Inv.getStep {s s' : State cfg} (hinv : s.Inv) {j : Nat}
    (hnext : s.getStep j = some s') : s'.Inv := by
  cases hcaller : s.pool.callers j with
  | select | wait =>
      simp only [State.getStep, hcaller, Option.map_eq_some_iff] at hnext
      obtain ⟨pool, htake, rfl⟩ := hnext
      exact hinv.setPool rfl (Pool.take_closed htake)
  | request | refill conn =>
      cases hsend : s.sendCh.send .reqWorkConn with
      | done chan =>
          simp only [State.getStep, hcaller, hsend,
            Option.some.injEq] at hnext
          subst hnext
          obtain ⟨hopen, _, hkept⟩ := Chan.send_eq_done_iff.mp hsend
          exact hinv.setPool (hkept.trans hopen.symm) rfl
      | block => simp [State.getStep, hcaller, hsend] at hnext
      | panic =>
          simp only [State.getStep, hcaller, hsend,
            Option.some.injEq] at hnext
          subst hnext
          exact hinv.setPool rfl rfl
  | idle | returned conn | failed =>
      simp [State.getStep, hcaller] at hnext

/-- Every step keeps the invariant. -/
theorem Inv.step {s s' : State cfg} {action : Action} (hinv : s.Inv)
    (hstep : Server.step s action = some s') : s'.Inv := by
  cases action with
  | start => exact hinv.startStep hstep
  | writer ok => exact hinv.writerStep hstep
  | reader input => exact hinv.readerStep hstep
  | manager close => exact hinv.managerStep hstep
  | stoper close => exact hinv.stoperStep hstep
  | get j => exact hinv.getStep hstep
  | heartbeat =>
      simp only [Server.step, Option.ite_none_right_eq_some,
        Option.some.injEq] at hstep
      obtain ⟨⟨_, hmanager⟩, rfl⟩ := hstep
      have hfree := hinv.unlocked (by rw [hmanager]; rfl)
      exact hinv.moveManager _ _ (by simp [hmanager]) (by simp)
        (by rw [hmanager]; rfl) (fun h => h) (by simp [hfree])
  | replaced =>
      simp only [Server.step, Option.some.injEq] at hstep
      subst hstep
      exact { hinv with readerStop := fun _ => rfl }
  | connFail =>
      simp only [Server.step, Option.some.injEq] at hstep
      subst hstep
      exact { hinv with }
  | call j | timeout j | arrive k | verify k ok | handle k =>
      simp only [Server.step, Option.ite_none_right_eq_some,
        Option.some.injEq] at hstep
      obtain ⟨_, rfl⟩ := hstep
      exact hinv.setPool rfl rfl
  | register k =>
      simp only [Server.step, Option.ite_none_right_eq_some,
        Option.some.injEq] at hstep
      obtain ⟨_, rfl⟩ := hstep
      exact hinv.setPool rfl (Pool.register_closed _ k)
  | handoff k j =>
      simp only [Server.step, Option.ite_none_right_eq_some,
        Option.some.injEq] at hstep
      obtain ⟨_, rfl⟩ := hstep
      exact hinv.setPool rfl rfl

end State

theorem inv_of_reaches {word : List Action} {s : State cfg}
    (hreach : (system cfg).Reaches word s) : s.Inv := by
  refine System.Reaches.invariant State.inv_init ?_ hreach
  intro state action next hinv hstep
  exact State.Inv.step hinv hstep

end Frp.Server
