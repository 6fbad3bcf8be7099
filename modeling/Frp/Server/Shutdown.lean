/-
Shutdown of a Control.  The stoper waits for the reader, the manager and the
writer in this order, each of which may be waiting for room in a channel whose
only receiver has gone, and then for the mutex, which a `Close` that panics may
have left locked.
-/
import Frp.Server.ControlInv

namespace Frp.Server

open Transition GoChan

variable {cfg : Config}

namespace State

/-- One of the five goroutines can take a step by itself: no heartbeat has to
expire and nobody else has to act. -/
def Progresses (s : State cfg) : Prop :=
  ∃ action s', step s action = some s' ∧
    (action = .start ∨ (∃ ok, action = .writer ok) ∨
      (∃ input, action = .reader input) ∨ (∃ close, action = .manager close) ∨
      ∃ close, action = .stoper close)

/-- Start or the manager waits for room in `sendCh` without a writer. -/
def SendWedged (s : State cfg) : Prop :=
  s.writer = .exited ∧ s.sendCh.full ∧
    ((∃ left, s.start = .pooling (left + 1)) ∨
      ∃ msg goOn, s.manager = .respond msg goOn)

/-- The reader waits for room in `readCh` without a manager. -/
def ReadWedged (s : State cfg) : Prop :=
  s.manager = .exited ∧ s.readCh.full ∧ ∃ msg, s.reader = .push msg

/-- A `Close` has panicked: in the range of the stoper, or in `CloseProxy`, which
has left the mutex locked before the stoper could have it. -/
def CloseWedged (s : State cfg) : Prop :=
  s.stoper = .aborted ∨
    (s.mu = true ∧ s.manager.returned = true ∧ s.stoper.pastLock = false)

/-- Something holds the shutdown up for good. -/
def Wedged (s : State cfg) : Prop :=
  s.SendWedged ∨ s.ReadWedged ∨ s.CloseWedged

theorem progresses_start {s s' : State cfg} (hnext : s.startStep = some s') :
    s.Progresses :=
  ⟨.start, s', hnext, Or.inl rfl⟩

theorem progresses_writer {s s' : State cfg} (ok : Bool)
    (hnext : s.writerStep ok = some s') : s.Progresses :=
  ⟨.writer ok, s', hnext, Or.inr (Or.inl ⟨ok, rfl⟩)⟩

theorem progresses_reader {s s' : State cfg} (input : ReadResult)
    (hnext : s.readerStep input = some s') : s.Progresses :=
  ⟨.reader input, s', hnext, Or.inr (Or.inr (Or.inl ⟨input, rfl⟩))⟩

theorem progresses_manager {s s' : State cfg}
    (hnext : s.managerStep .returned = some s') : s.Progresses :=
  ⟨.manager .returned, s', hnext, Or.inr (Or.inr (Or.inr (Or.inl ⟨_, rfl⟩)))⟩

theorem progresses_stoper {s s' : State cfg}
    (hnext : s.stoperStep .returned = some s') : s.Progresses :=
  ⟨.stoper .returned, s', hnext, Or.inr (Or.inr (Or.inr (Or.inr ⟨_, rfl⟩)))⟩

/-- A running writer waits only on an empty open channel. -/
theorem progresses_of_writer {s : State cfg} (hstarted : s.writer ≠ .notStarted)
    (hrunning : s.writer ≠ .exited)
    (hwork : s.sendCh.buf ≠ [] ∨ s.sendCh.closed = true) : s.Progresses := by
  cases hwriter : s.writer with
  | notStarted => exact absurd hwriter hstarted
  | exited => exact absurd hwriter hrunning
  | newWriter =>
      apply progresses_writer true
      simp only [State.writerStep, hwriter, if_true]
      rfl
  | recv =>
      cases hrecv : s.sendCh.recv with
      | value msg chan =>
          apply progresses_writer true
          simp only [State.writerStep, hwriter, hrecv]
          rfl
      | closed =>
          apply progresses_writer true
          simp only [State.writerStep, hwriter, hrecv]
          rfl
      | block =>
          obtain ⟨hempty, hopen⟩ := Chan.recv_eq_block_iff.mp hrecv
          simp [hempty, hopen] at hwork
  | write msg | leaving | starting =>
      apply progresses_writer false
      simp only [State.writerStep, hwriter]
      rfl

/-- A goroutine that waits for room in `sendCh` waits for a writer that can go
on. -/
theorem progresses_of_full {s : State cfg} (hstarted : s.writer ≠ .notStarted)
    (hrunning : s.writer ≠ .exited) (hfull : s.sendCh.full) : s.Progresses :=
  progresses_of_writer hstarted hrunning
    (Or.inl (Chan.full_ne_nil (by decide) hfull))

/-- A running manager with a message or a closed channel to read from. -/
theorem Inv.progresses_of_manager {s : State cfg} (hinv : s.Inv)
    (hsend : ¬ s.SendWedged)
    (hwriter : s.writer ≠ .notStarted) (hstarted : s.manager ≠ .notStarted)
    (hrunning : s.manager ≠ .exited)
    (hwork : s.readCh.buf ≠ [] ∨ s.readCh.closed = true) : s.Progresses := by
  cases hmanager : s.manager with
  | notStarted => exact absurd hmanager hstarted
  | exited => exact absurd hmanager hrunning
  | select =>
      cases hrecv : s.readCh.recv with
      | value msg chan =>
          apply progresses_manager
          simp only [State.managerStep, hmanager, hrecv]
          rfl
      | closed =>
          apply progresses_manager
          simp only [State.managerStep, hmanager, hrecv]
          rfl
      | block =>
          obtain ⟨hempty, hopen⟩ := Chan.recv_eq_block_iff.mp hrecv
          simp [hempty, hopen] at hwork
  | registerProxy | closeProxy =>
      have hfree := hinv.unlocked (by rw [hmanager]; rfl)
      apply progresses_manager
      simp only [State.managerStep, hmanager, hfree, Bool.false_eq_true,
        if_false]
      rfl
  | closing =>
      apply progresses_manager
      simp only [State.managerStep, hmanager]
      rfl
  | respond msg goOn =>
      cases hsent : s.sendCh.send msg with
      | done chan =>
          apply progresses_manager
          simp only [State.managerStep, hmanager, hsent]
          rfl
      | panic =>
          apply progresses_manager
          simp only [State.managerStep, hmanager, hsent]
          rfl
      | block =>
          have hfull := (Chan.send_eq_block_iff.mp hsent).2
          apply progresses_of_full hwriter ?_ hfull
          intro hexited
          exact hsend ⟨hexited, hfull, Or.inr ⟨msg, goOn, hmanager⟩⟩
  | leaving | starting =>
      apply progresses_manager
      simp only [State.managerStep, hmanager]
      rfl

/-- A running reader, whose reads all fail. -/
theorem Inv.progresses_of_reader {s : State cfg} (hinv : s.Inv)
    (hfailed : s.connFailed = true) (hsend : ¬ s.SendWedged)
    (hread : ¬ s.ReadWedged) (hwriter : s.writer ≠ .notStarted)
    (hmanager : s.manager ≠ .notStarted) (hstarted : s.reader ≠ .notStarted)
    (hrunning : s.reader ≠ .exited) : s.Progresses := by
  cases hreader : s.reader with
  | notStarted => exact absurd hreader hstarted
  | exited => exact absurd hreader hrunning
  | read =>
      apply progresses_reader .error
      simp only [State.readerStep, hreader, hfailed, if_true]
      rfl
  | push msg =>
      cases hsent : s.readCh.send msg with
      | done chan =>
          apply progresses_reader .error
          simp only [State.readerStep, hreader, hsent]
          rfl
      | panic =>
          apply progresses_reader .error
          simp only [State.readerStep, hreader, hsent]
          rfl
      | block =>
          have hfull := (Chan.send_eq_block_iff.mp hsent).2
          apply hinv.progresses_of_manager hsend hwriter hmanager
          · intro hexited
            exact hread ⟨hexited, hfull, msg, hreader⟩
          · exact Or.inl (Chan.full_ne_nil (by decide) hfull)
  | leaving | starting =>
      apply progresses_reader .error
      simp only [State.readerStep, hreader]
      rfl

/-- Start can go on as long as somebody empties `sendCh`. -/
theorem Inv.progresses_of_start {s : State cfg} (hinv : s.Inv)
    (hsend : ¬ s.SendWedged) (hstart : s.start ≠ .started) : s.Progresses := by
  cases hpc : s.start with
  | started => exact absurd hpc hstart
  | panicked => exact absurd hpc hinv.startSafe
  | login =>
      apply progresses_start
      simp only [State.startStep, hpc]
      rfl
  | pooling left =>
      cases left with
      | zero =>
          apply progresses_start
          simp only [State.startStep, hpc]
          rfl
      | succ left =>
          cases hsent : s.sendCh.send .reqWorkConn with
          | done chan =>
              apply progresses_start
              simp only [State.startStep, hpc, hsent]
              rfl
          | panic =>
              apply progresses_start
              simp only [State.startStep, hpc, hsent]
              rfl
          | block =>
              have hfull := (Chan.send_eq_block_iff.mp hsent).2
              have hwriter : s.writer ≠ .notStarted := by
                intro hnone
                have hlogin := hinv.writerStarted.mpr hnone
                rw [hpc] at hlogin
                cases hlogin
              apply progresses_of_full hwriter ?_ hfull
              intro hexited
              exact hsend ⟨hexited, hfull, Or.inl ⟨left, hpc⟩⟩

/-- The stoper, once the reader is through, goes on where it does not wait for the
manager or the writer. -/
theorem Inv.progresses_of_stoper {s : State cfg} (hinv : s.Inv)
    (hclose : ¬ s.CloseWedged) (hstart : s.start = .started)
    (hreader : s.reader = .exited) (hdone : s.allDone = false)
    (hmanager : s.stoper ≠ .waitManager) (hwriter : s.stoper ≠ .waitWriter) :
    s.Progresses := by
  have hreaderDone : s.readerDone = true := by
    rw [hinv.readerLatch, hreader]
    rfl
  have hread := hinv.readClosed
  have hsent := hinv.sendClosed
  have hwork := hinv.workClosed
  cases hstoper : s.stoper with
  | notStarted => exact absurd hstoper (hinv.started.mp hstart)
  | waitManager => exact absurd hstoper hmanager
  | waitWriter => exact absurd hstoper hwriter
  | panicked => exact absurd hstoper hinv.stoperSafe
  | aborted => exact absurd (Or.inl hstoper) hclose
  | exited =>
      rw [hinv.finished.mpr hstoper] at hdone
      cases hdone
  | waitStart =>
      apply progresses_stoper
      simp only [State.stoperStep, hstoper, hinv.readerStop hreader, if_true]
      rfl
  | waitReader =>
      apply progresses_stoper
      simp only [State.stoperStep, hstoper, hreaderDone, if_true]
      rfl
  | closeConn | closeProxies =>
      apply progresses_stoper
      simp only [State.stoperStep, hstoper]
      rfl
  | closeRead =>
      rw [hstoper] at hread
      obtain ⟨chan, hdone, _⟩ := Chan.exists_close_done hread
      apply progresses_stoper
      simp only [State.stoperStep, hstoper, hdone]
      rfl
  | closeSend =>
      rw [hstoper] at hsent
      obtain ⟨chan, hdone, _⟩ := Chan.exists_close_done hsent
      apply progresses_stoper
      simp only [State.stoperStep, hstoper, hdone]
      rfl
  | closeWork =>
      rw [hstoper] at hwork
      obtain ⟨chan, hdone, _⟩ := Chan.exists_close_done hwork
      apply progresses_stoper
      simp only [State.stoperStep, hstoper, hdone]
      rfl
  | lock =>
      have hlatch := hinv.sendOrder (by rw [hstoper]; rfl)
      have hfree : s.mu = false := by
        by_contra hlocked
        exact hclose (Or.inr ⟨by simpa using hlocked,
          hinv.manager_returned hlatch, by rw [hstoper]; rfl⟩)
      apply progresses_stoper
      simp only [State.stoperStep, hstoper, hfree, Bool.false_eq_true,
        if_false]
      rfl
  | drain =>
      rw [hstoper] at hwork
      cases hrecv : s.pool.workConnCh.recv with
      | value conn chan =>
          apply progresses_stoper
          simp only [State.stoperStep, hstoper, hrecv]
          rfl
      | closed =>
          apply progresses_stoper
          simp only [State.stoperStep, hstoper, hrecv]
          rfl
      | block =>
          have hopen := (Chan.recv_eq_block_iff.mp hrecv).2
          rw [hwork] at hopen
          cases hopen

/-- Where the stoper waits for the manager or the writer, their channel is
closed. -/
theorem Inv.progresses_of_wait {s : State cfg} (hinv : s.Inv)
    (hsend : ¬ s.SendWedged) (hstart : s.start = .started)
    (hwait : s.stoper = .waitManager ∨ s.stoper = .waitWriter) :
    s.Progresses := by
  have hrunning := hinv.started.mp hstart
  have hwriter : s.writer ≠ .notStarted := by
    intro hnone
    have hlogin := hinv.writerStarted.mpr hnone
    rw [hstart] at hlogin
    cases hlogin
  rcases hwait with hstoper | hstoper
  · have hclosed : s.readCh.closed = true := by
      rw [hinv.readClosed, hstoper]
      rfl
    by_cases hlatch : s.managerDone = true
    · apply progresses_stoper
      simp only [State.stoperStep, hstoper, hlatch, if_true]
      rfl
    · apply hinv.progresses_of_manager hsend hwriter
        (fun hnone => hrunning (hinv.managerStarted.mp hnone)) ?_
        (Or.inr hclosed)
      intro hexited
      rw [hinv.managerLatch, hexited] at hlatch
      exact hlatch rfl
  · have hclosed : s.sendCh.closed = true := by
      rw [hinv.sendClosed, hstoper]
      rfl
    by_cases hlatch : s.writerDone = true
    · apply progresses_stoper
      simp only [State.stoperStep, hstoper, hlatch, if_true]
      rfl
    · apply progresses_of_writer hwriter ?_ (Or.inr hclosed)
      intro hexited
      rw [hinv.writerLatch, hexited] at hlatch
      exact hlatch rfl

theorem Inv.progresses {s : State cfg} (hinv : s.Inv)
    (hfailed : s.connFailed = true) (hdone : s.allDone = false)
    (hsend : ¬ s.SendWedged) (hread : ¬ s.ReadWedged)
    (hclose : ¬ s.CloseWedged) : s.Progresses := by
  by_cases hstart : s.start = .started
  · by_cases hreader : s.reader = .exited
    · by_cases hwait : s.stoper = .waitManager ∨ s.stoper = .waitWriter
      · exact hinv.progresses_of_wait hsend hstart hwait
      · obtain ⟨hmanager, hwriter⟩ := not_or.mp hwait
        exact hinv.progresses_of_stoper hclose hstart hreader hdone hmanager
          hwriter
    · have hrunning := hinv.started.mp hstart
      apply hinv.progresses_of_reader hfailed hsend hread
      · intro hnone
        have hlogin := hinv.writerStarted.mpr hnone
        rw [hstart] at hlogin
        cases hlogin
      · intro hnone
        exact hrunning (hinv.managerStarted.mp hnone)
      · intro hnone
        exact hrunning (hinv.readerStarted.mp hnone)
      · exact hreader
  · exact hinv.progresses_of_start hsend hstart

theorem stoperStep_frame {s s' : State cfg} {close : CloseResult}
    (hnext : s.stoperStep close = some s') :
    s'.start = s.start ∧ s'.writer = s.writer ∧ s'.manager = s.manager ∧
      s'.reader = s.reader ∧ s'.sendCh.buf = s.sendCh.buf ∧
      s'.readCh.buf = s.readCh.buf := by
  have hsend : ∀ chan, s.sendCh.close = .done chan →
      chan.buf = s.sendCh.buf :=
    fun chan hclose => (Chan.close_eq_done_iff.mp hclose).2.1
  have hread : ∀ chan, s.readCh.close = .done chan →
      chan.buf = s.readCh.buf :=
    fun chan hclose => (Chan.close_eq_done_iff.mp hclose).2.1
  unfold State.stoperStep at hnext
  split at hnext
  all_goals try split at hnext
  all_goals cases hnext
  all_goals simp_all

theorem getStep_full {s s' : State cfg} {j : Nat}
    (hnext : s.getStep j = some s') (hfull : s.sendCh.full) :
    s'.sendCh = s.sendCh := by
  unfold State.getStep at hnext
  split at hnext
  all_goals try split at hnext
  all_goals simp only [Option.map_eq_some_iff, Option.some.injEq,
    reduceCtorEq] at hnext
  all_goals first
    | subst hnext
      first
        | rfl
        | exact absurd hfull (Chan.not_full_of_send ‹_›)
    | obtain ⟨_, _, rfl⟩ := hnext
      rfl

theorem SendWedged.frame {s s' : State cfg} (hwedged : s.SendWedged)
    (hstart : s'.start = s.start) (hwriter : s'.writer = s.writer)
    (hmanager : s'.manager = s.manager) (hbuf : s'.sendCh.buf = s.sendCh.buf) :
    s'.SendWedged := by
  obtain ⟨hexited, hfull, hwaits⟩ := hwedged
  refine ⟨hwriter.trans hexited, ?_, ?_⟩
  · rw [Chan.full, hbuf]
    exact hfull
  · rw [hstart, hmanager]
    exact hwaits

theorem ReadWedged.frame {s s' : State cfg} (hwedged : s.ReadWedged)
    (hmanager : s'.manager = s.manager) (hreader : s'.reader = s.reader)
    (hbuf : s'.readCh.buf = s.readCh.buf) : s'.ReadWedged := by
  obtain ⟨hexited, hfull, hwaits⟩ := hwedged
  refine ⟨hmanager.trans hexited, ?_, ?_⟩
  · rw [Chan.full, hbuf]
    exact hfull
  · rw [hreader]
    exact hwaits

/-- The manager runs only after Start is through. -/
theorem Inv.started_of_manager {s : State cfg} (hinv : s.Inv)
    (hmanager : s.manager ≠ .notStarted) : s.start = .started := by
  apply hinv.started.mpr
  intro hnone
  exact hmanager (hinv.managerStarted.mpr hnone)

/-- The stoper closes `sendCh` after the manager is done. -/
theorem Inv.sendOpen_of_manager {s : State cfg} (hinv : s.Inv)
    (hrunning : s.manager.done = false) : s.sendCh.closed = false := by
  rw [hinv.sendClosed]
  by_contra hclosed
  have hpast : s.stoper.pastManager = true := by
    cases hstoper : s.stoper <;>
      simp_all [StoperPc.closedSend, StoperPc.pastManager]
  have hdone := hinv.sendOrder hpast
  rw [hinv.managerLatch, hrunning] at hdone
  cases hdone

/-- The stoper closes `readCh` after the reader is done. -/
theorem Inv.readOpen_of_reader {s : State cfg} (hinv : s.Inv)
    (hrunning : s.reader.done = false) : s.readCh.closed = false := by
  rw [hinv.readClosed]
  by_contra hclosed
  have hpast : s.stoper.pastReader = true := by
    cases hstoper : s.stoper <;>
      simp_all [StoperPc.closedRead, StoperPc.pastReader]
  have hdone := hinv.readOrder hpast
  rw [hinv.readerLatch, hrunning] at hdone
  cases hdone

theorem SendWedged.open {s : State cfg} (hinv : s.Inv)
    (hwedged : s.SendWedged) : s.sendCh.closed = false := by
  obtain ⟨_, _, ⟨left, hstart⟩ | ⟨msg, goOn, hmanager⟩⟩ := hwedged
  · exact hinv.sendOpen (by simp [hstart])
  · exact hinv.sendOpen_of_manager (by rw [hmanager]; rfl)

/-- Nothing makes room in `sendCh` again. -/
theorem SendWedged.step {s s' : State cfg} {action : Action} (hinv : s.Inv)
    (hwedged : s.SendWedged) (hstep : Server.step s action = some s') :
    s'.SendWedged := by
  have hopen := hwedged.open hinv
  have hblocked : ∀ msg, s.sendCh.send msg = .block := by
    intro msg
    exact Chan.send_eq_block_iff.mpr ⟨hopen, hwedged.2.1⟩
  have hmanager : s.manager = .notStarted ∨
      ∃ msg goOn, s.manager = .respond msg goOn := by
    rcases hwedged.2.2 with ⟨left, hstart⟩ | hresponds
    · left
      by_contra hrunning
      have hstarted := hinv.started_of_manager hrunning
      rw [hstart] at hstarted
      cases hstarted
    · exact Or.inr hresponds
  cases action with
  | start =>
      rcases hwedged.2.2 with ⟨left, hstart⟩ | ⟨msg, goOn, hresponds⟩
      · simp [Server.step, State.startStep, hstart, hblocked] at hstep
      · have hstart := hinv.started_of_manager (by simp [hresponds])
        simp [Server.step, State.startStep, hstart] at hstep
  | writer ok =>
      simp [Server.step, State.writerStep, hwedged.1] at hstep
  | manager close =>
      rcases hmanager with hnone | ⟨msg, goOn, hresponds⟩
      · simp [Server.step, State.managerStep, hnone] at hstep
      · simp [Server.step, State.managerStep, hresponds, hblocked] at hstep
  | heartbeat =>
      rcases hmanager with hnone | ⟨msg, goOn, hresponds⟩
      · simp [Server.step, hnone] at hstep
      · simp [Server.step, hresponds] at hstep
  | reader input =>
      rw [readerStep_frame hstep]
      exact hwedged
  | stoper close =>
      obtain ⟨hstart, hwriter, hsame, _, hbuf, _⟩ := stoperStep_frame hstep
      exact hwedged.frame hstart hwriter hsame hbuf
  | get j =>
      rw [getStep_frame hstep, getStep_full hstep hwedged.2.1]
      exact hwedged
  | replaced | connFail =>
      simp only [Server.step, Option.some.injEq] at hstep
      subst hstep
      exact hwedged
  | call j | timeout j | arrive k | verify k ok | register k | handoff k j
  | handle k =>
      simp only [Server.step, Option.ite_none_right_eq_some,
        Option.some.injEq] at hstep
      obtain ⟨_, rfl⟩ := hstep
      exact hwedged

/-- Nothing makes room in `readCh` again. -/
theorem ReadWedged.step {s s' : State cfg} {action : Action} (hinv : s.Inv)
    (hwedged : s.ReadWedged) (hstep : Server.step s action = some s') :
    s'.ReadWedged := by
  obtain ⟨msg, hreader⟩ := hwedged.2.2
  have hopen := hinv.readOpen_of_reader (by rw [hreader]; rfl)
  have hblocked : s.readCh.send msg = .block :=
    Chan.send_eq_block_iff.mpr ⟨hopen, hwedged.2.1⟩
  have hstart := hinv.started_of_manager (by simp [hwedged.1])
  cases action with
  | start => simp [Server.step, State.startStep, hstart] at hstep
  | reader input =>
      simp [Server.step, State.readerStep, hreader, hblocked] at hstep
  | manager close =>
      simp [Server.step, State.managerStep, hwedged.1] at hstep
  | heartbeat => simp [Server.step, hwedged.1] at hstep
  | writer ok =>
      rw [writerStep_frame hstep]
      exact hwedged
  | stoper close =>
      obtain ⟨_, _, hmanager, hsame, _, hbuf⟩ := stoperStep_frame hstep
      exact hwedged.frame hmanager hsame hbuf
  | get j =>
      rw [getStep_frame hstep]
      exact hwedged
  | replaced | connFail =>
      simp only [Server.step, Option.some.injEq] at hstep
      subst hstep
      exact hwedged
  | call j | timeout j | arrive k | verify k ok | register k | handoff k j
  | handle k =>
      simp only [Server.step, Option.ite_none_right_eq_some,
        Option.some.injEq] at hstep
      obtain ⟨_, rfl⟩ := hstep
      exact hwedged

/-- Only a manager on its way out goes on, and it leaves the mutex as it is. -/
theorem managerStep_returned {s s' : State cfg} {close : CloseResult}
    (hreturned : s.manager.returned = true)
    (hnext : s.managerStep close = some s') :
    s'.manager.returned = true ∧ s'.mu = s.mu := by
  cases hmanager : s.manager <;>
    simp [hmanager, ManagerPc.returned, State.managerStep] at hreturned hnext
  all_goals subst hnext
  all_goals simp [ManagerPc.returned]

/-- A stoper that has not had the mutex cannot get it while it is locked. -/
theorem stoperStep_locked {s s' : State cfg} {close : CloseResult}
    (hlocked : s.mu = true) (hbefore : s.stoper.pastLock = false)
    (hnext : s.stoperStep close = some s') :
    s'.mu = true ∧ s'.stoper.pastLock = false := by
  unfold State.stoperStep at hnext
  split at hnext
  all_goals try split at hnext
  all_goals cases hnext
  all_goals simp_all [StoperPc.pastLock]

/-- The mutex stays locked, and nobody takes up the work of the stoper. -/
theorem CloseWedged.step {s s' : State cfg} {action : Action} (hinv : s.Inv)
    (hwedged : s.CloseWedged) (hstep : Server.step s action = some s') :
    s'.CloseWedged := by
  have hkeep : s'.stoper = s.stoper → s'.mu = s.mu →
      s'.manager = s.manager → s'.CloseWedged := by
    intro hstoper hmu hmanager
    rw [CloseWedged, hstoper, hmu, hmanager]
    exact hwedged
  cases action with
  | start =>
      have hstarted : s.start = .started := by
        rcases hwedged with haborted | ⟨_, hreturned, _⟩
        · exact hinv.started.mpr (by simp [haborted])
        · apply hinv.started_of_manager
          intro hnone
          simp [hnone, ManagerPc.returned] at hreturned
      simp [Server.step, State.startStep, hstarted] at hstep
  | manager close =>
      have hframe := managerStep_frame hstep
      rcases hwedged with haborted | ⟨hlocked, hreturned, hbefore⟩
      · left
        rw [hframe]
        exact haborted
      · obtain ⟨hreturned', hmu⟩ := managerStep_returned hreturned hstep
        exact Or.inr ⟨hmu.trans hlocked, hreturned', by
          rw [hframe]
          exact hbefore⟩
  | heartbeat =>
      simp only [Server.step, Option.ite_none_right_eq_some,
        Option.some.injEq] at hstep
      obtain ⟨⟨_, hmanager⟩, rfl⟩ := hstep
      rcases hwedged with haborted | ⟨_, hreturned, _⟩
      · exact Or.inl haborted
      · simp [hmanager, ManagerPc.returned] at hreturned
  | stoper close =>
      rcases hwedged with haborted | ⟨hlocked, hreturned, hbefore⟩
      · simp [Server.step, State.stoperStep, haborted] at hstep
      · obtain ⟨hlocked', hbefore'⟩ :=
          stoperStep_locked hlocked hbefore hstep
        obtain ⟨_, _, hmanager, _⟩ := stoperStep_frame hstep
        exact Or.inr ⟨hlocked', hmanager ▸ hreturned, hbefore'⟩
  | writer ok =>
      apply hkeep <;> rw [writerStep_frame hstep]
  | reader input =>
      apply hkeep <;> rw [readerStep_frame hstep]
  | get j =>
      apply hkeep <;> rw [getStep_frame hstep]
  | replaced | connFail =>
      simp only [Server.step, Option.some.injEq] at hstep
      subst hstep
      exact hwedged
  | call j | timeout j | arrive k | verify k ok | register k | handoff k j
  | handle k =>
      simp only [Server.step, Option.ite_none_right_eq_some,
        Option.some.injEq] at hstep
      obtain ⟨_, rfl⟩ := hstep
      exact hwedged

theorem Wedged.step {s s' : State cfg} {action : Action} (hinv : s.Inv)
    (hwedged : s.Wedged) (hstep : Server.step s action = some s') :
    s'.Wedged := by
  rcases hwedged with hsend | hread | hclose
  · exact Or.inl (hsend.step hinv hstep)
  · exact Or.inr (Or.inl (hread.step hinv hstep))
  · exact Or.inr (Or.inr (hclose.step hinv hstep))

/-- The stoper never gets past a wedged goroutine. -/
theorem Inv.not_done_of_wedged {s : State cfg} (hinv : s.Inv)
    (hwedged : s.Wedged) : s.allDone = false := by
  by_contra hdone
  have hexited := hinv.finished.mp (by simpa using hdone)
  rcases hwedged with hsend | hread | haborted | ⟨_, _, hbefore⟩
  · have hopen := hsend.open hinv
    rw [hinv.sendClosed, hexited] at hopen
    cases hopen
  · obtain ⟨msg, hreader⟩ := hread.2.2
    have hopen := hinv.readOpen_of_reader (by rw [hreader]; rfl)
    rw [hinv.readClosed, hexited] at hopen
    cases hopen
  · rw [hexited] at haborted
    cases haborted
  · rw [hexited] at hbefore
    cases hbefore

theorem not_done_of_exec {s t : State cfg} {word : List Action}
    (hinv : s.Inv) (hwedged : s.Wedged)
    (hexec : (system cfg).exec s word = some t) : t.allDone = false := by
  have hkept : t.Inv ∧ t.Wedged := by
    refine System.exec_preserves (I := fun u : State cfg =>
      u.Inv ∧ u.Wedged) ?_ ⟨hinv, hwedged⟩ hexec
    rintro state action next ⟨hstate, hstuck⟩ hstep
    exact ⟨hstate.step hstep, hstuck.step hstate hstep⟩
  exact hkept.1.not_done_of_wedged hkept.2

end State

/-- After the connection has failed the shutdown goes on as long as nobody waits
for room that nobody makes and no `Close` has panicked with the mutex or in the
stoper; otherwise it never ends. -/
theorem shutdown_progresses {word : List Action} {s : State cfg}
    (hreach : (system cfg).Reaches word s) (hfailed : s.connFailed = true)
    (hdone : s.allDone = false) :
    (¬ s.Wedged → s.Progresses) ∧
    (s.Wedged →
      ∀ more t, (system cfg).exec s more = some t → t.allDone = false) := by
  have hinv := inv_of_reaches hreach
  constructor
  · intro hfree
    obtain ⟨hsend, hstuck⟩ := not_or.mp hfree
    obtain ⟨hread, hclose⟩ := not_or.mp hstuck
    exact hinv.progresses hfailed hdone hsend hread hclose
  · intro hwedged more t hexec
    exact State.not_done_of_exec hinv hwedged hexec

/-- The connection fails right after Start. -/
def earlyFailure : List Action :=
  [.start, .start, .connFail]

theorem shutdown_progresses_earlyFailure :
    ∃ s, (system noPool).Reaches earlyFailure s ∧ s.connFailed = true ∧
      s.Progresses := by
  obtain ⟨s, hreach, hfailed, hdone, hwriter, hmanager, hstoper, hfree⟩ :
      ∃ s, (system noPool).Reaches earlyFailure s ∧ s.connFailed = true ∧
        s.allDone = false ∧ s.writer = .newWriter ∧ s.manager = .select ∧
        s.stoper = .waitStart ∧ s.mu = false :=
    System.exists_reaches_of_exec (by decide)
  refine ⟨s, hreach, hfailed, ?_⟩
  apply (shutdown_progresses hreach hfailed hdone).1
  rintro (⟨hexited, _⟩ | ⟨hexited, _⟩ | haborted | ⟨hlocked, _⟩)
  · rw [hwriter] at hexited
    cases hexited
  · rw [hmanager] at hexited
    cases hexited
  · rw [hstoper] at haborted
    cases haborted
  · rw [hfree] at hlocked
    cases hlocked

/-- A `Close` panics in `CloseProxy`, and the stoper comes as far as the mutex
that is still locked. -/
example : ∃ s, (system noPool).Reaches
    [.start, .start, .reader (.message .closeProxy),
      .reader (.message .closeProxy), .manager .returned, .manager .returned,
      .manager .panicked, .manager .returned, .manager .returned, .connFail,
      .reader .error, .reader .error, .reader .error, .stoper .returned,
      .stoper .returned, .stoper .returned, .stoper .returned,
      .stoper .returned, .stoper .returned, .writer true, .writer true,
      .writer true, .writer true, .stoper .returned] s ∧
    s.stoper = .lock ∧ s.mu = true ∧ s.manager = .exited ∧
    s.writer = .exited ∧ s.reader = .exited ∧ s.allDone = false :=
  System.exists_reaches_of_exec (by decide)

/-- Twelve pings: the writer fails to write the first answer and exits, the
next ten fill `sendCh`, and the manager waits with the twelfth. -/
def pingFlood : List Action :=
  [Action.start, .start, .writer true] ++
    (List.replicate 10 [Action.reader (.message (.ping true)),
      .reader (.message (.ping true))]).flatten ++
    [Action.manager .returned, .manager .returned, .writer true,
      .writer false, .writer true, .writer true] ++
    (List.replicate 9
      [Action.manager .returned, .manager .returned]).flatten ++
    [Action.reader (.message (.ping true)), .reader (.message (.ping true)),
      .reader (.message (.ping true)), .reader (.message (.ping true)),
      .manager .returned, .manager .returned, .manager .returned, .connFail,
      .reader .error, .reader .error, .reader .error, .stoper .returned,
      .stoper .returned, .stoper .returned, .stoper .returned]

/-- The manager waits for the writer, which has gone, and the stoper for the
manager. -/
theorem not_progresses_pingFlood :
    ∃ s, (system noPool).Reaches pingFlood s ∧ s.connFailed = true ∧
      s.allDone = false ∧ ¬ s.Progresses := by
  obtain ⟨s, hreach, hfailed, hdone, hstart, hwriter, hreader, hmanager,
      hfull, hopen, hstoper, hlatch⟩ :
      ∃ s, (system noPool).Reaches pingFlood s ∧ s.connFailed = true ∧
        s.allDone = false ∧ s.start = .started ∧ s.writer = .exited ∧
        s.reader = .exited ∧ s.manager = .respond .pong true ∧
        s.sendCh.full ∧ s.sendCh.closed = false ∧ s.stoper = .waitManager ∧
        s.managerDone = false :=
    System.exists_reaches_of_exec (by decide +kernel)
  have hblocked : s.sendCh.send .pong = .block :=
    Chan.send_eq_block_iff.mpr ⟨hopen, hfull⟩
  refine ⟨s, hreach, hfailed, hdone, ?_⟩
  rintro ⟨action, s', hstep, rfl | ⟨ok, rfl⟩ | ⟨input, rfl⟩ | ⟨close, rfl⟩ |
    ⟨close, rfl⟩⟩
  · simp [step, State.startStep, hstart] at hstep
  · simp [step, State.writerStep, hwriter] at hstep
  · simp [step, State.readerStep, hreader] at hstep
  · simp [step, State.managerStep, hmanager, hblocked] at hstep
  · simp [step, State.stoperStep, hstoper, hlatch] at hstep

end Frp.Server
