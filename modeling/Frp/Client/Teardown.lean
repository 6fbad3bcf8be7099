/-
The teardown of a Control of frpc after its connection has failed.  It goes on
as long as the handler does not wait for a writer that has gone, nor the reader
for a handler that has gone.
-/
import Frp.Client.ControlInv

namespace Frp.Client

open Transition GoChan

variable {cfg : Config}

namespace State

/-- One of the four goroutines of the Control has a step. -/
def Progresses (cfg : Config) (s : State) : Prop :=
  ∃ action s', Client.step cfg s action = some s' ∧
    ((∃ input, action = .reader input) ∨ (∃ ok, action = .writer ok) ∨
      (∃ runErr, action = .handler runErr) ∨ action = .worker)

/-- The handler waits for room in `sendCh` or for a mutex that a call holds. -/
def HandlerWaits (s : State) : Prop :=
  match s.handler with
  | .waiting => True
  | .lookup _ _ => s.calls.Busy
  | .setRunning i _ => s.calls.Locked i
  | .select | .leaving | .exited => False

/-- The writer has exited and the handler waits. -/
def SendWedged (s : State) : Prop :=
  s.writer = .exited ∧ s.HandlerWaits

/-- The handler has exited and the reader waits for room in `readCh`. -/
def ReadWedged (s : State) : Prop :=
  s.handler = .exited ∧ s.readCh.full ∧ ∃ msg, s.reader = .push msg

theorem progresses_reader {s s' : State} (input : ReadResult)
    (hnext : s.readerStep input = some s') : s.Progresses cfg :=
  ⟨.reader input, s', hnext, Or.inl ⟨input, rfl⟩⟩

theorem progresses_writer {s s' : State} (ok : Bool)
    (hnext : s.writerStep ok = some s') : s.Progresses cfg :=
  ⟨.writer ok, s', hnext, Or.inr (Or.inl ⟨ok, rfl⟩)⟩

theorem progresses_handler {s s' : State} (runErr : Option String)
    (hnext : s.handlerStep runErr = some s') : s.Progresses cfg :=
  ⟨.handler runErr, s', hnext, Or.inr (Or.inr (Or.inl ⟨runErr, rfl⟩))⟩

theorem progresses_worker {s s' : State}
    (hnext : s.workerStep = some s') : s.Progresses cfg :=
  ⟨.worker, s', hnext, Or.inr (Or.inr (Or.inr rfl))⟩

/-- A writer that has not exited goes on while there is something in `sendCh`
or the channel is closed. -/
theorem progresses_of_writer {s : State} (hrunning : s.writer ≠ .exited)
    (hsent : s.calls.sendCh.buf ≠ [] ∨ s.calls.sendCh.closed = true) :
    s.Progresses cfg := by
  cases hwriter : s.writer with
  | newWriter =>
      apply progresses_writer true
      simp only [State.writerStep, hwriter, if_true]
      rfl
  | recv =>
      cases hrecv : s.calls.sendCh.recv with
      | value msg chan =>
          apply progresses_writer true
          simp only [State.writerStep, hwriter, hrecv]
          rfl
      | closed =>
          apply progresses_writer true
          simp only [State.writerStep, hwriter, hrecv]
          rfl
      | block =>
          obtain ⟨hnil, hopen⟩ := Chan.recv_eq_block_iff.mp hrecv
          rcases hsent with hsome | hclosed
          · exact absurd hnil hsome
          · rw [hopen] at hclosed
            cases hclosed
  | write msg =>
      apply progresses_writer false
      simp only [State.writerStep, hwriter, Bool.false_eq_true, if_false]
      rfl
  | leaving =>
      apply progresses_writer true
      simp only [State.writerStep, hwriter]
      rfl
  | exited => exact absurd hwriter hrunning

/-- Whoever the handler waits for waits for room in `sendCh` himself. -/
theorem Inv.queue_of_waits {s : State} (hinv : s.Inv)
    (hwaits : s.HandlerWaits) : s.calls.sendq ≠ [] := by
  unfold HandlerWaits at hwaits
  split at hwaits
  · rename_i hwaiting
    have hhandlers := hinv.handlers
    rw [if_pos hwaiting] at hhandlers
    intro hnil
    simp [Calls.handlers, hnil] at hhandlers
  · exact hinv.calls.queue_ne_nil_of_busy hwaits
  · exact hwaits.queue_ne_nil
  all_goals cases hwaits

theorem Inv.progresses_of_waits {s : State} (hinv : s.Inv)
    (hsend : ¬ s.SendWedged) (hwaits : s.HandlerWaits) :
    s.Progresses cfg := by
  have hfull := (hinv.calls.full (hinv.queue_of_waits hwaits)).1
  apply progresses_of_writer ?_ (Or.inl (Chan.full_ne_nil (by decide) hfull))
  intro hexited
  exact hsend ⟨hexited, hwaits⟩

/-- A handler that has not exited goes on while there is something in `readCh`
or the channel is closed. -/
theorem Inv.progresses_of_handler {s : State} (hinv : s.Inv)
    (hsend : ¬ s.SendWedged) (hrunning : s.handler ≠ .exited)
    (hsent : s.readCh.buf ≠ [] ∨ s.readCh.closed = true) :
    s.Progresses cfg := by
  by_cases hwaits : s.HandlerWaits
  · exact hinv.progresses_of_waits hsend hwaits
  · cases hhandler : s.handler with
    | select =>
        cases hrecv : s.readCh.recv with
        | value msg chan =>
            apply progresses_handler none
            simp only [State.handlerStep, hhandler, hrecv]
            rfl
        | closed =>
            apply progresses_handler none
            simp only [State.handlerStep, hhandler, hrecv]
            rfl
        | block =>
            obtain ⟨hnil, hopen⟩ := Chan.recv_eq_block_iff.mp hrecv
            rcases hsent with hsome | hclosed
            · exact absurd hnil hsome
            · rw [hopen] at hclosed
              cases hclosed
    | lookup name resp =>
        have hfree : ¬ s.calls.Busy := by
          simpa [HandlerWaits, hhandler] using hwaits
        apply progresses_handler none
        simp only [State.handlerStep, hhandler, if_neg hfree]
        rfl
    | setRunning i resp =>
        have hfree : ¬ s.calls.Locked i := by
          simpa [HandlerWaits, hhandler] using hwaits
        apply progresses_handler none
        simp only [State.handlerStep, hhandler, if_neg hfree]
        rfl
    | leaving =>
        apply progresses_handler none
        simp only [State.handlerStep, hhandler]
        rfl
    | waiting => simp [HandlerWaits, hhandler] at hwaits
    | exited => exact absurd hhandler hrunning

/-- Once the connection has failed a reader that has not exited goes on, or the
handler does, which it waits for. -/
theorem Inv.progresses_of_reader {s : State} (hinv : s.Inv)
    (hfailed : s.connFailed = true) (hsend : ¬ s.SendWedged)
    (hread : ¬ s.ReadWedged) (hrunning : s.reader ≠ .exited) :
    s.Progresses cfg := by
  cases hreader : s.reader with
  | read =>
      apply progresses_reader .error
      simp only [State.readerStep, hreader, hfailed, if_true]
      rfl
  | push msg =>
      cases hpush : s.readCh.send msg with
      | done chan =>
          apply progresses_reader .error
          simp only [State.readerStep, hreader, hpush]
          rfl
      | block =>
          have hfull := (Chan.send_eq_block_iff.mp hpush).2
          apply hinv.progresses_of_handler hsend ?_
            (Or.inl (Chan.full_ne_nil (by decide) hfull))
          intro hexited
          exact hread ⟨hexited, hfull, msg, hreader⟩
      | panic =>
          apply progresses_reader .error
          simp only [State.readerStep, hreader, hpush]
          rfl
  | closing =>
      apply progresses_reader .error
      simp only [State.readerStep, hreader]
      rfl
  | leaving =>
      apply progresses_reader .error
      simp only [State.readerStep, hreader]
      rfl
  | exited => exact absurd hreader hrunning

/-- The split is on what the worker waits for. -/
theorem Inv.progresses {s : State} (hinv : s.Inv)
    (hfailed : s.connFailed = true) (hdone : s.closedDoneCh = false)
    (hsend : ¬ s.SendWedged) (hread : ¬ s.ReadWedged) :
    s.Progresses cfg := by
  have hreadClosed := hinv.readClosed
  have hsendClosed := hinv.sendClosed
  cases hworker : s.worker with
  | waitClosed =>
      cases hclosed : s.closedCh with
      | true =>
          apply progresses_worker
          simp only [State.workerStep, hworker, hclosed, if_true]
          rfl
      | false =>
          apply hinv.progresses_of_reader hfailed hsend hread
          intro hexited
          have hopen := hinv.closedCh
          rw [hclosed, hexited] at hopen
          cases hopen
  | closeRead =>
      rw [hworker] at hreadClosed
      obtain ⟨chan, hclose, _⟩ := Chan.exists_close_done hreadClosed
      apply progresses_worker
      simp only [State.workerStep, hworker, hclose]
      rfl
  | waitReader =>
      cases hlatch : s.readerDone with
      | true =>
          apply progresses_worker
          simp only [State.workerStep, hworker, hlatch, if_true]
          rfl
      | false =>
          apply hinv.progresses_of_reader hfailed hsend hread
          intro hexited
          rw [hinv.readerLatch.mpr hexited] at hlatch
          cases hlatch
  | waitHandler =>
      rw [hworker] at hreadClosed
      cases hlatch : s.handlerDone with
      | true =>
          apply progresses_worker
          simp only [State.workerStep, hworker, hlatch, if_true]
          rfl
      | false =>
          apply hinv.progresses_of_handler hsend ?_ (Or.inr hreadClosed)
          intro hexited
          rw [hinv.handlerLatch.mpr hexited] at hlatch
          cases hlatch
  | closeSend =>
      rw [hworker] at hsendClosed
      cases hclose : s.calls.closeSendCh with
      | done calls =>
          apply progresses_worker
          simp only [State.workerStep, hworker, hclose]
          rfl
      | block => exact absurd hclose Calls.closeSendCh_ne_block
      | panic =>
          rw [Calls.closed_of_panic hclose] at hsendClosed
          cases hsendClosed
  | waitWriter =>
      rw [hworker] at hsendClosed
      cases hlatch : s.writerDone with
      | true =>
          apply progresses_worker
          simp only [State.workerStep, hworker, hlatch, if_true]
          rfl
      | false =>
          apply progresses_of_writer ?_ (Or.inr hsendClosed)
          intro hexited
          rw [hinv.writerLatch.mpr hexited] at hlatch
          cases hlatch
  | closeProxies =>
      rw [hworker] at hsendClosed
      have hfree := hinv.free_of_closed hsendClosed
      apply progresses_worker
      simp only [State.workerStep, hworker, Calls.close, hfree,
        not_false_eq_true, List.Perm.refl, and_self, if_true, Option.map_some]
      rfl
  | closeVisitors =>
      apply progresses_worker
      simp only [State.workerStep, hworker]
      rfl
  | closeDone =>
      apply progresses_worker
      simp only [State.workerStep, hworker]
      rfl
  | exited =>
      rw [hinv.finished.mpr hworker] at hdone
      cases hdone
  | panicked => exact absurd hworker hinv.workerSafe

theorem readerStep_frame {s s' : State} {input : ReadResult}
    (hnext : s.readerStep input = some s') :
    s' = { s with
      reader := s'.reader
      readCh := s'.readCh
      connFailed := s'.connFailed
      closedCh := s'.closedCh
      readerDone := s'.readerDone } := by
  unfold State.readerStep at hnext
  split at hnext
  all_goals try split at hnext
  all_goals try split at hnext
  all_goals cases hnext
  all_goals rfl

/-- The writer touches what the reader waits for only through the handler. -/
theorem writerStep_frame {s s' : State} {ok : Bool}
    (hnext : s.writerStep ok = some s') :
    s'.reader = s.reader ∧ s'.readCh = s.readCh ∧
      (s.calls.servesHandler = false → s'.handler = s.handler) := by
  unfold State.writerStep at hnext
  split at hnext
  all_goals try split at hnext
  all_goals try split at hnext
  all_goals cases hnext
  all_goals simp_all

/-- Before the handler is done the worker leaves the calls alone. -/
theorem Inv.workerStep_frame {s s' : State} (hinv : s.Inv)
    (hrunning : s.handler ≠ .exited) (hnext : s.workerStep = some s') :
    s'.handler = s.handler ∧ s'.writer = s.writer ∧ s'.calls = s.calls := by
  have hearly : s.worker.pastHandler = false := by
    by_contra hpast
    have hdone := hinv.sendOrder (by simpa using hpast)
    exact hrunning (hinv.handlerLatch.mp hdone)
  unfold State.workerStep at hnext
  split at hnext
  all_goals try split at hnext
  all_goals first
    | cases hnext
      exact ⟨rfl, rfl, rfl⟩
    | simp_all [WorkerPc.pastHandler]

/-- A call beside the four goroutines leaves the handler waiting. -/
theorem HandlerWaits.setCalls {s : State} (hwaits : s.HandlerWaits)
    {calls : Calls} (hgoes : Calls.Goes s.calls calls)
    (hbusy : s.calls.Busy → calls.Busy) : (s.setCalls calls).HandlerWaits := by
  unfold HandlerWaits at hwaits ⊢
  cases hhandler : s.handler with
  | waiting => simp [State.setCalls, hhandler]
  | lookup name resp =>
      rw [hhandler] at hwaits
      simpa [State.setCalls, hhandler] using hbusy hwaits
  | setRunning i resp =>
      rw [hhandler] at hwaits
      simpa [State.setCalls, hhandler] using hgoes.locked hwaits
  | select => simp [hhandler] at hwaits
  | leaving => simp [hhandler] at hwaits
  | exited => simp [hhandler] at hwaits

theorem HandlerWaits.not_exited {s : State} (hwaits : s.HandlerWaits) :
    s.handler ≠ .exited ∧ s.handler ≠ .select := by
  constructor
  · intro hexited
    simp [HandlerWaits, hexited] at hwaits
  · intro hselect
    simp [HandlerWaits, hselect] at hwaits

theorem HandlerWaits.handlerStep_none {s : State} (hwaits : s.HandlerWaits)
    (runErr : Option String) : s.handlerStep runErr = none := by
  unfold HandlerWaits at hwaits
  split at hwaits
  · rename_i hhandler
    simp [State.handlerStep, hhandler]
  · rename_i hhandler
    simp [State.handlerStep, hhandler, hwaits]
  · rename_i hhandler
    simp [State.handlerStep, hhandler, hwaits]
  all_goals cases hwaits

/-- Nothing makes room in `sendCh` again, and no mutex is given back. -/
theorem SendWedged.step {s s' : State} {action : Action} (hinv : s.Inv)
    (hwedged : s.SendWedged) (hstep : Client.step cfg s action = some s') :
    s'.SendWedged := by
  obtain ⟨hwriter, hwaits⟩ := hwedged
  obtain ⟨hrunning, hselect⟩ := hwaits.not_exited
  cases action with
  | reader input =>
      rw [readerStep_frame hstep]
      exact ⟨hwriter, hwaits⟩
  | writer ok => simp [Client.step, State.writerStep, hwriter] at hstep
  | handler runErr =>
      rw [Client.step, hwaits.handlerStep_none] at hstep
      cases hstep
  | tick ok => simp [Client.step, hselect] at hstep
  | timeout => simp [Client.step, hselect] at hstep
  | worker =>
      obtain ⟨hhandler, hsame, hcalls⟩ := hinv.workerStep_frame hrunning hstep
      refine ⟨hsame.trans hwriter, ?_⟩
      unfold HandlerWaits
      rw [hhandler, hcalls]
      exact hwaits
  | connFail | elapse seconds =>
      simp only [Client.step, Option.some.injEq] at hstep
      subst hstep
      exact ⟨hwriter, hwaits⟩
  | health i healthy =>
      obtain ⟨name, pw, -, -, rfl⟩ := healthStep_cases hstep
      have hsame := s.calls.setWrapper_same i
      exact ⟨hwriter, hwaits.setCalls (hsame _ _).goes id⟩
  | check i =>
      simp only [Client.step, Option.map_eq_some_iff] at hstep
      obtain ⟨calls, hcheck, rfl⟩ := hstep
      have hgoes := (hinv.calls.check hcheck).2
      exact ⟨hwriter, hwaits.setCalls hgoes (Calls.Busy.check hcheck hgoes)⟩
  | reload cfgs order =>
      simp only [Client.step, Option.map_eq_some_iff] at hstep
      obtain ⟨calls, hreload, rfl⟩ := hstep
      refine ⟨hwriter, hwaits.setCalls (hinv.calls.reload hreload).2 ?_⟩
      intro hbusy
      simp [Calls.reload, hbusy] at hreload
  | gracefulClose order =>
      simp only [Client.step, Option.map_eq_some_iff] at hstep
      obtain ⟨calls, hclose, rfl⟩ := hstep
      refine ⟨hwriter, hwaits.setCalls (hinv.calls.close hclose).2 ?_⟩
      intro hbusy
      simp [Calls.close, hbusy] at hclose

/-- Nothing makes room in `readCh` again. -/
theorem ReadWedged.step {s s' : State} {action : Action} (hinv : s.Inv)
    (hwedged : s.ReadWedged) (hstep : Client.step cfg s action = some s') :
    s'.ReadWedged := by
  obtain ⟨hexited, hfull, msg, hreader⟩ := hwedged
  have hwaits : s.closedCh = false := by
    rw [hinv.closedCh, hreader]
    rfl
  have hearly : s.worker.pastClosed = false := by
    by_contra hpast
    have hclosed := hinv.readOrder (by simpa using hpast)
    rw [hwaits] at hclosed
    cases hclosed
  cases action with
  | reader input =>
      have hopen : s.readCh.closed = false := by
        rw [hinv.readClosed]
        by_contra hclosed
        cases hworker : s.worker <;>
          simp_all [WorkerPc.pastClosed, WorkerPc.closedRead]
      have hblocked : s.readCh.send msg = .block :=
        Chan.send_eq_block_iff.mpr ⟨hopen, hfull⟩
      simp [Client.step, State.readerStep, hreader, hblocked] at hstep
  | writer ok =>
      have hserves := hinv.servesHandler_eq_false (by simp [hexited])
      obtain ⟨hsame, hchan, hhandler⟩ := writerStep_frame hstep
      exact ⟨(hhandler hserves).trans hexited, by rwa [hchan],
        msg, hsame.trans hreader⟩
  | handler runErr =>
      simp [Client.step, State.handlerStep, hexited] at hstep
  | tick ok => simp [Client.step, hexited] at hstep
  | timeout => simp [Client.step, hexited] at hstep
  | worker =>
      cases hworker : s.worker <;>
        simp_all [Client.step, State.workerStep, WorkerPc.pastClosed]
  | connFail | elapse seconds =>
      simp only [Client.step, Option.some.injEq] at hstep
      subst hstep
      exact ⟨hexited, hfull, msg, hreader⟩
  | health i healthy =>
      obtain ⟨name, pw, -, -, rfl⟩ := healthStep_cases hstep
      exact ⟨hexited, hfull, msg, hreader⟩
  | check i | reload cfgs order | gracefulClose order =>
      simp only [Client.step, Option.map_eq_some_iff] at hstep
      obtain ⟨calls, _, rfl⟩ := hstep
      exact ⟨hexited, hfull, msg, hreader⟩

/-- The worker never gets past a wedged goroutine. -/
theorem Inv.not_done_of_wedged {s : State} (hinv : s.Inv)
    (hwedged : s.SendWedged ∨ s.ReadWedged) : s.closedDoneCh = false := by
  by_contra hdone
  have hexited := hinv.finished.mp (by simpa using hdone)
  rcases hwedged with ⟨_, hwaits⟩ | ⟨_, _, msg, hreader⟩
  · have hlatch := hinv.sendOrder (by rw [hexited]; rfl)
    exact hwaits.not_exited.1 (hinv.handlerLatch.mp hlatch)
  · have hclosed := hinv.readOrder (by rw [hexited]; rfl)
    rw [hinv.closedCh, hreader] at hclosed
    cases hclosed

theorem not_done_of_exec {s t : State} {word : List Action} (hinv : s.Inv)
    (hwedged : s.SendWedged ∨ s.ReadWedged)
    (hexec : (system cfg).exec s word = some t) : t.closedDoneCh = false := by
  have hkept : t.Inv ∧ (t.SendWedged ∨ t.ReadWedged) := by
    refine System.exec_preserves (I := fun u : State =>
      u.Inv ∧ (u.SendWedged ∨ u.ReadWedged)) ?_ ⟨hinv, hwedged⟩ hexec
    rintro state action next ⟨hstate, hstuck⟩ hstep
    refine ⟨hstate.step hstep, ?_⟩
    rcases hstuck with hsend | hread
    · exact Or.inl (hsend.step hstate hstep)
    · exact Or.inr (hread.step hstate hstep)
  exact hkept.1.not_done_of_wedged hkept.2

end State

/-- After the connection has failed the teardown goes on as long as the handler
does not wait for a writer that has gone and the reader does not wait for a
handler that has gone; once one of them does, it never ends. -/
theorem teardown_progresses {word : List Action} {s : State}
    (hreach : (system cfg).Reaches word s) (hfailed : s.connFailed = true)
    (hdone : s.closedDoneCh = false) :
    (¬ s.SendWedged ∧ ¬ s.ReadWedged → s.Progresses cfg) ∧
    (s.SendWedged ∨ s.ReadWedged →
      ∀ more t, (system cfg).exec s more = some t →
        t.closedDoneCh = false) := by
  have hinv := inv_of_reaches hreach
  constructor
  · rintro ⟨hsend, hread⟩
    exact hinv.progresses hfailed hdone hsend hread
  · intro hwedged more t hexec
    exact State.not_done_of_exec hinv hwedged hexec

/-- The default heartbeat. -/
def muxed : Config :=
  ⟨30, 90, true⟩

/-- The connection fails before anything has been sent. -/
def earlyFailure : List Action :=
  [.writer true, .connFail]

theorem teardown_progresses_earlyFailure :
    ∃ s, (system muxed).Reaches earlyFailure s ∧ s.connFailed = true ∧
      s.Progresses muxed := by
  obtain ⟨s, hreach, hfailed, hdone, hwriter, hhandler⟩ :
      ∃ s, (system muxed).Reaches earlyFailure s ∧ s.connFailed = true ∧
        s.closedDoneCh = false ∧ s.writer = .recv ∧ s.handler = .select :=
    System.exists_reaches_of_exec (by decide)
  refine ⟨s, hreach, hfailed, ?_⟩
  apply (teardown_progresses hreach hfailed hdone).1
  constructor
  · rintro ⟨hexited, _⟩
    rw [hwriter] at hexited
    cases hexited
  · rintro ⟨hexited, _⟩
    rw [hhandler] at hexited
    cases hexited

/-- A configuration with `count` proxies, named by letters. -/
def manyProxies (count : Nat) : ConfMap NameConf where
  entries := (List.range count).map fun n =>
    (String.ofList (List.replicate n 'p'), ⟨true, false⟩)
  nodup := by
    rw [List.map_map]
    apply List.Nodup.map ?_ List.nodup_range
    intro a b hab
    have hlength := congrArg String.length hab
    simpa using hlength

/-- The writer fails on the first of 102 proxies.  The next hundred fill
`sendCh`, the last one waits with its mutex, and so does a heartbeat. -/
def manyFailure : List Action :=
  [Action.reload (manyProxies 102) [], .check 0, .writer true, .writer true,
    .writer false, .writer true] ++
    (List.range' 1 101).map Action.check ++
    [Action.tick true, .connFail, .reader .error, .reader .error,
      .reader .error, .worker, .worker, .worker]

/-- The handler waits for the writer, which has gone, and the worker for the
handler. -/
theorem not_progresses_manyFailure :
    ∃ s, (system muxed).Reaches manyFailure s ∧ s.connFailed = true ∧
      s.closedDoneCh = false ∧ ¬ s.Progresses muxed := by
  obtain ⟨s, hreach, hfailed, hdone, hreader, hwriter, hhandler, hworker,
      hlatch⟩ :
      ∃ s, (system muxed).Reaches manyFailure s ∧ s.connFailed = true ∧
        s.closedDoneCh = false ∧ s.reader = .exited ∧ s.writer = .exited ∧
        s.handler = .waiting ∧ s.worker = .waitHandler ∧
        s.handlerDone = false :=
    System.exists_reaches_of_exec (by decide +kernel)
  refine ⟨s, hreach, hfailed, hdone, ?_⟩
  rintro ⟨action, s', hstep, ⟨input, rfl⟩ | ⟨ok, rfl⟩ | ⟨runErr, rfl⟩ | rfl⟩
  · simp [step, State.readerStep, hreader] at hstep
  · simp [step, State.writerStep, hwriter] at hstep
  · simp [step, State.handlerStep, hhandler] at hstep
  · simp [step, State.workerStep, hworker, hlatch] at hstep

end Frp.Client
