/-
What becomes of the connections of the vhost muxer: each is returned by one
`Accept` of its listener or closed, as long as no listener is closed with a
connection on its way and no rewriting fails.
-/
import Frp.Vhost.MuxHandle

namespace Frp

open GoStrings Transition

namespace MuxHandle

/-- The listener that `getListener` has returned to a `handle`. -/
def Handle.route : Handle → Option Nat
  | .succeeding l | .authorizing l | .clearing l | .sending l => some l
  | .idle | .deadline | .parsing | .routing _ _ | .ended _ => none

def Handle.running : Handle → Bool
  | .idle | .ended _ => false
  | .deadline | .parsing | .routing _ _ | .succeeding _ | .authorizing _
  | .clearing _ | .sending _ => true

/-- The connection that an `Accept` has received. -/
def AcceptPhase.conn : AcceptPhase → Option Nat
  | .rewriting conn | .returned conn | .rewriteFailed conn => some conn
  | .idle | .receiving | .listenerClosed => none

/-- What happens without a connection, a new listener or a call of `Accept` or
`Close` from outside. -/
def Action.internal : Action → Bool
  | .connect | .acceptFails | .listen _ | .accept _ | .close _ => false
  | .setDeadline _ _ | .vhostFunc _ _ | .get _ | .successFunc _ _
  | .authFunc _ _ _ | .clearDeadline _ _ | .send _ _ | .acceptClosed _
  | .rewriteFunc _ _ | .closeAccept _ => true

/-- No goroutine has anything left to do. -/
def State.Quiescent (conf : MuxConf) (s : State) : Prop :=
  ∀ action : Action, action.internal → step conf s action = none

/-- A connection is in the hand of its `handle`; or, when that has returned, it is
closed, or one `Accept` returns it, and not both; where `handle` gave up it is
closed; the `Accept` is one of the listener that `getListener` returned.  When
nothing moves a `handle` only waits for an `Accept` of an open listener. -/
structure State.Delivered (conf : MuxConf) (s : State) : Prop where
  inHand : ∀ conn, (s.handlers conn).running →
    s.closed conn = false ∧ ∀ call, (s.calls call).phase.conn ≠ some conn
  once : ∀ conn ending, s.handlers conn = .ended ending →
    (∀ call, (s.calls call).phase ≠ .rewriting conn) →
    (s.closed conn = true ∧ ∀ call, (s.calls call).phase ≠ .returned conn) ∨
    (s.closed conn = false ∧ ∃! call, (s.calls call).phase = .returned conn)
  failing : ∀ conn failure, s.handlers conn = .ended (.failed failure) →
    s.closed conn = true
  routed : ∀ call conn, (s.calls call).phase.conn = some conn →
    s.routed conn = some (s.calls call).listener
  waiting : s.Quiescent conf → ∀ conn, (s.handlers conn).running →
    ∃ l, s.handlers conn = .sending l ∧ (s.listeners l).acceptClosed = false ∧
      ∀ call, s.calls call ≠ ⟨l, .receiving⟩

/-- A `handle` that comes to send finds the channel of its listener open. -/
def State.listening (s : State) (conn : Nat) : Bool :=
  match s.handlers conn with
  | .sending l => !(s.listeners l).acceptClosed
  | _ => true

/-- The steps that go wrong are left out: a send on a channel that has been closed
meanwhile, and a rewriting that fails. -/
def Orderly (s : State) : Action → Prop
  | .send conn _ => s.listening conn = true
  | .rewriteFunc _ ok => ok = true
  | .connect | .acceptFails | .setDeadline _ _ | .vhostFunc _ _ | .get _
  | .successFunc _ _ | .authFunc _ _ _ | .clearDeadline _ _ | .listen _
  | .accept _ | .acceptClosed _ | .close _ | .closeAccept _ => True

instance (s : State) : (action : Action) → Decidable (Orderly s action)
  | .send conn _ => inferInstanceAs (Decidable (s.listening conn = true))
  | .rewriteFunc _ ok => inferInstanceAs (Decidable (ok = true))
  | .connect | .acceptFails | .setDeadline _ _ | .vhostFunc _ _ | .get _
  | .successFunc _ _ | .authFunc _ _ _ | .clearDeadline _ _ | .listen _
  | .accept _ | .acceptClosed _ | .close _ | .closeAccept _ =>
      inferInstanceAs (Decidable True)

/-- A step that goes wrong has been taken. -/
def State.Spoiled (s : State) : Prop :=
  (∃ conn, s.handlers conn = .ended (.failed .listenerClosed)) ∨
    ∃ call conn, (s.calls call).phase = .rewriteFailed conn

/-- What holds whichever steps are taken. -/
structure State.Inv (s : State) : Prop where
  routed : ∀ conn l, (s.handlers conn).route = some l → s.routed conn = some l
  held : ∀ call conn, (s.calls call).phase.conn = some conn ↔
    s.handlers conn = .ended (.handedOver call)
  handed : ∀ conn call, s.handlers conn = .ended (.handedOver call) →
    s.routed conn = some (s.calls call).listener
  closed : ∀ conn, s.closed conn = true ↔
    ∃ failure, s.handlers conn = .ended (.failed failure) ∧
      failure ≠ .listenerClosed
  fresh : ∀ conn, s.accepted ≤ conn → s.handlers conn = .idle
  notCalled : ∀ call, s.called ≤ call → (s.calls call).phase = .idle

namespace State

/-- All that a step can do. -/
inductive Steps (conf : MuxConf) (s : State) : Action → State → Prop where
  | table {action : Action} (registryRouter : Routers Nat)
      (listeners : Nat → Listener) (made : Nat) (running : Bool)
      (horderly : Orderly s action) : Steps conf s action { s with
        registryRouter := registryRouter
        listeners := listeners
        made := made
        running := running }
  | connect : Steps conf s .connect { s.setHandler s.accepted .deadline with
      accepted := s.accepted + 1 }
  | advances {action : Action} {conn : Nat} {before handle : Handle}
      (hbefore : s.handlers conn = before) (hmoves : before.running = true)
      (hrunning : handle.running = true)
      (hroute : handle.route = before.route) (horderly : Orderly s action) :
      Steps conf s action (s.setHandler conn handle)
  | found {conn l : Nat} {before : Handle} (hbefore : s.handlers conn = before)
      (hmoves : before.running = true) :
      Steps conf s (.get conn) (s.found conf conn l)
  | fails {action : Action} {conn : Nat} {before : Handle} {failure : Failure}
      (hbefore : s.handlers conn = before) (hmoves : before.running = true)
      (hfailure : failure ≠ .listenerClosed) (horderly : Orderly s action) :
      Steps conf s action (s.fail conn failure)
  | panics {conn call l : Nat} (hsending : s.handlers conn = .sending l)
      (hclosed : (s.listeners l).acceptClosed = true) :
      Steps conf s (.send conn call)
        (s.setHandler conn (.ended (.failed .listenerClosed)))
  | handsOver {conn call l : Nat} (hsending : s.handlers conn = .sending l)
      (hopen : (s.listeners l).acceptClosed = false)
      (hcall : s.calls call = ⟨l, .receiving⟩) :
      Steps conf s (.send conn call)
        ((s.setHandler conn (.ended (.handedOver call))).setCall call
          ⟨l, received conf conn⟩)
  | accept {l : Nat} : Steps conf s (.accept l)
      { s.setCall s.called ⟨l, .receiving⟩ with called := s.called + 1 }
  | acceptClosed {call : Nat} (hphase : (s.calls call).phase = .receiving) :
      Steps conf s (.acceptClosed call)
        (s.setCall call ⟨(s.calls call).listener, .listenerClosed⟩)
  | rewrites {call conn : Nat} {ok : Bool}
      (hphase : (s.calls call).phase = .rewriting conn) :
      Steps conf s (.rewriteFunc call ok)
        (s.setCall call ⟨(s.calls call).listener,
          if ok then .returned conn else .rewriteFailed conn⟩)

variable {conf : MuxConf} {s : State}

theorem running_afterSuccess (conf : MuxConf) (s : State) (l : Nat) :
    (s.afterSuccess conf l).running = true ∧
      (s.afterSuccess conf l).route = some l := by
  unfold afterSuccess
  split
  · exact ⟨rfl, rfl⟩
  · exact ⟨rfl, rfl⟩

theorem running_afterFound (conf : MuxConf) (s : State) (l : Nat) :
    (s.afterFound conf l).running = true ∧
      (s.afterFound conf l).route = some l := by
  unfold afterFound
  split
  · exact ⟨rfl, rfl⟩
  · exact running_afterSuccess conf s l

theorem steps_of_step {s' : State} {action : Action}
    (hstep : step conf s action = some s') : s.Steps conf action s' := by
  cases action with
  | connect =>
      simp only [step] at hstep
      split at hstep
      · cases hstep
        exact .connect
      · cases hstep
  | acceptFails =>
      simp only [step] at hstep
      split at hstep
      · cases hstep
        exact .table _ _ _ _ trivial
      · cases hstep
  | setDeadline conn ok =>
      simp only [step] at hstep
      split at hstep
      · next hhandle =>
          split at hstep
          · cases hstep
            exact .advances hhandle rfl rfl rfl trivial
          · cases hstep
            exact .fails hhandle rfl (by decide) trivial
      · cases hstep
  | vhostFunc conn reqInfo =>
      simp only [step] at hstep
      split at hstep
      · next hhandle =>
          split at hstep
          · cases hstep
            exact .advances hhandle rfl rfl rfl trivial
          · cases hstep
            exact .fails hhandle rfl (by decide) trivial
      · cases hstep
  | get conn =>
      simp only [step] at hstep
      split at hstep
      · next hhandle =>
          cases hstep
          exact .fails hhandle rfl (by decide) trivial
      · next path scope rest hhandle =>
          split at hstep
          · cases hstep
            exact .found hhandle rfl
          · cases hstep
            exact .advances hhandle rfl rfl rfl trivial
      · cases hstep
  | successFunc conn ok =>
      simp only [step] at hstep
      split at hstep
      · next l hhandle =>
          split at hstep
          · cases hstep
            have hafter := running_afterSuccess conf s l
            exact .advances hhandle rfl hafter.1 hafter.2 trivial
          · cases hstep
            exact .fails hhandle rfl (by decide) trivial
      · cases hstep
  | authFunc conn bAccess ok =>
      simp only [step] at hstep
      split at hstep
      · next l hhandle =>
          split at hstep
          · cases hstep
            exact .fails hhandle rfl (by decide) trivial
          · cases hstep
            exact .advances hhandle rfl rfl rfl trivial
      · cases hstep
  | clearDeadline conn ok =>
      simp only [step] at hstep
      split at hstep
      · next l hhandle =>
          split at hstep
          · cases hstep
            exact .advances hhandle rfl rfl rfl trivial
          · cases hstep
            exact .fails hhandle rfl (by decide) trivial
      · cases hstep
  | send conn call =>
      simp only [step] at hstep
      split at hstep
      · next l hhandle =>
          split at hstep
          · next hclosed =>
              cases hstep
              exact .panics hhandle hclosed
          · next hopen =>
              split at hstep
              · next hcall =>
                  cases hstep
                  exact .handsOver hhandle (by simpa using hopen) hcall
              · cases hstep
      · cases hstep
  | listen cfg =>
      simp only [step] at hstep
      split at hstep
      · cases hstep
        exact .table _ _ _ _ trivial
      · cases hstep
        exact .table _ _ _ _ trivial
  | accept l =>
      simp only [step] at hstep
      split at hstep
      · cases hstep
        exact .accept
      · cases hstep
  | acceptClosed call =>
      simp only [step] at hstep
      split at hstep
      · next hready =>
          cases hstep
          exact .acceptClosed hready.1
      · cases hstep
  | rewriteFunc call ok =>
      simp only [step] at hstep
      split at hstep
      · next conn hphase =>
          cases hstep
          exact .rewrites hphase
      · cases hstep
  | close l =>
      simp only [step] at hstep
      split at hstep
      · cases hstep
        exact .table _ _ _ _ trivial
      · cases hstep
  | closeAccept l =>
      simp only [step] at hstep
      split at hstep
      · cases hstep
        exact .table _ _ _ _ trivial
      · cases hstep

theorem ne_ended {handle : Handle} (hrunning : handle.running = true)
    (ending : Ending) : handle ≠ .ended ending := by
  rintro rfl
  cases hrunning

theorem Inv.not_closed (hinv : s.Inv) {conn : Nat}
    (hbefore : ∀ ending, s.handlers conn ≠ .ended ending) :
    ¬ s.closed conn = true := by
  intro hclosed
  obtain ⟨failure, hended, _⟩ := (hinv.closed conn).mp hclosed
  exact hbefore _ hended

theorem Inv.lt_accepted (hinv : s.Inv) {conn : Nat}
    (hrunning : (s.handlers conn).running = true) : conn < s.accepted := by
  by_contra hnew
  rw [hinv.fresh conn (Nat.le_of_not_lt hnew)] at hrunning
  cases hrunning

/-- A `handle` starts, goes on or gives up. -/
theorem Inv.advance {s' : State} (hinv : s.Inv) {conn : Nat} {handle : Handle}
    (hbefore : ∀ ending, s.handlers conn ≠ .ended ending)
    (hhandlers : s'.handlers = Function.update s.handlers conn handle)
    (hconn : conn < s'.accepted) (haccepted : s.accepted ≤ s'.accepted)
    (hcalls : s'.calls = s.calls) (hcalled : s'.called = s.called)
    (hkept : ∀ call, handle ≠ .ended (.handedOver call))
    (hrouted : ∀ other, other ≠ conn → s'.routed other = s.routed other)
    (hroute : ∀ l, handle.route = some l → s'.routed conn = some l)
    (hclosed : ∀ other, other ≠ conn → s'.closed other = s.closed other)
    (hend : s'.closed conn = true ↔ ∃ failure,
      handle = .ended (.failed failure) ∧ failure ≠ .listenerClosed) :
    s'.Inv where
  routed other l hl := by
    rw [hhandlers] at hl
    by_cases hsame : other = conn
    · subst hsame
      rw [Function.update_self] at hl
      exact hroute l hl
    · rw [Function.update_of_ne hsame] at hl
      rw [hrouted other hsame]
      exact hinv.routed other l hl
  held call other := by
    rw [hcalls, hhandlers, hinv.held]
    by_cases hsame : other = conn
    · subst hsame
      rw [Function.update_self]
      exact iff_of_false (hbefore _) (hkept call)
    · rw [Function.update_of_ne hsame]
  handed other call hother := by
    rw [hhandlers] at hother
    by_cases hsame : other = conn
    · subst hsame
      rw [Function.update_self] at hother
      exact absurd hother (hkept call)
    · rw [Function.update_of_ne hsame] at hother
      rw [hrouted other hsame, hcalls]
      exact hinv.handed other call hother
  closed other := by
    rw [hhandlers]
    by_cases hsame : other = conn
    · subst hsame
      rw [Function.update_self]
      exact hend
    · rw [Function.update_of_ne hsame, hclosed other hsame]
      exact hinv.closed other
  fresh other hother := by
    have hsame : other ≠ conn := by omega
    rw [hhandlers, Function.update_of_ne hsame]
    exact hinv.fresh other (by omega)
  notCalled := by
    rw [hcalls, hcalled]
    exact hinv.notCalled

/-- A call of `Accept` goes on with what it has received. -/
theorem Inv.accepts {s' : State} (hinv : s.Inv) {call : Nat}
    {acceptCall : AcceptCall} (hhandlers : s'.handlers = s.handlers)
    (haccepted : s'.accepted = s.accepted)
    (hcalls : s'.calls = Function.update s.calls call acceptCall)
    (hcall : call < s'.called) (hcalled : s.called ≤ s'.called)
    (hclosed : s'.closed = s.closed) (hrouted : s'.routed = s.routed)
    (hconn : acceptCall.phase.conn = (s.calls call).phase.conn)
    (hlistener : (s.calls call).phase.conn ≠ none →
      acceptCall.listener = (s.calls call).listener) : s'.Inv where
  routed := by
    rw [hhandlers, hrouted]
    exact hinv.routed
  held other conn := by
    rw [hhandlers, hcalls, ← hinv.held other conn]
    by_cases hother : other = call
    · subst hother
      rw [Function.update_self, hconn]
    · rw [Function.update_of_ne hother]
  handed conn other hended := by
    rw [hhandlers] at hended
    rw [hrouted, hcalls, hinv.handed conn other hended]
    by_cases hother : other = call
    · subst hother
      have hheld := (hinv.held other conn).mpr hended
      rw [Function.update_self, hlistener (by simp [hheld])]
    · rw [Function.update_of_ne hother]
  closed := by
    rw [hhandlers, hclosed]
    exact hinv.closed
  fresh := by
    rw [hhandlers, haccepted]
    exact hinv.fresh
  notCalled other hother := by
    have hne : other ≠ call := by omega
    rw [hcalls, Function.update_of_ne hne]
    exact hinv.notCalled other (Nat.le_trans hcalled hother)

theorem Inv.lt_called (hinv : s.Inv) {call : Nat}
    (hphase : (s.calls call).phase ≠ .idle) : call < s.called := by
  by_contra hnew
  exact hphase (hinv.notCalled call (Nat.le_of_not_lt hnew))

theorem Inv.connect (hinv : s.Inv) :
    ({ s.setHandler s.accepted .deadline with
      accepted := s.accepted + 1 } : State).Inv := by
  have hbefore : ∀ ending, s.handlers s.accepted ≠ .ended ending := by
    simp [hinv.fresh s.accepted (Nat.le_refl _)]
  refine hinv.advance hbefore rfl (Nat.lt_succ_self _) (Nat.le_succ _) rfl rfl
    (by simp) (fun _ _ => rfl) (fun _ hl => by cases hl) (fun _ _ => rfl) ?_
  refine iff_of_false (hinv.not_closed hbefore) ?_
  rintro ⟨failure, hended, _⟩
  cases hended

/-- The connection goes from the `handle` to the `Accept`. -/
theorem Inv.handOver (hinv : s.Inv) {conn call l : Nat}
    (hsending : s.handlers conn = .sending l)
    (hcall : s.calls call = ⟨l, .receiving⟩) :
    ((s.setHandler conn (.ended (.handedOver call))).setCall call
      ⟨l, received conf conn⟩).Inv := by
  have hreceived : (received conf conn).conn = some conn := by
    unfold received
    split
    · rfl
    · rfl
  have hopen : (s.calls call).phase.conn = none := by
    rw [hcall]
    rfl
  constructor
  · intro other l' hl'
    by_cases hconn : other = conn
    · subst hconn
      simp [State.setCall, State.setHandler, Handle.route] at hl'
    · simp only [State.setCall, State.setHandler,
        Function.update_of_ne hconn] at hl'
      exact hinv.routed other l' hl'
  · intro call' other
    have hbefore := hinv.held call' other
    simp only [State.setCall, State.setHandler]
    by_cases hsame : call' = call
    · subst hsame
      rw [Function.update_self, hreceived]
      by_cases hconn : other = conn
      · subst hconn
        simp
      · rw [Function.update_of_ne hconn, ← hbefore, hopen]
        simp [Ne.symm hconn]
    · rw [Function.update_of_ne hsame, hbefore]
      by_cases hconn : other = conn
      · subst hconn
        simp [hsending, Ne.symm hsame]
      · rw [Function.update_of_ne hconn]
  · intro other call' hended
    simp only [State.setCall, State.setHandler] at hended ⊢
    by_cases hconn : other = conn
    · subst hconn
      rw [Function.update_self, Handle.ended.injEq,
        Ending.handedOver.injEq] at hended
      subst hended
      rw [Function.update_self]
      exact hinv.routed other l (by rw [hsending]; rfl)
    · rw [Function.update_of_ne hconn] at hended
      have hheld := (hinv.held call' other).mpr hended
      have hsame : call' ≠ call := by
        rintro rfl
        rw [hopen] at hheld
        cases hheld
      rw [Function.update_of_ne hsame]
      exact hinv.handed other call' hended
  · intro other
    have hbefore := hinv.closed other
    simp only [State.setCall, State.setHandler]
    by_cases hconn : other = conn
    · subst hconn
      simpa [hsending] using hbefore
    · rw [Function.update_of_ne hconn]
      exact hbefore
  · intro other hother
    have hidle := hinv.fresh other hother
    have hconn : other ≠ conn := by
      rintro rfl
      rw [hsending] at hidle
      cases hidle
    simp only [State.setCall, State.setHandler, Function.update_of_ne hconn]
    exact hidle
  · intro call' hother
    have hidle := hinv.notCalled call' hother
    have hsame : call' ≠ call := by
      rintro rfl
      rw [hcall] at hidle
      cases hidle
    simp only [State.setCall, Function.update_of_ne hsame]
    exact hidle

theorem inv_newMuxer : newMuxer.Inv where
  routed conn l hl := by cases hl
  held call conn := by simp [newMuxer, AcceptPhase.conn]
  handed conn call hended := by cases hended
  closed conn := by simp [newMuxer]
  fresh _ _ := rfl
  notCalled _ _ := rfl

theorem Inv.step {s' : State} {action : Action} (hinv : s.Inv)
    (hstep : MuxHandle.step conf s action = some s') : s'.Inv := by
  cases steps_of_step hstep with
  | table => exact { hinv with }
  | connect => exact hinv.connect
  | @advances _ conn _ handle hbefore hmoves hrunning hroute =>
      obtain rfl := hbefore
      refine hinv.advance (ne_ended hmoves) rfl (hinv.lt_accepted hmoves)
        (Nat.le_refl _) rfl rfl
        (fun call => ne_ended hrunning _) (fun _ _ => rfl) ?_
        (fun _ _ => rfl) ?_
      · intro l hl
        exact hinv.routed conn l (hroute ▸ hl)
      · refine iff_of_false (hinv.not_closed (ne_ended hmoves)) ?_
        rintro ⟨failure, hended, _⟩
        exact ne_ended hrunning _ hended
  | @found conn l _ hbefore hmoves =>
      obtain rfl := hbefore
      obtain ⟨hrunning, hroute⟩ := running_afterFound conf s l
      refine hinv.advance (ne_ended hmoves) rfl (hinv.lt_accepted hmoves)
        (Nat.le_refl _) rfl rfl
        (fun call => ne_ended hrunning _) ?_ ?_ (fun _ _ => rfl) ?_
      · intro other hother
        exact Function.update_of_ne hother _ _
      · intro l' hl'
        rw [hroute] at hl'
        rw [← hl']
        exact Function.update_self _ _ _
      · refine iff_of_false (hinv.not_closed (ne_ended hmoves)) ?_
        rintro ⟨failure, hended, _⟩
        exact ne_ended hrunning _ hended
  | @fails _ conn _ failure hbefore hmoves hfailure =>
      obtain rfl := hbefore
      refine hinv.advance (ne_ended hmoves) rfl (hinv.lt_accepted hmoves)
        (Nat.le_refl _) rfl rfl (by simp)
        (fun _ _ => rfl) (fun _ hl => by cases hl) ?_ ?_
      · intro other hother
        exact Function.update_of_ne hother _ _
      · refine iff_of_true (Function.update_self _ _ _) ?_
        exact ⟨failure, rfl, hfailure⟩
  | @panics conn call l hsending =>
      have hmoves : (s.handlers conn).running = true := by
        rw [hsending]
        rfl
      refine hinv.advance (ne_ended hmoves) rfl (hinv.lt_accepted hmoves)
        (Nat.le_refl _) rfl rfl (by simp) (fun _ _ => rfl)
        (fun _ hl => by cases hl) (fun _ _ => rfl) ?_
      refine iff_of_false (hinv.not_closed (ne_ended hmoves)) ?_
      rintro ⟨failure, hended, hne⟩
      simp only [Handle.ended.injEq, Ending.failed.injEq] at hended
      exact hne hended.symm
  | handsOver hsending hopen hcall => exact hinv.handOver hsending hcall
  | @accept l =>
      have hidle := hinv.notCalled s.called (Nat.le_refl _)
      refine hinv.accepts rfl rfl rfl (Nat.lt_succ_self _)
        (Nat.le_succ _) rfl rfl ?_ ?_
      · rw [hidle]
        rfl
      · intro hconn
        rw [hidle] at hconn
        exact absurd rfl hconn
  | acceptClosed hphase =>
      refine hinv.accepts rfl rfl rfl (hinv.lt_called (by simp [hphase]))
        (Nat.le_refl _) rfl rfl ?_ (fun _ => rfl)
      rw [hphase]
      rfl
  | @rewrites call conn ok hphase =>
      refine hinv.accepts rfl rfl rfl (hinv.lt_called (by simp [hphase]))
        (Nat.le_refl _) rfl rfl ?_ (fun _ => rfl)
      rw [hphase]
      cases ok with
      | true => rfl
      | false => rfl

/-- A change of one running `handle` takes nothing back. -/
theorem spoiled_setHandler (s : State) {conn : Nat} (handle : Handle)
    (hbefore : s.handlers conn ≠ .ended (.failed .listenerClosed)) :
    (s.setHandler conn handle).Spoiled ↔
      s.Spoiled ∨ handle = .ended (.failed .listenerClosed) := by
  have hhandle : (∃ other, Function.update s.handlers conn handle other =
      .ended (.failed .listenerClosed)) ↔
        (∃ other, s.handlers other = .ended (.failed .listenerClosed)) ∨
          handle = .ended (.failed .listenerClosed) := by
    constructor
    · rintro ⟨other, hother⟩
      by_cases hconn : other = conn
      · subst hconn
        rw [Function.update_self] at hother
        exact Or.inr hother
      · rw [Function.update_of_ne hconn] at hother
        exact Or.inl ⟨other, hother⟩
    · rintro (⟨other, hother⟩ | hsame)
      · have hconn : other ≠ conn := by
          rintro rfl
          exact hbefore hother
        exact ⟨other, by rw [Function.update_of_ne hconn, hother]⟩
      · exact ⟨conn, by rw [Function.update_self, hsame]⟩
  rw [Spoiled, setHandler, hhandle, Spoiled]
  exact or_right_comm

/-- Nor does a change of one call. -/
theorem spoiled_setCall (s : State) {call : Nat} (acceptCall : AcceptCall)
    (hbefore : ∀ conn, (s.calls call).phase ≠ .rewriteFailed conn) :
    (s.setCall call acceptCall).Spoiled ↔
      s.Spoiled ∨ ∃ conn, acceptCall.phase = .rewriteFailed conn := by
  have hcall : (∃ other conn, (Function.update s.calls call acceptCall
      other).phase = .rewriteFailed conn) ↔
        (∃ other conn, (s.calls other).phase = .rewriteFailed conn) ∨
          ∃ conn, acceptCall.phase = .rewriteFailed conn := by
    constructor
    · rintro ⟨other, conn, hother⟩
      by_cases hsame : other = call
      · subst hsame
        rw [Function.update_self] at hother
        exact Or.inr ⟨conn, hother⟩
      · rw [Function.update_of_ne hsame] at hother
        exact Or.inl ⟨other, conn, hother⟩
    · rintro (⟨other, conn, hother⟩ | ⟨conn, hphase⟩)
      · have hsame : other ≠ call := by
          rintro rfl
          exact hbefore conn hother
        exact ⟨other, conn, by rw [Function.update_of_ne hsame, hother]⟩
      · exact ⟨call, conn, by rw [Function.update_self, hphase]⟩
  rw [Spoiled, setCall, hcall, Spoiled]
  exact or_assoc.symm

/-- The step goes wrong here or something had gone wrong before. -/
theorem spoiled_iff_of_steps {s' : State} {action : Action} (hinv : s.Inv)
    (hsteps : s.Steps conf action s') :
    s'.Spoiled ↔ s.Spoiled ∨ ¬ Orderly s action := by
  cases hsteps with
  | table _ _ _ _ horderly =>
      exact (or_iff_left (not_not.mpr horderly)).symm
  | connect =>
      have hidle := hinv.fresh s.accepted (Nat.le_refl _)
      refine (s.spoiled_setHandler .deadline (by simp [hidle])).trans ?_
      simp [Orderly]
  | @advances _ conn _ handle hbefore hmoves hrunning _ horderly =>
      obtain rfl := hbefore
      refine (s.spoiled_setHandler handle (ne_ended hmoves _)).trans ?_
      simp [horderly, ne_ended hrunning]
  | @found conn l _ hbefore hmoves =>
      obtain rfl := hbefore
      have hafter := (running_afterFound conf s l).1
      refine (s.spoiled_setHandler _ (ne_ended hmoves _)).trans ?_
      simp [Orderly, ne_ended hafter]
  | @fails _ conn _ failure hbefore hmoves hfailure horderly =>
      obtain rfl := hbefore
      refine (s.spoiled_setHandler _ (ne_ended hmoves _)).trans ?_
      simp [horderly, hfailure]
  | panics hsending hclosed =>
      refine (s.spoiled_setHandler _ (by simp [hsending])).trans ?_
      simp [Orderly, listening, hsending, hclosed]
  | @handsOver conn call l hsending hopen hcall =>
      have hreceived : ∀ other, received conf conn ≠ .rewriteFailed other := by
        intro other
        unfold received
        split <;> simp
      refine (spoiled_setCall _ _ (by simp [setHandler, hcall])).trans ?_
      rw [s.spoiled_setHandler _ (by simp [hsending])]
      simp [Orderly, listening, hsending, hopen, hreceived]
  | @accept l =>
      have hidle := hinv.notCalled s.called (Nat.le_refl _)
      refine (s.spoiled_setCall ⟨l, .receiving⟩ (by simp [hidle])).trans ?_
      simp [Orderly]
  | acceptClosed hphase =>
      refine (s.spoiled_setCall _ (by simp [hphase])).trans ?_
      simp [Orderly]
  | @rewrites call conn ok hphase =>
      refine (s.spoiled_setCall _ (by simp [hphase])).trans ?_
      cases ok with
      | true => simp [Orderly]
      | false => simp [Orderly]

/-- A `handle` only ever waits for an `Accept`. -/
theorem waiting (hquiet : s.Quiescent conf) {conn : Nat}
    (hrunning : (s.handlers conn).running = true) :
    ∃ l, s.handlers conn = .sending l ∧ (s.listeners l).acceptClosed = false ∧
      ∀ call, s.calls call ≠ ⟨l, .receiving⟩ := by
  cases hhandle : s.handlers conn with
  | idle =>
      rw [hhandle] at hrunning
      cases hrunning
  | ended ending =>
      rw [hhandle] at hrunning
      cases hrunning
  | deadline =>
      have hstep := hquiet (.setDeadline conn true) rfl
      simp [step, hhandle] at hstep
  | parsing =>
      have hstep := hquiet (.vhostFunc conn none) rfl
      simp [step, hhandle] at hstep
  | routing path scopes =>
      have hstep := hquiet (.get conn) rfl
      cases scopes with
      | nil => simp [step, hhandle] at hstep
      | cons scope rest =>
          simp only [step, hhandle] at hstep
          split at hstep
          · cases hstep
          · cases hstep
  | succeeding l =>
      have hstep := hquiet (.successFunc conn true) rfl
      simp [step, hhandle] at hstep
  | authorizing l =>
      have hstep := hquiet (.authFunc conn true true) rfl
      simp [step, hhandle] at hstep
  | clearing l =>
      have hstep := hquiet (.clearDeadline conn true) rfl
      simp [step, hhandle] at hstep
  | sending l =>
      have hopen : (s.listeners l).acceptClosed = false := by
        have hstep := hquiet (.send conn 0) rfl
        simp only [step, hhandle] at hstep
        split at hstep
        · cases hstep
        · next hopen => simpa using hopen
      refine ⟨l, rfl, hopen, ?_⟩
      intro call hcall
      have hstep := hquiet (.send conn call) rfl
      simp [step, hhandle, hopen, hcall] at hstep

theorem delivered_iff (hinv : s.Inv) : s.Delivered conf ↔ ¬ s.Spoiled := by
  constructor
  · rintro hdelivered (⟨conn, hended⟩ | ⟨call, conn, hphase⟩)
    · have hclosed := hdelivered.failing conn _ hended
      obtain ⟨failure, hended', hne⟩ := (hinv.closed conn).mp hclosed
      rw [hended, Handle.ended.injEq, Ending.failed.injEq] at hended'
      exact hne hended'.symm
    · have hended := (hinv.held call conn).mp (by rw [hphase]; rfl)
      -- whoever holds the connection is the call that failed
      have honly : ∀ other, (s.calls other).phase.conn = some conn →
          (s.calls other).phase = .rewriteFailed conn := by
        intro other hother
        have hended' := (hinv.held other conn).mp hother
        rw [hended, Handle.ended.injEq, Ending.handedOver.injEq] at hended'
        rw [← hended', hphase]
      have hsettled : ∀ other, (s.calls other).phase ≠ .rewriting conn := by
        intro other hother
        have hfailed := honly other (by rw [hother]; rfl)
        rw [hother] at hfailed
        cases hfailed
      rcases hdelivered.once conn _ hended hsettled with
        ⟨hclosed, _⟩ | ⟨_, other, hother, _⟩
      · obtain ⟨failure, hended', _⟩ := (hinv.closed conn).mp hclosed
        rw [hended] at hended'
        cases hended'
      · have hfailed := honly other (by rw [hother]; rfl)
        rw [hother] at hfailed
        cases hfailed
  · intro hclean
    simp only [Spoiled, not_or, not_exists] at hclean
    obtain ⟨hopen, hrewritten⟩ := hclean
    have hfailing : ∀ conn failure,
        s.handlers conn = .ended (.failed failure) → s.closed conn = true := by
      intro conn failure hended
      refine (hinv.closed conn).mpr ⟨failure, hended, ?_⟩
      rintro rfl
      exact hopen conn hended
    refine ⟨?_, ?_, hfailing, ?_, fun hquiet conn => waiting hquiet⟩
    · intro conn hrunning
      refine ⟨by simpa using hinv.not_closed (ne_ended hrunning), ?_⟩
      intro call hconn
      exact ne_ended hrunning _ ((hinv.held call conn).mp hconn)
    · intro conn ending hended hsettled
      cases ending with
      | failed failure =>
          refine Or.inl ⟨hfailing conn failure hended, ?_⟩
          intro call hreturned
          have hheld := (hinv.held call conn).mp (by rw [hreturned]; rfl)
          rw [hended] at hheld
          cases hheld
      | handedOver call =>
          have hconn := (hinv.held call conn).mpr hended
          right
          constructor
          · rw [Bool.eq_false_iff]
            intro hclosed
            obtain ⟨failure, hended', _⟩ := (hinv.closed conn).mp hclosed
            rw [hended] at hended'
            cases hended'
          · refine ⟨call, ?_, ?_⟩
            · have hnot := hsettled call
              have hnot' := hrewritten call conn
              cases hphase : (s.calls call).phase with
              | idle | receiving | listenerClosed =>
                  simp [hphase, AcceptPhase.conn] at hconn
              | rewriting other | returned other | rewriteFailed other =>
                  simp_all [AcceptPhase.conn]
            · intro other hother
              have hended' := (hinv.held other conn).mp (by rw [hother]; rfl)
              rw [hended, Handle.ended.injEq,
                Ending.handedOver.injEq] at hended'
              exact hended'.symm
    · intro call conn hconn
      exact hinv.handed conn call ((hinv.held call conn).mp hconn)

end State

theorem inv_of_reaches {conf : MuxConf} {word : List Action} {s : State}
    (hreaches : (system conf).Reaches word s) : s.Inv :=
  System.Reaches.invariant State.inv_newMuxer
    (fun _ _ _ hinv hstep => hinv.step hstep) hreaches

theorem run_iff_not_spoiled {conf : MuxConf} {word : List Action} {s : State}
    (hreaches : (system conf).Reaches word s) :
    (system conf).Run Orderly word s ↔ ¬ s.Spoiled := by
  refine hreaches.run_iff_not_marked ?_ ?_
  · simp [system, newMuxer, State.Spoiled]
  · intro word s s' action hbefore hstep
    exact State.spoiled_iff_of_steps (inv_of_reaches hbefore)
      (State.steps_of_step hstep)

/-- The muxer loses no connection exactly in the runs of which every step is
orderly. -/
theorem delivered_iff_orderly (conf : MuxConf) {word : List Action} {s : State}
    (hreaches : (system conf).Reaches word s) :
    s.Delivered conf ↔ (system conf).Run Orderly word s := by
  rw [State.delivered_iff (inv_of_reaches hreaches)]
  exact (run_iff_not_spoiled hreaches).symm

/-- As for https: nothing to answer, to check or to rewrite. -/
def httpsConf : MuxConf := ⟨asciiToLower, false, false, false⟩

def exampleCfg : RouteConfig RealConn :=
  ⟨ascii "example.com", [], [], [], [], [], [], none⟩

/-- A connection for `example.com` on its way to the listener. -/
def routedWord : List Action :=
  [.listen exampleCfg, .accept 0, .connect, .setDeadline 0 true,
    .vhostFunc 0 (some ⟨ascii "example.com", [], []⟩), .get 0,
    .clearDeadline 0 true]

theorem delivered_iff_orderly_send :
    ∃ s, (system httpsConf).Reaches (routedWord ++ [.send 0 0]) s ∧
      (s.calls 0).phase = .returned 0 ∧ s.Delivered httpsConf := by
  obtain ⟨s, hrun, hphase⟩ : ∃ s, (system httpsConf).Run Orderly
      (routedWord ++ [.send 0 0]) s ∧ (s.calls 0).phase = .returned 0 :=
    System.exists_run_of_replay (by decide)
  exact ⟨s, hrun.reaches, hphase,
    (delivered_iff_orderly httpsConf hrun.reaches).mpr hrun⟩

/-- The listener is closed before the send, or the host cannot be rewritten: the
connection is nobody's and open. -/
theorem not_delivered_closeAccept :
    (∃ s, (system httpsConf).Reaches
        (routedWord ++ [.close 0, .closeAccept 0, .send 0 0]) s ∧
      s.handlers 0 = .ended (.failed .listenerClosed) ∧
      s.closed 0 = false ∧ ¬ s.Delivered httpsConf) ∧
    (∃ s, (system { httpsConf with rewriteFunc := true }).Reaches
        (routedWord ++ [.send 0 0, .rewriteFunc 0 false]) s ∧
      (s.calls 0).phase = .rewriteFailed 0 ∧ s.closed 0 = false ∧
      ¬ s.Delivered { httpsConf with rewriteFunc := true }) := by
  constructor
  · obtain ⟨s, hreaches, hended, hopen⟩ : ∃ s, (system httpsConf).Reaches
        (routedWord ++ [.close 0, .closeAccept 0, .send 0 0]) s ∧
        s.handlers 0 = .ended (.failed .listenerClosed) ∧
        s.closed 0 = false :=
      System.exists_reaches_of_exec (by decide)
    refine ⟨s, hreaches, hended, hopen, ?_⟩
    rw [State.delivered_iff (inv_of_reaches hreaches), not_not]
    exact Or.inl ⟨0, hended⟩
  · obtain ⟨s, hreaches, hphase, hopen⟩ : ∃ s,
        (system { httpsConf with rewriteFunc := true }).Reaches
          (routedWord ++ [.send 0 0, .rewriteFunc 0 false]) s ∧
        (s.calls 0).phase = .rewriteFailed 0 ∧ s.closed 0 = false :=
      System.exists_reaches_of_exec (by decide)
    refine ⟨s, hreaches, hphase, hopen, ?_⟩
    rw [State.delivered_iff (inv_of_reaches hreaches), not_not]
    exact Or.inr ⟨0, 0, hphase⟩

end MuxHandle

end Frp
