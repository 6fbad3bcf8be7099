/-
How the connections of a TCP group come to its members, `server/group/tcp.go`: the
worker accepts from the real listener and sends on the channel that all members
receive from, each with a select on its own closing channel.
-/
import Frp.Lib.System
import Mathlib.Data.List.Perm.Basic

namespace Frp

open Transition

namespace TCPAccept

/-- `Close` of a member: not called, past `close(closeCh)`, past
`close(acceptCh)` as the last member, returned. -/
inductive CloseCall where
  | idle
  | called
  | closing
  | returned
deriving DecidableEq, Repr

/-- A member with the loop of `startListenHandler` that accepts for it. -/
structure Member where
  close : CloseCall
  accepting : Bool
deriving DecidableEq, Repr

/-- `closeCh` is closed by the first statement of `Close`. -/
def Member.closeChClosed (member : Member) : Bool := member.close ≠ .idle

/-- The worker waits for a connection, has one to send, or has ended. -/
inductive Worker where
  | accepting
  | sending (conn : Nat)
  | ended
deriving DecidableEq, Repr

/-- A connection that the `Accept` of a member has returned, with how far the
`Close` of the member was then. -/
structure Delivery where
  conn : Nat
  member : Nat
  close : CloseCall
deriving DecidableEq, Repr

/-- A group from the `Listen` of its first member on.  Connections are numbered
as they are accepted; `dropped` are those that nobody holds any more and that
nobody has closed. -/
structure State where
  members : Nat → Member
  joined : Nat
  lns : List Nat
  acceptChClosed : Bool
  tcpLnClosed : Bool
  worker : Worker
  accepted : Nat
  returned : List Delivery
  dropped : List Nat

/-- `connect` and `acceptFails` are what the real listener answers the worker,
`panicked` is the send on a closed channel, `receive` and `stop` are the cases of
a select, and `closeListener` and `closeReal` the two halves of the rest of
`Close`, of which only the last member has the second. -/
inductive Action where
  | connect
  | acceptFails
  | panicked
  | receive (ln : Nat)
  | stop (ln : Nat)
  | join
  | close (ln : Nat)
  | closeListener (ln : Nat)
  | closeReal (ln : Nat)
deriving DecidableEq, Repr

def newMember : Member := ⟨.idle, true⟩

def init : State where
  members _ := newMember
  joined := 1
  lns := [0]
  acceptChClosed := false
  tcpLnClosed := false
  worker := .accepting
  accepted := 0
  returned := []
  dropped := []

def State.setMember (s : State) (ln : Nat) (member : Member) : State :=
  { s with members := Function.update s.members ln member }

/-- The connection that the worker has in hand. -/
def State.hand (s : State) : List Nat :=
  match s.worker with
  | .sending conn => [conn]
  | .accepting | .ended => []

def step (s : State) : Action → Option State
  | .connect =>
      match s.worker with
      | .accepting =>
          if s.tcpLnClosed then none
          else some { s with
            worker := .sending s.accepted
            accepted := s.accepted + 1 }
      | .sending _ | .ended => none
  | .acceptFails =>
      match s.worker with
      | .accepting => some { s with worker := .ended }
      | .sending _ | .ended => none
  | .panicked =>
      match s.worker with
      | .sending conn =>
          if s.acceptChClosed then
            some { s with worker := .ended, dropped := conn :: s.dropped }
          else none
      | .accepting | .ended => none
  | .receive ln =>
      match s.worker with
      | .sending conn =>
          if ln < s.joined ∧ (s.members ln).accepting ∧ ¬ s.acceptChClosed then
            some { s with
              worker := .accepting
              returned := ⟨conn, ln, (s.members ln).close⟩ :: s.returned }
          else none
      | .accepting | .ended => none
  | .stop ln =>
      if ln < s.joined ∧ (s.members ln).accepting ∧
          ((s.members ln).closeChClosed ∨ s.acceptChClosed) then
        some (s.setMember ln { s.members ln with accepting := false })
      else none
  | .join =>
      if s.lns = [] then none
      else some { s.setMember s.joined newMember with
        joined := s.joined + 1
        lns := s.lns ++ [s.joined] }
  | .close ln =>
      if ln < s.joined ∧ (s.members ln).close = .idle then
        some (s.setMember ln { s.members ln with close := .called })
      else none
  | .closeListener ln =>
      if (s.members ln).close = .called then
        if s.lns.erase ln = [] then
          some { s.setMember ln { s.members ln with close := .closing } with
            lns := []
            acceptChClosed := true }
        else
          some { s.setMember ln { s.members ln with close := .returned } with
            lns := s.lns.erase ln }
      else none
  | .closeReal ln =>
      if (s.members ln).close = .closing then
        some { s.setMember ln { s.members ln with close := .returned } with
          tcpLnClosed := true }
      else none

def system : System State Action where
  start := init
  step := step

/-- What the goroutines do without a connection, a new member or a call of
`Close` from outside. -/
def Action.internal : Action → Bool
  | .panicked | .receive _ | .stop _ | .closeListener _ | .closeReal _ => true
  | .connect | .acceptFails | .join | .close _ => false

/-- No goroutine has anything left to do. -/
def State.Quiescent (s : State) : Prop :=
  ∀ action : Action, action.internal → step s action = none

/-- Every connection is in one place only: in the hand of the worker or returned
by an `Accept`, and that of a member whose `Close` had not been called.  When
nothing moves none is in hand. -/
structure State.Delivered (s : State) : Prop where
  held : (s.hand ++ s.returned.map Delivery.conn).Perm (List.range s.accepted)
  toOpen : ∀ delivery ∈ s.returned, delivery.close = .idle
  settled : s.Quiescent → s.hand = []

/-- The steps that go wrong are left out: a select with both cases ready takes
`closeCh`, the last member closes `acceptCh` while the worker has nothing to send,
and the real listener yields nothing between that and its own closing. -/
def Orderly (s : State) : Action → Prop
  | .receive ln => (s.members ln).closeChClosed = false
  | .closeListener ln => s.lns.erase ln = [] → s.hand = []
  | .connect => s.acceptChClosed = false
  | .acceptFails | .panicked | .stop _ | .join | .close _ | .closeReal _ => True

instance (s : State) : (action : Action) → Decidable (Orderly s action)
  | .receive ln =>
      inferInstanceAs (Decidable ((s.members ln).closeChClosed = false))
  | .closeListener ln =>
      inferInstanceAs (Decidable (s.lns.erase ln = [] → s.hand = []))
  | .connect => inferInstanceAs (Decidable (s.acceptChClosed = false))
  | .acceptFails | .panicked | .stop _ | .join | .close _ | .closeReal _ =>
      inferInstanceAs (Decidable True)

/-- A step that goes wrong has been taken. -/
def State.Spoiled (s : State) : Prop :=
  (∃ delivery ∈ s.returned, delivery.close ≠ .idle) ∨ s.dropped ≠ [] ∨
    (s.acceptChClosed = true ∧ s.hand ≠ [])

/-- A member of the list accepts, or its `Close` is about to take it out. -/
def Member.Serving (member : Member) : Prop :=
  (member.close = .idle ∧ member.accepting = true) ∨ member.close = .called

/-- What holds of the group whatever its select does. -/
structure State.Inv (s : State) : Prop where
  conserved : (s.hand ++ s.returned.map Delivery.conn ++ s.dropped).Perm
    (List.range s.accepted)
  nodup : s.lns.Nodup
  listed : ∀ ln ∈ s.lns, ln < s.joined ∧ (s.members ln).Serving
  closed : s.acceptChClosed = true ↔ s.lns = []

namespace State

@[simp] theorem setMember_self (s : State) (ln : Nat) (member : Member) :
    (s.setMember ln member).members ln = member := by
  simp [setMember]

theorem setMember_of_ne (s : State) {ln other : Nat} (member : Member)
    (hne : other ≠ ln) : (s.setMember ln member).members other =
      s.members other := by
  simp [setMember, hne]

@[simp] theorem hand_sending {s : State} {conn : Nat}
    (hworker : s.worker = .sending conn) : s.hand = [conn] := by
  simp [hand, hworker]

@[simp] theorem hand_accepting {s : State} (hworker : s.worker = .accepting) :
    s.hand = [] := by
  simp [hand, hworker]

theorem inv_init : init.Inv where
  conserved := by simp [init, hand]
  nodup := by simp [init]
  listed ln hln := by
    simp only [init, List.mem_singleton] at hln
    subst hln
    exact ⟨Nat.one_pos, Or.inl ⟨rfl, rfl⟩⟩
  closed := by simp [init]

/-- All that a step can do. -/
inductive Steps (s : State) : Action → State → Prop where
  | connect (hworker : s.worker = .accepting) (hopen : s.tcpLnClosed = false) :
      Steps s .connect { s with
        worker := .sending s.accepted
        accepted := s.accepted + 1 }
  | acceptFails (hworker : s.worker = .accepting) :
      Steps s .acceptFails { s with worker := .ended }
  | panicked {conn : Nat} (hworker : s.worker = .sending conn)
      (hclosed : s.acceptChClosed = true) :
      Steps s .panicked { s with
        worker := .ended
        dropped := conn :: s.dropped }
  | receive {conn ln : Nat} (hworker : s.worker = .sending conn)
      (hjoined : ln < s.joined) (haccepting : (s.members ln).accepting = true)
      (hopen : s.acceptChClosed = false) :
      Steps s (.receive ln) { s with
        worker := .accepting
        returned := ⟨conn, ln, (s.members ln).close⟩ :: s.returned }
  | stop {ln : Nat} (haccepting : (s.members ln).accepting = true)
      (hready : (s.members ln).close ≠ .idle ∨ s.acceptChClosed = true) :
      Steps s (.stop ln)
        (s.setMember ln { s.members ln with accepting := false })
  | join (hlns : s.lns ≠ []) :
      Steps s .join { s.setMember s.joined newMember with
        joined := s.joined + 1
        lns := s.lns ++ [s.joined] }
  | close {ln : Nat} (hjoined : ln < s.joined)
      (hidle : (s.members ln).close = .idle) :
      Steps s (.close ln)
        (s.setMember ln { s.members ln with close := .called })
  | last {ln : Nat} (hcalled : (s.members ln).close = .called)
      (hlast : s.lns.erase ln = []) :
      Steps s (.closeListener ln)
        { s.setMember ln { s.members ln with close := .closing } with
          lns := []
          acceptChClosed := true }
  | left {ln : Nat} (hcalled : (s.members ln).close = .called)
      (hmore : s.lns.erase ln ≠ []) :
      Steps s (.closeListener ln)
        { s.setMember ln { s.members ln with close := .returned } with
          lns := s.lns.erase ln }
  | closeReal {ln : Nat} (hclosing : (s.members ln).close = .closing) :
      Steps s (.closeReal ln)
        { s.setMember ln { s.members ln with close := .returned } with
          tcpLnClosed := true }

theorem steps_of_step {s s' : State} {action : Action}
    (hstep : step s action = some s') : s.Steps action s' := by
  cases action with
  | connect =>
      simp only [step] at hstep
      split at hstep
      · next hworker =>
          split at hstep
          · cases hstep
          · next hopen =>
              cases hstep
              exact .connect hworker (by simpa using hopen)
      · cases hstep
      · cases hstep
  | acceptFails =>
      simp only [step] at hstep
      split at hstep
      · next hworker =>
          cases hstep
          exact .acceptFails hworker
      · cases hstep
      · cases hstep
  | panicked =>
      simp only [step] at hstep
      split at hstep
      · next conn hworker =>
          split at hstep
          · next hclosed =>
              cases hstep
              exact .panicked hworker hclosed
          · cases hstep
      · cases hstep
      · cases hstep
  | receive ln =>
      simp only [step] at hstep
      split at hstep
      · next conn hworker =>
          split at hstep
          · next hready =>
              cases hstep
              exact .receive hworker hready.1 hready.2.1
                (by simpa using hready.2.2)
          · cases hstep
      · cases hstep
      · cases hstep
  | stop ln =>
      simp only [step] at hstep
      split at hstep
      · next hready =>
          cases hstep
          exact .stop hready.2.1 (by simpa [Member.closeChClosed] using hready.2.2)
      · cases hstep
  | join =>
      simp only [step] at hstep
      split at hstep
      · cases hstep
      · next hlns =>
          cases hstep
          exact .join hlns
  | close ln =>
      simp only [step] at hstep
      split at hstep
      · next hready =>
          cases hstep
          exact .close hready.1 hready.2
      · cases hstep
  | closeListener ln =>
      simp only [step] at hstep
      split at hstep
      · next hcalled =>
          split at hstep
          · next hlast =>
              cases hstep
              exact .last hcalled hlast
          · next hmore =>
              cases hstep
              exact .left hcalled hmore
      · cases hstep
  | closeReal ln =>
      simp only [step] at hstep
      split at hstep
      · next hclosing =>
          cases hstep
          exact .closeReal hclosing
      · cases hstep

/-- A connection goes from the real listener to the hand of the worker, and from
there to a member or to nobody. -/
theorem Inv.conserved_steps {s s' : State} {action : Action} (hinv : s.Inv)
    (hsteps : s.Steps action s') :
    (s'.hand ++ s'.returned.map Delivery.conn ++ s'.dropped).Perm
      (List.range s'.accepted) := by
  have hbefore := hinv.conserved
  cases hsteps with
  | connect hworker hopen =>
      rw [hand_accepting hworker] at hbefore
      rw [List.range_succ]
      exact (hbefore.cons s.accepted).trans
        (List.perm_append_singleton _ _).symm
  | acceptFails hworker =>
      rw [hand_accepting hworker] at hbefore
      exact hbefore
  | panicked hworker hclosed =>
      rw [hand_sending hworker] at hbefore
      exact List.perm_middle.trans hbefore
  | receive hworker hjoined haccepting hopen =>
      rw [hand_sending hworker] at hbefore
      exact hbefore
  | stop => exact hbefore
  | join => exact hbefore
  | close => exact hbefore
  | last => exact hbefore
  | left => exact hbefore
  | closeReal => exact hbefore

/-- The step goes wrong here or something had gone wrong before. -/
theorem spoiled_iff_of_steps {s s' : State} {action : Action}
    (hsteps : s.Steps action s') :
    s'.Spoiled ↔ s.Spoiled ∨ ¬ Orderly s action := by
  cases hsteps with
  | connect hworker hopen =>
      simp [Spoiled, Orderly, hand, hworker, or_assoc]
  | acceptFails hworker => simp [Spoiled, Orderly, hand, hworker]
  | panicked hworker hclosed =>
      simp [Spoiled, Orderly, hand, hworker, hclosed]
  | receive hworker hjoined haccepting hopen =>
      simp only [Spoiled, Orderly, hand, hworker, hopen, Member.closeChClosed,
        List.mem_cons, exists_eq_or_imp, ne_eq, not_true_eq_false, and_false,
        or_false, Bool.false_eq_true, false_and, decide_not,
        Bool.not_eq_eq_eq_not, Bool.not_false, decide_eq_true_eq]
      rw [or_assoc, or_comm]
  | last hcalled hlast =>
      simp only [Spoiled, Orderly, hlast, setMember, hand, true_and,
        forall_const]
      by_cases hhand : s.hand = []
      · simp_all [hand]
      · simp_all [hand]
  | left hcalled hmore =>
      simp [Spoiled, Orderly, hmore, setMember, hand]
  | stop | join | close | closeReal => simp [Spoiled, Orderly, setMember, hand]

/-- A change of one member leaves the others of the list serving. -/
theorem Inv.listed_setMember {s : State} (hinv : s.Inv) {ln : Nat}
    {member : Member} {lns : List Nat} (hsub : ∀ other ∈ lns, other ∈ s.lns)
    (hserving : ln ∈ lns → member.Serving) :
    ∀ other ∈ lns, other < s.joined ∧
      ((s.setMember ln member).members other).Serving := by
  intro other hother
  obtain ⟨hjoined, hbefore⟩ := hinv.listed other (hsub other hother)
  refine ⟨hjoined, ?_⟩
  by_cases hsame : other = ln
  · subst hsame
    rw [setMember_self]
    exact hserving hother
  · rw [setMember_of_ne s member hsame]
    exact hbefore

theorem Inv.step {s s' : State} {action : Action} (hinv : s.Inv)
    (hstep : TCPAccept.step s action = some s') : s'.Inv := by
  have hsteps := steps_of_step hstep
  have hconserved := hinv.conserved_steps hsteps
  cases hsteps with
  | connect | acceptFails | panicked | receive =>
      exact ⟨hconserved, hinv.nodup, hinv.listed, hinv.closed⟩
  | @stop ln haccepting hready =>
      refine ⟨hconserved, hinv.nodup,
        hinv.listed_setMember (fun _ => id) ?_, hinv.closed⟩
      intro hln
      have hlns : s.lns ≠ [] := List.ne_nil_of_mem hln
      rcases hready with hclosed | hclosed
      · rcases (hinv.listed ln hln).2 with ⟨hidle, -⟩ | hcalled
        · exact absurd hidle hclosed
        · exact Or.inr hcalled
      · exact absurd (hinv.closed.mp hclosed) hlns
  | join hlns =>
      have hnew : ∀ ln ∈ s.lns, ln ≠ s.joined := fun ln hln =>
        Nat.ne_of_lt (hinv.listed ln hln).1
      refine ⟨hconserved, ?_, ?_, ?_⟩
      · apply List.nodup_append.mpr
        refine ⟨hinv.nodup, by simp, ?_⟩
        intro ln hln other hother
        exact List.mem_singleton.mp hother ▸ hnew ln hln
      · intro ln hln
        rcases List.mem_append.mp hln with hold | hlast
        · obtain ⟨hjoined, hserving⟩ := hinv.listed ln hold
          refine ⟨Nat.lt_succ_of_lt hjoined, ?_⟩
          have hmember := setMember_of_ne s newMember (hnew ln hold)
          exact hmember.symm ▸ hserving
        · obtain rfl := List.mem_singleton.mp hlast
          refine ⟨Nat.lt_succ_self _, ?_⟩
          have hmember := setMember_self s s.joined newMember
          have hserving : newMember.Serving := Or.inl ⟨rfl, rfl⟩
          exact hmember.symm ▸ hserving
      · have hopen := hinv.closed
        simpa [setMember, hlns] using hopen
  | @close ln hjoined hidle =>
      exact ⟨hconserved, hinv.nodup,
        hinv.listed_setMember (fun _ => id) fun _ => Or.inr rfl, hinv.closed⟩
  | last hcalled hlast =>
      exact ⟨hconserved, List.nodup_nil, by simp, by simp⟩
  | @left ln hcalled hmore =>
      refine ⟨hconserved, hinv.nodup.erase ln,
        hinv.listed_setMember (fun _ => List.mem_of_mem_erase) ?_, ?_⟩
      · intro hln
        exact absurd hln hinv.nodup.not_mem_erase
      · have hlns : s.lns ≠ [] := by
          rintro hnil
          simp [hnil] at hmore
        have hopen := hinv.closed
        simp only [hlns, iff_false] at hopen
        simpa [setMember, hmore] using hopen
  | @closeReal ln hclosing =>
      refine ⟨hconserved, hinv.nodup,
        hinv.listed_setMember (fun _ => id) ?_, hinv.closed⟩
      intro hln
      rcases (hinv.listed ln hln).2 with ⟨hidle, -⟩ | hcalled
      · rw [hclosing] at hidle
        cases hidle
      · rw [hclosing] at hcalled
        cases hcalled

/-- The worker is never left with a connection: an open channel has a member in
the list that receives or leaves it, a closed one panics. -/
theorem Inv.settled {s : State} (hinv : s.Inv) (hquiet : s.Quiescent) :
    s.hand = [] := by
  cases hworker : s.worker with
  | accepting => exact hand_accepting hworker
  | ended => simp [hand, hworker]
  | sending conn =>
      cases hclosed : s.acceptChClosed with
      | true =>
          have hpanic := hquiet .panicked rfl
          simp [TCPAccept.step, hworker, hclosed] at hpanic
      | false =>
          have hlns : s.lns ≠ [] := by
            intro hnil
            rw [hinv.closed.mpr hnil] at hclosed
            cases hclosed
          obtain ⟨ln, hln⟩ := List.exists_mem_of_ne_nil _ hlns
          obtain ⟨hjoined, ⟨hidle, haccepting⟩ | hcalled⟩ := hinv.listed ln hln
          · have hreceive := hquiet (.receive ln) rfl
            simp [TCPAccept.step, hworker, hclosed, hjoined, haccepting]
              at hreceive
          · have hleave := hquiet (.closeListener ln) rfl
            simp only [TCPAccept.step, hcalled, if_true] at hleave
            split at hleave
            · cases hleave
            · cases hleave

theorem delivered_iff {s : State} (hinv : s.Inv) :
    s.Delivered ↔ (∀ delivery ∈ s.returned, delivery.close = .idle) ∧
      s.dropped = [] := by
  constructor
  · intro hdelivered
    refine ⟨hdelivered.toOpen, ?_⟩
    have hlength := hinv.conserved.length_eq
    rw [List.length_append, hdelivered.held.length_eq] at hlength
    exact List.length_eq_zero_iff.mp (by omega)
  · rintro ⟨hopen, hdropped⟩
    have hheld := hinv.conserved
    rw [hdropped, List.append_nil] at hheld
    exact ⟨hheld, hopen, hinv.settled⟩

end State

theorem inv_of_reaches {word : List Action} {s : State}
    (hreaches : system.Reaches word s) : s.Inv :=
  System.Reaches.invariant State.inv_init
    (fun _ _ _ hinv hstep => hinv.step hstep) hreaches

theorem run_iff_not_spoiled {word : List Action} {s : State}
    (hreaches : system.Reaches word s) :
    system.Run Orderly word s ↔ ¬ s.Spoiled := by
  refine hreaches.run_iff_not_marked ?_ ?_
  · simp [system, init, State.Spoiled]
  · intro word s s' action _ hstep
    exact State.spoiled_iff_of_steps (State.steps_of_step hstep)

/-- In every run of which every step is orderly the connections of the group go
to open members only, each to one; and a run that ends at rest with that has
taken no other steps. -/
theorem delivered_of_run (word : List Action) (s : State) :
    (system.Run Orderly word s → s.Delivered) ∧
    (system.Reaches word s → s.Quiescent →
      (s.Delivered ↔ system.Run Orderly word s)) := by
  have hforward : system.Run Orderly word s → s.Delivered := by
    intro hrun
    have hclean := (run_iff_not_spoiled hrun.reaches).mp hrun
    rw [State.delivered_iff (inv_of_reaches hrun.reaches)]
    simp only [State.Spoiled, not_or, not_exists, not_and, ne_eq,
      Decidable.not_not] at hclean
    exact ⟨hclean.1, hclean.2.1⟩
  refine ⟨hforward, ?_⟩
  intro hreaches hquiet
  refine ⟨?_, hforward⟩
  intro hdelivered
  have hinv := inv_of_reaches hreaches
  obtain ⟨hopen, hdropped⟩ := (State.delivered_iff hinv).mp hdelivered
  apply (run_iff_not_spoiled hreaches).mpr
  rintro (⟨delivery, hmem, hclosed⟩ | hsome | ⟨-, hhand⟩)
  · exact hclosed (hopen delivery hmem)
  · exact hsome hdropped
  · exact hhand (hinv.settled hquiet)

/-- Two members serve one connection each; then both leave. -/
def twoMembers : List Action :=
  [.join, .connect, .receive 1, .close 1, .stop 1, .closeListener 1, .connect,
    .receive 0, .close 0, .closeListener 0, .closeReal 0, .stop 0,
    .acceptFails]

theorem delivered_of_run_twoMembers :
    ∃ s, system.Run Orderly twoMembers s ∧ s.returned.length = 2 ∧
      s.Delivered := by
  obtain ⟨s, hrun, hlength⟩ : ∃ s, system.Run Orderly twoMembers s ∧
      s.returned.length = 2 :=
    System.exists_run_of_replay (by decide)
  exact ⟨s, hrun, hlength, (delivered_of_run twoMembers s).1 hrun⟩

/-- A member that has been closed takes a connection, and the last connection is
nobody's when the last member closes. -/
def closedMember : List Action :=
  [.join, .close 1, .closeListener 1, .connect, .receive 1, .connect, .close 0,
    .closeListener 0, .panicked]

theorem not_delivered_closedMember :
    ∃ s, system.Reaches closedMember s ∧
      s.returned = [⟨0, 1, .returned⟩] ∧ s.dropped = [1] ∧ ¬ s.Delivered := by
  obtain ⟨s, hreaches, hreturned, hdropped⟩ : ∃ s,
      system.Reaches closedMember s ∧ s.returned = [⟨0, 1, .returned⟩] ∧
        s.dropped = [1] :=
    System.exists_reaches_of_exec (by decide)
  refine ⟨s, hreaches, hreturned, hdropped, ?_⟩
  intro hdelivered
  have hidle := hdelivered.toOpen ⟨0, 1, .returned⟩ (by simp [hreturned])
  cases hidle

end TCPAccept

end Frp
