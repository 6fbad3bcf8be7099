/-
The work connections of a `UDPProxy` of frps, with the statements between
`GetWorkConnFromPool` and the wait on `checkCloseCh` taken one by one.  Everything
else is the machine of `UDPProxy`, whose `getWorkConn` is six of these steps in a
row.
-/
import Frp.Udp.UDPProxy

namespace Frp

open Transition GoChan

namespace Udp

namespace WorkConns

open UDPProxy (KeeperPc ReaderPc SenderPc)

/-- What the loop has in hand: a connection from the pool, with the old one
closed, with its stream set up, in `pxy.workConn`, with its reader started. -/
inductive Hand where
  | empty
  | got (conn : Nat)
  | emptied (conn : Nat)
  | wrapped (conn : Nat)
  | stored (conn : Nat)
  | reading (conn : Nat)
deriving DecidableEq

/-- A connection that the loop has not stored yet. -/
def Hand.carries : Hand → Option Nat
  | .got conn | .emptied conn | .wrapped conn => some conn
  | .empty | .stored _ | .reading _ => none

structure State where
  base : UDPProxy.State
  hand : Hand

/-- `base` is a step of another goroutine, or one of the loop with nothing in
hand. -/
inductive Action where
  | base (action : UDPProxy.Action)
  | obtain
  | closeOld
  | wrap (ok : Bool)
  | store
  | startReader
  | startSender
deriving DecidableEq

def run : State := ⟨UDPProxy.run, .empty⟩

namespace State

def setBase (s : State) (base : UDPProxy.State) : State :=
  { s with base := base }

def obtain (s : State) : Outcome State :=
  if s.base.keeper = .getConn ∧ s.hand = .empty then
    .done ⟨{ s.base with nextConn := s.base.nextConn + 1 },
      .got s.base.nextConn⟩
  else .block

def closeOld (s : State) : Outcome State :=
  match s.hand with
  | .got conn => .done ⟨s.base.closeWorkConn, .emptied conn⟩
  | _ => .block

/-- The connection is closed again when its stream cannot be set up. -/
def wrap (s : State) (ok : Bool) : Outcome State :=
  match s.hand with
  | .emptied conn =>
      if ok then .done ⟨s.base, .wrapped conn⟩
      else .done ⟨s.base.closeConn conn, .empty⟩
  | _ => .block

def store (s : State) : Outcome State :=
  match s.hand with
  | .wrapped conn =>
      .done ⟨{ s.base with workConn := some conn }, .stored conn⟩
  | _ => .block

/-- The goroutines are given `pxy.workConn`. -/
def startReader (s : State) : Outcome State :=
  match s.hand, s.base.workConn with
  | .stored conn, some i => .done ⟨s.base.setReader i .read, .reading conn⟩
  | _, _ => .block

def startSender (s : State) : Outcome State :=
  match s.hand, s.base.workConn with
  | .reading conn, some i =>
      .done ⟨{ s.base.setSender i .select with keeper := .wait conn }, .empty⟩
  | _, _ => .block

def other (bufSize : Nat) (s : State) (action : UDPProxy.Action) :
    Outcome State :=
  match action, s.hand with
  | .getWorkConn .failed, .empty =>
      (UDPProxy.attempt bufSize s.base action).map s.setBase
  | .getWorkConn _, _ => .block
  | _, _ => (UDPProxy.attempt bufSize s.base action).map s.setBase

end State

def attempt (bufSize : Nat) (s : State) : Action → Outcome State
  | .base action => s.other bufSize action
  | .obtain => s.obtain
  | .closeOld => s.closeOld
  | .wrap ok => s.wrap ok
  | .store => s.store
  | .startReader => s.startReader
  | .startSender => s.startSender

def system (bufSize : Nat) : System (Process State) Action :=
  Process.system run (attempt bufSize)

/-- The steps that `getWorkConn` takes at once. -/
def steps : UDPProxy.GetResult → List Action
  | .failed => [.base (.getWorkConn .failed)]
  | .badStream => [.obtain, .closeOld, .wrap false]
  | .conn =>
      [.obtain, .closeOld, .wrap true, .store, .startReader, .startSender]

/-- `getWorkConn` of the other machine is a run of this one. -/
theorem exec_steps (bufSize : Nat) {s s' : UDPProxy.State}
    {result : UDPProxy.GetResult} (hget : s.getWorkConn result = .done s') :
    (system bufSize).exec ⟨⟨s, .empty⟩, false⟩ (steps result) =
      some ⟨⟨s', .empty⟩, false⟩ := by
  have hkeeper : s.keeper = .getConn := by
    cases hkeeper : s.keeper with
    | getConn => rfl
    | _ => simp [UDPProxy.State.getWorkConn, hkeeper] at hget
  obtain ⟨forward, mu, isClosed, checkCloseCh, workConn, connClosed, nextConn,
    keeper, readers, senders, cancelled⟩ := s
  dsimp only at hkeeper
  subst hkeeper
  cases result with
  | failed =>
      cases hget
      rfl
  | badStream =>
      cases workConn with
      | none => cases hget; rfl
      | some old => cases hget; rfl
  | conn =>
      cases workConn with
      | none => cases hget; rfl
      | some old => cases hget; rfl

/-- `Close` has closed the work connection that it found. -/
def Passed (s : UDPProxy.State) : Prop :=
  s.isClosed = true ∧ s.mu ≠ some .workConn

instance (s : UDPProxy.State) : Decidable (Passed s) :=
  inferInstanceAs (Decidable (_ ∧ _))

/-- What a step outside of `getWorkConn` does to the work connections: it closes
that of a running goroutine or the stored one, and starts no goroutine. -/
structure Conns (s s' : UDPProxy.State) : Prop where
  nextConn : s'.nextConn = s.nextConn
  workConn : s'.workConn = s.workConn
  mono : ∀ i, s.connClosed i = true → s'.connClosed i = true
  closer : ∀ i, s'.connClosed i = true → s.connClosed i = true ∨
    s.readers i ≠ .idle ∨ s.senders i ≠ .idle ∨ s.workConn = some i
  readers : ∀ i, s.readers i = .idle → s'.readers i = .idle
  senders : ∀ i, s.senders i = .idle → s'.senders i = .idle
  keeper : s.keeper = .getConn → s'.keeper = .getConn
  passed : Passed s → Passed s'
  passing : Passed s' → Passed s ∨
    ∀ i, s.workConn = some i → s'.connClosed i = true

theorem idle_update {P : Type} {idle : P} {f f' : Nat → P} {i : Nat}
    (hafter : f' = f ∨ f i ≠ idle ∧ ∃ pc, f' = Function.update f i pc)
    (j : Nat) (hidle : f j = idle) : f' j = idle := by
  rcases hafter with rfl | ⟨hbusy, pc, rfl⟩
  · exact hidle
  · have hji : j ≠ i := by
      rintro rfl
      exact hbusy hidle
    rwa [Function.update_of_ne hji]

/-- A step of the goroutines of connection `i`, or of none. -/
theorem Conns.of_goroutine {s s' : UDPProxy.State} (i : Nat)
    (hnext : s'.nextConn = s.nextConn) (hwork : s'.workConn = s.workConn)
    (hclosed : s'.connClosed = s.connClosed ∨
      s'.connClosed = Function.update s.connClosed i true ∧
        (s.readers i ≠ .idle ∨ s.senders i ≠ .idle))
    (hreaders : s'.readers = s.readers ∨ s.readers i ≠ .idle ∧
      ∃ pc, s'.readers = Function.update s.readers i pc)
    (hsenders : s'.senders = s.senders ∨ s.senders i ≠ .idle ∧
      ∃ pc, s'.senders = Function.update s.senders i pc)
    (hkeeper : s.keeper = .getConn → s'.keeper = .getConn)
    (hmu : s'.mu = s.mu) (hisClosed : s'.isClosed = s.isClosed) :
    Conns s s' where
  nextConn := hnext
  workConn := hwork
  mono j hj := by
    rcases hclosed with hsame | ⟨hset, _⟩
    · rwa [hsame]
    · by_cases hji : j = i
      · rw [hset, hji, Function.update_self]
      · rwa [hset, Function.update_of_ne hji]
  closer j hj := by
    rcases hclosed with hsame | ⟨hset, hbusy⟩
    · exact Or.inl (by rwa [← hsame])
    · by_cases hji : j = i
      · rcases hbusy with hreader | hsender
        · exact Or.inr (Or.inl (hji ▸ hreader))
        · exact Or.inr (Or.inr (Or.inl (hji ▸ hsender)))
      · rw [hset, Function.update_of_ne hji] at hj
        exact Or.inl hj
  readers := idle_update hreaders
  senders := idle_update hsenders
  keeper := hkeeper
  passed hpassed := by rwa [Passed, hmu, hisClosed]
  passing hpassed := by
    rw [Passed, hmu, hisClosed] at hpassed
    exact Or.inl hpassed

/-- No step closes a connection that no goroutine serves and that is not
stored. -/
theorem Conns.stays_open {s s' : UDPProxy.State} (hconns : Conns s s') {c : Nat}
    (hopen : s.connClosed c = false) (hreader : s.readers c = .idle)
    (hsender : s.senders c = .idle) (hwork : s.workConn ≠ some c) :
    s'.connClosed c = false := by
  by_contra hclosed
  rcases hconns.closer c (by simpa using hclosed) with h | h | h | h
  · rw [hopen] at h
    cases h
  · exact h hreader
  · exact h hsender
  · exact hwork h

theorem Conns.forward (s : UDPProxy.State) (forward : ForwardUserConn) :
    Conns s (s.setForward forward) :=
  .of_goroutine 0 rfl rfl (.inl rfl) (.inl rfl) (.inl rfl) id rfl rfl

theorem Conns.check {s s' : UDPProxy.State} (hdone : s.check = .done s') :
    Conns s s' := by
  cases hkeeper : s.keeper with
  | check =>
      have hback : s.keeper = .getConn → s'.keeper = .getConn := by
        rw [hkeeper]
        exact fun h => by cases h
      simp only [UDPProxy.State.check, hkeeper] at hdone
      cases hrecv : s.checkCloseCh.recv <;> rw [hrecv] at hdone <;>
        cases hdone <;>
        exact .of_goroutine 0 rfl rfl (.inl rfl) (.inl rfl) (.inl rfl) hback rfl
          rfl
  | _ => simp [UDPProxy.State.check, hkeeper] at hdone

theorem Conns.waitClosed {s s' : UDPProxy.State}
    (hdone : s.waitClosed = .done s') : Conns s s' := by
  cases hkeeper : s.keeper with
  | wait conn =>
      have hback : s.keeper = .getConn → s'.keeper = .getConn := by
        rw [hkeeper]
        exact fun h => by cases h
      simp only [UDPProxy.State.waitClosed, hkeeper] at hdone
      cases hrecv : s.checkCloseCh.recv <;> rw [hrecv] at hdone <;>
        cases hdone <;>
        exact .of_goroutine 0 rfl rfl (.inl rfl) (.inl rfl) (.inl rfl) hback rfl
          rfl
  | _ => simp [UDPProxy.State.waitClosed, hkeeper] at hdone

theorem Conns.notify {s s' : UDPProxy.State} {i : Nat}
    (hdone : s.notify i = .done s') : Conns s s' := by
  cases hreader : s.readers i with
  | notify =>
      have hbusy : s.readers i ≠ .idle := by simp [hreader]
      simp only [UDPProxy.State.notify, hreader] at hdone
      cases hsend : s.checkCloseCh.send () with
      | panic =>
          rw [hsend] at hdone
          cases hdone
          exact .of_goroutine i rfl rfl (.inl rfl) (.inr ⟨hbusy, _, rfl⟩)
            (.inl rfl) id rfl rfl
      | done chan =>
          rw [hsend] at hdone
          cases hdone
          exact .of_goroutine i rfl rfl (.inl rfl) (.inr ⟨hbusy, _, rfl⟩)
            (.inl rfl) id rfl rfl
      | block =>
          rw [hsend] at hdone
          cases hkeeper : s.keeper <;> rw [hkeeper] at hdone <;> cases hdone <;>
            exact .of_goroutine i rfl rfl (.inl rfl) (.inr ⟨hbusy, _, rfl⟩)
              (.inl rfl) (fun _ => rfl) rfl rfl
  | _ => simp [UDPProxy.State.notify, hreader] at hdone

theorem Conns.reader {s s' : UDPProxy.State} {i : Nat} {input : Option WorkMsg}
    (hdone : s.workConnReader i input = .done s') : Conns s s' := by
  cases hreader : s.readers i with
  | read =>
      have hbusy : s.readers i ≠ .idle := by simp [hreader]
      simp only [UDPProxy.State.workConnReader, hreader] at hdone
      cases input with
      | none =>
          cases hdone
          exact .of_goroutine i rfl rfl (.inr ⟨rfl, .inl hbusy⟩)
            (.inr ⟨hbusy, _, rfl⟩) (.inl rfl) id rfl rfl
      | some rawMsg =>
          cases hopen : s.connClosed i with
          | true => simp [hopen] at hdone
          | false =>
              simp only [hopen, Bool.false_eq_true, if_false] at hdone
              cases rawMsg <;> cases hdone
              · exact .of_goroutine i rfl rfl (.inl rfl) (.inl rfl) (.inl rfl) id
                  rfl rfl
              · exact .of_goroutine i rfl rfl (.inl rfl) (.inr ⟨hbusy, _, rfl⟩)
                  (.inl rfl) id rfl rfl
              · exact .of_goroutine i rfl rfl (.inl rfl) (.inl rfl) (.inl rfl) id
                  rfl rfl
  | push m =>
      have hbusy : s.readers i ≠ .idle := by simp [hreader]
      simp only [UDPProxy.State.workConnReader, hreader] at hdone
      cases hsend : s.forward.readCh.send m with
      | done chan =>
          rw [hsend] at hdone
          cases hdone
          exact .of_goroutine i rfl rfl (.inl rfl) (.inr ⟨hbusy, _, rfl⟩)
            (.inl rfl) id rfl rfl
      | block =>
          rw [hsend] at hdone
          cases hdone
      | panic =>
          rw [hsend] at hdone
          cases hdone
          exact .of_goroutine i rfl rfl (.inr ⟨rfl, .inl hbusy⟩)
            (.inr ⟨hbusy, _, rfl⟩) (.inl rfl) id rfl rfl
  | _ => simp [UDPProxy.State.workConnReader, hreader] at hdone

theorem Conns.sender {s s' : UDPProxy.State} {i : Nat} {ok : Bool}
    (hdone : s.workConnSender i ok = .done s') : Conns s s' := by
  cases hsender : s.senders i with
  | select =>
      have hbusy : s.senders i ≠ .idle := by simp [hsender]
      simp only [UDPProxy.State.workConnSender, hsender] at hdone
      cases hrecv : s.forward.sendCh.recv <;> rw [hrecv] at hdone <;>
        cases hdone <;>
        exact .of_goroutine i rfl rfl (.inl rfl) (.inl rfl)
          (.inr ⟨hbusy, _, rfl⟩) id rfl rfl
  | write udpMsg =>
      have hbusy : s.senders i ≠ .idle := by simp [hsender]
      simp only [UDPProxy.State.workConnSender, hsender] at hdone
      cases ok with
      | true =>
          cases hopen : s.connClosed i with
          | true => simp [hopen] at hdone
          | false =>
              simp only [hopen, Bool.false_eq_true, if_false, if_true] at hdone
              cases hdone
              exact .of_goroutine i rfl rfl (.inl rfl) (.inl rfl)
                (.inr ⟨hbusy, _, rfl⟩) id rfl rfl
      | false =>
          simp only [Bool.false_eq_true, if_false] at hdone
          cases hdone
          exact .of_goroutine i rfl rfl (.inr ⟨rfl, .inr hbusy⟩) (.inl rfl)
            (.inr ⟨hbusy, _, rfl⟩) id rfl rfl
  | _ => simp [UDPProxy.State.workConnSender, hsender] at hdone

/-- A statement of `Close` that is not about the work connection. -/
theorem Conns.of_mu {s s' : UDPProxy.State} (hnext : s'.nextConn = s.nextConn)
    (hwork : s'.workConn = s.workConn) (hclosed : s'.connClosed = s.connClosed)
    (hreaders : s'.readers = s.readers) (hsenders : s'.senders = s.senders)
    (hkeeper : s'.keeper = s.keeper) (hpassed : Passed s' ↔ Passed s) :
    Conns s s' where
  nextConn := hnext
  workConn := hwork
  mono i hi := by rwa [hclosed]
  closer i hi := Or.inl (by rwa [← hclosed])
  readers i hi := by rwa [hreaders]
  senders i hi := by rwa [hsenders]
  keeper hbefore := hkeeper.trans hbefore
  passed := hpassed.mpr
  passing hafter := Or.inl (hpassed.mp hafter)

theorem closeWorkConn_eq (s : UDPProxy.State) : ∃ connClosed,
    s.closeWorkConn = { s with connClosed := connClosed } ∧
    (∀ i, connClosed i = true ↔
      s.connClosed i = true ∨ s.workConn = some i) := by
  cases hwork : s.workConn with
  | none =>
      refine ⟨s.connClosed, ?_, by simp⟩
      cases s
      cases hwork
      rfl
  | some i =>
      refine ⟨Function.update s.connClosed i true, ?_, ?_⟩
      · simp [UDPProxy.State.closeWorkConn, UDPProxy.State.closeConn, hwork]
      · intro j
        by_cases hji : j = i
        · simp [hji]
        · simp [hji, Ne.symm hji]

/-- The one statement of `Close` that closes a work connection. -/
theorem Conns.closeWorkConn {s : UDPProxy.State} (hmu : s.mu = some .workConn) :
    Conns s { s.closeWorkConn with mu := some .udpConn } := by
  obtain ⟨connClosed, hclose, hclosed⟩ := closeWorkConn_eq s
  rw [hclose]
  exact
    { nextConn := rfl
      workConn := rfl
      mono := fun i hi => (hclosed i).mpr (.inl hi)
      closer := fun i hi => by
        rcases (hclosed i).mp hi with hold | hstored
        · exact Or.inl hold
        · exact Or.inr (Or.inr (Or.inr hstored))
      readers := fun _ h => h
      senders := fun _ h => h
      keeper := fun h => h
      passed := fun hpassed => absurd hmu hpassed.2
      passing := fun _ => Or.inr fun i hi => (hclosed i).mpr (.inr hi) }

theorem Conns.close {s s' : UDPProxy.State} (hdone : s.close = .done s') :
    Conns s s' := by
  cases hmu : s.mu with
  | none => simp [UDPProxy.State.close, hmu] at hdone
  | some pc =>
      cases pc with
      | check =>
          simp only [UDPProxy.State.close, hmu] at hdone
          cases hclosed : s.isClosed with
          | true =>
              simp only [hclosed, if_true] at hdone
              cases hdone
              exact .of_mu rfl rfl rfl rfl rfl rfl
                (by simp [Passed, hmu, hclosed])
          | false =>
              simp only [hclosed, Bool.false_eq_true, if_false] at hdone
              cases hdone
              exact .of_mu rfl rfl rfl rfl rfl rfl (by simp [Passed, hclosed])
      | workConn =>
          simp only [UDPProxy.State.close, hmu] at hdone
          cases hdone
          exact .closeWorkConn hmu
      | udpConn =>
          simp only [UDPProxy.State.close, hmu] at hdone
          cases hdone
          exact .of_mu rfl rfl rfl rfl rfl rfl (by simp [Passed, hmu])
      | checkCloseCh =>
          simp only [UDPProxy.State.close, hmu] at hdone
          cases hclose : s.checkCloseCh.close <;> rw [hclose] at hdone <;>
            cases hdone
          exact .of_mu rfl rfl rfl rfl rfl rfl (by simp [Passed, hmu])
      | readCh =>
          simp only [UDPProxy.State.close, hmu] at hdone
          cases hclose : s.forward.readCh.close <;> rw [hclose] at hdone <;>
            cases hdone
          exact .of_mu rfl rfl rfl rfl rfl rfl (by simp [Passed, hmu])
      | sendCh =>
          simp only [UDPProxy.State.close, hmu] at hdone
          cases hclose : s.forward.sendCh.close <;> rw [hclose] at hdone <;>
            cases hdone
          exact .of_mu rfl rfl rfl rfl rfl rfl (by simp [Passed, hmu])
      | leave =>
          simp only [UDPProxy.State.close, hmu] at hdone
          cases hdone
          exact .of_mu rfl rfl rfl rfl rfl rfl (by simp [Passed, hmu])

theorem Conns.of_attempt {bufSize : Nat} {s s' : UDPProxy.State}
    {action : UDPProxy.Action} (hget : ∀ result, action ≠ .getWorkConn result)
    (hdone : UDPProxy.attempt bufSize s action = .done s') : Conns s s' := by
  cases action with
  | read result =>
      obtain ⟨forward, -, rfl⟩ := Outcome.map_eq_done_iff.mp hdone
      exact .forward s forward
  | select =>
      obtain ⟨forward, -, rfl⟩ := Outcome.map_eq_done_iff.mp hdone
      exact .forward s forward
  | reply =>
      obtain ⟨forward, -, rfl⟩ := Outcome.map_eq_done_iff.mp hdone
      exact .forward s forward
  | getWorkConn result => exact absurd rfl (hget result)
  | check => exact .check hdone
  | waitClosed => exact .waitClosed hdone
  | reader i input => exact .reader hdone
  | notify i => exact .notify hdone
  | sender i ok => exact .sender hdone
  | cancel i =>
      by_cases hselect : s.senders i = .select ∧ s.cancelled i = true
      · simp only [UDPProxy.attempt, hselect, and_self, if_true] at hdone
        cases hdone
        have hbusy : s.senders i ≠ .idle := by simp [hselect.1]
        exact .of_goroutine i rfl rfl (.inl rfl) (.inl rfl)
          (.inr ⟨hbusy, _, rfl⟩) id rfl rfl
      · simp [UDPProxy.attempt, hselect] at hdone
  | lock =>
      cases hmu : s.mu with
      | none =>
          simp only [UDPProxy.attempt, hmu] at hdone
          cases hdone
          exact .of_mu rfl rfl rfl rfl rfl rfl (by simp [Passed, hmu])
      | some pc => simp [UDPProxy.attempt, hmu] at hdone
  | close => exact .close hdone

namespace State

/-- An open connection is in the hands of the loop or stored for a `Close` to
come. -/
def Kept (s : State) : Prop :=
  ∀ c, c < s.base.nextConn → s.base.connClosed c = false →
    s.hand.carries = some c ∨ (s.base.workConn = some c ∧ ¬ Passed s.base)

@[simp] theorem setBase_base (s : State) (base : UDPProxy.State) :
    (s.setBase base).base = base := rfl

structure Inv (s : State) : Prop where
  fresh : ∀ c, s.base.nextConn ≤ c →
    s.base.connClosed c = false ∧ s.base.readers c = .idle ∧
      s.base.senders c = .idle
  work : ∀ c, s.base.workConn = some c → c < s.base.nextConn
  carried : ∀ c, s.hand.carries = some c →
    c < s.base.nextConn ∧ s.base.connClosed c = false ∧
      s.base.readers c = .idle ∧ s.base.senders c = .idle ∧
      s.base.workConn ≠ some c
  keeper : s.hand ≠ .empty → s.base.keeper = .getConn
  old : ∀ conn, (s.hand = .emptied conn ∨ s.hand = .wrapped conn) →
    ∀ c, s.base.workConn = some c → s.base.connClosed c = true
  stored : ∀ conn, (s.hand = .stored conn ∨ s.hand = .reading conn) →
    s.base.workConn = some conn

/-- With no connection in hand an open one is stored. -/
theorem Kept.of_not_carries {s : State} (hkept : s.Kept)
    (hcarries : s.hand.carries = none) {c : Nat} (hc : c < s.base.nextConn)
    (hopen : s.base.connClosed c = false) :
    s.base.workConn = some c ∧ ¬ Passed s.base := by
  rcases hkept c hc hopen with hcarried | hstored
  · rw [hcarries] at hcarried
    cases hcarried
  · exact hstored

/-- What holds in every run in which nothing is stored behind a `Close`. -/
structure Sound (s : State) : Prop where
  inv : s.Inv
  kept : s.Kept

/-- A fresh connection is none of those that have been handed out. -/
theorem ne_of_fresh {s : UDPProxy.State} {c conn : Nat}
    (hfresh : s.nextConn ≤ c) (hlt : conn < s.nextConn) : c ≠ conn :=
  (hlt.trans_le hfresh).ne'

/-- With nothing in hand only the connections of the proxy matter. -/
theorem Inv.of_empty {s : State} (hhand : s.hand = .empty)
    (hfresh : ∀ c, s.base.nextConn ≤ c → s.base.connClosed c = false ∧
      s.base.readers c = .idle ∧ s.base.senders c = .idle)
    (hwork : ∀ c, s.base.workConn = some c → c < s.base.nextConn) : s.Inv where
  fresh := hfresh
  work := hwork
  carried c hc := by
    rw [hhand] at hc
    cases hc
  keeper hbusy := absurd hhand hbusy
  old conn h := by
    rw [hhand] at h
    rcases h with h | h <;> cases h
  stored conn h := by
    rw [hhand] at h
    rcases h with h | h <;> cases h

theorem sound_run : run.Sound where
  inv := .of_empty rfl (fun _ _ => ⟨rfl, rfl, rfl⟩)
    (fun _ hwork => by cases hwork)
  kept c hc := absurd hc (Nat.not_lt_zero c)

/-- A step of another goroutine. -/
theorem Inv.setBase {s : State} (hinv : s.Inv) {base : UDPProxy.State}
    (hconns : Conns s.base base) : (s.setBase base).Inv where
  fresh c hc := by
    obtain ⟨hopen, hreader, hsender⟩ := hinv.fresh c (hconns.nextConn ▸ hc)
    have hwork : s.base.workConn ≠ some c := fun h =>
      absurd (hinv.work c h) (Nat.not_lt.mpr (hconns.nextConn ▸ hc))
    exact ⟨hconns.stays_open hopen hreader hsender hwork,
      hconns.readers c hreader, hconns.senders c hsender⟩
  work c hc := by
    have hwork := hinv.work c (hconns.workConn ▸ hc)
    exact hconns.nextConn.symm ▸ hwork
  carried c hc := by
    obtain ⟨hlt, hopen, hreader, hsender, hwork⟩ := hinv.carried c hc
    exact ⟨hconns.nextConn.symm ▸ hlt,
      hconns.stays_open hopen hreader hsender hwork,
      hconns.readers c hreader, hconns.senders c hsender,
      by rwa [setBase_base, hconns.workConn]⟩
  keeper hhand := hconns.keeper (hinv.keeper hhand)
  old conn hhand c hc := hconns.mono c (hinv.old conn hhand c (hconns.workConn ▸ hc))
  stored conn hhand := hconns.workConn.trans (hinv.stored conn hhand)

theorem Sound.setBase {s : State} (hsound : s.Sound) {base : UDPProxy.State}
    (hconns : Conns s.base base) : (s.setBase base).Sound where
  inv := hsound.inv.setBase hconns
  kept c hc hopen := by
    have hbefore : s.base.connClosed c = false := by
      by_contra hclosed
      have hafter := hconns.mono c (by simpa using hclosed)
      rw [setBase_base, hafter] at hopen
      cases hopen
    rcases hsound.kept c (hconns.nextConn ▸ hc) hbefore with hcarries | hstored
    · exact Or.inl hcarries
    · refine Or.inr ⟨hconns.workConn.trans hstored.1, ?_⟩
      intro hpassed
      rcases hconns.passing hpassed with hpast | hclosed
      · exact hstored.2 hpast
      · have hshut := hclosed c hstored.1
        rw [setBase_base, hshut] at hopen
        cases hopen

theorem Sound.other {bufSize : Nat} {s s' : State} {action : UDPProxy.Action}
    (hsound : s.Sound) (hdone : s.other bufSize action = .done s') :
    s'.Sound := by
  by_cases hget : ∃ result, action = .getWorkConn result
  · obtain ⟨result, rfl⟩ := hget
    cases hhand : s.hand with
    | empty =>
        cases result with
        | failed =>
            simp only [State.other, hhand] at hdone
            obtain ⟨base, hbase, rfl⟩ := Outcome.map_eq_done_iff.mp hdone
            cases hkeeper : s.base.keeper with
            | getConn =>
                simp only [UDPProxy.attempt, UDPProxy.State.getWorkConn,
                  hkeeper, Outcome.done.injEq] at hbase
                subst hbase
                exact
                  { inv :=
                      { fresh := hsound.inv.fresh
                        work := hsound.inv.work
                        carried := hsound.inv.carried
                        keeper := fun h => absurd hhand h
                        old := hsound.inv.old
                        stored := hsound.inv.stored }
                    kept := hsound.kept }
            | _ =>
                simp [UDPProxy.attempt, UDPProxy.State.getWorkConn, hkeeper]
                  at hbase
        | badStream => simp [State.other] at hdone
        | conn => simp [State.other] at hdone
    | _ => cases result <;> simp [State.other, hhand] at hdone
  · have hother : ∀ result, action ≠ .getWorkConn result :=
      fun result h => hget ⟨result, h⟩
    have hmap : (UDPProxy.attempt bufSize s.base action).map s.setBase =
        .done s' := by
      rw [← hdone]
      cases action <;> first | rfl | exact absurd rfl (hother _)
    obtain ⟨base, hbase, rfl⟩ := Outcome.map_eq_done_iff.mp hmap
    exact hsound.setBase (.of_attempt hother hbase)

theorem Sound.obtain {s s' : State} (hsound : s.Sound)
    (hdone : s.obtain = .done s') : s'.Sound := by
  by_cases hready : s.base.keeper = .getConn ∧ s.hand = .empty
  · simp only [State.obtain, if_pos hready, Outcome.done.injEq] at hdone
    subst hdone
    have hnew := hsound.inv.fresh s.base.nextConn (Nat.le_refl _)
    have hwork : s.base.workConn ≠ some s.base.nextConn :=
      fun h => absurd (hsound.inv.work _ h) (Nat.lt_irrefl _)
    exact
      { inv :=
          { fresh := fun c hc => hsound.inv.fresh c (Nat.le_of_succ_le hc)
            work := fun c hc => Nat.lt_succ_of_lt (hsound.inv.work c hc)
            carried := fun c hc => by
              obtain rfl : s.base.nextConn = c := Option.some.inj hc
              exact ⟨Nat.lt_succ_self _, hnew.1, hnew.2.1, hnew.2.2, hwork⟩
            keeper := fun _ => hready.1
            old := fun _ hhand => by rcases hhand with h | h <;> cases h
            stored := fun _ hhand => by rcases hhand with h | h <;> cases h }
        kept := fun c hc hopen => by
          rcases Nat.lt_succ_iff_lt_or_eq.mp hc with hlt | rfl
          · exact Or.inr
              (hsound.kept.of_not_carries (by rw [hready.2]; rfl) hlt hopen)
          · exact Or.inl rfl }
  · simp [State.obtain, hready] at hdone

/-- The old connection is closed, whatever its goroutines are at. -/
theorem Sound.closeOld {s s' : State} (hsound : s.Sound)
    (hdone : s.closeOld = .done s') : s'.Sound := by
  cases hhand : s.hand with
  | got conn =>
      simp only [State.closeOld, hhand, Outcome.done.injEq] at hdone
      subst hdone
      obtain ⟨connClosed, hclose, hclosed⟩ := closeWorkConn_eq s.base
      have hcarries : s.hand.carries = some conn := by rw [hhand]; rfl
      have hopen : ∀ c, connClosed c = false → s.base.connClosed c = false ∧
          s.base.workConn ≠ some c := by
        intro c hc
        have hneither := mt (hclosed c).mpr (by simp [hc])
        exact ⟨by simpa using fun h => hneither (.inl h),
          fun h => hneither (.inr h)⟩
      have hstays : ∀ c, s.base.connClosed c = false →
          s.base.workConn ≠ some c → connClosed c = false := by
        intro c hc hwork
        by_contra hshut
        rcases (hclosed c).mp (by simpa using hshut) with h | h
        · rw [hc] at h
          cases h
        · exact hwork h
      rw [hclose]
      exact
        { inv :=
            { fresh := fun c hc => by
                obtain ⟨hfresh, hidle⟩ := hsound.inv.fresh c hc
                exact ⟨hstays c hfresh fun h =>
                  absurd (hsound.inv.work c h) (Nat.not_lt.mpr hc), hidle⟩
              work := hsound.inv.work
              carried := fun c hc => by
                obtain rfl : conn = c := Option.some.inj hc
                obtain ⟨hlt, hshut, hreader, hsender, hwork⟩ :=
                  hsound.inv.carried conn hcarries
                exact ⟨hlt, hstays conn hshut hwork, hreader, hsender, hwork⟩
              keeper := fun _ => hsound.inv.keeper (by simp [hhand])
              old := fun _ _ c hc => (hclosed c).mpr (.inr hc)
              stored := fun _ h => by rcases h with h | h <;> cases h }
          kept := fun c hc hshut => by
            obtain ⟨hbefore, hwork⟩ := hopen c hshut
            rcases hsound.kept c hc hbefore with h | h
            · rw [hcarries] at h
              exact Or.inl h
            · exact absurd h.1 hwork }
  | _ => simp [State.closeOld, hhand] at hdone

theorem Sound.wrap {s s' : State} (hsound : s.Sound) {ok : Bool}
    (hdone : s.wrap ok = .done s') : s'.Sound := by
  cases hhand : s.hand with
  | emptied conn =>
      have hcarries : s.hand.carries = some conn := by rw [hhand]; rfl
      obtain ⟨hlt, hcarried⟩ := hsound.inv.carried conn hcarries
      cases ok with
      | true =>
          simp only [State.wrap, hhand, if_true, Outcome.done.injEq] at hdone
          subst hdone
          exact
            { inv :=
                { fresh := hsound.inv.fresh
                  work := hsound.inv.work
                  carried := fun c hc => by
                    obtain rfl : conn = c := Option.some.inj hc
                    exact ⟨hlt, hcarried⟩
                  keeper := fun _ => hsound.inv.keeper (by simp [hhand])
                  old := fun _ _ => hsound.inv.old conn (.inl hhand)
                  stored := fun _ h => by rcases h with h | h <;> cases h }
              kept := fun c hc hopen => by
                rcases hsound.kept c hc hopen with h | h
                · rw [hcarries] at h
                  exact Or.inl h
                · exact Or.inr h }
      | false =>
          simp only [State.wrap, hhand, Bool.false_eq_true, if_false,
            Outcome.done.injEq] at hdone
          subst hdone
          exact
            { inv := .of_empty rfl
                (fun c hc => by
                  obtain ⟨hfresh, hidle⟩ := hsound.inv.fresh c hc
                  exact ⟨(Function.update_of_ne (ne_of_fresh hc hlt) _ _).trans
                    hfresh, hidle⟩)
                hsound.inv.work
              kept := fun c hc hopen => by
                have hne : c ≠ conn := by
                  rintro rfl
                  simp [UDPProxy.State.closeConn] at hopen
                have hbefore : s.base.connClosed c = false := by
                  simpa [UDPProxy.State.closeConn, hne] using hopen
                rcases hsound.kept c hc hbefore with h | h
                · rw [hcarries] at h
                  exact absurd (Option.some.inj h).symm hne
                · exact Or.inr h }
  | _ => simp [State.wrap, hhand] at hdone

/-- A connection that is stored while a `Close` is still to come. -/
theorem Sound.store {s s' : State} (hsound : s.Sound)
    (hpassed : ¬ Passed s.base) (hdone : s.store = .done s') : s'.Sound := by
  cases hhand : s.hand with
  | wrapped conn =>
      simp only [State.store, hhand, Outcome.done.injEq] at hdone
      subst hdone
      have hcarries : s.hand.carries = some conn := by rw [hhand]; rfl
      exact
        { inv :=
            { fresh := hsound.inv.fresh
              work := fun c hc => by
                obtain rfl : conn = c := Option.some.inj hc
                exact (hsound.inv.carried conn hcarries).1
              carried := fun _ hc => by cases hc
              keeper := fun _ => hsound.inv.keeper (by simp [hhand])
              old := fun _ h => by rcases h with h | h <;> cases h
              stored := fun other h => by
                rcases h with h | h
                · obtain rfl : conn = other := by simpa using h
                  rfl
                · cases h }
          kept := fun c hc hopen => by
            rcases hsound.kept c hc hopen with h | h
            · rw [hcarries] at h
              exact Or.inr ⟨h, hpassed⟩
            · rw [hsound.inv.old conn (.inr hhand) c h.1] at hopen
              cases hopen }
  | _ => simp [State.store, hhand] at hdone

/-- Any other store leaves an open connection behind the `Close`. -/
theorem Sound.not_passed_of_store {s s' : State} (hsound : s.Sound)
    (hdone : s.store = .done s') (hkept : s'.Kept) : ¬ Passed s.base := by
  cases hhand : s.hand with
  | wrapped conn =>
      simp only [State.store, hhand, Outcome.done.injEq] at hdone
      subst hdone
      obtain ⟨hlt, hopen, _⟩ := hsound.inv.carried conn (by rw [hhand]; rfl)
      rcases hkept conn hlt hopen with h | h
      · cases h
      · exact h.2
  | _ => simp [State.store, hhand] at hdone

theorem Sound.startReader {s s' : State} (hsound : s.Sound)
    (hdone : s.startReader = .done s') : s'.Sound := by
  cases hhand : s.hand with
  | stored conn =>
      have hwork := hsound.inv.stored conn (.inl hhand)
      simp only [State.startReader, hhand, hwork, Outcome.done.injEq] at hdone
      subst hdone
      have hlt := hsound.inv.work conn hwork
      exact
        { inv :=
            { fresh := fun c hc => by
                obtain ⟨hfresh, hreader, hsender⟩ := hsound.inv.fresh c hc
                have hne := ne_of_fresh hc hlt
                exact ⟨hfresh, (Function.update_of_ne hne _ _).trans hreader,
                  hsender⟩
              work := hsound.inv.work
              carried := fun _ hc => by cases hc
              keeper := fun _ => hsound.inv.keeper (by simp [hhand])
              old := fun _ h => by rcases h with h | h <;> cases h
              stored := fun other h => by
                rcases h with h | h
                · cases h
                · obtain rfl : conn = other := by simpa using h
                  exact hwork }
          kept := fun c hc hopen => Or.inr
            (hsound.kept.of_not_carries (by rw [hhand]; rfl) hc hopen) }
  | _ => simp [State.startReader, hhand] at hdone

theorem Sound.startSender {s s' : State} (hsound : s.Sound)
    (hdone : s.startSender = .done s') : s'.Sound := by
  cases hhand : s.hand with
  | reading conn =>
      have hwork := hsound.inv.stored conn (.inr hhand)
      simp only [State.startSender, hhand, hwork, Outcome.done.injEq] at hdone
      subst hdone
      have hlt := hsound.inv.work conn hwork
      exact
        { inv := .of_empty rfl
            (fun c hc => by
              obtain ⟨hfresh, hreader, hsender⟩ := hsound.inv.fresh c hc
              have hne := ne_of_fresh hc hlt
              exact ⟨hfresh, hreader,
                (Function.update_of_ne hne _ _).trans hsender⟩)
            hsound.inv.work
          kept := fun c hc hopen => Or.inr
            (hsound.kept.of_not_carries (by rw [hhand]; rfl) hc hopen) }
  | _ => simp [State.startSender, hhand] at hdone

end State

/-- The loop stores a connection only as long as a `Close` is to come. -/
def Permitted (s : State) : Action → Prop
  | .store => ¬ Passed s.base
  | _ => True

instance (s : State) : (action : Action) → Decidable (Permitted s action)
  | .store => inferInstanceAs (Decidable (¬ _))
  | .base _ | .obtain | .closeOld | .wrap _ | .startReader | .startSender =>
      isTrue trivial

namespace State

theorem Sound.attempt {bufSize : Nat} {s s' : State} {action : Action}
    (hsound : s.Sound) (hpermitted : Permitted s action)
    (hdone : WorkConns.attempt bufSize s action = .done s') : s'.Sound := by
  cases action with
  | base action => exact hsound.other hdone
  | obtain => exact hsound.obtain hdone
  | closeOld => exact hsound.closeOld hdone
  | wrap ok => exact hsound.wrap hdone
  | store => exact hsound.store hpermitted hdone
  | startReader => exact hsound.startReader hdone
  | startSender => exact hsound.startSender hdone

/-- The loop and all senders have ended. -/
structure Ended (s : State) : Prop where
  keeper : s.base.keeper = .returned
  senders : ∀ i, s.base.senders i = .idle ∨ s.base.senders i = .returned

/-- Some `Close` has returned. -/
def Closed (s : State) : Prop :=
  s.base.isClosed = true ∧ s.base.mu = none

/-- Every connection that the loop has obtained has been closed. -/
def Released (s : State) : Prop :=
  ∀ c, c < s.base.nextConn → s.base.connClosed c = true

theorem Sound.released {s : State} (hsound : s.Sound) (hclosed : s.Closed)
    (hended : s.Ended) : s.Released := by
  have hpassed : Passed s.base := ⟨hclosed.1, by simp [hclosed.2]⟩
  have hhand : s.hand = .empty := by
    by_contra hhand
    have hkeeper := hsound.inv.keeper hhand
    rw [hended.keeper] at hkeeper
    cases hkeeper
  intro c hc
  by_contra hopen
  rcases hsound.kept c hc (by simpa using hopen) with h | h
  · rw [hhand] at h
    cases h
  · exact h.2 hpassed

end State

/-- A step that leads to a state in which every open connection will be closed. -/
def LeadsKept (bufSize : Nat) (p : Process State) (action : Action) : Prop :=
  ∀ p' ∈ (system bufSize).step p action, p'.state.Kept

theorem sound_of_step {bufSize : Nat} {p p' : Process State} {action : Action}
    (hsound : p.state.Sound) (hpermitted : Permitted p.state action)
    (hstep : (system bufSize).step p action = some p') : p'.state.Sound := by
  rcases Process.step_state hstep with hdone | ⟨_, hsame⟩
  · exact hsound.attempt hpermitted hdone
  · rwa [hsame]

theorem store_ne_panic (s : State) : s.store ≠ .panic := by
  cases hhand : s.hand <;> simp [State.store, hhand]

theorem kept_iff_of_step {bufSize : Nat} {p p' : Process State}
    {action : Action} (hsound : p.state.Sound)
    (hstep : (system bufSize).step p action = some p') :
    p'.state.Kept ↔ Permitted p.state action := by
  constructor
  · intro hkept
    cases action with
    | store =>
        rcases Process.step_state hstep with hdone | ⟨hpanic, _⟩
        · exact hsound.not_passed_of_store hdone hkept
        · exact absurd hpanic (store_ne_panic _)
    | _ => trivial
  · intro hpermitted
    exact (sound_of_step hsound hpermitted hstep).kept

/-- With no connection stored behind a `Close`, every connection has been closed
once a `Close` has returned and the loop and the senders have ended.  Such runs
are exactly those through states in which every open connection is in the hands
of the loop or stored for a `Close` to come. -/
theorem closed_iff_permitted (bufSize : Nat) (word : List Action)
    (p : Process State) :
    ((system bufSize).Run (fun q => Permitted q.state) word p →
      p.state.Closed → p.state.Ended → p.state.Released) ∧
    ((system bufSize).Run (LeadsKept bufSize) word p ↔
      (system bufSize).Run (fun q => Permitted q.state) word p) := by
  constructor
  · intro hrun hclosed hended
    have hsound : p.state.Sound :=
      hrun.invariant (I := fun q => q.state.Sound) State.sound_run
        fun _ _ _ hq hcond hstep => sound_of_step hq hcond hstep
    exact hsound.released hclosed hended
  · exact System.run_leads_iff (J := fun q => q.state.Sound) State.sound_run
      (fun _ _ _ hq hcond hstep => sound_of_step hq hcond hstep)
      (fun _ _ _ hq hstep => kept_iff_of_step hq hstep) word p

/-- `Close`, statement by statement. -/
def closes : List Action :=
  (.lock :: List.replicate 7 .close).map .base

/-- A connection is obtained and stored. -/
def stores : List Action :=
  [.obtain, .closeOld, .wrap true, .store, .startReader, .startSender]

/-- The stored connection is closed by `Close`, its goroutines end. -/
def closedStored : List Action :=
  stores ++ closes ++ [.base .waitClosed, .base (.sender 0 true)]

theorem closed_iff_permitted_closedStored :
    ∃ p, (system 1500).Run (fun q => Permitted q.state) closedStored p ∧
      p.state.base.nextConn = 1 ∧ p.state.Released := by
  have hrun : ∃ p, (system 1500).Run (fun q => Permitted q.state) closedStored p ∧
      p.state.base.nextConn = 1 ∧ p.state.Closed ∧ p.state.Ended := by
    refine ⟨_, System.run_of_replay rfl, rfl, ⟨rfl, rfl⟩, rfl, ?_⟩
    intro i
    match i with
    | 0 => exact Or.inr rfl
    | n + 1 => exact Or.inl rfl
  obtain ⟨p, hrun, hnext, hclosed, hended⟩ := hrun
  exact ⟨p, hrun, hnext,
    (closed_iff_permitted 1500 closedStored p).1 hrun hclosed hended⟩

/-- `Close` comes while the loop asks the pool for a connection. -/
def storedLate : List Action :=
  closes ++ stores ++ [.base .waitClosed, .base (.sender 0 true)]

theorem not_released_storedLate :
    ∃ p, (system 1500).Reaches storedLate p ∧ p.crashed = false ∧
      p.state.Closed ∧ p.state.Ended ∧ ¬ p.state.Released := by
  refine ⟨_, System.reaches_of_exec rfl, rfl, ⟨rfl, rfl⟩, ⟨rfl, ?_⟩, ?_⟩
  · intro i
    match i with
    | 0 => exact Or.inr rfl
    | n + 1 => exact Or.inl rfl
  · intro hreleased
    have hfirst := hreleased 0 Nat.zero_lt_one
    cases hfirst

end WorkConns

end Udp

end Frp
