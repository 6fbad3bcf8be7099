/-
The work connections of a Control.  A connection that `RegisterWorkConn` has
accepted is at exactly one place: in the pool, with one caller of
`GetWorkConn`, or closed by the stoper.
-/
import Frp.Server.ControlInv

namespace Frp.Server

open Transition GoChan

variable {cfg : Config}

inductive Place where
  | pool
  | caller (j : Nat)
  | stoper
deriving DecidableEq, Repr

/-- The connection that a call of `GetWorkConn` has received. -/
def GetPc.conn : GetPc → Option Nat
  | .refill conn | .returned conn => some conn
  | .idle | .select | .request | .wait | .failed => none

@[simp] theorem GetPc.conn_refill (k : Nat) :
    (GetPc.refill k).conn = some k := rfl

theorem StoperPc.closedWork_of_drained {pc : StoperPc}
    (hdrained : pc.drained = true) : pc.closedWork = true := by
  cases pc <;> first | rfl | cases hdrained

namespace Pool

variable {cap : Nat}

def At (p : Pool cap) (k : Nat) : Place → Prop
  | .pool => k ∈ p.workConnCh.buf
  | .caller j => (p.callers j).conn = some k
  | .stoper => k ∈ p.drained

/-- An accepted connection is at one place and any other at none. -/
def Kept (p : Pool cap) (k : Nat) : Prop :=
  (p.conns k = .accepted ∧ ∃ place, ∀ other, p.At k other ↔ other = place) ∨
    (p.conns k ≠ .accepted ∧ ∀ place, ¬ p.At k place)

structure Conserved (p : Pool cap) : Prop where
  kept : ∀ k, p.Kept k
  queued : p.workConnCh.buf.Nodup
  closed : p.drained.Nodup

theorem Kept.congr {p p' : Pool cap} {k : Nat} (hkept : p.Kept k)
    (hconns : p'.conns k = p.conns k)
    (hat : ∀ place, p'.At k place ↔ p.At k place) : p'.Kept k := by
  rcases hkept with ⟨haccepted, place, hplace⟩ | ⟨hother, hnowhere⟩
  · left
    refine ⟨hconns.trans haccepted, place, ?_⟩
    intro other
    rw [hat, hplace]
  · right
    rw [hconns]
    refine ⟨hother, ?_⟩
    intro place
    rw [hat]
    exact hnowhere place

/-- A connection that is not accepted is nowhere. -/
theorem Kept.nowhere {p : Pool cap} {k : Nat} (hkept : p.Kept k)
    (hother : p.conns k ≠ .accepted) (place : Place) : ¬ p.At k place := by
  rcases hkept with ⟨haccepted, _⟩ | ⟨_, hnowhere⟩
  · exact absurd haccepted hother
  · exact hnowhere place

/-- A connection found somewhere is accepted and nowhere else. -/
theorem Kept.only {p : Pool cap} {k : Nat} (hkept : p.Kept k) {place : Place}
    (hat : p.At k place) :
    p.conns k = .accepted ∧ ∀ other, p.At k other ↔ other = place := by
  rcases hkept with ⟨haccepted, found, hfound⟩ | ⟨_, hnowhere⟩
  · refine ⟨haccepted, ?_⟩
    rw [(hfound place).mp hat]
    exact hfound
  · exact absurd hat (hnowhere place)

theorem at_setCaller (p : Pool cap) (j : Nat) (pc : GetPc) (k : Nat)
    (place : Place) :
    (p.setCaller j pc).At k place ↔
      if place = .caller j then pc.conn = some k else p.At k place := by
  cases place with
  | pool => simp [At, setCaller]
  | stoper => simp [At, setCaller]
  | caller i =>
      by_cases hi : i = j
      · simp [At, setCaller, hi]
      · simp [At, setCaller, hi]

/-- A call goes on without receiving a connection or losing one. -/
theorem Conserved.setCaller {p : Pool cap} (hconserved : p.Conserved) {j : Nat}
    {pc : GetPc} (hconn : pc.conn = (p.callers j).conn) :
    (p.setCaller j pc).Conserved where
  kept k := by
    refine (hconserved.kept k).congr rfl ?_
    intro place
    rw [at_setCaller]
    by_cases hplace : place = .caller j
    · rw [if_pos hplace, hplace, hconn]
      rfl
    · rw [if_neg hplace]
  queued := hconserved.queued
  closed := hconserved.closed

/-- `handleConnection` goes on with a connection that is not accepted. -/
theorem Conserved.setConn {p : Pool cap} (hconserved : p.Conserved) {k : Nat}
    {pc : ConnPc} (hbefore : p.conns k ≠ .accepted) (hafter : pc ≠ .accepted) :
    (p.setConn k pc).Conserved where
  kept other := by
    by_cases hother : other = k
    · right
      refine ⟨by simpa [Pool.setConn, hother] using hafter, ?_⟩
      intro place hat
      rw [hother] at hat
      refine (hconserved.kept k).nowhere hbefore place ?_
      cases place <;> exact hat
    · refine (hconserved.kept other).congr ?_ ?_
      · simp [Pool.setConn, hother]
      · intro place
        cases place <;> exact Iff.rfl
  queued := hconserved.queued
  closed := hconserved.closed

/-- A connection that was nowhere is accepted into `place`. -/
theorem Conserved.accept {p p' : Pool cap} (hconserved : p.Conserved)
    {k : Nat} (place : Place) (hbefore : p.conns k ≠ .accepted)
    (hconns : p'.conns = Function.update p.conns k .accepted)
    (hat : ∀ other otherPlace, p'.At other otherPlace ↔
      p.At other otherPlace ∨ (other = k ∧ otherPlace = place))
    (hqueued : p'.workConnCh.buf.Nodup) (hclosed : p'.drained.Nodup) :
    p'.Conserved where
  kept other := by
    by_cases hother : other = k
    · left
      refine ⟨by simp [hconns, hother], place, ?_⟩
      intro otherPlace
      rw [hat, hother]
      have hnowhere := (hconserved.kept k).nowhere hbefore otherPlace
      simp [hnowhere]
    · refine (hconserved.kept other).congr ?_ ?_
      · simp [hconns, hother]
      · intro otherPlace
        rw [hat]
        simp [hother]
  queued := hqueued
  closed := hclosed

/-- The head of the pool moves to `place`. -/
theorem Conserved.moveHead {p p' : Pool cap} (hconserved : p.Conserved)
    {k : Nat} {rest : List Nat} (place : Place)
    (hbuf : p.workConnCh.buf = k :: rest) (hconns : p'.conns = p.conns)
    (hrest : p'.workConnCh.buf = rest) (hplace : place ≠ .pool)
    (hat : ∀ other otherPlace, otherPlace ≠ .pool →
      (p'.At other otherPlace ↔
        p.At other otherPlace ∨ (other = k ∧ otherPlace = place)))
    (hclosed : p'.drained.Nodup) : p'.Conserved where
  kept other := by
    have hnodup := hconserved.queued
    rw [hbuf, List.nodup_cons] at hnodup
    have hpool : p.At k .pool := by
      rw [At, hbuf]
      exact List.mem_cons_self
    by_cases hother : other = k
    · obtain ⟨haccepted, honly⟩ := (hconserved.kept k).only hpool
      left
      refine ⟨by rw [hconns, hother]; exact haccepted, place, ?_⟩
      intro otherPlace
      rw [hother]
      by_cases hp : otherPlace = .pool
      · rw [hp]
        simp [At, hrest, hnodup.1, Ne.symm hplace]
      · rw [hat k otherPlace hp, honly]
        simp [hp]
    · refine (hconserved.kept other).congr (by rw [hconns]) ?_
      intro otherPlace
      by_cases hp : otherPlace = .pool
      · rw [hp]
        simp [At, hrest, hbuf, hother]
      · rw [hat other otherPlace hp]
        simp [hother]
  queued := by
    have hnodup := hconserved.queued
    rw [hbuf, List.nodup_cons] at hnodup
    rw [hrest]
    exact hnodup.2
  closed := hclosed

/-- The channel changes but not what it holds. -/
theorem Conserved.setChan {p : Pool cap} (hconserved : p.Conserved)
    {chan : Chan Nat cap} (hbuf : chan.buf = p.workConnCh.buf) :
    { p with workConnCh := chan }.Conserved where
  kept k := by
    refine (hconserved.kept k).congr rfl ?_
    intro place
    cases place <;> simp [At, hbuf]
  queued := by
    rw [hbuf]
    exact hconserved.queued
  closed := hconserved.closed

/-- Registering on an open channel. -/
theorem Conserved.register {p : Pool cap} (hconserved : p.Conserved) {k : Nat}
    (hregistering : p.conns k = .registering)
    (hopen : p.workConnCh.closed = false) : (p.register k).Conserved := by
  have hbefore : p.conns k ≠ .accepted := by simp [hregistering]
  cases hsend : p.workConnCh.send k with
  | done chan =>
      have hbuf := (Chan.send_eq_done_iff.mp hsend).2.1
      have hnew : k ∉ p.workConnCh.buf :=
        (hconserved.kept k).nowhere hbefore .pool
      rw [Pool.register, hsend]
      refine hconserved.accept .pool hbefore rfl ?_ ?_ hconserved.closed
      · intro other otherPlace
        cases otherPlace <;> simp [At, Pool.setConn, hbuf]
      · simp only [Pool.setConn, hbuf]
        simpa using List.Nodup.concat hnew hconserved.queued
  | block =>
      rw [Pool.register, hsend]
      exact hconserved.setConn hbefore (by simp)
  | panic => simp [hopen] at hsend

/-- A receive by a call that has no connection yet. -/
theorem Conserved.take {p p' : Pool cap} (hconserved : p.Conserved) {j : Nat}
    {empty : Option GetPc} (hnone : (p.callers j).conn = none)
    (hempty : ∀ pc ∈ empty, pc.conn = none)
    (htake : p.take j empty = some p') : p'.Conserved := by
  cases hrecv : p.workConnCh.recv with
  | value k chan =>
      simp only [Pool.take, hrecv, Option.some.injEq] at htake
      subst htake
      have hbuf := (Chan.recv_eq_value_iff.mp hrecv).1
      refine hconserved.moveHead (.caller j) hbuf rfl rfl (by simp) ?_
        hconserved.closed
      intro other otherPlace hpool
      rw [at_setCaller]
      by_cases hplace : otherPlace = .caller j
      · simp [hplace, At, hnone, eq_comm]
      · cases otherPlace <;> simp_all [At]
  | closed =>
      simp only [Pool.take, hrecv, Option.some.injEq] at htake
      subst htake
      exact hconserved.setCaller hnone.symm
  | block =>
      simp only [Pool.take, hrecv, Option.map_eq_some_iff] at htake
      obtain ⟨pc, hpc, rfl⟩ := htake
      exact hconserved.setCaller ((hempty pc hpc).trans hnone.symm)

theorem take_buf {p p' : Pool cap} {j : Nat} {empty : Option GetPc}
    (htake : p.take j empty = some p') (hbuf : p.workConnCh.buf = []) :
    p'.workConnCh.buf = [] := by
  cases hrecv : p.workConnCh.recv with
  | value k chan =>
      rw [(Chan.recv_eq_value_iff.mp hrecv).1] at hbuf
      cases hbuf
  | closed =>
      simp only [Pool.take, hrecv, Option.some.injEq] at htake
      subst htake
      exact hbuf
  | block =>
      simp only [Pool.take, hrecv, Option.map_eq_some_iff] at htake
      obtain ⟨pc, _, rfl⟩ := htake
      exact hbuf

theorem Conserved.handoff {p : Pool cap} (hconserved : p.Conserved)
    {k j : Nat} (hregistering : p.conns k = .registering)
    (hnone : (p.callers j).conn = none) : (p.handoff k j).Conserved := by
  have hbefore : p.conns k ≠ .accepted := by simp [hregistering]
  refine hconserved.accept (.caller j) hbefore rfl ?_ hconserved.queued
    hconserved.closed
  intro other otherPlace
  rw [Pool.handoff, at_setCaller]
  by_cases hplace : otherPlace = .caller j
  · simp [hplace, At, hnone, eq_comm]
  · cases otherPlace <;> simp_all [At, Pool.setConn]

/-- The stoper receives from the pool and closes what it has received. -/
theorem Conserved.drain {p : Pool cap} (hconserved : p.Conserved) {k : Nat}
    {chan : Chan Nat cap} (hrecv : p.workConnCh.recv = .value k chan) :
    { p with
      workConnCh := chan, drained := p.drained ++ [k] : Pool cap }.Conserved := by
  have hbuf := (Chan.recv_eq_value_iff.mp hrecv).1
  have hpool : p.At k .pool := by simp [At, hbuf]
  have hnew : ¬ p.At k .stoper := by
    rw [((hconserved.kept k).only hpool).2]
    simp
  refine hconserved.moveHead .stoper hbuf rfl rfl (by simp) ?_
    (by simpa using List.Nodup.concat hnew hconserved.closed)
  intro other otherPlace hother
  cases otherPlace <;> simp_all [At]

end Pool

namespace State

/-- The connections are accounted for and a drained pool stays empty. -/
structure Held (s : State cfg) : Prop where
  inv : s.Inv
  conserved : s.pool.Conserved
  empty : s.stoper.drained = true → s.pool.workConnCh.buf = []

theorem held_init : (init cfg).Held where
  inv := inv_init
  conserved := by
    refine ⟨?_, List.nodup_nil, List.nodup_nil⟩
    intro k
    right
    refine ⟨by simp [init], ?_⟩
    intro place
    cases place <;> simp [init, Pool.At, GetPc.conn]
  empty := fun _ => rfl

/-- A step that leaves the pool alone. -/
theorem Held.frame {s s' : State cfg} (hheld : s.Held) (hinv : s'.Inv)
    (hpool : s'.pool = s.pool)
    (hstoper : s'.stoper.drained = true → s.stoper.drained = true) :
    s'.Held where
  inv := hinv
  conserved := hpool ▸ hheld.conserved
  empty := fun hdrained => by
    rw [hpool]
    exact hheld.empty (hstoper hdrained)

/-- A step of a call that does not fill the pool. -/
theorem Held.setPool {s s' : State cfg} (hheld : s.Held) (hinv : s'.Inv)
    (hstoper : s'.stoper = s.stoper) (hconserved : s'.pool.Conserved)
    (hbuf : s.pool.workConnCh.buf = [] → s'.pool.workConnCh.buf = []) :
    s'.Held where
  inv := hinv
  conserved := hconserved
  empty := fun hdrained => hbuf (hheld.empty (hstoper ▸ hdrained))

theorem Held.stoperStep {s s' : State cfg} (hheld : s.Held)
    {close : CloseResult} (hnext : s.stoperStep close = some s') :
    s'.Held := by
  have hinv := hheld.inv.stoperStep hnext
  have hwork := hheld.inv.workClosed
  cases hstoper : s.stoper with
  | notStarted | exited | aborted | panicked =>
      simp [State.stoperStep, hstoper] at hnext
  | waitStart | waitReader | waitManager | waitWriter =>
      simp only [State.stoperStep, hstoper, Option.ite_none_right_eq_some,
        Option.some.injEq] at hnext
      obtain ⟨_, rfl⟩ := hnext
      exact hheld.frame hinv rfl (by simp [StoperPc.drained])
  | lock =>
      simp only [State.stoperStep, hstoper, Option.ite_none_left_eq_some,
        Option.some.injEq] at hnext
      obtain ⟨_, rfl⟩ := hnext
      exact hheld.frame hinv rfl (by simp [StoperPc.drained])
  | closeConn =>
      simp only [State.stoperStep, hstoper, Option.some.injEq] at hnext
      subst hnext
      exact hheld.frame hinv rfl (by simp [StoperPc.drained])
  | closeRead =>
      have hread := hheld.inv.readClosed
      rw [hstoper] at hread
      obtain ⟨chan, hclose, _⟩ := Chan.exists_close_done hread
      simp only [State.stoperStep, hstoper, hclose, Option.some.injEq] at hnext
      subst hnext
      exact hheld.frame hinv rfl (by simp [StoperPc.drained])
  | closeSend =>
      have hsend := hheld.inv.sendClosed
      rw [hstoper] at hsend
      obtain ⟨chan, hclose, _⟩ := Chan.exists_close_done hsend
      simp only [State.stoperStep, hstoper, hclose, Option.some.injEq] at hnext
      subst hnext
      exact hheld.frame hinv rfl (by simp [StoperPc.drained])
  | closeWork =>
      rw [hstoper] at hwork
      obtain ⟨chan, hclose, hbuf, _⟩ := Chan.exists_close_done hwork
      simp only [State.stoperStep, hstoper, hclose, Option.some.injEq] at hnext
      subst hnext
      exact ⟨hinv, hheld.conserved.setChan hbuf, by simp [StoperPc.drained]⟩
  | drain =>
      cases hrecv : s.pool.workConnCh.recv with
      | value conn chan =>
          simp only [State.stoperStep, hstoper, hrecv,
            Option.some.injEq] at hnext
          subst hnext
          refine ⟨hinv, hheld.conserved.drain hrecv, ?_⟩
          simp [StoperPc.drained]
      | closed =>
          simp only [State.stoperStep, hstoper, hrecv,
            Option.some.injEq] at hnext
          subst hnext
          exact ⟨hinv, hheld.conserved, fun _ =>
            (Chan.recv_eq_closed_iff.mp hrecv).1⟩
      | block => simp [State.stoperStep, hstoper, hrecv] at hnext
  | closeProxies =>
      simp only [State.stoperStep, hstoper] at hnext
      split at hnext
      · cases hnext
        exact hheld.frame hinv rfl (fun _ => by rw [hstoper]; rfl)
      · cases hnext
        exact hheld.frame hinv rfl (fun _ => by rw [hstoper]; rfl)

theorem Held.getStep {s s' : State cfg} (hheld : s.Held) {j : Nat}
    (hnext : s.getStep j = some s') : s'.Held := by
  have hinv := hheld.inv.getStep hnext
  cases hcaller : s.pool.callers j with
  | select | wait =>
      simp only [State.getStep, hcaller, Option.map_eq_some_iff] at hnext
      obtain ⟨pool, htake, rfl⟩ := hnext
      have hconserved := hheld.conserved.take (by rw [hcaller]; rfl)
        (by simp [GetPc.conn]) htake
      exact hheld.setPool hinv rfl hconserved (Pool.take_buf htake)
  | request | refill conn =>
      cases hsend : s.sendCh.send .reqWorkConn with
      | block => simp [State.getStep, hcaller, hsend] at hnext
      | done _ | panic =>
          simp only [State.getStep, hcaller, hsend,
            Option.some.injEq] at hnext
          subst hnext
          refine hheld.setPool hinv rfl (hheld.conserved.setCaller ?_) id
          rw [hcaller]
          rfl
  | idle | returned conn | failed =>
      simp [State.getStep, hcaller] at hnext

end State

/-- No `RegisterWorkConn` reaches its select after the stoper has closed
`workConnCh`. -/
def Permitted (s : State cfg) : Action → Prop
  | .register _ => s.pool.workConnCh.closed = false
  | _ => True

instance (s : State cfg) (action : Action) : Decidable (Permitted s action) :=
  match action with
  | .register _ =>
      inferInstanceAs (Decidable (s.pool.workConnCh.closed = false))
  | .start | .writer _ | .reader _ | .manager _ | .heartbeat | .stoper _
  | .replaced | .connFail | .call _ | .get _ | .timeout _ | .arrive _
  | .verify _ _ | .handoff _ _ | .handle _ => inferInstanceAs (Decidable True)

namespace State

/-- Closing the pool ends its registrations: `Permitted` keeps a drained pool
empty. -/
theorem Held.register {s s' : State cfg} (hheld : s.Held) {k : Nat}
    (hopen : s.pool.workConnCh.closed = false)
    (hstep : Server.step s (.register k) = some s') : s'.Held := by
  have hinv := hheld.inv.step hstep
  simp only [Server.step, Option.ite_none_right_eq_some,
    Option.some.injEq] at hstep
  obtain ⟨hregistering, rfl⟩ := hstep
  refine ⟨hinv, hheld.conserved.register hregistering hopen, ?_⟩
  intro hdrained
  have hclosed := hheld.inv.workClosed
  rw [hopen, StoperPc.closedWork_of_drained hdrained] at hclosed
  cases hclosed

theorem Held.step {s s' : State cfg} {action : Action} (hheld : s.Held)
    (hpermitted : Permitted s action)
    (hstep : Server.step s action = some s') : s'.Held := by
  have hinv := hheld.inv.step hstep
  cases action with
  | start =>
      obtain ⟨hpool, hsame | hwaits⟩ := startStep_frame hstep
      · exact hheld.frame hinv hpool (by rw [hsame]; exact id)
      · exact hheld.frame hinv hpool (by simp [hwaits, StoperPc.drained])
  | writer ok =>
      have hframe := writerStep_frame hstep
      exact hheld.frame hinv (by rw [hframe]) (by rw [hframe]; exact id)
  | reader input =>
      have hframe := readerStep_frame hstep
      exact hheld.frame hinv (by rw [hframe]) (by rw [hframe]; exact id)
  | manager close =>
      have hframe := managerStep_frame hstep
      exact hheld.frame hinv (by rw [hframe]) (by rw [hframe]; exact id)
  | stoper close => exact hheld.stoperStep hstep
  | get j => exact hheld.getStep hstep
  | register k => exact hheld.register hpermitted hstep
  | heartbeat =>
      simp only [Server.step, Option.ite_none_right_eq_some,
        Option.some.injEq] at hstep
      obtain ⟨_, rfl⟩ := hstep
      exact hheld.frame hinv rfl id
  | replaced | connFail =>
      simp only [Server.step, Option.some.injEq] at hstep
      subst hstep
      exact hheld.frame hinv rfl id
  | call j | timeout j =>
      simp only [Server.step, Option.ite_none_right_eq_some,
        Option.some.injEq] at hstep
      obtain ⟨hcaller, rfl⟩ := hstep
      refine hheld.setPool hinv rfl (hheld.conserved.setCaller ?_) id
      rw [hcaller]
      rfl
  | arrive k | handle k =>
      simp only [Server.step, Option.ite_none_right_eq_some,
        Option.some.injEq] at hstep
      obtain ⟨hconn, rfl⟩ := hstep
      exact hheld.setPool hinv rfl
        (hheld.conserved.setConn (by simp [hconn]) (by simp)) id
  | verify k ok =>
      simp only [Server.step, Option.ite_none_right_eq_some,
        Option.some.injEq] at hstep
      obtain ⟨hconn, rfl⟩ := hstep
      exact hheld.setPool hinv rfl
        (hheld.conserved.setConn (by simp [hconn]) (by cases ok <;> simp)) id
  | handoff k j =>
      simp only [Server.step, Option.ite_none_right_eq_some,
        Option.some.injEq] at hstep
      obtain ⟨⟨hconn, hcaller, _⟩, rfl⟩ := hstep
      have hnone : (s.pool.callers j).conn = none := by
        rw [hcaller]
        rfl
      exact hheld.setPool hinv rfl (hheld.conserved.handoff hconn hnone) id

/-- No connection is lost: an accepted one is in the pool, with one caller or
closed by the stoper, and in the pool only until the stoper has drained it; a
rejected one is closed by `handleConnection`. -/
structure Accounted (s : State cfg) : Prop where
  once : ∀ k, s.pool.conns k = .accepted → ∃! place, s.pool.At k place
  only : ∀ k place, s.pool.At k place → s.pool.conns k = .accepted
  queuedOnce : s.pool.workConnCh.buf.Nodup
  closedOnce : s.pool.drained.Nodup
  settled : s.stoper.drained = true → ∀ k, s.pool.conns k = .accepted →
    (∃ j, s.pool.At k (.caller j)) ∨ s.pool.At k .stoper
  refused : ∀ k, s.pool.conns k = .rejected →
    ∃ s', Server.step s (.handle k) = some s' ∧ s'.pool.conns k = .closed

theorem Held.accounted {s : State cfg} (hheld : s.Held) : s.Accounted where
  once k haccepted := by
    rcases hheld.conserved.kept k with ⟨_, place, hplace⟩ | ⟨hother, _⟩
    · exact ⟨place, (hplace place).mpr rfl, fun other => (hplace other).mp⟩
    · exact absurd haccepted hother
  only k place hat := ((hheld.conserved.kept k).only hat).1
  queuedOnce := hheld.conserved.queued
  closedOnce := hheld.conserved.closed
  settled hdrained k haccepted := by
    rcases hheld.conserved.kept k with ⟨_, place, hplace⟩ | ⟨hother, _⟩
    · have hat := (hplace place).mpr rfl
      cases place with
      | pool =>
          rw [Pool.At, hheld.empty hdrained] at hat
          cases hat
      | caller j => exact Or.inl ⟨j, hat⟩
      | stoper => exact Or.inr hat
    · exact absurd haccepted hother
  refused k hrejected := by
    refine ⟨{ s with pool := s.pool.setConn k .closed }, ?_, ?_⟩
    · simp [Server.step, hrejected]
    · simp [Pool.setConn]

end State

theorem held_of_run {word : List Action} {s : State cfg}
    (hrun : (system cfg).Run Permitted word s) : s.Held := by
  refine System.Run.invariant State.held_init ?_ hrun
  intro state action next hheld hpermitted hstep
  exact State.Held.step hheld hpermitted hstep

/-- Every work connection is accounted for in every run in which nobody
registers one after the stoper has closed the pool. -/
theorem accounted_of_run {word : List Action} {s : State cfg}
    (hrun : (system cfg).Run Permitted word s) : s.Accounted :=
  (held_of_run hrun).accounted

/-- One connection is taken by a call, another one is closed by the stoper and
a third one comes for a client that has gone. -/
def orderlyEnd : List Action :=
  [.start, .start, .writer true, .arrive 0, .verify 0 true, .register 0,
    .arrive 1, .verify 1 true, .register 1, .call 0, .get 0, .get 0,
    .connFail, .reader .eof, .reader .eof, .reader .eof, .stoper .returned,
    .stoper .returned, .stoper .returned, .stoper .returned,
    .manager .returned, .manager .returned, .manager .returned,
    .stoper .returned, .stoper .returned, .writer true, .writer false,
    .writer true, .writer true, .stoper .returned, .stoper .returned,
    .stoper .returned, .stoper .returned, .stoper .returned, .arrive 2,
    .verify 2 false]

theorem accounted_of_run_orderlyEnd :
    ∃ s, (system noPool).Run Permitted orderlyEnd s ∧
      s.stoper.drained = true ∧ s.pool.At 0 (.caller 0) ∧
      s.pool.At 1 .stoper ∧ s.pool.conns 2 = .rejected ∧ s.Accounted := by
  obtain ⟨s, hrun, hdrained, hcaller, hclosed, hrejected⟩ :
      ∃ s, (system noPool).Run Permitted orderlyEnd s ∧
        s.stoper.drained = true ∧
        (s.pool.callers 0).conn = some 0 ∧ 1 ∈ s.pool.drained ∧
        s.pool.conns 2 = .rejected :=
    System.exists_run_of_replay (by decide)
  exact ⟨s, hrun, hdrained, hcaller, hclosed, hrejected,
    accounted_of_run hrun⟩

/-- The Control is found before its stoper closes the pool, and the connection
is registered afterwards. -/
def lateRegister : List Action :=
  [.start, .start, .writer true, .arrive 0, .verify 0 true, .connFail,
    .reader .eof, .reader .eof, .reader .eof, .stoper .returned,
    .stoper .returned, .stoper .returned, .stoper .returned,
    .manager .returned, .manager .returned, .manager .returned,
    .stoper .returned, .stoper .returned, .writer true, .writer true,
    .writer true, .stoper .returned, .stoper .returned, .stoper .returned,
    .register 0, .stoper .returned, .stoper .returned]

theorem not_accounted_lateRegister :
    ∃ s, (system noPool).Reaches lateRegister s ∧ s.allDone = true ∧
      s.pool.conns 0 = .accepted ∧ (∀ j, s.pool.callers j = .idle) ∧
      ¬ s.Accounted := by
  refine ⟨_, System.run_of_replay rfl, rfl, rfl, fun _ => rfl, ?_⟩
  intro haccounted
  obtain ⟨place, hat, _⟩ := haccounted.once 0 rfl
  cases place <;> cases hat

end Frp.Server
