/-
Buffered channels with closing.  The bound on the buffer is a field, so a
channel that holds more than its capacity cannot be built.  Sending on a closed
channel and closing twice panic, receiving from a closed one drains it first.
-/
import Mathlib.Data.List.Basic
import Mathlib.Data.List.Nodup

namespace GoChan

universe u

variable {T : Type u}

/-- A channel of capacity `cap`. -/
structure Chan (T : Type u) (cap : Nat) where
  buf : List T
  closed : Bool
  fits : buf.length ≤ cap
deriving DecidableEq

/-- What one attempt to send or to close does to the goroutine that makes it. -/
inductive Outcome (C : Type u) where
  | done (chan : C)
  | block
  | panic
deriving DecidableEq

/-- The attempt of a part is an attempt of the whole. -/
def Outcome.map {C D : Type u} (f : C → D) : Outcome C → Outcome D
  | .done chan => .done (f chan)
  | .block => .block
  | .panic => .panic

@[simp] theorem Outcome.map_eq_done_iff {C D : Type u} {f : C → D}
    {outcome : Outcome C} {whole : D} :
    outcome.map f = .done whole ↔
      ∃ part, outcome = .done part ∧ f part = whole := by
  cases outcome <;> simp [Outcome.map]

@[simp] theorem Outcome.map_eq_panic_iff {C D : Type u} {f : C → D}
    {outcome : Outcome C} : outcome.map f = .panic ↔ outcome = .panic := by
  cases outcome <;> simp [Outcome.map]

/-- What one attempt to receive does. -/
inductive Received (T C : Type u) where
  | value (head : T) (chan : C)
  | closed
  | block
deriving DecidableEq

namespace Chan

variable {cap : Nat}

def make (T : Type u) (cap : Nat) : Chan T cap :=
  ⟨[], false, Nat.zero_le cap⟩

def full (chan : Chan T cap) : Prop := chan.buf.length = cap

instance (chan : Chan T cap) : Decidable chan.full :=
  inferInstanceAs (Decidable (chan.buf.length = cap))

def send (chan : Chan T cap) (value : T) : Outcome (Chan T cap) :=
  if chan.closed then .panic
  else if hroom : chan.buf.length < cap then
    .done ⟨chan.buf ++ [value], false, by
      simpa using Nat.succ_le_of_lt hroom⟩
  else .block

def recv (chan : Chan T cap) : Received T (Chan T cap) :=
  match hbuf : chan.buf with
  | [] => if chan.closed then .closed else .block
  | head :: rest => .value head ⟨rest, chan.closed, by
      have hfits := chan.fits
      rw [hbuf, List.length_cons] at hfits
      exact Nat.le_of_succ_le hfits⟩

def close (chan : Chan T cap) : Outcome (Chan T cap) :=
  if chan.closed then .panic else .done ⟨chan.buf, true, chan.fits⟩

@[simp] theorem make_buf : (make T cap).buf = [] := rfl

@[simp] theorem make_closed : (make T cap).closed = false := rfl

@[simp] theorem send_eq_panic_iff {chan : Chan T cap} {value : T} :
    chan.send value = .panic ↔ chan.closed = true := by
  unfold send
  split
  · simp_all
  · split <;> simp_all

@[simp] theorem send_eq_block_iff {chan : Chan T cap} {value : T} :
    chan.send value = .block ↔ chan.closed = false ∧ chan.full := by
  have hfits := chan.fits
  unfold send full
  split
  · simp_all
  · split
    · simp_all
      omega
    · simp_all
      omega

theorem send_eq_done_iff {chan next : Chan T cap} {value : T} :
    chan.send value = .done next ↔
      chan.closed = false ∧ next.buf = chan.buf ++ [value] ∧
        next.closed = false := by
  unfold send
  constructor
  · intro hsend
    split at hsend
    · cases hsend
    · rename_i hopen
      split at hsend
      · cases hsend
        exact ⟨by simpa using hopen, rfl, rfl⟩
      · cases hsend
  · rintro ⟨hopen, hbuf, hclosed⟩
    have hfits := next.fits
    rw [hbuf, List.length_append, List.length_singleton] at hfits
    rw [if_neg (by simp [hopen]), dif_pos (by omega)]
    cases next
    simp_all

theorem recv_eq_value_iff {chan next : Chan T cap} {head : T} :
    chan.recv = .value head next ↔
      chan.buf = head :: next.buf ∧ next.closed = chan.closed := by
  cases chan with
  | mk buf closed fits =>
      cases buf with
      | nil =>
          cases closed <;> simp [recv]
      | cons first rest =>
          cases next
          simp only [recv, Received.value.injEq, mk.injEq, List.cons.injEq]
          constructor
          · rintro ⟨rfl, rfl, rfl⟩
            exact ⟨⟨rfl, rfl⟩, rfl⟩
          · rintro ⟨⟨rfl, rfl⟩, rfl⟩
            exact ⟨rfl, rfl, rfl⟩

@[simp] theorem recv_eq_closed_iff {chan : Chan T cap} :
    chan.recv = .closed ↔ chan.buf = [] ∧ chan.closed = true := by
  cases chan with
  | mk buf closed fits =>
      cases buf <;> cases closed <;> simp [recv]

@[simp] theorem recv_eq_block_iff {chan : Chan T cap} :
    chan.recv = .block ↔ chan.buf = [] ∧ chan.closed = false := by
  cases chan with
  | mk buf closed fits =>
      cases buf <;> cases closed <;> simp [recv]

theorem close_eq_done_iff {chan next : Chan T cap} :
    chan.close = .done next ↔
      chan.closed = false ∧ next.buf = chan.buf ∧ next.closed = true := by
  cases chan with
  | mk buf closed fits =>
      cases next
      cases closed <;> simp [close]
      intro _
      exact eq_comm

@[simp] theorem close_eq_panic_iff {chan : Chan T cap} :
    chan.close = .panic ↔ chan.closed = true := by
  cases hclosed : chan.closed <;> simp [close, hclosed]

@[simp] theorem close_ne_block {chan : Chan T cap} :
    chan.close ≠ .block := by
  cases hclosed : chan.closed <;> simp [close, hclosed]

/-- An open channel is closed with what it still holds. -/
theorem exists_close_done {chan : Chan T cap} (hopen : chan.closed = false) :
    ∃ next, chan.close = .done next ∧ next.buf = chan.buf ∧
      next.closed = true := by
  cases hclose : chan.close with
  | done next => exact ⟨next, rfl, (close_eq_done_iff.mp hclose).2⟩
  | block => exact absurd hclose close_ne_block
  | panic => simp [close_eq_panic_iff.mp hclose] at hopen

/-- A send is refused the room only by a full buffer. -/
theorem exists_send_done {chan : Chan T cap} (value : T)
    (hopen : chan.closed = false) (hroom : ¬ chan.full) :
    ∃ next, chan.send value = .done next := by
  cases hsend : chan.send value with
  | done next => exact ⟨next, rfl⟩
  | block => exact absurd (send_eq_block_iff.mp hsend).2 hroom
  | panic => simp [send_eq_panic_iff.mp hsend] at hopen

theorem not_full_of_send {chan next : Chan T cap} {value : T}
    (hsend : chan.send value = .done next) : ¬ chan.full := by
  intro hfull
  have hfits := next.fits
  rw [(send_eq_done_iff.mp hsend).2.1, List.length_append, hfull,
    List.length_singleton] at hfits
  exact Nat.not_succ_le_self cap hfits

theorem full_ne_nil {chan : Chan T cap} (hcap : 0 < cap) (hfull : chan.full) :
    chan.buf ≠ [] := by
  intro hnil
  rw [full, hnil, List.length_nil] at hfull
  omega

end Chan

end GoChan
