/-
`Snapshot` and `Clear` of the counter in `pkg/util/metric/date_counter.go`.  A
snapshot and its original are two records that could share memory, so the slices
of all counters lie in one store here, and each counter has the address of its
own.
-/
import Frp.Lib.Ledger
import Frp.Metric.DateCounter

namespace Frp

open Transition

namespace Metric

namespace StandardDateCounter

variable (zone : Zone)

def clear (c : StandardDateCounter) : StandardDateCounter where
  reserveDays := c.reserveDays
  counts := List.replicate c.reserveDays 0
  lastUpdateDate := c.lastUpdateDate
  positive := c.positive
  size := List.length_replicate

/-- The counts as they are under the date of the call. -/
def snapshot (c : StandardDateCounter) (t : Int) : StandardDateCounter :=
  { newStandardDateCounter zone c.reserveDays c.positive t with
    counts := c.counts
    size := c.size }

/-- What the two getters return. -/
def reports (c : StandardDateCounter) (t : Int) :
    Int64 × (Int → Option (List Int64)) :=
  ((c.todayCount zone t).2,
    fun lastdays => (c.getLastDaysCount zone t lastdays).map Prod.snd)

end StandardDateCounter

namespace Snapshots

open StandardDateCounter (newStandardDateCounter)

/-- A counter whose slice is at the address `counts`. -/
structure Cell where
  reserveDays : Nat
  counts : Nat
  lastUpdateDate : Int
  positive : 0 < reserveDays

structure Store where
  cells : Nat → Option Cell
  slices : List (List Int64)
  now : Int

/-- A method that writes no other counter than its own. -/
inductive Op where
  | call (action : Metric.Action)
  | clear (t : Int)
deriving DecidableEq, Repr

def Op.time : Op → Int
  | .call action => action.time
  | .clear t => t

/-- What the counter is after a call on it alone. -/
def Op.run (zone : Zone) (c : StandardDateCounter) : Op → StandardDateCounter
  | .call (.inc t count) => c.inc zone t count
  | .call (.dec t count) => c.dec zone t count
  | .call (.todayCount t) => (c.todayCount zone t).1
  | .call (.getLastDaysCount t _) => c.rotate zone t
  | .clear _ => c.clear

/-- The snapshot of counter `i` becomes counter `j`. -/
inductive Action where
  | on (i : Nat) (op : Op)
  | snapshot (i j : Nat) (t : Int)
deriving DecidableEq, Repr

variable (zone : Zone)

/-- The record with what its slice holds. -/
def load (slices : List (List Int64)) (cell : Cell) :
    Option StandardDateCounter :=
  match slices[cell.counts]? with
  | none => none
  | some counts =>
      if hsize : counts.length = cell.reserveDays then
        some ⟨cell.reserveDays, counts, cell.lastUpdateDate, cell.positive,
          hsize⟩
      else none

namespace Store

def counter (s : Store) (i : Nat) : Option StandardDateCounter :=
  (s.cells i).bind (load s.slices)

def setCell (s : Store) (i : Nat) (cell : Cell) : Store :=
  { s with cells := Function.update s.cells i (some cell) }

/-- `make([]int64, reserveDays)`, filled. -/
def make (s : Store) (i : Nat) (cell : Cell) (counts : List Int64) : Store :=
  { s.setCell i { cell with counts := s.slices.length } with
    slices := s.slices ++ [counts] }

/-- `rotate` makes a new slice when days have passed. -/
def rotate (s : Store) (i : Nat) (cell : Cell) (c : StandardDateCounter)
    (t : Int) : Store :=
  let date := zone.midnight (zone.day t)
  let cell := { cell with lastUpdateDate := date }
  if c.shift date ≤ 0 then s.setCell i cell
  else s.make i cell (c.rotated (c.shift date))

/-- Write to the slice of a counter in place. -/
def write (s : Store) (i : Nat) (f : List Int64 → List Int64) : Store :=
  match s.cells i with
  | none => s
  | some cell => { s with slices := s.slices.modify cell.counts f }

def setNow (s : Store) (t : Int) : Store := { s with now := t }

/-- A method call on counter `i`. -/
def on (s : Store) (i : Nat) (cell : Cell) (c : StandardDateCounter) :
    Op → Option Store
  | .call (.inc t count) =>
      some ((s.rotate zone i cell c t).write i (·.modify 0 (· + count)))
  | .call (.dec t count) =>
      some ((s.rotate zone i cell c t).write i (·.modify 0 (· + -count)))
  | .call (.todayCount t) => some (s.rotate zone i cell c t)
  | .call (.getLastDaysCount t lastdays) =>
      if min lastdays c.reserveDays < 0 then none
      else some (s.rotate zone i cell c t)
  | .clear _ => some (s.write i fun _ => List.replicate c.reserveDays 0)

def reports (s : Store) (i : Nat) (t : Int) :
    Option (Int64 × (Int → Option (List Int64))) :=
  (s.counter i).map fun c => c.reports zone t

end Store

def step (s : Store) : Action → Option Store
  | .on i op =>
      if s.now ≤ op.time then
        (s.cells i).bind fun cell => (load s.slices cell).bind fun c =>
          (s.on zone i cell c op).map fun s => s.setNow op.time
      else none
  | .snapshot i j t =>
      if s.now ≤ t ∧ s.cells j = none then
        (s.counter i).map fun c =>
          (s.make j ⟨c.reserveDays, 0, zone.midnight (zone.day t), c.positive⟩
            c.counts).setNow t
      else none

/-- All calls on a counter made at the time `start` and on its snapshots. -/
def system (reserveDays : Nat) (hpositive : 0 < reserveDays) (start : Int) :
    System Store Action where
  start := (Store.make ⟨fun _ => none, [], start⟩ 0
    ⟨reserveDays, 0, zone.midnight (zone.day start), hpositive⟩
    (List.replicate reserveDays 0))
  step := step zone

theorem load_eq_some_iff {slices : List (List Int64)} {cell : Cell}
    {c : StandardDateCounter} :
    load slices cell = some c ↔ slices[cell.counts]? = some c.counts ∧
      c.reserveDays = cell.reserveDays ∧
      c.lastUpdateDate = cell.lastUpdateDate := by
  unfold load
  cases hslice : slices[cell.counts]? with
  | none => simp
  | some counts =>
      constructor
      · intro hload
        rw [Option.dite_none_right_eq_some] at hload
        obtain ⟨hsize, hc⟩ := hload
        cases hc
        exact ⟨rfl, rfl, rfl⟩
      · rintro ⟨hcounts, hdays, hdate⟩
        cases c
        cases hcounts
        cases hdays
        cases hdate
        rename_i hsize
        exact dif_pos hsize

theorem load_append {slices : List (List Int64)} {cell : Cell}
    (hbelow : cell.counts < slices.length) (counts : List Int64) :
    load (slices ++ [counts]) cell = load slices cell := by
  rw [load, load, List.getElem?_append_left hbelow]

theorem load_modify_of_ne {slices : List (List Int64)} {cell : Cell}
    {address : Nat} (hne : address ≠ cell.counts)
    (f : List Int64 → List Int64) :
    load (slices.modify address f) cell = load slices cell := by
  rw [load, load, List.getElem?_modify]
  simp [hne]

namespace Store

/-- The address of a counter's slice. -/
def address (s : Store) (i : Nat) : Option Nat := (s.cells i).map Cell.counts

/-- No slice has two counters, and every counter has a slice of its size. -/
structure Separate (s : Store) : Prop where
  numbered : Ledger.Numbered s.address s.slices.length
  loaded : ∀ i cell, s.cells i = some cell →
    ∃ c, load s.slices cell = some c

theorem cell_of_counter {s : Store} {i : Nat} {c : StandardDateCounter}
    (hcounter : s.counter i = some c) :
    ∃ cell, s.cells i = some cell ∧ load s.slices cell = some c :=
  Option.bind_eq_some_iff.mp hcounter

theorem counter_of_cell {s : Store} {i : Nat} {cell : Cell}
    (hcell : s.cells i = some cell) : s.counter i = load s.slices cell := by
  rw [counter, hcell]
  rfl

/-- Counter `i` becomes `c` and nothing else changes. -/
structure Becomes (s : Store) (i : Nat) (c : StandardDateCounter)
    (s' : Store) : Prop where
  separate : s'.Separate
  counter : s'.counter = Function.update s.counter i (some c)

variable {s s' s'' : Store} {i : Nat} {cell : Cell}
  {c c' : StandardDateCounter}

theorem Becomes.trans (hfirst : Becomes s i c s')
    (hsecond : Becomes s' i c' s'') : Becomes s i c' s'' where
  separate := hsecond.separate
  counter := by
    rw [hsecond.counter, hfirst.counter, Function.update_idem]

theorem Becomes.self (hbecomes : Becomes s i c s') :
    s'.counter i = some c := by
  rw [hbecomes.counter, Function.update_self]

theorem Becomes.setNow (hbecomes : Becomes s i c s') (t : Int) :
    Becomes s i c (s'.setNow t) :=
  ⟨⟨hbecomes.separate.numbered, hbecomes.separate.loaded⟩, hbecomes.counter⟩

/-- The counters are found again one by one. -/
theorem becomes_of (hnumbered : Ledger.Numbered s'.address s'.slices.length)
    (hself : s'.cells i = some cell) (hload : load s'.slices cell = some c)
    (hothers : ∀ j, j ≠ i → s'.cells j = s.cells j ∧
      ∀ other, s.cells j = some other →
        load s'.slices other = load s.slices other)
    (hseparate : s.Separate) : Becomes s i c s' where
  separate := by
    refine ⟨hnumbered, fun j other hother => ?_⟩
    by_cases hj : j = i
    · rw [hj, hself, Option.some.injEq] at hother
      exact ⟨c, hother ▸ hload⟩
    · obtain ⟨hcells, hsame⟩ := hothers j hj
      rw [hcells] at hother
      rw [hsame other hother]
      exact hseparate.loaded j other hother
  counter := by
    funext j
    by_cases hj : j = i
    · rw [hj, Function.update_self, counter_of_cell hself, hload]
    · obtain ⟨hcells, hsame⟩ := hothers j hj
      rw [Function.update_of_ne hj]
      cases hcell : s.cells j with
      | none => rw [counter, counter, hcells, hcell]; rfl
      | some other =>
          rw [counter_of_cell hcell, counter_of_cell (hcells.trans hcell),
            hsame other hcell]

theorem becomes_make (hseparate : s.Separate) (i : Nat) (cell : Cell)
    {counts : List Int64} (hsize : counts.length = cell.reserveDays) :
    Becomes s i ⟨cell.reserveDays, counts, cell.lastUpdateDate, cell.positive,
      hsize⟩ (s.make i cell counts) := by
  have haddress : (s.make i cell counts).address =
      Function.update s.address i (some s.slices.length) := by
    funext j
    by_cases hj : j = i
    · rw [hj]
      simp [address, make, setCell]
    · simp [address, make, setCell, hj]
  refine becomes_of ?_ (Function.update_self ..) ?_ ?_ hseparate
  · rw [haddress, make, List.length_append]
    exact hseparate.numbered.insert i
  · exact load_eq_some_iff.mpr ⟨by simp [make], rfl, rfl⟩
  · intro j hj
    refine ⟨Function.update_of_ne hj .., fun other hother => ?_⟩
    refine load_append (hseparate.numbered.below j _ ?_) counts
    rw [address, hother]
    rfl

/-- Only the date is written. -/
theorem becomes_setDate (hseparate : s.Separate)
    (hcell : s.cells i = some cell) (hload : load s.slices cell = some c)
    (date : Int) :
    Becomes s i { c with lastUpdateDate := date }
      (s.setCell i { cell with lastUpdateDate := date }) := by
  have haddress :
      (s.setCell i { cell with lastUpdateDate := date }).address =
        s.address := by
    funext j
    by_cases hj : j = i
    · rw [hj]
      simp [address, setCell, hcell]
    · simp [address, setCell, hj]
  obtain ⟨hslice, hdays, -⟩ := load_eq_some_iff.mp hload
  refine becomes_of ?_ (Function.update_self ..) ?_ ?_ hseparate
  · rw [haddress]
    exact hseparate.numbered
  · exact load_eq_some_iff.mpr ⟨hslice, hdays, rfl⟩
  · exact fun j hj => ⟨Function.update_of_ne hj .., fun _ _ => rfl⟩

theorem becomes_write (hseparate : s.Separate) (hcounter : s.counter i = some c)
    {f : List Int64 → List Int64}
    (hsize : (f c.counts).length = c.reserveDays) :
    Becomes s i { c with counts := f c.counts, size := hsize }
      (s.write i f) := by
  obtain ⟨cell, hcell, hload⟩ := cell_of_counter hcounter
  obtain ⟨hslice, hdays, hdate⟩ := load_eq_some_iff.mp hload
  have hwrite : s.write i f =
      { s with slices := s.slices.modify cell.counts f } := by
    rw [write, hcell]
  have haddress : s.address i = some cell.counts := by
    rw [address, hcell]
    rfl
  rw [hwrite]
  refine becomes_of ?_ hcell ?_ ?_ hseparate
  · rw [List.length_modify]
    exact hseparate.numbered
  · refine load_eq_some_iff.mpr ⟨?_, hdays, hdate⟩
    rw [List.getElem?_modify, hslice]
    simp
  · intro j hj
    refine ⟨rfl, fun other hother => load_modify_of_ne ?_ f⟩
    intro hsame
    refine hj (hseparate.numbered.one j i cell.counts ?_ haddress)
    rw [address, hother, hsame]
    rfl

theorem becomes_rotate (hseparate : s.Separate) (hcell : s.cells i = some cell)
    (hload : load s.slices cell = some c) (t : Int) :
    Becomes s i (c.rotate zone t) (s.rotate zone i cell c t) := by
  obtain ⟨-, hdays, -⟩ := load_eq_some_iff.mp hload
  unfold rotate
  by_cases hpast : c.shift (zone.midnight (zone.day t)) ≤ 0
  · have hrotate : c.rotate zone t =
        { c with lastUpdateDate := zone.midnight (zone.day t) } := by
      simp only [StandardDateCounter.rotate, StandardDateCounter.rotated,
        if_pos hpast]
    rw [hrotate]
    simp only [if_pos hpast]
    exact becomes_setDate hseparate hcell hload _
  · simp only [if_neg hpast]
    have hsize := c.length_rotated (c.shift (zone.midnight (zone.day t)))
    rw [hdays] at hsize
    have hbecomes := becomes_make hseparate i
      { cell with lastUpdateDate := zone.midnight (zone.day t) } hsize
    cases c
    cases hdays
    exact hbecomes

/-- A method writes what it would write if its counter were alone. -/
theorem becomes_on (hseparate : s.Separate) (hcell : s.cells i = some cell)
    (hload : load s.slices cell = some c) {op : Op}
    (hon : s.on zone i cell c op = some s') :
    Becomes s i (op.run zone c) s' := by
  have hrotate := becomes_rotate zone hseparate hcell hload
  cases op with
  | call action =>
      cases action with
      | inc t count =>
          cases hon
          exact (hrotate t).trans (becomes_write (hrotate t).separate
            (hrotate t).self ((c.rotate zone t).add count).size)
      | dec t count =>
          cases hon
          exact (hrotate t).trans (becomes_write (hrotate t).separate
            (hrotate t).self ((c.rotate zone t).add (-count)).size)
      | todayCount t =>
          cases hon
          exact hrotate t
      | getLastDaysCount t lastdays =>
          rw [on, Option.ite_none_left_eq_some, Option.some.injEq] at hon
          exact hon.2 ▸ hrotate t
  | clear t =>
      cases hon
      exact becomes_write (f := fun _ => List.replicate c.reserveDays 0)
        hseparate ((counter_of_cell hcell).trans hload) c.clear.size

end Store

/-- The counters are separate, and each has the date of some time before. -/
structure Inv (s : Store) : Prop where
  separate : s.Separate
  dated : ∀ i c, s.counter i = some c →
    ∃ u ≤ s.now, c.lastUpdateDate = zone.midnight (zone.day u)

variable {zone} {s s' : Store} {i j : Nat} {c : StandardDateCounter}

theorem inv_init (reserveDays : Nat) (hpositive : 0 < reserveDays)
    (start : Int) : Inv zone (system zone reserveDays hpositive start).start := by
  have hempty : Store.Separate ⟨fun _ => none, [], start⟩ :=
    { numbered :=
        { below := fun _ _ haddress => by simp [Store.address] at haddress
          one := fun _ _ _ haddress => by simp [Store.address] at haddress }
      loaded := fun _ _ hcell => by cases hcell }
  have hsize : (List.replicate reserveDays (0 : Int64)).length = reserveDays :=
    List.length_replicate
  have hmake := Store.becomes_make hempty 0
    ⟨reserveDays, 0, zone.midnight (zone.day start), hpositive⟩ hsize
  refine ⟨hmake.separate, fun i c hcounter => ⟨start, Int.le_refl _, ?_⟩⟩
  change (Store.make _ _ _ _).counter i = some c at hcounter
  rw [hmake.counter] at hcounter
  by_cases hi : i = 0
  · rw [hi, Function.update_self, Option.some.injEq] at hcounter
    exact hcounter ▸ rfl
  · rw [Function.update_of_ne hi] at hcounter
    cases hcounter

/-- A method call is one on its counter alone. -/
theorem becomes_of_step_on (hseparate : s.Separate) {op : Op}
    (hstep : step zone s (.on i op) = some s') :
    s.now ≤ op.time ∧ s'.now = op.time ∧
      ∃ c, s.counter i = some c ∧ s.Becomes i (op.run zone c) s' := by
  rw [step, Option.ite_none_right_eq_some] at hstep
  obtain ⟨hlater, hstep⟩ := hstep
  obtain ⟨cell, hcell, hstep⟩ := Option.bind_eq_some_iff.mp hstep
  obtain ⟨c, hload, hstep⟩ := Option.bind_eq_some_iff.mp hstep
  obtain ⟨next, hon, rfl⟩ := Option.map_eq_some_iff.mp hstep
  exact ⟨hlater, rfl, c, (Store.counter_of_cell hcell).trans hload,
    (Store.becomes_on zone hseparate hcell hload hon).setNow op.time⟩

/-- The new counter is the snapshot of the other one. -/
theorem becomes_of_step_snapshot (hseparate : s.Separate) {t : Int}
    (hstep : step zone s (.snapshot i j t) = some s') :
    s.now ≤ t ∧ s'.now = t ∧ s.cells j = none ∧
      ∃ c, s.counter i = some c ∧ s.Becomes j (c.snapshot zone t) s' := by
  rw [step, Option.ite_none_right_eq_some] at hstep
  obtain ⟨⟨hlater, hnew⟩, hstep⟩ := hstep
  obtain ⟨c, hcounter, rfl⟩ := Option.map_eq_some_iff.mp hstep
  have hmake := Store.becomes_make hseparate j
    ⟨c.reserveDays, 0, zone.midnight (zone.day t), c.positive⟩ c.size
  exact ⟨hlater, rfl, hnew, c, hcounter, hmake.setNow t⟩

theorem date_run (c : StandardDateCounter) (op : Op) :
    (op.run zone c).lastUpdateDate = c.lastUpdateDate ∨
      (op.run zone c).lastUpdateDate = zone.midnight (zone.day op.time) := by
  cases op with
  | call action => cases action <;> exact .inr rfl
  | clear t => exact .inl rfl

theorem Inv.of_becomes (hinv : Inv zone s) (hbecomes : s.Becomes i c s')
    (hlater : s.now ≤ s'.now)
    (hdate : ∃ u ≤ s'.now, c.lastUpdateDate = zone.midnight (zone.day u)) :
    Inv zone s' where
  separate := hbecomes.separate
  dated j other hother := by
    rw [hbecomes.counter] at hother
    by_cases hj : j = i
    · rw [hj, Function.update_self, Option.some.injEq] at hother
      exact hother ▸ hdate
    · rw [Function.update_of_ne hj] at hother
      obtain ⟨u, hu, hsame⟩ := hinv.dated j other hother
      exact ⟨u, Int.le_trans hu hlater, hsame⟩

theorem Inv.step (hinv : Inv zone s) {action : Action}
    (hstep : step zone s action = some s') : Inv zone s' := by
  cases action with
  | on i op =>
      obtain ⟨hlater, hnow, c, hcounter, hbecomes⟩ :=
        becomes_of_step_on hinv.separate hstep
      refine hinv.of_becomes hbecomes (hnow ▸ hlater) ?_
      rcases date_run c op with hsame | hnew
      · obtain ⟨u, hu, hdate⟩ := hinv.dated i c hcounter
        exact ⟨u, Int.le_trans hu (hnow ▸ hlater), hsame.trans hdate⟩
      · exact ⟨op.time, hnow ▸ Int.le_refl _, hnew⟩
  | snapshot i j t =>
      obtain ⟨hlater, hnow, -, c, -, hbecomes⟩ :=
        becomes_of_step_snapshot hinv.separate hstep
      exact hinv.of_becomes hbecomes (hnow ▸ hlater)
        ⟨t, hnow ▸ Int.le_refl _, rfl⟩

theorem inv_of_reaches {reserveDays : Nat} {hpositive : 0 < reserveDays}
    {start : Int} {word : List Action}
    (hreaches : (system zone reserveDays hpositive start).Reaches word s) :
    Inv zone s :=
  System.Reaches.invariant (inv_init reserveDays hpositive start)
    (fun _ _ _ hinv hstep => hinv.step hstep) hreaches

/-- What no method of a counter is called on stays as it is. -/
theorem counter_of_step (hinv : Inv zone s) {action : Action}
    (hstep : step zone s action = some s') {k : Nat} (hcounter : s.counter k = some c)
    (hother : ∀ op, action ≠ .on k op) : s'.counter k = some c := by
  cases action with
  | on i op =>
      obtain ⟨-, -, _, -, hbecomes⟩ := becomes_of_step_on hinv.separate hstep
      have hk : k ≠ i := fun heq => hother op (heq ▸ rfl)
      rw [hbecomes.counter, Function.update_of_ne hk, hcounter]
  | snapshot i j t =>
      obtain ⟨-, -, hnew, _, -, hbecomes⟩ :=
        becomes_of_step_snapshot hinv.separate hstep
      have hk : k ≠ j := by
        rintro rfl
        obtain ⟨cell, hcell, -⟩ := Store.cell_of_counter hcounter
        rw [hcell] at hnew
        cases hnew
      rw [hbecomes.counter, Function.update_of_ne hk, hcounter]

theorem exists_counter_of_step (hinv : Inv zone s) {action : Action}
    (hstep : step zone s action = some s') {k : Nat}
    (hexists : ∃ c, s.counter k = some c) : ∃ c, s'.counter k = some c := by
  obtain ⟨c, hcounter⟩ := hexists
  by_cases hother : ∀ op, action ≠ .on k op
  · exact ⟨c, counter_of_step hinv hstep hcounter hother⟩
  · simp only [not_forall, not_not] at hother
    obtain ⟨op, rfl⟩ := hother
    obtain ⟨-, -, found, -, hbecomes⟩ :=
      becomes_of_step_on hinv.separate hstep
    exact ⟨_, hbecomes.self⟩

end Snapshots

section Rotated

variable {c d : StandardDateCounter}

/-- The counts that are still in the window after so many days are all 0. -/
def Gone (c : StandardDateCounter) (days : Int) : Prop :=
  ∀ i : Nat, i + days < c.reserveDays → c.counts[i]? = some 0

theorem getElem?_rotated_of_gone {a b : Int} (hgone : Gone c a) (hle : a ≤ b)
    {i : Nat} (hi : i < c.reserveDays) : (c.rotated b)[i]? = some 0 := by
  rw [c.getElem?_rotated b hi]
  split
  · rfl
  · exact hgone _ (by omega)

/-- Rotations by different numbers of days leave the same only when they leave
nothing. -/
theorem rotated_eq_iff {a b : Int} (hnonneg : 0 ≤ a) (hle : a ≤ b) :
    c.rotated a = c.rotated b ↔ a = b ∨ Gone c a := by
  constructor
  · intro hsame
    by_cases heq : a = b
    · exact .inl heq
    · refine .inr fun i => ?_
      -- what is at `i` on one side is at an earlier place on the other
      induction i using Nat.strong_induction_on with
      | h i ih =>
          intro hi
          have hleft := c.getElem?_rotated a (i := i + a.toNat) (by omega)
          have hright := c.getElem?_rotated b (i := i + a.toNat) (by omega)
          rw [hsame, hright, if_neg (by omega : ¬ ((i + a.toNat : Nat) : Int) < a),
            Nat.add_sub_cancel] at hleft
          rw [← hleft]
          split
          · rfl
          · exact ih _ (by omega) (by omega)
  · rintro (rfl | hgone)
    · rfl
    · refine List.ext_getElem? fun i => ?_
      by_cases hi : i < c.reserveDays
      · rw [getElem?_rotated_of_gone hgone (Int.le_refl a) hi,
          getElem?_rotated_of_gone hgone hle hi]
      · rw [List.getElem?_eq_none (by rw [c.length_rotated]; omega),
          List.getElem?_eq_none (by rw [c.length_rotated]; omega)]

variable {zone : Zone}

/-- All the days together show the counts. -/
theorem reports_eq_iff (hdays : d.reserveDays = c.reserveDays) (t : Int) :
    c.reports zone t = d.reports zone t ↔
      (c.rotate zone t).counts = (d.rotate zone t).counts := by
  constructor
  · intro hsame
    have hlast := congrFun (congrArg Prod.snd hsame) (c.reserveDays : Int)
    simp only [StandardDateCounter.reports,
      StandardDateCounter.getLastDaysCount, hdays] at hlast
    rw [if_neg (by omega), if_neg (by omega)] at hlast
    have hall : (min (c.reserveDays : Int) c.reserveDays).toNat =
        c.reserveDays := by omega
    have hleft : (c.rotate zone t).counts.length = c.reserveDays :=
      (c.rotate zone t).size
    have hright : (d.rotate zone t).counts.length = c.reserveDays :=
      (d.rotate zone t).size.trans hdays
    rw [hall, Option.map_some, Option.map_some, Option.some.injEq] at hlast
    dsimp only at hlast
    rw [List.take_of_length_le (Nat.le_of_eq hleft),
      List.take_of_length_le (Nat.le_of_eq hright)] at hlast
    exact hlast
  · intro hsame
    have hhead : (c.rotate zone t).head = (d.rotate zone t).head := by
      simp only [StandardDateCounter.head, hsame]
    simp only [StandardDateCounter.reports, StandardDateCounter.todayCount,
      StandardDateCounter.getLastDaysCount, hdays, hsame, hhead,
      Prod.mk.injEq, true_and]
    funext lastdays
    split <;> rfl

end Rotated

/-- The whole days that `rotate` sees between two dates. -/
def spans (date date' : Int) : Int :=
  (min (date' - date) maxDurationHours).tdiv 24

theorem spans_self (date : Int) : spans date date = 0 := by
  rw [spans, Int.sub_self]
  rfl

theorem spans_nonneg {date date' : Int} (hle : date ≤ date') :
    0 ≤ spans date date' := by
  rw [spans, maxDurationHours, Int.tdiv_eq_ediv_of_nonneg (by omega)]
  omega

theorem spans_mono {first date date' : Int} (hfirst : first ≤ date)
    (hle : date ≤ date') : spans date date' ≤ spans first date' := by
  rw [spans, spans, maxDurationHours, Int.tdiv_eq_ediv_of_nonneg (by omega),
    Int.tdiv_eq_ediv_of_nonneg (by omega)]
  omega

variable (zone : Zone)

/-- As many whole days have passed since the date of the counter as since the one
of the snapshot, or what the snapshot still has is 0. -/
def InStepAt (c : StandardDateCounter) (t t' : Int) : Prop :=
  spans c.lastUpdateDate (zone.midnight (zone.day t')) =
      spans (zone.midnight (zone.day t)) (zone.midnight (zone.day t')) ∨
    Gone c (spans (zone.midnight (zone.day t)) (zone.midnight (zone.day t')))

def InStep (c : StandardDateCounter) (t : Int) : Prop :=
  ∀ t', t ≤ t' → InStepAt zone c t t'

variable {zone}

/-- Where every day has 24 hours: the snapshot is taken on the day of the last
rotation, or of a counter without counts. -/
theorem inStep_iff_of_days (hdays : ∀ d,
      zone.midnight (d + 1) = zone.midnight d + 24)
    {c : StandardDateCounter} {u t : Int} (hlater : u ≤ t)
    (hdate : c.lastUpdateDate = zone.midnight (zone.day u)) :
    InStep zone c t ↔ zone.day t = zone.day u ∨ Gone c 0 := by
  constructor
  · intro hstep
    have hnow := hstep t (Int.le_refl t)
    rw [InStepAt, spans_self, hdate] at hnow
    refine hnow.imp_left fun hzero => ?_
    by_contra hne
    have hday := zone.day_mono hlater
    have hnext := zone.midnight_mono (show zone.day u + 1 ≤ zone.day t by omega)
    rw [hdays] at hnext
    rw [spans, maxDurationHours, Int.tdiv_eq_ediv_of_nonneg (by omega)] at hzero
    omega
  · rintro (hsame | hgone) t' ht'
    · exact .inl (by rw [hdate, hsame])
    · refine .inr fun i hi => hgone i ?_
      have hnonneg := spans_nonneg (zone.midnight_mono (zone.day_mono ht'))
      omega

/-- What is to be compared at one later time. -/
theorem reports_snapshot_iff {c : StandardDateCounter} {t t' : Int}
    (hdate : c.lastUpdateDate ≤ zone.midnight (zone.day t)) (ht' : t ≤ t') :
    c.reports zone t' = (c.snapshot zone t).reports zone t' ↔
      InStepAt zone c t t' := by
  have hmidnight := zone.midnight_mono (zone.day_mono ht')
  rw [reports_eq_iff (show (c.snapshot zone t).reserveDays = c.reserveDays
    from rfl)]
  change c.rotated (spans c.lastUpdateDate _) =
    c.rotated (spans (zone.midnight (zone.day t)) _) ↔ _
  rw [eq_comm, rotated_eq_iff (spans_nonneg hmidnight)
    (spans_mono hdate hmidnight)]
  exact or_congr_left eq_comm

namespace Snapshots

variable {s s' : Store} {i j : Nat} {c : StandardDateCounter}

/-- Counter `j`, a snapshot of counter `i` taken at `t`: both report the same at all
later times, and after that what is called, except on one of them, does not change
what this one reports. -/
structure Faithful (zone : Zone) (s : Store) (i j : Nat) (t : Int) : Prop where
  same : ∀ t', t ≤ t' → s.reports zone i t' = s.reports zone j t'
  apart : ∀ k, k = i ∨ k = j → ∀ (more : List Action) (later : Store),
    (System.mk s (step zone)).Reaches more later → ∀ action next,
      step zone later action = some next → (∀ op, action ≠ .on k op) →
        ∀ t', next.reports zone k t' = later.reports zone k t'

/-- A snapshot is the counter exactly when the dates of both stay in step. -/
theorem faithful_iff_inStep (zone : Zone) (reserveDays : Nat)
    (hpositive : 0 < reserveDays) (start : Int) (word : List Action)
    (s s' : Store) (i j : Nat) (t : Int) (c : StandardDateCounter)
    (hreaches : (system zone reserveDays hpositive start).Reaches word s)
    (hcounter : s.counter i = some c)
    (hsnapshot : step zone s (.snapshot i j t) = some s') :
    Faithful zone s' i j t ↔ InStep zone c t := by
  have hinv := inv_of_reaches hreaches
  obtain ⟨hlater, -, hnew, found, hfound, hbecomes⟩ :=
    becomes_of_step_snapshot hinv.separate hsnapshot
  obtain rfl := Option.some.inj (hfound.symm.trans hcounter)
  have hij : i ≠ j := by
    rintro rfl
    obtain ⟨cell, hcell, -⟩ := Store.cell_of_counter hcounter
    rw [hcell] at hnew
    cases hnew
  have horiginal : s'.counter i = some found := by
    rw [hbecomes.counter, Function.update_of_ne hij, hcounter]
  obtain ⟨u, hu, hdate⟩ := hinv.dated i found hcounter
  have hbefore : found.lastUpdateDate ≤ zone.midnight (zone.day t) := by
    rw [hdate]
    exact zone.midnight_mono (zone.day_mono (Int.le_trans hu hlater))
  have hsame (t' : Int) (ht' : t ≤ t') :
      s'.reports zone i t' = s'.reports zone j t' ↔
        InStepAt zone found t t' := by
    rw [Store.reports, Store.reports, horiginal, hbecomes.self,
      Option.map_some, Option.map_some, Option.some.injEq]
    exact reports_snapshot_iff hbefore ht'
  constructor
  · intro hfaithful t' ht'
    exact (hsame t' ht').mp (hfaithful.same t' ht')
  · intro hstep
    refine ⟨fun t' ht' => (hsame t' ht').mpr (hstep t' ht'), ?_⟩
    intro k hk more later hmore action next hnext hother t'
    have hexists : ∃ c, s'.counter k = some c := by
      rcases hk with rfl | rfl
      · exact ⟨found, horiginal⟩
      · exact ⟨_, hbecomes.self⟩
    have hkept : Inv zone later ∧ ∃ c, later.counter k = some c := by
      refine System.Reaches.invariant
        (I := fun s => Inv zone s ∧ ∃ c, s.counter k = some c)
        ⟨hinv.step hsnapshot, hexists⟩ ?_ hmore
      exact fun _ _ _ hkept hstep =>
        ⟨hkept.1.step hstep, exists_counter_of_step hkept.1 hstep hkept.2⟩
    obtain ⟨hinv', c, hcounter'⟩ := hkept
    rw [Store.reports, Store.reports, hcounter',
      counter_of_step hinv' hnext hcounter' hother]

/-- A snapshot five hours after the last call. -/
theorem faithful_iff_inStep_sameDay :
    ∃ s s' : Store,
      (system fixedZone 7 (Nat.succ_pos 6) 0).Reaches
        [.on 0 (.call (.inc 0 10))] s ∧
      step fixedZone s (.snapshot 0 1 (5 * hour)) = some s' ∧
      (s'.reports fixedZone 1 (30 * hour)).map Prod.fst = some 0 ∧
      Faithful fixedZone s' 0 1 (5 * hour) := by
  refine ⟨_, _, System.reaches_of_exec rfl, rfl, by decide, ?_⟩
  exact (faithful_iff_inStep fixedZone 7 (Nat.succ_pos 6) 0
    [.on 0 (.call (.inc 0 10))] _ _ 0 1 (5 * hour) _
    (System.reaches_of_exec rfl) rfl rfl).mpr fun _ _ => .inl rfl

/-- A snapshot on the next day has the count of the day before as that of today. -/
theorem not_faithful_nextDay :
    ∃ s s' : Store,
      (system fixedZone 7 (Nat.succ_pos 6) 0).Reaches
        [.on 0 (.call (.inc 0 10))] s ∧
      step fixedZone s (.snapshot 0 1 (30 * hour)) = some s' ∧
      (s'.reports fixedZone 0 (30 * hour)).map Prod.fst = some 0 ∧
      (s'.reports fixedZone 1 (30 * hour)).map Prod.fst = some 10 ∧
      ¬ Faithful fixedZone s' 0 1 (30 * hour) := by
  refine ⟨_, _, System.reaches_of_exec rfl, rfl, by decide, by decide, ?_⟩
  intro hfaithful
  have hsame := congrArg (Option.map Prod.fst)
    (hfaithful.same (30 * hour) (Int.le_refl _))
  revert hsame
  decide

end Snapshots

end Metric

end Frp
