/-
The counter per day of `pkg/util/metric/date_counter.go`.  Its shift is the
number of hours between two local midnights divided by 24, so the calendar of a
time zone is modelled by the hours at which its days begin.
-/
import Frp.Lib.System
import Mathlib.Algebra.Ring.Int.Defs
import Mathlib.Data.Int.Init

namespace Frp

open Transition

namespace Metric

/-- An hour in nanoseconds. -/
def hour : Int := 3600 * 10 ^ 9

/-- A time zone: the hour at which each day begins and the day of each
nanosecond. -/
structure Zone where
  midnight : Int → Int
  day : Int → Int
  length : ∀ d, 23 ≤ midnight (d + 1) - midnight d ∧
    midnight (d + 1) - midnight d ≤ 25
  begins : ∀ t, hour * midnight (day t) ≤ t
  ends : ∀ t, t < hour * midnight (day t + 1)

namespace Zone

variable (zone : Zone)

theorem midnight_mono {d d' : Int} (hle : d ≤ d') :
    zone.midnight d ≤ zone.midnight d' := by
  induction d', hle using Int.leInduction with
  | base => exact Int.le_refl _
  | succ d' _ ih =>
      have hlength := zone.length d'
      omega

theorem day_mono {t t' : Int} (hle : t ≤ t') : zone.day t ≤ zone.day t' := by
  by_contra hlt
  have hmidnight : zone.midnight (zone.day t' + 1) ≤
      zone.midnight (zone.day t) :=
    zone.midnight_mono (by omega)
  have hhours : hour * zone.midnight (zone.day t' + 1) ≤
      hour * zone.midnight (zone.day t) :=
    Int.mul_le_mul_of_nonneg_left hmidnight (by decide)
  have hbegins := zone.begins t
  have hends := zone.ends t'
  omega

end Zone

/-- The whole hours of the largest Duration, at which `Sub` of two times stops. -/
def maxDurationHours : Int := 2562047

/-- The days of the largest Duration. -/
def maxDurationDays : Int := 106751

/-- The dates are hours, `counts` begins with today. -/
structure StandardDateCounter where
  reserveDays : Nat
  counts : List Int64
  lastUpdateDate : Int
  positive : 0 < reserveDays
  size : counts.length = reserveDays

namespace StandardDateCounter

variable (zone : Zone)

def newStandardDateCounter (reserveDays : Nat) (hpositive : 0 < reserveDays)
    (now : Int) : StandardDateCounter where
  reserveDays := reserveDays
  counts := List.replicate reserveDays 0
  lastUpdateDate := zone.midnight (zone.day now)
  positive := hpositive
  size := List.length_replicate

/-- The days by which `rotate` shifts. -/
def shift (c : StandardDateCounter) (now : Int) : Int :=
  (min (now - c.lastUpdateDate) maxDurationHours).tdiv 24

/-- The counts after `rotate`. -/
def rotated (c : StandardDateCounter) (days : Int) : List Int64 :=
  if days ≤ 0 then c.counts
  else if days ≥ c.reserveDays then List.replicate c.reserveDays 0
  else List.replicate days.toNat 0 ++
    c.counts.take (c.reserveDays - days.toNat)

theorem length_rotated (c : StandardDateCounter) (days : Int) :
    (c.rotated days).length = c.reserveDays := by
  unfold rotated
  split
  · exact c.size
  · split
    · exact List.length_replicate
    · rw [List.length_append, List.length_replicate, List.length_take, c.size]
      omega

def rotate (c : StandardDateCounter) (t : Int) : StandardDateCounter where
  reserveDays := c.reserveDays
  counts := c.rotated (c.shift (zone.midnight (zone.day t)))
  lastUpdateDate := zone.midnight (zone.day t)
  positive := c.positive
  size := c.length_rotated _

def add (c : StandardDateCounter) (count : Int64) : StandardDateCounter where
  reserveDays := c.reserveDays
  counts := c.counts.modify 0 (· + count)
  lastUpdateDate := c.lastUpdateDate
  positive := c.positive
  size := by rw [List.length_modify, c.size]

def inc (c : StandardDateCounter) (t : Int) (count : Int64) :
    StandardDateCounter :=
  (c.rotate zone t).add count

def dec (c : StandardDateCounter) (t : Int) (count : Int64) :
    StandardDateCounter :=
  (c.rotate zone t).add (-count)

/-- The first of the counts. -/
def head (c : StandardDateCounter) : Int64 :=
  c.counts.head (by
    intro hnil
    have hsize := c.size
    have hpositive := c.positive
    rw [hnil, List.length_nil] at hsize
    omega)

def todayCount (c : StandardDateCounter) (t : Int) :
    StandardDateCounter × Int64 :=
  (c.rotate zone t, (c.rotate zone t).head)

/-- A negative number of days panics when the result is made. -/
def getLastDaysCount (c : StandardDateCounter) (t lastdays : Int) :
    Option (StandardDateCounter × List Int64) :=
  let days := min lastdays c.reserveDays
  if days < 0 then none
  else some (c.rotate zone t, (c.rotate zone t).counts.take days.toNat)

theorem counter_of_getLastDaysCount {c : StandardDateCounter}
    {t lastdays : Int} {result : StandardDateCounter × List Int64}
    (hresult : c.getLastDaysCount zone t lastdays = some result) :
    result.1 = c.rotate zone t := by
  simp only [getLastDaysCount, Option.ite_none_left_eq_some,
    Option.some.injEq] at hresult
  exact hresult.2 ▸ rfl

theorem getElem?_rotated (c : StandardDateCounter) (days : Int) {i : Nat}
    (hi : i < c.reserveDays) :
    (c.rotated days)[i]? =
      if (i : Int) < days then some 0 else c.counts[i - days.toNat]? := by
  unfold rotated
  split
  · next hpast =>
      rw [if_neg (by omega), Int.toNat_of_nonpos hpast, Nat.sub_zero]
  · split
    · next hpast hgone =>
        rw [if_pos (by omega), List.getElem?_replicate, if_pos hi]
    · next hpast hkept =>
        rw [List.getElem?_append, List.length_replicate,
          List.getElem?_replicate, List.getElem?_take]
        by_cases hnew : i < days.toNat
        · rw [if_pos hnew, if_pos hnew, if_pos (by omega)]
        · have hold : i - days.toNat < c.reserveDays - days.toNat := by omega
          have hpast : ¬ (i : Int) < days := by omega
          rw [if_neg hnew, if_pos hold, if_neg hpast]

end StandardDateCounter

/-- A counter with the time of the last call. -/
structure State where
  counter : StandardDateCounter
  now : Int

inductive Action where
  | inc (t : Int) (count : Int64)
  | dec (t : Int) (count : Int64)
  | todayCount (t : Int)
  | getLastDaysCount (t lastdays : Int)
deriving DecidableEq, Repr

namespace Action

/-- When a call is made. -/
def time : Action → Int
  | .inc t _ | .dec t _ | .todayCount t | .getLastDaysCount t _ => t

/-- What a call adds to the count of the day it is made on. -/
def amount : Action → Int
  | .inc _ count => count.toInt
  | .dec _ count => -count.toInt
  | .todayCount _ | .getLastDaysCount _ _ => 0

end Action

variable (zone : Zone)

/-- The calls are made one after the other, at times that do not decrease. -/
def step (s : State) (action : Action) : Option State :=
  if s.now ≤ action.time then
    match action with
    | .inc t count => some ⟨s.counter.inc zone t count, t⟩
    | .dec t count => some ⟨s.counter.dec zone t count, t⟩
    | .todayCount t => some ⟨(s.counter.todayCount zone t).1, t⟩
    | .getLastDaysCount t lastdays =>
        (s.counter.getLastDaysCount zone t lastdays).map fun result =>
          ⟨result.1, t⟩
  else none

/-- The calls on a counter made at the time `start`. -/
def system (reserveDays : Nat) (hpositive : 0 < reserveDays) (start : Int) :
    System State Action where
  start := ⟨.newStandardDateCounter zone reserveDays hpositive start, start⟩
  step := step zone

/-- What the calls have added on a day. -/
def netOn (word : List Action) (d : Int) : Int :=
  (word.map fun action =>
    if zone.day action.time = d then action.amount else 0).sum

/-- The hours between the midnights before two calls show the days between them,
or show that the whole window has passed, and are not more than a Duration
holds. -/
def Aligned (s : State) (t : Int) : Prop :=
  let days := zone.day t - zone.day s.now
  let hours := zone.midnight (zone.day t) - zone.midnight (zone.day s.now)
  (24 * days ≤ hours ∧ hours < 24 * (days + 1) ∧ days ≤ maxDurationDays) ∨
    (s.counter.reserveDays ≤ days ∧ 24 * s.counter.reserveDays ≤ hours ∧
      s.counter.reserveDays ≤ maxDurationDays)

instance (s : State) (t : Int) : Decidable (Aligned zone s t) :=
  inferInstanceAs (Decidable ((_ ∧ _ ∧ _) ∨ (_ ∧ _ ∧ _)))

def Permitted (s : State) (action : Action) : Prop :=
  Aligned zone s action.time

instance (s : State) (action : Action) : Decidable (Permitted zone s action) :=
  inferInstanceAs (Decidable (Aligned zone s action.time))

/-- The counts are those of the days up to the last call. -/
structure Inv (word : List Action) (s : State) : Prop where
  date : s.counter.lastUpdateDate = zone.midnight (zone.day s.now)
  future : ∀ d, zone.day s.now < d → netOn zone word d = 0
  counts : ∀ i < s.counter.reserveDays, s.counter.counts[i]? =
    some (Int64.ofInt (netOn zone word (zone.day s.now - i)))

variable {zone}

/-- How far `rotate` shifts: by the days that have passed, or out of the window. -/
theorem shift_of_aligned {word : List Action} {s : State}
    (hinv : Inv zone word s) {t : Int} (hlater : s.now ≤ t)
    (haligned : Aligned zone s t) :
    s.counter.shift (zone.midnight (zone.day t)) = zone.day t - zone.day s.now ∨
      (s.counter.reserveDays ≤ s.counter.shift (zone.midnight (zone.day t)) ∧
        s.counter.reserveDays ≤ zone.day t - zone.day s.now) := by
  have hday := zone.day_mono hlater
  unfold Aligned at haligned
  simp only [maxDurationDays] at haligned
  rw [StandardDateCounter.shift, hinv.date, maxDurationHours,
    Int.tdiv_eq_ediv_of_nonneg (by omega)]
  omega

/-- What `rotate` leaves: the counts of the days up to the new one. -/
theorem Inv.rotate {word : List Action} {s : State} (hinv : Inv zone word s)
    {t : Int} (hlater : s.now ≤ t) (haligned : Aligned zone s t) :
    Inv zone word ⟨s.counter.rotate zone t, t⟩ where
  date := rfl
  future d hd := hinv.future d (by
    have hday := zone.day_mono hlater
    exact Int.lt_of_le_of_lt hday hd)
  counts i hi := by
    have hday := zone.day_mono hlater
    have hi' : i < s.counter.reserveDays := hi
    change (s.counter.rotated _)[i]? = _
    rw [s.counter.getElem?_rotated _ hi']
    have hshift := shift_of_aligned hinv hlater haligned
    generalize s.counter.shift (zone.midnight (zone.day t)) = days at hshift
    split
    · next hnew =>
        have hnone := hinv.future (zone.day t - i) (by omega)
        rw [hnone]
        rfl
    · next hold =>
        have hdays : days = zone.day t - zone.day s.now := by omega
        rw [hinv.counts (i - days.toNat) (by omega)]
        have hsame : zone.day s.now - ((i - days.toNat : Nat) : Int) =
            zone.day t - i := by omega
        rw [hsame]

theorem netOn_append (word : List Action) (action : Action) (d : Int) :
    netOn zone (word ++ [action]) d = netOn zone word d +
      if zone.day action.time = d then action.amount else 0 := by
  simp [netOn]

/-- A call that adds nothing. -/
theorem Inv.observe {word : List Action} {s : State} (hinv : Inv zone word s)
    {action : Action} (hnone : action.amount = 0) :
    Inv zone (word ++ [action]) s := by
  have hsame : ∀ d, netOn zone (word ++ [action]) d = netOn zone word d := by
    intro d
    rw [netOn_append, hnone]
    simp
  constructor
  · exact hinv.date
  · intro d hd
    rw [hsame]
    exact hinv.future d hd
  · intro i hi
    rw [hsame]
    exact hinv.counts i hi

/-- A call that adds to the count of the day of the last rotation. -/
theorem Inv.add {word : List Action} {s : State} (hinv : Inv zone word s)
    {action : Action} (htime : action.time = s.now) {count : Int64}
    (hcount : Int64.ofInt action.amount = count) :
    Inv zone (word ++ [action]) ⟨s.counter.add count, s.now⟩ where
  date := hinv.date
  future d hd := by
    have hday : zone.day s.now < d := hd
    rw [netOn_append, hinv.future d hday, htime, if_neg (by omega), Int.add_zero]
  counts i hi := by
    have hi' : i < s.counter.reserveDays := hi
    change (s.counter.counts.modify 0 (· + count))[i]? = _
    rw [List.getElem?_modify, hinv.counts i hi', netOn_append, htime]
    cases i with
    | zero => simp [Int64.ofInt_add, hcount]
    | succ i =>
        have hne : ¬ zone.day s.now = zone.day s.now - ((i + 1 : Nat) : Int) := by
          omega
        rw [if_neg hne, Int.add_zero]
        simp

theorem inv_init (reserveDays : Nat) (hpositive : 0 < reserveDays)
    (start : Int) :
    Inv zone [] (system zone reserveDays hpositive start).start where
  date := rfl
  future _ _ := rfl
  counts i hi := by
    have hi' : i < reserveDays := hi
    change (List.replicate reserveDays 0)[i]? = _
    rw [List.getElem?_replicate, if_pos hi']
    rfl

theorem Inv.step {word : List Action} {s s' : State} (hinv : Inv zone word s)
    {action : Action} (hpermitted : Permitted zone s action)
    (hstep : step zone s action = some s') :
    Inv zone (word ++ [action]) s' := by
  unfold Metric.step at hstep
  rw [Option.ite_none_right_eq_some] at hstep
  obtain ⟨hlater, hstep⟩ := hstep
  have hrotated := hinv.rotate hlater hpermitted
  cases action with
  | inc t count =>
      cases hstep
      exact hrotated.add rfl (Int64.ofInt_toInt count)
  | dec t count =>
      cases hstep
      apply hrotated.add rfl
      rw [Action.amount, Int64.ofInt_neg, Int64.ofInt_toInt]
  | todayCount t =>
      cases hstep
      exact hrotated.observe rfl
  | getLastDaysCount t lastdays =>
      obtain ⟨result, hresult, rfl⟩ := Option.map_eq_some_iff.mp hstep
      rw [StandardDateCounter.counter_of_getLastDaysCount zone hresult]
      exact hrotated.observe rfl

theorem reserveDays_of_step {s s' : State} {action : Action}
    (hstep : step zone s action = some s') :
    s'.counter.reserveDays = s.counter.reserveDays := by
  unfold step at hstep
  rw [Option.ite_none_right_eq_some] at hstep
  obtain ⟨-, hstep⟩ := hstep
  cases action with
  | inc t count | dec t count | todayCount t =>
      cases hstep
      rfl
  | getLastDaysCount t lastdays =>
      obtain ⟨result, hresult, rfl⟩ := Option.map_eq_some_iff.mp hstep
      rw [StandardDateCounter.counter_of_getLastDaysCount zone hresult]
      rfl

theorem inv_of_run {reserveDays : Nat} {hpositive : 0 < reserveDays}
    {start : Int} {word : List Action} {s : State}
    (hrun : (system zone reserveDays hpositive start).Run (Permitted zone) word s) :
    Inv zone word s ∧ s.counter.reserveDays = reserveDays := by
  induction hrun with
  | nil => exact ⟨inv_init reserveDays hpositive start, rfl⟩
  | snoc _ hpermitted hstep ih =>
      refine ⟨ih.1.step hpermitted hstep, ?_⟩
      rw [← ih.2]
      exact reserveDays_of_step hstep

theorem StandardDateCounter.head_eq {c : StandardDateCounter} {count : Int64}
    (hcount : c.counts[0]? = some count) : c.head = count := by
  obtain ⟨hlt, hget⟩ := List.getElem?_eq_some_iff.mp hcount
  rw [head, List.head_eq_getElem, hget]

/-- When every rotation is aligned with the calendar, an observation returns for
each day of the window what the calls have added on that day, as an int64. -/
theorem counts_per_day {reserveDays : Nat} {hpositive : 0 < reserveDays}
    {start : Int} {word : List Action} {s : State}
    (hrun : (system zone reserveDays hpositive start).Run (Permitted zone) word s)
    {t : Int} (hlater : s.now ≤ t) (haligned : Aligned zone s t) :
    (s.counter.todayCount zone t).2 =
        Int64.ofInt (netOn zone word (zone.day t)) ∧
      ∀ lastdays : Nat, ∃ counter counts,
        s.counter.getLastDaysCount zone t lastdays = some (counter, counts) ∧
        counts.length = min lastdays reserveDays ∧
        ∀ i < min lastdays reserveDays, counts[i]? =
          some (Int64.ofInt (netOn zone word (zone.day t - i))) := by
  obtain ⟨hinv, hreserve⟩ := inv_of_run hrun
  have hrotated := hinv.rotate hlater haligned
  have hcounts : ∀ i < reserveDays, (s.counter.rotate zone t).counts[i]? =
      some (Int64.ofInt (netOn zone word (zone.day t - i))) := by
    intro i hi
    exact hrotated.counts i (by rw [← hreserve] at hi; exact hi)
  constructor
  · apply StandardDateCounter.head_eq
    rw [hcounts 0 hpositive]
    simp
  · intro lastdays
    have hdays : (min (lastdays : Int) s.counter.reserveDays).toNat =
        min lastdays reserveDays := by
      rw [hreserve]
      omega
    refine ⟨s.counter.rotate zone t,
      (s.counter.rotate zone t).counts.take (min lastdays reserveDays),
      ?_, ?_, ?_⟩
    · rw [StandardDateCounter.getLastDaysCount, hdays, if_neg (by omega)]
    · rw [List.length_take, (s.counter.rotate zone t).size]
      change min _ s.counter.reserveDays = _
      omega
    · intro i hi
      rw [List.getElem?_take, if_pos hi]
      exact hcounts i (by omega)

/-- A zone whose days all have 24 hours. -/
def fixedZone : Zone where
  midnight d := 24 * d
  day t := t / (24 * hour)
  length d := by omega
  begins t := by
    rw [hour]
    omega
  ends t := by
    rw [hour]
    omega

/-- Three days of calls, with a day without any between them. -/
def threeDays : List Action :=
  [.inc 0 10, .dec (5 * hour) 4, .inc (30 * hour) 7,
    .getLastDaysCount (31 * hour) 2]

theorem counts_per_day_threeDays :
    ∃ s, (system fixedZone 7 (Nat.succ_pos 6) 0).Run (Permitted fixedZone)
        threeDays s ∧
      (s.counter.todayCount fixedZone (80 * hour)).2 = 0 ∧
      netOn fixedZone threeDays 0 = 6 ∧ netOn fixedZone threeDays 1 = 7 ∧
      ∃ counter counts,
        s.counter.getLastDaysCount fixedZone (80 * hour) 4 =
          some (counter, counts) ∧
        counts[3]? = some (Int64.ofInt (netOn fixedZone threeDays 0)) := by
  obtain ⟨s, hrun, hnow, haligned⟩ : ∃ s,
      (system fixedZone 7 (Nat.succ_pos 6) 0).Run (Permitted fixedZone) threeDays s ∧
        s.now ≤ 80 * hour ∧ Aligned fixedZone s (80 * hour) :=
    System.exists_run_of_replay (by decide)
  obtain ⟨htoday, hlast⟩ := counts_per_day hrun hnow haligned
  obtain ⟨counter, counts, hresult, -, hcounts⟩ := hlast 4
  exact ⟨s, hrun, htoday, by decide, by decide, counter, counts, hresult,
    hcounts 3 (by decide)⟩

/-- A zone whose day 0 has 23 hours. -/
def summerZone : Zone where
  midnight d := if d ≤ 0 then 24 * d else 24 * d - 1
  day t := if t < 23 * hour then t / (24 * hour) else (t + hour) / (24 * hour)
  length d := by
    split <;> split <;> omega
  begins t := by
    rw [hour]
    split <;> split <;> omega
  ends t := by
    rw [hour]
    split <;> split <;> omega

/-- What was counted on the day of 23 hours is returned for the next one. -/
theorem not_counts_per_day_summerZone :
    ¬ ∀ (zone : Zone) (reserveDays : Nat) (hpositive : 0 < reserveDays)
      (start : Int) (word : List Action) (s : State) (t : Int),
      (system zone reserveDays hpositive start).Reaches word s → s.now ≤ t →
        (s.counter.todayCount zone t).2 =
          Int64.ofInt (netOn zone word (zone.day t)) := by
  intro hclaim
  obtain ⟨s, hreaches, hnow, hcount⟩ : ∃ s,
      (system summerZone 7 (Nat.succ_pos 6) 0).Reaches [.inc 0 10] s ∧
        s.now ≤ 23 * hour ∧
        (s.counter.todayCount summerZone (23 * hour)).2 = 10 :=
    System.exists_reaches_of_exec (by decide)
  have hnet := hclaim summerZone 7 (Nat.succ_pos 6) 0 _ s (23 * hour) hreaches hnow
  rw [hcount] at hnet
  revert hnet
  decide

end Metric

end Frp
