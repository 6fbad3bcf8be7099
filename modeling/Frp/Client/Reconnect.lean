/-
How often frpc comes back: `Service.Run` and `keepControllerWorking` of
`client/service.go` over a clock.  A Control may be lost at any time and a login
may fail any number of times; the two delays and the window of a minute bound
what frps sees of it.
-/
import Frp.Lib.GoInt
import Frp.Lib.System
import Mathlib.Algebra.Order.Ring.Int
import Mathlib.Tactic.Positivity
import Mathlib.Tactic.Ring

namespace Frp

open GoInt Transition

namespace Reconnect

def millisecond : Int := 1000000

def second : Int := 1000000000

def minute : Int := 60 * second

def maxDelayTime : Int := 20 * second

/-- A `time.Duration` is an int64 on every platform. -/
def duration (exact : Int) : Int := Width.bits64.wrap exact

/-- `util.RandomSleep`: the part of `d` in thousandths that has been drawn. -/
def randomSleep (d n : Int) : Int := (duration (d * n)).tdiv 1000

/-- The numbers that `RandomSleep` draws for 0.9 to 1.1 and for 0 to 0.5. -/
def AboutOne (n : Int) : Prop := 900 ≤ n ∧ n < 1100

def UpToHalf (n : Int) : Prop := 0 ≤ n ∧ n < 500

instance (n : Int) : Decidable (AboutOne n) := inferInstanceAs (Decidable (_ ∧ _))

instance (n : Int) : Decidable (UpToHalf n) := inferInstanceAs (Decidable (_ ∧ _))

/-- Where frpc is: in the login loop of `Run`, in front of `ClosedDoneCh`, or in
the login loop of `keepControllerWorking`. -/
inductive Pc where
  | first
  | working
  | retrying
  | exited
deriving DecidableEq, Repr

/-- The variables of the two loops, and what has happened so far: when `Run`
began and how many logins have failed since, when `keepControllerWorking` began
and how often it came round and was reset, and what was slept. -/
structure State where
  now : Int
  cutoffTime : Int
  reconnectDelay : Int
  reconnectCounts : Int
  delayTime : Int
  pc : Pc
  ran : Int
  fails : Nat
  began : Int
  rounds : Nat
  resets : Nat
  slept : List Int
deriving DecidableEq, Repr

/-- A login takes its time and fails, with a sleep that ends some time later, or
succeeds; the Control is lost, or the service is closed before that. -/
inductive Action where
  | fail (took : Nat) (n : Int) (late : Nat)
  | login (took : Nat)
  | lost (waited : Nat) (n : Int) (late : Nat)
  | exit
deriving DecidableEq, Repr

def start (now : Int) : State where
  now := now
  cutoffTime := 0
  reconnectDelay := 0
  reconnectCounts := 0
  delayTime := 0
  pc := .first
  ran := now
  fails := 0
  began := now
  rounds := 0
  resets := 0
  slept := []

namespace State

/-- The variables that `keepControllerWorking` begins with. -/
def keepControllerWorking (s : State) : State :=
  { s with
    cutoffTime := s.now + minute
    reconnectDelay := second
    reconnectCounts := 1
    delayTime := second
    pc := .working
    began := s.now
    rounds := 0
    resets := 0 }

/-- The clock after a sleep of `d`; a negative one does not wait. -/
def sleep (s : State) (d : Int) (late : Nat) : State :=
  { s with now := s.now + max d 0 + late, slept := d :: s.slept }

def after (s : State) (took : Nat) : State := { s with now := s.now + took }

/-- The check of the window, with the clock as it is. -/
def resetAfter (s : State) : State :=
  if s.cutoffTime < s.now then
    { s with
      cutoffTime := s.now + minute
      reconnectDelay := second
      reconnectCounts := 1
      resets := s.resets + 1 }
  else s

/-- The check writes nothing else. -/
theorem resetAfter_frame (s : State) :
    s.resetAfter.now = s.now ∧ s.resetAfter.began = s.began ∧
      s.resetAfter.slept = s.slept ∧ s.resetAfter.fails = s.fails ∧
      s.resetAfter.ran = s.ran ∧ s.resetAfter.delayTime = s.delayTime := by
  unfold resetAfter
  split <;> exact ⟨rfl, rfl, rfl, rfl, rfl, rfl⟩

/-- One round up to its login loop; the first three do not wait for long. -/
def round (w : Width) (s : State) (n : Int) (late : Nat) : Option State :=
  if 3 < s.reconnectCounts then
    if AboutOne n then
      some ({ s.sleep (randomSleep s.reconnectDelay n) late with
        reconnectDelay := duration (s.reconnectDelay * 2)
        reconnectCounts := w.wrap (s.reconnectCounts + 1)
        rounds := s.rounds + 1
        pc := .retrying }.resetAfter)
    else none
  else if UpToHalf n then
    some ({ s.sleep (randomSleep second n) late with
      reconnectCounts := w.wrap (s.reconnectCounts + 1)
      rounds := s.rounds + 1
      pc := .retrying }.resetAfter)
  else none

/-- A login of `keepControllerWorking` that fails. -/
def retry (s : State) (n : Int) (late : Nat) : State :=
  let delayTime := duration (s.delayTime * 2)
  { s.sleep (randomSleep s.delayTime n) late with
    delayTime := if maxDelayTime < delayTime then maxDelayTime else delayTime
    fails := s.fails + 1 }

end State

def step (w : Width) (loginFailExit : Bool) (s : State) : Action → Option State
  | .fail took n late =>
      match s.pc with
      | .first =>
          if loginFailExit then
            some { s.after took with fails := s.fails + 1, pc := .exited }
          else if AboutOne n then
            some { (s.after took).sleep (randomSleep (10 * second) n) late with
              fails := s.fails + 1 }
          else none
      | .retrying =>
          if AboutOne n then some ((s.after took).retry n late) else none
      | .working | .exited => none
  | .login took =>
      match s.pc with
      | .first => some (s.after took).keepControllerWorking
      | .retrying =>
          some { s.after took with delayTime := second, pc := .working }
      | .working | .exited => none
  | .lost waited n late =>
      match s.pc with
      | .working => (s.after waited).round w n late
      | .first | .retrying | .exited => none
  | .exit =>
      match s.pc with
      | .working => some { s with pc := .exited }
      | .first | .retrying | .exited => none

def system (w : Width) (loginFailExit : Bool) (now : Int) :
    System State Action :=
  ⟨start now, step w loginFailExit⟩

/-- A delay of at most 64 seconds may be multiplied by what is drawn, or
doubled. -/
theorem duration_mul {d n : Int} (hd : 0 ≤ d) (hmax : d ≤ 64 * second)
    (hn : 0 ≤ n) (hn' : n < 1100) : duration (d * n) = d * n := by
  have hlow : 0 ≤ d * n := Int.mul_nonneg hd hn
  have hhigh : d * n ≤ 64 * second * 1100 :=
    Int.mul_le_mul hmax (Int.le_of_lt hn') hn (by decide)
  apply Width.wrap_of_holds
  simp only [second] at hhigh
  simp only [Width.Holds, Width.half]
  omega

theorem randomSleep_eq {d n : Int} (hd : 0 ≤ d) (hmax : d ≤ 64 * second)
    (hn : 0 ≤ n) (hn' : n < 1100) : randomSleep d n = d * n / 1000 := by
  rw [randomSleep, duration_mul hd hmax hn hn',
    Int.tdiv_eq_ediv_of_nonneg (Int.mul_nonneg hd hn)]

/-- A sleep of about `d` takes at least nine tenths of it and less than eleven. -/
theorem randomSleep_aboutOne {d n : Int} (hd : 0 ≤ d) (hmax : d ≤ 64 * second)
    (hn : AboutOne n) :
    d * 900 / 1000 ≤ randomSleep d n ∧ randomSleep d n ≤ d * 1100 / 1000 := by
  obtain ⟨hlow, hhigh⟩ := hn
  have hleft : d * 900 ≤ d * n := Int.mul_le_mul_of_nonneg_left hlow hd
  have hright : d * n ≤ d * 1100 :=
    Int.mul_le_mul_of_nonneg_left (Int.le_of_lt hhigh) hd
  rw [randomSleep_eq hd hmax (by omega) hhigh]
  omega

theorem randomSleep_upToHalf {n : Int} (hn : UpToHalf n) :
    0 ≤ randomSleep second n ∧ randomSleep second n < second := by
  obtain ⟨hlow, hhigh⟩ := hn
  rw [randomSleep_eq (by decide) (by decide) hlow (by omega), second]
  omega

/-- The window of `c - 1` rounds: they have slept for at least the sum of their
delays, and the last check was made within the window. -/
structure Window (s : State) (c : Nat) : Prop where
  counts : s.reconnectCounts = c
  pos : 1 ≤ c
  delay : s.reconnectDelay = second * 2 ^ (c - 4)
  checked : ∃ t, t ≤ s.now ∧ t ≤ s.cutoffTime ∧
    900 * millisecond * (2 ^ (c - 4) - 1) ≤ t - (s.cutoffTime - minute)
  rounds : s.rounds + 1 ≤ 10 * s.resets + c
  resets : minute * s.resets ≤ s.cutoffTime - minute - s.began

/-- A window holds at most ten rounds: the sleeps of the seven last ones take
longer than a minute. -/
theorem Window.le_ten {s : State} {c : Nat} (hwindow : Window s c) : c ≤ 10 := by
  obtain ⟨t, _, hcutoff, helapsed⟩ := hwindow.checked
  by_contra hmore
  have hpow : (2 : Int) ^ 7 ≤ 2 ^ (c - 4) :=
    pow_le_pow_right₀ (by decide) (by omega)
  simp only [millisecond, minute, second] at helapsed
  omega

theorem Window.delay_le {s : State} {c : Nat} (hwindow : Window s c) :
    0 ≤ s.reconnectDelay ∧ s.reconnectDelay ≤ 64 * second := by
  have hten := hwindow.le_ten
  have hpow : (2 : Int) ^ (c - 4) ≤ 2 ^ 6 :=
    pow_le_pow_right₀ (by decide) (by omega)
  have hpos : (0 : Int) < 2 ^ (c - 4) := by positivity
  rw [hwindow.delay]
  simp only [second]
  omega

/-- Failed logins are 900 milliseconds apart; the one that ends `Run` is not
followed by a sleep. -/
def Paced (s : State) : Prop :=
  900 * millisecond * s.fails ≤ s.now - s.ran ∨
    s.pc = .exited ∧ 900 * millisecond * (s.fails - 1) ≤ s.now - s.ran

/-- What holds in every state: the sleeps, the failed logins and the rounds since
`keepControllerWorking` began. -/
structure Inv (s : State) : Prop where
  began : s.began ≤ s.now
  slept : ∀ d ∈ s.slept, 0 ≤ d ∧ 10 * d ≤ 704 * second
  fails : Paced s
  keeps : s.rounds = 0 ∧ (s.pc = .first ∨ s.pc = .exited) ∨
    second ≤ s.delayTime ∧ s.delayTime ≤ maxDelayTime ∧ ∃ c, Window s c

theorem inv_start (now : Int) : Inv (start now) where
  began := Int.le_refl now
  slept := by simp [start]
  fails := Or.inl (by simp [start])
  keeps := Or.inl ⟨rfl, Or.inl rfl⟩

/-- What a window says does not change as time passes. -/
theorem Window.move {s : State} {c : Nat} (hwindow : Window s c) (now : Int)
    (delayTime : Int) (pc : Pc) (fails : Nat) (slept : List Int)
    (hnow : s.now ≤ now) : Window { s with
      now := now
      delayTime := delayTime
      pc := pc
      fails := fails
      slept := slept } c where
  counts := hwindow.counts
  pos := hwindow.pos
  delay := hwindow.delay
  checked := by
    obtain ⟨t, ht, hcutoff, helapsed⟩ := hwindow.checked
    exact ⟨t, Int.le_trans ht hnow, hcutoff, helapsed⟩
  rounds := hwindow.rounds
  resets := hwindow.resets

theorem window_keepControllerWorking (s : State) :
    Window s.keepControllerWorking 1 where
  counts := rfl
  pos := Nat.le_refl 1
  delay := rfl
  checked := ⟨s.now, Int.le_refl _, by
    simp only [State.keepControllerWorking, minute, second]
    omega, by
    simp [State.keepControllerWorking]⟩
  rounds := Nat.le_refl 1
  resets := by simp [State.keepControllerWorking]

/-- A round before its check: one more than the window has had. -/
structure Rounded (s : State) (c : Nat) : Prop where
  counts : s.reconnectCounts = (c + 1 : Nat)
  le : c ≤ 10
  delay : s.reconnectDelay = second * 2 ^ (c + 1 - 4)
  elapsed : 900 * millisecond * (2 ^ (c + 1 - 4) - 1) ≤
    s.now - (s.cutoffTime - minute)
  rounds : s.rounds ≤ 10 * s.resets + c
  resets : minute * s.resets ≤ s.cutoffTime - minute - s.began

/-- Past the cutoff a new window begins, a minute or more after the last one. -/
theorem Rounded.resetAfter {s : State} {c : Nat} (hrounded : Rounded s c) :
    ∃ c', Window s.resetAfter c' := by
  have hle := hrounded.le
  have hrounds := hrounded.rounds
  have hresets := hrounded.resets
  unfold State.resetAfter
  split
  · next hlate =>
      refine ⟨1, rfl, Nat.le_refl 1, rfl, ⟨s.now, Int.le_refl _, ?_, ?_⟩, ?_, ?_⟩
      · simp only [minute, second]
        omega
      · simp
      · simp only
        omega
      · simp only [minute, second] at hresets ⊢
        push_cast
        omega
  · next hwithin =>
      exact ⟨c + 1, hrounded.counts, by omega, hrounded.delay,
        ⟨s.now, Int.le_refl _, Int.not_lt.mp hwithin, hrounded.elapsed⟩,
        by omega, hresets⟩

section step

variable {w : Width} {loginFailExit : Bool} {s s' : State}

/-- The sleeps that a step adds are short. -/
theorem Inv.slept_cons (hinv : Inv s) {d : Int} (hd : 0 ≤ d)
    (hmax : 10 * d ≤ 704 * second) :
    ∀ other ∈ d :: s.slept, 0 ≤ other ∧ 10 * other ≤ 704 * second := by
  intro other hother
  rcases List.mem_cons.mp hother with rfl | hin
  · exact ⟨hd, hmax⟩
  · exact hinv.slept other hin

theorem Inv.paced (hinv : Inv s) (hpc : s.pc ≠ .exited) :
    900 * millisecond * s.fails ≤ s.now - s.ran :=
  hinv.fails.resolve_right fun hexited => hpc hexited.1

theorem Inv.of_rounded (hinv : Inv s) {t : State} {c : Nat}
    (hrounded : Rounded t c) (hnow : s.now ≤ t.now) (hbegan : t.began = s.began)
    (hfails : t.fails = s.fails) (hran : t.ran = s.ran)
    (hpaced : 900 * millisecond * s.fails ≤ s.now - s.ran)
    (hslept : ∀ d ∈ t.slept, 0 ≤ d ∧ 10 * d ≤ 704 * second)
    (hdelay : second ≤ t.delayTime ∧ t.delayTime ≤ maxDelayTime) :
    Inv t.resetAfter := by
  obtain ⟨hsame, hbegan', hslept', hfails', hran', hdelay'⟩ :=
    t.resetAfter_frame
  have hbefore := hinv.began
  constructor
  · rw [hsame, hbegan', hbegan]
    omega
  · rw [hslept']
    exact hslept
  · left
    rw [hsame, hran', hran, hfails', hfails]
    omega
  · rw [hdelay']
    exact Or.inr ⟨hdelay.1, hdelay.2, hrounded.resetAfter⟩

theorem Inv.round (hinv : Inv s) (hpc : s.pc ≠ .exited) {c : Nat}
    (hwindow : Window s c)
    (hdelay : second ≤ s.delayTime ∧ s.delayTime ≤ maxDelayTime) {n : Int}
    {late : Nat} (hround : s.round w n late = some s') : Inv s' := by
  have hten := hwindow.le_ten
  have hcounts := hwindow.counts
  have hrounds := hwindow.rounds
  obtain ⟨hnonneg, hmost⟩ := hwindow.delay_le
  have hpaced := hinv.paced hpc
  obtain ⟨t, ht, _, helapsed⟩ := hwindow.checked
  have hwrap : w.wrap (s.reconnectCounts + 1) = (c + 1 : Nat) := by
    rw [hcounts, Width.wrap_of_holds]
    · simp
    · cases w <;> simp only [Width.Holds, Width.half] <;> omega
  unfold State.round at hround
  split at hround
  · next hmany =>
      obtain ⟨hn, hsome⟩ := Option.ite_none_right_eq_some.mp hround
      obtain rfl := Option.some.inj hsome
      obtain ⟨hlow, hhigh⟩ := randomSleep_aboutOne hnonneg hmost hn
      have hpow : (2 : Int) ^ (c + 1 - 4) = 2 * 2 ^ (c - 4) := by
        rw [show c + 1 - 4 = c - 4 + 1 by omega, pow_succ, Int.mul_comm]
      have hdelay' := hwindow.delay
      generalize (2 : Int) ^ (c - 4) = m at hpow hdelay' helapsed
      have hrounded : Rounded { s.sleep (randomSleep s.reconnectDelay n) late with
          reconnectDelay := duration (s.reconnectDelay * 2)
          reconnectCounts := w.wrap (s.reconnectCounts + 1)
          rounds := s.rounds + 1
          pc := .retrying } c := by
        refine ⟨hwrap, hten, ?_, ?_, hrounds, hwindow.resets⟩
        · simp only
          rw [duration_mul hnonneg hmost (by decide) (by decide), hpow,
            hdelay']
          ring
        · simp only [State.sleep, hpow, millisecond, minute, second] at *
          omega
      refine hinv.of_rounded hrounded ?_ rfl rfl rfl hpaced ?_ hdelay
      · simp only [State.sleep]
        omega
      · exact hinv.slept_cons (by omega) (by omega)
  · next hfew =>
      obtain ⟨hn, hsome⟩ := Option.ite_none_right_eq_some.mp hround
      obtain rfl := Option.some.inj hsome
      obtain ⟨hlow, hhigh⟩ := randomSleep_upToHalf hn
      have hzero : c - 4 = 0 ∧ c + 1 - 4 = 0 := by omega
      have hrounded : Rounded { s.sleep (randomSleep second n) late with
          reconnectCounts := w.wrap (s.reconnectCounts + 1)
          rounds := s.rounds + 1
          pc := .retrying } c := by
        refine ⟨hwrap, hten, ?_, ?_, hrounds, hwindow.resets⟩
        · change s.reconnectDelay = _
          rw [hwindow.delay, hzero.1, hzero.2]
        · simp only [hzero, pow_zero, Int.sub_self, Int.mul_zero] at helapsed ⊢
          simp only [State.sleep]
          omega
      refine hinv.of_rounded hrounded ?_ rfl rfl rfl hpaced ?_ hdelay
      · simp only [State.sleep]
        omega
      · exact hinv.slept_cons hlow (by simp only [second] at *; omega)

theorem Inv.after (hinv : Inv s) (took : Nat) : Inv (s.after took) := by
  have hbegan := hinv.began
  refine ⟨?_, hinv.slept, ?_, ?_⟩
  · simp only [State.after]
    omega
  · simp only [Paced, State.after]
    rcases hinv.fails with hpaced | ⟨hexited, hpaced⟩
    · left
      omega
    · right
      exact ⟨hexited, by omega⟩
  · rcases hinv.keeps with hfirst | ⟨hlow, hhigh, c, hwindow⟩
    · exact Or.inl hfirst
    · exact Or.inr ⟨hlow, hhigh, c, hwindow.move _ _ _ _ _ (by omega)⟩

/-- A login that fails doubles its delay, up to the most it may be. -/
theorem Inv.retry (hinv : Inv s) (hpc : s.pc ≠ .exited) {c : Nat}
    (hwindow : Window s c) (hlow : second ≤ s.delayTime) (hhigh : s.delayTime ≤ maxDelayTime) {n : Int}
    (hn : AboutOne n) (late : Nat) : Inv (s.retry n late) := by
  have hnonneg : 0 ≤ s.delayTime := Int.le_trans (by decide) hlow
  have hmost : s.delayTime ≤ 64 * second := Int.le_trans hhigh (by decide)
  obtain ⟨hleast, hless⟩ := randomSleep_aboutOne hnonneg hmost hn
  have hbegan := hinv.began
  have hpaced := hinv.paced hpc
  have hdouble : duration (s.delayTime * 2) = s.delayTime * 2 :=
    duration_mul hnonneg hmost (by decide) (by decide)
  refine ⟨?_, ?_, ?_, Or.inr ⟨?_, ?_, c, hwindow.move _ _ _ _ _ ?_⟩⟩
  · simp only [State.retry, State.sleep]
    omega
  · refine hinv.slept_cons ?_ ?_ <;>
      simp only [second, maxDelayTime] at * <;> omega
  · left
    simp only [State.retry, State.sleep, millisecond, second] at *
    push_cast
    omega
  · simp only [State.retry, hdouble, maxDelayTime, second] at *
    split <;> omega
  · simp only [State.retry, hdouble, maxDelayTime, second] at *
    split <;> omega
  · simp only [State.sleep]
    omega

theorem second_le : second ≤ maxDelayTime := by decide

theorem inv_keepControllerWorking (hinv : Inv s) (hpc : s.pc ≠ .exited) :
    Inv s.keepControllerWorking where
  began := Int.le_refl s.now
  slept := hinv.slept
  fails := Or.inl (hinv.paced hpc)
  keeps := Or.inr ⟨Int.le_refl _, second_le, 1, window_keepControllerWorking s⟩

/-- Past the login loop of `Run` there is a window. -/
theorem Inv.window (hinv : Inv s) (hpc : s.pc = .working ∨ s.pc = .retrying) :
    second ≤ s.delayTime ∧ s.delayTime ≤ maxDelayTime ∧ ∃ c, Window s c := by
  rcases hinv.keeps with ⟨_, hfirst | hexited⟩ | hkeeps
  · rw [hfirst] at hpc
    rcases hpc with hpc | hpc <;> cases hpc
  · rw [hexited] at hpc
    rcases hpc with hpc | hpc <;> cases hpc
  · exact hkeeps

/-- The service ends, after a last login that has failed or without one. -/
theorem Inv.exit (hinv : Inv s) {fails : Nat}
    (hfails : 900 * millisecond * ((fails : Int) - 1) ≤ s.now - s.ran) :
    Inv { s with fails := fails, pc := .exited } where
  began := hinv.began
  slept := hinv.slept
  fails := Or.inr ⟨rfl, hfails⟩
  keeps := by
    rcases hinv.keeps with ⟨hrounds, _⟩ | ⟨hlow, hhigh, c, hwindow⟩
    · exact Or.inl ⟨hrounds, Or.inr rfl⟩
    · exact Or.inr ⟨hlow, hhigh, c, hwindow.move _ _ _ _ _ (Int.le_refl _)⟩

/-- The login loop of `Run` always waits for about ten seconds. -/
theorem Inv.sleepFirst (hinv : Inv s) (hpc : s.pc ≠ .exited) {n : Int}
    (hn : AboutOne n) (late : Nat) :
    Inv { s.sleep (randomSleep (10 * second) n) late with
      fails := s.fails + 1 } := by
  obtain ⟨hleast, hless⟩ := randomSleep_aboutOne (d := 10 * second) (by decide)
    (by decide) hn
  have hbegan := hinv.began
  have hpaced := hinv.paced hpc
  generalize randomSleep (10 * second) n = d at hleast hless
  refine ⟨?_, ?_, ?_, ?_⟩
  · simp only [State.sleep]
    omega
  · refine hinv.slept_cons ?_ ?_ <;> simp only [second] at * <;> omega
  · left
    simp only [State.sleep, millisecond, second] at *
    push_cast
    omega
  · rcases hinv.keeps with hfirst | ⟨hlow, hhigh, c, hwindow⟩
    · exact Or.inl hfirst
    · refine Or.inr ⟨hlow, hhigh, c, hwindow.move _ _ _ _ _ ?_⟩
      simp only [State.sleep]
      omega

theorem Inv.step {action : Action} (hinv : Inv s)
    (hstep : step w loginFailExit s action = some s') : Inv s' := by
  cases action with
  | fail took n late =>
      have hlater := hinv.after took
      cases hpc : s.pc with
      | first =>
          have hopen : (s.after took).pc ≠ .exited := by
            simp [State.after, hpc]
          simp only [Reconnect.step, hpc] at hstep
          split at hstep
          · obtain rfl := Option.some.inj hstep
            apply hlater.exit
            rw [Nat.cast_succ, Int.add_sub_cancel]
            exact hlater.paced hopen
          · obtain ⟨hn, hsome⟩ := Option.ite_none_right_eq_some.mp hstep
            obtain rfl := Option.some.inj hsome
            exact hlater.sleepFirst hopen hn late
      | retrying =>
          have hopen : (s.after took).pc ≠ .exited := by
            simp [State.after, hpc]
          obtain ⟨hlow, hhigh, c, hwindow⟩ := hlater.window (Or.inr hpc)
          simp only [Reconnect.step, hpc, Option.ite_none_right_eq_some,
            Option.some.injEq] at hstep
          obtain ⟨hn, rfl⟩ := hstep
          exact hlater.retry hopen hwindow hlow hhigh hn late
      | working | exited => simp [Reconnect.step, hpc] at hstep
  | login took =>
      have hlater := hinv.after took
      cases hpc : s.pc with
      | first =>
          simp only [Reconnect.step, hpc, Option.some.injEq] at hstep
          obtain rfl := hstep
          exact inv_keepControllerWorking hlater (by simp [State.after, hpc])
      | retrying =>
          obtain ⟨_, _, c, hwindow⟩ := hlater.window (Or.inr hpc)
          simp only [Reconnect.step, hpc, Option.some.injEq] at hstep
          obtain rfl := hstep
          have hpaced := hlater.paced (by simp [State.after, hpc])
          exact ⟨hlater.began, hlater.slept, Or.inl hpaced,
            Or.inr ⟨Int.le_refl _, second_le, c,
              hwindow.move _ _ _ _ _ (Int.le_refl _)⟩⟩
      | working | exited => simp [Reconnect.step, hpc] at hstep
  | lost waited n late =>
      have hlater := hinv.after waited
      cases hpc : s.pc with
      | working =>
          obtain ⟨hlow, hhigh, c, hwindow⟩ := hlater.window (Or.inl hpc)
          simp only [Reconnect.step, hpc] at hstep
          exact hlater.round (by simp [State.after, hpc]) hwindow
            ⟨hlow, hhigh⟩ hstep
      | first | retrying | exited => simp [Reconnect.step, hpc] at hstep
  | exit =>
      cases hpc : s.pc with
      | working =>
          simp only [Reconnect.step, hpc, Option.some.injEq] at hstep
          obtain rfl := hstep
          apply hinv.exit
          have hpaced := hinv.paced (by simp [hpc])
          simp only [millisecond] at *
          omega
      | first | retrying | exited => simp [Reconnect.step, hpc] at hstep

end step

/-- The variables of the back-off are in their ranges, so that no delay that is
computed from them or slept overflows, and the counter does not. -/
structure InRange (w : Width) (s : State) : Prop where
  reconnectDelay : second ≤ s.reconnectDelay ∧ s.reconnectDelay ≤ 64 * second
  reconnectCounts : 1 ≤ s.reconnectCounts ∧ s.reconnectCounts ≤ 10
  delayTime : second ≤ s.delayTime ∧ s.delayTime ≤ maxDelayTime
  fits : ∀ d ∈ [s.reconnectDelay, s.delayTime, second, 10 * second],
    ∀ n, 0 ≤ n → n < 1100 → duration (d * n) = d * n
  counts : w.wrap (s.reconnectCounts + 1) = s.reconnectCounts + 1

theorem inRange_of_window (w : Width) {s : State} {c : Nat}
    (hwindow : Window s c) (hlow : second ≤ s.delayTime)
    (hhigh : s.delayTime ≤ maxDelayTime) : InRange w s := by
  have hten := hwindow.le_ten
  have hone := hwindow.pos
  have hcounts := hwindow.counts
  have hmost := hwindow.delay_le.2
  have hpow : (0 : Int) < 2 ^ (c - 4) := by positivity
  have hleast : second ≤ s.reconnectDelay := by
    rw [hwindow.delay]
    simp only [second]
    omega
  refine ⟨⟨hleast, hmost⟩, by omega, ⟨hlow, hhigh⟩, ?_, ?_⟩
  · intro d hd n hn hn'
    simp only [List.mem_cons, List.not_mem_nil, or_false] at hd
    rcases hd with rfl | rfl | rfl | rfl
    · exact duration_mul (Int.le_trans (by decide) hleast) hmost hn hn'
    · exact duration_mul (Int.le_trans (by decide) hlow)
        (Int.le_trans hhigh (by decide)) hn hn'
    · exact duration_mul (by decide) (by decide) hn hn'
    · exact duration_mul (by decide) (by decide) hn hn'
  · apply Width.wrap_of_holds
    cases w <;> simp only [Width.Holds, Width.half] <;> omega

/-- The rounds of `keepControllerWorking` are ten a minute at most, and nine more;
logins fail no faster than every 900 milliseconds, no sleep lasts for more than
70.4 seconds, and the variables of the loop stay in their ranges. -/
structure Bounded (w : Width) (s : State) : Prop where
  rounds : (s.rounds : Int) ≤ 10 * ((s.now - s.began) / minute) + 9
  fails : Paced s
  slept : ∀ d ∈ s.slept, 0 ≤ d ∧ 10 * d ≤ 704 * second
  ranges : s.pc = .working ∨ s.pc = .retrying → InRange w s

theorem Inv.bounded {s : State} (hinv : Inv s) (w : Width) : Bounded w s where
  rounds := by
    have hbegan := hinv.began
    rcases hinv.keeps with ⟨hzero, _⟩ | ⟨_, _, c, hwindow⟩
    · rw [hzero]
      simp only [minute, second]
      omega
    · have hten := hwindow.le_ten
      have hrounds := hwindow.rounds
      have hresets := hwindow.resets
      obtain ⟨t, ht, _, helapsed⟩ := hwindow.checked
      have hpos : (0 : Int) < 2 ^ (c - 4) := by positivity
      simp only [millisecond, minute, second] at *
      omega
  fails := hinv.fails
  slept := hinv.slept
  ranges hpc := by
    obtain ⟨hlow, hhigh, c, hwindow⟩ := hinv.window hpc
    exact inRange_of_window w hwindow hlow hhigh

/-- However often the Control is lost and logins fail, and however long the sleeps
and the logins take. -/
theorem bounded_of_reaches (w : Width) (loginFailExit : Bool) (now : Int)
    {word : List Action} {s : State}
    (hrun : (system w loginFailExit now).Reaches word s) : Bounded w s := by
  have hinv : Inv s := System.Reaches.invariant (inv_start now)
    (fun _ _ _ hinv hstep => hinv.step hstep) hrun
  exact hinv.bounded w

/-- A Control that is lost as soon as it works: the fourth round waits, and then a
login fails. -/
def flapping : List Action :=
  [.login 0, .lost 0 0 0, .login 0, .lost 0 0 0, .login 0, .lost 0 0 0, .login 0,
    .lost 0 900 0, .fail 0 900 0, .login 0]

theorem bounded_of_reaches_flapping : ∃ s,
    (system .bits64 true 0).Reaches flapping s ∧
      (s.rounds = 4 ∧ s.fails = 1 ∧ s.now = 1800 * millisecond) ∧
      Bounded .bits64 s := by
  have hrun : ∃ s, (system .bits64 true 0).Reaches flapping s ∧
      (s.rounds = 4 ∧ s.fails = 1 ∧ s.now = 1800 * millisecond) :=
    System.exists_reaches_of_exec (by decide)
  obtain ⟨s, hreaches, hcounts⟩ := hrun
  exact ⟨s, hreaches, hcounts, bounded_of_reaches .bits64 true 0 hreaches⟩

end Reconnect

end Frp
