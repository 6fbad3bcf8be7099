/-
The health check of `client/health/health.go`.  A Monitor reports a change of
status through two callbacks: a success when the status is not OK, and a failure
when it is and enough checks have failed.  The counter of failures is compared
with the number of continuous failures of the documentation, but no success
resets it.
-/
import Mathlib.Data.List.Induction
import Mathlib.Data.List.TakeWhile
import Frp.Lib.GoInt

namespace Frp

open GoInt

namespace Health

/-- What `doCheck` returns: no error or one. -/
inductive Check where
  | success
  | failure
deriving DecidableEq, Repr

inductive Call where
  | statusNormal
  | statusFailed
deriving DecidableEq, Repr

/-- `interval` and `timeout` are in seconds; `statusNormalFn` and
`statusFailedFn` say whether the callback is set. -/
structure Monitor where
  interval : Int
  timeout : Int
  maxFailedTimes : Int
  statusNormalFn : Bool
  statusFailedFn : Bool
  failedTimes : UInt64
  statusOK : Bool
deriving DecidableEq, Repr

def newMonitor (intervalS timeoutS maxFailedTimes : Int)
    (statusNormalFn statusFailedFn : Bool) : Monitor where
  interval := if intervalS ≤ 0 then 10 else intervalS
  timeout := if timeoutS ≤ 0 then 3 else timeoutS
  maxFailedTimes := if maxFailedTimes ≤ 0 then 1 else maxFailedTimes
  statusNormalFn := statusNormalFn
  statusFailedFn := statusFailedFn
  failedTimes := 0
  statusOK := false

/-- `int(monitor.failedTimes)`. -/
def Monitor.intFailedTimes (w : Width) (monitor : Monitor) : Int :=
  w.wrap monitor.failedTimes.toNat

/-- One turn of the loop of `checkWorker`, with the callback it makes. -/
def Monitor.check (w : Width) (monitor : Monitor) :
    Check → Monitor × Option Call
  | .success =>
      if monitor.statusOK = false ∧ monitor.statusNormalFn = true then
        ({ monitor with statusOK := true }, some .statusNormal)
      else (monitor, none)
  | .failure =>
      let monitor :=
        { monitor with failedTimes := monitor.failedTimes + 1 }
      if monitor.statusOK = true ∧
          monitor.maxFailedTimes ≤ monitor.intFailedTimes w ∧
          monitor.statusFailedFn = true then
        ({ monitor with statusOK := false }, some .statusFailed)
      else (monitor, none)

/-- `checkWorker` until the Monitor is stopped. -/
def Monitor.checkWorker (w : Width) (monitor : Monitor) : List Check → Monitor
  | [] => monitor
  | result :: rest => (monitor.check w result).1.checkWorker w rest

/-- The callbacks it makes, in order. -/
def Monitor.calls (w : Width) (monitor : Monitor) : List Check → List Call
  | [] => []
  | result :: rest =>
      (monitor.check w result).2.toList ++
        (monitor.check w result).1.calls w rest

/-- The length of the unbroken run of failures at the end. -/
def unbroken (results : List Check) : Nat :=
  (results.reverse.takeWhile (· = .failure)).length

/-- The calls take the status down and up in turn, from the given one on. -/
def Alternates : Bool → List Call → Prop
  | _, [] => True
  | false, .statusNormal :: rest => Alternates true rest
  | true, .statusFailed :: rest => Alternates false rest
  | false, .statusFailed :: _ | true, .statusNormal :: _ => False

/-- The documented behaviour of a Monitor that takes its proxy down after `k`
continuous failures. -/
structure Follows (w : Width) (monitor : Monitor) (k : Int)
    (results : List Check) : Prop where
  normal : ∀ before result after, results = before ++ result :: after →
    (((monitor.checkWorker w before).check w result).2 = some .statusNormal ↔
      result = .success ∧ (monitor.checkWorker w before).statusOK = false)
  failed : ∀ before result after, results = before ++ result :: after →
    (((monitor.checkWorker w before).check w result).2 = some .statusFailed ↔
      result = .failure ∧ (monitor.checkWorker w before).statusOK = true ∧
        k ≤ unbroken (before ++ [result]))
  alternates : Alternates false (monitor.calls w results)
  stays : ∀ earlier run rest,
    results = earlier ++ .success :: List.replicate run .failure ++ rest →
    run < k → (monitor.checkWorker w
      (earlier ++ .success :: List.replicate run .failure)).statusOK = true

/-- Whenever at most `k` checks have failed since a success, the number of all
failures, as an int, comes to `k` exactly if these do. -/
def Steady (w : Width) (k : Int) (results : List Check) : Prop :=
  ∀ (earlier : List Check) (run : Nat) (rest : List Check),
    results = earlier ++ .success :: List.replicate run .failure ++ rest →
    1 ≤ run → run ≤ k →
    (k ≤ w.wrap (earlier.count .failure + run) ↔ run = k)

theorem unbroken_append_success (results : List Check) :
    unbroken (results ++ [.success]) = 0 := by
  simp [unbroken]

theorem unbroken_append_failure (results : List Check) :
    unbroken (results ++ [.failure]) = unbroken results + 1 := by
  simp [unbroken]

theorem unbroken_run (earlier : List Check) (run : Nat) :
    unbroken (earlier ++ .success :: List.replicate run .failure) = run := by
  simp [unbroken, List.takeWhile_append_of_pos]

/-- A history with a success ends in one and its unbroken run. -/
theorem eq_append_unbroken {results : List Check}
    (hsuccess : Check.success ∈ results) :
    ∃ earlier, results =
      earlier ++ .success :: List.replicate (unbroken results) .failure := by
  induction results using List.reverseRecOn with
  | nil => cases hsuccess
  | append_singleton before result ih =>
      cases result with
      | success => exact ⟨before, by rw [unbroken_append_success]; rfl⟩
      | failure =>
          have hbefore : Check.success ∈ before := by simpa using hsuccess
          obtain ⟨earlier, heq⟩ := ih hbefore
          refine ⟨earlier, ?_⟩
          rw [unbroken_append_failure, List.replicate_succ']
          conv_lhs => rw [heq]
          simp

section Worker

variable {w : Width} {monitor : Monitor} {k : Int} {results : List Check}

theorem checkWorker_append (w : Width) (monitor : Monitor)
    (before after : List Check) :
    monitor.checkWorker w (before ++ after) =
      (monitor.checkWorker w before).checkWorker w after := by
  induction before generalizing monitor with
  | nil => rfl
  | cons result before ih => exact ih _

theorem checkWorker_snoc (w : Width) (monitor : Monitor)
    (before : List Check) (result : Check) :
    monitor.checkWorker w (before ++ [result]) =
      ((monitor.checkWorker w before).check w result).1 :=
  checkWorker_append w monitor before [result]

/-- The monitor of a wrapper after `n` failures: both callbacks are set. -/
structure Monitor.Counts (monitor : Monitor) (k : Int) (n : Nat) : Prop where
  threshold : monitor.maxFailedTimes = k
  normalSet : monitor.statusNormalFn = true
  failedSet : monitor.statusFailedFn = true
  count : monitor.failedTimes.toNat = n % 2 ^ 64

theorem counts_newMonitor (intervalS timeoutS : Int) (hk : 1 ≤ k) :
    (newMonitor intervalS timeoutS k true true).Counts k 0 where
  threshold := if_neg (by omega)
  normalSet := rfl
  failedSet := rfl
  count := rfl

namespace Monitor.Counts

variable {n : Nat}

theorem check_success (hcounts : monitor.Counts k n) :
    monitor.check w .success = ({ monitor with statusOK := true },
      if monitor.statusOK = true then none else some .statusNormal) := by
  unfold Monitor.check
  cases hok : monitor.statusOK with
  | true =>
      obtain ⟨interval, timeout, max, normalFn, failedFn, times, ok⟩ := monitor
      simp_all
  | false => simp [hcounts.normalSet]

/-- The failure that takes the status down is the one whose number in all comes
to the threshold. -/
theorem check_failure (hcounts : monitor.Counts k n) :
    monitor.check w .failure = ({ monitor with
      failedTimes := monitor.failedTimes + 1
      statusOK := monitor.statusOK && !decide (k ≤ w.wrap (n + 1)) },
      if monitor.statusOK = true ∧ k ≤ w.wrap (n + 1) then
        some .statusFailed
      else none) := by
  have htimes : Monitor.intFailedTimes w
      { monitor with failedTimes := monitor.failedTimes + 1 } =
        w.wrap (n + 1) := by
    rw [Monitor.intFailedTimes, UInt64.toNat_add, hcounts.count,
      UInt64.toNat_one, Nat.mod_add_mod]
    exact Width.wrap_mod_two_pow (n + 1)
  unfold Monitor.check
  dsimp only
  rw [htimes, hcounts.threshold, hcounts.failedSet]
  cases hok : monitor.statusOK with
  | true => by_cases hle : k ≤ w.wrap (n + 1) <;> simp [hle]
  | false => simp

theorem check (hcounts : monitor.Counts k n) (w : Width) (result : Check) :
    (monitor.check w result).1.Counts k (n + [result].count .failure) := by
  cases result with
  | success =>
      rw [hcounts.check_success]
      exact { hcounts with count := hcounts.count }
  | failure =>
      rw [hcounts.check_failure]
      refine { hcounts with count := ?_ }
      rw [UInt64.toNat_add, hcounts.count, UInt64.toNat_one, Nat.mod_add_mod]
      rfl

theorem checkWorker (hcounts : monitor.Counts k n) (w : Width)
    (before : List Check) :
    (monitor.checkWorker w before).Counts k (n + before.count .failure) := by
  induction before generalizing monitor n with
  | nil => exact hcounts
  | cons result before ih =>
      have hrest := ih (hcounts.check w result)
      rw [Nat.add_assoc, ← List.count_append, List.singleton_append] at hrest
      exact hrest

/-- The callbacks alternate, whatever the checks find. -/
theorem alternates (hcounts : monitor.Counts k n) (w : Width)
    (results : List Check) :
    Alternates monitor.statusOK (monitor.calls w results) := by
  induction results generalizing monitor n with
  | nil => cases monitor.statusOK <;> trivial
  | cons result rest ih =>
      have hrest := ih (hcounts.check w result)
      rw [Monitor.calls]
      cases result with
      | success =>
          rw [hcounts.check_success] at hrest ⊢
          cases hok : monitor.statusOK with
          | true => simpa [hok] using hrest
          | false => simpa [hok, Alternates] using hrest
      | failure =>
          rw [hcounts.check_failure] at hrest ⊢
          cases hok : monitor.statusOK with
          | false => simpa [hok] using hrest
          | true =>
              by_cases hle : k ≤ w.wrap (n + 1)
              · simpa [hok, hle, Alternates] using hrest
              · simpa [hok, hle] using hrest

end Monitor.Counts

/-- In a steady history the failures come to `k` in all where they come to `k` in
a row. -/
theorem Steady.next (hsteady : Steady w k results) {before after : List Check}
    (hresults : results = before ++ .failure :: after)
    (hsuccess : .success ∈ before) (hlt : (unbroken before : Int) < k) :
    k ≤ w.wrap (before.count .failure + 1) ↔
      (unbroken before : Int) + 1 = k := by
  obtain ⟨earlier, heq⟩ := eq_append_unbroken hsuccess
  have hcount : before.count .failure =
      earlier.count .failure + unbroken before := by
    conv_lhs => rw [heq]
    simp
  have hrun := hsteady earlier (unbroken before + 1) after ?_ (by omega)
    (by omega)
  · rw [hcount]
    rw [Nat.cast_succ, ← add_assoc] at hrun
    exact hrun
  · rw [hresults, List.replicate_succ']
    conv_lhs => rw [heq]
    simp

/-- A steady history has the status at OK since a success with fewer than `k`
failures behind it. -/
theorem statusOK_iff (hcounts : monitor.Counts k 0)
    (hdown : monitor.statusOK = false) (hk : 1 ≤ k)
    (hsteady : Steady w k results) {before after : List Check}
    (hresults : results = before ++ after) :
    (monitor.checkWorker w before).statusOK = true ↔
      .success ∈ before ∧ (unbroken before : Int) < k := by
  induction before using List.reverseRecOn generalizing after with
  | nil => simp [Monitor.checkWorker, hdown]
  | append_singleton before result ih =>
      have hbefore := hcounts.checkWorker w before
      rw [checkWorker_snoc]
      rw [List.append_assoc, List.singleton_append] at hresults
      have hprev := ih hresults
      cases result with
      | success =>
          rw [hbefore.check_success, unbroken_append_success]
          exact iff_of_true rfl ⟨by simp, by omega⟩
      | failure =>
          rw [hbefore.check_failure, unbroken_append_failure]
          rw [Nat.zero_add, Bool.and_eq_true, Bool.not_eq_true',
            decide_eq_false_iff_not, hprev]
          have hmem : Check.success ∈ before ++ [.failure] ↔
              .success ∈ before := by simp
          rw [hmem, and_assoc]
          refine and_congr_right fun hsuccess => ?_
          constructor
          · rintro ⟨hlt, hnot⟩
            rw [hsteady.next hresults hsuccess hlt] at hnot
            omega
          · intro hlt
            have hless : (unbroken before : Int) < k := by omega
            refine ⟨hless, ?_⟩
            rw [hsteady.next hresults hsuccess hless]
            omega

/-- Until the counter of failures leaves the range of an int, a history is steady
when all failures so far stay below `k` while those in a row do. -/
theorem steady_iff_of_few
    (hfew : results.count .failure < w.half) :
    Steady w k results ↔ ∀ (earlier : List Check) (run : Nat)
      (rest : List Check),
      results = earlier ++ .success :: List.replicate run .failure ++ rest →
      1 ≤ run → run < k → (earlier.count .failure + run : Int) < k := by
  have hwrap {earlier rest : List Check} {run : Nat}
      (hresults : results =
        earlier ++ .success :: List.replicate run .failure ++ rest) :
      w.wrap (earlier.count .failure + run) =
        earlier.count .failure + run := by
    have hcount : results.count .failure =
        earlier.count .failure + run + rest.count .failure := by
      rw [hresults]
      simp [Nat.add_assoc]
    exact Width.wrap_of_holds ⟨by omega, by omega⟩
  constructor
  · intro hsteady earlier run rest hresults hpos hlt
    have hrun := hsteady earlier run rest hresults hpos (by omega)
    rw [hwrap hresults] at hrun
    omega
  · intro hbelow earlier run rest hresults hpos hle
    have hless := hbelow earlier run rest hresults hpos
    rw [hwrap hresults]
    omega

theorem follows_of_steady (hcounts : monitor.Counts k 0)
    (hdown : monitor.statusOK = false) (hk : 1 ≤ k)
    (hsteady : Steady w k results) : Follows w monitor k results where
  normal before result after _ := by
    have hbefore := hcounts.checkWorker w before
    cases result with
    | success =>
        rw [hbefore.check_success]
        simp
    | failure =>
        rw [hbefore.check_failure]
        simp
  failed before result after hresults := by
    have hbefore := hcounts.checkWorker w before
    cases result with
    | success =>
        rw [hbefore.check_success]
        simp
    | failure =>
        rw [hbefore.check_failure, unbroken_append_failure, Nat.zero_add]
        have hok := statusOK_iff hcounts hdown hk hsteady hresults
        by_cases hup : (monitor.checkWorker w before).statusOK = true
        · obtain ⟨hsuccess, hlt⟩ := hok.mp hup
          have hnext := hsteady.next hresults hsuccess hlt
          simp only [hup, true_and, ite_eq_left_iff, reduceCtorEq,
            imp_false, not_not]
          rw [hnext]
          omega
        · simp [hup]
  alternates := hdown ▸ hcounts.alternates w results
  stays earlier run rest hresults hlt := by
    rw [statusOK_iff hcounts hdown hk hsteady hresults, unbroken_run]
    exact ⟨by simp, hlt⟩

theorem steady_of_follows (hcounts : monitor.Counts k 0)
    (hfollows : Follows w monitor k results) : Steady w k results := by
  intro earlier run rest hresults hpos hle
  obtain ⟨run, rfl⟩ : ∃ before, run = before + 1 := ⟨run - 1, by omega⟩
  have hsplit : results =
      (earlier ++ .success :: List.replicate run .failure) ++
        .failure :: rest := by
    rw [hresults, List.replicate_succ']
    simp
  have hup := hfollows.stays earlier run (.failure :: rest) hsplit (by omega)
  have hbefore := hcounts.checkWorker w
    (earlier ++ .success :: List.replicate run .failure)
  have hfailed := hfollows.failed _ .failure rest hsplit
  have hcount : (earlier ++ Check.success :: List.replicate run .failure).count
      .failure = earlier.count .failure + run := by simp
  rw [hbefore.check_failure, unbroken_append_failure, unbroken_run,
    Nat.zero_add, hcount] at hfailed
  simp only [hup, true_and, ite_eq_left_iff, reduceCtorEq, imp_false,
    not_not] at hfailed
  rw [Nat.cast_succ, ← add_assoc, ← Nat.cast_add, hfailed]
  omega

end Worker

/-- The Monitor of a wrapper behaves as documented exactly on the steady
histories. -/
theorem follows_iff_steady (w : Width) (intervalS timeoutS : Int) {k : Int}
    (hk : 1 ≤ k) (results : List Check) :
    Follows w (newMonitor intervalS timeoutS k true true) k results ↔
      Steady w k results :=
  ⟨steady_of_follows (counts_newMonitor intervalS timeoutS hk),
    follows_of_steady (counts_newMonitor intervalS timeoutS hk) rfl hk⟩

/-- Up and down with three failures in a row. -/
theorem follows_iff_steady_down :
    (1 : Int) ≤ 3 ∧
    (Follows .bits64 (newMonitor 10 3 3 true true) 3
        [.success, .failure, .failure, .failure] ↔
      Steady .bits64 3 [.success, .failure, .failure, .failure]) :=
  ⟨by decide, follows_iff_steady .bits64 10 3 (by decide) _⟩

/-- A failure now and then, each with a success after it: the third one takes
the proxy down. -/
theorem not_follows_scattered :
    ¬ Follows .bits64 (newMonitor 10 3 3 true true) 3
      [.success, .failure, .success, .failure, .success, .failure] := by
  intro hfollows
  have hcall := hfollows.failed
    [.success, .failure, .success, .failure, .success] .failure [] rfl
  exact absurd hcall (by decide)

end Health

end Frp
