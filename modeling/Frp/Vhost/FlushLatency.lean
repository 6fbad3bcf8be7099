/-
The `maxLatencyWriter` of `pkg/util/vhost/reverseproxy.go`, through which a body is
copied that has to reach the user while it is still being written: its `Write`, its
timer, the calls of `delayedFlush` that the timer starts, and `stop`.
-/
import Frp.Lib.GoStrings
import Frp.Lib.System

namespace Frp

open GoStrings Transition

namespace MaxLatencyWriter

/-- The clock, the fields of the writer and what has come of the bytes: those that
are flushed, and those that wait since a time.  `started` holds the times at which
the calls of `delayedFlush` began that do not have the mutex yet, and `final` what
was flushed when `stop` returned. -/
structure State where
  now : Int
  flushPending : Bool
  t : Option Int
  started : List Int
  written : Bytes
  flushed : Bytes
  waiting : List (Bytes × Int)
  final : Option Bytes
deriving DecidableEq, Repr

/-- `n` is what the writer below takes of a slice. -/
inductive Action where
  | pass (d : Nat)
  | write (p : Bytes) (n : Nat)
  | fire
  | delayedFlush (i : Nat)
  | stop
deriving DecidableEq, Repr

/-- When a timer goes off that is set for a duration. -/
def dueAt (now latency : Int) : Int := if latency ≤ 0 then now else now + latency

/-- `copyResponse` sets the timer before it copies. -/
def init (latency : Int) : State where
  now := 0
  flushPending := true
  t := some (dueAt 0 latency)
  started := []
  written := []
  flushed := []
  waiting := []
  final := none

def State.flush (s : State) : State :=
  { s with
    flushed := s.flushed ++ s.waiting.flatMap Prod.fst
    waiting := [] }

/-- `m.dst.Write(p)`. -/
def State.take (s : State) (chunk : Bytes) : State :=
  { s with
    written := s.written ++ chunk
    waiting := s.waiting ++ [(chunk, s.now)] }

def step (latency : Int) (s : State) : Action → Option State
  | .pass d => some { s with now := s.now + d }
  | .write p n =>
      if s.final = none ∧ n ≤ p.length then
        let s := s.take (p.take n)
        if latency < 0 then some s.flush
        else if s.flushPending then some s
        else some { s with
          t := some (dueAt s.now latency)
          flushPending := true }
      else none
  | .fire =>
      match s.t with
      | some due =>
          if due ≤ s.now then
            some { s with t := none, started := s.started ++ [s.now] }
          else none
      | none => none
  | .delayedFlush i =>
      if i < s.started.length then
        let s := { s with started := s.started.eraseIdx i }
        if s.flushPending then some { s.flush with flushPending := false }
        else some s
      else none
  | .stop =>
      if s.final = none then
        some { s with flushPending := false, t := none, final := some s.flushed }
      else none

def system (latency : Int) : System State Action :=
  ⟨init latency, step latency⟩

/-- The timer goes off, and a call that it starts gets the mutex, within `late`. -/
def Timely (late : Int) (s : State) (t : Int) : Prop :=
  (∀ due ∈ s.t, t ≤ due + late) ∧ ∀ start ∈ s.started, t ≤ start + late

instance (late : Int) (s : State) (t : Int) : Decidable (Timely late s t) :=
  inferInstanceAs (Decidable (_ ∧ _))

def Until (late : Int) (s : State) : Action → Prop
  | .pass d => Timely late s (s.now + d)
  | .write .. | .fire | .delayedFlush _ | .stop => True

instance (late : Int) (s : State) (action : Action) :
    Decidable (Until late s action) := by
  cases action <;> unfold Until <;> infer_instance

/-- A flush is on its way that comes early enough for every waiting byte: the
timer is set, or one call has started. -/
inductive Due (latency late : Int) (s : State) : Prop
  | timer {due : Int} (ht : s.t = some due) (hstarted : s.started = [])
      (hsoon : 0 ≤ latency → due ≤ s.now + latency)
      (hwaiting : ∀ w ∈ s.waiting, due ≤ w.2 + latency)
  | started {start : Int} (ht : s.t = none) (hstarted : s.started = [start])
      (hpast : start ≤ s.now)
      (hwaiting : ∀ w ∈ s.waiting, start ≤ w.2 + latency + late)

structure Inv (latency late : Int) (s : State) : Prop where
  kept : s.written = s.flushed ++ s.waiting.flatMap Prod.fst
  prompt : latency < 0 → s.waiting = []
  past : ∀ w ∈ s.waiting, w.2 ≤ s.now
  onTime : Timely late s s.now
  pending : s.final = none → s.flushPending = true → Due latency late s
  idle : s.flushPending = false →
    s.t = none ∧ (s.final = none → s.started = [] ∧ s.waiting = [])
  stopped : ∀ flushed ∈ s.final, s.flushPending = false ∧ s.flushed = flushed

theorem le_dueAt (now latency : Int) : now ≤ dueAt now latency := by
  unfold dueAt
  split <;> omega

theorem dueAt_le {now latency : Int} (hlatency : 0 ≤ latency) :
    dueAt now latency ≤ now + latency := by
  unfold dueAt
  split <;> omega

theorem inv_init {latency late : Int} (hlate : 0 ≤ late) :
    Inv latency late (init latency) where
  kept := rfl
  prompt _ := rfl
  past _ hw := absurd hw List.not_mem_nil
  onTime := by
    constructor
    · intro due hdue
      cases hdue
      exact (le_dueAt 0 latency).trans (by omega)
    · intro start hstart
      exact absurd hstart List.not_mem_nil
  pending _ _ := .timer rfl rfl dueAt_le fun _ hw => absurd hw List.not_mem_nil
  idle hfalse := by cases hfalse
  stopped _ hmem := by cases hmem

section Steps

variable {latency late : Int} {s next : State}

theorem Inv.pass (hinv : Inv latency late s) {d : Nat}
    (htimely : Timely late s (s.now + d)) :
    Inv latency late { s with now := s.now + d } where
  kept := hinv.kept
  prompt := hinv.prompt
  past w hw := (hinv.past w hw).trans (by dsimp only; omega)
  onTime := htimely
  pending hfinal hpending := by
    cases hinv.pending hfinal hpending with
    | timer ht hstarted hsoon hwaiting =>
        exact .timer ht hstarted
          (fun hlatency => (hsoon hlatency).trans (by dsimp only; omega)) hwaiting
    | started ht hstarted hpast hwaiting =>
        exact .started ht hstarted (hpast.trans (by dsimp only; omega)) hwaiting
  idle := hinv.idle
  stopped := hinv.stopped

/-- A write behind which a flush is on its way already. -/
theorem Inv.take (hinv : Inv latency late s) (chunk : Bytes)
    (hlate : 0 ≤ late) (hlatency : 0 ≤ latency) (hcopying : s.final = none)
    (hpending : s.flushPending = true) : Inv latency late (s.take chunk) where
  kept := by
    rw [State.take, hinv.kept]
    simp
  prompt hneg := absurd hneg (by omega)
  past w hw := by
    rcases List.mem_append.mp hw with hold | hnew
    · exact hinv.past w hold
    · exact (List.mem_singleton.mp hnew) ▸ Int.le_refl _
  onTime := hinv.onTime
  pending _ _ := by
    cases hinv.pending hcopying hpending with
    | timer ht hstarted hsoon hwaiting =>
        refine .timer ht hstarted hsoon fun w hw => ?_
        rcases List.mem_append.mp hw with hold | hnew
        · exact hwaiting w hold
        · rw [List.mem_singleton.mp hnew]
          exact hsoon hlatency
    | started ht hstarted hpast hwaiting =>
        refine .started ht hstarted hpast fun w hw => ?_
        rcases List.mem_append.mp hw with hold | hnew
        · exact hwaiting w hold
        · rw [List.mem_singleton.mp hnew]
          dsimp only
          omega
  idle hfalse := by
    rw [State.take, hpending] at hfalse
    cases hfalse
  stopped := hinv.stopped

/-- A write that sets the timer: nothing was waiting before it. -/
theorem Inv.arm (hinv : Inv latency late s) (chunk : Bytes)
    (hlate : 0 ≤ late) (hlatency : 0 ≤ latency) (hcopying : s.final = none)
    (hidle : s.flushPending = false) :
    Inv latency late { s.take chunk with
      t := some (dueAt s.now latency)
      flushPending := true } where
  kept := by
    dsimp only [State.take]
    rw [hinv.kept]
    simp
  prompt hneg := absurd hneg (by omega)
  past w hw := by
    rcases List.mem_append.mp hw with hold | hnew
    · exact hinv.past w hold
    · exact (List.mem_singleton.mp hnew) ▸ Int.le_refl _
  onTime := by
    refine ⟨?_, hinv.onTime.2⟩
    intro due hdue
    cases hdue
    exact (le_dueAt s.now latency).trans (by omega)
  pending _ _ := by
    obtain ⟨hstarted, hwaiting⟩ := (hinv.idle hidle).2 hcopying
    refine .timer rfl hstarted dueAt_le fun w hw => ?_
    simp only [State.take, hwaiting, List.nil_append, List.mem_singleton] at hw
    rw [hw]
    exact dueAt_le hlatency
  idle hfalse := by cases hfalse
  stopped flushed hflushed := by
    dsimp only [State.take] at hflushed
    rw [hcopying] at hflushed
    cases hflushed

/-- With a latency below zero a write is flushed at once. -/
theorem Inv.takeFlush (hinv : Inv latency late s) (chunk : Bytes)
    (hcopying : s.final = none) : Inv latency late (s.take chunk).flush where
  kept := by
    simp only [State.flush, State.take, hinv.kept]
    simp
  prompt _ := rfl
  past _ hw := absurd hw List.not_mem_nil
  onTime := hinv.onTime
  pending hfinal hpending := by
    cases hinv.pending hfinal hpending with
    | timer ht hstarted hsoon hwaiting =>
        exact .timer ht hstarted hsoon fun _ hw => absurd hw List.not_mem_nil
    | started ht hstarted hpast hwaiting =>
        exact .started ht hstarted hpast fun _ hw => absurd hw List.not_mem_nil
  idle hfalse :=
    ⟨(hinv.idle hfalse).1, fun hfinal =>
      ⟨((hinv.idle hfalse).2 hfinal).1, rfl⟩⟩
  stopped flushed hflushed := by
    dsimp only [State.flush, State.take] at hflushed
    rw [hcopying] at hflushed
    cases hflushed

theorem Inv.write (hinv : Inv latency late s) {p : Bytes} {n : Nat}
    (hlate : 0 ≤ late) (hstep : step latency s (.write p n) = some next) :
    Inv latency late next := by
  simp only [step] at hstep
  split at hstep
  · next hcopying =>
      split at hstep
      · cases hstep
        exact hinv.takeFlush _ hcopying.1
      · next hpos =>
          have hlatency : 0 ≤ latency := by omega
          split at hstep
          · next hflush =>
              cases hstep
              exact hinv.take _ hlate hlatency hcopying.1 hflush
          · next hflush =>
              cases hstep
              exact hinv.arm _ hlate hlatency hcopying.1
                (Bool.eq_false_iff.mpr hflush)
  · cases hstep

theorem Inv.fire (hinv : Inv latency late s) (hlate : 0 ≤ late)
    (hstep : step latency s .fire = some next) : Inv latency late next := by
  simp only [step] at hstep
  split at hstep
  · next due ht =>
      split at hstep
      · next hdue =>
          cases hstep
          have hpending : s.flushPending = true := by
            by_contra hfalse
            have hnone := (hinv.idle (Bool.eq_false_iff.mpr hfalse)).1
            rw [ht] at hnone
            cases hnone
          refine ⟨hinv.kept, hinv.prompt, hinv.past, ?_, ?_, ?_, hinv.stopped⟩
          · refine ⟨by simp, fun start hstart => ?_⟩
            rcases List.mem_append.mp hstart with hold | hnew
            · exact hinv.onTime.2 start hold
            · rw [List.mem_singleton.mp hnew]
              dsimp only
              omega
          · intro hfinal _
            cases hinv.pending hfinal hpending with
            | timer ht' hstarted hsoon hwaiting =>
                rw [ht] at ht'
                cases ht'
                refine .started rfl (by simp [hstarted]) (Int.le_refl _)
                  fun w hw => ?_
                have hfired := hinv.onTime.1 due ht
                have hearly := hwaiting w hw
                dsimp only
                omega
            | started ht' hstarted hpast hwaiting =>
                rw [ht] at ht'
                cases ht'
          · intro hfalse
            rw [hpending] at hfalse
            cases hfalse
      · cases hstep
  · cases hstep

theorem Inv.delayedFlush (hinv : Inv latency late s) {i : Nat}
    (hstep : step latency s (.delayedFlush i) = some next) :
    Inv latency late next := by
  simp only [step] at hstep
  split at hstep
  · next hi =>
      have honTime : Timely late { s with started := s.started.eraseIdx i }
          s.now :=
        ⟨hinv.onTime.1, fun start hstart =>
          hinv.onTime.2 start (List.mem_of_mem_eraseIdx hstart)⟩
      cases hfinal : s.final with
      | none =>
          -- Nothing is started unless a flush is pending.
          have hpending : s.flushPending = true := by
            by_contra hfalse
            have hnil := ((hinv.idle (Bool.eq_false_iff.mpr hfalse)).2 hfinal).1
            rw [hnil] at hi
            exact absurd hi (Nat.not_lt_zero i)
          rw [if_pos hpending, Option.some.injEq] at hstep
          subst hstep
          cases hinv.pending hfinal hpending with
          | timer ht hstarted hsoon hwaiting =>
              rw [hstarted] at hi
              exact absurd hi (Nat.not_lt_zero i)
          | @started start ht hstarted hpast hwaiting =>
              have hnil : s.started.eraseIdx i = [] := by
                rw [hstarted, List.length_singleton] at hi
                rw [hstarted, Nat.lt_one_iff.mp hi]
                rfl
              refine ⟨?_, fun _ => rfl, by simp [State.flush], honTime, ?_,
                fun _ => ⟨ht, fun _ => ⟨hnil, rfl⟩⟩, ?_⟩
              · simp [State.flush, hinv.kept]
              · intro _ hfalse
                cases hfalse
              · intro flushed hflushed
                dsimp only [State.flush] at hflushed
                rw [hfinal] at hflushed
                cases hflushed
      | some flushed =>
          obtain ⟨hidle, hsame⟩ := hinv.stopped flushed hfinal
          rw [hidle, if_neg Bool.false_ne_true, Option.some.injEq] at hstep
          subst hstep
          refine ⟨hinv.kept, hinv.prompt, hinv.past, honTime, ?_, ?_,
            fun flushed hflushed => ⟨rfl, (hinv.stopped flushed hflushed).2⟩⟩
          · intro hnone
            dsimp only at hnone
            rw [hfinal] at hnone
            cases hnone
          · intro _
            refine ⟨(hinv.idle hidle).1, fun hnone => ?_⟩
            dsimp only at hnone
            rw [hfinal] at hnone
            cases hnone
  · cases hstep

theorem Inv.stop (hinv : Inv latency late s)
    (hstep : step latency s .stop = some next) : Inv latency late next := by
  simp only [step] at hstep
  split at hstep
  · next hcopying =>
      cases hstep
      refine ⟨hinv.kept, hinv.prompt, hinv.past, ?_, ?_, ?_, ?_⟩
      · exact ⟨by simp, hinv.onTime.2⟩
      · intro hfinal
        cases hfinal
      · intro _
        exact ⟨rfl, fun hfinal => by cases hfinal⟩
      · intro flushed hflushed
        cases hflushed
        exact ⟨rfl, rfl⟩
  · cases hstep

theorem Inv.step (hinv : Inv latency late s) (hlate : 0 ≤ late)
    {action : Action} (huntil : Until late s action)
    (hstep : step latency s action = some next) : Inv latency late next := by
  cases action with
  | pass d =>
      cases hstep
      exact hinv.pass huntil
  | write p n => exact hinv.write hlate hstep
  | fire => exact hinv.fire hlate hstep
  | delayedFlush i => exact hinv.delayedFlush hstep
  | stop => exact hinv.stop hstep

end Steps

/-- In every run the bytes that were taken are flushed in their order.  While the
copy goes on none of them waits longer than the latency and twice what timers and
the mutex may be late, and after `stop` nothing is flushed any more. -/
theorem flushed_of_run {latency late : Int} (hlate : 0 ≤ late)
    {word : List Action} {s : State}
    (hrun : (system latency).Run (Until late) word s) :
    s.flushed <+: s.written ∧
      (s.final = none → s.written = s.flushed ++ s.waiting.flatMap Prod.fst ∧
        (∀ w ∈ s.waiting, s.now ≤ w.2 + latency + 2 * late) ∧
        (latency < 0 → s.flushed = s.written)) ∧
      (∀ flushed ∈ s.final, s.flushed = flushed) := by
  have hinv : Inv latency late s :=
    hrun.invariant (inv_init hlate) fun _ _ _ hinv huntil hstep =>
      hinv.step hlate huntil hstep
  refine ⟨?_, fun hfinal => ⟨hinv.kept, fun w hw => ?_, fun hneg => ?_⟩,
    fun flushed hflushed => (hinv.stopped flushed hflushed).2⟩
  · rw [hinv.kept]
    exact List.prefix_append _ _
  · have hpending : s.flushPending = true := by
      by_contra hfalse
      have hnil := ((hinv.idle (Bool.eq_false_iff.mpr hfalse)).2 hfinal).2
      rw [hnil] at hw
      exact absurd hw List.not_mem_nil
    cases hinv.pending hfinal hpending with
    | timer ht hstarted hsoon hwaiting =>
        have hfired := hinv.onTime.1 _ ht
        have hdue := hwaiting w hw
        omega
    | @started start ht hstarted hpast hwaiting =>
        have hcalled := hinv.onTime.2 start (by simp [hstarted])
        have hstart := hwaiting w hw
        omega
  · rw [hinv.kept, hinv.prompt hneg]
    simp

/-- A timer of 100 that is late by 5, and a byte written just before it goes off. -/
theorem flushed_of_run_late :
    ∃ s, (system 100).Run (Until 5)
        [.pass 90, .write [7] 1, .pass 15, .fire, .pass 5] s ∧
      (∀ w ∈ s.waiting, s.now ≤ w.2 + 100 + 2 * 5) ∧ s.waiting ≠ [] := by
  obtain ⟨s, hrun, hfinal, hwaiting⟩ :=
    @System.exists_run_of_replay _ _ (system 100) (Until 5) _
      [.pass 90, .write [7] 1, .pass 15, .fire, .pass 5]
      (fun s => s.final = none ∧ s.waiting ≠ []) _ (by decide)
  exact ⟨s, hrun, ((flushed_of_run (by decide) hrun).2.1 hfinal).2.1, hwaiting⟩

end MaxLatencyWriter

end Frp
