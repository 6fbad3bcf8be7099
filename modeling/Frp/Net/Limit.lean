/-
The rate-limited reader and writer of `pkg/util/limit`, and the limiter that
`NewProxy` of `client/proxy/proxy.go` makes for a bandwidth limit.  `WaitN` blocks
until it answers.
-/
import Frp.Config.Compare
import Frp.Lib.GoInt
import Frp.Lib.GoStream

namespace Frp

open GoInt GoStream GoStrings

namespace Limit

variable {W B E : Type}

/-- A `rate.Limiter`.  Nothing sets another burst. -/
structure Limiter (W E : Type) where
  burst : Int
  waitN : W → Int → W × Option E

structure Reader (W B E : Type) where
  r : GoStream.Reader W B E
  limiter : Limiter W E

structure Writer (W B E : Type) where
  w : GoStream.Writer W B E
  limiter : Limiter W E

/-- A slice with a negative bound panics. -/
inductive Ending (E : Type) where
  | returned (n : Nat) (err : Option E)
  | panicked
deriving DecidableEq

/-- A call of `Writer.Write`: the counts that `WaitN` is asked for and the calls of
the writer below. -/
structure Run (W B E : Type) where
  world : W
  waits : List Int
  sent : List (Sent B)
  ending : Ending E

/-- A run that one turn of the loop comes before. -/
def Run.after (count : Int) (first : Sent B) (run : Run W B E) : Run W B E :=
  { run with waits := count :: run.waits, sent := first :: run.sent }

/-- The bound of the chunk: `len(p)`, or `b` if it is less. -/
def stop (b : Int) (p : List B) : Int :=
  if b < p.length then b else p.length

/-- The loop of `Write` from the total `n` on, with as many turns as `fuel`. -/
def Writer.loop (w : Writer W B E) (b : Int) :
    Nat → W → Nat → List B → Option (Run W B E)
  | 0, _, _, _ => none
  | fuel + 1, world, n, p =>
      if p.length = 0 then some ⟨world, [], [], .returned n none⟩
      else
        let count := stop b p
        match w.limiter.waitN world count with
        | (world, some err) =>
            some ⟨world, [count], [], .returned n (some err)⟩
        | (world, none) =>
            if count < 0 then some ⟨world, [count], [], .panicked⟩
            else
              let chunk := p.take count.toNat
              let written := w.w.write world chunk
              let sent := ⟨chunk, written.n⟩
              match written.err with
              | some err => some
                  ⟨written.world, [count], [sent],
                    .returned (n + written.n) (some err)⟩
              | none =>
                  (w.loop b fuel written.world (n + written.n)
                    (p.drop count.toNat)).map (Run.after count sent)

/-- `Writer.Write`. -/
def Writer.write (w : Writer W B E) (fuel : Nat) (world : W) (p : List B) :
    Option (Run W B E) :=
  w.loop w.limiter.burst fuel world 0 p

/-- `Reader.Read`, which panics on a negative burst. -/
def Reader.read (r : Reader W B E) (world : W) (len : Nat) :
    Option (Got W B E) :=
  let b := r.limiter.burst
  if b < len ∧ b < 0 then none
  else
    let got := r.r.read world (if b < len then b.toNat else len)
    match got.err with
    | some _ => some got
    | none =>
        let (world, err) := r.limiter.waitN got.world got.data.length
        some ⟨world, got.data, err⟩

/-- Within the burst a chunk is a part of the slice that is not empty. -/
theorem stop_spec {b : Int} {p : List B} (hburst : 1 ≤ b) (hp : p.length ≠ 0) :
    1 ≤ stop b p ∧ stop b p ≤ b ∧ stop b p ≤ p.length := by
  unfold stop
  split <;> omega

/-- `WaitN` is asked within the burst, and for each chunk before the chunk is
passed on. -/
structure Run.Asked (b : Int) (run : Run W B E) : Prop where
  asks : ∀ count ∈ run.waits, 1 ≤ count ∧ count ≤ b
  paid : (run.sent.map fun s => (s.chunk.length : Int)) <+: run.waits

/-- The slice is passed on in chunks within the burst, and the call returns what
has been taken of it. -/
structure Run.Forwarded (b : Int) (p : List B) (run : Run W B E) : Prop extends
    run.Asked b where
  forwards : ∃ n err, run.ending = .returned n err ∧
    Forwards b.toNat p run.sent n err

namespace Run.Asked

variable {b count : Int}

theorem nil (b : Int) (world : W) (ending : Ending E) :
    Run.Asked (B := B) b ⟨world, [], [], ending⟩ where
  asks _ hmem := absurd hmem List.not_mem_nil
  paid := List.prefix_rfl

theorem refused (world : W) (ending : Ending E) (hcount : 1 ≤ count)
    (hb : count ≤ b) : Run.Asked (B := B) b ⟨world, [count], [], ending⟩ where
  asks _ hmem := by
    rw [List.mem_singleton.mp hmem]
    exact ⟨hcount, hb⟩
  paid := List.nil_prefix

theorem cut (world : W) (ending : Ending E) {first : Sent B}
    (hcount : 1 ≤ count) (hb : count ≤ b)
    (hfirst : (first.chunk.length : Int) = count) :
    Run.Asked b ⟨world, [count], [first], ending⟩ where
  asks _ hmem := by
    rw [List.mem_singleton.mp hmem]
    exact ⟨hcount, hb⟩
  paid := by simp [hfirst]

theorem after {run : Run W B E} (hasked : run.Asked b) {first : Sent B}
    (hcount : 1 ≤ count) (hb : count ≤ b)
    (hfirst : (first.chunk.length : Int) = count) :
    (run.after count first).Asked b where
  asks other hmem := by
    rcases List.mem_cons.mp hmem with rfl | hin
    · exact ⟨hcount, hb⟩
    · exact hasked.asks other hin
  paid := by
    rw [Run.after, List.map_cons, hfirst, List.cons_prefix_cons]
    exact ⟨rfl, hasked.paid⟩

end Run.Asked

namespace Writer

section Turn

variable (w : Writer W B E) {b : Int} {fuel n : Nat} {world world' : W}
  {p : List B}

theorem loop_nil : w.loop b (fuel + 1) world n [] =
    some ⟨world, [], [], .returned n none⟩ := rfl

theorem loop_refused {err : E} (hp : p.length ≠ 0)
    (hwait : w.limiter.waitN world (stop b p) = (world', some err)) :
    w.loop b (fuel + 1) world n p =
      some ⟨world', [stop b p], [], .returned n (some err)⟩ := by
  simp [loop, hp, hwait]

theorem loop_cut {err : E} {written : Written W E} (hp : p.length ≠ 0)
    (hwait : w.limiter.waitN world (stop b p) = (world', none))
    (hstop : 0 ≤ stop b p)
    (hwrite : w.w.write world' (p.take (stop b p).toNat) = written)
    (herr : written.err = some err) :
    w.loop b (fuel + 1) world n p =
      some ⟨written.world, [stop b p],
        [⟨p.take (stop b p).toNat, written.n⟩],
        .returned (n + written.n) (some err)⟩ := by
  simp [loop, hp, hwait, hwrite, herr, Int.not_lt.mpr hstop]

theorem loop_next {written : Written W E} (hp : p.length ≠ 0)
    (hwait : w.limiter.waitN world (stop b p) = (world', none))
    (hstop : 0 ≤ stop b p)
    (hwrite : w.w.write world' (p.take (stop b p).toNat) = written)
    (herr : written.err = none) :
    w.loop b (fuel + 1) world n p =
      (w.loop b fuel written.world (n + written.n)
        (p.drop (stop b p).toNat)).map
        (Run.after (stop b p) ⟨p.take (stop b p).toNat, written.n⟩) := by
  simp [loop, hp, hwait, hwrite, herr, Int.not_lt.mpr hstop]

end Turn

/-- The loop from the total `n` on.  Each turn that does not return passes on at
least one byte, so there are at most as many as bytes, and the last one. -/
theorem loop_forwards (w : Writer W B E) {b : Int} (hburst : 1 ≤ b)
    {fuel : Nat} (world : W) (n : Nat) {p : List B} (hfuel : p.length < fuel) :
    ∃ run k err, w.loop b fuel world n p = some run ∧ run.Asked b ∧
      run.ending = .returned (n + k) err ∧
      Forwards b.toNat p run.sent k err := by
  induction fuel generalizing world n p with
  | zero => exact absurd hfuel (Nat.not_lt_zero _)
  | succ fuel ih =>
      by_cases hp : p.length = 0
      · obtain rfl := List.eq_nil_of_length_eq_zero hp
        exact ⟨_, 0, none, w.loop_nil, .nil b world _, rfl, .empty _⟩
      obtain ⟨hpos, hb, hlen⟩ := stop_spec hburst hp
      have hk : (stop b p).toNat ≤ p.length := by omega
      have hchunk : ((p.take (stop b p).toNat).length : Int) = stop b p := by
        rw [List.length_take_of_le hk]
        omega
      cases hwait : w.limiter.waitN world (stop b p) with
      | mk world' refusal =>
      cases refusal with
      | some err =>
          exact ⟨_, 0, some err, w.loop_refused hp hwait,
            .refused world' _ hpos hb, rfl, .refused _ p err⟩
      | none =>
      generalize hwrite : w.w.write world' (p.take (stop b p).toNat) = written
      cases herr : written.err with
      | some err =>
          have hle := w.w.le world' (p.take (stop b p).toNat)
          rw [hwrite] at hle
          exact ⟨_, written.n, some err,
            w.loop_cut hp hwait (by omega) hwrite herr,
            .cut written.world _ hpos hb hchunk, rfl,
            .cut (by omega) (by omega) hk hle err⟩
      | none =>
          have hwhole := w.w.short world' (p.take (stop b p).toNat)
          rw [hwrite] at hwhole
          have hn : written.n = (stop b p).toNat := by
            rw [hwhole herr, List.length_take_of_le hk]
          have hfewer : (p.drop (stop b p).toNat).length < fuel := by
            rw [List.length_drop]
            omega
          obtain ⟨run, k, err, hrun, hasked, hending, hforwards⟩ :=
            ih written.world (n + written.n) hfewer
          refine ⟨run.after (stop b p) ⟨_, written.n⟩, written.n + k, err, ?_,
            hasked.after hpos hb hchunk, ?_, ?_⟩
          · rw [w.loop_next hp hwait (by omega) hwrite herr, hrun]
            rfl
          · rw [← Nat.add_assoc]
            exact hending
          · rw [hn]
            exact hforwards.next (by omega) (by omega) hk

/-- A call that has returned does not need more turns. -/
theorem loop_mono (w : Writer W B E) {b : Int} {fuel fuel' : Nat} {world : W}
    {n : Nat} {p : List B} {run : Run W B E}
    (hrun : w.loop b fuel world n p = some run) (hle : fuel ≤ fuel') :
    w.loop b fuel' world n p = some run := by
  induction fuel generalizing fuel' world n p run with
  | zero => cases hrun
  | succ fuel ih =>
      obtain ⟨more, rfl⟩ := Nat.exists_eq_add_of_le' hle
      have hrest : fuel ≤ more + fuel := Nat.le_add_left fuel more
      rw [← Nat.add_assoc]
      by_cases hp : p.length = 0
      · obtain rfl := List.eq_nil_of_length_eq_zero hp
        exact hrun
      cases hwait : w.limiter.waitN world (stop b p) with
      | mk world' refusal =>
      cases refusal with
      | some err =>
          rw [w.loop_refused hp hwait] at hrun ⊢
          exact hrun
      | none =>
      by_cases hstop : stop b p < 0
      · simpa [loop, hp, hwait, hstop] using hrun
      generalize hwrite : w.w.write world' (p.take (stop b p).toNat) = written
      cases herr : written.err with
      | some err =>
          rw [w.loop_cut hp hwait (Int.not_lt.mp hstop) hwrite herr]
            at hrun ⊢
          exact hrun
      | none =>
          rw [w.loop_next hp hwait (Int.not_lt.mp hstop) hwrite herr]
            at hrun ⊢
          obtain ⟨tail, htail, rfl⟩ := Option.map_eq_some_iff.mp hrun
          rw [ih htail hrest]
          rfl

/-- A burst of zero: every turn asks for nothing and writes nothing. -/
theorem loop_eq_none (w : Writer W B E) (fuel : Nat) (world : W) (n : Nat)
    {p : List B} (hp : p.length ≠ 0)
    (hwait : ∀ world, (w.limiter.waitN world 0).2 = none)
    (hwrite : ∀ world, (w.w.write world []).err = none) :
    w.loop 0 fuel world n p = none := by
  have hstop : stop 0 p = 0 := by
    unfold stop
    split <;> omega
  induction fuel generalizing world n with
  | zero => rfl
  | succ fuel ih =>
      have hgranted : w.limiter.waitN world (stop 0 p) =
          ((w.limiter.waitN world 0).1, none) := by
        rw [hstop, ← hwait world]
      rw [w.loop_next hp hgranted (by omega) rfl (by
        rw [hstop]
        exact hwrite _)]
      rw [hstop, Int.toNat_zero, List.drop_zero, ih]
      rfl

/-- `Write` returns whenever the burst is positive, after less than `len(p)` and
one turns, and has passed on what it says. -/
theorem write_forwards (w : Writer W B E) (hburst : 1 ≤ w.limiter.burst)
    (world : W) (p : List B) :
    ∃ run, (∀ fuel, p.length < fuel → w.write fuel world p = some run) ∧
      run.Forwarded w.limiter.burst p := by
  obtain ⟨run, k, err, hrun, hasked, hending, hforwards⟩ :=
    w.loop_forwards hburst world 0 (Nat.lt_succ_self p.length)
  refine ⟨run, fun fuel hfuel => w.loop_mono hrun hfuel, hasked, k, err, ?_,
    hforwards⟩
  rw [hending, Nat.zero_add]

end Writer

/-- `Read` passes on what the reader below has read, within the burst. -/
theorem Reader.read_spec (r : Reader W B E) (hburst : 1 ≤ r.limiter.burst)
    (world : W) (len : Nat) :
    ∃ got, r.read world len = some got ∧
      (got.data.length : Int) ≤ min r.limiter.burst len := by
  have hpositive : ¬ (r.limiter.burst < len ∧ r.limiter.burst < 0) := by omega
  have hle := r.r.le world
    (if r.limiter.burst < len then r.limiter.burst.toNat else len)
  have hshort : ((if r.limiter.burst < len then r.limiter.burst.toNat
      else len : Nat) : Int) ≤ min r.limiter.burst len := by
    split <;> omega
  rw [read, if_neg hpositive]
  generalize r.r.read world
    (if r.limiter.burst < len then r.limiter.burst.toNat else len) = got at hle
  cases herr : got.err with
  | some err => exact ⟨got, by simp [herr], by omega⟩
  | none => exact ⟨_, by simp only [herr]; rfl, by dsimp only; omega⟩

/-- With a positive burst the writer passes on exactly its input, and the reader
reads no more than the burst. -/
theorem forwards_and_reads (limiter : Limiter W E) (hburst : 1 ≤ limiter.burst) :
    (∀ (w : GoStream.Writer W B E) (world : W) (p : List B), ∃ run,
      (∀ fuel, p.length < fuel →
        Writer.write ⟨w, limiter⟩ fuel world p = some run) ∧
      run.Forwarded limiter.burst p) ∧
    (∀ (r : GoStream.Reader W B E) (world : W) (len : Nat), ∃ got,
      Reader.read ⟨r, limiter⟩ world len = some got ∧
      (got.data.length : Int) ≤ min limiter.burst len) :=
  ⟨fun w world p => Writer.write_forwards ⟨w, limiter⟩ hburst world p,
    fun r world len => Reader.read_spec ⟨r, limiter⟩ hburst world len⟩

/-- A writer that keeps all that is written to it. -/
def keepAll : GoStream.Writer (List UInt8) UInt8 Unit where
  write kept p := ⟨kept ++ p, p.length, none⟩
  le _ _ := Nat.le_refl _
  short _ _ _ := rfl

def twoAtATime : Limiter (List UInt8) Unit where
  burst := 2
  waitN kept _ := (kept, none)

def zeros : GoStream.Reader (List UInt8) UInt8 Unit where
  read kept len := ⟨kept, List.replicate len 0, none⟩
  le _ _ := Nat.le_of_eq List.length_replicate

theorem forwards_and_reads_twoAtATime :
    (∃ run, Writer.write ⟨keepAll, twoAtATime⟩ 6 [] [1, 2, 3, 4, 5] =
        some run ∧ run.Forwarded 2 [1, 2, 3, 4, 5] ∧
        run.waits = [2, 2, 1] ∧ run.world = [1, 2, 3, 4, 5]) ∧
      ∃ got, Reader.read ⟨zeros, twoAtATime⟩ [] 5 = some got ∧
        (got.data.length : Int) ≤ min 2 5 := by
  obtain ⟨hwrites, hreads⟩ := forwards_and_reads (B := UInt8) twoAtATime
    (by decide)
  constructor
  · obtain ⟨run, hrun, hforwarded⟩ := hwrites keepAll [] [1, 2, 3, 4, 5]
    have hsix := hrun 6 (by decide)
    obtain rfl := Option.some.inj hsix
    exact ⟨_, hsix, hforwarded, rfl, rfl⟩
  · exact hreads zeros [] 5

/-- The burst of the limiter that `NewProxy` makes, if it makes one. -/
def newProxyBurst (width : Width) (bandwidthLimit : BandwidthQuantity) :
    Option Int :=
  if 0 < bandwidthLimit.bytes then some (width.wrap bandwidthLimit.bytes)
  else none

/-- Where an int has 64 bits the burst of a proxy is positive. -/
theorem newProxyBurst_pos {bandwidthLimit : BandwidthQuantity} {b : Int}
    (hbytes : Width.bits64.Holds bandwidthLimit.bytes)
    (hburst : newProxyBurst .bits64 bandwidthLimit = some b) : 1 ≤ b := by
  rw [newProxyBurst, Option.ite_none_right_eq_some, Option.some.injEq,
    Width.wrap_of_holds hbytes] at hburst
  omega

-- `4096MB` where an int has 32 bits: `Write` then never returns
example : newProxyBurst .bits32 ⟨ascii "4096MB", 4096 * 1024 * 1024⟩ = some 0 :=
  by decide

end Limit

end Frp
