/-
Go's byte streams: `io.Writer` and `io.Reader` over a world that their calls
change, each with the contract of its interface, and what it is to forward a slice
to a writer in chunks.
-/
import Mathlib.Algebra.Ring.Nat
import Mathlib.Data.List.Basic

namespace GoStream

universe u v w

variable {W : Type u} {B : Type v} {E : Type w}

/-- What `Write` returns; `n` bytes of the slice have been written. -/
structure Written (W : Type u) (E : Type w) where
  world : W
  n : Nat
  err : Option E

/-- `io.Writer`: fewer bytes than there are mean an error. -/
structure Writer (W : Type u) (B : Type v) (E : Type w) where
  write : W → List B → Written W E
  le : ∀ world p, (write world p).n ≤ p.length
  short : ∀ world p, (write world p).err = none →
    (write world p).n = p.length

/-- What `Read` returns: the first bytes of the slice, which now are `data`. -/
structure Got (W : Type u) (B : Type v) (E : Type w) where
  world : W
  data : List B
  err : Option E

/-- `io.Reader`, given the length of the slice. -/
structure Reader (W : Type u) (B : Type v) (E : Type w) where
  read : W → Nat → Got W B E
  le : ∀ world len, (read world len).data.length ≤ len

/-- A call of `Write`: the slice and the number of bytes that were written. -/
structure Sent (B : Type v) where
  chunk : List B
  n : Nat
deriving DecidableEq

def Sent.taken (s : Sent B) : List B := s.chunk.take s.n

/-- The slice `p` is passed on in consecutive chunks of at most `size` bytes until
an error; `n` counts the bytes that were taken, which are the first of `p`. -/
structure Forwards (size : Nat) (p : List B) (sent : List (Sent B)) (n : Nat)
    (err : Option E) : Prop where
  bounded : ∀ s ∈ sent, s.chunk ≠ [] ∧ s.chunk.length ≤ size
  consecutive : (sent.map Sent.chunk).flatten <+: p
  counted : n = (sent.map Sent.n).sum
  taken : sent.flatMap Sent.taken = p.take n
  whole : err = none → (sent.map Sent.chunk).flatten = p ∧ n = p.length

namespace Forwards

variable {size k n : Nat} {p : List B} {sent : List (Sent B)}

theorem empty (size : Nat) : Forwards (E := E) size ([] : List B) [] 0 none where
  bounded _ hmem := absurd hmem List.not_mem_nil
  consecutive := List.prefix_rfl
  counted := rfl
  taken := rfl
  whole _ := ⟨rfl, rfl⟩

/-- An error before anything is written. -/
theorem refused (size : Nat) (p : List B) (err : E) :
    Forwards size p [] 0 (some err) where
  bounded _ hmem := absurd hmem List.not_mem_nil
  consecutive := List.nil_prefix
  counted := rfl
  taken := by simp
  whole hnone := by cases hnone

theorem chunk_bounded (hsize : k ≤ size) (hpos : 0 < k) (hk : k ≤ p.length) :
    p.take k ≠ [] ∧ (p.take k).length ≤ size := by
  have hlength : (p.take k).length = k := List.length_take_of_le hk
  constructor
  · apply List.ne_nil_of_length_pos
    rwa [hlength]
  · rwa [hlength]

/-- An error of the writer, which may have taken a part of the chunk. -/
theorem cut (hsize : k ≤ size) (hpos : 0 < k) (hk : k ≤ p.length)
    (hn : n ≤ (p.take k).length) (err : E) :
    Forwards size p [⟨p.take k, n⟩] n (some err) where
  bounded s hmem := by
    obtain rfl := List.mem_singleton.mp hmem
    exact chunk_bounded hsize hpos hk
  consecutive := by simpa using List.take_prefix k p
  counted := by simp
  taken := by
    have hnk : n ≤ k := Nat.le_trans hn (List.length_take_le k p)
    simp [Sent.taken, List.take_take, Nat.min_eq_left hnk]
  whole hnone := by cases hnone

/-- A chunk that is taken whole, before the rest of the slice. -/
theorem next {err : Option E} (hsize : k ≤ size) (hpos : 0 < k)
    (hk : k ≤ p.length) (hrest : Forwards size (p.drop k) sent n err) :
    Forwards size p (⟨p.take k, k⟩ :: sent) (k + n) err where
  bounded s hmem := by
    rcases List.mem_cons.mp hmem with rfl | hin
    · exact chunk_bounded hsize hpos hk
    · exact hrest.bounded s hin
  consecutive := by
    have happend := (List.prefix_append_right_inj (p.take k)).mpr
      hrest.consecutive
    rw [List.take_append_drop] at happend
    simpa using happend
  counted := by
    rw [List.map_cons, List.sum_cons, ← hrest.counted]
  taken := by
    have hfirst : Sent.taken ⟨p.take k, k⟩ = p.take k := by
      simp [Sent.taken, List.take_take]
    rw [List.flatMap_cons, hfirst, hrest.taken, ← List.take_add]
  whole hnone := by
    obtain ⟨hchunks, hlength⟩ := hrest.whole hnone
    constructor
    · rw [List.map_cons, List.flatten_cons, hchunks, List.take_append_drop]
    · rw [hlength, List.length_drop]
      omega

end Forwards

end GoStream
