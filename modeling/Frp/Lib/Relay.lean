/-
Byte streams that pass through a chain of relays.  Both ends of a link may wrap
the stream; a relay reads what has come through one link and writes it to the
next.  Bytes arrive and are copied in any order and in pieces of any size.
-/
import Frp.Lib.System
import Mathlib.Data.List.Basic

namespace Relay

open Transition

universe u

variable {B : Type u}

/-- One end of a connection: the writes that it makes below for the writes that
are made to it, and what it hands out for the bytes that have arrived. -/
structure End (B : Type u) where
  write : List (List B) → List (List B)
  read : List B → List B

namespace End

def raw : End B := ⟨id, id⟩

/-- A wrapper around an end that is already there. -/
def atop (outer inner : End B) : End B where
  write chunks := inner.write (outer.write chunks)
  read bytes := outer.read (inner.read bytes)

/-- What is written to `near` comes out of `far`: nothing that has been written
below is taken back, nothing that has been handed out either, and when all has
arrived all is handed out. -/
structure Carries (near far : End B) : Prop where
  keeps : ∀ chunks more, near.write chunks <+: near.write (chunks ++ more)
  grows : ∀ {bytes more : List B}, bytes <+: more → far.read bytes <+: far.read more
  inverts : ∀ chunks, far.read (near.write chunks).flatten = chunks.flatten

namespace Carries

variable {near far outer outer' : End B}

theorem raw : Carries (End.raw : End B) End.raw where
  keeps chunks more := List.prefix_append chunks more
  grows hpre := hpre
  inverts _ := rfl

theorem write_isPrefix (hcarries : Carries near far) {chunks more : List (List B)}
    (hpre : chunks <+: more) : near.write chunks <+: near.write more := by
  obtain ⟨rest, rfl⟩ := hpre
  exact hcarries.keeps chunks rest

/-- Ends that carry may be wrapped in wrappers that carry. -/
theorem atop (houter : Carries outer outer') (hinner : Carries near far) :
    Carries (outer.atop near) (outer'.atop far) where
  keeps chunks more := hinner.write_isPrefix (houter.keeps chunks more)
  grows hpre := houter.grows (hinner.grows hpre)
  inverts chunks := by
    change outer'.read (far.read (near.write (outer.write chunks)).flatten) = _
    rw [hinner.inverts, houter.inverts]

/-- What a part of the bytes on the wire yields is a part of what was written. -/
theorem read_isPrefix (hcarries : Carries near far) {chunks : List (List B)}
    {bytes : List B} (hpre : bytes <+: (near.write chunks).flatten) :
    far.read bytes <+: chunks.flatten := by
  rw [← hcarries.inverts chunks]
  exact hcarries.grows hpre

end Carries

end End

/-- A link and what is written to it before anything is copied. -/
structure Link (B : Type u) where
  near : End B
  far : End B
  greeting : List (List B)

namespace Link

def raw : Link B := ⟨.raw, .raw, []⟩

/-- The link in the other direction, without a greeting. -/
def back (link : Link B) : Link B := ⟨link.far, link.near, []⟩

def Carries (link : Link B) : Prop := link.near.Carries link.far

theorem carries_raw : (raw : Link B).Carries := End.Carries.raw

end Link

/-- A link in use: the writes to it, how many bytes of them have arrived, and how
many of those handed out have been copied on. -/
structure Pipe (B : Type u) where
  written : List (List B)
  arrived : Nat
  copied : Nat

namespace Pipe

def start (link : Link B) : Pipe B := ⟨link.greeting, 0, 0⟩

def wire (link : Link B) (pipe : Pipe B) : List B :=
  (link.near.write pipe.written).flatten

def handed (link : Link B) (pipe : Pipe B) : List B :=
  link.far.read ((pipe.wire link).take pipe.arrived)

def append (pipe : Pipe B) (chunk : List B) : Pipe B :=
  { pipe with written := pipe.written ++ [chunk] }

def Arrived (link : Link B) (pipe : Pipe B) : Prop :=
  pipe.arrived = (pipe.wire link).length

/-- Everything that was written has arrived, and all of it has been copied. -/
structure Drained (link : Link B) (pipe : Pipe B) : Prop where
  arrived : pipe.Arrived link
  copied : pipe.copied = (pipe.handed link).length

/-- The counters stay within what there is. -/
structure Inv (link : Link B) (pipe : Pipe B) : Prop where
  arrived : pipe.arrived ≤ (pipe.wire link).length
  copied : pipe.copied ≤ (pipe.handed link).length

variable {link : Link B} {pipe : Pipe B}

theorem inv_start (link : Link B) : (start link).Inv link :=
  ⟨Nat.zero_le _, Nat.zero_le _⟩

theorem wire_append (hcarries : link.Carries) (pipe : Pipe B) (chunk : List B) :
    ∃ rest, (pipe.append chunk).wire link = pipe.wire link ++ rest := by
  obtain ⟨rest, hrest⟩ := hcarries.keeps pipe.written [chunk]
  refine ⟨rest.flatten, ?_⟩
  rw [wire, wire, append, ← hrest, List.flatten_append]

/-- More on the wire changes nothing of what has arrived. -/
theorem handed_append (hcarries : link.Carries) (hinv : pipe.Inv link)
    (chunk : List B) : (pipe.append chunk).handed link = pipe.handed link := by
  obtain ⟨rest, hwire⟩ := wire_append hcarries pipe chunk
  rw [handed, handed, hwire]
  change link.far.read ((pipe.wire link ++ rest).take pipe.arrived) = _
  rw [List.take_append_of_le_length hinv.arrived]

theorem Inv.append (hcarries : link.Carries) (hinv : pipe.Inv link)
    (chunk : List B) : (pipe.append chunk).Inv link where
  arrived := by
    obtain ⟨rest, hwire⟩ := wire_append hcarries pipe chunk
    rw [hwire, List.length_append]
    exact Nat.le_trans hinv.arrived (Nat.le_add_right _ _)
  copied := by
    rw [handed_append hcarries hinv]
    exact hinv.copied

/-- As more bytes arrive, more is handed out and what was stays. -/
theorem handed_arrive (hcarries : link.Carries) (pipe : Pipe B) (n : Nat) :
    pipe.handed link <+: ({ pipe with arrived := pipe.arrived + n }).handed link :=
  hcarries.grows (List.take_prefix_take_left (Nat.le_add_right _ _))

theorem handed_isPrefix (hcarries : link.Carries) (pipe : Pipe B) :
    pipe.handed link <+: pipe.written.flatten := by
  have htake := List.take_prefix pipe.arrived (pipe.wire link)
  exact hcarries.read_isPrefix htake

theorem Arrived.handed (hcarries : link.Carries) (harrived : pipe.Arrived link) :
    pipe.handed link = pipe.written.flatten := by
  rw [Pipe.handed, harrived, List.take_length]
  exact hcarries.inverts pipe.written

end Pipe

/-- A chain of at least one link; link `i + 1` follows link `i`. -/
structure Chain (B : Type u) where
  link : Nat → Link B
  last : Nat

structure State (B : Type u) where
  sent : List B
  pipe : Nat → Pipe B

/-- The source sends, bytes of a link arrive, and a relay copies what a link has
handed out to the next link. -/
inductive Action (B : Type u) where
  | send (chunk : List B)
  | arrive (i n : Nat)
  | copy (i n : Nat)

/-- Not an action of the source. -/
def Action.Internal : Action B → Prop
  | .send _ => False
  | .arrive _ _ | .copy _ _ => True

theorem Action.internal_arrive (i n : Nat) :
    (Action.arrive i n : Action B).Internal := trivial

theorem Action.internal_copy (i n : Nat) :
    (Action.copy i n : Action B).Internal := trivial

namespace State

def setPipe (s : State B) (i : Nat) (pipe : Pipe B) : State B :=
  { s with pipe := Function.update s.pipe i pipe }

/-- The relay after link `i` copies `chunk`, the next `n` bytes. -/
def copyOn (s : State B) (i n : Nat) (chunk : List B) : State B :=
  (s.setPipe i { s.pipe i with copied := (s.pipe i).copied + n }).setPipe
    (i + 1) ((s.pipe (i + 1)).append chunk)

@[simp] theorem setPipe_sent (s : State B) (i : Nat) (pipe : Pipe B) :
    (s.setPipe i pipe).sent = s.sent := rfl

@[simp] theorem setPipe_pipe_same (s : State B) (i : Nat) (pipe : Pipe B) :
    (s.setPipe i pipe).pipe i = pipe := by
  simp [setPipe]

theorem setPipe_pipe_ne (s : State B) {i j : Nat} (pipe : Pipe B) (hne : j ≠ i) :
    (s.setPipe i pipe).pipe j = s.pipe j := by
  simp [setPipe, hne]

@[simp] theorem copyOn_sent (s : State B) (i n : Nat) (chunk : List B) :
    (s.copyOn i n chunk).sent = s.sent := rfl

@[simp] theorem copyOn_pipe_next (s : State B) (i n : Nat) (chunk : List B) :
    (s.copyOn i n chunk).pipe (i + 1) = (s.pipe (i + 1)).append chunk :=
  setPipe_pipe_same _ _ _

@[simp] theorem copyOn_pipe_same (s : State B) (i n : Nat) (chunk : List B) :
    (s.copyOn i n chunk).pipe i =
      { s.pipe i with copied := (s.pipe i).copied + n } := by
  rw [copyOn, setPipe_pipe_ne _ _ (Nat.ne_of_lt (Nat.lt_succ_self i)),
    setPipe_pipe_same]

theorem copyOn_pipe_ne (s : State B) {i j : Nat} (n : Nat) (chunk : List B)
    (hne : j ≠ i) (hnext : j ≠ i + 1) :
    (s.copyOn i n chunk).pipe j = s.pipe j := by
  rw [copyOn, setPipe_pipe_ne _ _ hnext, setPipe_pipe_ne s _ hne]

theorem copyOn_written_ne (s : State B) {i j : Nat} (n : Nat) (chunk : List B)
    (hnext : j ≠ i + 1) :
    ((s.copyOn i n chunk).pipe j).written = (s.pipe j).written := by
  by_cases hj : j = i
  · rw [hj, copyOn_pipe_same]
  · rw [copyOn_pipe_ne s n chunk hj hnext]

end State

namespace Chain

def start (chain : Chain B) : State B := ⟨[], fun i => .start (chain.link i)⟩

def step (chain : Chain B) (s : State B) : Action B → Option (State B)
  | .send chunk => some
      { s.setPipe 0 ((s.pipe 0).append chunk) with sent := s.sent ++ chunk }
  | .arrive i n =>
      let pipe := s.pipe i
      if pipe.arrived + n ≤ (pipe.wire (chain.link i)).length then
        some (s.setPipe i { pipe with arrived := pipe.arrived + n })
      else none
  | .copy i n =>
      let pipe := s.pipe i
      let handed := pipe.handed (chain.link i)
      if i < chain.last ∧ pipe.copied + n ≤ handed.length then
        some (s.copyOn i n ((handed.drop pipe.copied).take n))
      else none

def system (chain : Chain B) : System (State B) (Action B) :=
  ⟨chain.start, chain.step⟩

theorem reaches_snoc {chain : Chain B} {word : List (Action B)} {s s' : State B}
    {action : Action B} (hrun : chain.system.Reaches word s)
    (hstep : chain.step s action = some s') :
    chain.system.Reaches (word ++ [action]) s' :=
  System.Run.snoc hrun trivial hstep

/-- What has come out at the end of the chain. -/
def delivered (chain : Chain B) (s : State B) : List B :=
  (s.pipe chain.last).handed (chain.link chain.last)

/-- What link `i` is given: its greeting, and what the link before it is given. -/
def given (chain : Chain B) (sent : List B) : Nat → List B
  | 0 => (chain.link 0).greeting.flatten ++ sent
  | i + 1 => (chain.link (i + 1)).greeting.flatten ++ chain.given sent i

def Carries (chain : Chain B) : Prop := ∀ i, (chain.link i).Carries

/-- The links of a list one after the other. -/
def ofList (links : List (Link B)) : Chain B where
  link i := links.getD i .raw
  last := links.length - 1

theorem carries_ofList {links : List (Link B)}
    (hlinks : ∀ link ∈ links, link.Carries) : (ofList links).Carries := by
  intro i
  change (links.getD i .raw).Carries
  rw [List.getD_eq_getElem?_getD]
  cases hget : links[i]? with
  | none => exact Link.carries_raw
  | some link => exact hlinks link (List.mem_of_getElem? hget)

/-- What stands before the bytes of the source at the end of the links: the
greeting of the last link comes first. -/
def greetings (links : List (Link B)) : List B :=
  links.reverse.flatMap fun link => link.greeting.flatten

theorem given_ofList (links : List (Link B)) (sent : List B) (i : Nat)
    (hi : i < links.length) :
    (ofList links).given sent i = greetings (links.take (i + 1)) ++ sent := by
  have hlink : ∀ j, (hj : j < links.length) →
      (ofList links).link j = links[j] := by
    intro j hj
    change links.getD j .raw = links[j]
    rw [List.getD_eq_getElem?_getD, List.getElem?_eq_getElem hj,
      Option.getD_some]
  have htake : ∀ j, (hj : j < links.length) →
      greetings (links.take (j + 1)) =
        links[j].greeting.flatten ++ greetings (links.take j) := by
    intro j hj
    rw [greetings, List.take_add_one, List.getElem?_eq_getElem hj,
      Option.toList_some, List.reverse_append]
    rfl
  induction i with
  | zero => rw [given, hlink 0 hi, htake 0 hi, List.append_assoc]; rfl
  | succ i ih =>
      rw [given, hlink (i + 1) hi, htake (i + 1) hi, List.append_assoc,
        ih (Nat.lt_of_succ_lt hi)]

theorem given_ofList_last {links : List (Link B)} (hlinks : links ≠ [])
    (sent : List B) :
    (ofList links).given sent (ofList links).last = greetings links ++ sent := by
  have hpos := List.length_pos_iff.mpr hlinks
  have hlast := given_ofList links sent _ (Nat.sub_lt hpos Nat.one_pos)
  rwa [Nat.sub_add_cancel hpos, List.take_length] at hlast

theorem greetings_append (links more : List (Link B)) :
    greetings (links ++ more) = greetings more ++ greetings links := by
  simp [greetings]

/-- Links without a greeting add nothing. -/
theorem greetings_eq_nil {links : List (Link B)}
    (hsilent : ∀ link ∈ links, link.greeting = []) : greetings links = [] := by
  rw [greetings, List.flatMap_eq_nil_iff]
  intro link hlink
  rw [hsilent link (List.mem_reverse.mp hlink), List.flatten_nil]

/-- A link is given the greeting and what the source sent, or what the relay
before it has copied. -/
structure Inv (chain : Chain B) (s : State B) : Prop where
  pipes : ∀ i, (s.pipe i).Inv (chain.link i)
  first : (s.pipe 0).written.flatten = chain.given s.sent 0
  next : ∀ i < chain.last, (s.pipe (i + 1)).written.flatten =
    (chain.link (i + 1)).greeting.flatten ++
      ((s.pipe i).handed (chain.link i)).take (s.pipe i).copied

theorem inv_start (chain : Chain B) : chain.Inv chain.start where
  pipes i := Pipe.inv_start (chain.link i)
  first := by simp [start, Pipe.start, given]
  next i _ := by simp [start, Pipe.start]

section step

variable {chain : Chain B} {s : State B}

theorem Inv.send (hinv : chain.Inv s) (hcarries : chain.Carries)
    (chunk : List B) : chain.Inv
      { s.setPipe 0 ((s.pipe 0).append chunk) with sent := s.sent ++ chunk } where
  pipes i := by
    cases i with
    | zero =>
        simp only [State.setPipe_pipe_same]
        exact (hinv.pipes 0).append (hcarries 0) chunk
    | succ i =>
        simp only [State.setPipe_pipe_ne s _ (Nat.succ_ne_zero i)]
        exact hinv.pipes (i + 1)
  first := by
    simp only [State.setPipe_pipe_same, Pipe.append, List.flatten_append,
      List.flatten_singleton, hinv.first, given, List.append_assoc]
  next i hi := by
    simp only [State.setPipe_pipe_ne s _ (Nat.succ_ne_zero i)]
    rw [hinv.next i hi]
    cases i with
    | zero =>
        rw [State.setPipe_pipe_same,
          Pipe.handed_append (hcarries 0) (hinv.pipes 0)]
        rfl
    | succ i => rw [State.setPipe_pipe_ne s _ (Nat.succ_ne_zero i)]

theorem Inv.arrive (hinv : chain.Inv s) (hcarries : chain.Carries) {i n : Nat}
    (hn : (s.pipe i).arrived + n ≤ ((s.pipe i).wire (chain.link i)).length) :
    chain.Inv
      (s.setPipe i { s.pipe i with arrived := (s.pipe i).arrived + n }) := by
  have hgrows := Pipe.handed_arrive (hcarries i) (s.pipe i) n
  have hwritten : ∀ j, ((s.setPipe i { s.pipe i with
      arrived := (s.pipe i).arrived + n }).pipe j).written =
      (s.pipe j).written := by
    intro j
    by_cases hj : j = i
    · rw [hj, State.setPipe_pipe_same]
    · rw [State.setPipe_pipe_ne s _ hj]
  refine ⟨fun j => ?_, ?_, fun j hlast => ?_⟩
  · by_cases hj : j = i
    · rw [hj, State.setPipe_pipe_same]
      exact ⟨hn, Nat.le_trans (hinv.pipes i).copied hgrows.length_le⟩
    · rw [State.setPipe_pipe_ne s _ hj]
      exact hinv.pipes j
  · rw [hwritten, State.setPipe_sent]
    exact hinv.first
  · rw [hwritten, hinv.next j hlast]
    by_cases hj : j = i
    · rw [hj, State.setPipe_pipe_same]
      obtain ⟨rest, hrest⟩ := hgrows
      rw [← hrest, List.take_append_of_le_length (hinv.pipes i).copied]
    · rw [State.setPipe_pipe_ne s _ hj]

theorem Inv.copy (hinv : chain.Inv s) (hcarries : chain.Carries) {i n : Nat}
    (hn : (s.pipe i).copied + n ≤ ((s.pipe i).handed (chain.link i)).length) :
    chain.Inv (s.copyOn i n
      ((((s.pipe i).handed (chain.link i)).drop (s.pipe i).copied).take n)) := by
  generalize hchunk : (((s.pipe i).handed (chain.link i)).drop
    (s.pipe i).copied).take n = chunk
  refine ⟨fun j => ?_, ?_, fun j hlast => ?_⟩
  · by_cases hnext : j = i + 1
    · rw [hnext, State.copyOn_pipe_next]
      exact (hinv.pipes (i + 1)).append (hcarries (i + 1)) chunk
    · by_cases hj : j = i
      · rw [hj, State.copyOn_pipe_same]
        exact ⟨(hinv.pipes i).arrived, hn⟩
      · rw [State.copyOn_pipe_ne s n chunk hj hnext]
        exact hinv.pipes j
  · rw [State.copyOn_written_ne s n chunk (Nat.succ_ne_zero i).symm]
    exact hinv.first
  · by_cases hj : j = i
    · subst hj
      rw [State.copyOn_pipe_next, State.copyOn_pipe_same, Pipe.append,
        List.flatten_append, hinv.next j hlast, List.append_assoc,
        List.flatten_singleton, ← hchunk, ← List.take_add]
      rfl
    · rw [State.copyOn_written_ne s n chunk
        (fun heq => hj (Nat.succ.inj heq)), hinv.next j hlast]
      by_cases hnext : j = i + 1
      · rw [hnext, State.copyOn_pipe_next,
          Pipe.handed_append (hcarries (i + 1)) (hinv.pipes (i + 1))]
        rfl
      · rw [State.copyOn_pipe_ne s n chunk hj hnext]

theorem step_arrive {i n : Nat} (hn : (s.pipe i).arrived + n ≤
    ((s.pipe i).wire (chain.link i)).length) : chain.step s (.arrive i n) =
      some (s.setPipe i { s.pipe i with arrived := (s.pipe i).arrived + n }) :=
  if_pos hn

theorem step_copy {i n : Nat} (hi : i < chain.last) (hn : (s.pipe i).copied + n ≤
    ((s.pipe i).handed (chain.link i)).length) : chain.step s (.copy i n) =
      some (s.copyOn i n ((((s.pipe i).handed (chain.link i)).drop
        (s.pipe i).copied).take n)) :=
  if_pos ⟨hi, hn⟩

theorem Inv.step {s' : State B} {action : Action B} (hinv : chain.Inv s)
    (hcarries : chain.Carries) (hstep : chain.step s action = some s') :
    chain.Inv s' := by
  cases action with
  | send chunk =>
      obtain rfl := Option.some.inj hstep
      exact hinv.send hcarries chunk
  | arrive i n =>
      simp only [Chain.step, Option.ite_none_right_eq_some,
        Option.some.injEq] at hstep
      obtain ⟨hn, rfl⟩ := hstep
      exact hinv.arrive hcarries hn
  | copy i n =>
      simp only [Chain.step, Option.ite_none_right_eq_some,
        Option.some.injEq] at hstep
      obtain ⟨⟨_, hn⟩, rfl⟩ := hstep
      exact hinv.copy hcarries hn

/-- A link has been given a part of what it is to be given. -/
theorem Inv.written_isPrefix (hinv : chain.Inv s) (hcarries : chain.Carries) :
    ∀ i ≤ chain.last, (s.pipe i).written.flatten <+: chain.given s.sent i := by
  intro i
  induction i with
  | zero => exact fun _ => hinv.first ▸ List.prefix_rfl
  | succ i ih =>
      intro hi
      rw [hinv.next i hi, given, List.prefix_append_right_inj]
      have hhanded := Pipe.handed_isPrefix (hcarries i) (s.pipe i)
      have htake := List.take_prefix (s.pipe i).copied
        ((s.pipe i).handed (chain.link i))
      exact htake.trans (hhanded.trans (ih (Nat.le_of_succ_le hi)))

theorem Inv.written_eq (hinv : chain.Inv s) (hcarries : chain.Carries) :
    ∀ i ≤ chain.last, (∀ j < i, (s.pipe j).Drained (chain.link j)) →
      (s.pipe i).written.flatten = chain.given s.sent i := by
  intro i
  induction i with
  | zero => exact fun _ _ => hinv.first
  | succ i ih =>
      intro hi hdrained
      have hlink := hdrained i (Nat.lt_succ_self i)
      rw [hinv.next i hi, given, hlink.copied, List.take_length,
        hlink.arrived.handed (hcarries i), ih (Nat.le_of_succ_le hi)
          fun j hj => hdrained j (Nat.lt_succ_of_lt hj)]

theorem inv_of_reaches (hcarries : chain.Carries) {word : List (Action B)}
    (hrun : chain.system.Reaches word s) : chain.Inv s :=
  System.Reaches.invariant chain.inv_start
    (fun _ _ _ hinv hstep => hinv.step hcarries hstep) hrun

end step

/-- All the relays have copied what they were given, and the last of it has
arrived. -/
structure Drained (chain : Chain B) (s : State B) : Prop where
  relays : ∀ i < chain.last, (s.pipe i).Drained (chain.link i)
  sink : (s.pipe chain.last).Arrived (chain.link chain.last)

/-- The state is reached from `s` without an action of the source. -/
def Later (chain : Chain B) (word : List (Action B)) (s s' : State B) : Prop :=
  s'.sent = s.sent ∧ ∃ more, (∀ action ∈ more, action.Internal) ∧
    chain.system.Reaches (word ++ more) s'

section later

variable {chain : Chain B} {word : List (Action B)} {s t t' : State B}

theorem Later.refl (hrun : chain.system.Reaches word s) : chain.Later word s s :=
  ⟨rfl, [], by simp, by simpa using hrun⟩

theorem Later.snoc (hlater : chain.Later word s t) {action : Action B}
    (hinternal : action.Internal) (hstep : chain.step t action = some t')
    (hsent : t'.sent = t.sent) : chain.Later word s t' := by
  obtain ⟨hsame, more, hmore, hrun⟩ := hlater
  refine ⟨hsent.trans hsame, more ++ [action], ?_, ?_⟩
  · intro other hother
    rcases List.mem_append.mp hother with hin | hin
    · exact hmore other hin
    · rwa [List.mem_singleton.mp hin]
  · rw [← List.append_assoc]
    exact reaches_snoc hrun hstep

theorem Later.inv (hlater : chain.Later word s t) (hcarries : chain.Carries) :
    chain.Inv t := by
  obtain ⟨_, _, _, hrun⟩ := hlater
  exact inv_of_reaches hcarries hrun

/-- All that is on the wire of link `i` may arrive, while the rest of the chain
stays as it is. -/
theorem Later.arrive (hlater : chain.Later word s t) (hcarries : chain.Carries)
    (i : Nat) : ∃ t', chain.Later word s t' ∧
      (t'.pipe i).Arrived (chain.link i) ∧ ∀ j ≠ i, t'.pipe j = t.pipe j := by
  have hle := ((hlater.inv hcarries).pipes i).arrived
  have hfit := Nat.add_sub_cancel' hle
  refine ⟨_, hlater.snoc (Action.internal_arrive i _)
    (step_arrive (Nat.le_of_eq hfit)) rfl, ?_, fun j hj => ?_⟩
  · rw [State.setPipe_pipe_same]
    exact hfit
  · exact State.setPipe_pipe_ne t _ hj

/-- A relay may copy all that it has been handed, while the links before it stay
as they are. -/
theorem Later.copy (hlater : chain.Later word s t) (hcarries : chain.Carries)
    {i : Nat} (hi : i < chain.last) (harrived : (t.pipe i).Arrived (chain.link i)) :
    ∃ t', chain.Later word s t' ∧ (t'.pipe i).Drained (chain.link i) ∧
      ∀ j < i, t'.pipe j = t.pipe j := by
  have hle := ((hlater.inv hcarries).pipes i).copied
  have hfit := Nat.add_sub_cancel' hle
  refine ⟨_, hlater.snoc (Action.internal_copy i _)
    (step_copy hi (Nat.le_of_eq hfit)) rfl, ?_, fun j hj => ?_⟩
  · rw [State.copyOn_pipe_same]
    exact ⟨harrived, hfit⟩
  · exact State.copyOn_pipe_ne t _ _ (Nat.ne_of_lt hj)
      (Nat.ne_of_lt (Nat.lt_succ_of_lt hj))

/-- The links drain one after the other. -/
theorem Later.drain (hlater : chain.Later word s s) (hcarries : chain.Carries) :
    ∀ i ≤ chain.last, ∃ t, chain.Later word s t ∧
      ∀ j < i, (t.pipe j).Drained (chain.link j) := by
  intro i
  induction i with
  | zero => exact fun _ => ⟨s, hlater, fun j hj => absurd hj (Nat.not_lt_zero j)⟩
  | succ i ih =>
      intro hi
      obtain ⟨t, ht, hbefore⟩ := ih (Nat.le_of_succ_le hi)
      obtain ⟨t₁, ht₁, harrived, hsame₁⟩ := ht.arrive hcarries i
      obtain ⟨t₂, ht₂, hdrained, hsame₂⟩ := ht₁.copy hcarries hi harrived
      refine ⟨t₂, ht₂, fun j hj => ?_⟩
      rcases Nat.lt_succ_iff_lt_or_eq.mp hj with hlt | rfl
      · rw [hsame₂ j hlt, hsame₁ j (Nat.ne_of_lt hlt)]
        exact hbefore j hlt
      · exact hdrained

end later

/-- In every run what comes out is the beginning of what went in, it is all of it
once the chain has drained, and the chain can always drain. -/
structure Transparent (chain : Chain B) : Prop where
  faithful : ∀ word s, chain.system.Reaches word s →
    chain.delivered s <+: chain.given s.sent chain.last
  complete : ∀ word s, chain.system.Reaches word s → chain.Drained s →
    chain.delivered s = chain.given s.sent chain.last
  drains : ∀ word s, chain.system.Reaches word s →
    ∃ t, chain.Later word s t ∧ chain.Drained t

/-- A chain of links that carry is transparent. -/
theorem Carries.transparent {chain : Chain B} (hcarries : chain.Carries) :
    chain.Transparent where
  faithful word s hrun := by
    have hinv := inv_of_reaches hcarries hrun
    exact (Pipe.handed_isPrefix (hcarries _) _).trans
      (hinv.written_isPrefix hcarries _ (Nat.le_refl _))
  complete word s hrun hdrained := by
    have hinv := inv_of_reaches hcarries hrun
    rw [delivered, hdrained.sink.handed (hcarries _),
      hinv.written_eq hcarries _ (Nat.le_refl _) hdrained.relays]
  drains word s hrun := by
    obtain ⟨t, ht, hbefore⟩ :=
      (Later.refl hrun).drain hcarries chain.last (Nat.le_refl _)
    obtain ⟨t', ht', harrived, hsame⟩ := ht.arrive hcarries chain.last
    refine ⟨t', ht', fun i hi => ?_, harrived⟩
    rw [hsame i (Nat.ne_of_lt hi)]
    exact hbefore i hi

/-- The links of a list carry: in every run what comes out is the beginning of
the greetings and of what went in, and it can become all of it. -/
structure TransparentAfter (links : List (Link B)) (greeting : List B) : Prop
    extends (ofList links).Transparent where
  given : ∀ sent, (ofList links).given sent (ofList links).last = greeting ++ sent

/-- One link is transparent only if its far end reads back what its near end
writes. -/
theorem TransparentAfter.read_write {near far : End B}
    (htransparent : TransparentAfter [⟨near, far, []⟩] []) (chunk : List B) :
    far.read (near.write [chunk]).flatten = chunk := by
  let size := (near.write [chunk]).flatten.length
  let sent : State B := ⟨chunk, Function.update
    (ofList [⟨near, far, []⟩]).start.pipe 0 ⟨[chunk], 0, 0⟩⟩
  let arrived : State B := sent.setPipe 0 ⟨[chunk], size, 0⟩
  have hsend : (ofList [⟨near, far, []⟩]).system.Reaches [.send chunk] sent :=
    System.Run.snoc System.Run.nil trivial rfl
  have hpipe : sent.pipe 0 = ⟨[chunk], 0, 0⟩ := by simp [sent]
  have hstep : (ofList [⟨near, far, []⟩]).step sent (.arrive 0 size) =
      some arrived := by
    have hall : (sent.pipe 0).arrived + size ≤
        ((sent.pipe 0).wire ⟨near, far, []⟩).length := by
      rw [hpipe]
      exact Nat.le_of_eq (Nat.zero_add size)
    rw [show arrived = sent.setPipe 0 { sent.pipe 0 with
      arrived := (sent.pipe 0).arrived + size } by simp [arrived, hpipe]]
    exact step_arrive hall
  have hrun := reaches_snoc hsend hstep
  have hlast : arrived.pipe 0 = ⟨[chunk], size, 0⟩ := State.setPipe_pipe_same _ _ _
  have hdrained : (ofList [⟨near, far, []⟩]).Drained arrived :=
    ⟨fun i hi => absurd hi (Nat.not_lt_zero i), by
      change (arrived.pipe 0).Arrived ⟨near, far, []⟩
      rw [hlast]
      rfl⟩
  have hall := htransparent.complete _ _ hrun hdrained
  rw [htransparent.given] at hall
  change (arrived.pipe 0).handed ⟨near, far, []⟩ = chunk at hall
  rw [hlast] at hall
  change far.read ((near.write [chunk]).flatten.take
    (near.write [chunk]).flatten.length) = chunk at hall
  rwa [List.take_length] at hall

theorem transparentAfter {links : List (Link B)} (hlinks : links ≠ [])
    (hcarries : ∀ link ∈ links, link.Carries) :
    TransparentAfter links (greetings links) where
  toTransparent := (carries_ofList hcarries).transparent
  given := given_ofList_last hlinks

end Chain

end Relay
