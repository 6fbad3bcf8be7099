/-
Configurations by name, and the `Reload` that the proxy Manager of
`client/proxy/proxy_manager.go` and the VisitorManager of
`client/visitor_manager.go` share: entries that are gone or whose `Compare`
fails are deleted, then the names that are missing are added.
-/
import Mathlib.Data.List.Nodup
import Mathlib.Data.List.Basic

namespace Frp

universe u

/-- A map from names whose keys are distinct by construction. -/
structure ConfMap (C : Type u) where
  entries : List (String × C)
  nodup : (entries.map Prod.fst).Nodup
deriving DecidableEq

namespace ConfMap

variable {C : Type u}

def empty : ConfMap C :=
  ⟨[], List.nodup_nil⟩

def get (m : ConfMap C) (name : String) : Option C :=
  m.entries.lookup name

/-- An entry that `Reload` keeps: the new configuration has the name, and the
old one compares equal. -/
def Keeps (compare : C → C → Bool) (new : ConfMap C) (entry : String × C) :
    Bool :=
  (new.get entry.1).any (compare entry.2)

def kept (compare : C → C → Bool) (live new : ConfMap C) : List (String × C) :=
  live.entries.filter (Keeps compare new)

def added (compare : C → C → Bool) (live new : ConfMap C) :
    List (String × C) :=
  new.entries.filter fun entry =>
    entry.1 ∉ (kept compare live new).map Prod.fst

def reload (compare : C → C → Bool) (live new : ConfMap C) : ConfMap C where
  entries := kept compare live new ++ added compare live new
  nodup := by
    rw [List.map_append]
    apply List.Nodup.append
    · exact live.nodup.sublist (List.filter_sublist.map Prod.fst)
    · exact new.nodup.sublist (List.filter_sublist.map Prod.fst)
    · intro name hkept hadded
      obtain ⟨entry, hentry, rfl⟩ := List.mem_map.mp hadded
      have hfresh := (List.mem_filter.mp hentry).2
      exact of_decide_eq_true hfresh hkept

/-- The two maps have the same names, and under each the same configuration up
to `compare`. -/
def Agrees (compare : C → C → Bool) (live new : ConfMap C) : Prop :=
  (∀ entry ∈ live.entries, ∃ conf ∈ new.get entry.1,
    entry.2 = conf ∨ compare entry.2 conf = true) ∧
  (∀ entry ∈ new.entries, (live.get entry.1).isSome = true)

instance [DecidableEq C] (compare : C → C → Bool) (live new : ConfMap C) :
    Decidable (Agrees compare live new) :=
  inferInstanceAs (Decidable (_ ∧ _))

theorem get_of_mem {m : ConfMap C} {entry : String × C}
    (hentry : entry ∈ m.entries) : m.get entry.1 = some entry.2 := by
  obtain ⟨entries, hnodup⟩ := m
  change entry ∈ entries at hentry
  change entries.lookup entry.1 = some entry.2
  induction entries with
  | nil => cases hentry
  | cons head tail ih =>
      rw [List.map_cons, List.nodup_cons] at hnodup
      rcases List.mem_cons.mp hentry with rfl | htail
      · rw [List.lookup_cons, beq_self_eq_true]
      · have hne : entry.1 ≠ head.1 := by
          intro heq
          exact hnodup.1 (heq ▸ List.mem_map_of_mem htail)
        rw [List.lookup_cons, beq_false_of_ne hne]
        exact ih hnodup.2 htail

/-- The names of a map, in the order of its entries. -/
def names (m : ConfMap C) : List String := m.entries.map Prod.fst

/-- `delete` of the entry for a name. -/
def erase (m : ConfMap C) (name : String) : ConfMap C where
  entries := m.entries.filter fun entry => entry.1 ≠ name
  nodup := m.nodup.sublist (List.filter_sublist.map Prod.fst)

/-- The assignment of an entry. -/
def insert (m : ConfMap C) (name : String) (value : C) : ConfMap C where
  entries := (name, value) :: (m.erase name).entries
  nodup := by
    rw [List.map_cons, List.nodup_cons]
    refine ⟨?_, (m.erase name).nodup⟩
    intro hname
    obtain ⟨entry, hentry, heq⟩ := List.mem_map.mp hname
    exact of_decide_eq_true (List.mem_filter.mp hentry).2 heq

@[simp] theorem get_empty (name : String) : (empty : ConfMap C).get name = none :=
  rfl

theorem mem_of_lookup {entries : List (String × C)} {name : String} {value : C}
    (hlookup : entries.lookup name = some value) : (name, value) ∈ entries := by
  induction entries with
  | nil => cases hlookup
  | cons head tail ih =>
      rw [List.lookup_cons] at hlookup
      split at hlookup
      · next heq =>
          obtain rfl : name = head.1 := eq_of_beq heq
          cases hlookup
          exact List.mem_cons_self
      · exact List.mem_cons_of_mem _ (ih hlookup)

theorem mem_of_get {m : ConfMap C} {name : String} {value : C}
    (hget : m.get name = some value) : (name, value) ∈ m.entries :=
  mem_of_lookup hget

theorem get_eq_some_iff {m : ConfMap C} {name : String} {value : C} :
    m.get name = some value ↔ (name, value) ∈ m.entries :=
  ⟨mem_of_get, get_of_mem⟩

theorem mem_names {m : ConfMap C} {name : String} :
    name ∈ m.names ↔ (m.get name).isSome = true := by
  rw [names, List.mem_map, Option.isSome_iff_exists]
  constructor
  · rintro ⟨entry, hentry, rfl⟩
    exact ⟨entry.2, get_of_mem hentry⟩
  · rintro ⟨value, hget⟩
    exact ⟨_, mem_of_get hget, rfl⟩

theorem get_erase (m : ConfMap C) (name other : String) :
    (m.erase name).get other = if other = name then none else m.get other := by
  apply Option.ext
  intro value
  rw [get_eq_some_iff, erase, List.mem_filter]
  split
  · next heq => simp [heq]
  · next hne => simp [hne, get_eq_some_iff]

theorem get_insert (m : ConfMap C) (name other : String) (value : C) :
    (m.insert name value).get other =
      if other = name then some value else m.get other := by
  apply Option.ext
  intro found
  rw [get_eq_some_iff, insert, List.mem_cons, ← get_eq_some_iff, get_erase]
  split
  · next heq => simp [heq, eq_comm]
  · next hne => simp [hne]

/-- Whatever was there before, a reload leaves the new configuration. -/
theorem agrees_reload (compare : C → C → Bool) (live new : ConfMap C) :
    Agrees compare (reload compare live new) new := by
  constructor
  · intro entry hentry
    rcases List.mem_append.mp hentry with hkept | hadded
    · have hkeeps := (List.mem_filter.mp hkept).2
      obtain ⟨conf, hconf, hsame⟩ := (Option.any_eq_true _ _).mp hkeeps
      exact ⟨conf, hconf, Or.inr hsame⟩
    · have hnew := (List.mem_filter.mp hadded).1
      exact ⟨entry.2, get_of_mem hnew, Or.inl rfl⟩
  · intro entry hentry
    have hname : entry.1 ∈ (reload compare live new).entries.map Prod.fst := by
      rw [reload, List.map_append, List.mem_append]
      by_cases hkept : entry.1 ∈ (kept compare live new).map Prod.fst
      · exact Or.inl hkept
      · right
        apply List.mem_map_of_mem
        exact List.mem_filter.mpr ⟨hentry, decide_eq_true hkept⟩
    obtain ⟨found, hfound, hsame⟩ := List.mem_map.mp hname
    rw [← hsame, get_of_mem hfound]
    rfl

end ConfMap

end Frp
