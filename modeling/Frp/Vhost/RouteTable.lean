/-
The route table over whole histories of `Add` and `Del` with any arguments: it is
a map keyed by domain, location and HTTP user, and `Get` finds the longest
location of a host and user that is a prefix of the path.
-/
import Frp.Lib.System
import Frp.Vhost.Lookup

namespace Frp

open GoStrings Transition

variable {P : Type}

/-- The triple that a route is stored under. -/
def Router.key (vr : Router P) : RouteKey :=
  ⟨vr.domain, vr.location, vr.httpUser⟩

namespace Routers

/-- `Add` with the table it leaves: it returns before it writes anything when the
triple is taken. -/
def addTo (r : Routers P) (domain location httpUser : Bytes) (payload : P) :
    Routers P × Option RouterError :=
  match r.add domain location httpUser payload with
  | .error err => (r, some err)
  | .ok next => (next, none)

/-- The route is in the list of its own domain and user. -/
def Present (r : Routers P) (vr : Router P) : Prop :=
  vr ∈ r.entries vr.domain vr.httpUser

/-- A route of the host and user with the longest location that is a prefix of
the path. -/
structure Longest (r : Routers P) (host path httpUser : Bytes)
    (vr : Router P) : Prop where
  present : r.Present vr
  domain : vr.domain = host
  user : vr.httpUser = httpUser
  covers : vr.location <+: path
  longest : ∀ other, r.Present other → other.domain = host →
    other.httpUser = httpUser → other.location <+: path →
    other.location.length ≤ vr.location.length

/-- What a table of routes is for. -/
structure KeyedMap (r : Routers P) : Prop where
  refuses : ∀ domain location httpUser payload,
    (∃ err, (r.addTo domain location httpUser payload).2 = some err) ↔
      ∃ vr, r.Present vr ∧ vr.key = ⟨domain, location, httpUser⟩
  refused : ∀ domain location httpUser payload err,
    (r.addTo domain location httpUser payload).2 = some err →
      (r.addTo domain location httpUser payload).1 = r
  adds : ∀ domain location httpUser payload,
    (r.addTo domain location httpUser payload).2 = none →
      ∀ vr, (r.addTo domain location httpUser payload).1.Present vr ↔
        r.Present vr ∨ vr = ⟨domain, location, httpUser, payload⟩
  deletes : ∀ domain location httpUser vr,
    (r.del domain location httpUser).Present vr ↔
      r.Present vr ∧ vr.key ≠ ⟨domain, location, httpUser⟩
  unique : ∀ vr other, r.Present vr → r.Present other →
    vr.key = other.key → vr = other
  once : ∀ domain httpUser, (r.entries domain httpUser).Nodup
  finds : ∀ host path httpUser,
    (∃ vr, r.get host path httpUser = some vr) ↔
      ∃ vr, r.Present vr ∧ vr.domain = host ∧ vr.httpUser = httpUser ∧
        vr.location <+: path
  found : ∀ host path httpUser vr,
    r.get host path httpUser = some vr ↔ r.Longest host path httpUser vr

/-- Every route is listed under its own domain and user. -/
def Filed (r : Routers P) : Prop :=
  ∀ domain httpUser, ∀ vr ∈ r.entries domain httpUser,
    vr.domain = domain ∧ vr.httpUser = httpUser

/-- How the lists are kept. -/
structure Kept (r : Routers P) : Prop where
  filed : r.Filed
  distinct : r.Distinct
  sorted : r.Sorted

theorem kept_newRouters : (newRouters P).Kept where
  filed := by simp [Filed]
  distinct := by simp [Distinct]
  sorted := sorted_newRouters

variable {r next : Routers P} {domain location httpUser : Bytes} {payload : P}

theorem Filed.add (hfiled : r.Filed)
    (hadd : r.add domain location httpUser payload = .ok next) :
    next.Filed := by
  intro domain' httpUser' vr hvr
  rw [entries_add hadd] at hvr
  split at hvr
  · next hsame =>
      obtain ⟨rfl, rfl⟩ := hsame
      simp only [List.mem_insertionSort, List.mem_append,
        List.mem_singleton] at hvr
      rcases hvr with hold | rfl
      · exact hfiled _ _ vr hold
      · exact ⟨rfl, rfl⟩
  · exact hfiled domain' httpUser' vr hvr

theorem Filed.del (hfiled : r.Filed) (domain location httpUser : Bytes) :
    (r.del domain location httpUser).Filed := by
  intro domain' httpUser' vr hvr
  rw [entries_del] at hvr
  split at hvr
  · next hsame =>
      obtain ⟨rfl, rfl⟩ := hsame
      exact hfiled _ _ vr (List.mem_of_mem_filter hvr)
  · exact hfiled domain' httpUser' vr hvr

theorem Kept.addTo (hkept : r.Kept) (domain location httpUser : Bytes)
    (payload : P) : (r.addTo domain location httpUser payload).1.Kept := by
  unfold Routers.addTo
  split
  · exact hkept
  · next next hadd =>
      exact ⟨hkept.filed.add hadd, hkept.distinct.add hadd,
        hkept.sorted.add hadd⟩

theorem Kept.del (hkept : r.Kept) (domain location httpUser : Bytes) :
    (r.del domain location httpUser).Kept :=
  ⟨hkept.filed.del domain location httpUser,
    hkept.distinct.del domain location httpUser,
    hkept.sorted.del domain location httpUser⟩

/-- The list of a host and user holds their routes. -/
theorem Kept.mem_entries_iff (hkept : r.Kept) {vr : Router P} :
    vr ∈ r.entries domain httpUser ↔
      r.Present vr ∧ vr.domain = domain ∧ vr.httpUser = httpUser := by
  constructor
  · intro hvr
    obtain ⟨hdomain, huser⟩ := hkept.filed domain httpUser vr hvr
    refine ⟨?_, hdomain, huser⟩
    rw [Present, hdomain, huser]
    exact hvr
  · rintro ⟨hpresent, rfl, rfl⟩
    exact hpresent

theorem addTo_isSome_iff :
    (∃ err, (r.addTo domain location httpUser payload).2 = some err) ↔
      ∃ vr ∈ r.entries domain httpUser, vr.location = location := by
  have hfree := add_isOk_iff r domain location httpUser payload
  unfold addTo
  split
  · next err hadd =>
      refine iff_of_true ⟨err, rfl⟩ ?_
      by_contra hnone
      obtain ⟨next, hnext⟩ :=
        hfree.mpr fun vr hvr hlocation => hnone ⟨vr, hvr, hlocation⟩
      rw [hadd] at hnext
      cases hnext
  · next next hadd =>
      have hnone := hfree.mp ⟨next, hadd⟩
      simpa using hnone

theorem add_of_addTo
    (hnone : (r.addTo domain location httpUser payload).2 = none) :
    r.add domain location httpUser payload =
      .ok (r.addTo domain location httpUser payload).1 := by
  unfold addTo at hnone ⊢
  split at hnone
  · cases hnone
  · next next hadd => rw [hadd]

theorem Kept.present_add (hkept : r.Kept)
    (hadd : r.add domain location httpUser payload = .ok next)
    (vr : Router P) :
    next.Present vr ↔
      r.Present vr ∨ vr = ⟨domain, location, httpUser, payload⟩ := by
  rw [Present, entries_add hadd]
  split
  · next hsame =>
      rw [List.mem_insertionSort, List.mem_append, List.mem_singleton,
        hkept.mem_entries_iff]
      constructor
      · rintro (⟨hpresent, _⟩ | rfl)
        · exact Or.inl hpresent
        · exact Or.inr rfl
      · rintro (hpresent | rfl)
        · exact Or.inl ⟨hpresent, hsame⟩
        · exact Or.inr rfl
  · next hother =>
      constructor
      · exact Or.inl
      · rintro (hpresent | rfl)
        · exact hpresent
        · exact absurd ⟨rfl, rfl⟩ hother

theorem present_del (vr : Router P) :
    (r.del domain location httpUser).Present vr ↔
      r.Present vr ∧ vr.key ≠ ⟨domain, location, httpUser⟩ := by
  rw [Present, entries_del]
  split
  · next hsame =>
      obtain ⟨hdomain, huser⟩ := hsame
      have hkey : (vr.key ≠ ⟨domain, location, httpUser⟩) ↔
          (vr.location != location) = true := by
        simp [Router.key, hdomain, huser]
      rw [List.mem_filter, hkey, ← hdomain, ← huser]
      rfl
  · next hother =>
      refine (and_iff_left ?_).symm
      intro hkey
      simp only [Router.key, RouteKey.mk.injEq] at hkey
      exact hother ⟨hkey.1, hkey.2.2⟩

theorem Kept.unique (hkept : r.Kept) {vr other : Router P}
    (hvr : r.Present vr) (hother : r.Present other)
    (hkey : vr.key = other.key) : vr = other := by
  simp only [Router.key, RouteKey.mk.injEq] at hkey
  obtain ⟨hdomain, hlocation, huser⟩ := hkey
  rw [Present, ← hdomain, ← huser] at hother
  exact List.inj_on_of_nodup_map (hkept.distinct _ _) hvr hother hlocation

theorem Kept.longest_of_get (hkept : r.Kept) {host path : Bytes}
    {vr : Router P} (hget : r.get host path httpUser = some vr) :
    r.Longest host path httpUser vr := by
  obtain ⟨hpresent, hdomain, huser⟩ :=
    hkept.mem_entries_iff.mp (mem_entries_of_get hget)
  refine ⟨hpresent, hdomain, huser, (holds_of_get hget).2, ?_⟩
  intro other hother hdomain' huser' hcovers
  exact Routers.longest_of_get hkept.sorted hget
    (hkept.mem_entries_iff.mpr ⟨hother, hdomain', huser'⟩) hcovers

theorem Kept.get_isSome_iff (hkept : r.Kept) {host path : Bytes} :
    (∃ vr, r.get host path httpUser = some vr) ↔
      ∃ vr, r.Present vr ∧ vr.domain = host ∧ vr.httpUser = httpUser ∧
        vr.location <+: path := by
  constructor
  · rintro ⟨vr, hget⟩
    have hlongest := hkept.longest_of_get hget
    exact ⟨vr, hlongest.present, hlongest.domain, hlongest.user,
      hlongest.covers⟩
  · rintro ⟨vr, hpresent, hdomain, huser, hcovers⟩
    cases hget : r.get host path httpUser with
    | some found => exact ⟨found, rfl⟩
    | none =>
        have hmem := hkept.mem_entries_iff.mpr ⟨hpresent, hdomain, huser⟩
        exact absurd ⟨vr, hmem, rfl⟩
          (get_eq_none_iff.mp hget vr.location hcovers)

/-- Two prefixes of a path that are both the longest are the same location. -/
theorem Kept.get_eq_some_iff (hkept : r.Kept) {host path : Bytes}
    {vr : Router P} :
    r.get host path httpUser = some vr ↔ r.Longest host path httpUser vr := by
  constructor
  · exact hkept.longest_of_get
  · intro hlongest
    obtain ⟨found, hget⟩ := hkept.get_isSome_iff.mpr
      ⟨vr, hlongest.present, hlongest.domain, hlongest.user, hlongest.covers⟩
    have hfound := hkept.longest_of_get hget
    have hle := hlongest.longest found hfound.present hfound.domain
      hfound.user hfound.covers
    have hge := hfound.longest vr hlongest.present hlongest.domain
      hlongest.user hlongest.covers
    have hlocation : found.location = vr.location :=
      (List.prefix_of_prefix_length_le hfound.covers hlongest.covers
        hle).eq_of_length_le hge
    have hkey : found.key = vr.key := by
      rw [Router.key, Router.key, hfound.domain, hfound.user, hlocation,
        hlongest.domain, hlongest.user]
    rw [hget, hkept.unique hfound.present hlongest.present hkey]

theorem Kept.keyedMap (hkept : r.Kept) : r.KeyedMap where
  refuses domain location httpUser payload := by
    rw [addTo_isSome_iff]
    constructor
    · rintro ⟨vr, hvr, rfl⟩
      obtain ⟨hpresent, rfl, rfl⟩ := hkept.mem_entries_iff.mp hvr
      exact ⟨vr, hpresent, rfl⟩
    · rintro ⟨vr, hpresent, hkey⟩
      simp only [Router.key, RouteKey.mk.injEq] at hkey
      obtain ⟨rfl, rfl, rfl⟩ := hkey
      exact ⟨vr, hpresent, rfl⟩
  refused domain location httpUser payload err herr := by
    unfold Routers.addTo at herr ⊢
    split at herr
    · rfl
    · cases herr
  adds domain location httpUser payload hnone :=
    hkept.present_add (add_of_addTo hnone)
  deletes _ _ _ := present_del
  unique _ _ := hkept.unique
  once domain httpUser := (hkept.distinct domain httpUser).of_map
  finds _ _ _ := hkept.get_isSome_iff
  found _ _ _ _ := hkept.get_eq_some_iff

end Routers

namespace RouteTable

inductive Action (P : Type) where
  | add (domain location httpUser : Bytes) (payload : P)
  | del (domain location httpUser : Bytes)

def step (r : Routers P) : Action P → Option (Routers P)
  | .add domain location httpUser payload =>
      some (r.addTo domain location httpUser payload).1
  | .del domain location httpUser => some (r.del domain location httpUser)

def system (P : Type) : System (Routers P) (Action P) where
  start := Routers.newRouters P
  step := step

/-- After every history the route table is a keyed map with a lookup of the
longest prefix. -/
theorem keyedMap_of_reaches {word : List (Action P)} {r : Routers P}
    (hreaches : (system P).Reaches word r) : r.KeyedMap := by
  have hkept : r.Kept := by
    refine System.Reaches.invariant Routers.kept_newRouters ?_ hreaches
    intro r action next hkept hstep
    cases action with
    | add domain location httpUser payload =>
        cases hstep
        exact hkept.addTo domain location httpUser payload
    | del domain location httpUser =>
        cases hstep
        exact hkept.del domain location httpUser
  exact hkept.keyedMap

/-- Three locations of one host, one of them refused, one of them deleted. -/
def locations : List (Action Nat) :=
  [.add (ascii "a.com") (ascii "/") [] 1,
    .add (ascii "a.com") (ascii "/foo") [] 2,
    .add (ascii "a.com") (ascii "/") [] 3,
    .add (ascii "a.com") (ascii "/foo/bar") [] 4,
    .del (ascii "a.com") (ascii "/foo") []]

theorem keyedMap_locations :
    ∃ r, (system Nat).Reaches locations r ∧
      (r.get (ascii "a.com") (ascii "/foo/x") []).map Router.payload =
        some 1 ∧ r.KeyedMap := by
  obtain ⟨r, hreaches, hget⟩ :
      ∃ r, (system Nat).Reaches locations r ∧
        (r.get (ascii "a.com") (ascii "/foo/x") []).map Router.payload =
          some 1 :=
    System.exists_reaches_of_exec (by decide)
  exact ⟨r, hreaches, hget, keyedMap_of_reaches hreaches⟩

end RouteTable

end Frp
