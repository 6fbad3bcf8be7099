/-
The vhost route table of `pkg/util/vhost/router.go`: routes indexed by domain,
then by HTTP user, each list kept in reverse order of location so that the
first location that is a prefix of the path is the longest.
-/
import Frp.Lib.GoStrings
import Mathlib.Data.List.Sort
import Mathlib.Logic.Function.Basic

namespace Frp

open GoStrings

universe u

variable {P : Type u}

/-- A registered route with whatever its owner stored in it. -/
structure Router (P : Type u) where
  domain : Bytes
  location : Bytes
  httpUser : Bytes
  payload : P
deriving DecidableEq

/-- `routerByHTTPUser`: a nil map entry is `none`. -/
abbrev RouterByHTTPUser (P : Type u) := Bytes → Option (List (Router P))

structure Routers (P : Type u) where
  indexByDomain : Bytes → Option (RouterByHTTPUser P)

inductive RouterError where
  | configConflict
deriving DecidableEq, Repr

def RouterError.text : RouterError → String
  | .configConflict => "router config conflict"

/-- `sort.Reverse(ByLocation)`: the greater location first. -/
def byLocationReverse (left right : Router P) : Prop :=
  right.location ≤ left.location

instance (left right : Router P) : Decidable (byLocationReverse left right) :=
  inferInstanceAs (Decidable (right.location ≤ left.location))

namespace Routers

def newRouters (P : Type u) : Routers P := ⟨fun _ => none⟩

/-- The list a lookup walks: empty where a map has no entry. -/
def entries (r : Routers P) (domain httpUser : Bytes) : List (Router P) :=
  match r.indexByDomain domain with
  | none => []
  | some routersByHTTPUser => (routersByHTTPUser httpUser).getD []

def exist (r : Routers P) (host path httpUser : Bytes) : Option (Router P) :=
  match r.indexByDomain host with
  | none => none
  | some routersByHTTPUser =>
      match routersByHTTPUser httpUser with
      | none => none
      | some routers => routers.find? fun route => path == route.location

def get (r : Routers P) (host path httpUser : Bytes) : Option (Router P) :=
  match r.indexByDomain host with
  | none => none
  | some routersByHTTPUser =>
      match routersByHTTPUser httpUser with
      | none => none
      | some vrs => vrs.find? fun vr => hasPrefix path vr.location

def add (r : Routers P) (domain location httpUser : Bytes) (payload : P) :
    Except RouterError (Routers P) :=
  match r.exist domain location httpUser with
  | some _ => .error .configConflict
  | none =>
      let routersByHTTPUser :=
        (r.indexByDomain domain).getD fun _ => none
      let vrs := (routersByHTTPUser httpUser).getD []
      let vr : Router P := ⟨domain, location, httpUser, payload⟩
      let sorted := (vrs ++ [vr]).insertionSort byLocationReverse
      .ok ⟨Function.update r.indexByDomain domain
        (some (Function.update routersByHTTPUser httpUser (some sorted)))⟩

def del (r : Routers P) (domain location httpUser : Bytes) : Routers P :=
  match r.indexByDomain domain with
  | none => r
  | some routersByHTTPUser =>
      match routersByHTTPUser httpUser with
      | none => r
      | some vrs =>
          let newVrs := vrs.filter fun vr => vr.location != location
          ⟨Function.update r.indexByDomain domain
            (some (Function.update routersByHTTPUser httpUser (some newVrs)))⟩

@[simp] theorem entries_newRouters (domain httpUser : Bytes) :
    (newRouters P).entries domain httpUser = [] := rfl

theorem exist_eq_find (r : Routers P) (host path httpUser : Bytes) :
    r.exist host path httpUser =
      (r.entries host httpUser).find? fun route => path == route.location := by
  unfold exist entries
  cases r.indexByDomain host with
  | none => rfl
  | some users => cases husers : users httpUser <;> simp [husers]

theorem get_eq_find (r : Routers P) (host path httpUser : Bytes) :
    r.get host path httpUser =
      (r.entries host httpUser).find?
        fun vr => hasPrefix path vr.location := by
  unfold get entries
  cases r.indexByDomain host with
  | none => rfl
  | some users => cases husers : users httpUser <;> simp [husers]

/-- A lookup only returns routes of the list it walks. -/
theorem mem_entries_of_get {r : Routers P} {host path httpUser : Bytes}
    {vr : Router P} (hget : r.get host path httpUser = some vr) :
    vr ∈ r.entries host httpUser := by
  rw [get_eq_find] at hget
  exact List.mem_of_find?_eq_some hget

theorem get_eq_none_of_entries {r : Routers P} {host httpUser : Bytes}
    (hentries : r.entries host httpUser = []) (path : Bytes) :
    r.get host path httpUser = none := by
  rw [get_eq_find, hentries]
  rfl

/-- What `Add` does to every list of the table. -/
theorem entries_add {r next : Routers P} {domain location httpUser : Bytes}
    {payload : P} (hadd : r.add domain location httpUser payload = .ok next)
    (domain' httpUser' : Bytes) :
    next.entries domain' httpUser' =
      if domain' = domain ∧ httpUser' = httpUser then
        (r.entries domain httpUser ++
          [(⟨domain, location, httpUser, payload⟩ : Router P)]).insertionSort
            byLocationReverse
      else r.entries domain' httpUser' := by
  unfold add at hadd
  split at hadd
  · cases hadd
  · cases hadd
    by_cases hdomain : domain' = domain
    · subst hdomain
      by_cases huser : httpUser' = httpUser
      · subst huser
        cases hindex : r.indexByDomain domain' with
        | none => simp [entries, hindex]
        | some users => simp [entries, hindex]
      · cases hindex : r.indexByDomain domain' with
        | none => simp [entries, hindex, huser]
        | some users => simp [entries, hindex, huser]
    · simp [entries, hdomain]

/-- `Add` is refused exactly when the triple is taken. -/
theorem add_isOk_iff (r : Routers P) (domain location httpUser : Bytes)
    (payload : P) :
    (∃ next, r.add domain location httpUser payload = .ok next) ↔
      ∀ vr ∈ r.entries domain httpUser, vr.location ≠ location := by
  unfold add
  rw [exist_eq_find]
  split
  · rename_i route hfind
    constructor
    · rintro ⟨next, hnext⟩
      cases hnext
    · intro hfree
      have hmem := List.mem_of_find?_eq_some hfind
      have hlocation := List.find?_some hfind
      exact absurd (by simpa using Eq.symm (by simpa using hlocation))
        (hfree route hmem)
  · rename_i hfind
    constructor
    · rintro - vr hvr heq
      have hnot := List.find?_eq_none.mp hfind vr hvr
      simp [heq] at hnot
    · intro _
      exact ⟨_, rfl⟩

/-- What `Del` does to every list of the table. -/
theorem entries_del (r : Routers P) (domain location httpUser : Bytes)
    (domain' httpUser' : Bytes) :
    (r.del domain location httpUser).entries domain' httpUser' =
      if domain' = domain ∧ httpUser' = httpUser then
        (r.entries domain httpUser).filter fun vr => vr.location != location
      else r.entries domain' httpUser' := by
  unfold del
  cases hindex : r.indexByDomain domain with
  | none =>
      simp only
      split
      · rename_i hsame
        simp [entries, hsame, hindex]
      · rfl
  | some users =>
      cases hlist : users httpUser with
      | none =>
          simp only [hlist]
          split
          · rename_i hsame
            simp [entries, hsame, hindex, hlist]
          · rfl
      | some vrs =>
          simp only [hlist]
          by_cases hdomain : domain' = domain
          · subst hdomain
            by_cases huser : httpUser' = httpUser
            · subst huser
              simp [entries, hindex, hlist]
            · simp [entries, hindex, huser]
          · simp [entries, hdomain]

end Routers

end Frp
