/-
A route table as the set of its payloads, for tables in which each payload is
stored under its own triple.  The order of the lists and this set determine every
lookup.
-/
import Frp.Vhost.Lookup

namespace Frp

namespace Routers

open GoStrings

variable {P : Type} {key : P → RouteKey} {r next : Routers P}

/-- The payload stands in the list of its triple. -/
def Stores (key : P → RouteKey) (r : Routers P) (payload : P) : Prop :=
  ∃ vr ∈ r.entries (key payload).domain (key payload).httpUser,
    vr.payload = payload

/-- `Add` and `Del` under the triple of a payload. -/
def addPayload (key : P → RouteKey) (r : Routers P) (payload : P) :
    Except RouterError (Routers P) :=
  r.add (key payload).domain (key payload).location (key payload).httpUser
    payload

def delKey (r : Routers P) (k : RouteKey) : Routers P :=
  r.del k.domain k.location k.httpUser

theorem Built.distinct (hbuilt : r.Built key) : r.Distinct := by
  induction hbuilt with
  | newRouters => simp [Distinct]
  | add _ hadd ih => exact ih.add hadd
  | del _ domain location httpUser ih => exact ih.del domain location httpUser

/-- An entry is made of the list that it is in and of its payload. -/
theorem Built.eta (hbuilt : r.Built key) :
    ∀ domain httpUser, ∀ vr ∈ r.entries domain httpUser,
      vr = ⟨domain, (key vr.payload).location, httpUser, vr.payload⟩ := by
  induction hbuilt with
  | newRouters => simp
  | @add r next payload _ hadd ih =>
      intro domain httpUser vr hvr
      rw [entries_add hadd] at hvr
      split at hvr
      · next hsame =>
          simp only [List.mem_insertionSort, List.mem_append,
            List.mem_singleton] at hvr
          obtain ⟨rfl, rfl⟩ := hsame
          rcases hvr with hold | rfl
          · exact ih _ _ vr hold
          · rfl
      · exact ih domain httpUser vr hvr
  | @del r _ domain location httpUser ih =>
      intro domain' httpUser' vr hvr
      rw [entries_del] at hvr
      split at hvr
      · next hsame =>
          obtain ⟨rfl, rfl⟩ := hsame
          exact ih _ _ vr (List.mem_of_mem_filter hvr)
      · exact ih domain' httpUser' vr hvr

/-- The lists of the table are those of the set. -/
theorem Built.mem_entries_iff (hbuilt : r.Built key) {domain httpUser : Bytes}
    {vr : Router P} :
    vr ∈ r.entries domain httpUser ↔
      r.Stores key vr.payload ∧ (key vr.payload).domain = domain ∧
        (key vr.payload).httpUser = httpUser ∧
        vr = ⟨domain, (key vr.payload).location, httpUser, vr.payload⟩ := by
  constructor
  · intro hvr
    have hkey := hbuilt.key_payload domain httpUser vr hvr
    refine ⟨⟨vr, ?_, rfl⟩, ?_, ?_, hbuilt.eta domain httpUser vr hvr⟩
    · rwa [hkey]
    · rw [hkey]
    · rw [hkey]
  · rintro ⟨⟨other, hother, hpayload⟩, hdomain, huser, heta⟩
    have hsame := hbuilt.eta _ _ other hother
    rw [hpayload, hdomain, huser, ← heta] at hsame
    rwa [hdomain, huser, hsame] at hother

theorem Built.holds_iff (hbuilt : r.Built key) (k : RouteKey) :
    r.Holds k ↔ ∃ payload, r.Stores key payload ∧ key payload = k := by
  constructor
  · rintro ⟨vr, hvr, hlocation⟩
    refine ⟨vr.payload, (hbuilt.mem_entries_iff.mp hvr).1, ?_⟩
    rw [hbuilt.key_payload _ _ vr hvr, hlocation]
  · rintro ⟨payload, ⟨vr, hvr, rfl⟩, rfl⟩
    refine ⟨vr, hvr, ?_⟩
    rw [hbuilt.key_payload _ _ vr hvr]

theorem addPayload_isOk_iff (r : Routers P) (payload : P) :
    (∃ next, r.addPayload key payload = .ok next) ↔ ¬ r.Holds (key payload) := by
  rw [addPayload, add_isOk_iff]
  simp [Holds]

theorem not_stores_newRouters (payload : P) :
    ¬ (newRouters P).Stores key payload := by
  simp [Stores]

theorem stores_add {payload : P} (hadd : r.addPayload key payload = .ok next)
    (other : P) :
    next.Stores key other ↔ r.Stores key other ∨ other = payload := by
  rw [Stores, Stores, entries_add hadd]
  split
  · next hsame =>
      rw [hsame.1, hsame.2]
      simp only [List.mem_insertionSort, List.mem_append, List.mem_singleton]
      constructor
      · rintro ⟨vr, hold | rfl, hpayload⟩
        · exact Or.inl ⟨vr, hold, hpayload⟩
        · exact Or.inr hpayload.symm
      · rintro (⟨vr, hold, hpayload⟩ | rfl)
        · exact ⟨vr, Or.inl hold, hpayload⟩
        · exact ⟨_, Or.inr rfl, rfl⟩
  · next hother =>
      apply (or_iff_left _).symm
      rintro rfl
      exact hother ⟨rfl, rfl⟩

theorem Built.stores_del (hbuilt : r.Built key) (k : RouteKey) (other : P) :
    (r.delKey k).Stores key other ↔ r.Stores key other ∧ key other ≠ k := by
  rw [Stores, Stores, delKey, entries_del]
  split
  · next hsame =>
      rw [← hsame.1, ← hsame.2]
      simp only [List.mem_filter, bne_iff_ne]
      constructor
      · rintro ⟨vr, ⟨hvr, hlocation⟩, rfl⟩
        refine ⟨⟨vr, hvr, rfl⟩, ?_⟩
        rintro rfl
        rw [hbuilt.key_payload _ _ vr hvr] at hlocation
        exact hlocation rfl
      · rintro ⟨⟨vr, hvr, rfl⟩, hne⟩
        refine ⟨vr, ⟨hvr, fun hlocation => hne ?_⟩, rfl⟩
        have hkey := hbuilt.key_payload _ _ vr hvr
        rw [hkey, hlocation, hsame.1, hsame.2]
  · next hother =>
      apply (and_iff_left _).symm
      rintro rfl
      exact hother ⟨rfl, rfl⟩

/-- Two tables with the same payloads have the same lists. -/
theorem Built.entries_eq (hbuilt : r.Built key) {r' : Routers P}
    (hbuilt' : r'.Built key)
    (hstores : ∀ payload, r.Stores key payload ↔ r'.Stores key payload)
    (domain httpUser : Bytes) :
    r.entries domain httpUser = r'.entries domain httpUser := by
  have hmem : ∀ vr, vr ∈ r.entries domain httpUser ↔
      vr ∈ r'.entries domain httpUser := by
    intro vr
    rw [hbuilt.mem_entries_iff, hbuilt'.mem_entries_iff, hstores]
  have hperm : (r.entries domain httpUser).Perm (r'.entries domain httpUser) :=
    (List.perm_ext_iff_of_nodup (hbuilt.distinct domain httpUser).of_map
      (hbuilt'.distinct domain httpUser).of_map).mpr hmem
  refine hperm.eq_of_pairwise ?_ (hbuilt.sorted _ _) (hbuilt'.sorted _ _)
  intro left right hleft hright hle hge
  exact List.inj_on_of_nodup_map (hbuilt.distinct domain httpUser) hleft
    ((hmem right).mpr hright) (List.le_antisymm hge hle)

theorem Built.lookup_eq (hbuilt : r.Built key) {r' : Routers P}
    (hbuilt' : r'.Built key)
    (hstores : ∀ payload, r.Stores key payload ↔ r'.Stores key payload)
    (host path httpUser : Bytes) :
    r.lookup host path httpUser = r'.lookup host path httpUser := by
  unfold lookup
  congr 1
  funext scope
  rw [get_eq_find, get_eq_find, hbuilt.entries_eq hbuilt' hstores]

/-- No two payloads share a triple. -/
theorem Built.payload_eq (hbuilt : r.Built key) {left right : P}
    (hleft : r.Stores key left) (hright : r.Stores key right)
    (hkey : key left = key right) : left = right := by
  obtain ⟨vr, hvr, rfl⟩ := hleft
  obtain ⟨vr', hvr', rfl⟩ := hright
  rw [← hkey] at hvr'
  have hsame : vr.location = vr'.location := by
    have hone := hbuilt.key_payload _ _ vr hvr
    have hother := hbuilt.key_payload _ _ vr' hvr'
    rw [← hkey, hone] at hother
    exact congrArg RouteKey.location hother
  rw [List.inj_on_of_nodup_map (hbuilt.distinct _ _) hvr hvr' hsame]

end Routers

end Frp
