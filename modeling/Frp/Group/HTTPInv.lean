/-
What the http groups keep when every registration joins a group that is still
stored: a group has a route exactly while it has members, and only stored groups
have members.
-/
import Frp.Group.HTTP
import Frp.Lib.Ledger

namespace Frp

open GoStrings

namespace HTTPGroupController

/-- The route under the triple leads to group `i`. -/
def Routed (ctl : HTTPGroupController) (key : RouteKey) (i : Nat) : Prop :=
  ∃ cfg, ctl.vhostRouter.routes key = some cfg ∧
    cfg.createConnFn = some (groupConn i)

@[simp] theorem routed_setGroup (ctl : HTTPGroupController) (i j : Nat)
    (g : HTTPGroup) (key : RouteKey) :
    (ctl.setGroup i g).Routed key j ↔ ctl.Routed key j := Iff.rfl

structure Coherent (ctl : HTTPGroupController) : Prop where
  fresh : ∀ i, ctl.made ≤ i → ctl.heap i = .newHTTPGroup
  below : ∀ group i, ctl.groups group = some i → i < ctl.made
  one : ∀ group group' i, ctl.groups group = some i →
    ctl.groups group' = some i → group = group'
  dropped : ∀ i, (∀ group, ctl.groups group ≠ some i) →
    (ctl.heap i).members = ∅
  route : ∀ key i, ctl.Routed key i ↔
    (ctl.heap i).members ≠ ∅ ∧ key = (ctl.heap i).key
  listed : ∀ i, (ctl.heap i).Listed

/-- Two groups do not share a route. -/
theorem Routed.inj {ctl : HTTPGroupController} {key : RouteKey} {i j : Nat}
    (hi : ctl.Routed key i) (hj : ctl.Routed key j) : i = j := by
  obtain ⟨cfg, hcfg, hconn⟩ := hi
  obtain ⟨cfg', hcfg', hconn'⟩ := hj
  rw [hcfg, Option.some.injEq] at hcfg'
  subst hcfg'
  rw [hconn, Option.some.injEq] at hconn'
  exact groupConn_injective hconn'

theorem coherent_newHTTPGroupController
    {vhostRouter : HTTPReverseProxy RealConn}
    (hplain : ∀ key i, ¬ (newHTTPGroupController vhostRouter).Routed key i) :
    (newHTTPGroupController vhostRouter).Coherent where
  fresh _ _ := rfl
  below group i hstored := by cases hstored
  one group group' i hstored := by cases hstored
  dropped _ _ := rfl
  route key i := by
    apply iff_of_false (hplain key i)
    rintro ⟨hnonempty, _⟩
    exact hnonempty rfl
  listed _ := HTTPGroup.listed_newHTTPGroup

/-- `Register` finds the stored group or stores a new one. -/
theorem lookup_cases (ctl : HTTPGroupController) (group : Bytes) :
    (∃ i, ctl.groups group = some i ∧ ctl.lookup group = (ctl, i)) ∨
    (ctl.groups group = none ∧ ctl.lookup group =
      ({ ctl.setGroup ctl.made .newHTTPGroup with
          groups := Function.update ctl.groups group (some ctl.made)
          made := ctl.made + 1 }, ctl.made)) := by
  cases hstored : ctl.groups group with
  | some i => exact Or.inl ⟨i, rfl, by simp [lookup, hstored]⟩
  | none => exact Or.inr ⟨rfl, by simp [lookup, hstored]⟩

theorem Coherent.numbered {ctl : HTTPGroupController}
    (hcoherent : ctl.Coherent) : Ledger.Numbered ctl.groups ctl.made :=
  ⟨hcoherent.below, hcoherent.one⟩

theorem Coherent.lookup {ctl : HTTPGroupController} (hcoherent : ctl.Coherent)
    (group : Bytes) : (ctl.lookup group).1.Coherent := by
  rcases ctl.lookup_cases group with ⟨i, hstored, hlookup⟩ | ⟨hnone, hlookup⟩
  · rw [hlookup]
    exact hcoherent
  · rw [hlookup]
    have hheap : Function.update ctl.heap ctl.made .newHTTPGroup = ctl.heap := by
      rw [← hcoherent.fresh ctl.made (Nat.le_refl _), Function.update_eq_self]
    have hnumbered := hcoherent.numbered.insert group
    constructor
    · intro i hi
      simp only [setGroup, hheap]
      exact hcoherent.fresh i (Nat.le_of_succ_le hi)
    · exact hnumbered.below
    · exact hnumbered.one
    · intro i hunstored
      simp only [setGroup, hheap]
      apply hcoherent.dropped
      intro group' hfound
      apply hunstored group'
      have hne : group' ≠ group := by
        rintro rfl
        rw [hnone] at hfound
        cases hfound
      simpa [hne] using hfound
    · intro key i
      simp only [setGroup, hheap]
      exact hcoherent.route key i
    · intro i
      simp only [setGroup, hheap]
      exact hcoherent.listed i

/-- A lookup leaves the groups and their members as they are, but for a new
group that it may store. -/
theorem Coherent.lookup_spec {ctl : HTTPGroupController}
    (hcoherent : ctl.Coherent) (group : Bytes) :
    (ctl.lookup group).1.heap = ctl.heap ∧
      (ctl.lookup group).1.groups group = some (ctl.lookup group).2 ∧
      ctl.made ≤ (ctl.lookup group).1.made ∧
      (∀ group' i, ctl.groups group' = some i →
        (ctl.lookup group).1.groups group' = some i) ∧
      ∀ group' i, i < ctl.made →
        (ctl.lookup group).1.groups group' = some i →
          ctl.groups group' = some i := by
  rcases ctl.lookup_cases group with ⟨i, hstored, hlookup⟩ | ⟨hnone, hlookup⟩
  · rw [hlookup]
    exact ⟨rfl, hstored, Nat.le_refl _, fun _ _ => id, fun _ _ _ => id⟩
  · rw [hlookup]
    refine ⟨?_, Function.update_self .., Nat.le_succ _, ?_, ?_⟩
    · show Function.update ctl.heap ctl.made .newHTTPGroup = ctl.heap
      rw [← hcoherent.fresh ctl.made (Nat.le_refl _), Function.update_eq_self]
    · intro group' i hfound
      have hne : group' ≠ group := by
        rintro rfl
        rw [hnone] at hfound
        cases hfound
      simpa [hne] using hfound
    · intro group' i hbelow hfound
      rcases hcoherent.numbered.cases_insert hfound with ⟨_, rfl⟩ | ⟨_, hold⟩
      · exact absurd hbelow (Nat.lt_irrefl _)
      · exact hold

/-- Group `i`, which is stored, gets the members and the route that it should
have; the other groups keep theirs. -/
theorem Coherent.setGroup {ctl ctl' : HTTPGroupController}
    (hcoherent : ctl.Coherent) {i : Nat} {g : HTTPGroup}
    (hbelow : i < ctl.made)
    (hheap : ctl'.heap = Function.update ctl.heap i g)
    (hmade : ctl'.made = ctl.made)
    (hgroups : ∀ group j, ctl'.groups group = some j →
      ctl.groups group = some j)
    (hkept : ∀ group j, j ≠ i → ctl.groups group = some j →
      ctl'.groups group = some j)
    (hdropped : (∀ group, ctl'.groups group ≠ some i) → g.members = ∅)
    (hself : ∀ key, ctl'.Routed key i ↔ g.members ≠ ∅ ∧ key = g.key)
    (hothers : ∀ key j, j ≠ i → (ctl'.Routed key j ↔ ctl.Routed key j))
    (hlisted : g.Listed) : ctl'.Coherent where
  fresh j hj := by
    rw [hmade] at hj
    rw [hheap, Function.update_of_ne (by omega)]
    exact hcoherent.fresh j hj
  below group j hfound := by
    rw [hmade]
    exact hcoherent.below group j (hgroups group j hfound)
  one group group' j hleft hright :=
    hcoherent.one group group' j (hgroups _ _ hleft) (hgroups _ _ hright)
  dropped j hunstored := by
    rw [hheap]
    by_cases hj : j = i
    · subst hj
      rw [Function.update_self]
      exact hdropped hunstored
    · rw [Function.update_of_ne hj]
      exact hcoherent.dropped j fun group hfound =>
        hunstored group (hkept group j hj hfound)
  route key j := by
    rw [hheap]
    by_cases hj : j = i
    · subst hj
      rw [Function.update_self]
      exact hself key
    · rw [Function.update_of_ne hj, hothers key j hj]
      exact hcoherent.route key j
  listed j := by
    rw [hheap]
    by_cases hj : j = i
    · rw [hj, Function.update_self]
      exact hlisted
    · rw [Function.update_of_ne hj]
      exact hcoherent.listed j

/-- A proxy that joins a stored group, or is refused. -/
theorem Coherent.joins {ctl ctl' : HTTPGroupController}
    (hcoherent : ctl.Coherent) {i : Nat} {proxyName : Bytes} {key : RouteKey}
    {result : Except HTTPGroupError Unit}
    (hstored : result = .ok () → ∃ group, ctl.groups group = some i)
    (hjoins : Joins ctl ctl' i proxyName key result) : ctl'.Coherent := by
  cases hjoins with
  | rejected err hsame => rwa [hsame]
  | founded g vhostRouter cfg hempty hfree hadd hcfg hconn hmembers _ hkey
      hlisted hnext =>
      subst hnext hcfg
      obtain ⟨group, hgroup⟩ := hstored rfl
      have hroutes := HTTPReverseProxy.routes_of_add hadd
      have hnonempty : g.members ≠ ∅ := by simp [hmembers]
      refine hcoherent.setGroup (hcoherent.below group i hgroup) rfl rfl
        (fun _ _ => id) (fun _ _ _ => id) ?_ ?_ ?_ ?_
      · intro hunstored
        exact absurd hgroup (hunstored group)
      · intro key
        constructor
        · rintro ⟨found, hfound, hleads⟩
          refine ⟨hnonempty, ?_⟩
          by_contra hne
          rw [hkey] at hne
          simp only [hroutes, Function.update_of_ne hne] at hfound
          exact ((hcoherent.route key i).mp ⟨found, hfound, hleads⟩).1 hempty
        · rintro ⟨_, rfl⟩
          exact ⟨cfg, by simp [hroutes, hkey], hconn⟩
      · intro key j hj
        by_cases hsame : key = cfg.key
        · subst hsame
          apply iff_of_false
          · rintro ⟨found, hfound, hleads⟩
            simp only [hroutes, Function.update_self, Option.some.injEq]
              at hfound
            subst hfound
            rw [hconn, Option.some.injEq] at hleads
            exact hj (groupConn_injective hleads).symm
          · rintro ⟨found, hfound, _⟩
            rw [hfree] at hfound
            cases hfound
        · simp [Routed, hroutes, hsame]
      · exact hlisted (hcoherent.listed i)
  | joined g hnonempty hnew hmembers _ hsame hkey hlisted hnext =>
      subst hnext
      obtain ⟨group, hgroup⟩ := hstored rfl
      refine hcoherent.setGroup (hcoherent.below group i hgroup) rfl rfl
        (fun _ _ => id) (fun _ _ _ => id) ?_ ?_ ?_ ?_
      · intro hunstored
        exact absurd hgroup (hunstored group)
      · intro key'
        have hroute := hcoherent.route key' i
        rw [hsame] at hroute
        rw [hkey, hmembers]
        simpa [hnonempty] using hroute
      · intro key' j _
        exact Iff.rfl
      · exact hlisted (hcoherent.listed i)

/-- A member of a stored group leaves it. -/
theorem Coherent.unRegister {ctl : HTTPGroupController}
    (hcoherent : ctl.Coherent) {proxyName group : Bytes} {i : Nat}
    (hstored : ctl.groups group = some i)
    (hmember : proxyName ∈ (ctl.heap i).members) :
    (ctl.unRegister proxyName group).Coherent := by
  have hnonempty : (ctl.heap i).members ≠ ∅ := Finset.ne_empty_of_mem hmember
  have hrouted : ctl.Routed (ctl.heap i).key i :=
    (hcoherent.route _ i).mpr ⟨hnonempty, rfl⟩
  rcases ctl.unRegister_cases proxyName group hstored with
    ⟨hempty, hnext⟩ | ⟨hrest, hnext⟩
  · have hroutes := ctl.vhostRouter.routes_del (ctl.heap i).key
    rw [hnext]
    refine hcoherent.setGroup (hcoherent.below group i hstored) rfl rfl
      ?_ ?_ ?_ ?_ ?_ ?_
    · intro group' j hfound
      exact (Ledger.of_remove hfound).2
    · intro group' j hj hfound
      have hne : group' ≠ group := by
        rintro rfl
        rw [hstored, Option.some.injEq] at hfound
        exact hj hfound.symm
      simpa [hne] using hfound
    · intro _
      rw [HTTPGroup.members_removeMember, hempty]
    · intro key
      apply iff_of_false
      · rintro ⟨cfg, hfound, hleads⟩
        simp only [hroutes] at hfound
        by_cases hkey : key = (ctl.heap i).key
        · simp [hkey] at hfound
        · rw [Function.update_of_ne hkey] at hfound
          exact hkey ((hcoherent.route key i).mp ⟨cfg, hfound, hleads⟩).2
      · rw [HTTPGroup.members_removeMember, hempty]
        exact fun h => h.1 rfl
    · intro key j hj
      by_cases hkey : key = (ctl.heap i).key
      · subst hkey
        apply iff_of_false
        · rintro ⟨cfg, hfound, _⟩
          simp [hroutes] at hfound
        · exact fun hother => hj (hother.inj hrouted)
      · simp [Routed, hroutes, hkey]
    · exact (hcoherent.listed i).removeMember proxyName
  · rw [hnext]
    refine hcoherent.setGroup (hcoherent.below group i hstored) rfl rfl
      (fun _ _ => id) (fun _ _ _ => id) ?_ ?_ ?_ ?_
    · intro hunstored
      exact absurd hstored (hunstored group)
    · intro key
      have hroute := hcoherent.route key i
      rw [HTTPGroup.members_removeMember]
      simpa [hnonempty, hrest] using hroute
    · intro key j _
      exact Iff.rfl
    · exact (hcoherent.listed i).removeMember proxyName

end HTTPGroupController

end Frp
