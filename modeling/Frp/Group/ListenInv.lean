/-
What holds of the groups with listeners between any two sections, as long as
nobody joins a group that has been removed.
-/
import Frp.Group.Listen
import Frp.Lib.Ledger

namespace Frp

variable {Req Real Env Other : Type}

namespace ListenCtl

/-- What holds of the group `g` with the number `i`.  Only a stored group has
members; its channel is open unless its last member is just closing. -/
structure Sound (ctl : ListenCtl Real Env) (i : Nat) (g : ListenGroup Real) :
    Prop where
  nodup : g.lns.Nodup
  member : ∀ ln ∈ g.lns, ln < ctl.listened ∧ (ctl.listeners ln).group = i ∧
    (ctl.listeners ln).groupName = g.group
  stored : g.lns ≠ [] ∨ g.mu = true → ctl.groups g.group = some i
  locked : g.mu = true → g.lns = []
  accept : ∀ group, ctl.groups group = some i → g.mu = false →
    g.acceptCh = .opened
  real : g.lns ≠ [] → ∃ real, g.ln = some real ∧ ctl.realOpen real = true
  opened : ∀ real, g.ln = some real → real < ctl.reals

structure Coherent (ctl : ListenCtl Real Env) : Prop where
  below : ∀ group i, ctl.groups group = some i → i < ctl.made
  one : ∀ group group' i, ctl.groups group = some i →
    ctl.groups group' = some i → group = group'
  sound : ∀ i, ctl.Sound i (ctl.heap i)
  owner : ∀ i j real, (ctl.heap i).ln = some real →
    (ctl.heap j).ln = some real → i = j

/-- A group is sound as it is made, if its number is not stored yet or it has
just been stored. -/
theorem sound_newGroup [Inhabited Real] (ctl : ListenCtl Real Env) (i : Nat) :
    ctl.Sound i .newGroup where
  nodup := List.nodup_nil
  member ln hln := by cases hln
  stored hbusy := by
    rcases hbusy with hnonempty | hlocked
    · exact absurd rfl hnonempty
    · cases hlocked
  locked hlocked := rfl
  accept group hstored hunlocked := rfl
  real hnonempty := absurd rfl hnonempty
  opened real hreal := by cases hreal

theorem coherent_newCtl [Inhabited Real] (env : Env) :
    (newCtl env : ListenCtl Real Env).Coherent where
  below group i hstored := by cases hstored
  one group group' i hstored := by cases hstored
  sound i := sound_newGroup _ i
  owner i j real hreal := by cases hreal

theorem Sound.mu_eq_false {ctl : ListenCtl Real Env} {i : Nat}
    {g : ListenGroup Real} (hsound : ctl.Sound i g) (hnonempty : g.lns ≠ []) :
    g.mu = false := by
  by_contra hmu
  exact hnonempty (hsound.locked (by simpa using hmu))

namespace Coherent

variable {ctl ctl' : ListenCtl Real Env} {i : Nat} {g : ListenGroup Real}

theorem numbered (hcoherent : ctl.Coherent) :
    Ledger.Numbered ctl.groups ctl.made :=
  ⟨hcoherent.below, hcoherent.one⟩

/-- What happens to the ports and to the muxer is of no account. -/
theorem setEnv (hcoherent : ctl.Coherent) (env : Env) :
    ({ ctl with env := env } : ListenCtl Real Env).Coherent where
  below := hcoherent.below
  one := hcoherent.one
  sound j := ⟨(hcoherent.sound j).nodup, (hcoherent.sound j).member,
    (hcoherent.sound j).stored, (hcoherent.sound j).locked,
    (hcoherent.sound j).accept, (hcoherent.sound j).real,
    (hcoherent.sound j).opened⟩
  owner := hcoherent.owner

/-- The rule for a change of one group: the others stay sound, and the real
listener of the group is that of no other. -/
theorem update (hcoherent : ctl.Coherent)
    (hheap : ctl'.heap = Function.update ctl.heap i g)
    (hbelow : ∀ group j, ctl'.groups group = some j → j < ctl'.made)
    (hone : ∀ group group' j, ctl'.groups group = some j →
      ctl'.groups group' = some j → group = group')
    (hsound : ctl'.Sound i g)
    (hothers : ∀ j, j ≠ i → ctl.Sound j (ctl.heap j) →
      ctl'.Sound j (ctl.heap j))
    (howner : ∀ j real, j ≠ i → (ctl.heap j).ln = some real →
      g.ln ≠ some real) : ctl'.Coherent where
  below := hbelow
  one := hone
  sound j := by
    rw [hheap]
    by_cases hsame : j = i
    · rw [hsame, Function.update_self]
      exact hsound
    · rw [Function.update_of_ne hsame]
      exact hothers j hsame (hcoherent.sound j)
  owner j k real hj hk := by
    rw [hheap] at hj hk
    by_cases hji : j = i <;> by_cases hki : k = i
    · rw [hji, hki]
    · rw [hji, Function.update_self] at hj
      rw [Function.update_of_ne hki] at hk
      exact absurd hj (howner k real hki hk)
    · rw [Function.update_of_ne hji] at hj
      rw [hki, Function.update_self] at hk
      exact absurd hk (howner j real hji hj)
    · rw [Function.update_of_ne hji] at hj
      rw [Function.update_of_ne hki] at hk
      exact hcoherent.owner j k real hj hk

/-- What the lookup finds, and what it leaves alone. -/
theorem lookup_spec [Inhabited Real] (hcoherent : ctl.Coherent)
    (group : String) :
    (ctl.lookup group).1.groups group = some (ctl.lookup group).2 ∧
      (∀ j, (ctl.heap j).mu = true →
        (ctl.lookup group).1.heap j = ctl.heap j) ∧
      (∀ group' j, j < ctl.made →
        (ctl.lookup group).1.groups group' = some j →
        ctl.groups group' = some j) := by
  unfold ListenCtl.lookup
  cases hfound : ctl.groups group with
  | some found =>
      exact ⟨hfound, fun j _ => rfl, fun group' j _ hstored => hstored⟩
  | none =>
      refine ⟨by simp, ?_, ?_⟩
      · intro j hmu
        have hbelow := hcoherent.below _ _
          ((hcoherent.sound j).stored (Or.inr hmu))
        exact Function.update_of_ne (Nat.ne_of_lt hbelow) _ _
      · intro group' j hbelow hstored
        rcases hcoherent.numbered.cases_insert hstored with
          ⟨_, rfl⟩ | ⟨_, hold⟩
        · exact absurd hbelow (Nat.lt_irrefl _)
        · exact hold

theorem lookup [Inhabited Real] (hcoherent : ctl.Coherent) (group : String) :
    (ctl.lookup group).1.Coherent := by
  cases hfound : ctl.groups group with
  | some found => simpa only [ListenCtl.lookup, hfound] using hcoherent
  | none =>
      simp only [ListenCtl.lookup, hfound]
      have hnumbered := hcoherent.numbered.insert group
      refine hcoherent.update rfl hnumbered.below hnumbered.one
        (sound_newGroup _ _) ?_ ?_
      · intro j hne hsound
        refine ⟨hsound.nodup, hsound.member, ?_, hsound.locked, ?_,
          hsound.real, hsound.opened⟩
        · intro hbusy
          have hold := hsound.stored hbusy
          have hother : (ctl.heap j).group ≠ group := by
            intro hsame
            rw [hsame, hfound] at hold
            cases hold
          simpa only [Function.update_of_ne hother] using hold
        · intro group' hgroup
          rcases hcoherent.numbered.cases_insert hgroup with
            ⟨_, heq⟩ | ⟨_, hold⟩
          · exact absurd heq hne
          · exact hsound.accept group' hold
      · intro j real _ _ hnone
        cases hnone

/-- A new member of a stored group. -/
theorem addListener (hcoherent : ctl.Coherent)
    (hstored : ctl.groups (ctl.heap i).group = some i)
    (hunlocked : (ctl.heap i).mu = false)
    (hreal : ∃ real, (ctl.heap i).ln = some real ∧
      ctl.realOpen real = true) (addr : Option TCPAddr) :
    (ctl.addListener i (ctl.heap i) (ctl.heap i).group addr).Coherent := by
  have hsound := hcoherent.sound i
  have hold : ∀ ln, ln < ctl.listened →
      Function.update ctl.listeners ctl.listened
        ⟨(ctl.heap i).group, i, addr⟩ ln = ctl.listeners ln :=
    fun ln hln => Function.update_of_ne (Nat.ne_of_lt hln) _ _
  refine hcoherent.update rfl hcoherent.below hcoherent.one ?_ ?_ ?_
  · constructor
    · apply hsound.nodup.append (List.nodup_singleton _)
      rw [List.disjoint_singleton]
      intro hmember
      exact Nat.lt_irrefl _ (hsound.member _ hmember).1
    · intro ln hln
      simp only [ListenCtl.addListener]
      rcases List.mem_append.mp hln with hln | hln
      · obtain ⟨hbelow, hgroup⟩ := hsound.member ln hln
        rw [hold ln hbelow]
        exact ⟨Nat.lt_succ_of_lt hbelow, hgroup⟩
      · obtain rfl := List.mem_singleton.mp hln
        simp
    · intro _
      exact hstored
    · intro hlocked
      rw [hunlocked] at hlocked
      cases hlocked
    · exact hsound.accept
    · intro _
      exact hreal
    · exact hsound.opened
  · intro j _ hother
    refine ⟨hother.nodup, ?_, hother.stored, hother.locked, hother.accept,
      hother.real, hother.opened⟩
    intro ln hln
    obtain ⟨hbelow, hgroup⟩ := hother.member ln hln
    simp only [ListenCtl.addListener]
    rw [hold ln hbelow]
    exact ⟨Nat.lt_succ_of_lt hbelow, hgroup⟩
  · intro j real hne hj hi
    exact hne (hcoherent.owner j i real hj hi)

/-- The first member opens the real listener in a group without members. -/
theorem openReal (hcoherent : ctl.Coherent)
    (hempty : (ctl.heap i).lns = []) (hunlocked : (ctl.heap i).mu = false)
    (group groupKey : String) (real : Real) (env : Env) :
    ({ ctl with
      realOpen := Function.update ctl.realOpen ctl.reals true
      reals := ctl.reals + 1
      env := env }.setGroup i
        ((ctl.heap i).found group groupKey real ctl.reals)).Coherent := by
  have hsound := hcoherent.sound i
  refine hcoherent.update rfl hcoherent.below hcoherent.one ?_ ?_ ?_
  · constructor
    · exact hsound.nodup
    · intro ln hln
      have hmember : ln ∈ (ctl.heap i).lns := hln
      rw [hempty] at hmember
      cases hmember
    · intro hbusy
      rcases hbusy with hnonempty | hlocked
      · exact absurd hempty hnonempty
      · have hmu : (ctl.heap i).mu = true := hlocked
        rw [hunlocked] at hmu
        cases hmu
    · intro _
      exact hempty
    · intro group' hstored _
      have hopened := hsound.accept group' hstored hunlocked
      simp [ListenGroup.found, hopened]
    · intro hnonempty
      exact absurd hempty hnonempty
    · intro found hfound
      obtain rfl := Option.some.inj hfound
      exact Nat.lt_succ_self _
  · intro j _ hother
    refine ⟨hother.nodup, hother.member, hother.stored, hother.locked,
      hother.accept, ?_, ?_⟩
    · intro hnonempty
      obtain ⟨other, hln, hopen⟩ := hother.real hnonempty
      refine ⟨other, hln, ?_⟩
      have hne := Nat.ne_of_lt (hother.opened other hln)
      simpa [ListenCtl.setGroup, hne] using hopen
    · intro other hln
      exact Nat.lt_succ_of_lt (hother.opened other hln)
  · intro j other _ hj hi
    obtain rfl := Option.some.inj hi
    exact Nat.lt_irrefl _ ((hcoherent.sound j).opened _ hj)

theorem found (hcoherent : ctl.Coherent) (hempty : (ctl.heap i).lns = [])
    (hunlocked : (ctl.heap i).mu = false) {group : String}
    (hstored : ctl.groups group = some i) (groupKey : String) (real : Real)
    (addr : Option TCPAddr) (env : Env) :
    (ctl.found i group groupKey real addr env).Coherent := by
  have hopen := hcoherent.openReal hempty hunlocked group groupKey real env
  have hadd := hopen.addListener (i := i)
    (by simpa [setGroup, ListenGroup.found] using hstored)
    (by simpa [setGroup, ListenGroup.found] using hunlocked)
    ⟨ctl.reals, by simp [setGroup, ListenGroup.found], by simp [setGroup]⟩ addr
  simpa [ListenCtl.addListener, setGroup, ListenCtl.found, ListenGroup.found]
    using hadd

/-- A `Listen` keeps the groups coherent if it succeeds in a stored group
only. -/
theorem listens (hcoherent : ctl.Coherent)
    {kind : GroupKind Req Real Env Other} {group groupKey : String} {req : Req}
    {result : Except ListenError Nat} (hunlocked : (ctl.heap i).mu = false)
    (hstored : ∀ ln, result = .ok ln → ctl.groups group = some i)
    (hlistens : Listens kind ctl i group groupKey req ctl' result) :
    ctl'.Coherent := by
  cases hlistens with
  | refused => exact hcoherent.setEnv _
  | founded hempty _ =>
      exact hcoherent.found hempty hunlocked (hstored _ rfl) _ _ _ _
  | mismatched => exact hcoherent
  | joined hnonempty hadmits =>
      obtain rfl := kind.group_of_admits _ _ _ _ hadmits
      exact hcoherent.addListener (hstored _ rfl) hunlocked
        ((hcoherent.sound i).real hnonempty) _

/-- A member that closes finds the channel open and the real listener there. -/
theorem not_panicked (hcoherent : ctl.Coherent)
    {kind : GroupKind Req Real Env Other} {ln : Nat} {closeEnd : CloseEnd}
    (hmember : ln ∈ (ctl.heap i).lns)
    (hcloses : Closes kind ctl ln i ctl' closeEnd) :
    closeEnd ≠ .panicked := by
  have hsound := hcoherent.sound i
  have hnonempty := List.ne_nil_of_mem hmember
  cases hcloses with
  | left | last => simp
  | panicked _ hbroken =>
      obtain ⟨real, hreal, _⟩ := hsound.real hnonempty
      have hopened := hsound.accept _ (hsound.stored (Or.inl hnonempty))
        (hsound.mu_eq_false hnonempty)
      rcases hbroken with hclosed | hnone
      · exact absurd hopened hclosed
      · rw [hreal] at hnone
        cases hnone

theorem closes (hcoherent : ctl.Coherent)
    {kind : GroupKind Req Real Env Other} {ln : Nat} {closeEnd : CloseEnd}
    (hmember : ln ∈ (ctl.heap i).lns)
    (hcloses : Closes kind ctl ln i ctl' closeEnd) : ctl'.Coherent := by
  have hsound := hcoherent.sound i
  have hnonempty := List.ne_nil_of_mem hmember
  have hgroup := hsound.stored (Or.inl hnonempty)
  have hkeeps := hcoherent.not_panicked hmember hcloses
  cases hcloses with
  | left hmore =>
      refine hcoherent.update rfl hcoherent.below hcoherent.one ?_ ?_ ?_
      · constructor
        · exact hsound.nodup.erase ln
        · intro other hother
          exact hsound.member other (List.mem_of_mem_erase hother)
        · intro _
          exact hgroup
        · intro hlocked
          exact absurd (hsound.locked hlocked) hnonempty
        · exact hsound.accept
        · intro _
          exact hsound.real hnonempty
        · exact hsound.opened
      · intro j _ hother
        exact ⟨hother.nodup, hother.member, hother.stored, hother.locked,
          hother.accept, hother.real, hother.opened⟩
      · intro j real hne hj hi
        exact hne (hcoherent.owner j i real hj hi)
  | @last real _ _ hreal =>
      refine hcoherent.update rfl hcoherent.below hcoherent.one ?_ ?_ ?_
      · constructor
        · exact List.nodup_nil
        · intro other hother
          cases hother
        · intro _
          exact hgroup
        · intro _
          rfl
        · intro _ _ hunlocked
          cases hunlocked
        · intro hempty
          exact absurd rfl hempty
        · exact hsound.opened
      · intro j hne hother
        refine ⟨hother.nodup, hother.member, hother.stored, hother.locked,
          hother.accept, ?_, hother.opened⟩
        intro hsome
        obtain ⟨other, hln, hopen⟩ := hother.real hsome
        refine ⟨other, hln, ?_⟩
        have hdistinct : other ≠ real := by
          rintro rfl
          exact hne (hcoherent.owner j i other hln hreal)
        simpa [ListenCtl.setGroup, hdistinct] using hopen
      · intro j other hne hj hi
        exact hne (hcoherent.owner j i other hj hi)
  | panicked => exact absurd rfl hkeeps

/-- The group that is removed has no members. -/
theorem finishClose (hcoherent : ctl.Coherent)
    (hlocked : (ctl.heap i).mu = true) : (ctl.finishClose i).Coherent := by
  have hsound := hcoherent.sound i
  have hempty := hsound.locked hlocked
  have hgroup := hsound.stored (Or.inr hlocked)
  have hnumbered := hcoherent.numbered.remove (ctl.heap i).group
  refine hcoherent.update rfl hnumbered.below hnumbered.one ?_ ?_ ?_
  · constructor
    · exact hsound.nodup
    · exact hsound.member
    · intro hbusy
      rcases hbusy with hnonempty | hmu
      · exact absurd hempty hnonempty
      · cases hmu
    · intro _
      exact hempty
    · intro group hstored _
      obtain ⟨hne, hold⟩ := Ledger.of_remove hstored
      exact absurd (hcoherent.one _ _ _ hold hgroup) hne
    · intro hnonempty
      exact absurd hempty hnonempty
    · exact hsound.opened
  · intro j hne hother
    refine ⟨hother.nodup, hother.member, ?_, hother.locked, ?_, hother.real,
      hother.opened⟩
    · intro hbusy
      have hold := hother.stored hbusy
      have hname : (ctl.heap j).group ≠ (ctl.heap i).group := by
        intro hsame
        rw [hsame, hgroup] at hold
        exact hne (Option.some.inj hold).symm
      simpa [ListenCtl.finishClose, removeGroup, setGroup, hname] using hold
    · intro group hstored
      exact hother.accept group (Ledger.of_remove hstored).2
  · intro j real hne hj hi
    exact hne (hcoherent.owner j i real hj hi)

end Coherent

end ListenCtl

end Frp
