/-
What the calls know of their groups, in every run: a group that still has the
real listener that a call has read has the rest of what it has read, even if
members have come and gone since.
-/
import Frp.Group.ListenCalls

namespace Frp

open Transition

namespace ListenGroups

variable {Req Real Env Other : Type}

namespace State

/-- What a call read when it returned holds as long as the group has the same
real listener; `reals` numbers them, so a later one is another. -/
def Reads (s : State Req Real Env) (ln : Nat) (g : ListenGroup Real) : Prop :=
  ln < s.ctl.listened ∧
    (∃ real, g.ln = some real ∧ real < s.ctl.reals) ∧
    ((s.groupOf ln).ln = g.ln → (s.groupOf ln).real = g.real)

structure Kept (s : State Req Real Env) : Prop where
  stored : ∀ group i, s.ctl.groups group = some i → i < s.ctl.made
  below : ∀ i, (s.ctl.heap i).lns ≠ [] → i < s.ctl.made
  called : ∀ call args i, s.calls call = .found args i → i < s.ctl.made
  member : ∀ ln, s.pcs ln = .live ∨ s.pcs ln = .closing →
    ln < s.ctl.listened ∧ ln ∈ (s.groupOf ln).lns
  opened : ∀ i real, (s.ctl.heap i).ln = some real → real < s.ctl.reals
  founded : ∀ i, (s.ctl.heap i).lns ≠ [] → (s.ctl.heap i).ln ≠ none
  returned : ∀ call ln g, s.calls call = .returned ln g → s.Reads ln g

theorem kept_init [Inhabited Real] (env : Env) :
    (init env : State Req Real Env).Kept where
  stored group i hstored := by cases hstored
  below i hnonempty := absurd rfl hnonempty
  called call args i hcall := by cases hcall
  member ln hpc := by rcases hpc with hpc | hpc <;> cases hpc
  opened i real hreal := by cases hreal
  founded i hnonempty := absurd rfl hnonempty
  returned call ln g hcall := by cases hcall

/-- The rule for a change of the controller: a group keeps its real listener, or
has none, or has just been given one with a new number. -/
theorem Kept.update {s : State Req Real Env} (hkept : s.Kept)
    {ctl : ListenCtl Real Env}
    (hstored : ∀ group i, ctl.groups group = some i → i < ctl.made)
    (hmade : s.ctl.made ≤ ctl.made) (hreals : s.ctl.reals ≤ ctl.reals)
    (hlistened : s.ctl.listened ≤ ctl.listened)
    (hlisteners : ∀ ln < s.ctl.listened,
      ctl.listeners ln = s.ctl.listeners ln)
    (hreal : ∀ i,
      ((ctl.heap i).ln = (s.ctl.heap i).ln ∧
        (ctl.heap i).real = (s.ctl.heap i).real) ∨
      (ctl.heap i).ln = none ∨
      ((ctl.heap i).ln = some s.ctl.reals ∧ s.ctl.reals < ctl.reals))
    (hlns : ∀ i, (ctl.heap i).lns ≠ [] →
      i < ctl.made ∧ (ctl.heap i).ln ≠ none)
    (hmember : ∀ ln, s.pcs ln = .live ∨ s.pcs ln = .closing →
      ln ∈ (s.groupOf ln).lns →
        ln ∈ (ctl.heap (s.ctl.listeners ln).group).lns) :
    (s.setCtl ctl).Kept where
  stored := hstored
  below i hnonempty := (hlns i hnonempty).1
  called call args i hcall := (hkept.called call args i hcall).trans_le hmade
  member ln hpc := by
    obtain ⟨hbelow, hin⟩ := hkept.member ln hpc
    show ln < ctl.listened ∧ ln ∈ (ctl.heap (ctl.listeners ln).group).lns
    rw [hlisteners ln hbelow]
    exact ⟨hbelow.trans_le hlistened, hmember ln hpc hin⟩
  opened i real hln := by
    replace hln : (ctl.heap i).ln = some real := hln
    show real < ctl.reals
    rcases hreal i with ⟨hsame, _⟩ | hnone | ⟨hnew, hfresh⟩
    · exact (hkept.opened i real (hsame ▸ hln)).trans_le hreals
    · rw [hnone] at hln
      cases hln
    · rw [hnew, Option.some.injEq] at hln
      exact hln ▸ hfresh
  founded i hnonempty := (hlns i hnonempty).2
  returned call ln g hcall := by
    obtain ⟨hbelow, ⟨real, hln, hold⟩, hread⟩ := hkept.returned call ln g hcall
    refine ⟨hbelow.trans_le hlistened, ⟨real, hln, hold.trans_le hreals⟩, ?_⟩
    show (ctl.heap (ctl.listeners ln).group).ln = g.ln →
      (ctl.heap (ctl.listeners ln).group).real = g.real
    rw [hlisteners ln hbelow]
    rcases hreal (s.ctl.listeners ln).group with
      ⟨hsame, heq⟩ | hnone | ⟨hnew, _⟩
    · rw [hsame, heq]
      exact hread
    · intro hsame
      rw [hnone, hln] at hsame
      cases hsame
    · -- the number of the new real listener has not been read by any call
      intro hsame
      rw [hnew, hln, Option.some.injEq] at hsame
      exact absurd hsame.symm (Nat.ne_of_lt hold)

/-- The rule for a step that adds no listener and takes none away; it may make a
group. -/
theorem Kept.setCtl {s : State Req Real Env} (hkept : s.Kept)
    {ctl : ListenCtl Real Env}
    (hheap : ∀ i,
      (s.ctl.made ≤ i ∧ (ctl.heap i).lns = [] ∧ (ctl.heap i).ln = none) ∨
      ((ctl.heap i).lns = (s.ctl.heap i).lns ∧
        (ctl.heap i).ln = (s.ctl.heap i).ln ∧
        (ctl.heap i).real = (s.ctl.heap i).real))
    (hstored : ∀ group i, ctl.groups group = some i → i < ctl.made)
    (hmade : s.ctl.made ≤ ctl.made) (hreals : ctl.reals = s.ctl.reals)
    (hlisteners : ctl.listeners = s.ctl.listeners)
    (hlistened : ctl.listened = s.ctl.listened) : (s.setCtl ctl).Kept := by
  refine hkept.update hstored hmade hreals.ge hlistened.ge
    (fun ln _ => congrFun hlisteners ln) ?_ ?_ ?_
  · intro i
    rcases hheap i with ⟨_, _, hnone⟩ | ⟨_, hln, hreal⟩
    · exact Or.inr (Or.inl hnone)
    · exact Or.inl ⟨hln, hreal⟩
  · intro i hnonempty
    rcases hheap i with ⟨_, hempty, _⟩ | ⟨hlns, hln, _⟩
    · exact absurd hempty hnonempty
    · rw [hlns] at hnonempty
      rw [hln]
      exact ⟨(hkept.below i hnonempty).trans_le hmade,
        hkept.founded i hnonempty⟩
  · intro ln _ hmember
    rcases hheap (s.ctl.listeners ln).group with ⟨hnew, _⟩ | ⟨hlns, _⟩
    · have hold := hkept.below _ (List.ne_nil_of_mem hmember)
      exact absurd hnew (Nat.not_le_of_lt hold)
    · rw [hlns]
      exact hmember

theorem Kept.setPc {s : State Req Real Env} (hkept : s.Kept) (ln : Nat)
    (pc : ListenerPc)
    (hpc : pc = .live ∨ pc = .closing →
      ln < s.ctl.listened ∧ ln ∈ (s.groupOf ln).lns) : (s.setPc ln pc).Kept where
  stored := hkept.stored
  below := hkept.below
  called := hkept.called
  member other hother := by
    by_cases hsame : other = ln
    · simp only [State.setPc, hsame, Function.update_self] at hother
      rw [hsame]
      exact hpc hother
    · simp only [State.setPc, Function.update_of_ne hsame] at hother
      exact hkept.member other hother
  opened := hkept.opened
  founded := hkept.founded
  returned := hkept.returned

theorem Kept.setCall {s : State Req Real Env} (hkept : s.Kept) (call : Nat)
    (pc : Call Req Real)
    (hfound : ∀ args i, pc = .found args i → i < s.ctl.made)
    (hreturned : ∀ ln g, pc = .returned ln g → s.Reads ln g) :
    (s.setCall call pc).Kept where
  stored := hkept.stored
  below := hkept.below
  called other args i hcall := by
    by_cases hsame : other = call
    · simp only [State.setCall, hsame, Function.update_self] at hcall
      exact hfound args i hcall
    · simp only [State.setCall, Function.update_of_ne hsame] at hcall
      exact hkept.called other args i hcall
  member := hkept.member
  opened := hkept.opened
  founded := hkept.founded
  returned other ln g hcall := by
    by_cases hsame : other = call
    · simp only [State.setCall, hsame, Function.update_self] at hcall
      exact hreturned ln g hcall
    · simp only [State.setCall, Function.update_of_ne hsame] at hcall
      exact hkept.returned other ln g hcall

theorem Kept.setEnv {s : State Req Real Env} (hkept : s.Kept) (env : Env) :
    (s.setCtl { s.ctl with env := env }).Kept :=
  hkept.setCtl (fun _ => Or.inr ⟨rfl, rfl, rfl⟩) hkept.stored (Nat.le_refl _)
    rfl rfl rfl

theorem Kept.fail {s : State Req Real Env} (hkept : s.Kept) (call : Nat)
    (err : ListenError) : (s.setCall call (.failed err)).Kept :=
  hkept.setCall call _ (fun _ _ heq => by cases heq) fun _ _ heq => by cases heq

theorem Kept.lookup [Inhabited Real] {s : State Req Real Env} (hkept : s.Kept)
    (call : Nat) (args : ListenArgs Req) :
    ((s.setCtl (s.ctl.lookup args.group).1).setCall call
      (.found args (s.ctl.lookup args.group).2)).Kept := by
  have hfound : (s.setCtl (s.ctl.lookup args.group).1).Kept ∧
      (s.ctl.lookup args.group).2 < (s.ctl.lookup args.group).1.made := by
    unfold ListenCtl.lookup
    split
    · next i hstored => exact ⟨hkept, hkept.stored _ i hstored⟩
    · refine ⟨hkept.setCtl (fun i => ?_) (fun group i hstored => ?_)
        (Nat.le_succ _) rfl rfl rfl, Nat.lt_succ_self _⟩
      · by_cases hsame : i = s.ctl.made
        · simp [hsame, ListenGroup.newGroup]
        · simp [hsame]
      · simp only [Function.update_apply] at hstored ⊢
        split at hstored
        · rw [← Option.some.inj hstored]
          exact Nat.lt_succ_self _
        · exact Nat.lt_succ_of_lt (hkept.stored group i hstored)
  apply hfound.1.setCall
  · intro args' i heq
    cases heq
    exact hfound.2
  · intro ln g heq
    cases heq

/-- A new member, in a group that keeps its real listener or has just been given
one. -/
theorem Kept.addListener {s : State Req Real Env} (hkept : s.Kept) (call : Nat)
    {i : Nat} {ctl : ListenCtl Real Env} {g : ListenGroup Real}
    {group : String} {addr : Option TCPAddr} (hi : i < s.ctl.made)
    (hheap : ctl.heap = Function.update s.ctl.heap i g)
    (hlns : g.lns = (s.ctl.heap i).lns ++ [s.ctl.listened])
    (hreal : (g.ln = (s.ctl.heap i).ln ∧ g.real = (s.ctl.heap i).real ∧
        (s.ctl.heap i).lns ≠ [] ∧ ctl.reals = s.ctl.reals) ∨
      (g.ln = some s.ctl.reals ∧ ctl.reals = s.ctl.reals + 1))
    (hlisteners : ctl.listeners = Function.update s.ctl.listeners
      s.ctl.listened ⟨group, i, addr⟩)
    (hlistened : ctl.listened = s.ctl.listened + 1)
    (hmade : ctl.made = s.ctl.made) (hgroups : ctl.groups = s.ctl.groups) :
    (((s.setCtl ctl).setPc s.ctl.listened .live).setCall call
      (.returned s.ctl.listened (ctl.heap i))).Kept := by
  have hnew : ctl.heap i = g := by rw [hheap, Function.update_self]
  have hother : ∀ {j : Nat}, j ≠ i → ctl.heap j = s.ctl.heap j := by
    intro j hne
    rw [hheap, Function.update_of_ne hne]
  have hgln : ∃ real, g.ln = some real ∧ real < ctl.reals := by
    rcases hreal with ⟨hln, _, hnonempty, hreals⟩ | ⟨hln, hreals⟩
    · obtain ⟨real, hold⟩ := Option.ne_none_iff_exists'.mp
        (hkept.founded i hnonempty)
      exact ⟨real, hln.trans hold, hreals ▸ hkept.opened i real hold⟩
    · exact ⟨s.ctl.reals, hln, hreals ▸ Nat.lt_succ_self _⟩
  have hbelow : s.ctl.listened < ctl.listened :=
    hlistened ▸ Nat.lt_succ_self _
  have hgroup : (ctl.heap (ctl.listeners s.ctl.listened).group) = g := by
    rw [hlisteners, Function.update_self, hnew]
  have hctl : (s.setCtl ctl).Kept := by
    refine hkept.update ?_ hmade.ge ?_ hbelow.le ?_ ?_ ?_ ?_
    · intro group' j hstored
      rw [hmade]
      exact hkept.stored group' j (hgroups ▸ hstored)
    · rcases hreal with ⟨_, _, _, hreals⟩ | ⟨_, hreals⟩ <;> omega
    · intro ln hln
      rw [hlisteners, Function.update_of_ne (Nat.ne_of_lt hln)]
    · intro j
      by_cases hsame : j = i
      · rw [hsame, hnew]
        rcases hreal with ⟨hln, hsameReal, _⟩ | ⟨hln, hreals⟩
        · exact Or.inl ⟨hln, hsameReal⟩
        · exact Or.inr (Or.inr ⟨hln, hreals ▸ Nat.lt_succ_self _⟩)
      · rw [hother hsame]
        exact Or.inl ⟨rfl, rfl⟩
    · intro j hnonempty
      rw [hmade]
      by_cases hsame : j = i
      · obtain ⟨real, hln, _⟩ := hgln
        rw [hsame, hnew, hln]
        exact ⟨hi, Option.some_ne_none real⟩
      · rw [hother hsame] at hnonempty ⊢
        exact ⟨hkept.below j hnonempty, hkept.founded j hnonempty⟩
    · intro ln _ hmember
      by_cases hsame : (s.ctl.listeners ln).group = i
      · rw [groupOf, hsame] at hmember
        rw [hsame, hnew, hlns]
        exact List.mem_append_left _ hmember
      · rw [hother hsame]
        exact hmember
  have hlive : ((s.setCtl ctl).setPc s.ctl.listened .live).Kept := by
    refine hctl.setPc s.ctl.listened .live fun _ => ⟨hbelow, ?_⟩
    show s.ctl.listened ∈ (ctl.heap (ctl.listeners s.ctl.listened).group).lns
    rw [hgroup, hlns]
    exact List.mem_append_right _ List.mem_cons_self
  refine hlive.setCall call _ (fun _ _ heq => by cases heq) ?_
  intro ln g' heq
  obtain ⟨rfl, rfl⟩ := Call.returned.inj heq
  exact ⟨hbelow, hnew ▸ hgln, fun _ => hgroup.trans hnew.symm ▸ rfl⟩

theorem Kept.listen [Inhabited Real] {kind : GroupKind Req Real Env Other}
    {s s' : State Req Real Env} (hkept : s.Kept) {call : Nat}
    (hstep : ListenGroups.step kind s (.listen call) = some s') : s'.Kept := by
  obtain ⟨args, i, hcall, ⟨err, -, rfl⟩ |
    ⟨-, -, ctl, result, -, hlistens, rfl⟩⟩ := listen_cases hstep
  · exact hkept.fail call err
  have hi := hkept.called call args i hcall
  cases hlistens with
  | refused hempty hlisten => exact (hkept.setEnv _).fail call _
  | founded hempty hlisten =>
      exact hkept.addListener call hi rfl rfl (Or.inr ⟨rfl, rfl⟩) rfl rfl rfl
        rfl
  | mismatched hnonempty hadmits => exact hkept.fail call _
  | joined hnonempty hadmits =>
      exact hkept.addListener call hi rfl rfl
        (Or.inl ⟨rfl, rfl, hnonempty, rfl⟩) rfl rfl rfl rfl

/-- A listener leaves its group, which keeps its real listener by number. -/
theorem Kept.leave {s : State Req Real Env} (hkept : s.Kept) {ln i : Nat}
    {ctl : ListenCtl Real Env} {g : ListenGroup Real} {pc : ListenerPc}
    (hpc : pc = .closed ∨ pc = .removing)
    (hheap : ctl.heap = Function.update s.ctl.heap i g)
    (hlns : g.lns = (s.ctl.heap i).lns.erase ln)
    (hln : g.ln = (s.ctl.heap i).ln) (hreal : g.real = (s.ctl.heap i).real)
    (hreals : ctl.reals = s.ctl.reals)
    (hlisteners : ctl.listeners = s.ctl.listeners)
    (hlistened : ctl.listened = s.ctl.listened)
    (hmade : ctl.made = s.ctl.made) (hgroups : ctl.groups = s.ctl.groups) :
    ((s.setCtl ctl).setPc ln pc).Kept := by
  have hsame : ∀ j, (ctl.heap j).ln = (s.ctl.heap j).ln ∧
      (ctl.heap j).real = (s.ctl.heap j).real ∧
      ((ctl.heap j).lns ≠ [] → (s.ctl.heap j).lns ≠ []) ∧
      ∀ other, other ≠ ln →
        (other ∈ (s.ctl.heap j).lns → other ∈ (ctl.heap j).lns) := by
    intro j
    rw [hheap]
    by_cases hji : j = i
    · rw [hji, Function.update_self, hlns]
      refine ⟨hln, hreal, ?_, fun other hne hmember =>
        (List.mem_erase_of_ne hne).mpr hmember⟩
      intro hnonempty hempty
      rw [hempty] at hnonempty
      exact hnonempty rfl
    · rw [Function.update_of_ne hji]
      exact ⟨rfl, rfl, id, fun _ _ hmember => hmember⟩
  have hover : (s.setPc ln pc).Kept :=
    hkept.setPc ln pc fun hstill => by
      rcases hpc with rfl | rfl <;> simp at hstill
  have hleft : ((s.setPc ln pc).setCtl ctl).Kept := by
    refine hover.update ?_ hmade.ge hreals.ge hlistened.ge
      (fun other _ => congrFun hlisteners other) ?_ ?_ ?_
    · intro group j hstored
      rw [hmade]
      exact hkept.stored group j (hgroups ▸ hstored)
    · intro j
      exact Or.inl ⟨(hsame j).1, (hsame j).2.1⟩
    · intro j hnonempty
      have hold := (hsame j).2.2.1 hnonempty
      rw [hmade, (hsame j).1]
      exact ⟨hkept.below j hold, hkept.founded j hold⟩
    · intro other hother hmember
      have hne : other ≠ ln := by
        rintro rfl
        rcases hpc with rfl | rfl <;> simp [State.setPc] at hother
      exact (hsame _).2.2.2 other hne hmember
  exact hleft

theorem Kept.closeListener [Inhabited Real]
    {kind : GroupKind Req Real Env Other} {s s' : State Req Real Env}
    (hkept : s.Kept) {ln : Nat}
    (hstep : ListenGroups.step kind s (.closeListener ln) = some s') :
    s'.Kept := by
  obtain ⟨-, ctl, closeEnd, hcloses, rfl⟩ := closeListener_cases hstep
  cases hcloses with
  | left hmore =>
      exact hkept.leave (Or.inl rfl) rfl rfl rfl rfl rfl rfl rfl rfl rfl
  | last hnone _ _ =>
      exact hkept.leave (Or.inr rfl) rfl hnone.symm rfl rfl rfl rfl rfl rfl rfl
  | panicked hnone _ =>
      exact hkept.leave (Or.inl rfl) rfl hnone.symm rfl rfl rfl rfl rfl rfl rfl

theorem Kept.removeGroup {s : State Req Real Env} (hkept : s.Kept) (ln : Nat) :
    ((s.setCtl (s.ctl.finishClose (s.ctl.listeners ln).group)).setPc ln
      .closed).Kept := by
  have hctl : (s.setCtl (s.ctl.finishClose (s.ctl.listeners ln).group)).Kept := by
    refine hkept.setCtl (fun i => Or.inr ?_) (fun group i hstored => ?_)
      (Nat.le_refl _) rfl rfl rfl
    · by_cases hsame : i = (s.ctl.listeners ln).group
      · simp [ListenCtl.finishClose, ListenCtl.removeGroup, ListenCtl.setGroup,
          hsame]
      · simp [ListenCtl.finishClose, ListenCtl.removeGroup, ListenCtl.setGroup,
          hsame]
    · exact hkept.stored group i (Ledger.of_remove hstored).2
  exact hctl.setPc ln .closed fun hpc => by rcases hpc with hpc | hpc <;> cases hpc

theorem Kept.step [Inhabited Real] {kind : GroupKind Req Real Env Other}
    {s s' : State Req Real Env} {action : Action Req Other} (hkept : s.Kept)
    (hstep : ListenGroups.step kind s action = some s') : s'.Kept := by
  cases action with
  | lookup call args =>
      obtain ⟨-, rfl⟩ := lookup_cases hstep
      exact hkept.lookup call args
  | listen call => exact hkept.listen hstep
  | close ln =>
      obtain ⟨hlive, rfl⟩ | rfl := close_cases hstep
      · exact hkept.setPc ln .closing fun _ => hkept.member ln (Or.inl hlive)
      · exact hkept
  | closeListener ln => exact hkept.closeListener hstep
  | removeGroup ln =>
      obtain ⟨-, rfl⟩ := removeGroup_cases hstep
      exact hkept.removeGroup ln
  | other act =>
      obtain ⟨env, -, rfl⟩ := other_cases hstep
      exact hkept.setEnv env

end State

end ListenGroups

end Frp
