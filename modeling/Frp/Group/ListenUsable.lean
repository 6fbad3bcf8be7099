/-
The listeners that `Listen` returns are usable, as long as no call joins a group
that has been removed since it was looked up.
-/
import Frp.Group.ListenKept

namespace Frp

open GoStrings Transition

namespace ListenGroups

variable {Req Real Env Other : Type}

namespace State

/-- The listener belongs to the group that is stored under its name, and that
group has its channel and its real listener open. -/
def UsableListener (s : State Req Real Env) (ln : Nat) : Prop :=
  s.ctl.groups (s.ctl.listeners ln).groupName =
      some (s.ctl.listeners ln).group ∧
    (s.groupOf ln).acceptCh = .opened ∧
    ∃ real, (s.groupOf ln).ln = some real ∧ s.ctl.realOpen real = true

/-- What holds of the listeners that have been returned and not closed. -/
structure Usable (s : State Req Real Env) : Prop where
  usable : ∀ call ln g, s.calls call = .returned ln g → s.pcs ln = .live →
    s.UsableListener ln
  shared : ∀ call call' ln ln' g g', s.calls call = .returned ln g →
    s.calls call' = .returned ln' g' → s.pcs ln = .live → s.pcs ln' = .live →
    (s.ctl.listeners ln).groupName = (s.ctl.listeners ln').groupName →
    (s.groupOf ln).ln = (s.groupOf ln').ln

end State

/-- The call fails if it comes to the first branch of the `Listen` of a group. -/
def refuses (kind : GroupKind Req Real Env Other) (env : Env) (req : Req) :
    Bool :=
  match kind.dispatch req with
  | .error _ => true
  | .ok () =>
      match kind.realListen env req with
      | (_, .error _) => true
      | (_, .ok _) => false

/-- A call enters the section of the group only while the group is stored, or
else fails since it cannot open the real listener. -/
def Permitted (kind : GroupKind Req Real Env Other) (s : State Req Real Env) :
    Action Req Other → Prop
  | .listen call =>
      match s.calls call with
      | .found args i => s.ctl.groups args.group = some i ∨
          refuses kind s.ctl.env args.req = true
      | .idle | .returned _ _ | .failed _ => True
  | .lookup _ _ | .close _ | .closeListener _ | .removeGroup _ | .other _ =>
      True

instance (kind : GroupKind Req Real Env Other) (s : State Req Real Env)
    (action : Action Req Other) : Decidable (Permitted kind s action) :=
  match action with
  | .listen call =>
      match hcall : s.calls call with
      | .found args i =>
          decidable_of_iff (s.ctl.groups args.group = some i ∨
            refuses kind s.ctl.env args.req = true)
            (by simp [Permitted, hcall])
      | .idle | .returned _ _ | .failed _ => isTrue (by simp [Permitted, hcall])
  | .lookup _ _ | .close _ | .closeListener _ | .removeGroup _ | .other _ =>
      isTrue trivial

namespace State

/-- The groups are coherent, and a call has found a group that is stored under
the name it gave or not at all. -/
structure Inv (s : State Req Real Env) : Prop where
  coherent : s.ctl.Coherent
  removing : ∀ ln, s.pcs ln = .removing →
    ln < s.ctl.listened ∧ (s.groupOf ln).mu = true
  alone : ∀ ln ln', s.pcs ln = .removing → s.pcs ln' = .removing →
    (s.ctl.listeners ln).group = (s.ctl.listeners ln').group → ln = ln'
  called : ∀ call args i, s.calls call = .found args i →
    ∀ group, s.ctl.groups group = some i → group = args.group

theorem inv_init [Inhabited Real] (env : Env) :
    (init env : State Req Real Env).Inv where
  coherent := ListenCtl.coherent_newCtl env
  removing ln hpc := by cases hpc
  alone ln ln' hpc := by cases hpc
  called call args i hcall := by cases hcall

theorem Inv.usableListener {s : State Req Real Env} (hinv : s.Inv)
    (hkept : s.Kept) {ln : Nat} (hlive : s.pcs ln = .live) :
    s.UsableListener ln := by
  obtain ⟨_, hmember⟩ := hkept.member ln (Or.inl hlive)
  have hsound := hinv.coherent.sound (s.ctl.listeners ln).group
  have hnonempty := List.ne_nil_of_mem hmember
  have hname := (hsound.member ln hmember).2.2
  have hstored := hsound.stored (Or.inl hnonempty)
  refine ⟨?_, ?_, hsound.real hnonempty⟩
  · rw [hname]
    exact hstored
  · exact hsound.accept _ hstored (hsound.mu_eq_false hnonempty)

theorem Inv.usable {s : State Req Real Env} (hinv : s.Inv) (hkept : s.Kept) :
    s.Usable where
  usable call ln g _ hlive := hinv.usableListener hkept hlive
  shared call call' ln ln' g g' _ _ hlive hlive' hname := by
    have hstored := (hinv.usableListener hkept hlive).1
    have hstored' := (hinv.usableListener hkept hlive').1
    rw [hname, hstored', Option.some.injEq] at hstored
    rw [groupOf, groupOf, hstored]

/-- The rule for a step that changes no listener: the locks stay as they are, and
so do the names of the groups that calls have found. -/
theorem Inv.setCtl {s : State Req Real Env} (hinv : s.Inv) (hkept : s.Kept)
    {ctl : ListenCtl Real Env} (hcoherent : ctl.Coherent)
    (hlisteners : ctl.listeners = s.ctl.listeners)
    (hlistened : ctl.listened = s.ctl.listened)
    (hheap : ∀ i, (s.ctl.heap i).mu = true → ctl.heap i = s.ctl.heap i)
    (hgroups : ∀ group i, i < s.ctl.made → ctl.groups group = some i →
      s.ctl.groups group = some i) : (s.setCtl ctl).Inv where
  coherent := hcoherent
  removing ln hpc := by
    obtain ⟨hbelow, hmu⟩ := hinv.removing ln hpc
    refine ⟨hlistened ▸ hbelow, ?_⟩
    show (ctl.heap (ctl.listeners ln).group).mu = true
    rw [hlisteners, hheap _ hmu]
    exact hmu
  alone ln ln' hpc hpc' hsame := by
    apply hinv.alone ln ln' hpc hpc'
    rw [← hlisteners]
    exact hsame
  called call args i hcall group hstored :=
    hinv.called call args i hcall group
      (hgroups group i (hkept.called call args i hcall) hstored)

/-- The rule for the step of one call. -/
theorem Inv.setCall {s : State Req Real Env} (hinv : s.Inv) (call : Nat)
    (pc : Call Req Real)
    (hpc : ∀ args i, pc = .found args i →
      ∀ group, s.ctl.groups group = some i → group = args.group) :
    (s.setCall call pc).Inv where
  coherent := hinv.coherent
  removing := hinv.removing
  alone := hinv.alone
  called other args i hcall := by
    by_cases hsame : other = call
    · simp only [State.setCall, hsame, Function.update_self] at hcall
      exact hpc args i hcall
    · simp only [State.setCall, Function.update_of_ne hsame] at hcall
      exact hinv.called other args i hcall

theorem Inv.setEnv {s : State Req Real Env} (hinv : s.Inv) (hkept : s.Kept)
    (env : Env) : (s.setCtl { s.ctl with env := env }).Inv :=
  hinv.setCtl hkept (hinv.coherent.setEnv env) rfl rfl (fun _ _ => rfl)
    fun _ _ _ hstored => hstored

theorem Inv.lookup [Inhabited Real] {s : State Req Real Env} (hinv : s.Inv)
    (hkept : s.Kept) (call : Nat) (args : ListenArgs Req) :
    ((s.setCtl (s.ctl.lookup args.group).1).setCall call
      (.found args (s.ctl.lookup args.group).2)).Inv := by
  have hcoherent := hinv.coherent.lookup args.group
  obtain ⟨hfound, hheap, hgroups⟩ := hinv.coherent.lookup_spec args.group
  have hlisteners : (s.ctl.lookup args.group).1.listeners =
      s.ctl.listeners ∧
      (s.ctl.lookup args.group).1.listened = s.ctl.listened := by
    unfold ListenCtl.lookup
    split <;> exact ⟨rfl, rfl⟩
  apply (hinv.setCtl hkept hcoherent hlisteners.1 hlisteners.2 hheap
    hgroups).setCall
  intro args' i hcall
  simp only [Call.found.injEq] at hcall
  obtain ⟨rfl, rfl⟩ := hcall
  intro group hgroup
  exact hcoherent.one _ _ _ hgroup hfound

/-- A new member of the group `i`, whatever else has been done to the group. -/
theorem Inv.addListener {s : State Req Real Env} (hinv : s.Inv) {i : Nat}
    {ctl : ListenCtl Real Env} {g : ListenGroup Real} {group : String}
    {addr : Option TCPAddr} (hcoherent : ctl.Coherent)
    (hunlocked : (s.ctl.heap i).mu = false)
    (hheap : ctl.heap = Function.update s.ctl.heap i g)
    (hlisteners : ctl.listeners = Function.update s.ctl.listeners
      s.ctl.listened ⟨group, i, addr⟩)
    (hlistened : ctl.listened = s.ctl.listened + 1)
    (hgroups : ctl.groups = s.ctl.groups) :
    ((s.setCtl ctl).setPc s.ctl.listened .live).Inv := by
  have hold : ∀ ln, ln < s.ctl.listened →
      ctl.listeners ln = s.ctl.listeners ln := by
    intro ln hln
    rw [hlisteners, Function.update_of_ne (Nat.ne_of_lt hln)]
  constructor
  · exact hcoherent
  · intro ln hpc
    show ln < ctl.listened ∧ (ctl.heap (ctl.listeners ln).group).mu = true
    by_cases hnew : ln = s.ctl.listened
    · simp [setPc, hnew] at hpc
    · simp only [setPc, State.setCtl, Function.update_of_ne hnew] at hpc
      obtain ⟨hln, hmu⟩ := hinv.removing ln hpc
      have hother : (s.ctl.listeners ln).group ≠ i := by
        intro hsame
        rw [groupOf, hsame, hunlocked] at hmu
        cases hmu
      rw [hold ln hln, hheap, hlistened, Function.update_of_ne hother]
      exact ⟨Nat.lt_succ_of_lt hln, hmu⟩
  · intro ln ln' hpc hpc' hsame
    by_cases hnew : ln = s.ctl.listened
    · simp [setPc, hnew] at hpc
    by_cases hnew' : ln' = s.ctl.listened
    · simp [setPc, hnew'] at hpc'
    simp only [setPc, State.setCtl, Function.update_of_ne hnew] at hpc
    simp only [setPc, State.setCtl, Function.update_of_ne hnew'] at hpc'
    apply hinv.alone ln ln' hpc hpc'
    rw [← hold ln (hinv.removing ln hpc).1,
      ← hold ln' (hinv.removing ln' hpc').1]
    exact hsame
  · intro call args j hcall
    simp only [setPc, State.setCtl, hgroups]
    exact hinv.called call args j hcall

/-- A group that is not stored has no members, so a permitted call that comes to
it is refused. -/
theorem Inv.stored_of_listen [Inhabited Real]
    {kind : GroupKind Req Real Env Other} {s : State Req Real Env}
    (hinv : s.Inv) {call : Nat} {args : ListenArgs Req} {i : Nat}
    (hcall : s.calls call = .found args i)
    (hdispatch : kind.dispatch args.req = .ok ())
    (hpermitted : s.ctl.groups args.group = some i ∨
      refuses kind s.ctl.env args.req = true) {ln : Nat}
    (hok : (s.ctl.listen kind i args.group args.groupKey args.req).2 = .ok ln) :
    s.ctl.groups args.group = some i := by
  rcases hpermitted with hstored | hrefuses
  · exact hstored
  · by_contra hunstored
    have hempty : (s.ctl.heap i).lns = [] := by
      by_contra hnonempty
      have hgroup := (hinv.coherent.sound i).stored (Or.inl hnonempty)
      have hname := hinv.called call args i hcall _ hgroup
      rw [hname] at hgroup
      exact hunstored hgroup
    rw [refuses, hdispatch] at hrefuses
    simp only [ListenCtl.listen, hempty] at hok
    rcases hreal : kind.realListen s.ctl.env args.req with ⟨env, err | real⟩
    · simp [hreal] at hok
    · simp [hreal] at hrefuses

theorem Inv.listen [Inhabited Real] {kind : GroupKind Req Real Env Other}
    {s s' : State Req Real Env} (hinv : s.Inv) (hkept : s.Kept) {call : Nat}
    (hpermitted : Permitted kind s (.listen call))
    (hstep : ListenGroups.step kind s (.listen call) = some s') : s'.Inv := by
  obtain ⟨args, i, hcall, hends⟩ := listen_cases hstep
  have hdone : ∀ {t : State Req Real Env} (pc : Call Req Real),
      (∀ args i, pc ≠ .found args i) → t.Inv → (t.setCall call pc).Inv :=
    fun pc hpc ht => ht.setCall call pc
      fun args' i' heq => absurd heq (hpc args' i')
  obtain ⟨err, -, rfl⟩ |
    ⟨hdispatch, hmu, ctl, result, hresult, hlistens, rfl⟩ := hends
  · exact hdone _ (by simp) hinv
  simp only [Permitted, hcall] at hpermitted
  have hstored : ∀ ln, result = .ok ln →
      s.ctl.groups args.group = some i := by
    rintro ln rfl
    exact hinv.stored_of_listen hcall hdispatch hpermitted
      (congrArg Prod.snd hresult)
  have hcoherent := hinv.coherent.listens hmu hstored hlistens
  cases hlistens with
  | refused hempty hlisten => exact hdone _ (by simp) (hinv.setEnv hkept _)
  | founded hempty hlisten =>
      exact hdone _ (by simp) (hinv.addListener hcoherent hmu rfl rfl rfl rfl)
  | mismatched hnonempty hadmits => exact hdone _ (by simp) hinv
  | joined hnonempty hadmits =>
      exact hdone _ (by simp) (hinv.addListener hcoherent hmu rfl rfl rfl rfl)

theorem Inv.close {s : State Req Real Env} (hinv : s.Inv) (ln : Nat) :
    (s.setPc ln .closing).Inv where
  coherent := hinv.coherent
  removing other hpc := by
    by_cases hsame : other = ln
    · simp [setPc, hsame] at hpc
    · simp only [setPc, Function.update_of_ne hsame] at hpc
      exact hinv.removing other hpc
  alone left right hleft hright := by
    by_cases hl : left = ln
    · simp [setPc, hl] at hleft
    by_cases hr : right = ln
    · simp [setPc, hr] at hright
    simp only [setPc, Function.update_of_ne hl] at hleft
    simp only [setPc, Function.update_of_ne hr] at hright
    exact hinv.alone left right hleft hright
  called := hinv.called

/-- The rule for a listener that leaves the members of its group: no other
listener of the group is `removing`. -/
theorem Inv.leave {s : State Req Real Env} (hinv : s.Inv) {ln i : Nat}
    {ctl : ListenCtl Real Env} {g : ListenGroup Real} {pc : ListenerPc}
    (hcoherent : ctl.Coherent) (hgroup : (s.ctl.listeners ln).group = i)
    (hmember : ln ∈ (s.ctl.heap i).lns)
    (hheap : ctl.heap = Function.update s.ctl.heap i g)
    (hpc : pc = .closed ∨ (pc = .removing ∧ g.mu = true))
    (hlisteners : ctl.listeners = s.ctl.listeners)
    (hlistened : ctl.listened = s.ctl.listened)
    (hgroups : ctl.groups = s.ctl.groups) :
    ((s.setCtl ctl).setPc ln pc).Inv := by
  have hunlocked : (s.ctl.heap i).mu = false :=
    (hinv.coherent.sound i).mu_eq_false (List.ne_nil_of_mem hmember)
  have hbusy : ∀ other, s.pcs other = .removing →
      (s.ctl.listeners other).group ≠ i := by
    intro other hother hsame
    have hmu := (hinv.removing other hother).2
    rw [groupOf, hsame, hunlocked] at hmu
    cases hmu
  constructor
  · exact hcoherent
  · intro other hother
    show other < ctl.listened ∧ (ctl.heap (ctl.listeners other).group).mu = true
    rw [hlisteners, hlistened, hheap]
    by_cases hsame : other = ln
    · rcases hpc with rfl | ⟨rfl, hmu⟩
      · simp [setPc, hsame] at hother
      · rw [hsame, hgroup, Function.update_self]
        exact ⟨((hinv.coherent.sound i).member ln hmember).1, hmu⟩
    · simp only [setPc, State.setCtl, Function.update_of_ne hsame] at hother
      rw [Function.update_of_ne (hbusy other hother)]
      exact hinv.removing other hother
  · intro left right hleft hright hsame
    simp only [setPc, State.setCtl, hlisteners] at hleft hright hsame
    by_cases hl : left = ln
    · by_cases hr : right = ln
      · rw [hl, hr]
      · rw [Function.update_of_ne hr] at hright
        rw [hl, hgroup] at hsame
        exact absurd hsame.symm (hbusy right hright)
    · rw [Function.update_of_ne hl] at hleft
      by_cases hr : right = ln
      · rw [hr, hgroup] at hsame
        exact absurd hsame (hbusy left hleft)
      · rw [Function.update_of_ne hr] at hright
        exact hinv.alone left right hleft hright hsame
  · intro call args j hcall
    simp only [setPc, State.setCtl, hgroups]
    exact hinv.called call args j hcall

theorem Inv.closeListener [Inhabited Real]
    {kind : GroupKind Req Real Env Other} {s s' : State Req Real Env}
    (hinv : s.Inv) (hkept : s.Kept) {ln : Nat}
    (hstep : ListenGroups.step kind s (.closeListener ln) = some s') :
    s'.Inv := by
  obtain ⟨hclosing, ctl, closeEnd, hcloses, rfl⟩ := closeListener_cases hstep
  obtain ⟨_, hmember⟩ := hkept.member ln (Or.inr hclosing)
  have hkeeps := hinv.coherent.not_panicked hmember hcloses
  have hcoherent := hinv.coherent.closes hmember hcloses
  cases hcloses with
  | left hmore =>
      exact hinv.leave hcoherent rfl hmember rfl (Or.inl rfl) rfl rfl rfl
  | last hnone _ _ =>
      exact hinv.leave hcoherent rfl hmember rfl (Or.inr ⟨rfl, rfl⟩) rfl rfl rfl
  | panicked => exact absurd rfl hkeeps

theorem Inv.removeGroup {s : State Req Real Env} (hinv : s.Inv) {ln : Nat}
    (hpc : s.pcs ln = .removing) :
    ((s.setCtl (s.ctl.finishClose (s.ctl.listeners ln).group)).setPc ln
      .closed).Inv := by
  obtain ⟨_, hlocked⟩ := hinv.removing ln hpc
  constructor
  · exact hinv.coherent.finishClose hlocked
  · intro other hother
    by_cases hsame : other = ln
    · simp [setPc, hsame] at hother
    · simp only [setPc, State.setCtl, Function.update_of_ne hsame] at hother
      have hgroup : (s.ctl.listeners other).group ≠
          (s.ctl.listeners ln).group :=
        fun heq => hsame (hinv.alone other ln hother hpc heq)
      simp only [groupOf, setPc, State.setCtl, ListenCtl.finishClose,
        ListenCtl.removeGroup, ListenCtl.setGroup,
        Function.update_of_ne hgroup]
      exact hinv.removing other hother
  · intro left right hleft hright hgroup
    by_cases hl : left = ln
    · simp [setPc, hl] at hleft
    by_cases hr : right = ln
    · simp [setPc, hr] at hright
    simp only [setPc, State.setCtl, Function.update_of_ne hl] at hleft
    simp only [setPc, State.setCtl, Function.update_of_ne hr] at hright
    exact hinv.alone left right hleft hright hgroup
  · intro call args i hcall group hstored
    apply hinv.called call args i hcall group
    simp only [setPc, State.setCtl, ListenCtl.finishClose,
      ListenCtl.removeGroup, ListenCtl.setGroup, Function.update_apply]
      at hstored
    split at hstored
    · cases hstored
    · exact hstored

theorem Inv.step [Inhabited Real] {kind : GroupKind Req Real Env Other}
    {s s' : State Req Real Env} {action : Action Req Other} (hinv : s.Inv)
    (hkept : s.Kept) (hpermitted : Permitted kind s action)
    (hstep : ListenGroups.step kind s action = some s') : s'.Inv := by
  cases action with
  | lookup call args =>
      obtain ⟨-, rfl⟩ := lookup_cases hstep
      exact hinv.lookup hkept call args
  | listen call => exact hinv.listen hkept hpermitted hstep
  | close ln =>
      obtain ⟨-, rfl⟩ | rfl := close_cases hstep
      · exact hinv.close ln
      · exact hinv
  | closeListener ln => exact hinv.closeListener hkept hstep
  | removeGroup ln =>
      obtain ⟨hremoving, rfl⟩ := removeGroup_cases hstep
      exact hinv.removeGroup hremoving
  | other act =>
      obtain ⟨env, -, rfl⟩ := other_cases hstep
      exact hinv.setEnv hkept env

theorem usable_of_permitted [Inhabited Real]
    {kind : GroupKind Req Real Env Other} {env : Env}
    {word : List (Action Req Other)} {s : State Req Real Env}
    (hrun : (system kind env).Run (Permitted kind) word s) : s.Usable := by
  obtain ⟨hinv, hkept⟩ : s.Inv ∧ s.Kept := by
    refine @System.Run.invariant _ _ _ _ (fun s => s.Inv ∧ s.Kept)
      ⟨inv_init env, kept_init env⟩ ?_ _ _ hrun
    intro state action next hboth hpermitted hstep
    exact ⟨hboth.1.step hboth.2 hpermitted hstep, hboth.2.step hstep⟩
  exact hinv.usable hkept

end State

/-- The listeners of both kinds are usable in every run in which no call joins a
group that has been removed since its lookup. -/
theorem usable_of_run (env : TCPPorts) (v : Muxer) :
    (∀ (word : List (Action TCPRequest TCPPorts.Other))
      (s : State TCPRequest TCPReal TCPPorts),
      (system TCPGroup.kind env).Run (Permitted TCPGroup.kind) word s →
      s.Usable) ∧
    ∀ (word : List (Action TCPMuxRequest Muxer.Other))
      (s : State TCPMuxRequest TCPMuxReal Muxer),
      (system TCPMuxGroup.kind v).Run (Permitted TCPMuxGroup.kind) word s →
      s.Usable :=
  ⟨fun _ _ hrun => State.usable_of_permitted hrun,
    fun _ _ hrun => State.usable_of_permitted hrun⟩

/-- All ports are available, and the system listens where it is asked to. -/
def quietPorts : TCPPorts :=
  .newPorts {6000} (fun _ => true) .ascending fun _ _ => .ok 40000

def webListen (proxyName : String) : ListenArgs TCPRequest :=
  ⟨"web", "key", ⟨proxyName, "0.0.0.0", 6000⟩⟩

def muxListen : ListenArgs TCPMuxRequest :=
  ⟨"web", "key", TCPMuxGroup.httpConnectTCPMultiplexer,
    ⟨ascii "a.org", [], [], [], [], [], [], none⟩⟩

/-- Two calls at the same time, and the first listener is closed. -/
def twoMembers {Req Other : Type} (first second : ListenArgs Req) :
    List (Action Req Other) :=
  [.lookup 0 first, .lookup 1 second, .listen 1, .listen 0, .close 0,
    .closeListener 0]

theorem usable_of_run_twoMembers :
    (∃ s, (system TCPGroup.kind quietPorts).Run (Permitted TCPGroup.kind)
      (twoMembers (webListen "a") (webListen "b")) s ∧
      (∃ g, s.calls 0 = .returned 1 g) ∧ s.pcs 1 = .live ∧ s.Usable) ∧
    ∃ s, (system TCPMuxGroup.kind (.newRouters MuxListener)).Run
      (Permitted TCPMuxGroup.kind) (twoMembers muxListen muxListen) s ∧
      (∃ g, s.calls 0 = .returned 1 g) ∧ s.pcs 1 = .live ∧ s.Usable := by
  obtain ⟨s, hrun, hcall, hlive⟩ :
      ∃ s, (system TCPGroup.kind quietPorts).Run (Permitted TCPGroup.kind)
        (twoMembers (webListen "a") (webListen "b")) s ∧
        (∃ g, s.calls 0 = .returned 1 g) ∧ s.pcs 1 = .live :=
    ⟨_, System.run_of_replay rfl, ⟨_, rfl⟩, rfl⟩
  obtain ⟨t, hrun', hcall', hlive'⟩ :
      ∃ s, (system TCPMuxGroup.kind (.newRouters MuxListener)).Run
        (Permitted TCPMuxGroup.kind) (twoMembers muxListen muxListen) s ∧
        (∃ g, s.calls 0 = .returned 1 g) ∧ s.pcs 1 = .live :=
    ⟨_, System.run_of_replay rfl, ⟨_, rfl⟩, rfl⟩
  have husable := usable_of_run quietPorts (.newRouters MuxListener)
  exact ⟨⟨s, hrun, hcall, hlive, husable.1 _ s hrun⟩,
    ⟨t, hrun', hcall', hlive', husable.2 _ t hrun'⟩⟩

/-- The last member closes between the two sections of another call. -/
def orphanedGroup {Req Other : Type} (first second : ListenArgs Req) :
    List (Action Req Other) :=
  [.lookup 0 first, .listen 0, .lookup 1 second, .close 0, .closeListener 0,
    .removeGroup 0, .listen 1]

/-- The listener that is then returned belongs to a group that is not stored,
and the channel of the group is closed. -/
theorem not_usable_orphanedGroup :
    (∃ s, (system TCPGroup.kind quietPorts).Reaches
      (orphanedGroup (webListen "a") (webListen "b")) s ∧
      (s.groupOf 1).acceptCh = .closed ∧ ¬ s.Usable) ∧
    ∃ s, (system TCPMuxGroup.kind (.newRouters MuxListener)).Reaches
      (orphanedGroup muxListen muxListen) s ∧
      (s.groupOf 1).acceptCh = .closed ∧ ¬ s.Usable := by
  constructor
  · obtain ⟨s, hreaches, ⟨g, hcall⟩, hlive, hclosed⟩ :
        ∃ s, (system TCPGroup.kind quietPorts).Reaches
          (orphanedGroup (webListen "a") (webListen "b")) s ∧
          (∃ g, s.calls 1 = .returned 1 g) ∧ s.pcs 1 = .live ∧
          (s.groupOf 1).acceptCh = .closed :=
      ⟨_, System.reaches_of_exec rfl, ⟨_, rfl⟩, rfl, rfl⟩
    refine ⟨s, hreaches, hclosed, fun husable => ?_⟩
    have hopened := (husable.usable 1 1 g hcall hlive).2.1
    rw [hclosed] at hopened
    cases hopened
  · obtain ⟨s, hreaches, ⟨g, hcall⟩, hlive, hclosed⟩ :
        ∃ s, (system TCPMuxGroup.kind (.newRouters MuxListener)).Reaches
          (orphanedGroup muxListen muxListen) s ∧
          (∃ g, s.calls 1 = .returned 1 g) ∧ s.pcs 1 = .live ∧
          (s.groupOf 1).acceptCh = .closed :=
      ⟨_, System.reaches_of_exec rfl, ⟨_, rfl⟩, rfl, rfl⟩
    refine ⟨s, hreaches, hclosed, fun husable => ?_⟩
    have hopened := (husable.usable 1 1 g hcall hlive).2.1
    rw [hclosed] at hopened
    cases hopened

end ListenGroups

end Frp
