/-
Concurrent registrations in http groups.  `HTTPGroupController.Register` lets
its lock go before it takes that of the group, so other calls may come between
the lookup of the group and the join; `UnRegister` holds both.
-/
import Frp.Lib.System
import Frp.Group.HTTPInv

namespace Frp

open GoStrings Transition

namespace HTTPGroups

/-- The arguments of a `Register`. -/
structure Registration where
  group : Bytes
  groupKey : Bytes
  routeConfig : RouteConfig RealConn

/-- How far a proxy is; one that is joining holds the group it has found. -/
inductive Call where
  | idle
  | joining (reg : Registration) (i : Nat)
  | registered (reg : Registration)

structure State where
  ctl : HTTPGroupController
  calls : Bytes → Call

/-- A proxy registers in two steps and unregisters, as often as it likes, in
one. -/
inductive Action where
  | lookup (proxyName : Bytes) (reg : Registration)
  | join (proxyName : Bytes)
  | unRegister (proxyName : Bytes)

/-- The table that plain http proxies have filled; a route in conflict is
refused. -/
def plainRoutes :
    List (Bytes × RouteConfig RealConn) → HTTPReverseProxy RealConn
  | [] => .newHTTPReverseProxy RealConn
  | (name, cfg) :: rest =>
      match (plainRoutes rest).register
          { cfg with createConnFn := some (proxyConn name) } with
      | .error _ => plainRoutes rest
      | .ok vhostRouter => vhostRouter

def init (plain : List (Bytes × RouteConfig RealConn)) : State :=
  ⟨.newHTTPGroupController (plainRoutes plain), fun _ => .idle⟩

namespace State

def setCall (s : State) (proxyName : Bytes) (call : Call) : State :=
  { s with calls := Function.update s.calls proxyName call }

end State

def step (s : State) : Action → Option State
  | .lookup proxyName reg =>
      match s.calls proxyName with
      | .idle =>
          let (ctl, i) := s.ctl.lookup reg.group
          some ({ s with ctl := ctl }.setCall proxyName (.joining reg i))
      | .joining _ _ | .registered _ => none
  | .join proxyName =>
      match s.calls proxyName with
      | .joining reg i =>
          match s.ctl.join i proxyName reg.group reg.groupKey
              reg.routeConfig with
          | (ctl, .error _) =>
              some ({ s with ctl := ctl }.setCall proxyName .idle)
          | (ctl, .ok ()) =>
              some ({ s with ctl := ctl }.setCall proxyName (.registered reg))
      | .idle | .registered _ => none
  | .unRegister proxyName =>
      match s.calls proxyName with
      | .registered reg =>
          some ({ s with ctl := s.ctl.unRegister proxyName reg.group }.setCall
            proxyName .idle)
      | .idle | .joining _ _ => none

def system (plain : List (Bytes × RouteConfig RealConn)) :
    System State Action where
  start := init plain
  step := step

namespace State

/-- No call is in progress. -/
def Quiescent (s : State) : Prop :=
  ∀ proxyName reg i, s.calls proxyName ≠ .joining reg i

structure Consistent (s : State) : Prop where
  member : ∀ proxyName reg, s.calls proxyName = .registered reg →
    ∃ i, s.ctl.groups reg.group = some i ∧
      proxyName ∈ (s.ctl.heap i).members ∧
      proxyName ∈ (s.ctl.heap i).pxyNames
  routed : ∀ group i, s.ctl.groups group = some i →
    ((∃ key, s.ctl.Routed key i) ↔ (s.ctl.heap i).members ≠ ∅)
  stored : ∀ key i, s.ctl.Routed key i → ∃ group, s.ctl.groups group = some i

end State

/-- A proxy joins the group only while it is stored, or is refused since its
route is taken. -/
def Permitted (s : State) : Action → Prop
  | .join proxyName =>
      match s.calls proxyName with
      | .joining reg i => s.ctl.groups reg.group = some i ∨
          (s.ctl.vhostRouter.routes reg.routeConfig.key).isSome = true
      | .idle | .registered _ => True
  | .lookup _ _ | .unRegister _ => True

instance (s : State) (action : Action) : Decidable (Permitted s action) :=
  match action with
  | .join proxyName =>
      match hcall : s.calls proxyName with
      | .joining reg i => decidable_of_iff (s.ctl.groups reg.group = some i ∨
          (s.ctl.vhostRouter.routes reg.routeConfig.key).isSome = true)
          (by simp [Permitted, hcall])
      | .idle | .registered _ => isTrue (by simp [Permitted, hcall])
  | .lookup _ _ | .unRegister _ => isTrue trivial

/-- The routes of plain proxies lead to no group. -/
theorem not_routed_plainRoutes (plain : List (Bytes × RouteConfig RealConn))
    (key : RouteKey) (cfg : RouteConfig RealConn)
    (hroute : (plainRoutes plain).routes key = some cfg) (i : Nat) :
    cfg.createConnFn ≠ some (groupConn i) := by
  induction plain with
  | nil => simp [plainRoutes, HTTPReverseProxy.routes, Routers.exist_eq_find,
      HTTPReverseProxy.newHTTPReverseProxy] at hroute
  | cons entry rest ih =>
      obtain ⟨name, plainCfg⟩ := entry
      rcases (plainRoutes rest).register_cases
          { plainCfg with createConnFn := some (proxyConn name) } with
        ⟨vhostRouter, hregister, _, hadd⟩ | ⟨hregister, _⟩
      · simp only [plainRoutes, hregister,
          HTTPReverseProxy.routes_of_add hadd] at hroute
        rw [Function.update_apply] at hroute
        split at hroute
        · rw [Option.some.injEq] at hroute
          subst hroute
          intro hleads
          exact proxyConn_ne_groupConn name i (Option.some.inj hleads)
        · exact ih hroute
      · simp only [plainRoutes, hregister] at hroute
        exact ih hroute

namespace State

structure Inv (s : State) : Prop where
  coherent : s.ctl.Coherent
  joining : ∀ proxyName reg i, s.calls proxyName = .joining reg i →
    i < s.ctl.made ∧ ∀ group, s.ctl.groups group = some i → group = reg.group
  member : ∀ proxyName reg, s.calls proxyName = .registered reg →
    ∃ i, s.ctl.groups reg.group = some i ∧
      proxyName ∈ (s.ctl.heap i).members

theorem inv_init (plain : List (Bytes × RouteConfig RealConn)) :
    (init plain).Inv where
  coherent := by
    apply HTTPGroupController.coherent_newHTTPGroupController
    rintro key i ⟨cfg, hroute, hleads⟩
    exact not_routed_plainRoutes plain key cfg hroute i hleads
  joining proxyName reg i hcall := by cases hcall
  member proxyName reg hcall := by cases hcall

theorem Inv.consistent {s : State} (hinv : s.Inv) : s.Consistent where
  member proxyName reg hcall := by
    obtain ⟨i, hstored, hmember⟩ := hinv.member proxyName reg hcall
    refine ⟨i, hstored, hmember, ?_⟩
    rw [← (hinv.coherent.listed i).names, List.mem_toFinset] at hmember
    exact hmember
  routed group i _ := by
    constructor
    · rintro ⟨key, hrouted⟩
      exact ((hinv.coherent.route key i).mp hrouted).1
    · intro hnonempty
      exact ⟨_, (hinv.coherent.route _ i).mpr ⟨hnonempty, rfl⟩⟩
  stored key i hrouted := by
    by_contra hunstored
    rw [not_exists] at hunstored
    exact ((hinv.coherent.route key i).mp hrouted).1
      (hinv.coherent.dropped i hunstored)

theorem Inv.lookup {s : State} (hinv : s.Inv) (proxyName : Bytes)
    (reg : Registration) :
    ({ s with ctl := (s.ctl.lookup reg.group).1 }.setCall proxyName
      (.joining reg (s.ctl.lookup reg.group).2)).Inv := by
  have hcoherent := hinv.coherent.lookup reg.group
  obtain ⟨hheap, hfound, hmade, hkept, hold⟩ :=
    hinv.coherent.lookup_spec reg.group
  constructor
  · exact hcoherent
  · intro other reg' i hcall
    by_cases hother : other = proxyName
    · simp only [setCall, hother, Function.update_self, Call.joining.injEq]
        at hcall
      obtain ⟨rfl, rfl⟩ := hcall
      exact ⟨hcoherent.below _ _ hfound, fun group hgroup =>
        hcoherent.one _ _ _ hgroup hfound⟩
    · simp only [setCall, Function.update_of_ne hother] at hcall
      obtain ⟨hbelow, hname⟩ := hinv.joining other reg' i hcall
      exact ⟨hbelow.trans_le hmade, fun group hgroup =>
        hname group (hold group i hbelow hgroup)⟩
  · intro other reg' hcall
    by_cases hother : other = proxyName
    · simp [setCall, hother] at hcall
    · simp only [setCall, Function.update_of_ne hother] at hcall
      obtain ⟨i, hstored, hmember⟩ := hinv.member other reg' hcall
      refine ⟨i, hkept _ i hstored, ?_⟩
      show other ∈ ((s.ctl.lookup reg.group).1.heap i).members
      rw [hheap]
      exact hmember

/-- A permitted join succeeds in a stored group only: one that is no longer
stored has no members, so its route has to be registered. -/
theorem Inv.stored_of_joins {s : State} (hinv : s.Inv) {proxyName : Bytes}
    {reg : Registration} {i : Nat} {ctl : HTTPGroupController}
    (hcall : s.calls proxyName = .joining reg i)
    (hpermitted : s.ctl.groups reg.group = some i ∨
      (s.ctl.vhostRouter.routes reg.routeConfig.key).isSome = true)
    (hjoins : HTTPGroupController.Joins s.ctl ctl i proxyName
      reg.routeConfig.key (.ok ())) : s.ctl.groups reg.group = some i := by
  rcases hpermitted with hstored | htaken
  · exact hstored
  · by_contra hunstored
    have hempty : (s.ctl.heap i).members = ∅ := by
      apply hinv.coherent.dropped
      intro group hgroup
      obtain rfl := (hinv.joining proxyName reg i hcall).2 group hgroup
      exact hunstored hgroup
    cases hjoins with
    | founded g vhostRouter cfg _ hfree =>
        rw [hfree] at htaken
        cases htaken
    | joined g hnonempty => exact hnonempty hempty

theorem Inv.join {s : State} (hinv : s.Inv) {proxyName : Bytes}
    {reg : Registration} {i : Nat} {ctl : HTTPGroupController} {call : Call}
    {result : Except HTTPGroupError Unit}
    (hstored : result = .ok () → s.ctl.groups reg.group = some i)
    (hjoins : HTTPGroupController.Joins s.ctl ctl i proxyName
      reg.routeConfig.key result)
    (hcall : call = .idle ∨ (call = .registered reg ∧ result = .ok ())) :
    ({ s with ctl := ctl }.setCall proxyName call).Inv := by
  obtain ⟨hgroups, hmade⟩ := hjoins.groups
  constructor
  · exact hinv.coherent.joins (fun hok => ⟨_, hstored hok⟩) hjoins
  · intro other reg' i' hother
    by_cases hname : other = proxyName
    · rcases hcall with rfl | ⟨rfl, _⟩ <;>
        simp [setCall, hname] at hother
    · simp only [setCall, Function.update_of_ne hname] at hother
      simp only [setCall, hgroups, hmade]
      exact hinv.joining other reg' i' hother
  · intro other reg' hother
    simp only [setCall, hgroups]
    by_cases hname : other = proxyName
    · rcases hcall with rfl | ⟨rfl, rfl⟩
      · simp [setCall, hname] at hother
      · simp only [setCall, hname, Function.update_self,
          Call.registered.injEq] at hother
        subst hname hother
        exact ⟨i, hstored rfl, hjoins.member⟩
    · simp only [setCall, Function.update_of_ne hname] at hother
      obtain ⟨i', hstored', hmember⟩ := hinv.member other reg' hother
      exact ⟨i', hstored', hjoins.members i' hmember⟩

theorem Inv.unRegister {s : State} (hinv : s.Inv) {proxyName : Bytes}
    {reg : Registration} (hcall : s.calls proxyName = .registered reg) :
    ({ s with ctl := s.ctl.unRegister proxyName reg.group }.setCall proxyName
      .idle).Inv := by
  obtain ⟨i, hstored, hmember⟩ := hinv.member proxyName reg hcall
  constructor
  · exact hinv.coherent.unRegister hstored hmember
  · intro other reg' i' hother
    by_cases hname : other = proxyName
    · simp [setCall, hname] at hother
    · simp only [setCall, Function.update_of_ne hname] at hother
      obtain ⟨hbelow, hgroup⟩ := hinv.joining other reg' i' hother
      rcases s.ctl.unRegister_cases proxyName reg.group hstored with
        ⟨_, hnext⟩ | ⟨_, hnext⟩
      · simp only [setCall, hnext]
        refine ⟨hbelow, fun group hfound => hgroup group ?_⟩
        by_cases hsame : group = reg.group
        · simp [hsame] at hfound
        · simpa [hsame] using hfound
      · simp only [setCall, hnext]
        exact ⟨hbelow, hgroup⟩
  · intro other reg' hother
    by_cases hname : other = proxyName
    · simp [setCall, hname] at hother
    · simp only [setCall, Function.update_of_ne hname] at hother
      obtain ⟨i', hstored', hmember'⟩ := hinv.member other reg' hother
      exact ⟨i', s.ctl.groups_unRegister hstored' hname hmember',
        s.ctl.members_unRegister hname hmember'⟩

theorem Inv.step {s s' : State} {action : Action} (hinv : s.Inv)
    (hpermitted : Permitted s action)
    (hstep : HTTPGroups.step s action = some s') : s'.Inv := by
  cases action with
  | lookup proxyName reg =>
      cases hcall : s.calls proxyName with
      | idle =>
          simp only [HTTPGroups.step, hcall, Option.some.injEq] at hstep
          subst hstep
          exact hinv.lookup proxyName reg
      | joining | registered => simp [HTTPGroups.step, hcall] at hstep
  | join proxyName =>
      cases hcall : s.calls proxyName with
      | joining reg i =>
          have hjoins := s.ctl.joins_of_join i proxyName reg.group reg.groupKey
            reg.routeConfig
          simp only [Permitted, hcall] at hpermitted
          simp only [HTTPGroups.step, hcall] at hstep
          split at hstep
          · next ctl err hjoin =>
              rw [hjoin] at hjoins
              cases hstep
              exact hinv.join (fun hok => by cases hok) hjoins (Or.inl rfl)
          · next ctl hjoin =>
              rw [hjoin] at hjoins
              cases hstep
              have hstored := hinv.stored_of_joins hcall hpermitted hjoins
              exact hinv.join (fun _ => hstored) hjoins (Or.inr ⟨rfl, rfl⟩)
      | idle | registered => simp [HTTPGroups.step, hcall] at hstep
  | unRegister proxyName =>
      cases hcall : s.calls proxyName with
      | registered reg =>
          simp only [HTTPGroups.step, hcall, Option.some.injEq] at hstep
          subst hstep
          exact hinv.unRegister hcall
      | idle | joining => simp [HTTPGroups.step, hcall] at hstep

end State

/-- Members and routes are consistent in every run in which no proxy joins a
group that has been dropped since its lookup. -/
theorem consistent_of_run {plain : List (Bytes × RouteConfig RealConn)}
    {word : List Action} {s : State}
    (hrun : (system plain).Run Permitted word s) : s.Consistent := by
  have hinv : s.Inv := by
    refine System.Run.invariant (State.inv_init plain) ?_ hrun
    intro state action next hinv hpermitted hstep
    exact hinv.step hpermitted hstep
  exact hinv.consistent

def webRegistration (name : Bytes) : Registration :=
  ⟨ascii "pool", [],
    ⟨ascii "a.org", [], [], [], [], [], [], some (proxyConn name)⟩⟩

/-- Two proxies join a group at the same time, and the first leaves it. -/
def sharedGroup : List Action :=
  [.lookup [1] (webRegistration [1]), .lookup [2] (webRegistration [2]),
    .join [2], .join [1], .unRegister [1]]

theorem consistent_of_run_sharedGroup :
    ∃ s, (system []).Run Permitted sharedGroup s ∧
      s.calls [2] = .registered (webRegistration [2]) ∧ s.Consistent := by
  obtain ⟨s, hrun, hcall⟩ : ∃ s, (system []).Run Permitted sharedGroup s ∧
      s.calls [2] = .registered (webRegistration [2]) :=
    ⟨_, System.run_of_replay rfl, rfl⟩
  exact ⟨s, hrun, hcall, consistent_of_run hrun⟩

/-- The last member leaves while another proxy holds the group. -/
def orphanedGroup : List Action :=
  [.lookup [1] (webRegistration [1]), .join [1],
    .lookup [2] (webRegistration [2]), .unRegister [1], .join [2]]

/-- The proxy is then in a group that is not stored. -/
theorem not_consistent_orphanedGroup :
    ∃ s, (system []).Reaches orphanedGroup s ∧ s.Quiescent ∧
      ¬ s.Consistent := by
  obtain ⟨s, hreaches, hcalls, hgone⟩ :
      ∃ s, (system []).Reaches orphanedGroup s ∧
        s.calls = Function.update (Function.update (Function.update
          (Function.update (Function.update (fun _ => .idle)
            [1] (.joining (webRegistration [1]) 0))
            [1] (.registered (webRegistration [1])))
            [2] (.joining (webRegistration [2]) 0))
            [1] .idle) [2] (.registered (webRegistration [2])) ∧
        s.ctl.groups (ascii "pool") = none :=
    ⟨_, System.reaches_of_exec rfl, rfl, rfl⟩
  refine ⟨s, hreaches, ?_, fun hconsistent => ?_⟩
  · intro proxyName reg i hcall
    rw [hcalls] at hcall
    simp only [Function.update_apply] at hcall
    split at hcall
    · cases hcall
    · split_ifs at hcall
  · have hcall : s.calls [2] = .registered (webRegistration [2]) := by
      rw [hcalls]
      rfl
    obtain ⟨i, hstored, _⟩ := hconsistent.member [2] _ hcall
    have hgroup : s.ctl.groups (ascii "pool") = some i := hstored
    rw [hgone] at hgroup
    cases hgroup

end HTTPGroups

end Frp
