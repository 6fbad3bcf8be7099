/-
The http groups as calls one at a time leave them: under each group name the
route it has and the names of its members.
-/
import Frp.Group.HTTPInv

namespace Frp

open GoStrings

namespace HTTPGroupController

/-- The route and the members of a group that has members. -/
def roster (ctl : HTTPGroupController) (group : Bytes) :
    Option (RouteKey × List Bytes) :=
  match ctl.groups group with
  | none => none
  | some i =>
      if (ctl.heap i).pxyNames = [] then none
      else some ((ctl.heap i).key, (ctl.heap i).pxyNames)

/-- The names in the stored group. -/
def pxyNames (ctl : HTTPGroupController) (group : Bytes) : List Bytes :=
  match ctl.groups group with
  | none => []
  | some i => (ctl.heap i).pxyNames

theorem pxyNames_eq_roster (ctl : HTTPGroupController) (group : Bytes) :
    ctl.pxyNames group = ((ctl.roster group).map Prod.snd).getD [] := by
  unfold pxyNames roster
  cases ctl.groups group with
  | none => rfl
  | some i =>
      by_cases hempty : (ctl.heap i).pxyNames = []
      · simp [hempty]
      · simp [hempty]

theorem roster_eq_some_iff {ctl : HTTPGroupController} {group : Bytes}
    {key : RouteKey} {names : List Bytes} :
    ctl.roster group = some (key, names) ↔
      ∃ i, ctl.groups group = some i ∧ (ctl.heap i).key = key ∧
        (ctl.heap i).pxyNames = names ∧ names ≠ [] := by
  unfold roster
  cases ctl.groups group with
  | none => simp
  | some i =>
      simp only [Option.ite_none_left_eq_some, Option.some.injEq,
        Prod.mk.injEq, exists_eq_left']
      constructor
      · rintro ⟨hnonempty, hkey, rfl⟩
        exact ⟨hkey, rfl, hnonempty⟩
      · rintro ⟨hkey, rfl, hnonempty⟩
        exact ⟨hnonempty, hkey, rfl⟩

/-- The roster reads the stored groups only. -/
theorem roster_congr {ctl ctl' : HTTPGroupController} {group : Bytes}
    (hgroups : ctl'.groups group = ctl.groups group)
    (hheap : ∀ i, ctl.groups group = some i → ctl'.heap i = ctl.heap i) :
    ctl'.roster group = ctl.roster group := by
  unfold roster
  rw [hgroups]
  cases hstored : ctl.groups group with
  | none => rfl
  | some i => simp only [hheap i hstored]

theorem HTTPGroup.Listed.pxyNames_eq_nil_iff {g : HTTPGroup}
    (hlisted : g.Listed) : g.pxyNames = [] ↔ g.members = ∅ := by
  rw [← hlisted.names, List.toFinset_eq_empty_iff]

/-- The routes that lead to groups are those of the roster. -/
theorem Coherent.roster_of_routed {ctl : HTTPGroupController}
    (hcoherent : ctl.Coherent) {key : RouteKey} {i : Nat}
    (hrouted : ctl.Routed key i) :
    ∃ group names, ctl.roster group = some (key, names) := by
  obtain ⟨hnonempty, rfl⟩ := (hcoherent.route key i).mp hrouted
  obtain ⟨group, hstored⟩ : ∃ group, ctl.groups group = some i := by
    by_contra hunstored
    rw [not_exists] at hunstored
    exact hnonempty (hcoherent.dropped i hunstored)
  refine ⟨group, _, roster_eq_some_iff.mpr ⟨i, hstored, rfl, rfl, ?_⟩⟩
  rw [ne_eq, HTTPGroup.Listed.pxyNames_eq_nil_iff (hcoherent.listed i)]
  exact hnonempty

theorem Coherent.routed_of_roster {ctl : HTTPGroupController}
    (hcoherent : ctl.Coherent) {group : Bytes} {key : RouteKey}
    {names : List Bytes} (hroster : ctl.roster group = some (key, names)) :
    ∃ i, ctl.groups group = some i ∧ ctl.Routed key i := by
  obtain ⟨i, hstored, rfl, rfl, hnonempty⟩ := roster_eq_some_iff.mp hroster
  refine ⟨i, hstored, (hcoherent.route _ i).mpr ⟨?_, rfl⟩⟩
  rwa [ne_eq, ← HTTPGroup.Listed.pxyNames_eq_nil_iff (hcoherent.listed i)]

/-- Two groups of the roster do not share a route. -/
theorem Coherent.roster_inj {ctl : HTTPGroupController}
    (hcoherent : ctl.Coherent) {group group' : Bytes} {key : RouteKey}
    {names names' : List Bytes} (hleft : ctl.roster group = some (key, names))
    (hright : ctl.roster group' = some (key, names')) : group = group' := by
  obtain ⟨i, hi, hrouted⟩ := hcoherent.routed_of_roster hleft
  obtain ⟨j, hj, hrouted'⟩ := hcoherent.routed_of_roster hright
  obtain rfl := hrouted.inj hrouted'
  exact hcoherent.one group group' i hi hj

/-- Plain routes may come and go. -/
theorem Coherent.setRouter {ctl : HTTPGroupController}
    (hcoherent : ctl.Coherent) {vhostRouter : HTTPReverseProxy RealConn}
    (hrouted : ∀ key i, ({ ctl with vhostRouter := vhostRouter } :
      HTTPGroupController).Routed key i ↔ ctl.Routed key i) :
    ({ ctl with vhostRouter := vhostRouter } : HTTPGroupController).Coherent
    where
  fresh := hcoherent.fresh
  below := hcoherent.below
  one := hcoherent.one
  dropped := hcoherent.dropped
  route key i := (hrouted key i).trans (hcoherent.route key i)
  listed := hcoherent.listed

theorem Coherent.roster_lookup {ctl : HTTPGroupController}
    (hcoherent : ctl.Coherent) (group : Bytes) :
    (ctl.lookup group).1.roster = ctl.roster ∧
      (ctl.lookup group).1.vhostRouter = ctl.vhostRouter := by
  obtain ⟨hheap, _⟩ := hcoherent.lookup_spec group
  rcases ctl.lookup_cases group with ⟨i, _, hlookup⟩ | ⟨hnone, hlookup⟩
  · rw [hlookup]
    exact ⟨rfl, rfl⟩
  · refine ⟨?_, by rw [hlookup]; rfl⟩
    funext group'
    by_cases hgroup : group' = group
    · subst hgroup
      simp only [roster, hnone, hheap]
      simp [hlookup, hcoherent.fresh ctl.made (Nat.le_refl _),
        HTTPGroup.newHTTPGroup]
    · apply roster_congr
      · simp [hlookup, hgroup]
      · intro i _
        rw [hheap]

/-- What a `Register` does to the roster and the routes. -/
inductive Registers (ctl next : HTTPGroupController) (proxyName group : Bytes)
    (key : RouteKey) : Except HTTPGroupError Unit → Prop where
  | rejected (err : HTTPGroupError) (hroster : next.roster = ctl.roster)
      (hrouter : next.vhostRouter = ctl.vhostRouter) :
      Registers ctl next proxyName group key (.error err)
  | founded (cfg : RouteConfig RealConn) (hempty : ctl.roster group = none)
      (hfree : ctl.vhostRouter.routes key = none)
      (hroster : next.roster = Function.update ctl.roster group
        (some (key, [proxyName])))
      (hroutes : next.vhostRouter.routes =
        Function.update ctl.vhostRouter.routes key (some cfg))
      (hsorted : ctl.vhostRouter.vhostRouter.Sorted →
        next.vhostRouter.vhostRouter.Sorted) :
      Registers ctl next proxyName group key (.ok ())
  | joined (names : List Bytes) (hbefore : ctl.roster group = some (key, names))
      (hnew : proxyName ∉ names)
      (hroster : next.roster = Function.update ctl.roster group
        (some (key, names ++ [proxyName])))
      (hrouter : next.vhostRouter = ctl.vhostRouter) :
      Registers ctl next proxyName group key (.ok ())

/-- Group `i`, stored under its name, gets a new member. -/
theorem Coherent.roster_setGroup {ctl ctl' : HTTPGroupController}
    (hcoherent : ctl.Coherent) {group : Bytes} {i : Nat} {g : HTTPGroup}
    (hstored : ctl.groups group = some i) (hgroups : ctl'.groups = ctl.groups)
    (hheap : ctl'.heap = Function.update ctl.heap i g)
    (hnonempty : g.pxyNames ≠ []) :
    ctl'.roster = Function.update ctl.roster group
      (some (g.key, g.pxyNames)) := by
  funext group'
  by_cases hgroup : group' = group
  · subst hgroup
    rw [Function.update_self]
    exact roster_eq_some_iff.mpr
      ⟨i, by rw [hgroups, hstored], by simp [hheap], by simp [hheap], hnonempty⟩
  · rw [Function.update_of_ne hgroup]
    apply roster_congr
    · rw [hgroups]
    · intro j hj
      have hne : j ≠ i := by
        rintro rfl
        exact hgroup (hcoherent.one _ _ j hj hstored)
      rw [hheap, Function.update_of_ne hne]

theorem Coherent.registers_of_joins {ctl next : HTTPGroupController}
    (hcoherent : ctl.Coherent) {proxyName group : Bytes} {i : Nat}
    {key : RouteKey} {result : Except HTTPGroupError Unit}
    (hstored : ctl.groups group = some i)
    (hjoins : Joins ctl next i proxyName key result) :
    Registers ctl next proxyName group key result := by
  have hlisted := hcoherent.listed i
  have hnil := HTTPGroup.Listed.pxyNames_eq_nil_iff hlisted
  cases hjoins with
  | rejected err hsame => exact .rejected err (by rw [hsame]) (by rw [hsame])
  | founded g vhostRouter cfg hempty hfree hadd hcfg hconn _ hnames hkey _
      hnext =>
      have hroutes := HTTPReverseProxy.routes_of_add hadd
      rw [hnil.mpr hempty, List.nil_append] at hnames
      refine .founded cfg ?_ hfree ?_ ?_ ?_
      · simp [roster, hstored, hnil.mpr hempty]
      · rw [← hkey, ← hnames]
        exact hcoherent.roster_setGroup hstored (by rw [hnext]; rfl)
          (by rw [hnext]; rfl) (by simp [hnames])
      · rw [hnext, ← hcfg]
        exact hroutes
      · rw [hnext]
        exact fun hsorted => hsorted.add hadd
  | joined g hnonempty hnew _ hnames hsame hkey _ hnext =>
      refine .joined (ctl.heap i).pxyNames ?_ ?_ ?_ (by rw [hnext]; rfl)
      · refine roster_eq_some_iff.mpr ⟨i, hstored, hsame, rfl, ?_⟩
        rwa [ne_eq, hnil]
      · rwa [← List.mem_toFinset, hlisted.names]
      · rw [← hkey, ← hnames]
        exact hcoherent.roster_setGroup hstored (by rw [hnext]; rfl)
          (by rw [hnext]; rfl) (by simp [hnames])

theorem Registers.roster_ok {ctl next : HTTPGroupController}
    {proxyName group : Bytes} {key : RouteKey}
    (hregisters : Registers ctl next proxyName group key (.ok ())) :
    ∃ names, next.roster group = some (key, names) ∧ proxyName ∈ names := by
  cases hregisters with
  | founded cfg _ _ hroster =>
      exact ⟨_, by rw [hroster, Function.update_self], List.mem_cons_self⟩
  | joined names _ _ hroster =>
      exact ⟨_, by rw [hroster, Function.update_self], by simp⟩

/-- The lookup before a join does not show. -/
theorem Registers.of_same {ctl ctl' next : HTTPGroupController}
    {proxyName group : Bytes} {key : RouteKey}
    {result : Except HTTPGroupError Unit}
    (hregisters : Registers ctl' next proxyName group key result)
    (hroster : ctl'.roster = ctl.roster)
    (hrouter : ctl'.vhostRouter = ctl.vhostRouter) :
    Registers ctl next proxyName group key result := by
  cases hregisters with
  | rejected err hroster' hrouter' =>
      exact .rejected err (hroster'.trans hroster) (hrouter'.trans hrouter)
  | founded cfg hempty hfree hroster' hroutes hsorted =>
      rw [hroster] at hempty hroster'
      rw [hrouter] at hfree hroutes hsorted
      exact .founded cfg hempty hfree hroster' hroutes hsorted
  | joined names hbefore hnew hroster' hrouter' =>
      rw [hroster] at hbefore hroster'
      exact .joined names hbefore hnew hroster' (hrouter'.trans hrouter)

theorem Coherent.register {ctl : HTTPGroupController}
    (hcoherent : ctl.Coherent) (proxyName group groupKey : Bytes)
    (routeConfig : RouteConfig RealConn) :
    (ctl.register proxyName group groupKey routeConfig).1.Coherent ∧
      Registers ctl (ctl.register proxyName group groupKey routeConfig).1
        proxyName group routeConfig.key
        (ctl.register proxyName group groupKey routeConfig).2 := by
  obtain ⟨hroster, hrouter⟩ := hcoherent.roster_lookup group
  obtain ⟨_, hstored, _⟩ := hcoherent.lookup_spec group
  have hlookup := hcoherent.lookup group
  have hjoins := (ctl.lookup group).1.joins_of_join (ctl.lookup group).2
    proxyName group groupKey routeConfig
  have hregisters := hlookup.registers_of_joins hstored hjoins
  refine ⟨hlookup.joins (fun _ => ⟨group, hstored⟩) hjoins, ?_⟩
  exact hregisters.of_same hroster hrouter

/-- What an `UnRegister` of a member does. -/
theorem Coherent.roster_unRegister {ctl : HTTPGroupController}
    (hcoherent : ctl.Coherent) {proxyName group : Bytes} {key : RouteKey}
    {names : List Bytes} (hroster : ctl.roster group = some (key, names))
    (hmember : proxyName ∈ names) :
    (ctl.unRegister proxyName group).Coherent ∧
      ((names.erase proxyName = [] ∧
        (ctl.unRegister proxyName group).roster =
          Function.update ctl.roster group none ∧
        (ctl.unRegister proxyName group).vhostRouter =
          ctl.vhostRouter.del key) ∨
      (names.erase proxyName ≠ [] ∧
        (ctl.unRegister proxyName group).roster =
          Function.update ctl.roster group
            (some (key, names.erase proxyName)) ∧
        (ctl.unRegister proxyName group).vhostRouter = ctl.vhostRouter)) := by
  obtain ⟨i, hstored, rfl, rfl, _⟩ := roster_eq_some_iff.mp hroster
  have hlisted := hcoherent.listed i
  have hnil : (ctl.heap i).pxyNames.erase proxyName = [] ↔
      (ctl.heap i).members.erase proxyName = ∅ := by
    rw [← HTTPGroup.members_removeMember]
    exact HTTPGroup.Listed.pxyNames_eq_nil_iff
      (hlisted.removeMember proxyName)
  have hmember' : proxyName ∈ (ctl.heap i).members := by
    rwa [← hlisted.names, List.mem_toFinset]
  refine ⟨hcoherent.unRegister hstored hmember', ?_⟩
  rcases ctl.unRegister_cases proxyName group hstored with
    ⟨hempty, hnext⟩ | ⟨hrest, hnext⟩
  · refine Or.inl ⟨hnil.mpr hempty, ?_, by rw [hnext]⟩
    funext group'
    by_cases hgroup : group' = group
    · simp [roster, hnext, hgroup]
    · rw [Function.update_of_ne hgroup]
      apply roster_congr
      · simp [hnext, hgroup]
      · intro j hj
        have hne : j ≠ i := by
          rintro rfl
          exact hgroup (hcoherent.one _ _ j hj hstored)
        rw [hnext]
        exact Function.update_of_ne hne _ _
  · refine Or.inr ⟨by rwa [ne_eq, hnil], ?_, by rw [hnext]; rfl⟩
    have hset : (ctl.setGroup i
        ((ctl.heap i).removeMember proxyName)).roster = _ :=
      hcoherent.roster_setGroup hstored rfl rfl (by rwa [ne_eq, ← hnil] at hrest)
    rw [hnext]
    exact hset

end HTTPGroupController

end Frp
