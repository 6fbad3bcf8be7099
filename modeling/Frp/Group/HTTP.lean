/-
The groups of http proxies of `server/group/http.go`.  All members of a group
share one route, which leads to the group and not to the member that came first.
-/
import Mathlib.Data.Finmap
import Frp.Vhost.RouteMap

namespace Frp

open GoStrings

/-- A connection as a `CreateConnFunc` names it: made by a proxy, or left to the
members of a group. -/
inductive RealConn where
  | proxy (name remoteAddr : Bytes)
  | group (i : Nat) (remoteAddr : Bytes)
deriving DecidableEq, Repr

abbrev CreateConnFunc := Bytes → Except Bytes RealConn

/-- `GetRealConn` of the proxy. -/
def proxyConn (name : Bytes) : CreateConnFunc :=
  fun remoteAddr => .ok (.proxy name remoteAddr)

/-- `createConn` of the group. -/
def groupConn (i : Nat) : CreateConnFunc :=
  fun remoteAddr => .ok (.group i remoteAddr)

theorem groupConn_injective : Function.Injective groupConn := by
  intro i j heq
  have hconn := congrFun heq []
  simpa [groupConn] using hconn

theorem proxyConn_ne_groupConn (name : Bytes) (i : Nat) :
    proxyConn name ≠ groupConn i := by
  intro heq
  have hconn := congrFun heq []
  simp [proxyConn, groupConn] at hconn

inductive GroupError where
  | authFailed
  | paramsInvalid
  | listenerClosed
  | differentPort
  | proxyRepeated
deriving DecidableEq, Repr

def GroupError.text : GroupError → String
  | .authFailed => "group auth failed"
  | .paramsInvalid => "group params invalid"
  | .listenerClosed => "group listener closed"
  | .differentPort => "group should have same remote port"
  | .proxyRepeated => "group proxy repeated"

/-- Why `Register` fails. -/
inductive HTTPGroupError where
  | group (err : GroupError)
  | router (err : RouterError)
deriving DecidableEq, Repr

structure HTTPGroup where
  group : Bytes
  groupKey : Bytes
  domain : Bytes
  location : Bytes
  routeByHTTPUser : Bytes
  createFuncs : Finmap fun _ : Bytes => Option CreateConnFunc
  pxyNames : List Bytes
  index : UInt64

namespace HTTPGroup

def newHTTPGroup : HTTPGroup where
  group := []
  groupKey := []
  domain := []
  location := []
  routeByHTTPUser := []
  createFuncs := ∅
  pxyNames := []
  index := 0

/-- The triple of the shared route. -/
def key (g : HTTPGroup) : RouteKey := ⟨g.domain, g.location, g.routeByHTTPUser⟩

/-- The names of the members, read off `createFuncs`. -/
def members (g : HTTPGroup) : Finset Bytes := g.createFuncs.keys

/-- What `Register` asks of a proxy that is not the first in the group. -/
def admits (g : HTTPGroup) (group groupKey : Bytes)
    (routeConfig : RouteConfig RealConn) : Except GroupError Unit :=
  if g.group ≠ group ∨ g.domain ≠ routeConfig.domain ∨
      g.location ≠ routeConfig.location ∨
      g.routeByHTTPUser ≠ routeConfig.routeByHTTPUser then
    .error .paramsInvalid
  else if g.groupKey ≠ groupKey then .error .authFailed
  else .ok ()

/-- The first proxy makes the group what it is. -/
def found (g : HTTPGroup) (group groupKey : Bytes)
    (routeConfig : RouteConfig RealConn) : HTTPGroup :=
  { g with
    group := group
    groupKey := groupKey
    domain := routeConfig.domain
    location := routeConfig.location
    routeByHTTPUser := routeConfig.routeByHTTPUser }

/-- The end of `Register`. -/
def addMember (g : HTTPGroup) (proxyName : Bytes)
    (createConnFn : Option CreateConnFunc) : Except GroupError HTTPGroup :=
  if proxyName ∈ g.createFuncs then .error .proxyRepeated
  else .ok { g with
    createFuncs := g.createFuncs.insert proxyName createConnFn
    pxyNames := g.pxyNames ++ [proxyName] }

/-- The loop over `pxyNames` stops at the first that has the name. -/
def removeMember (g : HTTPGroup) (proxyName : Bytes) : HTTPGroup :=
  { g with
    createFuncs := g.createFuncs.erase proxyName
    pxyNames := g.pxyNames.erase proxyName }

/-- `createConn` with an `int` of so many bits: the member whose turn it is makes
the connection.  There is no result when the index is out of range. -/
def createConn (intBits : Nat) (g : HTTPGroup) (remoteAddr : Bytes) :
    HTTPGroup × Option (Except Bytes RealConn) :=
  let newIndex := g.index + 1
  let next := { g with index := newIndex }
  let err := ascii "no CreateConnFunc for http group [" ++ g.group ++
    ascii "], domain [" ++ g.domain ++ ascii "], location [" ++ g.location ++
    ascii "], routeByHTTPUser [" ++ g.routeByHTTPUser ++ ascii "]"
  if g.pxyNames.length = 0 then (next, some (.error err))
  else
    let turn := (BitVec.ofNat intBits newIndex.toNat).toInt.tmod
      g.pxyNames.length
    if turn < 0 then (next, none)
    else
      match g.pxyNames[turn.toNat]? with
      | none => (next, none)
      | some name =>
          match (g.createFuncs.lookup name).join with
          | none => (next, some (.error err))
          | some createConnFn => (next, some (createConnFn remoteAddr))

/-- `pxyNames` lists the keys of `createFuncs`, each once. -/
structure Listed (g : HTTPGroup) : Prop where
  nodup : g.pxyNames.Nodup
  names : g.pxyNames.toFinset = g.members

theorem listed_newHTTPGroup : newHTTPGroup.Listed where
  nodup := List.nodup_nil
  names := rfl

theorem mem_members {g : HTTPGroup} {proxyName : Bytes} :
    proxyName ∈ g.members ↔ proxyName ∈ g.createFuncs := Finmap.mem_keys

theorem members_of_addMember {g g' : HTTPGroup} {proxyName : Bytes}
    {createConnFn : Option CreateConnFunc}
    (hadd : g.addMember proxyName createConnFn = .ok g') :
    proxyName ∉ g.members ∧ g'.members = insert proxyName g.members ∧
      g'.pxyNames = g.pxyNames ++ [proxyName] ∧ g'.key = g.key := by
  unfold addMember at hadd
  split at hadd
  · cases hadd
  · next hnew =>
      cases hadd
      refine ⟨by rwa [mem_members], ?_, rfl, rfl⟩
      ext name
      simp [mem_members, Finmap.mem_insert]

@[simp] theorem key_removeMember (g : HTTPGroup) (proxyName : Bytes) :
    (g.removeMember proxyName).key = g.key := rfl

theorem members_removeMember (g : HTTPGroup) (proxyName : Bytes) :
    (g.removeMember proxyName).members = g.members.erase proxyName := by
  ext name
  simp [mem_members, removeMember, Finmap.mem_erase]

theorem Listed.addMember {g g' : HTTPGroup} (hlisted : g.Listed)
    {proxyName : Bytes} {createConnFn : Option CreateConnFunc}
    (hadd : g.addMember proxyName createConnFn = .ok g') : g'.Listed := by
  obtain ⟨hnew, hmembers, hnames, _⟩ := members_of_addMember hadd
  rw [← hlisted.names, List.mem_toFinset] at hnew
  constructor
  · rw [hnames, List.nodup_append]
    refine ⟨hlisted.nodup, List.nodup_singleton _, ?_⟩
    intro name hname other hother
    rw [List.mem_singleton] at hother
    rintro rfl
    exact hnew (hother ▸ hname)
  · rw [hnames, hmembers, List.toFinset_append, hlisted.names]
    ext name
    simp

theorem Listed.removeMember {g : HTTPGroup} (hlisted : g.Listed)
    (proxyName : Bytes) : (g.removeMember proxyName).Listed where
  nodup := hlisted.nodup.erase proxyName
  names := by
    rw [members_removeMember, ← hlisted.names]
    ext name
    simp only [HTTPGroup.removeMember, List.mem_toFinset, Finset.mem_erase]
    exact hlisted.nodup.mem_erase_iff

end HTTPGroup

/-- The groups by name, on a heap since a call may still hold a group that is
no longer stored.  The route table is shared with the plain http proxies. -/
structure HTTPGroupController where
  groups : Bytes → Option Nat
  heap : Nat → HTTPGroup
  made : Nat
  vhostRouter : HTTPReverseProxy RealConn

namespace HTTPGroupController

def newHTTPGroupController (vhostRouter : HTTPReverseProxy RealConn) :
    HTTPGroupController :=
  ⟨fun _ => none, fun _ => .newHTTPGroup, 0, vhostRouter⟩

def setGroup (ctl : HTTPGroupController) (i : Nat) (g : HTTPGroup) :
    HTTPGroupController :=
  { ctl with heap := Function.update ctl.heap i g }

/-- What `Register` does under the lock of the controller. -/
def lookup (ctl : HTTPGroupController) (group : Bytes) :
    HTTPGroupController × Nat :=
  match ctl.groups group with
  | some i => (ctl, i)
  | none =>
      ({ ctl.setGroup ctl.made .newHTTPGroup with
          groups := Function.update ctl.groups group (some ctl.made)
          made := ctl.made + 1 }, ctl.made)

/-- The end of `HTTPGroup.Register` on group `i`, which is now `g`. -/
def enter (ctl : HTTPGroupController) (i : Nat) (g : HTTPGroup)
    (proxyName : Bytes) (createConnFn : Option CreateConnFunc) :
    HTTPGroupController × Except HTTPGroupError Unit :=
  match g.addMember proxyName createConnFn with
  | .error err => (ctl.setGroup i g, .error (.group err))
  | .ok g => (ctl.setGroup i g, .ok ())

/-- `HTTPGroup.Register`, under the lock of group `i`. -/
def join (ctl : HTTPGroupController) (i : Nat)
    (proxyName group groupKey : Bytes) (routeConfig : RouteConfig RealConn) :
    HTTPGroupController × Except HTTPGroupError Unit :=
  let g := ctl.heap i
  if g.members = ∅ then
    let tmp := { routeConfig with createConnFn := some (groupConn i) }
    match ctl.vhostRouter.register tmp with
    | .error err => (ctl, .error (.router err))
    | .ok vhostRouter =>
        { ctl with vhostRouter := vhostRouter }.enter i
          (g.found group groupKey routeConfig) proxyName
          routeConfig.createConnFn
  else
    match g.admits group groupKey routeConfig with
    | .error err => (ctl, .error (.group err))
    | .ok () => ctl.enter i g proxyName routeConfig.createConnFn

/-- A `Register` that no other call interrupts. -/
def register (ctl : HTTPGroupController) (proxyName group groupKey : Bytes)
    (routeConfig : RouteConfig RealConn) :
    HTTPGroupController × Except HTTPGroupError Unit :=
  let (next, i) := ctl.lookup group
  next.join i proxyName group groupKey routeConfig

/-- `HTTPGroup.UnRegister`: whether the group is empty. -/
def leave (ctl : HTTPGroupController) (i : Nat) (proxyName : Bytes) :
    HTTPGroupController × Bool :=
  let g := (ctl.heap i).removeMember proxyName
  let next := ctl.setGroup i g
  if g.members = ∅ then
    ({ next with vhostRouter := ctl.vhostRouter.del g.key }, true)
  else (next, false)

/-- `UnRegister` holds the lock of the controller all along. -/
def unRegister (ctl : HTTPGroupController) (proxyName group : Bytes) :
    HTTPGroupController :=
  match ctl.groups group with
  | none => ctl
  | some i =>
      match ctl.leave i proxyName with
      | (next, true) =>
          { next with groups := Function.update next.groups group none }
      | (next, false) => next

/-- What `Register` has done to the groups and the routes when it returns. -/
inductive Joins (ctl ctl' : HTTPGroupController) (i : Nat) (proxyName : Bytes)
    (key : RouteKey) : Except HTTPGroupError Unit → Prop where
  | rejected (err : HTTPGroupError) (hsame : ctl' = ctl) :
      Joins ctl ctl' i proxyName key (.error err)
  | founded (g : HTTPGroup) (vhostRouter : HTTPReverseProxy RealConn)
      (cfg : RouteConfig RealConn)
      (hempty : (ctl.heap i).members = ∅)
      (hfree : ctl.vhostRouter.routes key = none)
      (hadd : ctl.vhostRouter.vhostRouter.add cfg.domain cfg.location
        cfg.routeByHTTPUser cfg = .ok vhostRouter.vhostRouter)
      (hcfg : cfg.key = key) (hconn : cfg.createConnFn = some (groupConn i))
      (hmembers : g.members = {proxyName})
      (hnames : g.pxyNames = (ctl.heap i).pxyNames ++ [proxyName])
      (hkey : g.key = key)
      (hlisted : (ctl.heap i).Listed → g.Listed)
      (hnext : ctl' = { ctl.setGroup i g with vhostRouter := vhostRouter }) :
      Joins ctl ctl' i proxyName key (.ok ())
  | joined (g : HTTPGroup) (hnonempty : (ctl.heap i).members ≠ ∅)
      (hnew : proxyName ∉ (ctl.heap i).members)
      (hmembers : g.members = insert proxyName (ctl.heap i).members)
      (hnames : g.pxyNames = (ctl.heap i).pxyNames ++ [proxyName])
      (hsame : (ctl.heap i).key = key) (hkey : g.key = key)
      (hlisted : (ctl.heap i).Listed → g.Listed)
      (hnext : ctl' = ctl.setGroup i g) :
      Joins ctl ctl' i proxyName key (.ok ())

theorem Joins.groups {ctl ctl' : HTTPGroupController} {i : Nat}
    {proxyName : Bytes} {key : RouteKey} {result : Except HTTPGroupError Unit}
    (hjoins : Joins ctl ctl' i proxyName key result) :
    ctl'.groups = ctl.groups ∧ ctl'.made = ctl.made := by
  cases hjoins with
  | rejected err hsame => simp [hsame]
  | founded g vhostRouter cfg _ _ _ _ _ _ _ _ _ hnext => simp [hnext, setGroup]
  | joined g _ _ _ _ _ _ _ hnext => simp [hnext, setGroup]

/-- Nobody loses a membership. -/
theorem Joins.members {ctl ctl' : HTTPGroupController} {i : Nat}
    {proxyName : Bytes} {key : RouteKey} {result : Except HTTPGroupError Unit}
    (hjoins : Joins ctl ctl' i proxyName key result) (j : Nat) :
    (ctl.heap j).members ⊆ (ctl'.heap j).members := by
  cases hjoins with
  | rejected err hsame => simp [hsame]
  | founded g vhostRouter cfg hempty _ _ _ _ _ _ _ _ hnext =>
      by_cases hj : j = i
      · simp [hj, hempty]
      · simp [hnext, setGroup, hj]
  | joined g _ _ hmembers _ _ _ _ hnext =>
      by_cases hj : j = i
      · subst hj
        simp [hnext, setGroup, hmembers]
      · simp [hnext, setGroup, hj]

theorem Joins.member {ctl ctl' : HTTPGroupController} {i : Nat}
    {proxyName : Bytes} {key : RouteKey}
    (hjoins : Joins ctl ctl' i proxyName key (.ok ())) :
    proxyName ∈ (ctl'.heap i).members := by
  cases hjoins with
  | founded g vhostRouter cfg _ _ _ _ _ hmembers _ _ _ hnext =>
      simp [hnext, setGroup, hmembers]
  | joined g _ _ hmembers _ _ _ _ hnext => simp [hnext, setGroup, hmembers]

theorem HTTPGroup.key_of_admits {g : HTTPGroup} {group groupKey : Bytes}
    {routeConfig : RouteConfig RealConn}
    (hadmits : g.admits group groupKey routeConfig = .ok ()) :
    g.key = routeConfig.key := by
  unfold HTTPGroup.admits at hadmits
  split at hadmits
  · cases hadmits
  · next hparams =>
      simp only [not_or, not_not] at hparams
      simp [HTTPGroup.key, RouteConfig.key, hparams]

theorem setGroup_self (ctl : HTTPGroupController) (i : Nat) :
    ctl.setGroup i (ctl.heap i) = ctl := by
  simp [setGroup]

/-- The first proxy of a group registers the route as well. -/
theorem joins_of_first (ctl : HTTPGroupController) {i : Nat}
    (hempty : (ctl.heap i).members = ∅) (proxyName group groupKey : Bytes)
    (routeConfig : RouteConfig RealConn) :
    Joins ctl (ctl.join i proxyName group groupKey routeConfig).1 i proxyName
      routeConfig.key (ctl.join i proxyName group groupKey routeConfig).2 := by
  rcases ctl.vhostRouter.register_cases
      { routeConfig with createConnFn := some (groupConn i) } with
    ⟨vhostRouter, hregister, hfree, hadd⟩ | ⟨hregister, _⟩
  · have hnone : ((ctl.heap i).found group groupKey routeConfig).members = ∅ :=
      hempty
    cases hmember : ((ctl.heap i).found group groupKey routeConfig).addMember
        proxyName routeConfig.createConnFn with
    | error err =>
        unfold HTTPGroup.addMember at hmember
        rw [if_neg (by simp [← HTTPGroup.mem_members, hnone])] at hmember
        cases hmember
    | ok g =>
        obtain ⟨_, hmembers, hnames, hkey⟩ :=
          HTTPGroup.members_of_addMember hmember
        simp only [join, hempty, if_true, hregister, enter, hmember]
        refine .founded g vhostRouter _ hempty hfree hadd rfl rfl ?_ hnames
          hkey ?_ rfl
        · rw [hmembers, hnone]
          rfl
        · intro hlisted
          have hfound : ((ctl.heap i).found group groupKey
              routeConfig).Listed := ⟨hlisted.nodup, hlisted.names⟩
          exact hfound.addMember hmember
  · simp only [join, hempty, if_true, hregister]
    exact .rejected _ rfl

theorem joins_of_later (ctl : HTTPGroupController) {i : Nat}
    (hnonempty : (ctl.heap i).members ≠ ∅) (proxyName group groupKey : Bytes)
    (routeConfig : RouteConfig RealConn) :
    Joins ctl (ctl.join i proxyName group groupKey routeConfig).1 i proxyName
      routeConfig.key (ctl.join i proxyName group groupKey routeConfig).2 := by
  cases hadmits : (ctl.heap i).admits group groupKey routeConfig with
  | error err =>
      simp only [join, hnonempty, if_false, hadmits]
      exact .rejected _ rfl
  | ok _ =>
      have hkey := HTTPGroup.key_of_admits hadmits
      cases hmember : (ctl.heap i).addMember proxyName
          routeConfig.createConnFn with
      | error err =>
          simp only [join, hnonempty, if_false, hadmits, enter, hmember,
            setGroup_self]
          exact .rejected _ rfl
      | ok g =>
          obtain ⟨hnew, hmembers, hnames, hsame⟩ :=
            HTTPGroup.members_of_addMember hmember
          simp only [join, hnonempty, if_false, hadmits, enter, hmember]
          exact .joined g hnonempty hnew hmembers hnames hkey
            (hsame.trans hkey) (fun hlisted => hlisted.addMember hmember) rfl

theorem joins_of_join (ctl : HTTPGroupController) (i : Nat)
    (proxyName group groupKey : Bytes) (routeConfig : RouteConfig RealConn) :
    Joins ctl (ctl.join i proxyName group groupKey routeConfig).1 i proxyName
      routeConfig.key (ctl.join i proxyName group groupKey routeConfig).2 := by
  by_cases hempty : (ctl.heap i).members = ∅
  · exact ctl.joins_of_first hempty proxyName group groupKey routeConfig
  · exact ctl.joins_of_later hempty proxyName group groupKey routeConfig

/-- What is left of a group that a member leaves. -/
theorem unRegister_cases (ctl : HTTPGroupController) (proxyName group : Bytes)
    {i : Nat} (hstored : ctl.groups group = some i) :
    ((ctl.heap i).members.erase proxyName = ∅ ∧
      ctl.unRegister proxyName group =
        { ctl.setGroup i ((ctl.heap i).removeMember proxyName) with
          vhostRouter := ctl.vhostRouter.del (ctl.heap i).key
          groups := Function.update ctl.groups group none }) ∨
    ((ctl.heap i).members.erase proxyName ≠ ∅ ∧
      ctl.unRegister proxyName group =
        ctl.setGroup i ((ctl.heap i).removeMember proxyName)) := by
  simp only [unRegister, hstored, leave, HTTPGroup.members_removeMember]
  by_cases hempty : (ctl.heap i).members.erase proxyName = ∅
  · refine Or.inl ⟨hempty, ?_⟩
    simp only [hempty, if_true]
    rfl
  · refine Or.inr ⟨hempty, ?_⟩
    simp only [hempty, if_false]

/-- Only the proxy itself loses its membership. -/
theorem members_unRegister (ctl : HTTPGroupController)
    {proxyName group other : Bytes} (hne : other ≠ proxyName) {j : Nat}
    (hmember : other ∈ (ctl.heap j).members) :
    other ∈ ((ctl.unRegister proxyName group).heap j).members := by
  cases hstored : ctl.groups group with
  | none =>
      simp only [unRegister, hstored]
      exact hmember
  | some i =>
      have hheap : (ctl.unRegister proxyName group).heap =
          Function.update ctl.heap i
            ((ctl.heap i).removeMember proxyName) := by
        rcases ctl.unRegister_cases proxyName group hstored with
          ⟨_, hnext⟩ | ⟨_, hnext⟩
        · rw [hnext]
          rfl
        · rw [hnext]
          rfl
      rw [hheap]
      by_cases hj : j = i
      · subst hj
        rw [Function.update_self, HTTPGroup.members_removeMember]
        exact Finset.mem_erase_of_ne_of_mem hne hmember
      · rw [Function.update_of_ne hj]
        exact hmember

/-- A group with another member stays stored. -/
theorem groups_unRegister (ctl : HTTPGroupController)
    {proxyName group group' other : Bytes} {j : Nat}
    (hstored : ctl.groups group' = some j) (hne : other ≠ proxyName)
    (hmember : other ∈ (ctl.heap j).members) :
    (ctl.unRegister proxyName group).groups group' = some j := by
  cases hfound : ctl.groups group with
  | none =>
      simp only [unRegister, hfound]
      exact hstored
  | some i =>
      rcases ctl.unRegister_cases proxyName group hfound with
        ⟨hempty, hnext⟩ | ⟨_, hnext⟩
      · have hgroup : group' ≠ group := by
          rintro rfl
          rw [hstored, Option.some.injEq] at hfound
          subst hfound
          have hkept := Finset.mem_erase_of_ne_of_mem hne hmember
          rw [hempty] at hkept
          exact Finset.notMem_empty _ hkept
        simpa [hnext, hgroup] using hstored
      · simpa [hnext, setGroup] using hstored

end HTTPGroupController

end Frp
