/-
The ports of the TCP groups: what one `Listen` does to the port manager, and that
a group keeps its port until its last member closes.  The first member acquires a
port and then listens on the port that it was asked for, and when that fails
nothing is released.
-/
import Frp.Group.ListenUsable
import Frp.Group.TCPPorts

namespace Frp

open Transition

namespace TCPGroupCtl

/-- What one `Listen` should do: when it succeeds the real listener is bound to
the port that it returns, which is in use, and when it fails it leaves the ports
and the members as they were. -/
def Accounts (ctl : TCPGroupCtl) (i : Nat)
    (proxyName group groupKey addr : String) (port : Int) : Prop :=
  match ctl.listen i proxyName group groupKey addr port with
  | (ctl', .ok (_, realPort)) =>
      (ctl'.heap i).real.lnAddr.port = realPort ∧
        (ctl'.env.pm.usedPorts realPort).isSome = true
  | (ctl', .error _) =>
      ctl'.env.pm.usedPorts = ctl.env.pm.usedPorts ∧
        ctl'.env.pm.freePorts = ctl.env.pm.freePorts ∧
        (ctl'.heap i).lns = (ctl.heap i).lns

/-- For a first member: if there is a port to acquire, it is not a random port
zero, and the system listens on that very port. -/
def Bindable (env : TCPPorts) (proxyName addr : String) (port : Int) : Prop :=
  ∀ picked ∈ env.picks proxyName port,
    (env.pm.reservedPort proxyName port env.isPortAvailable = none →
      picked ≠ 0) ∧
    env.netListen addr port = .ok ⟨addr, picked⟩

instance (env : TCPPorts) (proxyName addr : String) (port : Int) :
    Decidable (Bindable env proxyName addr port) :=
  inferInstanceAs (Decidable (∀ picked ∈ env.picks proxyName port, _ ∧ _))

/-- When one `Listen` does what it should.  A later member that is let in only
has to find the group so. -/
def Accountable (ctl : TCPGroupCtl) (i : Nat)
    (proxyName group groupKey addr : String) (port : Int) : Prop :=
  if (ctl.heap i).lns = [] then Bindable ctl.env proxyName addr port
  else
    TCPGroup.admits (ctl.heap i) group groupKey ⟨proxyName, addr, port⟩ =
        .ok () →
      (ctl.heap i).real.lnAddr.port = (ctl.heap i).real.realPort ∧
        (ctl.env.pm.usedPorts (ctl.heap i).real.realPort).isSome = true

theorem netListen_eq_ok {env : TCPPorts} {addr : String} {port : Int}
    {lnAddr : TCPAddr} (hlisten : env.netListen addr port = .ok lnAddr) :
    lnAddr.host = addr := by
  unfold TCPPorts.netListen at hlisten
  cases hanswer : env.answer addr port with
  | error text => simp [hanswer, Except.map] at hlisten
  | ok chosen =>
      simp only [hanswer, Except.map, Except.ok.injEq] at hlisten
      rw [← hlisten]

/-- A first member accounts for its port exactly when it is bindable. -/
theorem accounts_of_empty {ctl : TCPGroupCtl} {i : Nat}
    (hempty : (ctl.heap i).lns = []) (proxyName group groupKey addr : String)
    (port : Int) :
    ctl.Accounts i proxyName group groupKey addr port ↔
      Bindable ctl.env proxyName addr port := by
  rcases ctl.env.acquired_spec proxyName port with
    ⟨hpicks, err, hacquired⟩ | ⟨realPort, hpicks, hnonzero, hacquired⟩ |
    ⟨hpicks, hreserved, _, err, hacquired⟩
  · -- nothing is taken, and the group is left as it is
    have hlisten := @TCPGroup.realListen_of_error ctl.env
      ⟨proxyName, addr, port⟩ err (congrArg Prod.snd hacquired)
    have haccounts : ctl.Accounts i proxyName group groupKey addr port := by
      simp [Accounts, listen, ListenCtl.listen, hempty, TCPGroup.kind, hlisten,
        hacquired, Except.map]
    have hbindable : Bindable ctl.env proxyName addr port := by
      intro picked hpicked
      rw [hpicks] at hpicked
      cases hpicked
    exact iff_of_true haccounts hbindable
  · have hlisten := @TCPGroup.realListen_of_ok ctl.env
      ⟨proxyName, addr, port⟩ realPort (congrArg Prod.snd hacquired)
    cases hnet : ctl.env.netListen addr port with
    | error text =>
        -- the port has been taken and is not given back
        simp only [hnet] at hlisten
        have hleaks : ¬ ctl.Accounts i proxyName group groupKey addr port := by
          simp [Accounts, listen, ListenCtl.listen, hempty, TCPGroup.kind,
            hlisten, hacquired, Except.map, ctl.env.take_usedPorts_ne]
        refine iff_of_false hleaks fun hbindable => ?_
        have hbinds := (hbindable realPort hpicks).2
        rw [hnet] at hbinds
        cases hbinds
    | ok lnAddr =>
        simp only [hnet] at hlisten
        have hhost := netListen_eq_ok hnet
        have haccounts : ctl.Accounts i proxyName group groupKey addr port ↔
            lnAddr.port = realPort := by
          simp [Accounts, listen, ListenCtl.listen, hempty, TCPGroup.kind,
            hlisten, hacquired, Except.map, ListenCtl.found,
            ListenCtl.addListener, ListenGroup.found, PortManager.take]
        rw [haccounts]
        constructor
        · rintro rfl picked hpicked
          obtain rfl := Option.some.inj (hpicks.symm.trans hpicked)
          refine ⟨fun hnone => (hnonzero hnone).1, ?_⟩
          rw [hnet, ← hhost]
        · intro hbindable
          have hbinds := (hbindable realPort hpicks).2
          rw [hnet, Except.ok.injEq] at hbinds
          rw [hbinds]
  · -- port zero is taken and reported as none
    have hlisten := @TCPGroup.realListen_of_error ctl.env
      ⟨proxyName, addr, port⟩ err (congrArg Prod.snd hacquired)
    have hleaks : ¬ ctl.Accounts i proxyName group groupKey addr port := by
      simp [Accounts, listen, ListenCtl.listen, hempty, TCPGroup.kind, hlisten,
        hacquired, Except.map, ctl.env.take_usedPorts_ne]
    refine iff_of_false hleaks fun hbindable => ?_
    exact (hbindable 0 hpicks).1 hreserved rfl

theorem accounts_iff (ctl : TCPGroupCtl) (i : Nat)
    (proxyName group groupKey addr : String) (port : Int) :
    ctl.Accounts i proxyName group groupKey addr port ↔
      ctl.Accountable i proxyName group groupKey addr port := by
  unfold Accountable
  cases hlns : (ctl.heap i).lns with
  | nil =>
      rw [if_pos rfl]
      exact accounts_of_empty hlns proxyName group groupKey addr port
  | cons first rest =>
      rw [if_neg (List.cons_ne_nil first rest)]
      cases hadmits : TCPGroup.admits (ctl.heap i) group groupKey
          ⟨proxyName, addr, port⟩ with
      | error err =>
          simp [Accounts, listen, ListenCtl.listen, hlns, TCPGroup.kind,
            hadmits, Except.map]
      | ok =>
          simp [Accounts, listen, ListenCtl.listen, hlns, TCPGroup.kind,
            hadmits, Except.map, ListenCtl.addListener]

end TCPGroupCtl

namespace ListenGroups

/-- The state of the TCP groups. -/
abbrev TCPState := State TCPRequest TCPReal TCPPorts

namespace State

/-- The port that a group has while it has members. -/
def portOf (s : TCPState) (i : Nat) : Option Int :=
  if (s.ctl.heap i).lns = [] then none
  else some (s.ctl.heap i).real.realPort

/-- The groups have the ports that they listen on. -/
structure Served (s : TCPState) : Prop where
  serves : s.ctl.env.Serves s.portOf
  bound : ∀ i, (s.ctl.heap i).lns ≠ [] →
    (s.ctl.heap i).real.lnAddr.port = (s.ctl.heap i).real.realPort

theorem portOf_of_members {s : TCPState} {i : Nat}
    (hnonempty : (s.ctl.heap i).lns ≠ []) :
    s.portOf i = some (s.ctl.heap i).real.realPort := if_neg hnonempty

theorem portOf_update {s : TCPState} {ctl : TCPGroupCtl} {i : Nat}
    {g : TCPGroup} (hheap : ctl.heap = Function.update s.ctl.heap i g) :
    (s.setCtl ctl).portOf = Function.update s.portOf i
      (if g.lns = [] then none else some g.real.realPort) := by
  funext j
  by_cases hsame : j = i
  · simp [portOf, State.setCtl, hheap, hsame]
  · simp [portOf, State.setCtl, hheap, hsame]

/-- The rule for a change of one group. -/
theorem Served.update {s : TCPState} (hserved : s.Served) {ctl : TCPGroupCtl}
    {i : Nat} {g : TCPGroup} (hheap : ctl.heap = Function.update s.ctl.heap i g)
    (hserves : ctl.env.Serves (Function.update s.portOf i
      (if g.lns = [] then none else some g.real.realPort)))
    (hbound : g.lns ≠ [] → g.real.lnAddr.port = g.real.realPort) :
    (s.setCtl ctl).Served where
  serves := by
    rw [portOf_update hheap]
    exact hserves
  bound j hnonempty := by
    show (ctl.heap j).real.lnAddr.port = (ctl.heap j).real.realPort
    have hmembers : (ctl.heap j).lns ≠ [] := hnonempty
    rw [hheap] at hmembers ⊢
    by_cases hsame : j = i
    · rw [hsame, Function.update_self] at hmembers ⊢
      exact hbound hmembers
    · rw [Function.update_of_ne hsame] at hmembers ⊢
      exact hserved.bound j hmembers

/-- The rule for a change that leaves the port of the group as it is. -/
theorem Served.keep {s : TCPState} (hserved : s.Served) {ctl : TCPGroupCtl}
    {i : Nat} {g : TCPGroup} (hheap : ctl.heap = Function.update s.ctl.heap i g)
    (henv : ctl.env = s.ctl.env)
    (hlns : g.lns = [] ↔ (s.ctl.heap i).lns = [])
    (hreal : g.lns ≠ [] → g.real = (s.ctl.heap i).real) :
    (s.setCtl ctl).Served := by
  apply hserved.update hheap
  · have hsame : (if g.lns = [] then none else some g.real.realPort) =
        s.portOf i := by
      by_cases hempty : g.lns = []
      · rw [if_pos hempty, portOf, if_pos (hlns.mp hempty)]
      · rw [if_neg hempty, portOf, if_neg (fun h => hempty (hlns.mpr h)),
          hreal hempty]
    rw [hsame, Function.update_eq_self, henv]
    exact hserved.serves
  · intro hnonempty
    rw [hreal hnonempty]
    exact hserved.bound i fun hempty => hnonempty (hlns.mpr hempty)

end State

/-- A first member can bind the port that it acquires, and nobody acquires a
reserved port that is in use. -/
def PortsPermitted (s : TCPState) : Action TCPRequest TCPPorts.Other → Prop
  | .listen call =>
      match s.calls call with
      | .found args i => (s.ctl.heap i).lns = [] →
          TCPGroupCtl.Bindable s.ctl.env args.req.proxyName args.req.addr
              args.req.port ∧
            s.ctl.env.Vacant args.req.proxyName args.req.port
      | .idle | .returned _ _ | .failed _ => True
  | .other (.acquire name port) => s.ctl.env.Vacant name port
  | .lookup _ _ | .close _ | .closeListener _ | .removeGroup _ | .other _ =>
      True

instance (s : TCPState) (action : Action TCPRequest TCPPorts.Other) :
    Decidable (PortsPermitted s action) :=
  match action with
  | .listen call =>
      match hcall : s.calls call with
      | .found args i =>
          decidable_of_iff ((s.ctl.heap i).lns = [] →
            TCPGroupCtl.Bindable s.ctl.env args.req.proxyName args.req.addr
                args.req.port ∧
              s.ctl.env.Vacant args.req.proxyName args.req.port)
            (by simp [PortsPermitted, hcall])
      | .idle | .returned _ _ | .failed _ =>
          isTrue (by simp [PortsPermitted, hcall])
  | .other (.acquire name port) =>
      inferInstanceAs (Decidable (s.ctl.env.Vacant name port))
  | .lookup _ _ | .close _ | .closeListener _ | .removeGroup _ |
      .other (.system _ _ _) | .other (.elapse _) | .other (.release _) |
      .other .clean => isTrue trivial

namespace State

theorem Served.setEnv {s : TCPState} (hserved : s.Served) {env : TCPPorts}
    (hserves : env.Serves s.portOf) :
    (s.setCtl { s.ctl with env := env }).Served :=
  ⟨hserves, hserved.bound⟩

theorem Served.lookup {s : TCPState} (hserved : s.Served) (hkept : s.Kept)
    (group : String) : (s.setCtl (s.ctl.lookup group).1).Served := by
  unfold ListenCtl.lookup
  split
  · exact hserved
  · have hempty : (s.ctl.heap s.ctl.made).lns = [] := by
      by_contra hnonempty
      exact Nat.lt_irrefl _ (hkept.below _ hnonempty)
    exact hserved.keep rfl rfl (iff_of_true rfl hempty)
      fun hnonempty => absurd rfl hnonempty

theorem Served.listen {s s' : TCPState} (hserved : s.Served) {call : Nat}
    (hpermitted : PortsPermitted s (.listen call))
    (hstep : ListenGroups.step TCPGroup.kind s (.listen call) = some s') :
    s'.Served := by
  obtain ⟨args, i, hcall, ⟨err, hdispatch, rfl⟩ |
    ⟨-, -, ctl, result, -, hlistens, rfl⟩⟩ := listen_cases hstep
  · cases hdispatch
  simp only [PortsPermitted, hcall] at hpermitted
  cases hlistens with
  | refused hempty hlisten =>
      obtain rfl := TCPGroup.realListen_eq_error hlisten
      have hnext := hserved.setEnv (hserved.serves.acquire
        args.req.proxyName args.req.port)
      exact ⟨hnext.serves, hnext.bound⟩
  | @founded env real hempty hlisten =>
      obtain ⟨rfl, hacquired, hnet⟩ := TCPGroup.realListen_eq_ok hlisten
      obtain ⟨hbindable, hvacant⟩ := hpermitted hempty
      have hpicks := (TCPPorts.acquired_ok hacquired).1
      have hbinds := (hbindable real.realPort hpicks).2
      rw [hnet, Except.ok.injEq] at hbinds
      have hnext : (s.setCtl (s.ctl.found i args.group args.groupKey real
          (TCPGroup.kind.addr real) (s.ctl.env.acquire
            args.req.proxyName args.req.port).1)).Served := by
        apply hserved.update rfl
        · have hfound := hserved.serves.found hvacant hacquired i
          rw [if_neg (List.append_ne_nil_of_right_ne_nil _
            (List.cons_ne_nil _ _))]
          exact hfound
        · intro _
          exact congrArg TCPAddr.port hbinds
      exact ⟨hnext.serves, hnext.bound⟩
  | mismatched hnonempty hadmits => exact ⟨hserved.serves, hserved.bound⟩
  | @joined addr hnonempty hadmits =>
      have hnext : (s.setCtl (s.ctl.addListener i (s.ctl.heap i) args.group
          addr)).Served :=
        hserved.keep rfl rfl (by simp [hnonempty]) fun _ => rfl
      exact ⟨hnext.serves, hnext.bound⟩

theorem Served.closeListener {s s' : TCPState} (hserved : s.Served)
    (hkept : s.Kept) {ln : Nat}
    (hstep : ListenGroups.step TCPGroup.kind s (.closeListener ln) = some s') :
    s'.Served := by
  obtain ⟨hclosing, ctl, closeEnd, hcloses, rfl⟩ := closeListener_cases hstep
  have hnonempty := List.ne_nil_of_mem (hkept.member ln (Or.inr hclosing)).2
  have hctl : (s.setCtl ctl).Served := by
    cases hcloses with
    | left hmore =>
        exact hserved.keep rfl rfl (iff_of_false hmore hnonempty) fun _ => rfl
    | last _ _ _ =>
        apply hserved.update rfl
        · exact hserved.serves.leave (portOf_of_members hnonempty)
        · intro hmembers
          exact absurd rfl hmembers
    | panicked _ _ =>
        apply hserved.update rfl
        · exact hserved.serves.forget _
        · intro hmembers
          exact absurd rfl hmembers
  cases closeEnd with
  | left | last | panicked => exact ⟨hctl.serves, hctl.bound⟩

theorem Served.other {s : TCPState} (hserved : s.Served) {env : TCPPorts}
    {act : TCPPorts.Other} (hpermitted : PortsPermitted s (.other act))
    (hother : s.ctl.env.other act = some env) :
    (s.setCtl { s.ctl with env := env }).Served := by
  have hserves := hserved.serves
  apply hserved.setEnv
  cases act with
  | system | elapse =>
      obtain rfl := Option.some.inj hother
      exact ⟨hserves.used, hserves.distinct, hserves.nodup, hserves.held,
        hserves.apart⟩
  | acquire name port =>
      simp only [TCPPorts.other] at hother
      rcases hacquire : s.ctl.env.acquire name port with ⟨next, err | realPort⟩
      · simp only [hacquire, Option.some.injEq] at hother
        obtain rfl : (s.ctl.env.acquire name port).1 = env := by
          rw [hacquire]
          exact hother
        exact hserves.acquire name port
      · simp only [hacquire, Option.some.injEq] at hother
        have hacquired : (s.ctl.env.acquired name port).2 = .ok realPort :=
          congrArg Prod.snd hacquire
        obtain rfl : (s.ctl.env.acquire name port).1 = next := by
          rw [hacquire]
        subst hother
        exact hserves.hold hpermitted hacquired
  | release port =>
      simp only [TCPPorts.other, Option.ite_none_right_eq_some,
        Option.some.injEq] at hother
      obtain ⟨hheld, rfl⟩ := hother
      exact hserves.drop hheld
  | clean =>
      obtain rfl := Option.some.inj hother
      exact ⟨hserves.used, hserves.distinct, hserves.nodup, hserves.held,
        hserves.apart⟩

theorem Served.step {s s' : TCPState}
    {action : Action TCPRequest TCPPorts.Other} (hserved : s.Served)
    (hkept : s.Kept) (hpermitted : PortsPermitted s action)
    (hstep : ListenGroups.step TCPGroup.kind s action = some s') :
    s'.Served := by
  cases action with
  | lookup call args =>
      obtain ⟨-, rfl⟩ := lookup_cases hstep
      have hnext := hserved.lookup hkept args.group
      exact ⟨hnext.serves, hnext.bound⟩
  | listen call => exact hserved.listen hpermitted hstep
  | close ln =>
      obtain ⟨-, rfl⟩ | rfl := close_cases hstep
      · exact ⟨hserved.serves, hserved.bound⟩
      · exact hserved
  | closeListener ln => exact hserved.closeListener hkept hstep
  | removeGroup ln =>
      obtain ⟨-, rfl⟩ := removeGroup_cases hstep
      have hnext : (s.setCtl (s.ctl.finishClose
          (s.ctl.listeners ln).group)).Served :=
        hserved.keep rfl rfl Iff.rfl fun _ => rfl
      exact ⟨hnext.serves, hnext.bound⟩
  | other act =>
      obtain ⟨env, henv, rfl⟩ := other_cases hstep
      exact hserved.other hpermitted henv

/-- As long as a group keeps its members, none of whom is the first of another
real listener, it listens on the port that each of them was given, and that port
is used.  The calls that come next do what they should. -/
structure Accounted (s : TCPState) : Prop where
  used : ∀ call ln g, s.calls call = .returned ln g →
    (s.groupOf ln).lns ≠ [] → (s.groupOf ln).ln = g.ln →
    (s.groupOf ln).real.lnAddr.port = g.real.realPort ∧
      (s.ctl.env.pm.usedPorts g.real.realPort).isSome = true
  next : ∀ call args i, s.calls call = .found args i →
    PortsPermitted s (.listen call) →
    TCPGroupCtl.Accounts s.ctl i args.req.proxyName args.group args.groupKey
      args.req.addr args.req.port

theorem Served.accounted {s : TCPState} (hserved : s.Served) (hkept : s.Kept) :
    s.Accounted where
  used call ln g hcall hmembers hsame := by
    have hread := (hkept.returned call ln g hcall).2.2 hsame
    rw [← hread]
    exact ⟨hserved.bound _ hmembers,
      hserved.serves.used _ _ (portOf_of_members hmembers)⟩
  next call args i hcall hpermitted := by
    rw [TCPGroupCtl.accounts_iff, TCPGroupCtl.Accountable]
    simp only [PortsPermitted, hcall] at hpermitted
    split
    · next hempty => exact (hpermitted hempty).1
    · next hmembers =>
        intro _
        exact ⟨hserved.bound i hmembers,
          hserved.serves.used _ _ (portOf_of_members hmembers)⟩

theorem accounted_of_permitted {env : TCPPorts}
    (henv : env.Serves fun _ => none)
    {word : List (Action TCPRequest TCPPorts.Other)} {s : TCPState}
    (hrun : (system TCPGroup.kind env).Run PortsPermitted word s) :
    s.Accounted := by
  obtain ⟨hserved, hkept⟩ : s.Served ∧ s.Kept := by
    refine @System.Run.invariant _ _ _ _ (fun s => s.Served ∧ s.Kept)
      ⟨⟨henv, fun i hnonempty => absurd rfl hnonempty⟩, kept_init env⟩ ?_ _ _
      hrun
    intro state action next hboth hpermitted hstep
    have hnext : ListenGroups.step TCPGroup.kind state action = some next :=
      hstep
    exact ⟨hboth.1.step hboth.2 hpermitted hnext, hboth.2.step hnext⟩
  exact hserved.accounted hkept

end State

/-- One `Listen` does what it should exactly when it is accountable; and in every
run that starts from that state of the port manager, and in which first members
can bind their ports, the groups keep their ports. -/
theorem ports_accounted (ctl : TCPGroupCtl) (i : Nat)
    (proxyName group groupKey addr : String) (port : Int) :
    (ctl.Accounts i proxyName group groupKey addr port ↔
      ctl.Accountable i proxyName group groupKey addr port) ∧
    (ctl.env.Serves (fun _ => none) →
      ∀ (word : List (Action TCPRequest TCPPorts.Other)) (s : TCPState),
      (system TCPGroup.kind ctl.env).Run PortsPermitted word s →
      s.Accounted) :=
  ⟨ctl.accounts_iff i proxyName group groupKey addr port,
    fun henv _ _ hrun => State.accounted_of_permitted henv hrun⟩

theorem serves_quietPorts : quietPorts.Serves fun _ => none where
  used i port hport := by cases hport
  distinct i j port hport := by cases hport
  nodup := List.nodup_nil
  held port hport := by cases hport
  apart i port hport := by cases hport

theorem ports_accounted_twoMembers :
    (TCPGroupCtl.Accounts (.newCtl quietPorts) 0 "a" "web" "key" "0.0.0.0"
      6000 ↔ TCPGroupCtl.Accountable (.newCtl quietPorts) 0 "a" "web" "key"
      "0.0.0.0" 6000) ∧
    ∃ s, (system TCPGroup.kind quietPorts).Run PortsPermitted
      (twoMembers (webListen "a") (webListen "b")) s ∧
      (s.groupOf 1).lns = [1] ∧ s.Accounted := by
  obtain ⟨s, hrun, hmembers⟩ :
      ∃ s, (system TCPGroup.kind quietPorts).Run PortsPermitted
        (twoMembers (webListen "a") (webListen "b")) s ∧
        (s.groupOf 1).lns = [1] :=
    ⟨_, System.run_of_replay rfl, rfl⟩
  obtain ⟨hcall, hruns⟩ := ports_accounted (.newCtl quietPorts) 0 "a" "web"
    "key" "0.0.0.0" 6000
  exact ⟨hcall, s, hrun, hmembers, hruns serves_quietPorts _ s hrun⟩

/-- The ports are available, and yet nobody can listen. -/
def refusingPorts : TCPPorts :=
  .newPorts {6000} (fun _ => true) .ascending
    fun _ _ => .error "bind: cannot assign requested address"

/-- When `net.Listen` fails the port stays acquired, and with port zero the real
listener is bound to another port than the one returned. -/
theorem not_accounts_firstMember :
    ¬ TCPGroupCtl.Accounts ((ListenCtl.newCtl refusingPorts).lookup "web").1 0
      "a" "web" "key" "0.0.0.0" 6000 ∧
    ¬ TCPGroupCtl.Accounts ((ListenCtl.newCtl quietPorts).lookup "web").1 0
      "a" "web" "key" "0.0.0.0" 0 := by
  constructor
  · intro haccounts
    have hused := congrFun haccounts.1 6000
    cases hused
  · rw [TCPGroupCtl.accounts_of_empty rfl]
    intro hbindable
    have hfree : quietPorts.order.list quietPorts.pm.freePorts = [6000] :=
      Finset.sort_singleton (· ≤ ·) 6000
    have hreserved : quietPorts.pm.reservedPort "a" 0
        quietPorts.isPortAvailable = none := rfl
    have hpicks : quietPorts.picks "a" 0 = some 6000 := by
      simp only [TCPPorts.picks, hreserved, hfree, if_true]
      rfl
    have hbinds := (hbindable 6000 hpicks).2
    cases hbinds

end ListenGroups

end Frp
