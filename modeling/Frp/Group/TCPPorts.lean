/-
Who holds which port of the port manager: every TCP group with members has one,
and so have proxies that are in no group.
-/
import Frp.Group.TCP

namespace Frp

namespace TCPPorts

/-- The port that `Acquire` takes out of the free ones or of the reserved ones,
if any. -/
def picks (env : TCPPorts) (name : String) (port : Int) : Option Int :=
  match env.pm.reservedPort name port env.isPortAvailable with
  | some reserved => some reserved
  | none =>
      if port = 0 then
        ((env.order.list env.pm.freePorts).take
          maxTryTimes).find? env.isPortAvailable
      else if port ∈ env.pm.freePorts ∧ env.isPortAvailable port then some port
      else none

/-- The reserved port of the name is not in use. -/
def Vacant (env : TCPPorts) (name : String) (port : Int) : Prop :=
  ∀ reserved ∈ env.pm.reservedPort name port env.isPortAvailable,
    env.pm.usedPorts reserved = none

instance (env : TCPPorts) (name : String) (port : Int) :
    Decidable (env.Vacant name port) :=
  inferInstanceAs (Decidable (∀ reserved ∈
    env.pm.reservedPort name port env.isPortAvailable, _))

/-- `Acquire` takes nothing, or the port it returns, or port zero at random,
which it does not return. -/
theorem acquired_spec (env : TCPPorts) (name : String) (port : Int) :
    (env.picks name port = none ∧
      ∃ err, env.acquired name port = (env.pm, .error err)) ∨
    (∃ realPort, env.picks name port = some realPort ∧
      (env.pm.reservedPort name port env.isPortAvailable = none →
        realPort ≠ 0 ∧ realPort ∈ env.pm.freePorts) ∧
      env.acquired name port =
        (env.pm.take env.made name env.clock realPort, .ok realPort)) ∨
    (env.picks name port = some 0 ∧
      env.pm.reservedPort name port env.isPortAvailable = none ∧
      0 ∈ env.pm.freePorts ∧ ∃ err, env.acquired name port =
        (env.pm.take env.made name env.clock 0, .error err)) := by
  cases hreserved : env.pm.reservedPort name port env.isPortAvailable with
  | some reserved =>
      refine Or.inr (Or.inl ⟨reserved, ?_, ?_, ?_⟩)
      · simp only [picks, hreserved]
      · intro hnone
        cases hnone
      · simp only [acquired, PortManager.acquire, hreserved]
  | none =>
      by_cases hport : port = 0
      · cases hfind : ((env.order.list env.pm.freePorts).take
            maxTryTimes).find? env.isPortAvailable with
        | none =>
            refine Or.inl ⟨?_, .noAvailablePort, ?_⟩
            · simp only [picks, hreserved, if_pos hport, hfind]
            · simp only [acquired, PortManager.acquire, hreserved,
                if_pos hport, hfind]
        | some realPort =>
            have hpicks : env.picks name port = some realPort := by
              simp only [picks, hreserved, if_pos hport, hfind]
            have hfree : realPort ∈ env.pm.freePorts :=
              env.mem_order _
                (List.mem_of_mem_take (List.mem_of_find?_eq_some hfind))
            by_cases hzero : realPort = 0
            · rw [hzero] at hpicks hfree hfind
              refine Or.inr (Or.inr ⟨hpicks, rfl, hfree, .noAvailablePort, ?_⟩)
              simp only [acquired, PortManager.acquire, hreserved,
                if_pos hport, hfind, if_true]
            · refine Or.inr (Or.inl ⟨realPort, hpicks,
                fun _ => ⟨hzero, hfree⟩, ?_⟩)
              simp only [acquired, PortManager.acquire, hreserved,
                if_pos hport, hfind, if_neg hzero]
      · by_cases hfree : port ∈ env.pm.freePorts
        · cases havailable : env.isPortAvailable port with
          | true =>
              refine Or.inr (Or.inl ⟨port, ?_, fun _ => ⟨hport, hfree⟩, ?_⟩)
              · simp [picks, hreserved, hport, hfree, havailable]
              · simp [acquired, PortManager.acquire, hreserved, hport, hfree,
                  havailable]
          | false =>
              refine Or.inl ⟨?_, .portUnAvailable, ?_⟩
              · simp [picks, hreserved, hport, havailable]
              · simp [acquired, PortManager.acquire, hreserved, hport, hfree,
                  havailable]
        · refine Or.inl ⟨?_, ?_⟩
          · simp [picks, hreserved, hport, hfree]
          · simp only [acquired, PortManager.acquire, hreserved, hport, hfree,
              if_false]
            split <;> exact ⟨_, rfl⟩

/-- What is taken shows in the used ports. -/
theorem take_usedPorts_ne (env : TCPPorts) (name : String) (port : Int) :
    (env.pm.take env.made name env.clock port).usedPorts ≠
      env.pm.usedPorts := by
  intro hsame
  have hused := congrFun hsame port
  simp only [PortManager.take, Function.update_self] at hused
  exact Nat.lt_irrefl _ (env.fresh port _ hused.symm)

theorem used_take (pm : PortManager) (owner : Nat) (name : String) (now : Nat)
    (taken : Int) {port : Int} (hused : (pm.usedPorts port).isSome = true) :
    ((pm.take owner name now taken).usedPorts port).isSome = true := by
  by_cases hsame : port = taken
  · simp [PortManager.take, hsame]
  · simpa [PortManager.take, hsame] using hused

/-- `Acquire` gives no port back. -/
theorem used_acquired (env : TCPPorts) (name : String) (asked : Int)
    {port : Int} (hused : (env.pm.usedPorts port).isSome = true) :
    ((env.acquired name asked).1.usedPorts port).isSome = true := by
  rcases env.acquired_cases name asked with
    ⟨realPort, hacquired, _⟩ | ⟨err, hacquired, _⟩ | ⟨err, hacquired⟩
  · rw [hacquired]
    exact used_take _ _ _ _ _ hused
  · rw [hacquired]
    exact used_take _ _ _ _ _ hused
  · rw [hacquired]
    exact hused

/-- The port that a successful `Acquire` returns: it is the one picked, it is
used from now on, and it was not used before if it was vacant. -/
theorem acquired_ok {env : TCPPorts} {name : String} {asked realPort : Int}
    (hok : (env.acquired name asked).2 = .ok realPort) :
    env.picks name asked = some realPort ∧
      ((env.acquired name asked).1.usedPorts realPort).isSome = true ∧
      (env.Vacant name asked → env.pm.usedPorts realPort = none) := by
  rcases env.acquired_spec name asked with
    ⟨_, err, hacquired⟩ | ⟨taken, hpicks, hfree, hacquired⟩ |
    ⟨_, _, _, err, hacquired⟩
  · rw [hacquired] at hok
    cases hok
  · rw [hacquired] at hok ⊢
    obtain rfl := Except.ok.inj hok
    refine ⟨hpicks, by simp [PortManager.take], fun hvacant => ?_⟩
    cases hreserved : env.pm.reservedPort name asked env.isPortAvailable with
    | none => exact env.disjoint taken (hfree hreserved).2
    | some reserved =>
        have htaken : reserved = taken := by
          simpa [picks, hreserved] using hpicks
        exact htaken ▸ hvacant reserved hreserved
  · rw [hacquired] at hok
    cases hok

/-- Nobody else has the port of a group, given by `ports`, or that of a proxy,
and all of them are in use. -/
structure Serves (env : TCPPorts) (ports : Nat → Option Int) : Prop where
  used : ∀ i port, ports i = some port →
    (env.pm.usedPorts port).isSome = true
  distinct : ∀ i j port, ports i = some port → ports j = some port → i = j
  nodup : env.held.Nodup
  held : ∀ port ∈ env.held, (env.pm.usedPorts port).isSome = true
  apart : ∀ i port, ports i = some port → port ∉ env.held

namespace Serves

variable {env : TCPPorts} {ports : Nat → Option Int}

/-- A failed `Acquire`, and also one whose port then leaks. -/
theorem acquire (hserves : env.Serves ports) (name : String) (asked : Int) :
    (env.acquire name asked).1.Serves ports where
  used i port hport := env.used_acquired name asked (hserves.used i port hport)
  distinct := hserves.distinct
  nodup := hserves.nodup
  held port hport := env.used_acquired name asked (hserves.held port hport)
  apart := hserves.apart

/-- A port that was not used belongs to nobody. -/
theorem not_held (hserves : env.Serves ports) {port : Int}
    (hunused : env.pm.usedPorts port = none) :
    (∀ i, ports i ≠ some port) ∧ port ∉ env.held := by
  constructor
  · intro i hport
    have hused := hserves.used i port hport
    rw [hunused] at hused
    cases hused
  · intro hport
    have hused := hserves.held port hport
    rw [hunused] at hused
    cases hused

/-- The first member of a group acquires a port. -/
theorem found (hserves : env.Serves ports) {name : String}
    {asked realPort : Int} (hvacant : env.Vacant name asked)
    (hok : (env.acquired name asked).2 = .ok realPort) (i : Nat) :
    (env.acquire name asked).1.Serves
      (Function.update ports i (some realPort)) := by
  obtain ⟨_, hnow, hbefore⟩ := acquired_ok hok
  obtain ⟨hgroups, hheld⟩ := hserves.not_held (hbefore hvacant)
  have hold := hserves.acquire name asked
  have hcases : ∀ j port,
      Function.update ports i (some realPort) j = some port →
      (j = i ∧ port = realPort) ∨ (j ≠ i ∧ ports j = some port) := by
    intro j port hport
    by_cases hsame : j = i
    · simp only [hsame, Function.update_self, Option.some.injEq] at hport
      exact Or.inl ⟨hsame, hport.symm⟩
    · rw [Function.update_of_ne hsame] at hport
      exact Or.inr ⟨hsame, hport⟩
  refine ⟨?_, ?_, hold.nodup, hold.held, ?_⟩
  · intro j port hport
    rcases hcases j port hport with ⟨_, rfl⟩ | ⟨_, hother⟩
    · exact hnow
    · exact hold.used j port hother
  · intro j k port hj hk
    rcases hcases j port hj with ⟨rfl, rfl⟩ | ⟨_, hleft⟩ <;>
      rcases hcases k _ hk with ⟨rfl, hsame⟩ | ⟨_, hright⟩
    · rfl
    · exact absurd hright (hgroups k)
    · rw [hsame] at hleft
      exact absurd hleft (hgroups j)
    · exact hserves.distinct j k port hleft hright
  · intro j port hport
    rcases hcases j port hport with ⟨_, rfl⟩ | ⟨_, hother⟩
    · exact hheld
    · exact hserves.apart j port hother

/-- A proxy that is in no group acquires a port. -/
theorem hold (hserves : env.Serves ports) {name : String}
    {asked realPort : Int} (hvacant : env.Vacant name asked)
    (hok : (env.acquired name asked).2 = .ok realPort) :
    ({ (env.acquire name asked).1 with
      held := realPort :: (env.acquire name asked).1.held } :
        TCPPorts).Serves ports := by
  obtain ⟨_, hnow, hbefore⟩ := acquired_ok hok
  obtain ⟨hgroups, hheld⟩ := hserves.not_held (hbefore hvacant)
  have hold := hserves.acquire name asked
  refine ⟨hold.used, hold.distinct, List.nodup_cons.mpr ⟨hheld, hold.nodup⟩,
    ?_, ?_⟩
  · intro port hport
    rcases List.mem_cons.mp hport with rfl | hport
    · exact hnow
    · exact hold.held port hport
  · intro i port hport hmember
    rcases List.mem_cons.mp hmember with rfl | hmember
    · exact hgroups i hport
    · exact hold.apart i port hport hmember

/-- A group without members has no port. -/
theorem forget (hserves : env.Serves ports) (i : Nat) :
    env.Serves (Function.update ports i none) := by
  have hcases : ∀ j port, Function.update ports i none j = some port →
      ports j = some port := by
    intro j port hport
    by_cases hsame : j = i
    · simp [hsame] at hport
    · rwa [Function.update_of_ne hsame] at hport
  refine ⟨fun j port hport => hserves.used j port (hcases j port hport), ?_,
    hserves.nodup, hserves.held,
    fun j port hport => hserves.apart j port (hcases j port hport)⟩
  intro j k port hj hk
  exact hserves.distinct j k port (hcases j port hj) (hcases k port hk)

/-- A port that nobody has any more is released. -/
theorem release (hserves : env.Serves ports) {port : Int}
    (hgroups : ∀ i, ports i ≠ some port) (hheld : port ∉ env.held) :
    (env.release port).Serves ports := by
  have hkept : ∀ other, other ≠ port →
      (env.pm.usedPorts other).isSome = true →
      ((env.release port).pm.usedPorts other).isSome = true := by
    intro other hne hused
    rw [release_pm, PortManager.release_usedPorts, Function.update_of_ne hne]
    exact hused
  refine ⟨?_, hserves.distinct, hserves.nodup, ?_, hserves.apart⟩
  · intro i other hother
    refine hkept other ?_ (hserves.used i other hother)
    rintro rfl
    exact hgroups i hother
  · intro other hother
    refine hkept other ?_ (hserves.held other hother)
    rintro rfl
    exact hheld hother

/-- The last member of a group releases its port. -/
theorem leave (hserves : env.Serves ports) {i : Nat} {port : Int}
    (hport : ports i = some port) :
    (env.release port).Serves (Function.update ports i none) := by
  apply (hserves.forget i).release
  · intro j hj
    by_cases hsame : j = i
    · simp [hsame] at hj
    · rw [Function.update_of_ne hsame] at hj
      exact hsame (hserves.distinct j i port hj hport)
  · exact hserves.apart i port hport

/-- A proxy releases a port that it has. -/
theorem drop (hserves : env.Serves ports) {port : Int}
    (hport : port ∈ env.held) :
    ({ env.release port with held := env.held.erase port } : TCPPorts).Serves
      ports := by
  have hless : ({ env with held := env.held.erase port } : TCPPorts).Serves
      ports :=
    ⟨hserves.used, hserves.distinct, hserves.nodup.erase port,
      fun other hother => hserves.held other (List.mem_of_mem_erase hother),
      fun i other hother hmember =>
        hserves.apart i other hother (List.mem_of_mem_erase hmember)⟩
  have hreleased := hless.release
    (fun i hi => hserves.apart i port hi hport) hserves.nodup.not_mem_erase
  exact ⟨hreleased.used, hreleased.distinct, hreleased.nodup, hreleased.held,
    hreleased.apart⟩

end Serves

end TCPPorts

end Frp
