/-
The two indexes of the proxies of frps: the Manager of `server/proxy/proxy.go`,
by name over all Controls, and the map of each Control.  Registration and
closing write them one after the other, under different locks, and a `Close` that
panics comes between.
-/
import Frp.Server.NatHole

namespace Frp

open Transition

namespace NatHole

namespace State

/-- The maps of the Controls, and how far their stopers are, are as before. -/
def SameMaps (s s' : State) : Prop :=
  ∀ c, (s'.controls c).proxies = (s.controls c).proxies ∧
    (s'.controls c).stopping = (s.controls c).stopping ∧
    (s'.controls c).visited = (s.controls c).visited

/-- The name of proxy `i` in its own Control. -/
def AtName (s : State) (i c : Nat) (name : String) : Prop :=
  c = (s.heap i).control ∧ name = (s.heap i).name

/-- A move that neither index sees. -/
def Silent : ProxyPc → ProxyPc → Bool
  | .created, .ran | .created, .gone | .ran, .rejected | .rejected, .gone
  | .closing, .closed | .closing, .abandoned => true
  | _, _ => false

/-- All that one step does to a proxy and to the two indexes. -/
inductive Effect (s s' : State) : Prop where
  | create (i : Nat) (pxy : ServerProxy)
      (hserving : (s.controls pxy.control).stopping = false)
      (hunused : (s.heap i).pc = .unused) (hcreated : pxy.pc = .created)
      (hheap : s'.heap = Function.update s.heap i pxy)
      (hpxys : s'.pxys = s.pxys) (hmaps : s.SameMaps s')
  | proceed (i : Nat) (pc : ProxyPc) (hsilent : Silent (s.heap i).pc pc = true)
      (hheap : s'.heap = Function.update s.heap i { s.heap i with pc := pc })
      (hpxys : s'.pxys = s.pxys) (hmaps : s.SameMaps s')
  | add (i : Nat) (hran : (s.heap i).pc = .ran)
      (hfree : s.pxys (s.heap i).name = none)
      (hheap : s'.heap = Function.update s.heap i
        { s.heap i with pc := .added })
      (hpxys : s'.pxys = Function.update s.pxys (s.heap i).name (some i))
      (hmaps : s.SameMaps s')
  | register (i : Nat) (hadded : (s.heap i).pc = .added)
      (hheap : s'.heap = Function.update s.heap i
        { s.heap i with pc := .registered })
      (hpxys : s'.pxys = s.pxys)
      (hself : (s'.controls (s.heap i).control).proxies (s.heap i).name =
        some i)
      (hothers : ∀ c name, ¬ s.AtName i c name →
        (s'.controls c).proxies name = (s.controls c).proxies name)
      (hstopers : ∀ c, (s'.controls c).stopping = (s.controls c).stopping ∧
        (s'.controls c).visited = (s.controls c).visited)
  | del (i : Nat) (hclosed : (s.heap i).pc = .closed)
      (hheap : s'.heap = Function.update s.heap i { s.heap i with pc := .gone })
      (hpxys : s'.pxys = Function.update s.pxys (s.heap i).name none)
      (hothers : ∀ c name, ¬ s.AtName i c name →
        (s'.controls c).proxies name = (s.controls c).proxies name)
      (hstopers : ∀ c, (s'.controls c).stopping = (s.controls c).stopping ∧
        (s'.controls c).visited = (s.controls c).visited)
  | take (i : Nat) (hregistered : (s.heap i).pc = .registered)
      (hheap : s'.heap = Function.update s.heap i
        { s.heap i with pc := .closing })
      (hpxys : s'.pxys = s.pxys)
      (hmaps : ∀ c, (s'.controls c).proxies = (s.controls c).proxies ∧
        (s'.controls c).stopping = (s.controls c).stopping)
      (hvisited : ∀ c name, ¬ s.AtName i c name →
        (name ∈ (s'.controls c).visited ↔ name ∈ (s.controls c).visited))
  | stop (c : Nat) (hidle : (s.controls c).busy = none)
      (hheap : s'.heap = s.heap) (hpxys : s'.pxys = s.pxys)
      (hmaps : ∀ c', (s'.controls c').proxies = (s.controls c').proxies ∧
        (s'.controls c').visited = (s.controls c').visited)
      (hothers : ∀ c' ≠ c,
        (s'.controls c').stopping = (s.controls c').stopping)

/-- A Control goes on to other work. -/
theorem sameMaps_setBusy (s : State) (c : Nat) (busy : Option Nat) :
    s.SameMaps (s.setBusy c busy) := by
  intro c'
  by_cases hc : c' = c
  · simp [setBusy, setControl, hc]
  · simp [setBusy, setControl, hc]

theorem sameMaps_of_controls {s s' : State} (hcontrols : s'.controls = s.controls) :
    s.SameMaps s' := by
  intro c
  simp [hcontrols]

/-- A Control remembers the proxy that it has added. -/
theorem effect_register {s : State} {i : Nat}
    (hadded : (s.heap i).pc = .added) :
    s.Effect (((s.remember (s.heap i).control i).setBusy (s.heap i).control
      none).setPc i .registered) := by
  refine .register i hadded rfl rfl ?_ ?_ ?_
  · simp [setPc, State.setProxy, setBusy, remember, setControl]
  · intro c name hname
    by_cases hc : c = (s.heap i).control
    · have hne : name ≠ (s.heap i).name := fun h => hname ⟨hc, h⟩
      simp [setPc, State.setProxy, setBusy, remember, setControl, hc, hne]
    · simp [setPc, State.setProxy, setBusy, remember, setControl, hc]
  · intro c
    by_cases hc : c = (s.heap i).control
    · simp [setPc, State.setProxy, setBusy, remember, setControl, hc]
    · simp [setPc, State.setProxy, setBusy, remember, setControl, hc]

/-- `pxyManager.Del`, and the map of a Control that is not stopping. -/
theorem effect_del {s : State} {i : Nat} (hclosed : (s.heap i).pc = .closed) :
    s.Effect ((((s.setPxy (s.heap i).name none).forget (s.heap i).control
      (s.heap i).name).setBusy (s.heap i).control none).setPc i .gone) := by
  refine .del i hclosed ?_ ?_ ?_ ?_
  · simp only [State.forget]
    split <;> rfl
  · simp only [State.forget]
    split <;> rfl
  · intro c name hname
    by_cases hc : c = (s.heap i).control
    · have hne : name ≠ (s.heap i).name := fun h => hname ⟨hc, h⟩
      simp only [State.forget]
      split
      · simp [setPc, State.setProxy, setBusy, setControl, setPxy, hc]
      · simp [setPc, State.setProxy, setBusy, setControl, setPxy, hc, hne]
    · simp only [State.forget]
      split
      · simp [setPc, State.setProxy, setBusy, setControl, setPxy, hc]
      · simp [setPc, State.setProxy, setBusy, setControl, setPxy, hc]
  · intro c
    simp only [State.forget]
    split
    · exact ((s.setPxy _ none).sameMaps_setBusy _ none c).2
    · by_cases hc : c = (s.heap i).control
      · simp [setPc, State.setProxy, setBusy, setControl, setPxy, hc]
      · simp [setPc, State.setProxy, setBusy, setControl, setPxy, hc]

theorem effect_advance {s s' : State} (hschedule : s.Schedule) {c i : Nat}
    (hbusy : (s.controls c).busy = some i)
    (hnext : s.advance c i = some s') : s.Effect s' := by
  obtain ⟨rfl, _⟩ := hschedule.own c i hbusy
  cases advances_of_advance hnext with
  | reject hran _ =>
      exact .proceed i .rejected (by rw [hran]; rfl) rfl rfl
        (sameMaps_of_controls rfl)
  | add hran hfree => exact .add i hran hfree rfl rfl (sameMaps_of_controls rfl)
  | register hadded => exact effect_register hadded
  | giveUp hrejected =>
      refine .proceed i .gone (by rw [hrejected]; rfl) ?_ ?_ ?_
      · simp [setPc, State.setProxy, setBusy, setControl]
      · exact closeProxy_pxys s i
      · have hsame := (s.closeProxy i).sameMaps_setBusy (s.heap i).control none
        unfold SameMaps at hsame
        simp only [closeProxy_controls] at hsame
        exact hsame
  | close hclosing =>
      refine .proceed i .closed (by rw [hclosing]; rfl) ?_ ?_ ?_
      · simp [setPc, State.setProxy]
      · exact closeProxy_pxys s i
      · exact sameMaps_of_controls (closeProxy_controls s i)
  | del hclosed => exact effect_del hclosed

/-- A goroutine that ends by a panic leaves both indexes as they are. -/
theorem sameMaps_abort (s : State) (c : Nat) (site : CloseSite) :
    s.SameMaps (s.abort c site) := by
  intro c'
  by_cases hc : c' = c
  · simp [abort, setControl, hc]
  · simp [abort, setControl, hc]

theorem effect_panic {s s' : State} {c i : Nat}
    (hnext : s.panic c i = some s') : s.Effect s' := by
  cases panics_of_panic hnext with
  | giveUp _ hmaking =>
      refine .proceed i .gone ?_ rfl rfl (s.sameMaps_abort c _)
      rcases hmaking with hpc | hpc <;> rw [hpc] <;> rfl
  | leave _ hclosing =>
      exact .proceed i .abandoned (by rw [hclosing]; rfl) rfl rfl
        (s.sameMaps_abort c _)

/-- An idle Control takes up a registered proxy to close it. -/
theorem effect_take {s s' : State} {c i : Nat} {visited : Finset String}
    (hown : (s.heap i).control = c) (hregistered : (s.heap i).pc = .registered)
    (hvisited : ∀ name, name ≠ (s.heap i).name →
      (name ∈ visited ↔ name ∈ (s.controls c).visited))
    (hnext : s' = (s.setControl c { s.controls c with
      busy := some i, visited := visited }).setPc i .closing) :
    s.Effect s' := by
  subst hnext hown
  refine .take i hregistered rfl rfl ?_ ?_
  · intro c
    by_cases hc : c = (s.heap i).control
    · simp [setPc, State.setProxy, setControl, hc]
    · simp [setPc, State.setProxy, setControl, hc]
  · intro c name hname
    by_cases hc : c = (s.heap i).control
    · have hne : name ≠ (s.heap i).name := fun h => hname ⟨hc, h⟩
      simpa [setPc, State.setProxy, setControl, hc] using hvisited name hne
    · simp [setPc, State.setProxy, setControl, hc]

theorem effect_of_step {s s' : State} {action : Action}
    (hschedule : s.Schedule) (hstep : NatHole.step s action = some s') :
    s.Effect s' := by
  cases steps_of_step hstep with
  | @create c i name xtcp sk _ hserving _ hunused =>
      exact .create i ⟨name, xtcp, sk, c, .created⟩ hserving hunused rfl rfl rfl
        ((s.setProxy i _).sameMaps_setBusy c (some i))
  | @ran c i hbusy hcreated =>
      refine .proceed i .ran (by rw [hcreated]; rfl) ?_ ?_ ?_
      · simp [setPc, State.setProxy]
      · exact runProxy_pxys s i
      · exact sameMaps_of_controls (runProxy_controls s i)
  | @failed c i hbusy hcreated =>
      exact .proceed i .gone (by rw [hcreated]; rfl) rfl rfl
        (s.sameMaps_setBusy c none)
  | advance hbusy hnext => exact effect_advance hschedule hbusy hnext
  | panic _ hnext => exact effect_panic hnext
  | @closeProxy c i name hbusy hserving hserves hentry =>
      have hfresh : name ∉ (s.controls c).visited := by
        simp [hschedule.unvisited c hserving]
      exact effect_take (hschedule.remembered c name i hentry hfresh).1
        (hschedule.registered hbusy hserves hentry hfresh)
        (fun _ _ => Iff.rfl) rfl
  | @stop c hbusy =>
      refine .stop c hbusy rfl rfl ?_ ?_
      · intro c'
        by_cases hc : c' = c
        · simp [setControl, hc]
        · simp [setControl, hc]
      · intro c' hc
        simp [setControl, hc]
  | @stopNext c i name hbusy _ hserves hvisited hentry =>
      obtain ⟨hown, hname, _⟩ := hschedule.remembered c name i hentry hvisited
      refine effect_take hown
        (hschedule.registered hbusy hserves hentry hvisited) ?_ rfl
      intro other hne
      rw [hname] at hne
      simp [hne]

/-- In the hands of a `RegisterProxy`. -/
def registering : ProxyPc → Bool
  | .created | .ran | .rejected | .added => true
  | .unused | .registered | .closing | .closed | .abandoned | .gone => false

/-- The Manager lists what has been added; a Control that is stopping registers
nothing, and its map has every registered proxy until the stoper comes to it. -/
structure Indexed (s : State) : Prop where
  entered : Ledger.Exact s.pxys (enters ∘ s.heap)
  serving : ∀ i, registering (s.heap i).pc = true →
    (s.controls (s.heap i).control).stopping = false
  kept : ∀ i, (s.heap i).pc = .registered →
    (s.controls (s.heap i).control).proxies (s.heap i).name = some i ∧
      (s.heap i).name ∉ (s.controls (s.heap i).control).visited

theorem indexed_init : init.Indexed where
  entered := tables_init.entered
  serving i hregistering := by simp [registering, init] at hregistering
  kept i hregistered := by simp [init] at hregistered

/-- Two proxies in the Manager have different names. -/
theorem Indexed.ne_name {s : State} (hindexed : s.Indexed) {i j : Nat}
    (hne : j ≠ i) (hi : enters (s.heap i) = some (s.heap i).name)
    (hj : (s.heap j).pc = .registered) : (s.heap j).name ≠ (s.heap i).name := by
  intro hname
  have hentry : (enters ∘ s.heap) j = some (s.heap i).name := by
    simp [enters, hj, hname]
  exact hne (hindexed.entered.backed.injective hentry hi)

/-- The Manager follows a proxy that moves on to `pc`. -/
theorem Indexed.entered_move {s s' : State} (hindexed : s.Indexed) {i : Nat}
    {pxy : ServerProxy} (hheap : s'.heap = Function.update s.heap i pxy)
    (hpxys : s'.pxys = s.pxys) (henters : enters pxy = enters (s.heap i)) :
    Ledger.Exact s'.pxys (enters ∘ s'.heap) := by
  rw [hpxys, hheap, Function.comp_update]
  exact exact_of_same hindexed.entered henters

/-- A step that leaves the maps alone, about proxy `i`. -/
theorem Indexed.keep {s s' : State} (hindexed : s.Indexed) {i : Nat}
    {pxy : ServerProxy} (hheap : s'.heap = Function.update s.heap i pxy)
    (hentered : Ledger.Exact s'.pxys (enters ∘ s'.heap))
    (hmaps : s.SameMaps s')
    (hserving : registering pxy.pc = true →
      (s.controls pxy.control).stopping = false)
    (hkept : pxy.pc ≠ .registered) : s'.Indexed where
  entered := hentered
  serving j hregistering := by
    rw [(hmaps _).2.1]
    rw [hheap] at hregistering ⊢
    by_cases hj : j = i
    · rw [hj, Function.update_self] at hregistering ⊢
      exact hserving hregistering
    · rw [Function.update_of_ne hj] at hregistering ⊢
      exact hindexed.serving j hregistering
  kept j hregistered := by
    rw [(hmaps _).1, (hmaps _).2.2]
    rw [hheap] at hregistered ⊢
    by_cases hj : j = i
    · rw [hj, Function.update_self] at hregistered
      exact absurd hregistered hkept
    · rw [Function.update_of_ne hj] at hregistered ⊢
      exact hindexed.kept j hregistered

/-- The other registered proxies do not see what happens under the name of
`i`, which is in the Manager. -/
theorem Indexed.kept_other {s s' : State} (hindexed : s.Indexed) {i j : Nat}
    (hne : j ≠ i) (henters : enters (s.heap i) = some (s.heap i).name)
    (hproxies : ∀ c name, ¬ s.AtName i c name →
      (s'.controls c).proxies name = (s.controls c).proxies name)
    (hvisited : ∀ c name, ¬ s.AtName i c name →
      (name ∈ (s'.controls c).visited ↔ name ∈ (s.controls c).visited))
    (hregistered : (s.heap j).pc = .registered) :
    (s'.controls (s.heap j).control).proxies (s.heap j).name = some j ∧
      (s.heap j).name ∉ (s'.controls (s.heap j).control).visited := by
  have haway : ¬ s.AtName i (s.heap j).control (s.heap j).name :=
    fun hat => hindexed.ne_name hne henters hregistered hat.2
  rw [hproxies _ _ haway, hvisited _ _ haway]
  exact hindexed.kept j hregistered

/-- A step about proxy `i`, which is in the Manager under its name and is not
registered afterwards. -/
theorem Indexed.leave {s s' : State} (hindexed : s.Indexed) {i : Nat}
    {pc : ProxyPc} (henters : enters (s.heap i) = some (s.heap i).name)
    (hheap : s'.heap = Function.update s.heap i { s.heap i with pc := pc })
    (hentered : Ledger.Exact s'.pxys (enters ∘ s'.heap))
    (hproxies : ∀ c name, ¬ s.AtName i c name →
      (s'.controls c).proxies name = (s.controls c).proxies name)
    (hstopping : ∀ c, (s'.controls c).stopping = (s.controls c).stopping)
    (hvisited : ∀ c name, ¬ s.AtName i c name →
      (name ∈ (s'.controls c).visited ↔ name ∈ (s.controls c).visited))
    (hpc : pc = .closing ∨ pc = .gone) : s'.Indexed where
  entered := hentered
  serving j hregistering := by
    rw [hstopping]
    rw [hheap] at hregistering ⊢
    by_cases hj : j = i
    · rw [hj, Function.update_self] at hregistering
      rcases hpc with rfl | rfl <;> cases hregistering
    · rw [Function.update_of_ne hj] at hregistering ⊢
      exact hindexed.serving j hregistering
  kept j hregistered := by
    rw [hheap] at hregistered ⊢
    by_cases hj : j = i
    · rw [hj, Function.update_self] at hregistered
      rcases hpc with rfl | rfl <;> cases hregistered
    · rw [Function.update_of_ne hj] at hregistered ⊢
      exact hindexed.kept_other hj henters hproxies hvisited hregistered

/-- A proxy is entered in the map of its Control, which is not stopping. -/
theorem Indexed.register {s s' : State} (hindexed : s.Indexed)
    (hschedule : s.Schedule) {i : Nat} (hadded : (s.heap i).pc = .added)
    (hheap : s'.heap = Function.update s.heap i
      { s.heap i with pc := .registered })
    (hpxys : s'.pxys = s.pxys)
    (hself : (s'.controls (s.heap i).control).proxies (s.heap i).name = some i)
    (hothers : ∀ c name, ¬ s.AtName i c name →
      (s'.controls c).proxies name = (s.controls c).proxies name)
    (hstopers : ∀ c, (s'.controls c).stopping = (s.controls c).stopping ∧
      (s'.controls c).visited = (s.controls c).visited) : s'.Indexed where
  entered := hindexed.entered_move hheap hpxys (by simp [enters, hadded])
  serving j hregistering := by
    rw [(hstopers _).1]
    rw [hheap] at hregistering ⊢
    by_cases hj : j = i
    · rw [hj, Function.update_self] at hregistering
      cases hregistering
    · rw [Function.update_of_ne hj] at hregistering ⊢
      exact hindexed.serving j hregistering
  kept j hregistered := by
    rw [hheap] at hregistered ⊢
    by_cases hj : j = i
    · subst hj
      rw [Function.update_self]
      refine ⟨hself, ?_⟩
      have hserving := hindexed.serving j (by simp [registering, hadded])
      rw [(hstopers _).2, hschedule.unvisited _ hserving]
      exact Finset.notMem_empty _
    · rw [Function.update_of_ne hj] at hregistered ⊢
      apply hindexed.kept_other hj (by simp [enters, hadded]) hothers ?_
        hregistered
      intro c name _
      rw [(hstopers c).2]

theorem Indexed.of_effect {s s' : State} (hindexed : s.Indexed)
    (hschedule : s.Schedule) (heffect : s.Effect s') : s'.Indexed := by
  cases heffect with
  | create i pxy hserving hunused hcreated hheap hpxys hmaps =>
      apply hindexed.keep hheap ?_ hmaps (fun _ => hserving)
      · simp [hcreated]
      · apply hindexed.entered_move hheap hpxys
        simp [enters, hunused, hcreated]
  | proceed i pc hsilent hheap hpxys hmaps =>
      apply hindexed.keep hheap ?_ hmaps
      · intro hregistering
        apply hindexed.serving
        cases hpc : (s.heap i).pc <;> cases pc <;>
          simp_all [Silent, registering]
      · rintro rfl
        cases hpc : (s.heap i).pc <;> simp [Silent, hpc] at hsilent
      · apply hindexed.entered_move hheap hpxys
        cases hpc : (s.heap i).pc <;> cases pc <;>
          simp_all [Silent, enters]
  | add i hran hfree hheap hpxys hmaps =>
      apply hindexed.keep hheap ?_ hmaps
      · intro _
        exact hindexed.serving i (by simp [registering, hran])
      · simp
      · rw [hpxys, hheap, Function.comp_update]
        exact hindexed.entered.claim hfree (by simp [enters, hran])
  | register i hadded hheap hpxys hself hothers hstopers =>
      exact hindexed.register hschedule hadded hheap hpxys hself hothers
        hstopers
  | del i hclosed hheap hpxys hothers hstopers =>
      have henters : enters (s.heap i) = some (s.heap i).name := by
        simp [enters, hclosed]
      apply hindexed.leave henters hheap ?_ hothers (fun c => (hstopers c).1) ?_
        (Or.inr rfl)
      · rw [hpxys, hheap, Function.comp_update]
        exact hindexed.entered.drop henters
      · intro c name _
        rw [(hstopers c).2]
  | take i hregistered hheap hpxys hmaps hvisited =>
      apply hindexed.leave (by simp [enters, hregistered]) hheap ?_ ?_
        (fun c => (hmaps c).2) hvisited (Or.inl rfl)
      · apply hindexed.entered_move hheap hpxys
        simp [enters, hregistered]
      · intro c name _
        rw [(hmaps c).1]
  | stop c hidle hheap hpxys hmaps hothers =>
      constructor
      · rw [hheap, hpxys]
        exact hindexed.entered
      · intro i hregistering
        rw [hheap] at hregistering ⊢
        have hne : (s.heap i).control ≠ c := by
          rintro rfl
          have hbusy := hschedule.working i (by
            cases hpc : (s.heap i).pc <;>
              simp [hpc, registering, atWork] at hregistering ⊢)
          rw [hidle] at hbusy
          cases hbusy
        rw [hothers _ hne]
        exact hindexed.serving i hregistering
      · intro i hregistered
        rw [hheap] at hregistered ⊢
        rw [(hmaps _).1, (hmaps _).2]
        exact hindexed.kept i hregistered

/-- The stoper of the Control has ranged over all its proxies, or has ended on
the way by a panic. -/
def Stopped (s : State) (c : Nat) : Prop :=
  (s.controls c).stopping = true ∧ (s.controls c).busy = none ∧
    ((s.controls c).panicked = true ∨
      ∀ name i, (s.controls c).proxies name = some i →
        name ∈ (s.controls c).visited)

/-- No call is in progress, and every stoper that has begun has ended. -/
def Idle (s : State) : Prop :=
  ∀ c, (s.controls c).busy = none ∧
    ((s.controls c).stopping = true → s.Stopped c)

def Live (s : State) (c : Nat) : Prop :=
  (s.controls c).stopping = false

/-- Neither index changes. -/
def Spares (s s' : State) : Prop :=
  s'.pxys = s.pxys ∧ ∀ c, (s'.controls c).proxies = (s.controls c).proxies

/-- A step of a `RegisterProxy` that fails, or that may still fail. -/
def Revocable : ProxyPc → ProxyPc → Bool
  | .unused, .created | .created, .ran | .created, .gone | .ran, .rejected
  | .rejected, .gone => true
  | _, _ => false

/-- Names are unique, and both indexes say the same of them. -/
structure NamesIndexed (s : State) : Prop where
  indexed : s.Idle → ∀ name i, s.pxys name = some i ↔
    ∃! c, s.Live c ∧ (s.controls c).proxies name = some i
  revocable : ∀ action s' i, NatHole.step s action = some s' →
    Revocable (s.heap i).pc (s'.heap i).pc = true → s.Spares s'
  committed : ∀ action s' i, NatHole.step s action = some s' →
    (s.heap i).pc = .added →
      (s'.heap i).pc = .added ∨ (s'.heap i).pc = .registered
  stopped : ∀ c, s.Stopped c → ∀ name i, s.pxys name = some i →
    (s.heap i).control ≠ c

theorem not_revocable_self (pc : ProxyPc) : Revocable pc pc = false := by
  cases pc <;> rfl

/-- A revocable step is a step about the proxy itself. -/
theorem eq_of_revocable {s s' : State} {i j : Nat} {pxy : ServerProxy}
    (hheap : s'.heap = Function.update s.heap i pxy)
    (hrevocable : Revocable (s.heap j).pc (s'.heap j).pc = true) :
    j = i ∧ Revocable (s.heap i).pc pxy.pc = true := by
  by_cases hj : j = i
  · subst hj
    rw [hheap, Function.update_self] at hrevocable
    exact ⟨rfl, hrevocable⟩
  · rw [hheap, Function.update_of_ne hj, not_revocable_self] at hrevocable
    cases hrevocable

/-- What may still fail leaves both indexes alone. -/
theorem Effect.spares {s s' : State} (heffect : s.Effect s') {j : Nat}
    (hrevocable : Revocable (s.heap j).pc (s'.heap j).pc = true) :
    s.Spares s' := by
  cases heffect with
  | create i pxy _ _ _ _ hpxys hmaps =>
      exact ⟨hpxys, fun c => (hmaps c).1⟩
  | proceed i pc _ _ hpxys hmaps =>
      exact ⟨hpxys, fun c => (hmaps c).1⟩
  | add i hran _ hheap =>
      have hself := (eq_of_revocable hheap hrevocable).2
      simp [hran, Revocable] at hself
  | register i hadded hheap =>
      have hself := (eq_of_revocable hheap hrevocable).2
      simp [hadded, Revocable] at hself
  | del i hclosed hheap =>
      have hself := (eq_of_revocable hheap hrevocable).2
      simp [hclosed, Revocable] at hself
  | take i hregistered hheap =>
      have hself := (eq_of_revocable hheap hrevocable).2
      simp [hregistered, Revocable] at hself
  | stop c _ hheap =>
      rw [hheap, not_revocable_self] at hrevocable
      cases hrevocable

/-- Only the proxy that a step is about moves. -/
theorem pc_of_update {s s' : State} {i j : Nat} {pxy : ServerProxy}
    (hheap : s'.heap = Function.update s.heap i pxy) :
    (s'.heap j).pc = if j = i then pxy.pc else (s.heap j).pc := by
  by_cases hj : j = i
  · simp [hheap, hj]
  · simp [hheap, hj]

/-- A proxy that the Manager has taken will be registered. -/
theorem Effect.committed {s s' : State} (heffect : s.Effect s') {j : Nat}
    (hadded : (s.heap j).pc = .added) :
    (s'.heap j).pc = .added ∨ (s'.heap j).pc = .registered := by
  have hstays : ∀ {i : Nat} {pxy : ServerProxy},
      s'.heap = Function.update s.heap i pxy → (s.heap i).pc ≠ .added →
        (s'.heap j).pc = .added := by
    intro i pxy hheap hother
    have hne : j ≠ i := by
      rintro rfl
      exact hother hadded
    rw [pc_of_update hheap, if_neg hne, hadded]
  cases heffect with
  | create i pxy _ hunused _ hheap =>
      exact Or.inl (hstays hheap (by simp [hunused]))
  | proceed i pc hsilent hheap =>
      refine Or.inl (hstays hheap ?_)
      intro hpc
      simp [Silent, hpc] at hsilent
  | add i hran _ hheap => exact Or.inl (hstays hheap (by simp [hran]))
  | register i _ hheap =>
      rw [pc_of_update hheap]
      split
      · exact Or.inr rfl
      · exact Or.inl hadded
  | del i hclosed hheap => exact Or.inl (hstays hheap (by simp [hclosed]))
  | take i hregistered hheap =>
      exact Or.inl (hstays hheap (by simp [hregistered]))
  | stop c _ hheap => exact Or.inl (by rw [hheap, hadded])

/-- No goroutine of a Control has ended by a panic. -/
def Intact (s : State) : Prop :=
  ∀ c, (s.controls c).panicked = false

/-- A proxy in the Manager is registered once its Control is at rest. -/
theorem Indexed.registered {s : State} (hindexed : s.Indexed)
    (hschedule : s.Schedule) (hintact : s.Intact) {name : String} {i : Nat}
    (hpxy : s.pxys name = some i)
    (hidle : (s.controls (s.heap i).control).busy = none) :
    (s.heap i).pc = .registered ∧ (s.heap i).name = name := by
  have henters := (hindexed.entered i name).mp hpxy
  have hname := name_of_enters henters
  have hrest : atWork (s.heap i).pc = false := by
    by_contra hwork
    have hbusy := hschedule.working i (by simpa using hwork)
    rw [hidle] at hbusy
    cases hbusy
  have hkept : (s.heap i).pc ≠ .abandoned := by
    intro habandoned
    have hpanicked := (hschedule.abandoned i habandoned).panicked
    rw [hintact] at hpanicked
    cases hpanicked
  subst hname
  refine ⟨?_, rfl⟩
  cases hpc : (s.heap i).pc <;>
    simp [hpc, atWork, enters] at hrest hkept henters ⊢

theorem Indexed.stopped {s : State} (hindexed : s.Indexed)
    (hschedule : s.Schedule) (hintact : s.Intact) {c i : Nat}
    (hstopped : s.Stopped c) {name : String} (hpxy : s.pxys name = some i) :
    (s.heap i).control ≠ c := by
  rintro rfl
  obtain ⟨_, hidle, hpanicked | hall⟩ := hstopped
  · rw [hintact] at hpanicked
    cases hpanicked
  · obtain ⟨hregistered, _⟩ :=
      hindexed.registered hschedule hintact hpxy hidle
    obtain ⟨hentry, hleft⟩ := hindexed.kept i hregistered
    exact hleft (hall _ i hentry)

/-- An entry in the map of a Control that is not stopping is one of its own. -/
theorem Schedule.own_of_live {s : State} (hschedule : s.Schedule) {c i : Nat}
    {name : String} (hlive : s.Live c)
    (hentry : (s.controls c).proxies name = some i) :
    (s.heap i).control = c ∧ (s.heap i).name = name ∧
      mapped (s.heap i).pc = true := by
  apply hschedule.remembered c name i hentry
  simp [hschedule.unvisited c hlive]

theorem Indexed.iff_live {s : State} (hindexed : s.Indexed)
    (hschedule : s.Schedule) (hintact : s.Intact) (hidle : s.Idle)
    (name : String) (i : Nat) :
    s.pxys name = some i ↔
      ∃! c, s.Live c ∧ (s.controls c).proxies name = some i := by
  constructor
  · intro hpxy
    obtain ⟨hregistered, rfl⟩ :=
      hindexed.registered hschedule hintact hpxy (hidle _).1
    obtain ⟨hentry, _⟩ := hindexed.kept i hregistered
    have hlive : s.Live (s.heap i).control := by
      by_contra hstopping
      have hstopped := (hidle _).2 (by simpa [Live] using hstopping)
      exact hindexed.stopped hschedule hintact hstopped hpxy rfl
    refine ⟨(s.heap i).control, ⟨hlive, hentry⟩, ?_⟩
    rintro c ⟨hother, hfound⟩
    exact (hschedule.own_of_live hother hfound).1.symm
  · rintro ⟨c, ⟨hlive, hentry⟩, _⟩
    obtain ⟨hown, rfl, hmapped⟩ := hschedule.own_of_live hlive hentry
    apply (hindexed.entered i _).mpr
    cases hpc : (s.heap i).pc <;> simp [hpc, mapped, enters] at hmapped ⊢

theorem Indexed.namesIndexed {s : State} (hindexed : s.Indexed)
    (hschedule : s.Schedule) (hintact : s.Intact) : s.NamesIndexed where
  indexed hidle := hindexed.iff_live hschedule hintact hidle
  revocable _ _ _ hstep := (effect_of_step hschedule hstep).spares
  committed _ _ _ hstep := (effect_of_step hschedule hstep).committed
  stopped _ hstopped _ _ := hindexed.stopped hschedule hintact hstopped

end State

/-- No `Close` of a proxy panics. -/
def NoPanic (_ : State) : Action → Prop
  | .panic _ => False
  | _ => True

instance (s : State) (action : Action) : Decidable (NoPanic s action) :=
  match action with
  | .panic _ => inferInstanceAs (Decidable False)
  | .create _ _ _ _ _ | .run _ _ | .advance _ | .closeProxy _ _ | .stop _
  | .stopNext _ _ => inferInstanceAs (Decidable True)

namespace State

/-- A Control goes on with a goroutine that has not panicked. -/
theorem Intact.setControl {s s' : State} (hintact : s.Intact) {c : Nat}
    {ctl : ServerControl}
    (hcontrols : s'.controls = Function.update s.controls c ctl)
    (hserves : ctl.panicked = false) :
    s'.Intact := by
  intro c'
  rw [hcontrols]
  by_cases hc : c' = c
  · rw [hc, Function.update_self]
    exact hserves
  · rw [Function.update_of_ne hc]
    exact hintact c'

theorem Intact.advance {s s' : State} (hintact : s.Intact) {c i : Nat}
    (hnext : s.advance c i = some s') : s'.Intact := by
  cases advances_of_advance hnext with
  | reject | add => exact hintact
  | register =>
      exact hintact.setControl (controls_setBusy_setControl s c _ none)
        (hintact c)
  | giveUp =>
      have hsame : (((s.closeProxy i).setBusy c none).setPc i .gone).controls =
          Function.update s.controls c { s.controls c with busy := none } := by
        show Function.update (s.closeProxy i).controls c
          { (s.closeProxy i).controls c with busy := none } = _
        rw [closeProxy_controls]
      exact hintact.setControl hsame (hintact c)
  | close =>
      intro c'
      have hsame : ((s.closeProxy i).setPc i .closed).controls =
          s.controls := closeProxy_controls s i
      rw [hsame]
      exact hintact c'
  | del =>
      have hforget : (((s.setPxy (s.heap i).name none).forget c
          (s.heap i).name)).Intact := by
        unfold State.forget
        split
        · exact hintact
        · exact hintact.setControl rfl (hintact c)
      exact hforget.setControl rfl (hforget c)

theorem Intact.step {s s' : State} {action : Action} (hintact : s.Intact)
    (hcalm : NoPanic s action)
    (hstep : NatHole.step s action = some s') : s'.Intact := by
  cases steps_of_step hstep with
  | create | failed | closeProxy | stopNext =>
      exact hintact.setControl rfl (hintact _)
  | @ran c i =>
      intro c'
      have hsame : ((s.runProxy i).setPc i .ran).controls = s.controls :=
        runProxy_controls s i
      rw [hsame]
      exact hintact c'
  | advance _ hnext => exact hintact.advance hnext
  | panic => exact hcalm.elim
  | stop => exact hintact.setControl rfl rfl

end State

theorem indexed_of_reaches {word : List Action} {s : State}
    (hreaches : system.Reaches word s) : s.Schedule ∧ s.Indexed := by
  refine System.Reaches.invariant
    (I := fun s => s.Schedule ∧ s.Indexed)
    ⟨State.schedule_init, State.indexed_init⟩ ?_ hreaches
  rintro s action s' ⟨hschedule, hindexed⟩ hstep
  exact ⟨State.Schedule.step hschedule hstep,
    hindexed.of_effect hschedule (State.effect_of_step hschedule hstep)⟩

/-- In every run in which no `Close` panics names are unique, the Manager and the
maps of the live Controls agree, failed registrations leave no trace and a
finished stoper leaves no proxy behind. -/
theorem namesIndexed_of_run {word : List Action} {s : State}
    (hrun : system.Run NoPanic word s) : s.NamesIndexed := by
  obtain ⟨hschedule, hindexed⟩ := indexed_of_reaches hrun.reaches
  have hintact : s.Intact := by
    refine System.Run.invariant (I := State.Intact) (fun _ => rfl) ?_ hrun
    exact fun _ _ _ hintact hcalm hstep => hintact.step hcalm hstep
  exact hindexed.namesIndexed hschedule hintact

/-- A name is refused to a second Control, and free for it after the stoper of
the first. -/
def inheritedName : List Action :=
  [.create 0 0 "web" false "", .run 0 true, .advance 0, .advance 0,
    .create 1 1 "web" false "", .run 1 true, .advance 1, .advance 1,
    .stop 0, .stopNext 0 "web", .advance 0, .advance 0,
    .create 1 2 "web" false "", .run 1 true, .advance 1, .advance 1]

theorem namesIndexed_of_run_inheritedName :
    ∃ s, system.Run NoPanic inheritedName s ∧ s.pxys "web" = some 2 ∧
      s.NamesIndexed := by
  have hrun : ∃ s, system.Run NoPanic inheritedName s ∧
      s.pxys "web" = some 2 :=
    ⟨_, System.run_of_replay rfl, rfl⟩
  obtain ⟨s, hrun, hpxy⟩ := hrun
  exact ⟨s, hrun, hpxy, namesIndexed_of_run hrun⟩

/-- The stoper of a Control with two proxies panics in the `Close` of the first
one. -/
def panickedStoper : List Action :=
  [.create 0 0 "web" false "", .run 0 true, .advance 0, .advance 0,
    .create 0 1 "api" false "", .run 0 true, .advance 0, .advance 0,
    .stop 0, .stopNext 0 "web", .panic 0]

/-- Nothing is in progress, and the Manager has both proxies for ever. -/
theorem not_namesIndexed_panickedStoper :
    ∃ s, system.Reaches panickedStoper s ∧ s.Idle ∧ s.Stopped 0 ∧
      s.pxys "api" = some 1 ∧ (s.heap 1).control = 0 ∧ ¬ s.NamesIndexed := by
  have hrun : ∃ s, system.Reaches panickedStoper s ∧ s.Idle ∧ s.Stopped 0 ∧
      s.pxys "api" = some 1 ∧ (s.heap 1).control = 0 := by
    refine ⟨_, System.reaches_of_exec rfl, ?_, ?_, rfl, rfl⟩
    · rintro (_ | c)
      · exact ⟨rfl, fun _ => ⟨rfl, rfl, Or.inl rfl⟩⟩
      · exact ⟨rfl, fun hstopping => by cases hstopping⟩
    · exact ⟨rfl, rfl, Or.inl rfl⟩
  obtain ⟨s, hreaches, hidle, hstopped, hpxy, hown⟩ := hrun
  refine ⟨s, hreaches, hidle, hstopped, hpxy, hown, ?_⟩
  intro hindexed
  exact hindexed.stopped 0 hstopped "api" 1 hpxy hown

end NatHole

end Frp
