/-
One proxy name on both ends of a control connection: the Wrapper of
`client/proxy/proxy_wrapper.go` with the Manager that replaces it, and the
NewProxy and CloseProxy handling of `Control.manager` in `server/control.go`.
The connection is a reliable queue in each direction.
-/
import Mathlib.Data.List.Count
import Mathlib.Tactic.Basic
import Frp.Lib.System
import Frp.Client.Wrapper

namespace Frp

open Transition

inductive ClientMsg where
  | newProxy
  | closeProxy
deriving DecidableEq, Repr

structure NewProxyResp where
  remoteAddr : String
  error : String
deriving DecidableEq, Repr

/-- `Manager.HandleEvent`: the message that an event becomes. -/
def handleEvent : ProxyEvent → ClientMsg
  | .startProxy => .newProxy
  | .closeProxy => .closeProxy

/-- `util.GenerateResponseErrorString`. -/
def generateResponseErrorString (summary err : String) (detailed : Bool) :
    String :=
  if detailed then err else summary

/-- The end of `RegisterProxy`: the earlier checks and the plugins give
`outcome`, and `Manager.Add` refuses a name that is taken. -/
def registerProxy (name : String) (registered : Bool)
    (outcome : Except String String) : Except String String :=
  match outcome with
  | .error err => .error err
  | .ok remoteAddr =>
      if registered then .error ("proxy name [" ++ name ++ "] is already in use")
      else .ok remoteAddr

def newProxyResp (name : String) (detailed : Bool) :
    Except String String → NewProxyResp
  | .error err => ⟨"", generateResponseErrorString
      ("new proxy [" ++ name ++ "] error") err detailed⟩
  | .ok remoteAddr => ⟨remoteAddr, ""⟩

/-- What a reload says about the name: what `Compare` with the running proxy
returns, and whether a new Wrapper gets a health check. -/
structure NameConf where
  compares : Bool
  healthCheck : Bool
deriving DecidableEq, Repr

namespace Registration

/-- `wrappers` holds every Wrapper ever made for the name and `current` is the
Manager's map entry.  `handling` is an answer between the lookup of
`StartProxy` and its `SetRunningStatus`. -/
structure State where
  clock : Nat
  wrappers : Nat → Option Wrapper
  made : Nat
  current : Option Nat
  toServer : List ClientMsg
  toClient : List NewProxyResp
  handling : Option (Nat × NewProxyResp)
  registered : Bool

inductive Action where
  | elapse (seconds : Nat)
  | health (wrapper : Nat) (healthy : Bool)
  | check (wrapper : Nat)
  | reload (conf : Option NameConf)
  | serve (outcome : Except String String)
  | lookup
  | setRunning (runErr : Option String)

def init : State where
  clock := 0
  wrappers := fun _ => none
  made := 0
  current := none
  toServer := []
  toClient := []
  handling := none
  registered := false

namespace State

def setWrapper (s : State) (g : Nat) (pw : Wrapper) : State :=
  { s with wrappers := Function.update s.wrappers g (some pw) }

def push (s : State) : Option ProxyEvent → State
  | none => s
  | some event => { s with toServer := s.toServer ++ [handleEvent event] }

def check (s : State) (g : Nat) (pw : Wrapper) : State :=
  (s.setWrapper g (pw.checkWorker s.clock).1).push (pw.checkWorker s.clock).2

/-- Reload deletes the entry from the map and stops its Wrapper. -/
def stopCurrent (s : State) : State :=
  match s.current with
  | none => s
  | some g =>
      match s.wrappers g with
      | none => s
      | some pw =>
          ({ s with current := none }.setWrapper g pw.stop.1).push
            (some pw.stop.2)

def addWrapper (s : State) (healthCheck : Bool) : State :=
  { s.setWrapper s.made (Wrapper.newWrapper healthCheck) with
    current := some s.made
    made := s.made + 1 }

/-- `Manager.Reload` for one name: first the deletion, then the addition. -/
def reload (s : State) : Option NameConf → State
  | none => s.stopCurrent
  | some conf =>
      let kept := if conf.compares then s else s.stopCurrent
      if kept.current = none then kept.addWrapper conf.healthCheck else kept

/-- One message of `Control.manager`. -/
def serve (s : State) (name : String) (detailed : Bool)
    (outcome : Except String String) : Option State :=
  match s.toServer with
  | [] => none
  | .closeProxy :: rest => some { s with toServer := rest, registered := false }
  | .newProxy :: rest =>
      let result := registerProxy name s.registered outcome
      some { s with
        toServer := rest
        registered := s.registered || result.toOption.isSome
        toClient := s.toClient ++ [newProxyResp name detailed result] }

/-- `StartProxy` looks the Wrapper up and drops an answer for no Wrapper. -/
def lookup (s : State) : Option State :=
  match s.handling, s.toClient with
  | none, resp :: rest =>
      some { s with
        toClient := rest
        handling := s.current.map fun g => (g, resp) }
  | _, _ => none

/-- `SetRunningStatus` of the Wrapper that the lookup found. -/
def setRunning (s : State) (runErr : Option String) : Option State :=
  match s.handling with
  | none => none
  | some (g, resp) =>
      (s.wrappers g).map fun pw =>
        let status :=
          pw.setRunningStatus s.clock resp.remoteAddr resp.error runErr
        ({ s with handling := none }.setWrapper g status.pw).push status.event

end State

def step (name : String) (detailed : Bool) (s : State) :
    Action → Option State
  | .elapse seconds => some { s with clock := s.clock + seconds }
  | .health g healthy =>
      match s.wrappers g with
      | none => none
      | some pw =>
          if pw.monitor then
            some (s.setWrapper g (if healthy then pw.statusNormalCallback
              else pw.statusFailedCallback))
          else none
  | .check g => (s.wrappers g).map (s.check g)
  | .reload conf => some (s.reload conf)
  | .serve outcome => s.serve name detailed outcome
  | .lookup => s.lookup
  | .setRunning runErr => s.setRunning runErr

def system (name : String) (detailed : Bool) : System State Action where
  start := init
  step := step name detailed

namespace State

def phaseOf (s : State) (g : Nat) : Option Phase :=
  (s.wrappers g).map Wrapper.phase

/-- Nothing about the name is in flight. -/
def Quiescent (s : State) : Prop :=
  s.toServer = [] ∧ s.toClient = [] ∧ s.handling = none

/-- The two ends agree on whether the proxy runs. -/
def Agrees (s : State) : Prop :=
  s.current.bind s.phaseOf = some .running ↔ s.registered = true

/-- The next `SetRunningStatus` will be taken for an answer. -/
def Accepting (s : State) : Prop :=
  s.handling.bind (fun handled => s.phaseOf handled.1) = some .waitStart

/-- No other NewProxy is unanswered: what is handled answers the latest. -/
def AnswersLatest (s : State) : Prop :=
  .newProxy ∉ s.toServer ∧ s.toClient = []

instance (s : State) : Decidable s.Quiescent :=
  inferInstanceAs (Decidable (_ ∧ _ ∧ _))

instance (s : State) : Decidable s.Agrees :=
  inferInstanceAs (Decidable (_ ↔ _))

instance (s : State) : Decidable s.Accepting :=
  inferInstanceAs (Decidable (_ = _))

instance (s : State) : Decidable s.AnswersLatest :=
  inferInstanceAs (Decidable (_ ∧ _))

end State

/-- The error text under which the client takes a rejection for success. -/
def SilentRejection (detailed : Bool) (outcome : Except String String) : Prop :=
  detailed = true ∧ outcome = .error ""

/-- The steps that keep the two ends together: only the answer to the latest
NewProxy is accepted, and no NewProxy is rejected with an empty text. -/
def Permitted (detailed : Bool) (s : State) : Action → Prop
  | .serve outcome =>
      s.toServer.head? = some .newProxy → ¬ SilentRejection detailed outcome
  | .setRunning _ => s.Accepting → s.AnswersLatest
  | _ => True

instance (detailed : Bool) (outcome : Except String String) :
    Decidable (SilentRejection detailed outcome) :=
  inferInstanceAs (Decidable (_ ∧ _))

instance (detailed : Bool) (s : State) (action : Action) :
    Decidable (Permitted detailed s action) :=
  match action with
  | .serve _ => inferInstanceAs (Decidable (_ → ¬ _))
  | .setRunning _ => inferInstanceAs (Decidable (_ → _))
  | .elapse _ | .health _ _ | .check _ | .reload _ | .lookup =>
      inferInstanceAs (Decidable True)

namespace State

/-- The answers that will still reach the Wrapper `g`: those on their way, and
the one that a lookup has already handed to it. -/
def unanswered (s : State) (g : Nat) : Nat :=
  s.toServer.count .newProxy + s.toClient.length +
    if s.handling.map Prod.fst = some g then 1 else 0

/-- Once the server has read its queue the name is not registered. -/
def Settling (s : State) : Prop :=
  s.toServer.getLast? = some .closeProxy ∨
    (s.toServer = [] ∧ s.registered = false)

/-- Where the only unanswered NewProxy can be: last in the queue of a server
that will have closed the name by then, or answered truthfully. -/
def Sole (s : State) (g : Nat) : Prop :=
  (∃ n, s.toServer = List.replicate n .closeProxy ++ [.newProxy] ∧
    (s.registered = true → 0 < n)) ∨
  (s.toServer = [] ∧ ∃ resp,
    (s.toClient = [resp] ∨ s.handling = some (g, resp)) ∧
    (resp.error = "" ↔ s.registered = true))

/-- What the phase of the current Wrapper says about the wire. -/
def Tracks (s : State) (g : Nat) : Phase → Prop
  | .running => s.toServer = [] ∧ s.toClient = [] ∧ s.registered = true
  | .waitStart => 1 ≤ s.unanswered g ∧ (s.unanswered g = 1 → s.Sole g)
  | .closed => False
  | .new | .startErr | .checkFailed => s.Settling

structure Inv (s : State) : Prop where
  retired : ∀ g phase, s.phaseOf g = some phase → s.current ≠ some g →
    phase = .closed
  fresh : ∀ g, s.made ≤ g → s.phaseOf g = none
  handled : ∀ g resp, s.handling = some (g, resp) → g < s.made
  settled : s.current = none → s.Settling
  tracked : ∀ g, s.current = some g →
    ∃ phase, s.phaseOf g = some phase ∧ s.Tracks g phase

theorem phaseOf_setWrapper (s : State) (g other : Nat) (pw : Wrapper) :
    (s.setWrapper g pw).phaseOf other =
      if other = g then some pw.phase else s.phaseOf other := by
  by_cases hother : other = g
  · simp [phaseOf, setWrapper, hother]
  · simp [phaseOf, setWrapper, hother]

@[simp] theorem phaseOf_push (s : State) (event : Option ProxyEvent) :
    (s.push event).phaseOf = s.phaseOf := by
  cases event <;> rfl

@[simp] theorem push_current (s : State) (event : Option ProxyEvent) :
    (s.push event).current = s.current := by
  cases event <;> rfl

@[simp] theorem push_made (s : State) (event : Option ProxyEvent) :
    (s.push event).made = s.made := by
  cases event <;> rfl

@[simp] theorem push_handling (s : State) (event : Option ProxyEvent) :
    (s.push event).handling = s.handling := by
  cases event <;> rfl

theorem phaseOf_eq_some {s : State} {g : Nat} {pw : Wrapper}
    (hpw : s.wrappers g = some pw) : s.phaseOf g = some pw.phase := by
  simp [phaseOf, hpw]

/-- A CloseProxy at the end of the queue settles the name. -/
theorem settling_of_getLast {s : State} (queue : List ClientMsg)
    (hqueue : s.toServer = queue ++ [.closeProxy]) : s.Settling := by
  left
  rw [hqueue, List.getLast?_concat]

/-- A state that differs only in what the invariant reads off the wire. -/
theorem Inv.frame {s s' : State} (hinv : s.Inv)
    (hphases : s'.phaseOf = s.phaseOf) (hcurrent : s'.current = s.current)
    (hmade : s'.made = s.made)
    (hhandling : ∀ g resp, s'.handling = some (g, resp) → g < s.made)
    (hsettling : s.Settling → s'.Settling)
    (htracks : ∀ g phase, s.current = some g → s.phaseOf g = some phase →
      s.Tracks g phase → s'.Tracks g phase) : s'.Inv where
  retired g phase hphase hother :=
    hinv.retired g phase (hphases ▸ hphase) (hcurrent ▸ hother)
  fresh g hg := hphases ▸ hinv.fresh g (hmade ▸ hg)
  handled g resp hresp := hmade ▸ hhandling g resp hresp
  settled hnone := hsettling (hinv.settled (hcurrent ▸ hnone))
  tracked g hg := by
    rw [hcurrent] at hg
    obtain ⟨phase, hphase, hold⟩ := hinv.tracked g hg
    exact ⟨phase, hphases ▸ hphase, htracks g phase hg hphase hold⟩

/-- A step of the current Wrapper into `phase`. -/
theorem Inv.track {s s' : State} (hinv : s.Inv) {g : Nat}
    (hg : s.current = some g) (phase : Phase)
    (hphases : ∀ other, s'.phaseOf other =
      if other = g then some phase else s.phaseOf other)
    (hcurrent : s'.current = s.current) (hmade : s'.made = s.made)
    (hhandling : ∀ g resp, s'.handling = some (g, resp) → g < s.made)
    (htracks : s'.Tracks g phase) : s'.Inv where
  retired other otherPhase hphase hother := by
    rw [hcurrent] at hother
    have hne : other ≠ g := fun h => hother (h ▸ hg)
    rw [hphases, if_neg hne] at hphase
    exact hinv.retired other otherPhase hphase hother
  fresh other hfresh := by
    rw [hmade] at hfresh
    have hne : other ≠ g := by
      rintro rfl
      obtain ⟨old, hold, _⟩ := hinv.tracked other hg
      simp [hinv.fresh other hfresh] at hold
    rw [hphases, if_neg hne]
    exact hinv.fresh other hfresh
  handled other resp hresp := hmade ▸ hhandling other resp hresp
  settled hnone := by simp [hcurrent, hg] at hnone
  tracked other hother := by
    rw [hcurrent, hg, Option.some.injEq] at hother
    subst hother
    exact ⟨phase, by rw [hphases, if_pos rfl], htracks⟩

/-- A Wrapper that is not closed is the current one. -/
theorem Inv.current_of_open {s : State} (hinv : s.Inv) {g : Nat}
    {phase : Phase} (hphase : s.phaseOf g = some phase)
    (hopen : phase ≠ .closed) :
    s.current = some g ∧ s.Tracks g phase := by
  have hg : s.current = some g := by
    by_contra hother
    exact hopen (hinv.retired g phase hphase hother)
  obtain ⟨found, hfound, htracks⟩ := hinv.tracked g hg
  rw [hphase, Option.some.injEq] at hfound
  exact ⟨hg, hfound ▸ htracks⟩

/-- A Wrapper keeps its phase and nothing is sent. -/
theorem Inv.setWrapper {s : State} (hinv : s.Inv) {g : Nat} {pw next : Wrapper}
    (hpw : s.wrappers g = some pw) (hphase : next.phase = pw.phase) :
    (s.setWrapper g next).Inv := by
  have hphases : (s.setWrapper g next).phaseOf = s.phaseOf := by
    funext other
    rw [phaseOf_setWrapper]
    by_cases hother : other = g
    · rw [if_pos hother, hother, phaseOf_eq_some hpw, hphase]
    · rw [if_neg hother]
  apply hinv.frame hphases rfl rfl hinv.handled
  · exact fun hsettling => hsettling
  · intro other phase _ _ htracks
    cases phase <;> exact htracks

/-- Before a NewProxy is sent either another one is unanswered, or the queue
ends up with this one behind the CloseProxy messages. -/
theorem tracks_waitStart_of_push {s s' : State} {g : Nat}
    (hbefore : s.Settling ∨ 1 ≤ s.unanswered g)
    (hserver : s'.toServer = s.toServer ++ [.newProxy])
    (hclient : s'.toClient = s.toClient) (hhandling : s'.handling = s.handling)
    (hregistered : s'.registered = s.registered) :
    s'.Tracks g .waitStart := by
  have hcount : s'.unanswered g = s.unanswered g + 1 := by
    simp only [unanswered, hserver, hclient, hhandling, List.count_append,
      List.count_singleton_self]
    omega
  refine ⟨by omega, ?_⟩
  intro hone
  have hzero : s.unanswered g = 0 := by omega
  left
  refine ⟨s.toServer.length, ?_, ?_⟩
  · have hnew : s.toServer.count .newProxy = 0 := by
      unfold unanswered at hzero
      omega
    have hall : ∀ m ∈ s.toServer, m = ClientMsg.closeProxy := by
      intro m hm
      cases m with
      | closeProxy => rfl
      | newProxy => exact absurd hm (List.count_eq_zero.mp hnew)
    rw [hserver, ← List.eq_replicate_of_mem hall]
  · intro hreg
    rw [hregistered] at hreg
    rcases hbefore with hlast | hpos
    · rcases hlast with hlast | ⟨_, hfree⟩
      · exact List.length_pos_iff.mpr (by
          intro hnil
          simp [hnil] at hlast)
      · simp [hfree] at hreg
    · omega

theorem Inv.check {s : State} (hinv : s.Inv) {g : Nat} {pw : Wrapper}
    (hpw : s.wrappers g = some pw) : (s.check g pw).Inv := by
  have hphase := phaseOf_eq_some hpw
  rcases Wrapper.checkWorker_cases pw s.clock with
    ⟨next, hcheck, hnext, hidle, hopen⟩ | ⟨next, hcheck, hnext, hactive⟩ |
      hcheck
  · obtain ⟨hg, htracks⟩ := hinv.current_of_open hphase hopen
    simp only [State.check, hcheck]
    apply hinv.track hg .waitStart
    · intro other
      rw [phaseOf_push, phaseOf_setWrapper, hnext]
    · exact push_current _ _
    · exact push_made _ _
    · exact hinv.handled
    · refine tracks_waitStart_of_push (s := s) ?_ rfl rfl rfl rfl
      cases hphaseEq : pw.phase with
      | running => exact absurd hphaseEq hidle
      | closed => exact absurd hphaseEq hopen
      | waitStart =>
          rw [hphaseEq] at htracks
          exact Or.inr htracks.1
      | new | startErr | checkFailed =>
          rw [hphaseEq] at htracks
          exact Or.inl htracks
  · have hopen : pw.phase ≠ .closed := by
      rcases hactive with h | h <;> simp [h]
    obtain ⟨hg, _⟩ := hinv.current_of_open hphase hopen
    simp only [State.check, hcheck]
    apply hinv.track hg .checkFailed
    · intro other
      rw [phaseOf_push, phaseOf_setWrapper, hnext]
    · exact push_current _ _
    · exact push_made _ _
    · exact hinv.handled
    · exact settling_of_getLast s.toServer rfl
  · simp only [State.check, hcheck]
    exact hinv.setWrapper hpw rfl

/-- Stopping leaves no current Wrapper and a CloseProxy on its way. -/
theorem Inv.stopCurrent {s : State} (hinv : s.Inv) :
    s.stopCurrent.Inv ∧ s.stopCurrent.current = none := by
  cases hcurrent : s.current with
  | none => simpa [State.stopCurrent, hcurrent] using hinv
  | some g =>
      obtain ⟨phase, hphase, _⟩ := hinv.tracked g hcurrent
      cases hpw : s.wrappers g with
      | none => simp [phaseOf, hpw] at hphase
      | some pw =>
          simp only [State.stopCurrent, hcurrent, hpw]
          refine ⟨?_, push_current _ _⟩
          refine
            { retired := ?_, fresh := ?_, handled := hinv.handled,
              settled := ?_, tracked := ?_ }
          · intro other otherPhase hother _
            rw [phaseOf_push, phaseOf_setWrapper] at hother
            by_cases hsame : other = g
            · rw [if_pos hsame, Option.some.injEq] at hother
              exact hother.symm
            · rw [if_neg hsame] at hother
              apply hinv.retired other otherPhase hother
              rw [hcurrent]
              exact fun h => hsame (Option.some.inj h).symm
          · intro other hother
            have hold : s.phaseOf other = none := hinv.fresh other hother
            have hsame : other ≠ g := by
              rintro rfl
              simp [hold] at hphase
            rw [phaseOf_push, phaseOf_setWrapper, if_neg hsame]
            exact hold
          · exact fun _ => settling_of_getLast s.toServer rfl
          · intro other hother
            simp [State.setWrapper] at hother

theorem Inv.addWrapper {s : State} (hinv : s.Inv) (hnone : s.current = none)
    (healthCheck : Bool) : (s.addWrapper healthCheck).Inv := by
  have hphases : ∀ other, (s.addWrapper healthCheck).phaseOf other =
      if other = s.made then some .new else s.phaseOf other :=
    fun other => phaseOf_setWrapper s s.made other _
  refine
    { retired := ?_, fresh := ?_, handled := ?_, settled := ?_,
      tracked := ?_ }
  · intro other phase hphase hother
    have hsame : other ≠ s.made := by
      rintro rfl
      exact hother rfl
    rw [hphases, if_neg hsame] at hphase
    exact hinv.retired other phase hphase (by simp [hnone])
  · intro other hother
    have hfresh : s.made + 1 ≤ other := hother
    rw [hphases, if_neg (by omega)]
    exact hinv.fresh other (by omega)
  · intro g resp hresp
    exact Nat.lt_succ_of_lt (hinv.handled g resp hresp)
  · intro hcurrent
    simp [State.addWrapper] at hcurrent
  · intro other hother
    have hsame : other = s.made := (Option.some.inj hother).symm
    exact ⟨.new, by rw [hphases, if_pos hsame], hinv.settled hnone⟩

theorem Inv.reload {s : State} (hinv : s.Inv) (conf : Option NameConf) :
    (s.reload conf).Inv := by
  cases conf with
  | none => exact hinv.stopCurrent.1
  | some conf =>
      have hkept : (if conf.compares then s else s.stopCurrent).Inv := by
        split
        · exact hinv
        · exact hinv.stopCurrent.1
      simp only [State.reload]
      by_cases hnone :
          (if conf.compares then s else s.stopCurrent).current = none
      · rw [if_pos hnone]
        exact hkept.addWrapper hnone conf.healthCheck
      · rw [if_neg hnone]
        exact hkept

/-- What the server answers to a NewProxy for a free name tells the outcome,
unless it rejects in silence. -/
theorem newProxyResp_truthful (name : String) {detailed : Bool}
    {outcome : Except String String}
    (hloud : ¬ SilentRejection detailed outcome) :
    (newProxyResp name detailed (registerProxy name false outcome)).error = "" ↔
      (registerProxy name false outcome).toOption.isSome = true := by
  cases outcome with
  | ok remoteAddr =>
      simp [registerProxy, newProxyResp, Except.toOption]
  | error err =>
      cases detailed with
      | false =>
          simp [registerProxy, newProxyResp, generateResponseErrorString,
            Except.toOption]
      | true =>
          have herr : err ≠ "" := by
            rintro rfl
            exact hloud ⟨rfl, rfl⟩
          simp [registerProxy, newProxyResp, generateResponseErrorString,
            Except.toOption, herr]

/-- The server takes one message and leaves the name settling. -/
theorem settling_serve {s s' : State} {msg : ClientMsg}
    {rest : List ClientMsg} (hsettling : s.Settling)
    (hserver : s.toServer = msg :: rest) (hrest : s'.toServer = rest)
    (hclose : msg = .closeProxy → s'.registered = false) : s'.Settling := by
  rcases hsettling with hlast | ⟨hnil, _⟩
  · rw [hserver] at hlast
    cases rest with
    | nil =>
        right
        rw [List.getLast?_singleton, Option.some.injEq] at hlast
        exact ⟨hrest, hclose hlast⟩
    | cons head tail =>
        left
        rw [hrest, ← hlast, List.getLast?_cons_cons]
  · simp [hnil] at hserver

theorem Inv.serve_close {s : State} (hinv : s.Inv) {rest : List ClientMsg}
    (hserver : s.toServer = .closeProxy :: rest) :
    { s with toServer := rest, registered := false }.Inv := by
  refine hinv.frame rfl rfl rfl hinv.handled ?_ ?_
  · intro hsettling
    exact settling_serve hsettling hserver rfl (fun _ => rfl)
  · intro g phase _ _ htracks
    cases phase with
    | running => simp [Tracks, hserver] at htracks
    | closed => exact htracks
    | new | startErr | checkFailed =>
        exact settling_serve (s := s) htracks hserver rfl (fun _ => rfl)
    | waitStart =>
        have hcount : unanswered { s with
            toServer := rest, registered := false } g = s.unanswered g := by
          simp [unanswered, hserver]
        refine ⟨hcount ▸ htracks.1, fun hone => ?_⟩
        rcases htracks.2 (hcount ▸ hone) with ⟨n, hqueue, _⟩ | ⟨hnil, _⟩
        · cases n with
          | zero => simp [hserver] at hqueue
          | succ n =>
              left
              rw [hserver, List.replicate_succ, List.cons_append,
                List.cons.injEq] at hqueue
              exact ⟨n, hqueue.2, fun hreg => absurd hreg (by simp)⟩
        · simp [hnil] at hserver

theorem Inv.serve_new {s s' : State} (hinv : s.Inv) (name : String)
    {detailed : Bool} {outcome : Except String String}
    {rest : List ClientMsg} (hserver : s.toServer = .newProxy :: rest)
    (hloud : ¬ SilentRejection detailed outcome)
    (hnext : s' = { s with
      toServer := rest
      registered := s.registered ||
        (registerProxy name s.registered outcome).toOption.isSome
      toClient := s.toClient ++ [newProxyResp name detailed
        (registerProxy name s.registered outcome)] }) : s'.Inv := by
  subst hnext
  refine hinv.frame rfl rfl rfl hinv.handled ?_ ?_
  · intro hsettling
    exact settling_serve hsettling hserver rfl (fun h => by cases h)
  · intro g phase _ _ htracks
    cases phase with
    | running => simp [Tracks, hserver] at htracks
    | closed => exact htracks
    | new | startErr | checkFailed =>
        exact settling_serve (s := s) htracks hserver rfl (fun h => by cases h)
    | waitStart =>
        have hcount : unanswered { s with
            toServer := rest
            registered := s.registered ||
              (registerProxy name s.registered outcome).toOption.isSome
            toClient := s.toClient ++ [newProxyResp name detailed
              (registerProxy name s.registered outcome)] } g =
            s.unanswered g := by
          simp only [unanswered, hserver, List.count_cons_self,
            List.length_append, List.length_singleton]
          omega
        refine ⟨hcount ▸ htracks.1, fun hone => ?_⟩
        have hbefore : s.unanswered g = 1 := hcount ▸ hone
        rcases htracks.2 hbefore with ⟨n, hqueue, hclosed⟩ | ⟨hnil, _⟩
        · cases n with
          | succ n => simp [hserver, List.replicate_succ] at hqueue
          | zero =>
              right
              have hrest : rest = [] := by
                simpa [hserver] using hqueue
              have hfree : s.registered = false := by
                by_contra hreg
                exact absurd (hclosed (by simpa using hreg)) (by simp)
              have hnil : s.toClient = [] := by
                rw [unanswered, hserver, List.count_cons_self] at hbefore
                exact List.length_eq_zero_iff.mp (by omega)
              refine ⟨hrest, _, Or.inl (by simp [hnil]; rfl), ?_⟩
              simpa [hfree] using newProxyResp_truthful name hloud
        · simp [hnil] at hserver

theorem Inv.lookup {s s' : State} (hinv : s.Inv)
    (hnext : s.lookup = some s') : s'.Inv := by
  cases hhandling : s.handling with
  | some handled => simp [State.lookup, hhandling] at hnext
  | none =>
      cases hclient : s.toClient with
      | nil => simp [State.lookup, hhandling, hclient] at hnext
      | cons resp rest =>
          simp only [State.lookup, hhandling, hclient,
            Option.some.injEq] at hnext
          subst hnext
          refine hinv.frame rfl rfl rfl ?_ (fun hsettling => hsettling) ?_
          · intro g other hother
            cases hcurrent : s.current with
            | none => simp [hcurrent] at hother
            | some current =>
                simp only [hcurrent, Option.map_some, Option.some.injEq,
                  Prod.mk.injEq] at hother
                obtain ⟨phase, hphase, _⟩ := hinv.tracked current hcurrent
                by_contra hfresh
                rw [hother.1, hinv.fresh g (by omega)] at hphase
                simp at hphase
          · intro g phase hg _ htracks
            cases phase with
            | running => simp [Tracks, hclient] at htracks
            | closed => exact htracks
            | new | startErr | checkFailed => exact htracks
            | waitStart =>
                have hcount : unanswered { s with
                    toClient := rest
                    handling := s.current.map fun g => (g, resp) } g =
                    s.unanswered g := by
                  simp [unanswered, hhandling, hclient, hg]
                  omega
                refine ⟨hcount ▸ htracks.1, fun hone => ?_⟩
                rcases htracks.2 (hcount ▸ hone) with
                  hqueue | ⟨hnil, only, hwhere, htruth⟩
                · exact Or.inl hqueue
                · right
                  refine ⟨hnil, only, Or.inr ?_, htruth⟩
                  rcases hwhere with honly | hbusy
                  · rw [hclient, List.cons.injEq] at honly
                    simp [hg, honly.1]
                  · simp [hhandling] at hbusy

/-- An answer that finds its Wrapper in another phase is dropped, and it did
not count for the current one. -/
theorem Inv.dropAnswer {s : State} (hinv : s.Inv) {g : Nat}
    {resp : NewProxyResp} {pw : Wrapper} (hhandling : s.handling = some (g, resp))
    (hpw : s.wrappers g = some pw) (hphase : pw.phase ≠ .waitStart) :
    { s with handling := none }.Inv := by
  refine hinv.frame rfl rfl rfl ?_ (fun hsettling => hsettling) ?_
  · intro other otherResp hother
    simp at hother
  · intro current phase hcurrent hold htracks
    cases phase with
    | running => exact htracks
    | closed => exact htracks
    | new | startErr | checkFailed => exact htracks
    | waitStart =>
        have hne : g ≠ current := by
          rintro rfl
          rw [phaseOf_eq_some hpw, Option.some.injEq] at hold
          exact hphase hold
        have hcount : unanswered { s with handling := none } current =
            s.unanswered current := by
          simp [unanswered, hhandling, hne]
        refine ⟨hcount ▸ htracks.1, fun hone => ?_⟩
        rcases htracks.2 (hcount ▸ hone) with
          hqueue | ⟨hnil, only, hwhere, htruth⟩
        · exact Or.inl hqueue
        · refine Or.inr ⟨hnil, only, Or.inl ?_, htruth⟩
          rcases hwhere with honly | hbusy
          · exact honly
          · rw [hhandling, Option.some.injEq, Prod.mk.injEq] at hbusy
            exact absurd hbusy.1 hne

/-- The answer that is accepted is the answer to the only NewProxy left. -/
theorem Inv.accepted {s : State} (hinv : s.Inv) {g : Nat}
    {resp : NewProxyResp} {pw : Wrapper} (hhandling : s.handling = some (g, resp))
    (hpw : s.wrappers g = some pw) (hphase : pw.phase = .waitStart)
    (hlatest : s.AnswersLatest) :
    s.current = some g ∧ s.toServer = [] ∧
      (resp.error = "" ↔ s.registered = true) := by
  have hwait : s.phaseOf g = some .waitStart := by
    rw [phaseOf_eq_some hpw, hphase]
  obtain ⟨hg, _, hsole⟩ := hinv.current_of_open hwait (by decide)
  have hone : s.unanswered g = 1 := by
    simp [unanswered, hhandling, hlatest.2, List.count_eq_zero.mpr hlatest.1]
  rcases hsole hone with ⟨n, hqueue, _⟩ | ⟨hnil, only, hwhere, htruth⟩
  · exact absurd (by simp [hqueue]) hlatest.1
  · refine ⟨hg, hnil, ?_⟩
    rcases hwhere with honly | hbusy
    · simp [hlatest.2] at honly
    · rw [hhandling, Option.some.injEq, Prod.mk.injEq] at hbusy
      rw [hbusy.2]
      exact htruth

theorem Inv.setRunning {s s' : State} (hinv : s.Inv) {runErr : Option String}
    (hlatest : s.Accepting → s.AnswersLatest)
    (hnext : s.setRunning runErr = some s') : s'.Inv := by
  cases hhandling : s.handling with
  | none => simp [State.setRunning, hhandling] at hnext
  | some handled =>
      obtain ⟨g, resp⟩ := handled
      cases hpw : s.wrappers g with
      | none => simp [State.setRunning, hhandling, hpw] at hnext
      | some pw =>
          simp only [State.setRunning, hhandling, hpw, Option.map_some,
            Option.some.injEq] at hnext
          subst hnext
          by_cases hphase : pw.phase = .waitStart
          · have haccepting : s.Accepting := by
              simp [Accepting, hhandling, phaseOf_eq_some hpw, hphase]
            obtain ⟨hg, hnil, htruth⟩ :=
              hinv.accepted hhandling hpw hphase (hlatest haccepting)
            have hclient := (hlatest haccepting).2
            have hphases : ∀ (next : Wrapper) (event : Option ProxyEvent)
                (other : Nat),
                (({ s with handling := none }.setWrapper g next).push
                  event).phaseOf other =
                if other = g then some next.phase else s.phaseOf other := by
              intro next event other
              rw [phaseOf_push, phaseOf_setWrapper]
              rfl
            have hidle : ∀ (next : Wrapper) (event : Option ProxyEvent)
                (other : Nat) (otherResp : NewProxyResp),
                (({ s with handling := none }.setWrapper g next).push
                  event).handling = some (other, otherResp) →
                other < s.made := by
              intro next event other otherResp hother
              rw [push_handling] at hother
              simp [State.setWrapper] at hother
            refine hinv.track hg _ (hphases _ _) (push_current _ _)
              (push_made _ _) (hidle _ _) ?_
            rcases Wrapper.setRunningStatus_cases hphase s.clock
                resp.remoteAddr resp.error runErr with
              ⟨herr, hnew, hevent⟩ | ⟨_, hnew, hevent⟩ | ⟨herr, hnew, hevent⟩
            · rw [hnew, hevent]
              have hfree : s.registered = false := by
                simpa using fun hreg => herr (htruth.mpr hreg)
              exact Or.inr ⟨hnil, hfree⟩
            · rw [hnew, hevent]
              exact settling_of_getLast s.toServer rfl
            · rw [hnew, hevent]
              exact ⟨hnil, hclient, htruth.mp herr⟩
          · obtain ⟨hkeep, hquiet⟩ := Wrapper.setRunningStatus_ignored hphase
              s.clock resp.remoteAddr resp.error runErr
            rw [hquiet]
            refine (hinv.dropAnswer hhandling hpw hphase).setWrapper hpw ?_
            rw [hkeep]

theorem inv_init : init.Inv where
  retired g phase hphase _ := by simp [phaseOf, init] at hphase
  fresh _ _ := rfl
  handled g resp hresp := by simp [init] at hresp
  settled _ := Or.inr ⟨rfl, rfl⟩
  tracked g hg := by simp [init] at hg

/-- Every permitted step keeps the invariant. -/
theorem Inv.step {name : String} {detailed : Bool} {s s' : State}
    {action : Action} (hinv : s.Inv) (hpermitted : Permitted detailed s action)
    (hstep : Registration.step name detailed s action = some s') : s'.Inv := by
  cases action with
  | elapse seconds =>
      simp only [Registration.step, Option.some.injEq] at hstep
      subst hstep
      exact hinv.frame rfl rfl rfl hinv.handled (fun h => h)
        (fun g phase _ _ htracks => by cases phase <;> exact htracks)
  | health g healthy =>
      cases hpw : s.wrappers g with
      | none => simp [Registration.step, hpw] at hstep
      | some pw =>
          simp only [Registration.step, hpw] at hstep
          split at hstep
          · rw [Option.some.injEq] at hstep
            subst hstep
            apply hinv.setWrapper hpw
            cases healthy <;> rfl
          · cases hstep
  | check g =>
      cases hpw : s.wrappers g with
      | none => simp [Registration.step, hpw] at hstep
      | some pw =>
          simp only [Registration.step, hpw, Option.map_some,
            Option.some.injEq] at hstep
          exact hstep ▸ hinv.check hpw
  | reload conf =>
      simp only [Registration.step, Option.some.injEq] at hstep
      exact hstep ▸ hinv.reload conf
  | serve outcome =>
      cases hserver : s.toServer with
      | nil => simp [Registration.step, State.serve, hserver] at hstep
      | cons msg rest =>
          cases msg with
          | closeProxy =>
              simp only [Registration.step, State.serve, hserver,
                Option.some.injEq] at hstep
              exact hstep ▸ hinv.serve_close hserver
          | newProxy =>
              simp only [Registration.step, State.serve, hserver,
                Option.some.injEq] at hstep
              exact hinv.serve_new name hserver
                (hpermitted (by rw [hserver]; rfl)) hstep.symm
  | lookup => exact hinv.lookup hstep
  | setRunning runErr => exact hinv.setRunning hpermitted hstep

/-- With nothing in flight only a running Wrapper has its name registered. -/
theorem Inv.agrees {s : State} (hinv : s.Inv) (hquiet : s.Quiescent) :
    s.Agrees := by
  obtain ⟨hserver, hclient, hhandling⟩ := hquiet
  have hsettled : s.Settling → s.registered = false := by
    rintro (hlast | ⟨_, hfree⟩)
    · simp [hserver] at hlast
    · exact hfree
  cases hcurrent : s.current with
  | none => simp [Agrees, hcurrent, hsettled (hinv.settled hcurrent)]
  | some g =>
      obtain ⟨phase, hphase, htracks⟩ := hinv.tracked g hcurrent
      cases phase with
      | running => simp [Agrees, hcurrent, hphase, htracks.2.2]
      | closed => exact htracks.elim
      | new | startErr | checkFailed =>
          simp [Agrees, hcurrent, hphase, hsettled htracks]
      | waitStart =>
          have hpending := htracks.1
          simp [unanswered, hserver, hclient, hhandling] at hpending

end State

theorem inv_of_run {name : String} {detailed : Bool} {word : List Action}
    {s : State} (hrun : (system name detailed).Run (Permitted detailed) word s) :
    s.Inv :=
  System.Run.invariant State.inv_init
    (fun _ _ _ hinv hpermitted hstep => hinv.step hpermitted hstep) hrun

/-- The two ends agree whenever nothing is in flight, in every run in which no
late answer is accepted and no rejection is silent. -/
theorem agrees_of_quiescent (name : String) (detailed : Bool)
    {word : List Action} {s : State}
    (hrun : (system name detailed).Run (Permitted detailed) word s)
    (hquiet : s.Quiescent) : s.Agrees :=
  (inv_of_run hrun).agrees hquiet

/-- A health failure and a recovery between two accepted answers. -/
def recovery : List Action :=
  [.reload (some ⟨false, true⟩), .health 0 true, .check 0, .serve (.ok ":6000"),
    .lookup, .setRunning none, .health 0 false, .check 0, .serve (.ok ""),
    .health 0 true, .check 0, .serve (.ok ":6000"), .lookup, .setRunning none]

theorem agrees_of_quiescent_recovery :
    ∃ s, (system "web" false).Run (Permitted false) recovery s ∧
      s.registered = true ∧ s.Agrees := by
  obtain ⟨s, hrun, hquiet, hregistered⟩ :
      ∃ s, (system "web" false).Run (Permitted false) recovery s ∧
        s.Quiescent ∧ s.registered = true :=
    System.exists_run_of_replay (by decide)
  exact ⟨s, hrun, hregistered, agrees_of_quiescent "web" false hrun hquiet⟩

/-- The server rejects the first NewProxy and accepts the resent one; the late
rejection is taken for the answer to the second, whose own answer is ignored. -/
def lateRejection : List Action :=
  [.reload (some ⟨false, false⟩), .check 0, .elapse 21, .check 0,
    .serve (.error "port unavailable"), .serve (.ok ":6000"),
    .lookup, .setRunning none, .lookup, .setRunning none]

theorem disagrees_lateRejection :
    ∃ s, (system "web" false).Reaches lateRejection s ∧
      s.Quiescent ∧ ¬ s.Agrees :=
  System.exists_reaches_of_exec (by decide)

end Registration

end Frp
