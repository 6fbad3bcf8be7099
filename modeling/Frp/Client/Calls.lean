/-
The calls of the proxy Manager and of the Wrappers of frpc that send on `sendCh`
while they hold a mutex.  A call runs to its end in one step unless it waits:
for room in `sendCh`, in the queue of the senders, or, in a `Reload` or `Close`
of the Manager, for the mutex of the next Wrapper to stop.
-/
import Frp.Lib.Chan
import Frp.Client.ConfMap
import Frp.Client.Registration

namespace Frp

open GoChan

namespace Client

inductive ControlMsg where
  | proxy (m : ClientMsg) (name : String)
  | ping
deriving DecidableEq, Repr

/-- What is left of a `Reload` or `Close` of the Manager: the Wrapper that is
being stopped, those after it, and the configurations to add. -/
structure Stops where
  current : String × Nat
  rest : List (String × Nat)
  adds : List (String × NameConf)
deriving DecidableEq

/-- A call that waits for room in `sendCh`: `checkWorker` of a Wrapper, `Stop`
for the Manager, and the message handler in `SetRunningStatus` or with a
heartbeat. -/
inductive Waiter where
  | check (i : Nat)
  | stop (op : Stops)
  | setRunning (i : Nat)
  | ping
deriving DecidableEq

/-- The Wrapper whose mutex is held. -/
def Waiter.holds : Waiter → Option Nat
  | .check i | .setRunning i => some i
  | .stop op => some op.current.2
  | .ping => none

def Waiter.byHandler : Waiter → Bool
  | .setRunning _ | .ping => true
  | .check _ | .stop _ => false

/-- The mutex of the Manager is held. -/
def Waiter.byManager : Waiter → Bool
  | .stop _ => true
  | .check _ | .setRunning _ | .ping => false

structure Waiting where
  waiter : Waiter
  msg : ControlMsg
deriving DecidableEq

/-- `sendq` are the senders that wait, in the order in which they came, and
`stopping` waits for the mutex of the Wrapper it is to stop next. -/
structure Calls where
  sendCh : Chan ControlMsg 100
  sendq : List Waiting
  stopping : Option Stops
  wrappers : Nat → Option (String × Wrapper)
  made : Nat
  proxies : List (String × Nat)

namespace Calls

def init : Calls where
  sendCh := Chan.make ControlMsg 100
  sendq := []
  stopping := none
  wrappers := fun _ => none
  made := 0
  proxies := []

/-- The mutex of a Wrapper is held. -/
def Locked (c : Calls) (i : Nat) : Prop :=
  ∃ w ∈ c.sendq, w.waiter.holds = some i

instance (c : Calls) (i : Nat) : Decidable (c.Locked i) :=
  inferInstanceAs (Decidable (∃ w ∈ c.sendq, w.waiter.holds = some i))

/-- The mutex of the Manager is held. -/
def Busy (c : Calls) : Prop :=
  c.stopping ≠ none ∨ ∃ w ∈ c.sendq, w.waiter.byManager = true

instance (c : Calls) : Decidable c.Busy :=
  inferInstanceAs (Decidable (_ ∨ _))

/-- One send; the flag says whether the sender goes on.  On a closed channel
it does, because the panic becomes an error that nobody looks at. -/
def offer (c : Calls) (waiter : Waiter) (msg : ControlMsg) : Calls × Bool :=
  match c.sendCh.send msg with
  | .done chan => ({ c with sendCh := chan }, true)
  | .block => ({ c with sendq := c.sendq ++ [⟨waiter, msg⟩] }, false)
  | .panic => (c, true)

def setWrapper (c : Calls) (i : Nat) (name : String) (pw : Wrapper) : Calls :=
  { c with wrappers := Function.update c.wrappers i (some (name, pw)) }

/-- One pass of `checkWorker`. -/
def check (c : Calls) (clock i : Nat) : Option Calls :=
  match c.wrappers i with
  | none => none
  | some (name, pw) =>
      if c.Locked i then none
      else
        let next := c.setWrapper i name (pw.checkWorker clock).1
        match (pw.checkWorker clock).2 with
        | none => some next
        | some event =>
            some (next.offer (.check i) (.proxy (handleEvent event) name)).1

def addWrapper (c : Calls) (entry : String × NameConf) : Calls :=
  { c.setWrapper c.made entry.1 (Wrapper.newWrapper entry.2.healthCheck) with
    made := c.made + 1
    proxies := c.proxies ++ [(entry.1, c.made)] }

def stopWrapper (c : Calls) (i : Nat) : Calls :=
  match c.wrappers i with
  | none => c
  | some (name, pw) => c.setWrapper i name pw.stop.1

/-- Stop Wrappers one after the other, and then add the new ones. -/
def stopAll (adds : List (String × NameConf)) :
    List (String × Nat) → Calls → Calls
  | [], c => adds.foldl addWrapper c
  | entry :: rest, c =>
      if c.Locked entry.2 then { c with stopping := some ⟨entry, rest, adds⟩ }
      else
        let offered := (c.stopWrapper entry.2).offer
          (.stop ⟨entry, rest, adds⟩) (.proxy .closeProxy entry.1)
        if offered.2 then stopAll adds rest offered.1 else offered.1

/-- The entries that `Reload` keeps. -/
def keeps (cfgs : ConfMap NameConf) (entry : String × Nat) : Bool :=
  (cfgs.get entry.1).any NameConf.compares

/-- `Manager.Reload`; the map of proxies is visited in any order. -/
def reload (c : Calls) (cfgs : ConfMap NameConf)
    (order : List (String × Nat)) : Option Calls :=
  let kept := c.proxies.filter (keeps cfgs)
  let adds := cfgs.entries.filter fun entry => entry.1 ∉ kept.map Prod.fst
  if ¬ c.Busy ∧ order.Perm (c.proxies.filter fun entry => ¬ keeps cfgs entry)
  then some (stopAll adds order { c with proxies := kept })
  else none

/-- `Manager.Close`. -/
def close (c : Calls) (order : List (String × Nat)) : Option Calls :=
  if ¬ c.Busy ∧ order.Perm c.proxies then
    some (stopAll [] order { c with proxies := [] })
  else none

/-- `SetRunningStatus` of a Wrapper whose mutex is free; the flag is that of
`offer`. -/
def setRunningStatus (c : Calls) (clock i : Nat) (remoteAddr respErr : String)
    (runErr : Option String) : Calls × Bool :=
  match c.wrappers i with
  | none => (c, true)
  | some (name, pw) =>
      let status := pw.setRunningStatus clock remoteAddr respErr runErr
      let next := c.setWrapper i name status.pw
      match status.event with
      | none => (next, true)
      | some event =>
          next.offer (.setRunning i) (.proxy (handleEvent event) name)

/-- A mutex has been given back. -/
def continueStops (c : Calls) : Calls :=
  match c.stopping with
  | none => c
  | some op =>
      stopAll op.adds (op.current :: op.rest) { c with stopping := none }

/-- A sender has left the queue and runs on. -/
def resume (c : Calls) : Waiter → Calls
  | .check _ | .setRunning _ => c.continueStops
  | .stop op => stopAll op.adds op.rest c
  | .ping => c

/-- The writer has received and left `chan`: the first sender in the queue gets
the room. -/
def serve (c : Calls) (chan : Chan ControlMsg 100) : Calls :=
  match c.sendq with
  | [] => { c with sendCh := chan }
  | first :: rest =>
      match chan.send first.msg with
      | .done next =>
          { c with sendCh := next, sendq := rest }.resume first.waiter
      | .block | .panic => { c with sendCh := chan }

/-- Closing `sendCh` lets all senders go, and no mutex is held any more. -/
def closeSendCh (c : Calls) : Outcome Calls :=
  match c.sendCh.close with
  | .done chan => .done (c.sendq.foldl (fun (next : Calls) w => next.resume w.waiter)
      { c with sendCh := chan, sendq := [] }).continueStops
  | .block => .block
  | .panic => .panic

/-- The senders of the message handler in the queue. -/
def handlers (c : Calls) : Nat :=
  c.sendq.countP fun w => w.waiter.byHandler

/-- The calls of the Manager that hold its mutex. -/
def managers (c : Calls) : Nat :=
  c.sendq.countP (fun w => w.waiter.byManager) + c.stopping.toList.length

/-- Senders wait only for room in a full open channel. -/
def Full (c : Calls) : Prop :=
  c.sendq ≠ [] → c.sendCh.full ∧ c.sendCh.closed = false

/-- Besides, one call at a time holds the mutex of the Manager, and it waits
only for a mutex that is held. -/
structure Inv (c : Calls) : Prop where
  full : c.Full
  alone : c.managers ≤ 1
  stopping : ∀ op ∈ c.stopping, c.Locked op.current.2

theorem inv_init : init.Inv :=
  ⟨by simp [init, Full], by simp [init, managers], by simp [init]⟩

/-- Calls have gone on that are not the handler's: the channel is as closed as
it was, and the queue has only got longer. -/
structure Goes (c c' : Calls) : Prop where
  closed : c'.sendCh.closed = c.sendCh.closed
  queue : ∃ more, c'.sendq = c.sendq ++ more ∧
    ∀ w ∈ more, w.waiter.byHandler = false

theorem Goes.refl (c : Calls) : Goes c c :=
  ⟨rfl, [], by simp, by simp⟩

theorem Goes.trans {a b c : Calls} (hab : Goes a b) (hbc : Goes b c) :
    Goes a c := by
  obtain ⟨first, hfirst, hother⟩ := hab.queue
  obtain ⟨more, hmore, hothers⟩ := hbc.queue
  refine ⟨hbc.closed.trans hab.closed, first ++ more, ?_, ?_⟩
  · rw [hmore, hfirst, List.append_assoc]
  · intro w hw
    rcases List.mem_append.mp hw with hold | hnew
    · exact hother w hold
    · exact hothers w hnew

theorem Goes.handlers {c c' : Calls} (hgoes : Goes c c') :
    c'.handlers = c.handlers := by
  obtain ⟨more, hmore, hother⟩ := hgoes.queue
  have hnone : more.countP (fun w => w.waiter.byHandler) = 0 := by
    rw [List.countP_eq_zero]
    intro w hw
    simp [hother w hw]
  rw [Calls.handlers, hmore, List.countP_append, hnone]
  rfl

theorem Goes.mem {c c' : Calls} (hgoes : Goes c c') {w : Waiting}
    (hw : w ∈ c.sendq) : w ∈ c'.sendq := by
  obtain ⟨more, hmore, _⟩ := hgoes.queue
  rw [hmore]
  exact List.mem_append_left more hw

theorem Goes.locked {c c' : Calls} (hgoes : Goes c c') {i : Nat}
    (hlocked : c.Locked i) : c'.Locked i := by
  obtain ⟨w, hw, hholds⟩ := hlocked
  exact ⟨w, hgoes.mem hw, hholds⟩

/-- Nobody waits when nothing is held. -/
theorem Locked.queue_ne_nil {c : Calls} {i : Nat} (hlocked : c.Locked i) :
    c.sendq ≠ [] := by
  obtain ⟨w, hw, _⟩ := hlocked
  exact List.ne_nil_of_mem hw

theorem Inv.queue_ne_nil_of_busy {c : Calls} (hinv : c.Inv)
    (hbusy : c.Busy) : c.sendq ≠ [] := by
  rcases hbusy with hstopping | ⟨w, hw, _⟩
  · obtain ⟨op, hop⟩ := Option.ne_none_iff_exists'.mp hstopping
    exact (hinv.stopping op hop).queue_ne_nil
  · exact List.ne_nil_of_mem hw

theorem managers_eq_zero {c : Calls} (hfree : ¬ c.Busy) : c.managers = 0 := by
  rw [Busy, not_or, not_not] at hfree
  obtain ⟨hnone, hothers⟩ := hfree
  have hcount : c.sendq.countP (fun w => w.waiter.byManager) = 0 := by
    rw [List.countP_eq_zero]
    intro w hw hmanager
    exact hothers ⟨w, hw, hmanager⟩
  rw [managers, hcount, hnone]
  rfl

/-- The queue, the channel and the Manager's mutex are as they were. -/
structure SameQueue (c c' : Calls) : Prop where
  sendCh : c'.sendCh = c.sendCh
  sendq : c'.sendq = c.sendq
  stopping : c'.stopping = c.stopping

theorem SameQueue.goes {c c' : Calls} (hsame : SameQueue c c') : Goes c c' :=
  ⟨by rw [hsame.sendCh], [], by simp [hsame.sendq], by simp⟩

theorem SameQueue.full {c c' : Calls} (hsame : SameQueue c c')
    (hfull : c.Full) : c'.Full := by
  rw [Full, hsame.sendq, hsame.sendCh]
  exact hfull

theorem SameQueue.managers {c c' : Calls} (hsame : SameQueue c c') :
    c'.managers = c.managers := by
  rw [Calls.managers, Calls.managers, hsame.sendq, hsame.stopping]

theorem SameQueue.inv {c c' : Calls} (hsame : SameQueue c c') (hinv : c.Inv) :
    c'.Inv where
  full := hsame.full hinv.full
  alone := hsame.managers ▸ hinv.alone
  stopping op hop := by
    rw [hsame.stopping] at hop
    exact hsame.goes.locked (hinv.stopping op hop)

theorem setWrapper_same (c : Calls) (i : Nat) (name : String) (pw : Wrapper) :
    SameQueue c (c.setWrapper i name pw) :=
  ⟨rfl, rfl, rfl⟩

theorem stopWrapper_same (c : Calls) (i : Nat) :
    SameQueue c (c.stopWrapper i) := by
  cases hwrapper : c.wrappers i with
  | none =>
      rw [stopWrapper, hwrapper]
      exact ⟨rfl, rfl, rfl⟩
  | some entry =>
      rw [stopWrapper, hwrapper]
      exact c.setWrapper_same i entry.1 entry.2.stop.1

theorem addAll_same (adds : List (String × NameConf)) (c : Calls) :
    SameQueue c (adds.foldl addWrapper c) := by
  induction adds generalizing c with
  | nil => exact ⟨rfl, rfl, rfl⟩
  | cons entry adds ih =>
      have hrest := ih (c.addWrapper entry)
      exact ⟨hrest.sendCh, hrest.sendq, hrest.stopping⟩

/-- All that one send can do. -/
theorem offer_cases (c : Calls) (waiter : Waiter) (msg : ControlMsg) :
    (∃ chan, c.sendCh.send msg = .done chan ∧
      c.offer waiter msg = ({ c with sendCh := chan }, true)) ∨
    (c.sendCh.full ∧ c.sendCh.closed = false ∧
      c.offer waiter msg =
        ({ c with sendq := c.sendq ++ [⟨waiter, msg⟩] }, false)) ∨
    (c.sendCh.closed = true ∧ c.offer waiter msg = (c, true)) := by
  cases hsend : c.sendCh.send msg with
  | done chan =>
      left
      exact ⟨chan, rfl, by rw [offer, hsend]⟩
  | block =>
      right; left
      obtain ⟨hopen, hfull⟩ := Chan.send_eq_block_iff.mp hsend
      exact ⟨hfull, hopen, by rw [offer, hsend]⟩
  | panic =>
      right; right
      exact ⟨Chan.send_eq_panic_iff.mp hsend, by rw [offer, hsend]⟩

theorem Full.offer {c : Calls} (hfull : c.Full) (waiter : Waiter)
    (msg : ControlMsg) : (c.offer waiter msg).1.Full := by
  rcases c.offer_cases waiter msg with
    ⟨chan, hsend, hoffer⟩ | ⟨hroom, hopen, hoffer⟩ | ⟨_, hoffer⟩
  · rw [hoffer]
    intro hwaiting
    exact absurd (hfull hwaiting).1 (Chan.not_full_of_send hsend)
  · rw [hoffer]
    exact fun _ => ⟨hroom, hopen⟩
  · rw [hoffer]
    exact hfull

theorem offer_goes (c : Calls) {w : Waiter} (msg : ControlMsg)
    (hother : w.byHandler = false) : Goes c (c.offer w msg).1 := by
  rcases c.offer_cases w msg with
    ⟨chan, hsend, hoffer⟩ | ⟨_, _, hoffer⟩ | ⟨_, hoffer⟩
  · rw [hoffer]
    obtain ⟨hopen, _, hkept⟩ := Chan.send_eq_done_iff.mp hsend
    exact ⟨hkept.trans hopen.symm, [], by simp, by simp⟩
  · rw [hoffer]
    exact ⟨rfl, [⟨w, msg⟩], rfl, by simpa using hother⟩
  · rw [hoffer]
    exact Goes.refl c

/-- A call that is not the Manager's sends. -/
theorem Inv.offer {c : Calls} (hinv : c.Inv) {waiter : Waiter}
    (msg : ControlMsg) (hother : waiter.byManager = false) :
    (c.offer waiter msg).1.Inv := by
  rcases c.offer_cases waiter msg with
    ⟨chan, _, hoffer⟩ | ⟨_, _, hoffer⟩ | ⟨_, hoffer⟩
  · refine ⟨hinv.full.offer waiter msg, ?_, ?_⟩
    · rw [hoffer]
      exact hinv.alone
    · rw [hoffer]
      exact hinv.stopping
  · refine ⟨hinv.full.offer waiter msg, ?_, ?_⟩
    · have halone := hinv.alone
      rw [managers] at halone
      rw [hoffer, managers, List.countP_append]
      simpa [hother] using halone
    · rw [hoffer]
      intro op hop
      obtain ⟨w, hw, hholds⟩ := hinv.stopping op hop
      exact ⟨w, List.mem_append_left _ hw, hholds⟩
  · rw [hoffer]
    exact hinv

theorem free_of_managers {c : Calls} (hfree : c.managers = 0) :
    c.sendq.countP (fun w => w.waiter.byManager) = 0 ∧ c.stopping = none := by
  obtain ⟨hcount, hstopping⟩ := Nat.add_eq_zero_iff.mp hfree
  refine ⟨hcount, ?_⟩
  cases hop : c.stopping with
  | none => rfl
  | some op => simp [hop] at hstopping

/-- The Manager waits for room. -/
theorem Full.offerStop {c : Calls} (hfull : c.Full) (hfree : c.managers = 0)
    (op : Stops) (msg : ControlMsg) : (c.offer (.stop op) msg).1.Inv := by
  obtain ⟨hcount, hnone⟩ := free_of_managers hfree
  refine ⟨hfull.offer (.stop op) msg, ?_, ?_⟩
  · rcases c.offer_cases (.stop op) msg with
      ⟨chan, _, hoffer⟩ | ⟨_, _, hoffer⟩ | ⟨_, hoffer⟩
    · rw [hoffer, managers, hcount, hnone]
      simp
    · rw [hoffer, managers, List.countP_append, hcount, hnone]
      simp [Waiter.byManager]
    · rw [hoffer, hfree]
      simp
  · rcases c.offer_cases (.stop op) msg with
      ⟨chan, _, hoffer⟩ | ⟨_, _, hoffer⟩ | ⟨_, hoffer⟩
    · rw [hoffer, hnone]
      simp
    · rw [hoffer, hnone]
      simp
    · rw [hoffer, hnone]
      simp

theorem managers_offer_of_goes {c : Calls} {waiter : Waiter} {msg : ControlMsg}
    (hgoes : (c.offer waiter msg).2 = true) :
    (c.offer waiter msg).1.managers = c.managers := by
  rcases c.offer_cases waiter msg with
    ⟨chan, _, hoffer⟩ | ⟨_, _, hoffer⟩ | ⟨_, hoffer⟩
  · rw [hoffer]
    rfl
  · rw [hoffer] at hgoes
    cases hgoes
  · rw [hoffer]

/-- A run of Stops ends where it has to wait, or has added the new Wrappers. -/
theorem stopAll_spec (adds : List (String × NameConf))
    (entries : List (String × Nat)) {c : Calls} (hfull : c.Full)
    (hfree : c.managers = 0) :
    (stopAll adds entries c).Inv ∧ Goes c (stopAll adds entries c) := by
  induction entries generalizing c with
  | nil =>
      have hsame := addAll_same adds c
      have hnone := (free_of_managers hfree).2
      refine ⟨hsame.inv ⟨hfull, by omega, ?_⟩, hsame.goes⟩
      simp [hnone]
  | cons entry rest ih =>
      by_cases hlocked : c.Locked entry.2
      · rw [stopAll, if_pos hlocked]
        refine ⟨⟨hfull, ?_, ?_⟩, ⟨rfl, [], by simp, by simp⟩⟩
        · rw [managers, (free_of_managers hfree).1]
          simp
        · intro op hop
          cases hop
          exact hlocked
      · have hsame := c.stopWrapper_same entry.2
        have hstop := hsame.full hfull
        have hnobody := hsame.managers.trans hfree
        have hsent := (c.stopWrapper entry.2).offer_goes
          (w := .stop ⟨entry, rest, adds⟩) (.proxy .closeProxy entry.1) rfl
        rw [stopAll, if_neg hlocked]
        dsimp only
        split
        · rename_i hgoesOn
          have hrest := ih (hstop.offer _ _)
            ((managers_offer_of_goes hgoesOn).trans hnobody)
          exact ⟨hrest.1, (hsame.goes.trans hsent).trans hrest.2⟩
        · exact ⟨hstop.offerStop hnobody _ _, hsame.goes.trans hsent⟩

/-- A call of the Manager that finds its mutex free. -/
theorem SameQueue.stopAll {c c' : Calls} (hsame : SameQueue c c')
    (adds : List (String × NameConf)) (entries : List (String × Nat))
    (hfull : c.Full) (hfree : ¬ c.Busy) :
    (stopAll adds entries c').Inv ∧ Goes c (stopAll adds entries c') := by
  have hspec := stopAll_spec adds entries (hsame.full hfull)
    (hsame.managers.trans (managers_eq_zero hfree))
  exact ⟨hspec.1, hsame.goes.trans hspec.2⟩

theorem Inv.check {c c' : Calls} (hinv : c.Inv) {clock i : Nat}
    (hcheck : c.check clock i = some c') : c'.Inv ∧ Goes c c' := by
  cases hwrapper : c.wrappers i with
  | none => simp [Calls.check, hwrapper] at hcheck
  | some entry =>
      have hsame := c.setWrapper_same i entry.1 (entry.2.checkWorker clock).1
      simp only [Calls.check, hwrapper, Option.ite_none_left_eq_some] at hcheck
      obtain ⟨_, hcheck⟩ := hcheck
      cases hevent : (entry.2.checkWorker clock).2 with
      | none =>
          simp only [hevent, Option.some.injEq] at hcheck
          subst hcheck
          exact ⟨hsame.inv hinv, hsame.goes⟩
      | some event =>
          simp only [hevent, Option.some.injEq] at hcheck
          subst hcheck
          exact ⟨(hsame.inv hinv).offer _ rfl,
            hsame.goes.trans (offer_goes _ _ rfl)⟩

theorem Inv.reload {c c' : Calls} (hinv : c.Inv) {cfgs : ConfMap NameConf}
    {order : List (String × Nat)} (hreload : c.reload cfgs order = some c') :
    c'.Inv ∧ Goes c c' := by
  simp only [Calls.reload, Option.ite_none_right_eq_some,
    Option.some.injEq] at hreload
  obtain ⟨⟨hfree, _⟩, rfl⟩ := hreload
  have hsame : SameQueue c
      { c with proxies := c.proxies.filter (keeps cfgs) } := ⟨rfl, rfl, rfl⟩
  exact hsame.stopAll _ order hinv.full hfree

theorem Inv.close {c c' : Calls} (hinv : c.Inv) {order : List (String × Nat)}
    (hclose : c.close order = some c') : c'.Inv ∧ Goes c c' := by
  simp only [Calls.close, Option.ite_none_right_eq_some,
    Option.some.injEq] at hclose
  obtain ⟨⟨hfree, _⟩, rfl⟩ := hclose
  have hsame : SameQueue c { c with proxies := [] } := ⟨rfl, rfl, rfl⟩
  exact hsame.stopAll [] order hinv.full hfree

/-- The handler goes on, or it is now the one handler in the queue. -/
theorem Inv.offerHandler {c : Calls} (hinv : c.Inv) {w : Waiter}
    (msg : ControlMsg) (hhandler : w.byHandler = true) :
    (c.offer w msg).1.Inv ∧
      (c.offer w msg).1.sendCh.closed = c.sendCh.closed ∧
      (c.offer w msg).1.handlers =
        c.handlers + if (c.offer w msg).2 then 0 else 1 := by
  have hmanager : w.byManager = false := by
    cases w <;> first | rfl | cases hhandler
  refine ⟨hinv.offer msg hmanager, ?_⟩
  rcases c.offer_cases w msg with
    ⟨chan, hsend, hoffer⟩ | ⟨_, _, hoffer⟩ | ⟨_, hoffer⟩
  · rw [hoffer]
    obtain ⟨hopen, _, hkept⟩ := Chan.send_eq_done_iff.mp hsend
    refine ⟨hkept.trans hopen.symm, ?_⟩
    simp [handlers]
  · rw [hoffer]
    refine ⟨rfl, ?_⟩
    simp [handlers, List.countP_append, hhandler]
  · rw [hoffer]
    simp

theorem Inv.setRunningStatus {c : Calls} (hinv : c.Inv) (clock i : Nat)
    (remoteAddr respErr : String) (runErr : Option String) :
    let result := c.setRunningStatus clock i remoteAddr respErr runErr
    result.1.Inv ∧ result.1.sendCh.closed = c.sendCh.closed ∧
      result.1.handlers = c.handlers + if result.2 then 0 else 1 := by
  cases hwrapper : c.wrappers i with
  | none => simpa [Calls.setRunningStatus, hwrapper] using hinv
  | some entry =>
      have hsame := c.setWrapper_same i entry.1
        (entry.2.setRunningStatus clock remoteAddr respErr runErr).pw
      simp only [Calls.setRunningStatus, hwrapper]
      split
      · exact ⟨hsame.inv hinv, rfl, rfl⟩
      · exact (hsame.inv hinv).offerHandler _ rfl

/-- The Manager goes on once a mutex has been given back. -/
theorem continueStops_spec {c : Calls} (hfull : c.Full)
    (halone : c.managers ≤ 1) :
    c.continueStops.Inv ∧ Goes c c.continueStops := by
  cases hstopping : c.stopping with
  | none =>
      rw [continueStops, hstopping]
      exact ⟨⟨hfull, halone, by simp [hstopping]⟩, Goes.refl c⟩
  | some op =>
      rw [continueStops, hstopping]
      have hfree : ({ c with stopping := none } : Calls).managers = 0 := by
        simp only [managers, hstopping, Option.toList_some,
          List.length_singleton] at halone
        simp only [managers, Option.toList_none, List.length_nil]
        omega
      have hspec := stopAll_spec op.adds (op.current :: op.rest)
        (c := { c with stopping := none }) hfull hfree
      exact ⟨hspec.1, hspec.2.closed, hspec.2.queue⟩

/-- A sender that has left the queue runs on. -/
theorem resume_spec {c : Calls} (w : Waiter) (hfull : c.Full)
    (halone : c.managers + (if w.byManager then 1 else 0) ≤ 1)
    (hstopping : ∀ op ∈ c.stopping,
      w.holds = some op.current.2 ∨ c.Locked op.current.2) :
    (c.resume w).Inv ∧ Goes c (c.resume w) := by
  have hmanagers : c.managers ≤ 1 := by omega
  cases w with
  | check i => exact continueStops_spec hfull hmanagers
  | setRunning i => exact continueStops_spec hfull hmanagers
  | stop op =>
      have hfree : c.managers = 0 := by
        simp only [Waiter.byManager, if_true] at halone
        omega
      exact stopAll_spec op.adds op.rest hfull hfree
  | ping =>
      refine ⟨⟨hfull, hmanagers, ?_⟩, Goes.refl c⟩
      intro op hop
      rcases hstopping op hop with hholds | hlocked
      · cases hholds
      · exact hlocked

/-- Whether the first sender in the queue is the handler. -/
def servesHandler (c : Calls) : Bool :=
  c.sendq.head?.any fun w => w.waiter.byHandler

/-- A receive from a channel that senders wait for leaves it full again. -/
theorem Inv.handover {c : Calls} (hinv : c.Inv) {msg : ControlMsg}
    {chan : Chan ControlMsg 100} (hrecv : c.sendCh.recv = .value msg chan)
    {first : Waiting} {rest : List Waiting} (hqueue : c.sendq = first :: rest) :
    ∃ next, chan.send first.msg = .done next ∧ next.full ∧
      next.closed = false := by
  obtain ⟨hbuf, hclosed⟩ := Chan.recv_eq_value_iff.mp hrecv
  obtain ⟨hfull, hopen⟩ := hinv.full (by simp [hqueue])
  rw [Chan.full, hbuf, List.length_cons] at hfull
  have hroom : ¬ chan.full := by
    rw [Chan.full]
    omega
  obtain ⟨next, hsend⟩ := Chan.exists_send_done first.msg
    (hclosed.trans hopen) hroom
  obtain ⟨_, hnext, hkept⟩ := Chan.send_eq_done_iff.mp hsend
  refine ⟨next, hsend, ?_, hkept⟩
  rw [Chan.full, hnext, List.length_append, List.length_singleton]
  exact hfull

theorem Inv.serve {c : Calls} (hinv : c.Inv) {msg : ControlMsg}
    {chan : Chan ControlMsg 100} (hrecv : c.sendCh.recv = .value msg chan) :
    (c.serve chan).Inv ∧ (c.serve chan).sendCh.closed = c.sendCh.closed ∧
      (c.serve chan).handlers + (if c.servesHandler then 1 else 0) =
        c.handlers := by
  cases hqueue : c.sendq with
  | nil =>
      have hclosed := (Chan.recv_eq_value_iff.mp hrecv).2
      have halone := hinv.alone
      rw [managers, hqueue] at halone
      simp only [Calls.serve, hqueue]
      refine ⟨⟨fun hwaiting => absurd rfl hwaiting, halone, ?_⟩, hclosed, ?_⟩
      · intro op hop
        exact absurd hqueue (hinv.stopping op hop).queue_ne_nil
      · simp [handlers, servesHandler, hqueue]
  | cons first rest =>
      obtain ⟨next, hsend, hfull, hopen⟩ := hinv.handover hrecv hqueue
      have hbefore := (hinv.full (by simp [hqueue])).2
      have halone := hinv.alone
      rw [managers, hqueue, List.countP_cons] at halone
      simp only [Calls.serve, hqueue, hsend]
      have hspec := resume_spec (c := { c with sendCh := next, sendq := rest })
        first.waiter (fun _ => ⟨hfull, hopen⟩)
        (by simp only [managers]; omega) (by
          intro op hop
          obtain ⟨w, hw, hholds⟩ := hinv.stopping op hop
          rw [hqueue] at hw
          rcases List.mem_cons.mp hw with rfl | hw
          · exact Or.inl hholds
          · exact Or.inr ⟨w, hw, hholds⟩)
      refine ⟨hspec.1, ?_, ?_⟩
      · rw [hspec.2.closed, hopen, hbefore]
      · rw [hspec.2.handlers, handlers, handlers, servesHandler, hqueue,
          List.countP_cons]
        rfl

/-- On a closed channel nobody waits: a run of Stops reaches its end. -/
theorem stopAll_closed (adds : List (String × NameConf))
    (entries : List (String × Nat)) {c : Calls}
    (hclosed : c.sendCh.closed = true) (hqueue : c.sendq = []) :
    SameQueue c (stopAll adds entries c) := by
  induction entries generalizing c with
  | nil => exact addAll_same adds c
  | cons entry rest ih =>
      have hfree : ¬ c.Locked entry.2 := fun hlocked =>
        hlocked.queue_ne_nil hqueue
      have hsame := c.stopWrapper_same entry.2
      have hclosed' : (c.stopWrapper entry.2).sendCh.closed = true := by
        rw [hsame.sendCh, hclosed]
      have hoffer : (c.stopWrapper entry.2).offer
          (.stop ⟨entry, rest, adds⟩) (.proxy .closeProxy entry.1) =
          (c.stopWrapper entry.2, true) := by
        rw [offer, Chan.send_eq_panic_iff.mpr hclosed']
      have hrest := ih hclosed' (hsame.sendq.trans hqueue)
      rw [stopAll, if_neg hfree, hoffer]
      exact ⟨hrest.sendCh.trans hsame.sendCh, hrest.sendq.trans hsame.sendq,
        hrest.stopping.trans hsame.stopping⟩

theorem continueStops_closed {c : Calls} (hclosed : c.sendCh.closed = true)
    (hqueue : c.sendq = []) :
    c.continueStops.sendCh = c.sendCh ∧ c.continueStops.sendq = [] ∧
      c.continueStops.stopping = none := by
  cases hstopping : c.stopping with
  | none =>
      rw [continueStops, hstopping]
      exact ⟨rfl, hqueue, hstopping⟩
  | some op =>
      have hsame := stopAll_closed op.adds (op.current :: op.rest)
        (c := { c with stopping := none }) hclosed hqueue
      rw [continueStops, hstopping]
      exact ⟨hsame.sendCh, hsame.sendq.trans hqueue, hsame.stopping⟩

theorem resume_closed {c : Calls} (w : Waiter)
    (hclosed : c.sendCh.closed = true) (hqueue : c.sendq = []) :
    (c.resume w).sendCh = c.sendCh ∧ (c.resume w).sendq = [] := by
  have hcontinue := continueStops_closed hclosed hqueue
  cases w with
  | check i => exact ⟨hcontinue.1, hcontinue.2.1⟩
  | setRunning i => exact ⟨hcontinue.1, hcontinue.2.1⟩
  | stop op =>
      have hsame := stopAll_closed op.adds op.rest hclosed hqueue
      exact ⟨hsame.sendCh, hsame.sendq.trans hqueue⟩
  | ping => exact ⟨rfl, hqueue⟩

theorem resumeAll_closed (senders : List Waiting) {c : Calls}
    (hclosed : c.sendCh.closed = true) (hqueue : c.sendq = []) :
    let next := senders.foldl (fun (d : Calls) w => d.resume w.waiter) c
    next.sendCh = c.sendCh ∧ next.sendq = [] := by
  induction senders generalizing c with
  | nil => exact ⟨rfl, hqueue⟩
  | cons w senders ih =>
      obtain ⟨hchan, hnil⟩ := resume_closed w.waiter hclosed hqueue
      have hrest := ih (c := c.resume w.waiter) (by rw [hchan, hclosed]) hnil
      exact ⟨hrest.1.trans hchan, hrest.2⟩

/-- After `sendCh` has been closed nobody waits and no mutex is held. -/
theorem closeSendCh_spec {c c' : Calls} (hclose : c.closeSendCh = .done c') :
    c'.sendCh.closed = true ∧ c'.sendq = [] ∧ c'.stopping = none := by
  cases hchan : c.sendCh.close with
  | done chan =>
      simp only [closeSendCh, hchan, Outcome.done.injEq] at hclose
      subst hclose
      have hclosed := (Chan.close_eq_done_iff.mp hchan).2.2
      have hall := resumeAll_closed c.sendq
        (c := { c with sendCh := chan, sendq := [] }) hclosed rfl
      have hlast := continueStops_closed (by rw [hall.1, hclosed]) hall.2
      exact ⟨by rw [hlast.1, hall.1, hclosed], hlast.2⟩
  | block => simp at hchan
  | panic => simp [closeSendCh, hchan] at hclose

theorem closed_of_panic {c : Calls} (hpanic : c.closeSendCh = .panic) :
    c.sendCh.closed = true := by
  cases hclose : c.sendCh.close with
  | done chan => simp [closeSendCh, hclose] at hpanic
  | block => simp at hclose
  | panic => exact Chan.close_eq_panic_iff.mp hclose

theorem closeSendCh_ne_block {c : Calls} : c.closeSendCh ≠ .block := by
  cases hclose : c.sendCh.close with
  | done chan => simp [closeSendCh, hclose]
  | block => simp at hclose
  | panic => simp [closeSendCh, hclose]

theorem inv_of_empty {c : Calls} (hqueue : c.sendq = [])
    (hstopping : c.stopping = none) : c.Inv where
  full hwaiting := absurd hqueue hwaiting
  alone := by simp [managers, hqueue, hstopping]
  stopping := by simp [hstopping]

theorem offer_stopping (c : Calls) (w : Waiter) (msg : ControlMsg) :
    (c.offer w msg).1.stopping = c.stopping := by
  rcases c.offer_cases w msg with
    ⟨chan, _, hoffer⟩ | ⟨_, _, hoffer⟩ | ⟨_, hoffer⟩
  · rw [hoffer]
  · rw [hoffer]
  · rw [hoffer]

/-- The mutex of the Manager stays held while a `checkWorker` runs. -/
theorem Busy.check {c c' : Calls} {clock i : Nat}
    (hcheck : c.check clock i = some c') (hgoes : Goes c c')
    (hbusy : c.Busy) : c'.Busy := by
  have hsame : c'.stopping = c.stopping := by
    cases hwrapper : c.wrappers i with
    | none => simp [Calls.check, hwrapper] at hcheck
    | some entry =>
        simp only [Calls.check, hwrapper, Option.ite_none_left_eq_some]
          at hcheck
        obtain ⟨_, hcheck⟩ := hcheck
        split at hcheck
        · cases hcheck
          rfl
        · cases hcheck
          exact offer_stopping _ _ _
  rcases hbusy with hstopping | ⟨w, hw, hmanager⟩
  · exact Or.inl (by rwa [hsame])
  · exact Or.inr ⟨w, hgoes.mem hw, hmanager⟩

end Calls

end Client

end Frp
