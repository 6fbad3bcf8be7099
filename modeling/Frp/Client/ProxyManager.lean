/-
The proxy Manager of `client/proxy/proxy_manager.go` with all its Wrappers.  The
loops of `Reload` and `Close` run under the mutex of the Manager and visit the
names in any order; between two visits the `checkWorker` loops, the health
callbacks and the answers of the server go on.
-/
import Frp.Lib.System
import Frp.Client.ConfMap
import Frp.Client.Wrapper

namespace Frp

open Transition

namespace ProxyManager

variable {C : Type}

/-- A Wrapper with its configuration.  `looked` is the health and the time that
`checkWorker` has read for the pass it is in; `stops` counts the calls of `Stop`
and `muted` says that the channel was closed at one. -/
structure Entry (C : Type) where
  name : String
  cfg : C
  pw : Wrapper
  looked : Option (Nat × Nat)
  stops : Nat
  muted : Bool

/-- The section of a Wrapper that sends. -/
inductive Sender where
  | checkWorker
  | setRunningStatus
  | stop
deriving DecidableEq, Repr

/-- A message on `sendCh`: NewProxy or CloseProxy of a Wrapper. -/
structure Sent where
  wrapper : Nat
  event : ProxyEvent
  sender : Sender
deriving DecidableEq, Repr

/-- What holds `pm.mu`: the two loops of `Reload`, with the proxies at its start
and what is still to visit, or the loop of `Close`. -/
inductive Op (C : Type) where
  | idle
  | deleting (before : ConfMap Nat) (new : ConfMap C) (todo : List String)
  | adding (before : ConfMap Nat) (new : ConfMap C) (todo : List (String × C))
  | closing (todo : List String)

/-- The Wrappers are numbered as they are made; `proxies` is the map of the
Manager and `sent` all that has been put on `sendCh`.  `handling` is an answer
between the lookup of `StartProxy` and its `SetRunningStatus`. -/
structure State (C : Type) where
  clock : Nat
  wrappers : Nat → Option (Entry C)
  made : Nat
  proxies : ConfMap Nat
  op : Op C
  handling : Option (Nat × String × String)
  sent : List Sent
  sendChClosed : Bool

inductive Action (C : Type) where
  | elapse (seconds : Nat)
  | health (wrapper : Nat) (healthy : Bool)
  | look (wrapper : Nat)
  | check (wrapper : Nat)
  | startProxy (name remoteAddr respErr : String)
  | setRunning (runErr : Option String)
  | closeSendCh
  | reload (new : ConfMap C)
  | delete (name : String)
  | deleted
  | add (name : String)
  | reloaded
  | close
  | stop (name : String)
  | closed

def init (C : Type) : State C where
  clock := 0
  wrappers _ := none
  made := 0
  proxies := .empty
  op := .idle
  handling := none
  sent := []
  sendChClosed := false

def newEntry (name : String) (cfg : C) (healthCheck : Bool) : Entry C where
  name := name
  cfg := cfg
  pw := .newWrapper healthCheck
  looked := none
  stops := 0
  muted := false

namespace State

def setEntry (s : State C) (g : Nat) (entry : Entry C) : State C :=
  { s with wrappers := Function.update s.wrappers g (some entry) }

/-- What `HandleEvent` puts on the channel; the panic of a send on the closed
channel becomes an error that nobody looks at. -/
def puts (s : State C) (g : Nat) (sender : Sender) :
    Option ProxyEvent → List Sent
  | none => []
  | some event => if s.sendChClosed then [] else [⟨g, event, sender⟩]

def send (s : State C) (g : Nat) (sender : Sender)
    (event : Option ProxyEvent) : State C :=
  { s with sent := s.sent ++ s.puts g sender event }

/-- A section of a Wrapper: its new fields and what it sends. -/
def act (s : State C) (g : Nat) (entry : Entry C) (sender : Sender)
    (event : Option ProxyEvent) : State C :=
  (s.setEntry g entry).send g sender event

def stopEntry (s : State C) (entry : Entry C) : Entry C :=
  { entry with
    pw := entry.pw.stop.1
    stops := entry.stops + 1
    muted := s.sendChClosed }

/-- `Stop` of a Wrapper. -/
def stopWrapper (s : State C) (g : Nat) (entry : Entry C) : State C :=
  s.act g (s.stopEntry entry) .stop (some entry.pw.stop.2)

/-- `NewWrapper` and `Start`. -/
def addWrapper (healthCheck : C → Bool) (s : State C) (name : String) (cfg : C) :
    State C :=
  { s.setEntry s.made (newEntry name cfg (healthCheck cfg)) with
    made := s.made + 1
    proxies := s.proxies.insert name s.made }

end State

variable (compare : C → C → Bool) (healthCheck : C → Bool)

/-- `checkWorker` reads the health before it locks the Wrapper. -/
def Entry.checkWorker (entry : Entry C) (health now : Nat) :
    Entry C × Option ProxyEvent :=
  let result := { entry.pw with health := health }.checkWorker now
  ({ entry with
    pw := { result.1 with health := entry.pw.health }
    looked := none }, result.2)

def step (s : State C) : Action C → Option (State C)
  | .elapse seconds => some { s with clock := s.clock + seconds }
  | .health g healthy =>
      match s.wrappers g with
      | none => none
      | some entry =>
          if entry.pw.monitor then
            some (s.setEntry g { entry with
              pw := if healthy then entry.pw.statusNormalCallback
                else entry.pw.statusFailedCallback })
          else none
  | .look g =>
      match s.wrappers g with
      | none => none
      | some entry =>
          some (s.setEntry g { entry with
            looked := some (entry.pw.health, s.clock) })
  | .check g =>
      match s.wrappers g with
      | none => none
      | some entry =>
          match entry.looked with
          | none => none
          | some (health, now) =>
              some (s.act g (entry.checkWorker health now).1 .checkWorker
                (entry.checkWorker health now).2)
  | .startProxy name remoteAddr respErr =>
      match s.op, s.handling with
      | .idle, none =>
          some { s with
            handling := (s.proxies.get name).map fun g =>
              (g, remoteAddr, respErr) }
      | _, _ => none
  | .setRunning runErr =>
      match s.handling with
      | none => none
      | some (g, remoteAddr, respErr) =>
          match s.wrappers g with
          | none => none
          | some entry =>
              let status :=
                entry.pw.setRunningStatus s.clock remoteAddr respErr runErr
              some ({ s with handling := none }.act g
                { entry with pw := status.pw } .setRunningStatus status.event)
  | .closeSendCh =>
      if s.sendChClosed then none else some { s with sendChClosed := true }
  | .reload new =>
      match s.op with
      | .idle =>
          some { s with op := .deleting s.proxies new s.proxies.names }
      | _ => none
  | .delete name =>
      match s.op with
      | .deleting before new todo =>
          if name ∈ todo then
            match s.proxies.get name with
            | none => none
            | some g =>
                match s.wrappers g with
                | none => none
                | some entry =>
                    let rest := Op.deleting before new (todo.erase name)
                    if ConfMap.Keeps compare new (name, entry.cfg) then
                      some { s with op := rest }
                    else
                      some ({ s with
                        proxies := s.proxies.erase name
                        op := rest }.stopWrapper g entry)
          else none
      | _ => none
  | .deleted =>
      match s.op with
      | .deleting before new [] =>
          some { s with op := .adding before new new.entries }
      | _ => none
  | .add name =>
      match s.op with
      | .adding before new todo =>
          match todo.lookup name with
          | none => none
          | some cfg =>
              let rest := Op.adding before new
                (todo.filter fun entry => entry.1 ≠ name)
              if (s.proxies.get name).isSome then some { s with op := rest }
              else some ({ s with op := rest }.addWrapper healthCheck name cfg)
      | _ => none
  | .reloaded =>
      match s.op with
      | .adding _ _ [] => some { s with op := .idle }
      | _ => none
  | .close =>
      match s.op with
      | .idle => some { s with op := .closing s.proxies.names }
      | _ => none
  | .stop name =>
      match s.op with
      | .closing todo =>
          if name ∈ todo then
            match s.proxies.get name with
            | none => none
            | some g =>
                match s.wrappers g with
                | none => none
                | some entry =>
                    some ({ s with
                      op := .closing (todo.erase name) }.stopWrapper g entry)
          else none
      | _ => none
  | .closed =>
      match s.op with
      | .closing [] => some { s with proxies := .empty, op := .idle }
      | _ => none

def system : System (State C) (Action C) where
  start := init C
  step := step compare healthCheck

namespace State

/-- `g'` was made after `g` for the same name. -/
def Replaces (s : State C) (g' g : Nat) : Prop :=
  g < g' ∧ ∃ entry entry', s.wrappers g = some entry ∧
    s.wrappers g' = some entry' ∧ entry'.name = entry.name

/-- The last message of the Wrapper is the CloseProxy of its `Stop`, and all that
its replacements send comes after it. -/
def CloseLast (s : State C) (g : Nat) : Prop :=
  ∃ earlier later, s.sent = earlier ++ ⟨g, .closeProxy, .stop⟩ :: later ∧
    (∀ msg ∈ later, msg.wrapper ≠ g) ∧
    ∀ msg ∈ earlier, ¬ s.Replaces msg.wrapper g

/-- The channel is closed, without the CloseProxy of the Wrapper's `Stop` and
without a message of a replacement on it. -/
def Silent (s : State C) (g : Nat) : Prop :=
  s.sendChClosed = true ∧ ∀ msg ∈ s.sent,
    (msg.wrapper = g → msg.sender ≠ .stop) ∧ ¬ s.Replaces msg.wrapper g

/-- The messages of every Wrapper that has been stopped, while the channel was
open and after. -/
structure Ordered (s : State C) : Prop where
  closeLast : ∀ g entry, s.wrappers g = some entry → entry.stops ≠ 0 →
    entry.muted = false → s.CloseLast g
  silent : ∀ g entry, s.wrappers g = some entry → entry.muted = true →
    s.Silent g

/-- What a `Reload` that found the proxies `before` has made of them. -/
structure Reloaded (s : State C) (before : ConfMap Nat) (new : ConfMap C) :
    Prop where
  names : ∀ name, (s.proxies.get name).isSome = true ↔
    (new.get name).isSome = true
  kept : ∀ name g, before.get name = some g → ∃ entry,
    s.wrappers g = some entry ∧ entry.name = name ∧
    ((s.proxies.get name = some g ∧ entry.stops = 0 ∧
      ∀ msg ∈ s.sent, msg.wrapper = g → msg.sender ≠ .stop) ↔
      ConfMap.Keeps compare new (name, entry.cfg) = true)
  stopped : ∀ name g entry, before.get name = some g →
    s.wrappers g = some entry →
    ConfMap.Keeps compare new (name, entry.cfg) = false → entry.stops = 1

/-- All that a step can do. -/
inductive Steps (s : State C) : Action C → State C → Prop where
  | elapse (seconds : Nat) :
      Steps s (.elapse seconds) { s with clock := s.clock + seconds }
  | health {g : Nat} {entry : Entry C} (healthy : Bool)
      (hentry : s.wrappers g = some entry) (hmonitor : entry.pw.monitor = true) :
      Steps s (.health g healthy) (s.setEntry g { entry with
        pw := if healthy then entry.pw.statusNormalCallback
          else entry.pw.statusFailedCallback })
  | look {g : Nat} {entry : Entry C} (hentry : s.wrappers g = some entry) :
      Steps s (.look g) (s.setEntry g { entry with
        looked := some (entry.pw.health, s.clock) })
  | check {g health now : Nat} {entry : Entry C}
      (hentry : s.wrappers g = some entry)
      (hlooked : entry.looked = some (health, now)) :
      Steps s (.check g) (s.act g (entry.checkWorker health now).1 .checkWorker
        (entry.checkWorker health now).2)
  | startProxy (name remoteAddr respErr : String) (hop : s.op = .idle)
      (hhandling : s.handling = none) :
      Steps s (.startProxy name remoteAddr respErr) { s with
        handling := (s.proxies.get name).map fun g => (g, remoteAddr, respErr) }
  | setRunning {g : Nat} {remoteAddr respErr : String} {entry : Entry C}
      (runErr : Option String)
      (hhandling : s.handling = some (g, remoteAddr, respErr))
      (hentry : s.wrappers g = some entry) :
      Steps s (.setRunning runErr) ({ s with handling := none }.act g
        { entry with
          pw := (entry.pw.setRunningStatus s.clock remoteAddr respErr runErr).pw }
        .setRunningStatus
        (entry.pw.setRunningStatus s.clock remoteAddr respErr runErr).event)
  | closeSendCh (hopen : s.sendChClosed = false) :
      Steps s .closeSendCh { s with sendChClosed := true }
  | reload (new : ConfMap C) (hop : s.op = .idle) :
      Steps s (.reload new)
        { s with op := .deleting s.proxies new s.proxies.names }
  | keep {before : ConfMap Nat} {new : ConfMap C} {todo : List String}
      {name : String} {g : Nat} {entry : Entry C}
      (hop : s.op = .deleting before new todo)
      (hget : s.proxies.get name = some g) (hentry : s.wrappers g = some entry)
      (hkeeps : ConfMap.Keeps compare new (name, entry.cfg) = true) :
      Steps s (.delete name)
        { s with op := .deleting before new (todo.erase name) }
  | drop {before : ConfMap Nat} {new : ConfMap C} {todo : List String}
      {name : String} {g : Nat} {entry : Entry C}
      (hop : s.op = .deleting before new todo)
      (hget : s.proxies.get name = some g) (hentry : s.wrappers g = some entry)
      (hkeeps : ConfMap.Keeps compare new (name, entry.cfg) = false) :
      Steps s (.delete name) ({ s with
        proxies := s.proxies.erase name
        op := .deleting before new (todo.erase name) }.stopWrapper g entry)
  | deleted {before : ConfMap Nat} {new : ConfMap C}
      (hop : s.op = .deleting before new []) :
      Steps s .deleted { s with op := .adding before new new.entries }
  | pass {before : ConfMap Nat} {new : ConfMap C} {todo : List (String × C)}
      {name : String} {cfg : C} (hop : s.op = .adding before new todo)
      (hlookup : todo.lookup name = some cfg)
      (hthere : (s.proxies.get name).isSome = true) :
      Steps s (.add name) { s with
        op := .adding before new (todo.filter fun entry => entry.1 ≠ name) }
  | add {before : ConfMap Nat} {new : ConfMap C} {todo : List (String × C)}
      {name : String} {cfg : C} (hop : s.op = .adding before new todo)
      (hlookup : todo.lookup name = some cfg)
      (hnone : s.proxies.get name = none) :
      Steps s (.add name) ({ s with
        op := .adding before new
          (todo.filter fun entry => entry.1 ≠ name) }.addWrapper healthCheck
            name cfg)
  | reloaded {before : ConfMap Nat} {new : ConfMap C}
      (hop : s.op = .adding before new []) :
      Steps s .reloaded { s with op := .idle }
  | close (hop : s.op = .idle) :
      Steps s .close { s with op := .closing s.proxies.names }
  | stop {todo : List String} {name : String} {g : Nat} {entry : Entry C}
      (hop : s.op = .closing todo) (hname : name ∈ todo)
      (hget : s.proxies.get name = some g) (hentry : s.wrappers g = some entry) :
      Steps s (.stop name)
        ({ s with op := .closing (todo.erase name) }.stopWrapper g entry)
  | closed (hop : s.op = .closing []) :
      Steps s .closed { s with proxies := .empty, op := .idle }

variable {compare} {healthCheck} in
theorem steps_of_step {s s' : State C} {action : Action C}
    (hstep : step compare healthCheck s action = some s') :
    s.Steps compare healthCheck action s' := by
  cases action with
  | elapse seconds =>
      cases hstep
      exact .elapse seconds
  | health g healthy =>
      simp only [ProxyManager.step] at hstep
      split at hstep
      · cases hstep
      · next entry hentry =>
          split at hstep
          · next hmonitor =>
              cases hstep
              exact .health healthy hentry hmonitor
          · cases hstep
  | look g =>
      simp only [ProxyManager.step] at hstep
      split at hstep
      · cases hstep
      · next entry hentry =>
          cases hstep
          exact .look hentry
  | check g =>
      simp only [ProxyManager.step] at hstep
      split at hstep
      · cases hstep
      · next entry hentry =>
          split at hstep
          · cases hstep
          · next health now hlooked =>
              cases hstep
              exact .check hentry hlooked
  | startProxy name remoteAddr respErr =>
      simp only [ProxyManager.step] at hstep
      split at hstep
      · next hop hhandling =>
          cases hstep
          exact .startProxy name remoteAddr respErr hop hhandling
      · cases hstep
  | setRunning runErr =>
      simp only [ProxyManager.step] at hstep
      split at hstep
      · cases hstep
      · next g remoteAddr respErr hhandling =>
          split at hstep
          · cases hstep
          · next entry hentry =>
              cases hstep
              exact .setRunning runErr hhandling hentry
  | closeSendCh =>
      simp only [ProxyManager.step] at hstep
      split at hstep
      · cases hstep
      · next hopen =>
          cases hstep
          exact .closeSendCh (Bool.eq_false_iff.mpr hopen)
  | reload new =>
      simp only [ProxyManager.step] at hstep
      split at hstep
      · next hop =>
          cases hstep
          exact .reload new hop
      · cases hstep
  | delete name =>
      simp only [ProxyManager.step] at hstep
      split at hstep
      · next before new todo hop =>
          split at hstep
          · split at hstep
            · cases hstep
            · next g hget =>
                split at hstep
                · cases hstep
                · next entry hentry =>
                    split at hstep
                    · next hkeeps =>
                        cases hstep
                        exact .keep hop hget hentry hkeeps
                    · next hdrop =>
                        cases hstep
                        exact .drop hop hget hentry (Bool.eq_false_iff.mpr hdrop)
          · cases hstep
      · cases hstep
  | deleted =>
      simp only [ProxyManager.step] at hstep
      split at hstep
      · next before new hop =>
          cases hstep
          exact .deleted hop
      · cases hstep
  | add name =>
      simp only [ProxyManager.step] at hstep
      split at hstep
      · next before new todo hop =>
          split at hstep
          · cases hstep
          · next cfg hlookup =>
              split at hstep
              · next hthere =>
                  cases hstep
                  exact .pass hop hlookup hthere
              · next habsent =>
                  cases hstep
                  exact .add hop hlookup (by simpa using habsent)
      · cases hstep
  | reloaded =>
      simp only [ProxyManager.step] at hstep
      split at hstep
      · next before new hop =>
          cases hstep
          exact .reloaded hop
      · cases hstep
  | close =>
      simp only [ProxyManager.step] at hstep
      split at hstep
      · next hop =>
          cases hstep
          exact .close hop
      · cases hstep
  | stop name =>
      simp only [ProxyManager.step] at hstep
      split at hstep
      · next todo hop =>
          split at hstep
          · next hname =>
              split at hstep
              · cases hstep
              · next g hget =>
                  split at hstep
                  · cases hstep
                  · next entry hentry =>
                      cases hstep
                      exact .stop hop hname hget hentry
          · cases hstep
      · cases hstep
  | closed =>
      simp only [ProxyManager.step] at hstep
      split at hstep
      · next hop =>
          cases hstep
          exact .closed hop
      · cases hstep

/-- The Wrappers apart from the maps and loops of the Manager: under every name
at most one has not been stopped, and it is the newest. -/
structure Core (s : State C) (current : String → Option Nat) : Prop where
  fresh : ∀ g, s.made ≤ g → s.wrappers g = none
  serving : ∀ name g, current name = some g → ∃ entry,
    s.wrappers g = some entry ∧ entry.name = name ∧ entry.stops = 0
  retired : ∀ g entry, s.wrappers g = some entry →
    current entry.name ≠ some g → entry.stops = 1
  phase : ∀ g entry, s.wrappers g = some entry →
    (entry.pw.phase = .closed ↔ entry.stops ≠ 0)
  unmuted : ∀ g entry, s.wrappers g = some entry → entry.stops = 0 →
    entry.muted = false
  replaced : ∀ g g' entry, s.wrappers g = some entry → s.Replaces g' g →
    entry.stops ≠ 0
  sentMade : ∀ msg ∈ s.sent, msg.wrapper < s.made
  senders : ∀ msg ∈ s.sent, msg.sender = .stop → ∃ entry,
    s.wrappers msg.wrapper = some entry ∧ entry.stops ≠ 0
  ordered : s.Ordered

theorem mem_puts {s : State C} {g : Nat} {sender : Sender}
    {event : Option ProxyEvent} {msg : Sent}
    (hmsg : msg ∈ s.puts g sender event) :
    s.sendChClosed = false ∧ ∃ found, event = some found ∧
      msg = ⟨g, found, sender⟩ := by
  cases event with
  | none => cases hmsg
  | some event =>
      simp only [puts] at hmsg
      split at hmsg
      · cases hmsg
      · next hopen =>
          rw [List.mem_singleton] at hmsg
          exact ⟨by simpa using hopen, event, rfl, hmsg⟩

theorem setEntry_wrappers (s : State C) (g other : Nat) (entry : Entry C) :
    (s.setEntry g entry).wrappers other =
      if other = g then some entry else s.wrappers other := by
  simp only [setEntry, Function.update_apply]

/-- Entries that differ in nothing that the order of the messages depends on. -/
structure Same (entry entry' : Entry C) : Prop where
  name : entry'.name = entry.name
  cfg : entry'.cfg = entry.cfg
  stops : entry'.stops = entry.stops
  muted : entry'.muted = entry.muted
  phase : entry'.pw.phase = .closed ↔ entry.pw.phase = .closed

theorem Same.refl (entry : Entry C) : Same entry entry :=
  ⟨rfl, rfl, rfl, rfl, Iff.rfl⟩

/-- A step that makes and stops no Wrapper; those that send have not been
stopped. -/
structure Frame (s s' : State C) (msgs : List Sent) : Prop where
  made : s'.made = s.made
  closed : s.sendChClosed = true → s'.sendChClosed = true
  back : ∀ g entry', s'.wrappers g = some entry' →
    ∃ entry, s.wrappers g = some entry ∧ Same entry entry'
  forth : ∀ g entry, s.wrappers g = some entry →
    ∃ entry', s'.wrappers g = some entry' ∧ Same entry entry'
  sent : s'.sent = s.sent ++ msgs
  msgs : ∀ msg ∈ msgs, s.sendChClosed = false ∧ msg.sender ≠ .stop ∧
    ∃ entry, s.wrappers msg.wrapper = some entry ∧ entry.stops = 0

theorem CloseLast.step {s s' : State C} {g : Nat} (hlast : s.CloseLast g)
    {msgs : List Sent} (hsent : s'.sent = s.sent ++ msgs)
    (hmsgs : ∀ msg ∈ msgs, msg.wrapper ≠ g)
    (hreplaces : ∀ msg ∈ s.sent, s'.Replaces msg.wrapper g →
      s.Replaces msg.wrapper g) : s'.CloseLast g := by
  obtain ⟨earlier, later, hsplit, hlater, hearlier⟩ := hlast
  refine ⟨earlier, later ++ msgs, ?_, ?_, ?_⟩
  · rw [hsent, hsplit]
    simp
  · intro msg hmsg
    rcases List.mem_append.mp hmsg with hold | hnew
    · exact hlater msg hold
    · exact hmsgs msg hnew
  · intro msg hmsg hafter
    exact hearlier msg hmsg (hreplaces msg (by simp [hsplit, hmsg]) hafter)

theorem Silent.step {s s' : State C} {g : Nat} (hsilent : s.Silent g)
    {msgs : List Sent} (hsent : s'.sent = s.sent ++ msgs)
    (hmsgs : ∀ msg ∈ msgs, s.sendChClosed = false)
    (hclosed : s.sendChClosed = true → s'.sendChClosed = true)
    (hreplaces : ∀ msg ∈ s.sent, s'.Replaces msg.wrapper g →
      s.Replaces msg.wrapper g) : s'.Silent g := by
  obtain ⟨hmute, hnone⟩ := hsilent
  refine ⟨hclosed hmute, ?_⟩
  intro msg hmsg
  rw [hsent] at hmsg
  rcases List.mem_append.mp hmsg with hold | hnew
  · obtain ⟨hstop, hafter⟩ := hnone msg hold
    exact ⟨hstop, fun hreplaced => hafter (hreplaces msg hold hreplaced)⟩
  · have hopen := hmsgs msg hnew
    rw [hmute] at hopen
    cases hopen

theorem Frame.replaces {s s' : State C} {msgs : List Sent}
    (hframe : Frame s s' msgs) {g g' : Nat} (hafter : s'.Replaces g' g) :
    s.Replaces g' g := by
  obtain ⟨hlt, entry, entry', hentry, hentry', hname⟩ := hafter
  obtain ⟨old, hold, hsame⟩ := hframe.back g entry hentry
  obtain ⟨old', hold', hsame'⟩ := hframe.back g' entry' hentry'
  exact ⟨hlt, old, old', hold, hold',
    hsame'.name.symm.trans (hname.trans hsame.name)⟩

theorem Core.frame {s s' : State C} {current : String → Option Nat}
    (hcore : s.Core current) {msgs : List Sent} (hframe : Frame s s' msgs) :
    s'.Core current where
  fresh g hg := by
    cases hentry : s'.wrappers g with
    | none => rfl
    | some entry =>
        obtain ⟨old, hold, -⟩ := hframe.back g entry hentry
        rw [hcore.fresh g (hframe.made ▸ hg)] at hold
        cases hold
  serving name g hcurrent := by
    obtain ⟨entry, hentry, hname, hstops⟩ := hcore.serving name g hcurrent
    obtain ⟨entry', hentry', hsame⟩ := hframe.forth g entry hentry
    exact ⟨entry', hentry', hsame.name.trans hname, hsame.stops.trans hstops⟩
  retired g entry hentry hother := by
    obtain ⟨old, hold, hsame⟩ := hframe.back g entry hentry
    rw [hsame.stops]
    exact hcore.retired g old hold (hsame.name ▸ hother)
  phase g entry hentry := by
    obtain ⟨old, hold, hsame⟩ := hframe.back g entry hentry
    rw [hsame.stops, hsame.phase]
    exact hcore.phase g old hold
  unmuted g entry hentry hstops := by
    obtain ⟨old, hold, hsame⟩ := hframe.back g entry hentry
    rw [hsame.muted]
    exact hcore.unmuted g old hold (hsame.stops ▸ hstops)
  replaced g g' entry hentry hafter := by
    obtain ⟨old, hold, hsame⟩ := hframe.back g entry hentry
    rw [hsame.stops]
    exact hcore.replaced g g' old hold (hframe.replaces hafter)
  sentMade msg hmsg := by
    rw [hframe.sent] at hmsg
    rw [hframe.made]
    rcases List.mem_append.mp hmsg with hold | hnew
    · exact hcore.sentMade msg hold
    · obtain ⟨-, -, entry, hentry, -⟩ := hframe.msgs msg hnew
      by_contra hge
      rw [hcore.fresh msg.wrapper (Nat.le_of_not_lt hge)] at hentry
      cases hentry
  senders msg hmsg hsender := by
    rw [hframe.sent] at hmsg
    rcases List.mem_append.mp hmsg with hold | hnew
    · obtain ⟨entry, hentry, hstops⟩ := hcore.senders msg hold hsender
      obtain ⟨entry', hentry', hsame⟩ := hframe.forth msg.wrapper entry hentry
      exact ⟨entry', hentry', hsame.stops ▸ hstops⟩
    · exact absurd hsender (hframe.msgs msg hnew).2.1
  ordered := by
    constructor
    · intro g entry hentry hstops hmuted
      obtain ⟨old, hold, hsame⟩ := hframe.back g entry hentry
      have hlast := hcore.ordered.closeLast g old hold (hsame.stops ▸ hstops)
        (hsame.muted ▸ hmuted)
      apply hlast.step hframe.sent
      · intro msg hmsg heq
        obtain ⟨-, -, sending, hsending, hzero⟩ := hframe.msgs msg hmsg
        rw [heq, hold] at hsending
        cases hsending
        exact hstops (hsame.stops.trans hzero)
      · exact fun msg _ hafter => hframe.replaces hafter
    · intro g entry hentry hmuted
      obtain ⟨old, hold, hsame⟩ := hframe.back g entry hentry
      have hsilent := hcore.ordered.silent g old hold (hsame.muted ▸ hmuted)
      exact hsilent.step hframe.sent (fun msg hmsg => (hframe.msgs msg hmsg).1)
        hframe.closed (fun msg _ hafter => hframe.replaces hafter)

/-- A section of a Wrapper that has not been stopped, or that sends nothing. -/
theorem frame_act {s : State C} {g : Nat} {entry entry' : Entry C}
    (hentry : s.wrappers g = some entry) (hsame : Same entry entry')
    {sender : Sender} (hsender : sender ≠ .stop) {event : Option ProxyEvent}
    (hevent : event ≠ none → entry.stops = 0) :
    Frame s (s.act g entry' sender event) (s.puts g sender event) where
  made := rfl
  closed := id
  back other found hfound := by
    rw [act, show ((s.setEntry g entry').send g sender event).wrappers =
      (s.setEntry g entry').wrappers from rfl, setEntry_wrappers] at hfound
    split at hfound
    · next heq =>
        cases hfound
        exact ⟨entry, heq ▸ hentry, hsame⟩
    · exact ⟨found, hfound, Same.refl found⟩
  forth other found hfound := by
    rw [act, show ((s.setEntry g entry').send g sender event).wrappers =
      (s.setEntry g entry').wrappers from rfl, setEntry_wrappers]
    split
    · next heq =>
        rw [heq, hentry] at hfound
        cases hfound
        exact ⟨entry', rfl, hsame⟩
    · exact ⟨found, hfound, Same.refl found⟩
  sent := rfl
  msgs msg hmsg := by
    obtain ⟨hopen, found, hfound, rfl⟩ := mem_puts hmsg
    exact ⟨hopen, hsender, entry, hentry, hevent (by simp [hfound])⟩

/-- Nothing has replaced a Wrapper that has not been stopped. -/
theorem Core.not_replaces {s : State C} {current : String → Option Nat}
    (hcore : s.Core current) {name : String} {g : Nat}
    (hcurrent : current name = some g) (g' : Nat) : ¬ s.Replaces g' g := by
  intro hafter
  obtain ⟨entry, hentry, -, hstops⟩ := hcore.serving name g hcurrent
  exact hcore.replaced g g' entry hentry hafter hstops

theorem stopWrapper_back {s : State C} {g : Nat} {entry : Entry C}
    (hentry : s.wrappers g = some entry) (other : Nat) (later : Entry C)
    (hlater : (s.stopWrapper g entry).wrappers other = some later) :
    ∃ old, s.wrappers other = some old ∧ later.name = old.name ∧
      later.cfg = old.cfg := by
  change (s.setEntry g (s.stopEntry entry)).wrappers other = _ at hlater
  rw [setEntry_wrappers] at hlater
  split at hlater
  · next heq =>
      cases hlater
      exact ⟨entry, heq ▸ hentry, rfl, rfl⟩
  · exact ⟨later, hlater, rfl, rfl⟩

theorem stopWrapper_forth {s : State C} {g : Nat} {entry : Entry C}
    (hentry : s.wrappers g = some entry) (other : Nat) (old : Entry C)
    (hold : s.wrappers other = some old) :
    ∃ later, (s.stopWrapper g entry).wrappers other = some later ∧
      later.name = old.name := by
  change ∃ later, (s.setEntry g (s.stopEntry entry)).wrappers other = _ ∧ _
  rw [setEntry_wrappers]
  split
  · next heq =>
      rw [heq, hentry] at hold
      cases hold
      exact ⟨_, rfl, rfl⟩
  · exact ⟨old, hold, rfl⟩

theorem replaces_of_stop {s : State C} {g : Nat} {entry : Entry C}
    (hentry : s.wrappers g = some entry) {i j : Nat}
    (hafter : (s.stopWrapper g entry).Replaces i j) : s.Replaces i j := by
  obtain ⟨hlt, first, second, hfirst, hsecond, hname⟩ := hafter
  obtain ⟨old, hold, hsame, -⟩ := stopWrapper_back hentry j first hfirst
  obtain ⟨old', hold', hsame', -⟩ := stopWrapper_back hentry i second hsecond
  exact ⟨hlt, old, old', hold, hold', hsame'.symm.trans (hname.trans hsame)⟩

/-- `Stop` of the Wrapper that serves a name. -/
theorem Core.stop {s : State C} {current : String → Option Nat}
    (hcore : s.Core current) {name : String} {g : Nat}
    (hcurrent : current name = some g) {entry : Entry C}
    (hentry : s.wrappers g = some entry) :
    (s.stopWrapper g entry).Core (Function.update current name none) := by
  obtain ⟨found, hfound, hname, hstops⟩ := hcore.serving name g hcurrent
  rw [hentry, Option.some.injEq] at hfound
  subst hfound
  have hself : (s.stopWrapper g entry).wrappers g =
      some (s.stopEntry entry) := by
    change (s.setEntry g (s.stopEntry entry)).wrappers g = _
    rw [setEntry_wrappers, if_pos rfl]
  have hother : ∀ other, other ≠ g →
      (s.stopWrapper g entry).wrappers other = s.wrappers other := by
    intro other hne
    change (s.setEntry g (s.stopEntry entry)).wrappers other = _
    rw [setEntry_wrappers, if_neg hne]
  have hsent : (s.stopWrapper g entry).sent =
      s.sent ++ s.puts g .stop (some .closeProxy) := rfl
  have hnone : ∀ msg ∈ s.sent, ¬ (s.stopWrapper g entry).Replaces msg.wrapper g :=
    fun msg _ hafter =>
      hcore.not_replaces hcurrent msg.wrapper (replaces_of_stop hentry hafter)
  constructor
  · intro other hge
    have hnew := hcore.fresh other hge
    have hne : other ≠ g := by
      rintro rfl
      rw [hentry] at hnew
      cases hnew
    exact (hother other hne).trans hnew
  · intro name' g' hserving
    by_cases hsame : name' = name
    · simp [hsame] at hserving
    · rw [Function.update_of_ne hsame] at hserving
      obtain ⟨found, hfound, hname', hzero⟩ := hcore.serving name' g' hserving
      have hne : g' ≠ g := by
        rintro rfl
        rw [hentry, Option.some.injEq] at hfound
        exact hsame (hname'.symm.trans (hfound ▸ hname))
      exact ⟨found, (hother g' hne).trans hfound, hname', hzero⟩
  · intro g' found hfound hretired
    by_cases hsame : g' = g
    · subst hsame
      rw [hself] at hfound
      cases hfound
      simp [stopEntry, hstops]
    · rw [hother g' hsame] at hfound
      apply hcore.retired g' found hfound
      by_cases hname' : found.name = name
      · rw [hname', hcurrent]
        intro heq
        exact hsame (Option.some.inj heq).symm
      · rwa [Function.update_of_ne hname'] at hretired
  · intro g' found hfound
    by_cases hsame : g' = g
    · subst hsame
      rw [hself] at hfound
      cases hfound
      simp [stopEntry, Wrapper.stop]
    · exact hcore.phase g' found ((hother g' hsame).symm.trans hfound)
  · intro g' found hfound hzero
    by_cases hsame : g' = g
    · subst hsame
      rw [hself] at hfound
      cases hfound
      simp [stopEntry] at hzero
    · exact hcore.unmuted g' found ((hother g' hsame).symm.trans hfound) hzero
  · intro g' later found hfound hafter
    by_cases hsame : g' = g
    · subst hsame
      rw [hself] at hfound
      cases hfound
      simp [stopEntry]
    · exact hcore.replaced g' later found
        ((hother g' hsame).symm.trans hfound) (replaces_of_stop hentry hafter)
  · intro msg hmsg
    rw [hsent] at hmsg
    rcases List.mem_append.mp hmsg with hold | hnew
    · exact hcore.sentMade msg hold
    · obtain ⟨-, event, -, rfl⟩ := mem_puts hnew
      by_contra hge
      rw [hcore.fresh g (Nat.le_of_not_lt hge)] at hentry
      cases hentry
  · intro msg hmsg hsender
    by_cases hsame : msg.wrapper = g
    · rw [hsame]
      exact ⟨_, hself, by simp [stopEntry]⟩
    · rw [hsent] at hmsg
      rcases List.mem_append.mp hmsg with hold | hnew
      · rw [hother msg.wrapper hsame]
        exact hcore.senders msg hold hsender
      · obtain ⟨-, event, -, rfl⟩ := mem_puts hnew
        exact absurd rfl hsame
  · constructor
    · intro g' found hfound hstopped hopen
      by_cases hsame : g' = g
      · subst hsame
        rw [hself] at hfound
        cases hfound
        have hputs : s.puts g' .stop (some .closeProxy) =
            [⟨g', .closeProxy, .stop⟩] := by
          have hclosed : s.sendChClosed = false := hopen
          simp [puts, hclosed]
        exact ⟨s.sent, [], by rw [hsent, hputs], by simp, hnone⟩
      · rw [hother g' hsame] at hfound
        apply (hcore.ordered.closeLast g' found hfound hstopped hopen).step hsent
        · intro msg hmsg
          obtain ⟨-, event, -, rfl⟩ := mem_puts hmsg
          exact fun heq => hsame heq.symm
        · exact fun msg _ hafter => replaces_of_stop hentry hafter
    · intro g' found hfound hmuted
      by_cases hsame : g' = g
      · subst hsame
        rw [hself] at hfound
        cases hfound
        have hclosed : s.sendChClosed = true := hmuted
        refine ⟨hclosed, ?_⟩
        intro msg hmsg
        rw [hsent] at hmsg
        simp only [puts, hclosed, if_true, List.append_nil] at hmsg
        refine ⟨?_, hnone msg hmsg⟩
        rintro rfl hsender
        obtain ⟨sending, hsending, hstopped⟩ := hcore.senders msg hmsg hsender
        rw [hentry, Option.some.injEq] at hsending
        exact hstopped (hsending ▸ hstops)
      · rw [hother g' hsame] at hfound
        apply (hcore.ordered.silent g' found hfound hmuted).step hsent
        · exact fun msg hmsg => (mem_puts hmsg).1
        · exact id
        · exact fun msg _ hafter => replaces_of_stop hentry hafter

/-- A new Wrapper for a name that has none. -/
theorem Core.add {s : State C} {current : String → Option Nat}
    (hcore : s.Core current) {name : String} (hnone : current name = none)
    (cfg : C) :
    (s.addWrapper healthCheck name cfg).Core
      (Function.update current name (some s.made)) := by
  have hself : (s.addWrapper healthCheck name cfg).wrappers s.made =
      some (newEntry name cfg (healthCheck cfg)) := by
    change (s.setEntry _ _).wrappers _ = _
    rw [setEntry_wrappers, if_pos rfl]
  have hother : ∀ other, other ≠ s.made →
      (s.addWrapper healthCheck name cfg).wrappers other = s.wrappers other := by
    intro other hne
    change (s.setEntry _ _).wrappers _ = _
    rw [setEntry_wrappers, if_neg hne]
  have hsent : (s.addWrapper healthCheck name cfg).sent = s.sent ++ [] :=
    (List.append_nil s.sent).symm
  have hold : ∀ g entry, s.wrappers g = some entry → g < s.made := by
    intro g entry hentry
    by_contra hge
    rw [hcore.fresh g (Nat.le_of_not_lt hge)] at hentry
    cases hentry
  have hreplaces : ∀ g g', g' < s.made →
      (s.addWrapper healthCheck name cfg).Replaces g' g → s.Replaces g' g := by
    rintro g g' hmade ⟨hlt, entry, entry', hentry, hentry', hname⟩
    rw [hother g (by omega)] at hentry
    rw [hother g' (by omega)] at hentry'
    exact ⟨hlt, entry, entry', hentry, hentry', hname⟩
  constructor
  · intro g hge
    have hlt : s.made < g := hge
    rw [hother g (by omega)]
    exact hcore.fresh g (by omega)
  · intro name' g hserving
    by_cases hsame : name' = name
    · subst hsame
      rw [Function.update_self, Option.some.injEq] at hserving
      exact hserving ▸ ⟨_, hself, rfl, rfl⟩
    · rw [Function.update_of_ne hsame] at hserving
      obtain ⟨entry, hentry, hrest⟩ := hcore.serving name' g hserving
      have hmade := hold g entry hentry
      exact ⟨entry, (hother g (by omega)).trans hentry, hrest⟩
  · intro g entry hentry hretired
    by_cases hsame : g = s.made
    · subst hsame
      rw [hself] at hentry
      cases hentry
      exact absurd (Function.update_self name _ current) hretired
    · rw [hother g hsame] at hentry
      apply hcore.retired g entry hentry
      by_cases hname : entry.name = name
      · rw [hname, hnone]
        exact fun heq => by cases heq
      · rwa [Function.update_of_ne hname] at hretired
  · intro g entry hentry
    by_cases hsame : g = s.made
    · subst hsame
      rw [hself] at hentry
      cases hentry
      simp [newEntry]
    · exact hcore.phase g entry ((hother g hsame).symm.trans hentry)
  · intro g entry hentry hstops
    by_cases hsame : g = s.made
    · subst hsame
      rw [hself] at hentry
      cases hentry
      rfl
    · exact hcore.unmuted g entry ((hother g hsame).symm.trans hentry) hstops
  · intro g g' entry hentry hafter
    obtain ⟨hlt, found, later, hfound, hlater, hname⟩ := hafter
    rw [hentry, Option.some.injEq] at hfound
    subst hfound
    rcases Nat.lt_trichotomy g' s.made with hbefore | rfl | hbeyond
    · rw [hother g (by omega)] at hentry
      exact hcore.replaced g g' entry hentry (hreplaces g g' hbefore
        ⟨hlt, entry, later, (hother g (by omega)).trans hentry, hlater, hname⟩)
    · rw [hother g (by omega)] at hentry
      rw [hself] at hlater
      cases hlater
      have hretired : current entry.name ≠ some g := by
        rw [← hname]
        simp [newEntry, hnone]
      have hone := hcore.retired g entry hentry hretired
      omega
    · rw [hother g' (by omega), hcore.fresh g' (by omega)] at hlater
      cases hlater
  · intro msg hmsg
    exact Nat.lt_succ_of_lt (hcore.sentMade msg hmsg)
  · intro msg hmsg hsender
    have hmade := hcore.sentMade msg hmsg
    rw [hother msg.wrapper (by omega)]
    exact hcore.senders msg hmsg hsender
  · constructor
    · intro g entry hentry hstops hmuted
      by_cases hsame : g = s.made
      · subst hsame
        rw [hself] at hentry
        cases hentry
        exact absurd rfl hstops
      · rw [hother g hsame] at hentry
        apply (hcore.ordered.closeLast g entry hentry hstops hmuted).step hsent
        · simp
        · exact fun msg hmsg hafter =>
            hreplaces g msg.wrapper (hcore.sentMade msg hmsg) hafter
    · intro g entry hentry hmuted
      by_cases hsame : g = s.made
      · subst hsame
        rw [hself] at hentry
        cases hentry
        cases hmuted
      · rw [hother g hsame] at hentry
        apply (hcore.ordered.silent g entry hentry hmuted).step hsent
        · simp
        · exact id
        · exact fun msg hmsg hafter =>
            hreplaces g msg.wrapper (hcore.sentMade msg hmsg) hafter

/-- The Wrappers that serve: in the loop of `Close` those still to visit. -/
def current (s : State C) (name : String) : Option Nat :=
  match s.op with
  | .closing todo => if name ∈ todo then s.proxies.get name else none
  | .idle | .deleting _ _ _ | .adding _ _ _ => s.proxies.get name

/-- The first loop of `Reload`: what is to visit is as it was, what has been
visited is kept or gone. -/
structure Deletes (s : State C) (before : ConfMap Nat) (new : ConfMap C)
    (todo : List String) : Prop where
  nodup : todo.Nodup
  known : ∀ name g, before.get name = some g →
    ∃ entry, s.wrappers g = some entry ∧ entry.name = name
  old : ∀ name g, s.proxies.get name = some g → before.get name = some g
  kept : ∀ name g entry, before.get name = some g →
    s.wrappers g = some entry →
    (name ∈ todo ∨ ConfMap.Keeps compare new (name, entry.cfg) = true) →
    s.proxies.get name = some g
  dropped : ∀ name g entry, before.get name = some g →
    s.wrappers g = some entry → name ∉ todo →
    ConfMap.Keeps compare new (name, entry.cfg) = false →
    s.proxies.get name = none

/-- The second loop: every name of the new configuration is there or to visit. -/
structure Adds (s : State C) (before : ConfMap Nat) (new : ConfMap C)
    (todo : List (String × C)) : Prop where
  known : ∀ name g, before.get name = some g →
    ∃ entry, s.wrappers g = some entry ∧ entry.name = name
  kept : ∀ name g entry, before.get name = some g →
    s.wrappers g = some entry →
    (s.proxies.get name = some g ↔
      ConfMap.Keeps compare new (name, entry.cfg) = true)
  names : ∀ name, (s.proxies.get name).isSome = true →
    (new.get name).isSome = true
  missing : ∀ name, (new.get name).isSome = true →
    (s.proxies.get name).isSome = true ∨ name ∈ todo.map Prod.fst
  todo : ∀ entry ∈ todo, entry ∈ new.entries

/-- How far the loop has come that holds the mutex. -/
def OpInv (s : State C) : Prop :=
  match s.op with
  | .idle => True
  | .deleting before new todo => s.Deletes compare before new todo
  | .adding before new todo => s.Adds compare before new todo
  | .closing todo => todo.Nodup

structure Inv (s : State C) : Prop where
  core : s.Core s.current
  op : s.OpInv compare

variable {compare} in
theorem Inv.deletes {s : State C} (hinv : s.Inv compare) {before : ConfMap Nat}
    {new : ConfMap C} {todo : List String}
    (hop : s.op = .deleting before new todo) :
    s.Deletes compare before new todo := by
  have h := hinv.op
  rwa [OpInv, hop] at h

variable {compare} in
theorem Inv.adds {s : State C} (hinv : s.Inv compare) {before : ConfMap Nat}
    {new : ConfMap C} {todo : List (String × C)}
    (hop : s.op = .adding before new todo) : s.Adds compare before new todo := by
  have h := hinv.op
  rwa [OpInv, hop] at h

/-- Outside the loop of `Close` all Wrappers of the map serve. -/
theorem current_eq {s : State C} (hop : ∀ todo, s.op ≠ .closing todo) :
    s.current = s.proxies.get := by
  funext name
  unfold current
  split
  · next todo hclosing => exact absurd hclosing (hop todo)
  all_goals rfl

theorem core_init : (init C).Core fun _ => none where
  fresh g _ := rfl
  serving name g h := by cases h
  retired g entry h := by cases h
  phase g entry h := by cases h
  unmuted g entry h := by cases h
  replaced g g' entry h := by cases h
  sentMade msg h := by cases h
  senders msg h := by cases h
  ordered := by
    constructor
    · intro g entry h
      cases h
    · intro g entry h
      cases h

theorem inv_init : (init C).Inv compare := ⟨core_init, trivial⟩

variable {compare} {healthCheck}

theorem Deletes.frame {s s' : State C} {before : ConfMap Nat}
    {new : ConfMap C} {todo : List String}
    (hdeletes : s.Deletes compare before new todo) {msgs : List Sent}
    (hframe : Frame s s' msgs) (hproxies : s'.proxies = s.proxies) :
    s'.Deletes compare before new todo where
  nodup := hdeletes.nodup
  known name g hbefore := by
    obtain ⟨entry, hentry, hname⟩ := hdeletes.known name g hbefore
    obtain ⟨entry', hentry', hsame⟩ := hframe.forth g entry hentry
    exact ⟨entry', hentry', hsame.name.trans hname⟩
  old := hproxies ▸ hdeletes.old
  kept name g entry hbefore hentry hkeeps := by
    obtain ⟨old, hold, hsame⟩ := hframe.back g entry hentry
    rw [hproxies]
    exact hdeletes.kept name g old hbefore hold (hsame.cfg ▸ hkeeps)
  dropped name g entry hbefore hentry hvisited hkeeps := by
    obtain ⟨old, hold, hsame⟩ := hframe.back g entry hentry
    rw [hproxies]
    exact hdeletes.dropped name g old hbefore hold hvisited (hsame.cfg ▸ hkeeps)

theorem Adds.frame {s s' : State C} {before : ConfMap Nat} {new : ConfMap C}
    {todo : List (String × C)} (hadds : s.Adds compare before new todo)
    {msgs : List Sent} (hframe : Frame s s' msgs)
    (hproxies : s'.proxies = s.proxies) :
    s'.Adds compare before new todo where
  known name g hbefore := by
    obtain ⟨entry, hentry, hname⟩ := hadds.known name g hbefore
    obtain ⟨entry', hentry', hsame⟩ := hframe.forth g entry hentry
    exact ⟨entry', hentry', hsame.name.trans hname⟩
  kept name g entry hbefore hentry := by
    obtain ⟨old, hold, hsame⟩ := hframe.back g entry hentry
    rw [hproxies, hsame.cfg]
    exact hadds.kept name g old hbefore hold
  names := hproxies ▸ hadds.names
  missing := hproxies ▸ hadds.missing
  todo := hadds.todo

/-- What the mutex protects is what it was, and so is what the loops have seen. -/
theorem Inv.of_frame {s s' : State C} (hinv : s.Inv compare) {msgs : List Sent}
    (hframe : Frame s s' msgs) (hcurrent : s'.current = s.current)
    (hop : s'.OpInv compare) : s'.Inv compare :=
  ⟨hcurrent ▸ hinv.core.frame hframe, hop⟩

/-- A step of a Wrapper leaves the Manager where it is. -/
theorem Inv.frame {s s' : State C} (hinv : s.Inv compare) {msgs : List Sent}
    (hframe : Frame s s' msgs) (hproxies : s'.proxies = s.proxies)
    (hop : s'.op = s.op) : s'.Inv compare := by
  have hcurrent : s'.current = s.current := by
    funext name
    rw [current, current, hop, hproxies]
  apply hinv.of_frame hframe hcurrent
  have hbefore := hinv.op
  unfold OpInv at hbefore ⊢
  rw [hop]
  cases hs : s.op with
  | idle => trivial
  | deleting before new todo =>
      rw [hs] at hbefore
      exact Deletes.frame hbefore hframe hproxies
  | adding before new todo =>
      rw [hs] at hbefore
      exact Adds.frame hbefore hframe hproxies
  | closing todo =>
      rw [hs] at hbefore
      exact hbefore

/-- A step that touches neither the Wrappers nor the channel. -/
theorem frame_of_eq {s s' : State C} (hwrappers : s'.wrappers = s.wrappers)
    (hmade : s'.made = s.made) (hsent : s'.sent = s.sent)
    (hclosed : s.sendChClosed = true → s'.sendChClosed = true) :
    Frame s s' [] where
  made := hmade
  closed := hclosed
  back g entry hentry := ⟨entry, hwrappers ▸ hentry, Same.refl entry⟩
  forth g entry hentry := ⟨entry, hwrappers ▸ hentry, Same.refl entry⟩
  sent := by rw [hsent, List.append_nil]
  msgs msg hmsg := by cases hmsg

/-- The loop of `Reload` begins, goes on or ends. -/
theorem Inv.setOp {s : State C} (hinv : s.Inv compare) {op : Op C}
    (hbefore : ∀ todo, s.op ≠ .closing todo) (hafter : ∀ todo, op ≠ .closing todo)
    (hop : State.OpInv compare { s with op := op }) :
    State.Inv compare { s with op := op } := by
  have hcurrent : State.current { s with op := op } = s.proxies.get :=
    current_eq hafter
  exact hinv.of_frame (frame_of_eq rfl rfl rfl id)
    (hcurrent.trans (current_eq hbefore).symm) hop

theorem same_checkWorker (entry : Entry C) (health now : Nat) :
    Same entry (entry.checkWorker health now).1 := by
  refine ⟨rfl, rfl, rfl, rfl, ?_⟩
  unfold Entry.checkWorker
  rcases Wrapper.checkWorker_cases { entry.pw with health := health } now with
    ⟨next, heq, hnext, _, hopen⟩ | ⟨next, heq, hnext, hactive⟩ | heq
  · simp only [heq, hnext]
    exact ⟨nofun, fun hclosed => absurd hclosed hopen⟩
  · simp only [heq, hnext]
    refine ⟨nofun, ?_⟩
    intro hclosed
    simp [hclosed] at hactive
  · simp only [heq]

theorem checkWorker_event {entry : Entry C} {health now : Nat}
    (hevent : (entry.checkWorker health now).2 ≠ none) :
    entry.pw.phase ≠ .closed := by
  intro hclosed
  let looking : Wrapper := { entry.pw with health := health }
  have hlooking : looking.phase = .closed := hclosed
  have hnone := Wrapper.checkWorker_closed hlooking now
  exact hevent (congrArg Prod.snd hnone)

theorem same_setRunningStatus (entry : Entry C) (now : Nat)
    (remoteAddr respErr : String) (runErr : Option String) :
    Same entry { entry with
      pw := (entry.pw.setRunningStatus now remoteAddr respErr runErr).pw } := by
  refine ⟨rfl, rfl, rfl, rfl, ?_⟩
  by_cases hphase : entry.pw.phase = .waitStart
  · rcases Wrapper.setRunningStatus_cases hphase now remoteAddr respErr runErr
      with ⟨_, hnext, _⟩ | ⟨_, hnext, _⟩ | ⟨_, hnext, _⟩ <;>
      simp [hnext, hphase]
  · rw [(Wrapper.setRunningStatus_ignored hphase _ _ _ _).1]

theorem setRunningStatus_event {entry : Entry C} {now : Nat}
    {remoteAddr respErr : String} {runErr : Option String}
    (hevent : (entry.pw.setRunningStatus now remoteAddr respErr runErr).event ≠
      none) : entry.pw.phase ≠ .closed := by
  intro hclosed
  apply hevent
  exact (Wrapper.setRunningStatus_ignored (by simp [hclosed]) _ _ _ _).2

/-- A section of a Wrapper that sends nothing once it has been stopped. -/
theorem Inv.act {s : State C} (hinv : s.Inv compare) {g : Nat}
    {entry entry' : Entry C} (hentry : s.wrappers g = some entry)
    (hsame : Same entry entry') {sender : Sender} (hsender : sender ≠ .stop)
    {event : Option ProxyEvent}
    (hevent : event ≠ none → entry.pw.phase ≠ .closed) :
    (s.act g entry' sender event).Inv compare := by
  apply hinv.frame (frame_act hentry hsame hsender ?_) rfl rfl
  intro hsends
  by_contra hstops
  exact hevent hsends ((hinv.core.phase g entry hentry).mpr hstops)

theorem Inv.setEntry {s : State C} (hinv : s.Inv compare) {g : Nat}
    {entry entry' : Entry C} (hentry : s.wrappers g = some entry)
    (hsame : Same entry entry') : (s.setEntry g entry').Inv compare := by
  have hact : (s.act g entry' .checkWorker none).Inv compare :=
    hinv.act hentry hsame (by decide) (fun h => absurd rfl h)
  have hframe : Frame (s.act g entry' .checkWorker none)
      (s.setEntry g entry') [] :=
    frame_of_eq rfl rfl (List.append_nil _).symm id
  exact hact.frame hframe rfl rfl

/-- One turn of the first loop of `Reload`. -/
theorem Deletes.visit {s s' : State C} {before : ConfMap Nat} {new : ConfMap C}
    {todo : List String} (hdeletes : s.Deletes compare before new todo)
    {name : String} {g : Nat} (hget : s.proxies.get name = some g)
    {entry : Entry C} (hentry : s.wrappers g = some entry)
    (hback : ∀ other later, s'.wrappers other = some later →
      ∃ old, s.wrappers other = some old ∧ later.cfg = old.cfg)
    (hforth : ∀ other old, s.wrappers other = some old →
      ∃ later, s'.wrappers other = some later ∧ later.name = old.name)
    (hproxies : ∀ other, s'.proxies.get other =
      if other = name ∧ ConfMap.Keeps compare new (name, entry.cfg) = false
      then none else s.proxies.get other) :
    s'.Deletes compare before new (todo.erase name) := by
  have hbefore := hdeletes.old name g hget
  -- the visited name had one Wrapper, the one that the loop has found
  have hvisited : ∀ g' old, before.get name = some g' →
      s.wrappers g' = some old → old = entry := by
    intro g' old hg' hold
    rw [hbefore, Option.some.injEq] at hg'
    subst hg'
    rw [hentry, Option.some.injEq] at hold
    exact hold.symm
  constructor
  · exact hdeletes.nodup.erase name
  · intro other g' hg'
    obtain ⟨old, hold, hname⟩ := hdeletes.known other g' hg'
    obtain ⟨later, hlater, hsame⟩ := hforth g' old hold
    exact ⟨later, hlater, hsame.trans hname⟩
  · intro other g' hg'
    rw [hproxies] at hg'
    split at hg'
    · cases hg'
    · exact hdeletes.old other g' hg'
  · intro other g' later hg' hlater hkeeps
    obtain ⟨old, hold, hcfg⟩ := hback g' later hlater
    rw [hcfg] at hkeeps
    have hkept := hdeletes.kept other g' old hg' hold
      (hkeeps.imp_left List.mem_of_mem_erase)
    rw [hproxies, if_neg, hkept]
    rintro ⟨rfl, hdrop⟩
    rw [hvisited g' old hg' hold, hdrop] at hkeeps
    rcases hkeeps with htodo | hkeeps
    · exact (hdeletes.nodup.mem_erase_iff.mp htodo).1 rfl
    · cases hkeeps
  · intro other g' later hg' hlater htodo hdrop
    obtain ⟨old, hold, hcfg⟩ := hback g' later hlater
    rw [hcfg] at hdrop
    rw [hproxies]
    by_cases hsame : other = name
    · subst hsame
      rw [hvisited g' old hg' hold] at hdrop
      exact if_pos ⟨rfl, hdrop⟩
    · rw [if_neg (fun h => hsame h.1)]
      apply hdeletes.dropped other g' old hg' hold ?_ hdrop
      exact fun hmem => htodo ((List.mem_erase_of_ne hsame).mpr hmem)

theorem Inv.keep {s : State C} (hinv : s.Inv compare) {before : ConfMap Nat}
    {new : ConfMap C} {todo : List String} (hop : s.op = .deleting before new todo)
    {name : String} {g : Nat} (hget : s.proxies.get name = some g)
    {entry : Entry C} (hentry : s.wrappers g = some entry)
    (hkeeps : ConfMap.Keeps compare new (name, entry.cfg) = true) :
    State.Inv compare
      { s with op := .deleting before new (todo.erase name) } := by
  apply hinv.setOp (by simp [hop]) (by simp)
  apply (hinv.deletes hop).visit hget hentry
  · exact fun other later hlater => ⟨later, hlater, rfl⟩
  · exact fun other old hold => ⟨old, hold, rfl⟩
  · intro other
    rw [if_neg]
    rw [hkeeps]
    exact fun h => nomatch h.2

theorem Inv.drop {s : State C} (hinv : s.Inv compare) {before : ConfMap Nat}
    {new : ConfMap C} {todo : List String} (hop : s.op = .deleting before new todo)
    {name : String} {g : Nat} (hget : s.proxies.get name = some g)
    {entry : Entry C} (hentry : s.wrappers g = some entry)
    (hkeeps : ConfMap.Keeps compare new (name, entry.cfg) = false) :
    ({ s with
      proxies := s.proxies.erase name
      op := .deleting before new (todo.erase name) }.stopWrapper g entry).Inv
      compare := by
  have hcurrent : s.current = s.proxies.get := current_eq (by simp [hop])
  constructor
  · have hstop := hinv.core.stop (hcurrent ▸ hget) hentry
    have hnext : Function.update s.current name none =
        State.current ({ s with
          proxies := s.proxies.erase name
          op := .deleting before new (todo.erase name) }.stopWrapper g entry) := by
      funext other
      rw [hcurrent, Function.update_apply]
      exact (ConfMap.get_erase s.proxies name other).symm
    rw [← hnext]
    exact hstop.frame (frame_of_eq rfl rfl rfl id)
  · apply (hinv.deletes hop).visit hget hentry
    · intro other later hlater
      obtain ⟨old, hold, -, hcfg⟩ := stopWrapper_back hentry other later hlater
      exact ⟨old, hold, hcfg⟩
    · exact fun other old hold => stopWrapper_forth hentry other old hold
    · intro other
      simp only [hkeeps, and_true]
      exact ConfMap.get_erase s.proxies name other

/-- Between the loops: what is left are the kept ones. -/
theorem Deletes.adds {s : State C} {before : ConfMap Nat} {new : ConfMap C}
    (hdeletes : s.Deletes compare before new []) :
    s.Adds compare before new new.entries where
  known := hdeletes.known
  kept name g entry hbefore hentry := by
    constructor
    · intro hget
      by_contra hdrop
      rw [hdeletes.dropped name g entry hbefore hentry List.not_mem_nil
        (Bool.eq_false_iff.mpr hdrop)] at hget
      cases hget
    · exact fun hkeeps =>
        hdeletes.kept name g entry hbefore hentry (Or.inr hkeeps)
  names name hname := by
    obtain ⟨g, hget⟩ := Option.isSome_iff_exists.mp hname
    have hbefore := hdeletes.old name g hget
    obtain ⟨entry, hentry, -⟩ := hdeletes.known name g hbefore
    cases hnew : new.get name with
    | some cfg => rfl
    | none =>
        rw [hdeletes.dropped name g entry hbefore hentry List.not_mem_nil
          (by simp [ConfMap.Keeps, hnew])] at hget
        cases hget
  missing name hname := Or.inr (ConfMap.mem_names.mpr hname)
  todo entry hentry := hentry

/-- One turn of the second loop of `Reload`. -/
theorem Adds.visit {s s' : State C} {before : ConfMap Nat} {new : ConfMap C}
    {todo : List (String × C)} (hadds : s.Adds compare before new todo)
    {name : String} {cfg : C} (htodo : (name, cfg) ∈ todo)
    (hfresh : s.wrappers s.made = none)
    (hwrappers : ∀ g, g ≠ s.made → s'.wrappers g = s.wrappers g)
    (hproxies : ∀ other, s'.proxies.get other =
      if other = name ∧ (s.proxies.get name).isSome = false then some s.made
      else s.proxies.get other) :
    s'.Adds compare before new
      (todo.filter fun entry => entry.1 ≠ name) := by
  have hold : ∀ other g, before.get other = some g →
      s'.wrappers g = s.wrappers g ∧ g ≠ s.made := by
    intro other g hbefore
    obtain ⟨entry, hentry, -⟩ := hadds.known other g hbefore
    have hne : g ≠ s.made := by
      rintro rfl
      rw [hfresh] at hentry
      cases hentry
    exact ⟨hwrappers g hne, hne⟩
  constructor
  · intro other g hbefore
    rw [(hold other g hbefore).1]
    exact hadds.known other g hbefore
  · intro other g entry hbefore hentry
    rw [(hold other g hbefore).1] at hentry
    rw [← hadds.kept other g entry hbefore hentry, hproxies]
    split
    · next hnew =>
        obtain ⟨rfl, hnone⟩ := hnew
        rw [Option.isSome_eq_false_iff, Option.isNone_iff_eq_none] at hnone
        rw [hnone, Option.some.injEq]
        have hne := (hold other g hbefore).2
        exact ⟨fun heq => absurd heq.symm hne, nofun⟩
    · exact Iff.rfl
  · intro other hother
    rw [hproxies] at hother
    split at hother
    · next hnew =>
        rw [hnew.1, ConfMap.get_of_mem (hadds.todo _ htodo)]
        rfl
    · exact hadds.names other hother
  · intro other hother
    rw [hproxies]
    by_cases hsame : other = name
    · left
      subst hsame
      cases hget : s.proxies.get other with
      | none => simp
      | some g => simp
    · rw [if_neg (fun h => hsame h.1)]
      apply (hadds.missing other hother).imp_right
      intro hmem
      obtain ⟨entry, hentry, rfl⟩ := List.mem_map.mp hmem
      apply List.mem_map_of_mem
      exact List.mem_filter.mpr ⟨hentry, decide_eq_true hsame⟩
  · exact fun entry hentry => hadds.todo entry (List.mem_of_mem_filter hentry)

theorem Inv.pass {s : State C} (hinv : s.Inv compare) {before : ConfMap Nat}
    {new : ConfMap C} {todo : List (String × C)}
    (hop : s.op = .adding before new todo) {name : String} {cfg : C}
    (hlookup : todo.lookup name = some cfg)
    (hthere : (s.proxies.get name).isSome = true) :
    State.Inv compare { s with
      op := .adding before new (todo.filter fun entry => entry.1 ≠ name) } := by
  apply hinv.setOp (by simp [hop]) (by simp)
  apply (hinv.adds hop).visit (ConfMap.mem_of_lookup hlookup)
    (hinv.core.fresh s.made (Nat.le_refl _))
  · exact fun g hne => rfl
  · intro other
    rw [if_neg]
    rw [hthere]
    exact fun h => nomatch h.2

theorem Inv.add {s : State C} (hinv : s.Inv compare) {before : ConfMap Nat}
    {new : ConfMap C} {todo : List (String × C)}
    (hop : s.op = .adding before new todo) {name : String} {cfg : C}
    (hlookup : todo.lookup name = some cfg) (hnone : s.proxies.get name = none) :
    ({ s with
      op := .adding before new
        (todo.filter fun entry => entry.1 ≠ name) }.addWrapper healthCheck
          name cfg).Inv compare := by
  have hcurrent : s.current = s.proxies.get := current_eq (by simp [hop])
  constructor
  · have hadd : (s.addWrapper healthCheck name cfg).Core
        (Function.update s.current name (some s.made)) :=
      hinv.core.add healthCheck (hcurrent ▸ hnone) cfg
    have hnext : Function.update s.current name (some s.made) =
        State.current ({ s with
          op := .adding before new
            (todo.filter fun entry => entry.1 ≠ name) }.addWrapper
              healthCheck name cfg) := by
      funext other
      rw [hcurrent, Function.update_apply]
      exact (ConfMap.get_insert s.proxies name other s.made).symm
    rw [← hnext]
    exact hadd.frame (frame_of_eq rfl rfl rfl id)
  · apply (hinv.adds hop).visit (ConfMap.mem_of_lookup hlookup)
      (hinv.core.fresh s.made (Nat.le_refl _))
    · exact fun g hne => Function.update_of_ne hne _ _
    · intro other
      simp only [hnone, Option.isSome_none, and_true]
      exact ConfMap.get_insert s.proxies name other s.made

theorem Inv.reload {s : State C} (hinv : s.Inv compare) (hop : s.op = .idle)
    (new : ConfMap C) :
    State.Inv compare
      { s with op := .deleting s.proxies new s.proxies.names } := by
  have hcurrent : s.current = s.proxies.get := current_eq (by simp [hop])
  apply hinv.setOp (by simp [hop]) (by simp)
  constructor
  · exact s.proxies.nodup
  · intro name g hget
    obtain ⟨entry, hentry, hname, -⟩ :=
      hinv.core.serving name g (hcurrent ▸ hget)
    exact ⟨entry, hentry, hname⟩
  · exact fun name g hget => hget
  · exact fun name g entry hget _ _ => hget
  · intro name g entry hget _ hvisited
    exact absurd (ConfMap.mem_names.mpr (by simp [hget])) hvisited

theorem Inv.deleted {s : State C} (hinv : s.Inv compare)
    {before : ConfMap Nat} {new : ConfMap C}
    (hop : s.op = .deleting before new []) :
    State.Inv compare { s with op := .adding before new new.entries } := by
  apply hinv.setOp (by simp [hop]) (by simp)
  exact (hinv.deletes hop).adds.frame (frame_of_eq rfl rfl rfl id) rfl

/-- `Reload` returns. -/
theorem Inv.unlock {s : State C} (hinv : s.Inv compare) {before : ConfMap Nat}
    {new : ConfMap C} (hop : s.op = .adding before new []) :
    State.Inv compare { s with op := .idle } :=
  hinv.setOp (by simp [hop]) (by simp) trivial

theorem Inv.close {s : State C} (hinv : s.Inv compare) (hop : s.op = .idle) :
    State.Inv compare { s with op := .closing s.proxies.names } := by
  have hframe : Frame s { s with op := .closing s.proxies.names } [] :=
    frame_of_eq rfl rfl rfl id
  refine hinv.of_frame hframe ?_ s.proxies.nodup
  funext name
  simp only [current, hop, ConfMap.mem_names]
  split
  · rfl
  · next hnone =>
      symm
      simpa using hnone

/-- One turn of the loop of `Close`. -/
theorem Inv.stop {s : State C} (hinv : s.Inv compare) {todo : List String}
    (hop : s.op = .closing todo) {name : String} (hname : name ∈ todo) {g : Nat}
    (hget : s.proxies.get name = some g) {entry : Entry C}
    (hentry : s.wrappers g = some entry) :
    ({ s with op := .closing (todo.erase name) }.stopWrapper g entry).Inv
      compare := by
  have hnodup : todo.Nodup := by
    have h := hinv.op
    rwa [OpInv, hop] at h
  have hserving : s.current name = some g := by
    simp only [current, hop]
    rw [if_pos hname, hget]
  constructor
  · have hstop := hinv.core.stop hserving hentry
    have hnext : Function.update s.current name none =
        State.current ({ s with
          op := .closing (todo.erase name) }.stopWrapper g entry) := by
      funext other
      rw [Function.update_apply]
      change _ = if other ∈ todo.erase name then s.proxies.get other else none
      simp only [current, hop, hnodup.mem_erase_iff]
      by_cases hsame : other = name
      · simp [hsame]
      · simp [hsame]
    rw [← hnext]
    exact hstop.frame (frame_of_eq rfl rfl rfl id)
  · exact hnodup.erase name

theorem Inv.closed {s : State C} (hinv : s.Inv compare)
    (hop : s.op = .closing []) :
    State.Inv compare { s with proxies := .empty, op := .idle } := by
  have hframe : Frame s { s with proxies := .empty, op := .idle } [] :=
    frame_of_eq rfl rfl rfl id
  refine hinv.of_frame hframe ?_ trivial
  funext name
  simp [current, hop]

theorem Inv.step {s s' : State C} (hinv : s.Inv compare) {action : Action C}
    (hstep : step compare healthCheck s action = some s') :
    s'.Inv compare := by
  cases steps_of_step hstep with
  | elapse | startProxy => exact hinv.frame (frame_of_eq rfl rfl rfl id) rfl rfl
  | closeSendCh =>
      exact hinv.frame (frame_of_eq rfl rfl rfl fun _ => rfl) rfl rfl
  | @health g entry healthy hentry _ =>
      have hsame : Same entry { entry with
          pw := if healthy then entry.pw.statusNormalCallback
            else entry.pw.statusFailedCallback } := by
        refine ⟨rfl, rfl, rfl, rfl, ?_⟩
        cases healthy with
        | true => exact Iff.rfl
        | false => exact Iff.rfl
      exact hinv.setEntry hentry hsame
  | look hentry => exact hinv.setEntry hentry ⟨rfl, rfl, rfl, rfl, Iff.rfl⟩
  | @check g health now entry hentry _ =>
      exact hinv.act hentry (same_checkWorker entry health now) (by decide)
        checkWorker_event
  | @setRunning g remoteAddr respErr entry runErr _ hentry =>
      have hidle : State.Inv compare { s with handling := none } :=
        hinv.frame (frame_of_eq rfl rfl rfl id) rfl rfl
      exact hidle.act hentry (same_setRunningStatus entry _ _ _ _) (by decide)
        setRunningStatus_event
  | reload new hop => exact hinv.reload hop new
  | keep hop hget hentry hkeeps => exact hinv.keep hop hget hentry hkeeps
  | drop hop hget hentry hkeeps => exact hinv.drop hop hget hentry hkeeps
  | deleted hop => exact hinv.deleted hop
  | pass hop hlookup hthere => exact hinv.pass hop hlookup hthere
  | add hop hlookup hnone => exact hinv.add hop hlookup hnone
  | reloaded hop => exact hinv.unlock hop
  | close hop => exact hinv.close hop
  | stop hop hname hget hentry => exact hinv.stop hop hname hget hentry
  | closed hop => exact hinv.closed hop

theorem inv_of_reaches {word : List (Action C)} {s : State C}
    (hreaches : (system compare healthCheck).Reaches word s) :
    s.Inv compare :=
  System.Reaches.invariant (inv_init compare)
    (fun _ _ _ hinv hstep => hinv.step hstep) hreaches

/-- The end of the second loop: every name has been visited. -/
theorem Inv.reloaded {s : State C} (hinv : s.Inv compare)
    {before : ConfMap Nat} {new : ConfMap C}
    (hop : s.op = .adding before new []) : s.Reloaded compare before new := by
  have hadds := hinv.adds hop
  have hcurrent : s.current = s.proxies.get := current_eq (by simp [hop])
  constructor
  · intro name
    constructor
    · exact hadds.names name
    · intro hname
      rcases hadds.missing name hname with hthere | hleft
      · exact hthere
      · cases hleft
  · intro name g hbefore
    obtain ⟨entry, hentry, hname⟩ := hadds.known name g hbefore
    refine ⟨entry, hentry, hname, ?_⟩
    rw [← hadds.kept name g entry hbefore hentry]
    constructor
    · exact fun h => h.1
    · intro hget
      obtain ⟨found, hfound, -, hstops⟩ :=
        hinv.core.serving name g (hcurrent ▸ hget)
      rw [hentry, Option.some.injEq] at hfound
      subst hfound
      refine ⟨hget, hstops, ?_⟩
      intro msg hmsg hwrapper hsender
      obtain ⟨stopped, hstopped, hnonzero⟩ :=
        hinv.core.senders msg hmsg hsender
      rw [hwrapper, hentry, Option.some.injEq] at hstopped
      exact hnonzero (hstopped ▸ hstops)
  · intro name g entry hbefore hentry hdrop
    apply hinv.core.retired g entry hentry
    obtain ⟨found, hfound, hname⟩ := hadds.known name g hbefore
    rw [hentry, Option.some.injEq] at hfound
    subst hfound
    rw [hcurrent, hname]
    intro hget
    rw [(hadds.kept name g entry hbefore hentry).mp hget] at hdrop
    cases hdrop

end State

variable {compare} {healthCheck}

/-- On the channel every stopped Wrapper is closed last and before all that
replaces it, in every state reached; and a `Reload` that has visited every name
has kept the unchanged Wrappers and stopped the others once. -/
theorem ordered_and_reloaded {word : List (Action C)} {s : State C}
    (hreaches : (system compare healthCheck).Reaches word s) :
    s.Ordered ∧ ∀ before new, s.op = .adding before new [] →
      s.Reloaded compare before new := by
  have hinv := State.inv_of_reaches hreaches
  exact ⟨hinv.core.ordered, fun before new hop => hinv.reloaded hop⟩

/-- One proxy on a local port. -/
def webConf (port : Nat) : ConfMap Nat :=
  ⟨[("web", port)], List.nodup_singleton _⟩

/-- A registered proxy gets another port: its Wrapper is replaced while it waits
for the answer. -/
def changedPort : List (Action Nat) :=
  [.reload (webConf 80), .deleted, .add "web", .reloaded, .look 0, .check 0,
    .look 0, .reload (webConf 81), .delete "web", .deleted, .add "web",
    .check 0]

theorem ordered_and_reloaded_changedPort :
    ∃ s : State Nat, (system (· == ·) fun _ => false).Reaches changedPort s ∧
      s.sent = [⟨0, .startProxy, .checkWorker⟩, ⟨0, .closeProxy, .stop⟩] ∧
      s.Ordered ∧ ∃ before, s.Reloaded (· == ·) before (webConf 81) := by
  obtain ⟨s, hreaches, hsent, before, hop⟩ :
      ∃ s : State Nat, (system (· == ·) fun _ => false).Reaches changedPort s ∧
        s.sent = [⟨0, .startProxy, .checkWorker⟩, ⟨0, .closeProxy, .stop⟩] ∧
        ∃ before, s.op = .adding before (webConf 81) [] :=
    ⟨_, System.reaches_of_exec rfl, rfl, _, rfl⟩
  have hboth := ordered_and_reloaded hreaches
  exact ⟨s, hreaches, hsent, hboth.1, before, hboth.2 _ _ hop⟩

/-- The control connection is lost, and its channel closed, before the `Reload`
that changes the port. -/
def changedAfterLoss : List (Action Nat) :=
  [.reload (webConf 80), .deleted, .add "web", .reloaded, .look 0, .check 0,
    .closeSendCh, .reload (webConf 81), .delete "web", .deleted, .add "web"]

/-- A Wrapper stopped on the closed channel has left its NewProxy as its last
message. -/
theorem not_closeLast_changedAfterLoss :
    ¬ ∀ (word : List (Action Nat)) (s : State Nat) before new,
      (system (· == ·) fun _ => false).Reaches word s →
      s.op = .adding before new [] → ∀ g entry, s.wrappers g = some entry →
        entry.stops ≠ 0 → s.CloseLast g := by
  intro hclaim
  obtain ⟨s, hreaches, hsent, before, entry, hop, hentry, hstops⟩ :
      ∃ s : State Nat,
        (system (· == ·) fun _ => false).Reaches changedAfterLoss s ∧
        s.sent = [⟨0, .startProxy, .checkWorker⟩] ∧ ∃ before entry,
          s.op = .adding before (webConf 81) [] ∧
          s.wrappers 0 = some entry ∧ entry.stops = 1 :=
    ⟨_, System.reaches_of_exec rfl, rfl, _, _, rfl, rfl, rfl⟩
  obtain ⟨earlier, later, hsplit, -⟩ := hclaim _ s before _ hreaches hop 0 entry
    hentry (by simp [hstops])
  have hmem : (⟨0, .closeProxy, .stop⟩ : Sent) ∈ s.sent := by simp [hsplit]
  rw [hsent] at hmem
  revert hmem
  decide

end ProxyManager

end Frp
