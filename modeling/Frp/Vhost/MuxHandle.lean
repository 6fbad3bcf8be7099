/-
How a connection goes through the muxer of `pkg/util/vhost/vhost.go`: a goroutine
`handle` for each takes it to the `Accept` of the listener of its route or closes
it, while listeners come and go.
-/
import Frp.Lib.System
import Frp.Vhost.Lookup

namespace Frp

open GoStrings Transition

/-- The routes with something else stored in them. -/
def Router.map {P Q : Type} (f : P → Q) (vr : Router P) : Router Q :=
  ⟨vr.domain, vr.location, vr.httpUser, f vr.payload⟩

namespace Routers

variable {P Q : Type}

def map (f : P → Q) (r : Routers P) : Routers Q :=
  ⟨fun domain => (r.indexByDomain domain).map fun routersByHTTPUser httpUser =>
    (routersByHTTPUser httpUser).map (List.map (Router.map f))⟩

theorem get_map (f : P → Q) (r : Routers P) (host path httpUser : Bytes) :
    (r.map f).get host path httpUser =
      (r.get host path httpUser).map (Router.map f) := by
  simp only [get, map]
  cases r.indexByDomain host with
  | none => rfl
  | some routersByHTTPUser =>
      simp only [Option.map_some]
      cases routersByHTTPUser httpUser with
      | none => rfl
      | some vrs =>
          simp only [Option.map_some, List.find?_map]
          rfl

theorem lookup_map (f : P → Q) (r : Routers P) (host path httpUser : Bytes) :
    (r.map f).lookup host path httpUser =
      (r.lookup host path httpUser).map (Router.map f) := by
  rw [lookup, lookup, List.map_findSome?]
  congr 1
  funext scope
  exact get_map f r _ _ _

end Routers

namespace MuxHandle

/-- What a muxer is made with: how strings come to lower case, and which of its
functions are not nil. -/
structure MuxConf where
  toLower : Bytes → Bytes
  successFunc : Bool
  authFunc : Bool
  rewriteFunc : Bool

/-- The entries of `reqInfoMap` that `handle` reads. -/
structure ReqInfo where
  host : Bytes
  path : Bytes
  httpUser : Bytes
deriving DecidableEq, Repr

/-- Where `handle` gives up. -/
inductive Failure where
  | deadline
  | vhostFunc
  | notFound
  | successFunc
  | auth
  | clearDeadline
  | listenerClosed
deriving DecidableEq, Repr

/-- The connection has been received by a call of `Accept`, or not. -/
inductive Ending where
  | handedOver (call : Nat)
  | failed (failure : Failure)
deriving DecidableEq, Repr

/-- What a `handle` is about to do: in `getListener` with the path and the lists of
the table that it has not looked into yet, afterwards with the listener found. -/
inductive Handle where
  | idle
  | deadline
  | parsing
  | routing (path : Bytes) (scopes : List (Bytes × Bytes))
  | succeeding (l : Nat)
  | authorizing (l : Nat)
  | clearing (l : Nat)
  | sending (l : Nat)
  | ended (ending : Ending)
deriving DecidableEq, Repr

/-- How far a call of `Accept` is, with the connection that it has received. -/
inductive AcceptPhase where
  | idle
  | receiving
  | rewriting (conn : Nat)
  | returned (conn : Nat)
  | rewriteFailed (conn : Nat)
  | listenerClosed
deriving DecidableEq, Repr

structure AcceptCall where
  listener : Nat
  phase : AcceptPhase
deriving DecidableEq, Repr

/-- A listener with the calls of `Close` that have taken its route out of the
table and not come to `close(l.accept)` yet. -/
structure Listener where
  info : MuxListener
  closing : Nat
  acceptClosed : Bool
deriving DecidableEq, Repr

/-- Listeners, connections and calls of `Accept` are numbered as they come; the
table stores listeners by number.  `closed` are the connections that `handle` has
closed, `routed` what `getListener` has found for them. -/
structure State where
  registryRouter : Routers Nat
  listeners : Nat → Listener
  made : Nat
  running : Bool
  handlers : Nat → Handle
  accepted : Nat
  calls : Nat → AcceptCall
  called : Nat
  closed : Nat → Bool
  routed : Nat → Option Nat

/-- Each step of a `handle`, an `Accept` or a `Close`, with the answer of the
connection or of the function that it calls.  Of `getListener` every `Get` is a
step, since the table may change between two of them. -/
inductive Action where
  | connect
  | acceptFails
  | setDeadline (conn : Nat) (ok : Bool)
  | vhostFunc (conn : Nat) (reqInfo : Option ReqInfo)
  | get (conn : Nat)
  | successFunc (conn : Nat) (ok : Bool)
  | authFunc (conn : Nat) (bAccess ok : Bool)
  | clearDeadline (conn : Nat) (ok : Bool)
  | send (conn call : Nat)
  | listen (cfg : RouteConfig RealConn)
  | accept (l : Nat)
  | acceptClosed (call : Nat)
  | rewriteFunc (call : Nat) (ok : Bool)
  | close (l : Nat)
  | closeAccept (l : Nat)

def newListener (cfg : RouteConfig RealConn) : Listener where
  info := ⟨cfg.domain, cfg.location, cfg.routeByHTTPUser, cfg.rewriteHost,
    cfg.username, cfg.password⟩
  closing := 0
  acceptClosed := false

def newMuxer : State where
  registryRouter := .newRouters Nat
  listeners _ := ⟨⟨[], [], [], [], [], []⟩, 0, false⟩
  made := 0
  running := true
  handlers _ := .idle
  accepted := 0
  calls _ := ⟨0, .idle⟩
  called := 0
  closed _ := false
  routed _ := none

namespace State

def setListener (s : State) (l : Nat) (listener : Listener) : State :=
  { s with listeners := Function.update s.listeners l listener }

def setHandler (s : State) (conn : Nat) (handle : Handle) : State :=
  { s with handlers := Function.update s.handlers conn handle }

def setCall (s : State) (call : Nat) (acceptCall : AcceptCall) : State :=
  { s with calls := Function.update s.calls call acceptCall }

/-- `handle` closes the connection and returns. -/
def fail (s : State) (conn : Nat) (failure : Failure) : State :=
  { s.setHandler conn (.ended (.failed failure)) with
    closed := Function.update s.closed conn true }

/-- The checks that the muxer and the listener ask for. -/
def afterSuccess (conf : MuxConf) (s : State) (l : Nat) : Handle :=
  if conf.authFunc ∧ (s.listeners l).info.userName ≠ [] ∧
      (s.listeners l).info.passWord ≠ [] then .authorizing l
  else .clearing l

def afterFound (conf : MuxConf) (s : State) (l : Nat) : Handle :=
  if conf.successFunc then .succeeding l else s.afterSuccess conf l

/-- `getListener` returns the listener. -/
def found (conf : MuxConf) (s : State) (conn l : Nat) : State :=
  { s.setHandler conn (s.afterFound conf l) with
    routed := Function.update s.routed conn (some l) }

end State

/-- How `Accept` goes on with a connection that it has received. -/
def received (conf : MuxConf) (conn : Nat) : AcceptPhase :=
  if conf.rewriteFunc then .rewriting conn else .returned conn

/-- A send on a closed channel panics, whoever receives, and the panic is only
logged.  A second `close(l.accept)` panics too; nothing recovers that one, so
nothing comes after it. -/
def step (conf : MuxConf) (s : State) : Action → Option State
  | .connect =>
      if s.running then
        some { s.setHandler s.accepted .deadline with
          accepted := s.accepted + 1 }
      else none
  | .acceptFails =>
      if s.running then some { s with running := false } else none
  | .setDeadline conn ok =>
      match s.handlers conn with
      | .deadline =>
          if ok then some (s.setHandler conn .parsing)
          else some (s.fail conn .deadline)
      | _ => none
  | .vhostFunc conn reqInfo =>
      match s.handlers conn with
      | .parsing =>
          match reqInfo with
          | some reqInfo =>
              some (s.setHandler conn (.routing (conf.toLower reqInfo.path)
                (lookupScopes (conf.toLower reqInfo.host) reqInfo.httpUser)))
          | none => some (s.fail conn .vhostFunc)
      | _ => none
  | .get conn =>
      match s.handlers conn with
      | .routing _ [] => some (s.fail conn .notFound)
      | .routing path (scope :: rest) =>
          match s.registryRouter.get scope.1 path scope.2 with
          | some vr => some (s.found conf conn vr.payload)
          | none => some (s.setHandler conn (.routing path rest))
      | _ => none
  | .successFunc conn ok =>
      match s.handlers conn with
      | .succeeding l =>
          if ok then some (s.setHandler conn (s.afterSuccess conf l))
          else some (s.fail conn .successFunc)
      | _ => none
  | .authFunc conn bAccess ok =>
      match s.handlers conn with
      | .authorizing l =>
          if bAccess = false ∨ ok = false then some (s.fail conn .auth)
          else some (s.setHandler conn (.clearing l))
      | _ => none
  | .clearDeadline conn ok =>
      match s.handlers conn with
      | .clearing l =>
          if ok then some (s.setHandler conn (.sending l))
          else some (s.fail conn .clearDeadline)
      | _ => none
  | .send conn call =>
      match s.handlers conn with
      | .sending l =>
          if (s.listeners l).acceptClosed then
            some (s.setHandler conn (.ended (.failed .listenerClosed)))
          else if s.calls call = ⟨l, .receiving⟩ then
            some ((s.setHandler conn (.ended (.handedOver call))).setCall call
              ⟨l, received conf conn⟩)
          else none
      | _ => none
  | .listen cfg =>
      match s.registryRouter.add cfg.domain cfg.location cfg.routeByHTTPUser
          s.made with
      | .error _ => some s
      | .ok registryRouter =>
          some { s.setListener s.made (newListener cfg) with
            registryRouter := registryRouter
            made := s.made + 1 }
  | .accept l =>
      if l < s.made then
        some { s.setCall s.called ⟨l, .receiving⟩ with called := s.called + 1 }
      else none
  | .acceptClosed call =>
      if (s.calls call).phase = .receiving ∧
          (s.listeners (s.calls call).listener).acceptClosed then
        some (s.setCall call ⟨(s.calls call).listener, .listenerClosed⟩)
      else none
  | .rewriteFunc call ok =>
      match (s.calls call).phase with
      | .rewriting conn =>
          some (s.setCall call ⟨(s.calls call).listener,
            if ok then .returned conn else .rewriteFailed conn⟩)
      | _ => none
  | .close l =>
      if l < s.made then
        some { s.setListener l { s.listeners l with
            closing := (s.listeners l).closing + 1 } with
          registryRouter := s.registryRouter.del (s.listeners l).info.name
            (s.listeners l).info.location
            (s.listeners l).info.routeByHTTPUser }
      else none
  | .closeAccept l =>
      if (s.listeners l).closing ≠ 0 ∧ ¬ (s.listeners l).acceptClosed then
        some (s.setListener l { s.listeners l with
          closing := (s.listeners l).closing - 1
          acceptClosed := true })
      else none

def system (conf : MuxConf) : System State Action where
  start := newMuxer
  step := step conf

/-- `getListener` finds the listener that has the number. -/
theorem getListener_map (s : State) (name path httpUser : Bytes) :
    Muxer.getListener (s.registryRouter.map fun l => (s.listeners l).info)
        name path httpUser =
      (s.registryRouter.lookup name path httpUser).map fun vr =>
        (s.listeners vr.payload).info := by
  rw [Muxer.getListener_eq_lookup, Routers.lookup_map, Option.map_map]
  rfl

@[simp] theorem setHandler_setHandler (s : State) (conn : Nat)
    (handle handle' : Handle) :
    (s.setHandler conn handle).setHandler conn handle' =
      s.setHandler conn handle' := by
  simp [State.setHandler]

@[simp] theorem fail_setHandler (s : State) (conn : Nat) (handle : Handle)
    (failure : Failure) :
    (s.setHandler conn handle).fail conn failure = s.fail conn failure := by
  rw [State.fail, State.fail, setHandler_setHandler]
  rfl

@[simp] theorem found_setHandler (conf : MuxConf) (s : State) (conn l : Nat)
    (handle : Handle) :
    (s.setHandler conn handle).found conf conn l = s.found conf conn l := by
  rw [State.found, State.found, setHandler_setHandler]
  rfl

/-- A `handle` that nothing interrupts in `getListener` comes to the listener that
the table has for the connection. -/
theorem exec_get (conf : MuxConf) {s : State} {conn : Nat} {path : Bytes}
    {scopes : List (Bytes × Bytes)}
    (hrouting : s.handlers conn = .routing path scopes) :
    ∃ n, (system conf).exec s (List.replicate n (.get conn)) =
      match scopes.findSome? fun scope =>
          s.registryRouter.get scope.1 path scope.2 with
      | some vr => some (s.found conf conn vr.payload)
      | none => some (s.fail conn .notFound) := by
  induction scopes generalizing s with
  | nil =>
      refine ⟨1, ?_⟩
      simp [System.exec, System.replay, system, step, hrouting]
  | cons scope rest ih =>
      cases hget : s.registryRouter.get scope.1 path scope.2 with
      | some vr =>
          refine ⟨1, ?_⟩
          simp [System.exec, System.replay, system, step, hrouting, hget]
      | none =>
          have hnext : (s.setHandler conn (.routing path rest)).handlers conn =
              .routing path rest := by
            simp [State.setHandler]
          obtain ⟨n, hexec⟩ := ih hnext
          refine ⟨n + 1, ?_⟩
          have htable : (s.setHandler conn
              (.routing path rest)).registryRouter = s.registryRouter := rfl
          simp only [fail_setHandler, found_setHandler, htable] at hexec
          rw [List.findSome?_cons, hget, ← hexec, List.replicate_succ]
          simp [System.exec, System.replay, system, step, hrouting, hget]

end MuxHandle

end Frp
