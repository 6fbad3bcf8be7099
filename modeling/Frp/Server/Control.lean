/-
The goroutines of a Control of frps, `server/control.go`: Start, writer, reader,
manager and stoper over sendCh and readCh, with any number of GetWorkConn and
RegisterWorkConn calls over the pool of work connections.  Every step is one
channel operation, one latch, one lock or one read or write of the control
connection; a step that would block is not there.
-/
import Mathlib.Logic.Function.Basic
import Frp.Lib.System
import Frp.Lib.Chan
import Frp.Server.ProxyClose

namespace Frp

open Transition GoChan

namespace Server

/-- `make` panics on a negative capacity, so the pool count of a Control is at
least minus ten. -/
structure Config where
  poolCount : Int
  heartbeat : Bool
  fits : 0 ≤ poolCount + 10

/-- A Control without pooled connections. -/
def noPool : Config :=
  ⟨0, true, by decide⟩

/-- The capacity of `workConnCh`. -/
def Config.workConnCap (cfg : Config) : Nat :=
  (cfg.poolCount + 10).toNat

inductive ServerMsg where
  | reqWorkConn
  | newProxyResp
  | pong
deriving DecidableEq, Repr

/-- `valid` is the verdict of the plugins and of `VerifyPing`. -/
inductive ClientMessage where
  | newProxy
  | closeProxy
  | ping (valid : Bool)
  | other
deriving DecidableEq, Repr

/-- What `ReadMsg` returns; only after an error other than EOF does the reader
close the connection.  Neither comes before the connection has failed. -/
inductive ReadResult where
  | message (msg : ClientMessage)
  | eof
  | error
deriving DecidableEq, Repr

/-- `Start`: the LoginResp, then one ReqWorkConn for each pooled connection. -/
inductive StartPc where
  | login
  | pooling (left : Nat)
  | started
  | panicked
deriving DecidableEq, Repr

/-- On return the deferred calls set first the latch of the goroutine
(`leaving`), then `allShutdown.Start` (`starting`). -/
inductive WriterPc where
  | notStarted
  | newWriter
  | recv
  | write (msg : ServerMsg)
  | leaving
  | starting
  | exited
deriving DecidableEq, Repr

inductive ReaderPc where
  | notStarted
  | read
  | push (msg : ClientMessage)
  | leaving
  | starting
  | exited
deriving DecidableEq, Repr

/-- `respond` sends on `sendCh` and then goes on or returns.  `closing` is
`CloseProxy` with the mutex. -/
inductive ManagerPc where
  | notStarted
  | select
  | registerProxy
  | closeProxy
  | closing
  | respond (msg : ServerMsg) (goOn : Bool)
  | leaving
  | starting
  | exited
deriving DecidableEq, Repr

/-- `aborted` has left the range over the proxies by a panic. -/
inductive StoperPc where
  | notStarted
  | waitStart
  | closeConn
  | waitReader
  | closeRead
  | waitManager
  | closeSend
  | waitWriter
  | lock
  | closeWork
  | drain
  | closeProxies
  | exited
  | aborted
  | panicked
deriving DecidableEq, Repr

/-- A call of `GetWorkConn`: the first select, the request, the second select,
and the request for a replacement with the connection in hand. -/
inductive GetPc where
  | idle
  | select
  | request
  | wait
  | refill (conn : Nat)
  | returned (conn : Nat)
  | failed
deriving DecidableEq, Repr

/-- A work connection on its way through `handleConnection`.  `accepted` and
`rejected` are what `RegisterWorkConn` has returned. -/
inductive ConnPc where
  | fresh
  | verifying
  | registering
  | accepted
  | rejected
  | closed
deriving DecidableEq, Repr

/-- The work connections; `drained` are those that the stoper has closed. -/
structure Pool (cap : Nat) where
  workConnCh : Chan Nat cap
  callers : Nat → GetPc
  conns : Nat → ConnPc
  drained : List Nat

structure State (cfg : Config) where
  start : StartPc
  writer : WriterPc
  reader : ReaderPc
  manager : ManagerPc
  stoper : StoperPc
  mu : Bool
  sendCh : Chan ServerMsg 10
  readCh : Chan ClientMessage 10
  connFailed : Bool
  writerDone : Bool
  readerDone : Bool
  managerDone : Bool
  allStarted : Bool
  allDone : Bool
  pool : Pool cfg.workConnCap

/-- `ok` says whether `NewWriter` or `WriteMsg` succeeds, and `close` how the
calls of `Close` end that the step makes. -/
inductive Action where
  | start
  | writer (ok : Bool)
  | reader (input : ReadResult)
  | manager (close : CloseResult)
  | heartbeat
  | stoper (close : CloseResult)
  | replaced
  | connFail
  | call (j : Nat)
  | get (j : Nat)
  | timeout (j : Nat)
  | arrive (k : Nat)
  | verify (k : Nat) (ok : Bool)
  | register (k : Nat)
  | handoff (k j : Nat)
  | handle (k : Nat)

def init (cfg : Config) : State cfg where
  start := .login
  writer := .notStarted
  reader := .notStarted
  manager := .notStarted
  stoper := .notStarted
  mu := false
  sendCh := Chan.make ServerMsg 10
  readCh := Chan.make ClientMessage 10
  connFailed := false
  writerDone := false
  readerDone := false
  managerDone := false
  allStarted := false
  allDone := false
  pool := ⟨Chan.make Nat cfg.workConnCap, fun _ => .idle, fun _ => .fresh, []⟩

variable {cfg : Config}

namespace Pool

variable {cap : Nat}

def setCaller (p : Pool cap) (j : Nat) (pc : GetPc) : Pool cap :=
  { p with callers := Function.update p.callers j pc }

def setConn (p : Pool cap) (k : Nat) (pc : ConnPc) : Pool cap :=
  { p with conns := Function.update p.conns k pc }

/-- The select of `Control.RegisterWorkConn`.  On a closed channel the send
panics and the recovered function returns nil, its result being unnamed. -/
def register (p : Pool cap) (k : Nat) : Pool cap :=
  match p.workConnCh.send k with
  | .done chan => { p with workConnCh := chan }.setConn k .accepted
  | .block => p.setConn k .rejected
  | .panic => p.setConn k .accepted

/-- A receive in `GetWorkConn`; `empty` is where it goes without a connection
on an open channel. -/
def take (p : Pool cap) (j : Nat) (empty : Option GetPc) :
    Option (Pool cap) :=
  match p.workConnCh.recv with
  | .value conn chan =>
      some ({ p with workConnCh := chan }.setCaller j (.refill conn))
  | .closed => some (p.setCaller j .failed)
  | .block => empty.map (p.setCaller j)

/-- A send that finds a receiver waiting hands the connection over. -/
def handoff (p : Pool cap) (k j : Nat) : Pool cap :=
  (p.setConn k .accepted).setCaller j (.refill k)

theorem register_closed (p : Pool cap) (k : Nat) :
    (p.register k).workConnCh.closed = p.workConnCh.closed := by
  cases hsend : p.workConnCh.send k with
  | done chan =>
      obtain ⟨hopen, _, hkept⟩ := Chan.send_eq_done_iff.mp hsend
      simp [register, hsend, setConn, hkept, hopen]
  | block => simp [register, hsend, setConn]
  | panic => simp [register, hsend, setConn]

theorem take_closed {p p' : Pool cap} {j : Nat} {empty : Option GetPc}
    (htake : p.take j empty = some p') :
    p'.workConnCh.closed = p.workConnCh.closed := by
  cases hrecv : p.workConnCh.recv with
  | value conn chan =>
      simp only [take, hrecv, Option.some.injEq] at htake
      subst htake
      exact (Chan.recv_eq_value_iff.mp hrecv).2
  | closed =>
      simp only [take, hrecv, Option.some.injEq] at htake
      subst htake
      rfl
  | block =>
      simp only [take, hrecv, Option.map_eq_some_iff] at htake
      obtain ⟨pc, _, rfl⟩ := htake
      rfl

end Pool

namespace State

def startStep (s : State cfg) : Option (State cfg) :=
  match s.start with
  | .login => some { s with
      start := .pooling cfg.poolCount.toNat
      writer := .newWriter }
  | .pooling (left + 1) =>
      match s.sendCh.send .reqWorkConn with
      | .done chan => some { s with sendCh := chan, start := .pooling left }
      | .block => none
      | .panic => some { s with start := .panicked }
  | .pooling 0 => some { s with
      start := .started
      manager := .select
      reader := .read
      stoper := .waitStart }
  | .started | .panicked => none

def writerStep (s : State cfg) (ok : Bool) : Option (State cfg) :=
  match s.writer with
  | .newWriter =>
      if ok then some { s with writer := .recv }
      else some { s with writer := .leaving, allStarted := true }
  | .recv =>
      match s.sendCh.recv with
      | .value msg chan => some { s with sendCh := chan, writer := .write msg }
      | .closed => some { s with writer := .leaving }
      | .block => none
  | .write _ =>
      if ok then
        if s.connFailed then none else some { s with writer := .recv }
      else some { s with writer := .leaving }
  | .leaving => some { s with writerDone := true, writer := .starting }
  | .starting => some { s with allStarted := true, writer := .exited }
  | .notStarted | .exited => none

def readerStep (s : State cfg) (input : ReadResult) : Option (State cfg) :=
  match s.reader with
  | .read =>
      match input with
      | .message msg =>
          if s.connFailed then none else some { s with reader := .push msg }
      | .eof =>
          if s.connFailed then some { s with reader := .leaving } else none
      | .error =>
          if s.connFailed then
            some { s with reader := .leaving, connFailed := true }
          else none
  | .push msg =>
      match s.readCh.send msg with
      | .done chan => some { s with readCh := chan, reader := .read }
      | .block => none
      | .panic => some { s with reader := .leaving }
  | .leaving => some { s with readerDone := true, reader := .starting }
  | .starting => some { s with allStarted := true, reader := .exited }
  | .notStarted | .exited => none

/-- What the manager does next after it has received a message. -/
def managerNext : ClientMessage → ManagerPc
  | .newProxy => .registerProxy
  | .closeProxy => .closeProxy
  | .ping valid => .respond .pong valid
  | .other => .select

/-- `RegisterProxy` holds the mutex for a moment at a time, and closes the proxy
that it has to give up without it. -/
def managerStep (s : State cfg) (close : CloseResult) : Option (State cfg) :=
  match s.manager with
  | .select =>
      match s.readCh.recv with
      | .value msg chan => some { s with
          readCh := chan
          manager := managerNext msg }
      | .closed => some { s with manager := .leaving }
      | .block => none
  | .registerProxy =>
      if s.mu then none
      else some { s with
        mu := CloseSite.registerProxy.keepsLock close
        manager :=
          if close = .returned then .respond .newProxyResp true
          else .leaving }
  | .closeProxy =>
      if s.mu then none else some { s with mu := true, manager := .closing }
  | .closing => some { s with
      mu := CloseSite.closeProxy.keepsLock close
      manager := if close = .returned then .select else .leaving }
  | .respond msg goOn =>
      match s.sendCh.send msg with
      | .done chan => some { s with
          sendCh := chan
          manager := if goOn then .select else .leaving }
      | .block => none
      | .panic => some { s with manager := .leaving }
  | .leaving => some { s with managerDone := true, manager := .starting }
  | .starting => some { s with allStarted := true, manager := .exited }
  | .notStarted | .exited => none

/-- `stoper` holds the mutex of the Control from `closeWork` on.  The manager, the
only other holder, has ended by then, but may have left it locked. -/
def stoperStep (s : State cfg) (close : CloseResult) : Option (State cfg) :=
  match s.stoper with
  | .waitStart =>
      if s.allStarted then some { s with stoper := .closeConn } else none
  | .closeConn => some { s with connFailed := true, stoper := .waitReader }
  | .waitReader =>
      if s.readerDone then some { s with stoper := .closeRead } else none
  | .closeRead =>
      match s.readCh.close with
      | .done chan => some { s with readCh := chan, stoper := .waitManager }
      | .block => none
      | .panic => some { s with stoper := .panicked }
  | .waitManager =>
      if s.managerDone then some { s with stoper := .closeSend } else none
  | .closeSend =>
      match s.sendCh.close with
      | .done chan => some { s with sendCh := chan, stoper := .waitWriter }
      | .block => none
      | .panic => some { s with stoper := .panicked }
  | .waitWriter =>
      if s.writerDone then some { s with stoper := .lock } else none
  | .lock =>
      if s.mu then none else some { s with mu := true, stoper := .closeWork }
  | .closeWork =>
      match s.pool.workConnCh.close with
      | .done chan => some { s with
          pool := { s.pool with workConnCh := chan }
          stoper := .drain }
      | .block => none
      | .panic => some { s with stoper := .panicked }
  | .drain =>
      match s.pool.workConnCh.recv with
      | .value conn chan => some { s with
          pool := { s.pool with
            workConnCh := chan
            drained := s.pool.drained ++ [conn] } }
      | .closed => some { s with stoper := .closeProxies }
      | .block => none
  | .closeProxies =>
      let unlocked := { s with mu := CloseSite.stoper.keepsLock close }
      if close = .returned then
        some { unlocked with allDone := true, stoper := .exited }
      else some { unlocked with stoper := .aborted }
  | .notStarted | .exited | .aborted | .panicked => none

/-- The sends of `GetWorkConn` are wrapped in `PanicToError`; only the first
one looks at the error. -/
def getStep (s : State cfg) (j : Nat) : Option (State cfg) :=
  match s.pool.callers j with
  | .select =>
      (s.pool.take j (some .request)).map fun pool => { s with pool := pool }
  | .request =>
      match s.sendCh.send .reqWorkConn with
      | .done chan => some { s with
          sendCh := chan
          pool := s.pool.setCaller j .wait }
      | .block => none
      | .panic => some { s with pool := s.pool.setCaller j .failed }
  | .wait => (s.pool.take j none).map fun pool => { s with pool := pool }
  | .refill conn =>
      match s.sendCh.send .reqWorkConn with
      | .done chan => some { s with
          sendCh := chan
          pool := s.pool.setCaller j (.returned conn) }
      | .block => none
      | .panic => some { s with
          pool := s.pool.setCaller j (.returned conn) }
  | .idle | .returned _ | .failed => none

end State

def step (s : State cfg) : Action → Option (State cfg)
  | .start => s.startStep
  | .writer ok => s.writerStep ok
  | .reader input => s.readerStep input
  | .manager close => s.managerStep close
  | .heartbeat =>
      if cfg.heartbeat ∧ s.manager = .select then
        some { s with manager := .leaving }
      else none
  | .stoper close => s.stoperStep close
  | .replaced => some { s with allStarted := true }
  | .connFail => some { s with connFailed := true }
  | .call j =>
      if s.pool.callers j = .idle then
        some { s with pool := s.pool.setCaller j .select }
      else none
  | .get j => s.getStep j
  | .timeout j =>
      if s.pool.callers j = .wait then
        some { s with pool := s.pool.setCaller j .failed }
      else none
  | .arrive k =>
      if s.pool.conns k = .fresh then
        some { s with pool := s.pool.setConn k .verifying }
      else none
  | .verify k ok =>
      if s.pool.conns k = .verifying then
        some { s with pool :=
          s.pool.setConn k (if ok then .registering else .rejected) }
      else none
  | .register k =>
      if s.pool.conns k = .registering then
        some { s with pool := s.pool.register k }
      else none
  | .handoff k j =>
      if s.pool.conns k = .registering ∧ s.pool.callers j = .wait ∧
          s.pool.workConnCh.buf = [] ∧ s.pool.workConnCh.closed = false then
        some { s with pool := s.pool.handoff k j }
      else none
  | .handle k =>
      if s.pool.conns k = .rejected then
        some { s with pool := s.pool.setConn k .closed }
      else none

def system (cfg : Config) : System (State cfg) Action where
  start := init cfg
  step := step

/-- `stoper` has closed `readCh`. -/
def StoperPc.closedRead : StoperPc → Bool
  | .waitManager | .closeSend | .waitWriter | .lock | .closeWork | .drain
  | .closeProxies | .exited | .aborted => true
  | .notStarted | .waitStart | .closeConn | .waitReader | .closeRead
  | .panicked => false

/-- `stoper` has closed `sendCh`. -/
def StoperPc.closedSend : StoperPc → Bool
  | .waitWriter | .lock | .closeWork | .drain | .closeProxies | .exited
  | .aborted => true
  | .notStarted | .waitStart | .closeConn | .waitReader | .closeRead
  | .waitManager | .closeSend | .panicked => false

/-- `stoper` has closed `workConnCh`. -/
def StoperPc.closedWork : StoperPc → Bool
  | .drain | .closeProxies | .exited | .aborted => true
  | .notStarted | .waitStart | .closeConn | .waitReader | .closeRead
  | .waitManager | .closeSend | .waitWriter | .lock | .closeWork
  | .panicked => false

/-- `stoper` has waited for the reader. -/
def StoperPc.pastReader : StoperPc → Bool
  | .closeRead | .waitManager | .closeSend | .waitWriter | .lock | .closeWork
  | .drain | .closeProxies | .exited | .aborted => true
  | .notStarted | .waitStart | .closeConn | .waitReader | .panicked => false

/-- `stoper` has waited for the manager. -/
def StoperPc.pastManager : StoperPc → Bool
  | .closeSend | .waitWriter | .lock | .closeWork | .drain | .closeProxies
  | .exited | .aborted => true
  | .notStarted | .waitStart | .closeConn | .waitReader | .closeRead
  | .waitManager | .panicked => false

/-- `stoper` has waited for the writer. -/
def StoperPc.pastWriter : StoperPc → Bool
  | .lock | .closeWork | .drain | .closeProxies | .exited | .aborted => true
  | .notStarted | .waitStart | .closeConn | .waitReader | .closeRead
  | .waitManager | .closeSend | .waitWriter | .panicked => false

/-- `stoper` has had the mutex. -/
def StoperPc.pastLock : StoperPc → Bool
  | .closeWork | .drain | .closeProxies | .exited | .aborted => true
  | .notStarted | .waitStart | .closeConn | .waitReader | .closeRead
  | .waitManager | .closeSend | .waitWriter | .lock | .panicked => false

/-- `stoper` has drained `workConnCh`. -/
def StoperPc.drained : StoperPc → Bool
  | .closeProxies | .exited | .aborted => true
  | .notStarted | .waitStart | .closeConn | .waitReader | .closeRead
  | .waitManager | .closeSend | .waitWriter | .lock | .closeWork | .drain
  | .panicked => false

/-- The latch of the writer is set. -/
def WriterPc.done : WriterPc → Bool
  | .starting | .exited => true
  | .notStarted | .newWriter | .recv | .write _ | .leaving => false

def ReaderPc.done : ReaderPc → Bool
  | .starting | .exited => true
  | .notStarted | .read | .push _ | .leaving => false

def ManagerPc.done : ManagerPc → Bool
  | .starting | .exited => true
  | .notStarted | .select | .registerProxy | .closeProxy | .closing
  | .respond _ _ | .leaving => false

/-- The manager has the mutex in none of these places. -/
def ManagerPc.unlocked : ManagerPc → Bool
  | .notStarted | .select | .registerProxy | .closeProxy
  | .respond _ _ => true
  | .closing | .leaving | .starting | .exited => false

/-- The manager is on its way out. -/
def ManagerPc.returned : ManagerPc → Bool
  | .leaving | .starting | .exited => true
  | .notStarted | .select | .registerProxy | .closeProxy | .closing
  | .respond _ _ => false

end Server

end Frp
