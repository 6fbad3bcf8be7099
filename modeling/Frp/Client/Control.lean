/-
The goroutines of a Control of frpc, `client/control.go`: reader, writer,
msgHandler and worker over sendCh and readCh, with any number of calls of the
proxy Manager and of the Wrappers beside them.
-/
import Frp.Lib.System
import Frp.Client.Calls

namespace Frp

open Transition GoChan

namespace Client

/-- The heartbeat part of the client configuration, in seconds. -/
structure Config where
  heartbeatInterval : Int
  heartbeatTimeout : Int
  tcpMux : Bool
deriving DecidableEq, Repr

def Config.SendsHeartbeat (cfg : Config) : Prop :=
  0 < cfg.heartbeatInterval

def Config.ChecksHeartbeat (cfg : Config) : Prop :=
  0 < cfg.heartbeatInterval ∧ 0 < cfg.heartbeatTimeout ∧ cfg.tcpMux = false

instance (cfg : Config) : Decidable cfg.SendsHeartbeat :=
  inferInstanceAs (Decidable (_ < _))

instance (cfg : Config) : Decidable cfg.ChecksHeartbeat :=
  inferInstanceAs (Decidable (_ ∧ _ ∧ _))

inductive ServerMessage where
  | reqWorkConn
  | newProxyResp (name : String) (resp : NewProxyResp)
  | pong (error : String)
  | other
deriving DecidableEq, Repr

/-- What `ReadMsg` returns; only after an error other than EOF does the reader
close the connection.  Neither comes before the connection has failed. -/
inductive ReadResult where
  | message (msg : ServerMessage)
  | eof
  | error
deriving DecidableEq, Repr

/-- On return the reader closes `closedCh` (`closing`) and then sets its latch
(`leaving`). -/
inductive ReaderPc where
  | read
  | push (msg : ServerMessage)
  | closing
  | leaving
  | exited
deriving DecidableEq, Repr

inductive WriterPc where
  | newWriter
  | recv
  | write (msg : ControlMsg)
  | leaving
  | exited
deriving DecidableEq, Repr

/-- `lookup` and `setRunning` are the two halves of `StartProxy`: under the
mutex of the Manager and under that of the Wrapper.  In `waiting` the handler is
in the queue of `sendCh`. -/
inductive HandlerPc where
  | select
  | lookup (name : String) (resp : NewProxyResp)
  | setRunning (i : Nat) (resp : NewProxyResp)
  | waiting
  | leaving
  | exited
deriving DecidableEq, Repr

inductive WorkerPc where
  | waitClosed
  | closeRead
  | waitReader
  | waitHandler
  | closeSend
  | waitWriter
  | closeProxies
  | closeVisitors
  | closeDone
  | exited
  | panicked
deriving DecidableEq, Repr

structure State where
  reader : ReaderPc
  writer : WriterPc
  handler : HandlerPc
  worker : WorkerPc
  calls : Calls
  readCh : Chan ServerMessage 100
  connFailed : Bool
  closedCh : Bool
  readerDone : Bool
  writerDone : Bool
  handlerDone : Bool
  closedDoneCh : Bool
  clock : Nat
  lastPong : Nat

/-- `ok` says whether `NewWriter`, `WriteMsg` or `SetPing` succeeds, and
`runErr` is the error of `Run` of the proxy that an answer starts. -/
inductive Action where
  | reader (input : ReadResult)
  | writer (ok : Bool)
  | handler (runErr : Option String)
  | tick (ok : Bool)
  | timeout
  | worker
  | connFail
  | elapse (seconds : Nat)
  | health (i : Nat) (healthy : Bool)
  | check (i : Nat)
  | reload (cfgs : ConfMap NameConf) (order : List (String × Nat))
  | gracefulClose (order : List (String × Nat))

def init : State where
  reader := .read
  writer := .newWriter
  handler := .select
  worker := .waitClosed
  calls := Calls.init
  readCh := Chan.make ServerMessage 100
  connFailed := false
  closedCh := false
  readerDone := false
  writerDone := false
  handlerDone := false
  closedDoneCh := false
  clock := 0
  lastPong := 0

namespace State

def readerStep (s : State) (input : ReadResult) : Option State :=
  match s.reader with
  | .read =>
      match input with
      | .message msg =>
          if s.connFailed then none else some { s with reader := .push msg }
      | .eof =>
          if s.connFailed then some { s with reader := .closing } else none
      | .error =>
          if s.connFailed then
            some { s with reader := .closing, connFailed := true }
          else none
  | .push msg =>
      match s.readCh.send msg with
      | .done chan => some { s with readCh := chan, reader := .read }
      | .block => none
      | .panic => some { s with reader := .closing }
  | .closing => some { s with closedCh := true, reader := .leaving }
  | .leaving => some { s with readerDone := true, reader := .exited }
  | .exited => none

/-- A failed write ends the writer without closing the connection. -/
def writerStep (s : State) (ok : Bool) : Option State :=
  match s.writer with
  | .newWriter =>
      if ok then some { s with writer := .recv }
      else some { s with writer := .leaving, connFailed := true }
  | .recv =>
      match s.calls.sendCh.recv with
      | .value msg chan => some { s with
          calls := s.calls.serve chan
          handler := if s.calls.servesHandler then .select else s.handler
          writer := .write msg }
      | .closed => some { s with writer := .leaving }
      | .block => none
  | .write _ =>
      if ok then
        if s.connFailed then none else some { s with writer := .recv }
      else some { s with writer := .leaving }
  | .leaving => some { s with writerDone := true, writer := .exited }
  | .exited => none

/-- A ReqWorkConn is handled by a goroutine of its own. -/
def handle (s : State) : ServerMessage → State
  | .reqWorkConn | .other => s
  | .newProxyResp name resp => { s with handler := .lookup name resp }
  | .pong error =>
      if error = "" then { s with lastPong := s.clock }
      else { s with handler := .leaving, connFailed := true }

def handlerStep (s : State) (runErr : Option String) : Option State :=
  match s.handler with
  | .select =>
      match s.readCh.recv with
      | .value msg chan => some ({ s with readCh := chan }.handle msg)
      | .closed => some { s with handler := .leaving }
      | .block => none
  | .lookup name resp =>
      if s.calls.Busy then none
      else some { s with
        handler := match s.calls.proxies.lookup name with
          | none => .select
          | some i => .setRunning i resp }
  | .setRunning i resp =>
      if s.calls.Locked i then none
      else
        let result := s.calls.setRunningStatus s.clock i resp.remoteAddr
          resp.error runErr
        some { s with
          calls := result.1
          handler := if result.2 then .select else .waiting }
  | .leaving => some { s with handlerDone := true, handler := .exited }
  | .waiting | .exited => none

/-- The heartbeat is not sent under `PanicToError`: on a closed channel the
handler would end. -/
def tickStep (s : State) (ok : Bool) : State :=
  if ok then
    if s.calls.sendCh.closed then { s with handler := .leaving }
    else
      let offered := s.calls.offer .ping .ping
      { s with
        calls := offered.1
        handler := if offered.2 then .select else .waiting }
  else { s with handler := .leaving }

/-- When the worker closes the Manager, `sendCh` is closed, and no Stop waits
in whatever order the proxies come. -/
def workerStep (s : State) : Option State :=
  match s.worker with
  | .waitClosed =>
      if s.closedCh then some { s with worker := .closeRead } else none
  | .closeRead =>
      match s.readCh.close with
      | .done chan => some { s with readCh := chan, worker := .waitReader }
      | .block => none
      | .panic => some { s with worker := .panicked }
  | .waitReader =>
      if s.readerDone then some { s with worker := .waitHandler } else none
  | .waitHandler =>
      if s.handlerDone then some { s with worker := .closeSend } else none
  | .closeSend =>
      match s.calls.closeSendCh with
      | .done calls => some { s with calls := calls, worker := .waitWriter }
      | .block => none
      | .panic => some { s with worker := .panicked }
  | .waitWriter =>
      if s.writerDone then some { s with worker := .closeProxies } else none
  | .closeProxies =>
      (s.calls.close s.calls.proxies).map fun calls =>
        { s with calls := calls, worker := .closeVisitors }
  | .closeVisitors => some { s with worker := .closeDone }
  | .closeDone => some { s with closedDoneCh := true, worker := .exited }
  | .exited | .panicked => none

/-- Only a Wrapper with a health check has a monitor that calls back. -/
def healthStep (s : State) (i : Nat) (healthy : Bool) : Option State :=
  match s.calls.wrappers i with
  | none => none
  | some (name, pw) =>
      if pw.monitor then some { s with
        calls := s.calls.setWrapper i name
          (if healthy then pw.statusNormalCallback
            else pw.statusFailedCallback) }
      else none

def setCalls (s : State) (calls : Calls) : State :=
  { s with calls := calls }

end State

def step (cfg : Config) (s : State) : Action → Option State
  | .reader input => s.readerStep input
  | .writer ok => s.writerStep ok
  | .handler runErr => s.handlerStep runErr
  | .tick ok =>
      if s.handler = .select ∧ cfg.SendsHeartbeat then some (s.tickStep ok)
      else none
  | .timeout =>
      if s.handler = .select ∧ cfg.ChecksHeartbeat ∧
          s.lastPong + cfg.heartbeatTimeout < s.clock then
        some { s with handler := .leaving, connFailed := true }
      else none
  | .worker => s.workerStep
  | .connFail => some { s with connFailed := true }
  | .elapse seconds => some { s with clock := s.clock + seconds }
  | .health i healthy => s.healthStep i healthy
  | .check i => (s.calls.check s.clock i).map s.setCalls
  | .reload cfgs order => (s.calls.reload cfgs order).map s.setCalls
  | .gracefulClose order => (s.calls.close order).map s.setCalls

def system (cfg : Config) : System State Action where
  start := init
  step := step cfg

/-- `worker` has seen `closedCh` closed. -/
def WorkerPc.pastClosed : WorkerPc → Bool
  | .closeRead | .waitReader | .waitHandler | .closeSend | .waitWriter
  | .closeProxies | .closeVisitors | .closeDone | .exited => true
  | .waitClosed | .panicked => false

/-- `worker` has closed `readCh`. -/
def WorkerPc.closedRead : WorkerPc → Bool
  | .waitReader | .waitHandler | .closeSend | .waitWriter | .closeProxies
  | .closeVisitors | .closeDone | .exited => true
  | .waitClosed | .closeRead | .panicked => false

/-- `worker` has waited for the handler. -/
def WorkerPc.pastHandler : WorkerPc → Bool
  | .closeSend | .waitWriter | .closeProxies | .closeVisitors | .closeDone
  | .exited => true
  | .waitClosed | .closeRead | .waitReader | .waitHandler | .panicked => false

/-- `worker` has closed `sendCh`. -/
def WorkerPc.closedSend : WorkerPc → Bool
  | .waitWriter | .closeProxies | .closeVisitors | .closeDone
  | .exited => true
  | .waitClosed | .closeRead | .waitReader | .waitHandler | .closeSend
  | .panicked => false

/-- `closedCh` is closed. -/
def ReaderPc.closed : ReaderPc → Bool
  | .leaving | .exited => true
  | .read | .push _ | .closing => false

end Client

end Frp
