/-
The client-side proxy state machine of `client/proxy/proxy_wrapper.go`.  Each
function is the body of a section under the Wrapper mutex: it returns the new
Wrapper and the event handed to the Manager, which becomes a control message.
-/
import Mathlib.Logic.Basic

namespace Frp

inductive Phase where
  | new
  | waitStart
  | startErr
  | running
  | checkFailed
  | closed
deriving DecidableEq, Repr

def Phase.text : Phase → String
  | .new => "new"
  | .waitStart => "wait start"
  | .startErr => "start error"
  | .running => "running"
  | .checkFailed => "check failed"
  | .closed => "closed"

/-- `EvStartProxy` sends NewProxy, `EvCloseProxy` sends CloseProxy. -/
inductive ProxyEvent where
  | startProxy
  | closeProxy
deriving DecidableEq, Repr

/-- `waitResponseTimeout`, in seconds. -/
def waitResponseTimeout : Nat := 20

/-- `startErrTimeout`, in seconds. -/
def startErrTimeout : Nat := 30

structure Wrapper where
  phase : Phase
  err : String
  remoteAddr : String
  /-- whether a health check monitor was created -/
  monitor : Bool
  /-- zero when healthy, one when the health check failed -/
  health : Nat
  lastSendStartMsg : Nat
  lastStartErr : Nat
deriving DecidableEq, Repr

namespace Wrapper

/-- With a health check configured the Wrapper starts as failed. -/
def newWrapper (healthCheck : Bool) : Wrapper where
  phase := .new
  err := ""
  remoteAddr := ""
  monitor := healthCheck
  health := if healthCheck then 1 else 0
  lastSendStartMsg := 0
  lastStartErr := 0

/-- The phases in which `checkWorker` sends NewProxy at time `now`. -/
def MayStart (pw : Wrapper) (now : Nat) : Prop :=
  pw.phase = .new ∨ pw.phase = .checkFailed ∨
    (pw.phase = .waitStart ∧
      pw.lastSendStartMsg + waitResponseTimeout < now) ∨
    (pw.phase = .startErr ∧ pw.lastStartErr + startErrTimeout < now)

instance (pw : Wrapper) (now : Nat) : Decidable (pw.MayStart now) :=
  inferInstanceAs (Decidable (_ ∨ _ ∨ _ ∨ _))

/-- One pass of the loop of `checkWorker`. -/
def checkWorker (pw : Wrapper) (now : Nat) : Wrapper × Option ProxyEvent :=
  if pw.health = 0 then
    if pw.MayStart now then
      ({ pw with phase := .waitStart, lastSendStartMsg := now },
        some .startProxy)
    else (pw, none)
  else if pw.phase = .running ∨ pw.phase = .waitStart then
    ({ pw with phase := .checkFailed }, some .closeProxy)
  else (pw, none)

/-- The outcome of `SetRunningStatus`: the Wrapper, the event it handed out and
the error it returned. -/
structure RunningStatus where
  pw : Wrapper
  event : Option ProxyEvent
  err : Option String
deriving DecidableEq, Repr

/-- `runErr` is the error of the `Run` of the underlying proxy, if any. -/
def setRunningStatus (pw : Wrapper) (now : Nat) (remoteAddr respErr : String)
    (runErr : Option String) : RunningStatus :=
  if pw.phase ≠ .waitStart then
    ⟨pw, none, some "status not wait start, ignore start message"⟩
  else if respErr ≠ "" then
    ⟨{ pw with
        remoteAddr := remoteAddr
        phase := .startErr
        err := respErr
        lastStartErr := now }, none, some respErr⟩
  else
    match runErr with
    | some text =>
        ⟨{ pw with
            remoteAddr := remoteAddr
            phase := .startErr
            err := text
            lastStartErr := now }, some .closeProxy, some text⟩
    | none =>
        ⟨{ pw with
            remoteAddr := remoteAddr
            phase := .running
            err := "" }, none, none⟩

/-- `Stop` closes the proxy on the server whatever the phase was. -/
def stop (pw : Wrapper) : Wrapper × ProxyEvent :=
  ({ pw with phase := .closed }, .closeProxy)

def statusNormalCallback (pw : Wrapper) : Wrapper := { pw with health := 0 }

def statusFailedCallback (pw : Wrapper) : Wrapper := { pw with health := 1 }

@[simp] theorem newWrapper_phase (healthCheck : Bool) :
    (newWrapper healthCheck).phase = .new := rfl

@[simp] theorem statusNormalCallback_phase (pw : Wrapper) :
    pw.statusNormalCallback.phase = pw.phase := rfl

@[simp] theorem statusFailedCallback_phase (pw : Wrapper) :
    pw.statusFailedCallback.phase = pw.phase := rfl

/-- All that one pass of `checkWorker` can do. -/
theorem checkWorker_cases (pw : Wrapper) (now : Nat) :
    (∃ next, pw.checkWorker now = (next, some .startProxy) ∧
      next.phase = .waitStart ∧ pw.phase ≠ .running ∧ pw.phase ≠ .closed) ∨
    (∃ next, pw.checkWorker now = (next, some .closeProxy) ∧
      next.phase = .checkFailed ∧
      (pw.phase = .running ∨ pw.phase = .waitStart)) ∨
    pw.checkWorker now = (pw, none) := by
  unfold checkWorker
  by_cases hhealth : pw.health = 0
  · rw [if_pos hhealth]
    by_cases hstart : pw.MayStart now
    · left
      refine ⟨{ pw with phase := .waitStart, lastSendStartMsg := now },
        if_pos hstart, rfl, ?_, ?_⟩
      · rcases hstart with h | h | h | h <;> simp [h]
      · rcases hstart with h | h | h | h <;> simp [h]
    · right; right
      exact if_neg hstart
  · rw [if_neg hhealth]
    by_cases hactive : pw.phase = .running ∨ pw.phase = .waitStart
    · right; left
      exact ⟨{ pw with phase := .checkFailed }, if_pos hactive, rfl, hactive⟩
    · right; right
      exact if_neg hactive

/-- A stopped Wrapper hands out no event any more. -/
theorem checkWorker_closed {pw : Wrapper} (hclosed : pw.phase = .closed)
    (now : Nat) : pw.checkWorker now = (pw, none) := by
  rcases checkWorker_cases pw now with
    ⟨next, _, _, _, hopen⟩ | ⟨next, _, _, hactive⟩ | hnone
  · exact absurd hclosed hopen
  · simp [hclosed] at hactive
  · exact hnone

/-- An answer that finds the Wrapper in any other phase changes nothing. -/
theorem setRunningStatus_ignored {pw : Wrapper}
    (hphase : pw.phase ≠ .waitStart) (now : Nat) (remoteAddr respErr : String)
    (runErr : Option String) :
    (pw.setRunningStatus now remoteAddr respErr runErr).pw = pw ∧
      (pw.setRunningStatus now remoteAddr respErr runErr).event = none := by
  simp [setRunningStatus, hphase]

/-- All that an answer can do to a Wrapper that waits for one. -/
theorem setRunningStatus_cases {pw : Wrapper} (hphase : pw.phase = .waitStart)
    (now : Nat) (remoteAddr respErr : String) (runErr : Option String) :
    let status := pw.setRunningStatus now remoteAddr respErr runErr
    (respErr ≠ "" ∧ status.pw.phase = .startErr ∧ status.event = none) ∨
    (respErr = "" ∧ status.pw.phase = .startErr ∧
      status.event = some .closeProxy) ∨
    (respErr = "" ∧ status.pw.phase = .running ∧ status.event = none) := by
  by_cases herr : respErr = ""
  · cases runErr with
    | none => simp [setRunningStatus, hphase, herr]
    | some text => simp [setRunningStatus, hphase, herr]
  · simp [setRunningStatus, hphase, herr]

end Wrapper

end Frp
