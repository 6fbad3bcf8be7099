/-
How `Close` of a proxy of frps ends, and what that means for the goroutine of
`server/control.go` that has called it.
-/

namespace Frp

/-- The last member of a group closes its `acceptCh`.  A member that has found
the group as another was leaving it as the last one joins it after that, with the
channel closed, and its own `Close` panics at the second `close`. -/
inductive CloseResult where
  | returned
  | panicked
deriving DecidableEq, Repr

/-- Where `server/control.go` calls `Close`. -/
inductive CloseSite where
  | registerProxy
  | closeProxy
  | stoper
deriving DecidableEq, Repr

/-- A panic ends the goroutine: manager and stoper recover when they are done,
after their deferred calls.  `CloseProxy` alone unlocks the mutex of the Control
without a defer, and leaves it locked. -/
def CloseSite.keepsLock : CloseSite → CloseResult → Bool
  | .closeProxy, .panicked => true
  | .closeProxy, .returned | .registerProxy, _ | .stoper, _ => false

end Frp
