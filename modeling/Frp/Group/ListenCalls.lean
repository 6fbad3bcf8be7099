/-
Concurrent calls of `Listen` and `Close` in groups with listeners.  `Listen` of
the controller lets its lock go before it takes that of the group, and the last
member that closes calls `RemoveGroup` with the lock of the group held.
-/
import Frp.Lib.System
import Frp.Group.TCP

namespace Frp

open GoStrings Transition

namespace ListenGroups

variable {Req Real Env Other : Type}

structure ListenArgs (Req : Type) where
  group : String
  groupKey : String
  req : Req

/-- How far a call of `Listen` is.  Between its two sections it holds the group
that it has found; it returns the listener and what it reads in the group, which
is kept here as it was then. -/
inductive Call (Req Real : Type) where
  | idle
  | found (args : ListenArgs Req) (i : Nat)
  | returned (ln : Nat) (g : ListenGroup Real)
  | failed (err : ListenError)

/-- How far a listener is in its `Close`.  One that is `removing` holds the lock
of its group. -/
inductive ListenerPc where
  | live
  | closing
  | removing
  | closed
deriving DecidableEq, Repr

structure State (Req Real Env : Type) where
  ctl : ListenCtl Real Env
  calls : Nat → Call Req Real
  pcs : Nat → ListenerPc

/-- The sections of the calls, one by one; `close` is the `close(ln.closeCh)`
that a `Close` begins with. -/
inductive Action (Req Other : Type) where
  | lookup (call : Nat) (args : ListenArgs Req)
  | listen (call : Nat)
  | close (ln : Nat)
  | closeListener (ln : Nat)
  | removeGroup (ln : Nat)
  | other (act : Other)

def init [Inhabited Real] (env : Env) : State Req Real Env :=
  ⟨.newCtl env, fun _ => .idle, fun _ => .closed⟩

namespace State

def setCall (s : State Req Real Env) (call : Nat) (pc : Call Req Real) :
    State Req Real Env :=
  { s with calls := Function.update s.calls call pc }

def setPc (s : State Req Real Env) (ln : Nat) (pc : ListenerPc) :
    State Req Real Env :=
  { s with pcs := Function.update s.pcs ln pc }

def setCtl (s : State Req Real Env) (ctl : ListenCtl Real Env) :
    State Req Real Env :=
  { s with ctl := ctl }

/-- The group of a listener. -/
def groupOf (s : State Req Real Env) (ln : Nat) : ListenGroup Real :=
  s.ctl.heap (s.ctl.listeners ln).group

end State

/-- A second `Close` of a listener panics before its section, so it leaves
everything as it is. -/
def step [Inhabited Real] (kind : GroupKind Req Real Env Other)
    (s : State Req Real Env) : Action Req Other → Option (State Req Real Env)
  | .lookup call args =>
      match s.calls call with
      | .idle =>
          some ((s.setCtl (s.ctl.lookup args.group).1).setCall call
            (.found args (s.ctl.lookup args.group).2))
      | .found _ _ | .returned _ _ | .failed _ => none
  | .listen call =>
      match s.calls call with
      | .found args i =>
          match kind.dispatch args.req with
          | .error err => some (s.setCall call (.failed err))
          | .ok () =>
              if (s.ctl.heap i).mu then none
              else
                match s.ctl.listen kind i args.group args.groupKey args.req with
                | (ctl, .error err) =>
                    some ((s.setCtl ctl).setCall call (.failed err))
                | (ctl, .ok ln) =>
                    some (((s.setCtl ctl).setPc ln .live).setCall call
                      (.returned ln (ctl.heap i)))
      | .idle | .returned _ _ | .failed _ => none
  | .close ln =>
      match s.pcs ln with
      | .live => some (s.setPc ln .closing)
      | .closing | .removing | .closed => some s
  | .closeListener ln =>
      match s.pcs ln with
      | .closing =>
          if (s.groupOf ln).mu then none
          else
            match s.ctl.closeListener kind ln with
            | (ctl, .last) => some ((s.setCtl ctl).setPc ln .removing)
            | (ctl, .left) => some ((s.setCtl ctl).setPc ln .closed)
            | (ctl, .panicked) => some ((s.setCtl ctl).setPc ln .closed)
      | .live | .removing | .closed => none
  | .removeGroup ln =>
      match s.pcs ln with
      | .removing =>
          some ((s.setCtl
            (s.ctl.finishClose (s.ctl.listeners ln).group)).setPc ln .closed)
      | .live | .closing | .closed => none
  | .other act =>
      match kind.other s.ctl.env act with
      | none => none
      | some env => some (s.setCtl { s.ctl with env := env })

def system [Inhabited Real] (kind : GroupKind Req Real Env Other)
    (env : Env) : System (State Req Real Env) (Action Req Other) where
  start := init env
  step := step kind

section Step

variable [Inhabited Real] {kind : GroupKind Req Real Env Other}
  {s s' : State Req Real Env} {call ln : Nat}

theorem lookup_cases {args : ListenArgs Req}
    (hstep : step kind s (.lookup call args) = some s') :
    s.calls call = .idle ∧
      s' = (s.setCtl (s.ctl.lookup args.group).1).setCall call
        (.found args (s.ctl.lookup args.group).2) := by
  cases hcall : s.calls call with
  | idle =>
      simp only [step, hcall, Option.some.injEq] at hstep
      exact ⟨rfl, hstep.symm⟩
  | found | returned | failed => simp [step, hcall] at hstep

/-- The second section of `Listen` fails at the dispatch, or finds the group
unlocked and does what the `Listen` of the group does. -/
theorem listen_cases (hstep : step kind s (.listen call) = some s') :
    ∃ args i, s.calls call = .found args i ∧
      ((∃ err, kind.dispatch args.req = .error err ∧
          s' = s.setCall call (.failed err)) ∨
        kind.dispatch args.req = .ok () ∧ (s.ctl.heap i).mu = false ∧
          ∃ ctl result,
            s.ctl.listen kind i args.group args.groupKey args.req =
              (ctl, result) ∧
            s.ctl.Listens kind i args.group args.groupKey args.req ctl result ∧
            s' = match result with
              | .error err => (s.setCtl ctl).setCall call (.failed err)
              | .ok ln => ((s.setCtl ctl).setPc ln .live).setCall call
                  (.returned ln (ctl.heap i))) := by
  cases hcall : s.calls call with
  | found args i =>
      refine ⟨args, i, rfl, ?_⟩
      simp only [step, hcall] at hstep
      cases hdispatch : kind.dispatch args.req with
      | error err =>
          simp only [hdispatch, Option.some.injEq] at hstep
          exact .inl ⟨err, rfl, hstep.symm⟩
      | ok =>
          simp only [hdispatch, Option.ite_none_left_eq_some] at hstep
          obtain ⟨hmu, hstep⟩ := hstep
          have hlistens := ListenCtl.listens_of_listen kind s.ctl i args.group
            args.groupKey args.req
          rcases hresult : s.ctl.listen kind i args.group args.groupKey args.req
            with ⟨ctl, result⟩
          rw [hresult] at hstep hlistens
          refine .inr ⟨rfl, Bool.not_eq_true _ ▸ hmu, ctl, result, rfl, hlistens,
            ?_⟩
          cases result with
          | error err => exact (Option.some.inj hstep).symm
          | ok ln => exact (Option.some.inj hstep).symm
  | idle | returned | failed => simp [step, hcall] at hstep

theorem close_cases (hstep : step kind s (.close ln) = some s') :
    (s.pcs ln = .live ∧ s' = s.setPc ln .closing) ∨ s' = s := by
  cases hpc : s.pcs ln with
  | live =>
      simp only [step, hpc, Option.some.injEq] at hstep
      exact .inl ⟨rfl, hstep.symm⟩
  | closing | removing | closed =>
      simp only [step, hpc, Option.some.injEq] at hstep
      exact .inr hstep.symm

/-- The section of `CloseListener` leaves the listener `removing` only if it was
the last of its group. -/
theorem closeListener_cases
    (hstep : step kind s (.closeListener ln) = some s') :
    s.pcs ln = .closing ∧ ∃ ctl closeEnd,
      s.ctl.Closes kind ln (s.ctl.listeners ln).group ctl closeEnd ∧
      s' = match closeEnd with
        | .last => (s.setCtl ctl).setPc ln .removing
        | .left | .panicked => (s.setCtl ctl).setPc ln .closed := by
  cases hpc : s.pcs ln with
  | closing =>
      simp only [step, hpc, Option.ite_none_left_eq_some] at hstep
      obtain ⟨-, hstep⟩ := hstep
      have hcloses := ListenCtl.closes_of_closeListener kind s.ctl ln
      rcases hresult : s.ctl.closeListener kind ln with ⟨ctl, closeEnd⟩
      rw [hresult] at hstep hcloses
      refine ⟨rfl, ctl, closeEnd, hcloses, ?_⟩
      cases closeEnd with
      | left | last | panicked => exact (Option.some.inj hstep).symm
  | live | removing | closed => simp [step, hpc] at hstep

theorem removeGroup_cases (hstep : step kind s (.removeGroup ln) = some s') :
    s.pcs ln = .removing ∧
      s' = (s.setCtl
        (s.ctl.finishClose (s.ctl.listeners ln).group)).setPc ln .closed := by
  cases hpc : s.pcs ln with
  | removing =>
      simp only [step, hpc, Option.some.injEq] at hstep
      exact ⟨rfl, hstep.symm⟩
  | live | closing | closed => simp [step, hpc] at hstep

theorem other_cases {act : Other} (hstep : step kind s (.other act) = some s') :
    ∃ env, kind.other s.ctl.env act = some env ∧
      s' = s.setCtl { s.ctl with env := env } := by
  cases henv : kind.other s.ctl.env act with
  | none => simp [step, henv] at hstep
  | some env =>
      simp only [step, henv, Option.some.injEq] at hstep
      exact ⟨env, rfl, hstep.symm⟩

end Step

end ListenGroups

end Frp
