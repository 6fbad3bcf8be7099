/-
What the groups of `server/group/tcp.go` and `server/group/tcpmux.go` share: the
first member opens the real listener, later ones wait on the same channel, and
the last closes both.
-/
import Mathlib.Data.Finset.Sort
import Frp.Group.HTTP
import Frp.Server.Ports

namespace Frp

inductive ListenError where
  | group (err : GroupError)
  | port (err : PortError)
  | router (err : RouterError)
  | netListen (text : String)
  | unknownMultiplexer (multiplexer : String)
deriving DecidableEq, Repr

def ListenError.text : ListenError → String
  | .group err => err.text
  | .port err => err.text
  | .router err => err.text
  | .netListen text => text
  | .unknownMultiplexer multiplexer =>
      "unknown multiplexer [" ++ multiplexer ++ "]"

/-- `acceptCh` as a send on it finds it. -/
inductive AcceptCh where
  | nilChan
  | opened
  | closed
deriving DecidableEq, Repr

structure TCPAddr where
  host : String
  port : Int
deriving DecidableEq, Repr, Inhabited

/-- A group.  `Real` is what the first member leaves in it besides the name and
the key, `ln` the number of the real listener; `mu` is held across the call of
`RemoveGroup`. -/
structure ListenGroup (Real : Type) where
  group : String
  groupKey : String
  real : Real
  acceptCh : AcceptCh
  ln : Option Nat
  lns : List Nat
  mu : Bool

/-- The listener that a member is given. -/
structure GroupListener where
  groupName : String
  group : Nat
  addr : Option TCPAddr
deriving DecidableEq, Repr

/-- What the two kinds of group do differently: where and how they listen, and
what a later member has to agree on.  `other` is what happens to the ports or to
the muxer besides. -/
structure GroupKind (Req Real Env Other : Type) where
  dispatch : Req → Except ListenError Unit
  realListen : Env → Req → Env × Except ListenError Real
  addr : Real → Option TCPAddr
  admits : ListenGroup Real → String → String → Req → Except GroupError Unit
  group_of_admits : ∀ g group groupKey req,
    admits g group groupKey req = .ok () → g.group = group
  realClose : Env → Real → Env
  other : Env → Other → Option Env

/-- The controller with the groups, the real listeners and the listeners of the
members, which are known by number. -/
structure ListenCtl (Real Env : Type) where
  groups : String → Option Nat
  heap : Nat → ListenGroup Real
  made : Nat
  realOpen : Nat → Bool
  reals : Nat
  listeners : Nat → GroupListener
  listened : Nat
  env : Env

variable {Req Real Env Other : Type}

/-- How `CloseListener` ends; the last member goes on to `RemoveGroup`. -/
inductive CloseEnd where
  | left
  | last
  | panicked
deriving DecidableEq, Repr

namespace ListenGroup

def newGroup [Inhabited Real] : ListenGroup Real where
  group := ""
  groupKey := ""
  real := default
  acceptCh := .opened
  ln := none
  lns := []
  mu := false

/-- The assignments of the first member.  A channel that has been closed is not
nil, so it is kept. -/
def found (g : ListenGroup Real) (group groupKey : String) (real : Real)
    (ln : Nat) : ListenGroup Real :=
  { g with
    group := group
    groupKey := groupKey
    real := real
    ln := some ln
    acceptCh := if g.acceptCh = .nilChan then .opened else g.acceptCh }

end ListenGroup

namespace ListenCtl

def newCtl [Inhabited Real] (env : Env) : ListenCtl Real Env where
  groups _ := none
  heap _ := .newGroup
  made := 0
  realOpen _ := false
  reals := 0
  listeners _ := ⟨"", 0, none⟩
  listened := 0
  env := env

def setGroup (ctl : ListenCtl Real Env) (i : Nat) (g : ListenGroup Real) :
    ListenCtl Real Env :=
  { ctl with heap := Function.update ctl.heap i g }

/-- The first section of the `Listen` of the controller. -/
def lookup [Inhabited Real] (ctl : ListenCtl Real Env) (group : String) :
    ListenCtl Real Env × Nat :=
  match ctl.groups group with
  | some i => (ctl, i)
  | none =>
      ({ ctl with
        groups := Function.update ctl.groups group (some ctl.made)
        heap := Function.update ctl.heap ctl.made .newGroup
        made := ctl.made + 1 }, ctl.made)

def removeGroup (ctl : ListenCtl Real Env) (group : String) :
    ListenCtl Real Env :=
  { ctl with groups := Function.update ctl.groups group none }

/-- A new listener at the end of `lns`. -/
def addListener (ctl : ListenCtl Real Env) (i : Nat) (g : ListenGroup Real)
    (group : String) (addr : Option TCPAddr) : ListenCtl Real Env :=
  { ctl with
    heap := Function.update ctl.heap i
      { g with lns := g.lns ++ [ctl.listened] }
    listeners := Function.update ctl.listeners ctl.listened ⟨group, i, addr⟩
    listened := ctl.listened + 1 }

/-- The first member has opened the real address. -/
def found (ctl : ListenCtl Real Env) (i : Nat) (group groupKey : String)
    (real : Real) (addr : Option TCPAddr) (env : Env) : ListenCtl Real Env :=
  { ctl with
    realOpen := Function.update ctl.realOpen ctl.reals true
    reals := ctl.reals + 1
    env := env }.addListener i
      ((ctl.heap i).found group groupKey real ctl.reals) group addr

/-- The `Listen` of the group. -/
def listen (kind : GroupKind Req Real Env Other) (ctl : ListenCtl Real Env)
    (i : Nat) (group groupKey : String) (req : Req) :
    ListenCtl Real Env × Except ListenError Nat :=
  match (ctl.heap i).lns with
  | [] =>
      match kind.realListen ctl.env req with
      | (env, .error err) => ({ ctl with env := env }, .error err)
      | (env, .ok real) =>
          (ctl.found i group groupKey real (kind.addr real) env,
            .ok ctl.listened)
  | first :: _ =>
      match kind.admits (ctl.heap i) group groupKey req with
      | .error err => (ctl, .error (.group err))
      | .ok () =>
          (ctl.addListener i (ctl.heap i) group (ctl.listeners first).addr,
            .ok ctl.listened)

/-- `CloseListener` up to the call of `RemoveGroup`: the loop over `lns` stops at
the listener, and to close a channel that is not open panics. -/
def closeListener (kind : GroupKind Req Real Env Other)
    (ctl : ListenCtl Real Env) (ln : Nat) : ListenCtl Real Env × CloseEnd :=
  let i := (ctl.listeners ln).group
  let g := ctl.heap i
  let lns := g.lns.erase ln
  if lns = [] then
    if g.acceptCh = .opened then
      match g.ln with
      | none =>
          (ctl.setGroup i { g with lns := lns, acceptCh := .closed }, .panicked)
      | some real =>
          ({ ctl with
            realOpen := Function.update ctl.realOpen real false
            env := kind.realClose ctl.env g.real }.setGroup i
              { g with lns := lns, acceptCh := .closed, mu := true }, .last)
    else (ctl.setGroup i { g with lns := lns }, .panicked)
  else (ctl.setGroup i { g with lns := lns }, .left)

/-- `RemoveGroup` with the name in the group, and the end of `CloseListener`. -/
def finishClose (ctl : ListenCtl Real Env) (i : Nat) : ListenCtl Real Env :=
  (ctl.removeGroup (ctl.heap i).group).setGroup i
    { ctl.heap i with mu := false }

/-- All that the `Listen` of a group can do. -/
inductive Listens (kind : GroupKind Req Real Env Other)
    (ctl : ListenCtl Real Env) (i : Nat) (group groupKey : String) (req : Req) :
    ListenCtl Real Env → Except ListenError Nat → Prop where
  | refused {env : Env} {err : ListenError} (hempty : (ctl.heap i).lns = [])
      (hlisten : kind.realListen ctl.env req = (env, .error err)) :
      Listens kind ctl i group groupKey req { ctl with env := env } (.error err)
  | founded {env : Env} {real : Real} (hempty : (ctl.heap i).lns = [])
      (hlisten : kind.realListen ctl.env req = (env, .ok real)) :
      Listens kind ctl i group groupKey req
        (ctl.found i group groupKey real (kind.addr real) env)
        (.ok ctl.listened)
  | mismatched {err : GroupError} (hnonempty : (ctl.heap i).lns ≠ [])
      (hadmits : kind.admits (ctl.heap i) group groupKey req = .error err) :
      Listens kind ctl i group groupKey req ctl (.error (.group err))
  | joined {addr : Option TCPAddr} (hnonempty : (ctl.heap i).lns ≠ [])
      (hadmits : kind.admits (ctl.heap i) group groupKey req = .ok ()) :
      Listens kind ctl i group groupKey req
        (ctl.addListener i (ctl.heap i) group addr) (.ok ctl.listened)

theorem listens_of_listen (kind : GroupKind Req Real Env Other)
    (ctl : ListenCtl Real Env) (i : Nat) (group groupKey : String) (req : Req) :
    Listens kind ctl i group groupKey req
      (ctl.listen kind i group groupKey req).1
      (ctl.listen kind i group groupKey req).2 := by
  unfold listen
  cases hlns : (ctl.heap i).lns with
  | nil =>
      rcases hlisten : kind.realListen ctl.env req with ⟨env, err | real⟩
      · simpa only [hlisten] using Listens.refused hlns hlisten
      · simpa only [hlisten] using Listens.founded hlns hlisten
  | cons first rest =>
      have hnonempty : (ctl.heap i).lns ≠ [] := by simp [hlns]
      rcases hadmits : kind.admits (ctl.heap i) group groupKey req with err | _
      · simpa only [hadmits] using Listens.mismatched hnonempty hadmits
      · simpa only [hadmits] using Listens.joined hnonempty hadmits

/-- All that `CloseListener` can do before `RemoveGroup`. -/
inductive Closes (kind : GroupKind Req Real Env Other)
    (ctl : ListenCtl Real Env) (ln i : Nat) :
    ListenCtl Real Env → CloseEnd → Prop where
  | left (hmore : (ctl.heap i).lns.erase ln ≠ []) :
      Closes kind ctl ln i (ctl.setGroup i
        { ctl.heap i with lns := (ctl.heap i).lns.erase ln }) .left
  | last {real : Nat} (hnone : (ctl.heap i).lns.erase ln = [])
      (hopened : (ctl.heap i).acceptCh = .opened)
      (hreal : (ctl.heap i).ln = some real) :
      Closes kind ctl ln i ({ ctl with
        realOpen := Function.update ctl.realOpen real false
        env := kind.realClose ctl.env (ctl.heap i).real }.setGroup i
          { ctl.heap i with lns := [], acceptCh := .closed, mu := true }) .last
  | panicked {acceptCh : AcceptCh}
      (hnone : (ctl.heap i).lns.erase ln = [])
      (hbroken : (ctl.heap i).acceptCh ≠ .opened ∨ (ctl.heap i).ln = none) :
      Closes kind ctl ln i (ctl.setGroup i
        { ctl.heap i with lns := [], acceptCh := acceptCh }) .panicked

theorem closes_of_closeListener (kind : GroupKind Req Real Env Other)
    (ctl : ListenCtl Real Env) (ln : Nat) :
    Closes kind ctl ln (ctl.listeners ln).group (ctl.closeListener kind ln).1
      (ctl.closeListener kind ln).2 := by
  unfold closeListener
  by_cases hnone : (ctl.heap (ctl.listeners ln).group).lns.erase ln = []
  · simp only [hnone, if_true]
    by_cases hopened :
        (ctl.heap (ctl.listeners ln).group).acceptCh = .opened
    · rw [if_pos hopened]
      split
      · next hreal => exact Closes.panicked hnone (Or.inr hreal)
      · next real hreal => exact Closes.last hnone hopened hreal
    · rw [if_neg hopened]
      exact Closes.panicked hnone (Or.inl hopened)
  · simp only [hnone, if_false]
    exact Closes.left hnone

end ListenCtl

end Frp
