/-
The listeners for the visitors of stcp and sudp proxies,
`server/visitor/visitor.go`.  A listener is known by the number of the proxy
whose `Run` makes it.
-/
import Mathlib.Logic.Function.Basic
import Frp.Lib.Chan

namespace Frp

open GoChan

/-- A digit of `hex.EncodeToString`. -/
def hexDigit (value : UInt8) : Char :=
  if value < 10 then Char.ofNat (48 + value.toNat)
  else Char.ofNat (87 + value.toNat)

def hexEncode (data : List UInt8) : String :=
  String.ofList (data.flatMap fun byte =>
    [hexDigit (byte / 16), hexDigit (byte % 16)])

/-- `util.GetAuthKey`, over the hash that it uses. -/
def getAuthKey (md5 : String → List UInt8) (token : String)
    (timestamp : Int) : String :=
  hexEncode (md5 (token ++ toString timestamp))

inductive VisitorError where
  | repeated (name : String)
  | authFailed (name : String)
  | encryption (text : String)
  | sendOnClosed
  | notExist (name : String)
deriving DecidableEq, Repr

/-- `panicToError` is the text of `errors.PanicToError` for that of a panic. -/
def VisitorError.text (panicToError : String → String) : VisitorError → String
  | .repeated name => "custom listener for [" ++ name ++ "] is repeated"
  | .authFailed name => "visitor connection of [" ++ name ++ "] auth failed"
  | .encryption text => "create encryption connection failed: " ++ text
  | .sendOnClosed => panicToError "send on closed channel"
  | .notExist name => "custom listener for [" ++ name ++ "] doesn't exist"

/-- The message of a visitor that asks for a connection. -/
structure NewVisitorConn where
  proxyName : String
  signKey : String
  timestamp : Int
  useEncryption : Bool
  useCompression : Bool
deriving DecidableEq, Repr

/-- A connection that has been let in, with what it is wrapped in and what it was
let in with. -/
structure VisitorConn where
  conn : Nat
  encryption : Option String
  compression : Bool
  signKey : String
  timestamp : Int
deriving DecidableEq, Repr

structure CustomListener where
  acceptCh : Chan VisitorConn 64
  closed : Bool
deriving DecidableEq

namespace CustomListener

def newCustomListener : CustomListener := ⟨.make VisitorConn 64, false⟩

/-- A connection for which there is no room is closed. -/
def putConn (l : CustomListener) (conn : VisitorConn) :
    CustomListener × Except VisitorError Unit :=
  match l.acceptCh.send conn with
  | .done acceptCh => ({ l with acceptCh := acceptCh }, .ok ())
  | .block => (l, .ok ())
  | .panic => (l, .error .sendOnClosed)

def close (l : CustomListener) : CustomListener :=
  if l.closed then l
  else
    match l.acceptCh.close with
    | .done acceptCh => ⟨acceptCh, true⟩
    | .block | .panic => l

/-- `Accept`, which waits while there is nothing to receive. -/
def accept (l : CustomListener) : Option (CustomListener × Option VisitorConn) :=
  match l.acceptCh.recv with
  | .value conn acceptCh => some ({ l with acceptCh := acceptCh }, some conn)
  | .closed => some (l, none)
  | .block => none

/-- What `PutConn` does to the connections that wait. -/
theorem putConn_buf (l : CustomListener) (conn : VisitorConn) :
    (l.putConn conn).1.acceptCh.buf = l.acceptCh.buf ∨
      (l.putConn conn).1.acceptCh.buf = l.acceptCh.buf ++ [conn] := by
  unfold putConn
  cases hsend : l.acceptCh.send conn with
  | done acceptCh => exact Or.inr (Chan.send_eq_done_iff.mp hsend).2.1
  | block | panic => exact Or.inl rfl

theorem close_buf (l : CustomListener) :
    l.close.acceptCh.buf = l.acceptCh.buf := by
  unfold close
  split
  · rfl
  · cases hclose : l.acceptCh.close with
    | done acceptCh => exact (Chan.close_eq_done_iff.mp hclose).2.1
    | block | panic => rfl

theorem accept_buf {l next : CustomListener} {conn : Option VisitorConn}
    (haccept : l.accept = some (next, conn)) :
    next.acceptCh.buf = l.acceptCh.buf ∨
      ∃ head, l.acceptCh.buf = head :: next.acceptCh.buf := by
  unfold accept at haccept
  cases hrecv : l.acceptCh.recv with
  | value head acceptCh =>
      simp only [hrecv, Option.some.injEq, Prod.mk.injEq] at haccept
      obtain ⟨rfl, rfl⟩ := haccept
      exact Or.inr ⟨head, (Chan.recv_eq_value_iff.mp hrecv).1⟩
  | closed =>
      simp only [hrecv, Option.some.injEq, Prod.mk.injEq] at haccept
      rw [← haccept.1]
      exact Or.inl rfl
  | block => simp [hrecv] at haccept

end CustomListener

/-- `visitor.Manager`, with every listener that has been made. -/
structure VisitorManager where
  visitorListeners : String → Option Nat
  skMap : String → Option String
  listeners : Nat → CustomListener

namespace VisitorManager

def newManager : VisitorManager :=
  ⟨fun _ => none, fun _ => none, fun _ => .newCustomListener⟩

/-- `Listen`; the new listener has the number `l`. -/
def listen (vm : VisitorManager) (name sk : String) (l : Nat) :
    Except VisitorError VisitorManager :=
  match vm.visitorListeners name with
  | some _ => .error (.repeated name)
  | none => .ok
      { visitorListeners := Function.update vm.visitorListeners name (some l)
        skMap := Function.update vm.skMap name (some sk)
        listeners := Function.update vm.listeners l .newCustomListener }

/-- The last lines of `NewConn`. -/
def putConn (vm : VisitorManager) (l : Nat) (conn : VisitorConn) :
    VisitorManager × Except VisitorError Unit :=
  let result := (vm.listeners l).putConn conn
  ({ vm with listeners := Function.update vm.listeners l result.1 }, result.2)

/-- `NewConn`; `withEncryption` is the outcome of `frpIo.WithEncryption`. -/
def newConn (md5 : String → List UInt8) (vm : VisitorManager) (conn : Nat)
    (m : NewVisitorConn) (withEncryption : Except String Unit) :
    VisitorManager × Except VisitorError Unit :=
  match vm.visitorListeners m.proxyName with
  | none => (vm, .error (.notExist m.proxyName))
  | some l =>
      let sk := (vm.skMap m.proxyName).getD ""
      if getAuthKey md5 sk m.timestamp ≠ m.signKey then
        (vm, .error (.authFailed m.proxyName))
      else if m.useEncryption then
        match withEncryption with
        | .error text => (vm, .error (.encryption text))
        | .ok () => vm.putConn l
            ⟨conn, some sk, m.useCompression, m.signKey, m.timestamp⟩
      else vm.putConn l
        ⟨conn, none, m.useCompression, m.signKey, m.timestamp⟩

/-- `CloseListener` deletes whatever stands under the name. -/
def closeListener (vm : VisitorManager) (name : String) : VisitorManager :=
  { vm with
    visitorListeners := Function.update vm.visitorListeners name none
    skMap := Function.update vm.skMap name none }

/-- The connections that wait at the listener `l`. -/
def waiting (vm : VisitorManager) (l : Nat) : List VisitorConn :=
  (vm.listeners l).acceptCh.buf

/-- All that `NewConn` does: it puts the connection into the listener under the
name if that exists and the key is right, or it changes nothing. -/
theorem newConn_cases (md5 : String → List UInt8) (vm : VisitorManager)
    (conn : Nat) (m : NewVisitorConn) (withEncryption : Except String Unit) :
    (vm.newConn md5 conn m withEncryption).1 = vm ∨
    ∃ l encryption, vm.visitorListeners m.proxyName = some l ∧
      m.signKey =
        getAuthKey md5 ((vm.skMap m.proxyName).getD "") m.timestamp ∧
      (vm.newConn md5 conn m withEncryption).1 = (vm.putConn l ⟨conn,
        encryption, m.useCompression, m.signKey, m.timestamp⟩).1 := by
  unfold newConn
  cases hlistener : vm.visitorListeners m.proxyName with
  | none => exact Or.inl rfl
  | some l =>
      simp only
      by_cases hkey :
          getAuthKey md5 ((vm.skMap m.proxyName).getD "") m.timestamp =
            m.signKey
      · rw [if_neg (not_not.mpr hkey)]
        cases m.useEncryption with
        | true =>
            cases withEncryption with
            | error text => exact Or.inl rfl
            | ok => exact Or.inr ⟨l, _, rfl, hkey.symm, rfl⟩
        | false => exact Or.inr ⟨l, none, rfl, hkey.symm, rfl⟩
      · rw [if_pos hkey]
        exact Or.inl rfl

end VisitorManager

end Frp
