/-
`GetWorkConnFromPool` of `server/proxy/proxy.go`.  A user is served over the first
work connection that takes the StartWorkConn message; a connection that does not
take it is closed and the next one is tried, poolCount + 1 times in all.
-/
import Frp.Lib.GoStrconv

namespace Frp

open GoInt GoStrings GoStrconv

namespace Server

structure StartWorkConn where
  proxyName : Bytes
  srcAddr : Bytes
  dstAddr : Bytes
  srcPort : UInt16
  dstPort : UInt16
  error : Bytes
deriving DecidableEq, Repr

/-- What `GetWorkConnFromPool` reads of a proxy. -/
structure BaseProxy where
  name : Bytes
  poolCount : Int

/-- One turn of the loop: the result of `getWorkConnFn`, and what `WriteMsg` says
of the connection if it is open. -/
structure Attempt where
  conn : Except Bytes Nat
  write : Option Bytes

/-- The two results of `GetWorkConnFromPool` beside the messages it wrote, the
connections that did not take theirs and those it closed. -/
structure PoolResult where
  workConn : Option Nat
  err : Option Bytes
  started : List (Nat × StartWorkConn)
  refused : List Nat
  closed : List Nat
deriving DecidableEq, Repr

/-- The named results before the loop. -/
def PoolResult.zero : PoolResult := ⟨none, none, [], [], []⟩

/-- The address and the port of a user connection or of its listener; the errors
of both readings are dropped. -/
def addrPort (w : Width) : Option Bytes → Bytes × UInt16
  | none => ([], UInt16.ofInt 0)
  | some addr =>
      match splitHostPort addr with
      | .error _ => ([], UInt16.ofInt (atoi w []).1)
      | .ok (host, port) => (host, UInt16.ofInt (atoi w port).1)

def BaseProxy.startMsg (w : Width) (pxy : BaseProxy) (src dst : Option Bytes) :
    StartWorkConn where
  proxyName := pxy.name
  srcAddr := (addrPort w src).1
  dstAddr := (addrPort w dst).1
  srcPort := (addrPort w src).2
  dstPort := (addrPort w dst).2
  error := []

/-- `WriteMsg` on a connection; a closed one takes nothing. -/
def writeMsg (closed : List Nat) (conn : Nat) (result : Option Bytes) :
    Option Bytes :=
  if conn ∈ closed then some (ascii "use of closed network connection")
  else result

/-- The loop, with `left` turns to go.  The error of `WriteMsg` is a variable of
the loop body, so the named result `err` stays nil. -/
def tryConns (start : StartWorkConn) (attempts : Nat → Attempt) :
    Nat → Nat → PoolResult → PoolResult
  | 0, _, r => r
  | left + 1, turn, r =>
      match (attempts turn).conn with
      | .error err => { r with workConn := none, err := some err }
      | .ok conn =>
          match writeMsg r.closed conn (attempts turn).write with
          | some _ => tryConns start attempts left (turn + 1) { r with
              workConn := some conn
              refused := r.refused ++ [conn]
              closed := r.closed ++ [conn] }
          | none => { r with
              workConn := some conn
              started := r.started ++ [(conn, start)] }

/-- The turns of `for i := 0; i < pxy.poolCount+1; i++`. -/
def BaseProxy.turns (w : Width) (pxy : BaseProxy) : Nat :=
  (w.wrap (pxy.poolCount + 1)).toNat

def BaseProxy.getWorkConnFromPool (w : Width) (pxy : BaseProxy)
    (src dst : Option Bytes) (attempts : Nat → Attempt) : PoolResult :=
  tryConns (pxy.startMsg w src dst) attempts (pxy.turns w) 0 .zero

/-- What the callers rely on: without an error there is a connection that has its
message and is open; without a message there is an error; no connection that
refused its message is left open. -/
structure PoolResult.Sound (r : PoolResult) : Prop where
  usable : r.err = none →
    ∃ conn start, r.workConn = some conn ∧ (conn, start) ∈ r.started ∧
      conn ∉ r.closed
  failed : r.started = [] → r.err ≠ none
  closed : ∀ conn ∈ r.refused, conn ∈ r.closed

/-- The attempt ends the loop: it has no connection, or one that takes the
message and that no earlier attempt had. -/
def Settles (attempts : Nat → Attempt) (turn : Nat) : Prop :=
  ∀ conn, (attempts turn).conn = .ok conn →
    (attempts turn).write = none ∧
      ∀ earlier < turn, (attempts earlier).conn ≠ .ok conn

/-- The loop before a turn: the connections of the turns so far are closed. -/
structure PoolResult.Pending (attempts : Nat → Attempt) (turn : Nat)
    (r : PoolResult) : Prop where
  noError : r.err = none
  noMessage : r.started = []
  refused : r.refused = r.closed
  closed : ∀ conn, conn ∈ r.closed ↔
    ∃ earlier < turn, (attempts earlier).conn = .ok conn

variable {attempts : Nat → Attempt} {turn : Nat} {r : PoolResult}

section Turn

variable {start : StartWorkConn} {left conn : Nat}

theorem tryConns_error {err : Bytes}
    (hconn : (attempts turn).conn = .error err) :
    tryConns start attempts (left + 1) turn r =
      { r with workConn := none, err := some err } := by
  simp only [tryConns, hconn]

theorem tryConns_refused {err : Bytes} (hconn : (attempts turn).conn = .ok conn)
    (hwrite : writeMsg r.closed conn (attempts turn).write = some err) :
    tryConns start attempts (left + 1) turn r =
      tryConns start attempts left (turn + 1) { r with
        workConn := some conn
        refused := r.refused ++ [conn]
        closed := r.closed ++ [conn] } := by
  simp only [tryConns, hconn, hwrite]

theorem tryConns_written (hconn : (attempts turn).conn = .ok conn)
    (hwrite : writeMsg r.closed conn (attempts turn).write = none) :
    tryConns start attempts (left + 1) turn r = { r with
      workConn := some conn
      started := r.started ++ [(conn, start)] } := by
  simp only [tryConns, hconn, hwrite]

end Turn

theorem PoolResult.pending_zero : PoolResult.zero.Pending attempts 0 where
  noError := rfl
  noMessage := rfl
  refused := rfl
  closed := by simp [zero]

/-- The loop has left a user without a connection and without an error. -/
theorem PoolResult.Pending.not_sound (hpending : r.Pending attempts turn) :
    ¬ r.Sound := fun hsound =>
  hsound.failed hpending.noMessage hpending.noError

theorem PoolResult.Pending.sound_error (hpending : r.Pending attempts turn)
    (err : Bytes) :
    PoolResult.Sound { r with workConn := none, err := some err } where
  usable := by simp
  failed := by simp
  closed conn hconn := by
    rw [← hpending.refused]
    exact hconn

theorem PoolResult.Pending.sound_start (hpending : r.Pending attempts turn)
    {conn : Nat} (hopen : conn ∉ r.closed) (start : StartWorkConn) :
    PoolResult.Sound { r with
      workConn := some conn
      started := r.started ++ [(conn, start)] } where
  usable _ := ⟨conn, start, rfl, by simp, hopen⟩
  failed := by simp
  closed other hother := by
    rw [← hpending.refused]
    exact hother

theorem PoolResult.Pending.next (hpending : r.Pending attempts turn)
    {conn : Nat} (hconn : (attempts turn).conn = .ok conn) :
    PoolResult.Pending attempts (turn + 1) { r with
      workConn := some conn
      refused := r.refused ++ [conn]
      closed := r.closed ++ [conn] } where
  noError := hpending.noError
  noMessage := hpending.noMessage
  refused := by rw [hpending.refused]
  closed other := by
    rw [List.mem_append, hpending.closed, List.mem_singleton]
    constructor
    · rintro (⟨earlier, hearlier, hother⟩ | rfl)
      · exact ⟨earlier, by omega, hother⟩
      · exact ⟨turn, by omega, hconn⟩
    · rintro ⟨earlier, hearlier, hother⟩
      by_cases hturn : earlier = turn
      · right
        rw [hturn, hconn] at hother
        exact (Except.ok.inj hother).symm
      · exact Or.inl ⟨earlier, by omega, hother⟩

/-- A connection takes the message exactly when its attempt settles the loop. -/
theorem PoolResult.Pending.writeMsg_eq_none_iff
    (hpending : r.Pending attempts turn) {conn : Nat}
    (hconn : (attempts turn).conn = .ok conn) :
    writeMsg r.closed conn (attempts turn).write = none ↔
      Settles attempts turn := by
  have hopen : conn ∉ r.closed ↔
      ∀ earlier < turn, (attempts earlier).conn ≠ .ok conn := by
    simp only [hpending.closed, not_exists, not_and, ne_eq]
  constructor
  · intro hwrite other hother
    obtain rfl : conn = other := Except.ok.inj (hconn.symm.trans hother)
    by_cases hclosed : conn ∈ r.closed
    · simp [writeMsg, hclosed] at hwrite
    · rw [writeMsg, if_neg hclosed] at hwrite
      exact ⟨hwrite, hopen.mp hclosed⟩
  · intro hsettles
    obtain ⟨hwrite, hfresh⟩ := hsettles conn hconn
    rw [writeMsg, if_neg (hopen.mpr hfresh), hwrite]

/-- The rest of the loop ends well exactly when one of its attempts settles it. -/
theorem PoolResult.Pending.sound_tryConns_iff (start : StartWorkConn)
    (left : Nat) (hpending : r.Pending attempts turn) :
    (tryConns start attempts left turn r).Sound ↔
      ∃ i, turn ≤ i ∧ i < turn + left ∧ Settles attempts i := by
  induction left generalizing turn r with
  | zero =>
      rw [tryConns]
      constructor
      · intro hsound
        exact absurd hsound hpending.not_sound
      · rintro ⟨i, hlow, hhigh, _⟩
        omega
  | succ left ih =>
      have hsettled (hsettles : Settles attempts turn) :
          ∃ i, turn ≤ i ∧ i < turn + (left + 1) ∧ Settles attempts i :=
        ⟨turn, le_rfl, by omega, hsettles⟩
      cases hconn : (attempts turn).conn with
      | error err =>
          rw [tryConns_error hconn]
          refine iff_of_true (hpending.sound_error err) (hsettled ?_)
          intro conn hok
          rw [hconn] at hok
          cases hok
      | ok conn =>
          have hwrites := hpending.writeMsg_eq_none_iff hconn
          cases hwrite : writeMsg r.closed conn (attempts turn).write with
          | none =>
              rw [tryConns_written hconn hwrite]
              have hsettles := hwrites.mp hwrite
              refine iff_of_true (hpending.sound_start ?_ start)
                (hsettled hsettles)
              rw [hpending.closed]
              rintro ⟨earlier, hearlier, hsame⟩
              exact (hsettles conn hconn).2 earlier hearlier hsame
          | some err =>
              rw [tryConns_refused hconn hwrite]
              have hnot : ¬ Settles attempts turn := fun hsettles => by
                rw [hwrites.mpr hsettles] at hwrite
                cases hwrite
              rw [ih (hpending.next hconn)]
              constructor
              · rintro ⟨i, hlow, hhigh, hsettles⟩
                exact ⟨i, by omega, by omega, hsettles⟩
              · rintro ⟨i, hlow, hhigh, hsettles⟩
                have hne : i ≠ turn := fun heq => hnot (heq ▸ hsettles)
                exact ⟨i, by omega, by omega, hsettles⟩

/-- The loop writes one message only. -/
theorem mem_started_tryConns (start : StartWorkConn) (attempts : Nat → Attempt)
    (left turn : Nat) {r : PoolResult}
    (hstart : ∀ entry ∈ r.started, entry.2 = start) :
    ∀ entry ∈ (tryConns start attempts left turn r).started,
      entry.2 = start := by
  induction left generalizing turn r with
  | zero => exact hstart
  | succ left ih =>
      cases hconn : (attempts turn).conn with
      | error err =>
          rw [tryConns_error hconn]
          exact hstart
      | ok conn =>
          cases hwrite : writeMsg r.closed conn (attempts turn).write with
          | some err =>
              rw [tryConns_refused hconn hwrite]
              exact ih (turn + 1) hstart
          | none =>
              rw [tryConns_written hconn hwrite]
              intro entry hentry
              rcases List.mem_append.mp hentry with hold | hnew
              · exact hstart entry hold
              · rw [List.mem_singleton.mp hnew]

theorem started_getWorkConnFromPool {w : Width} {pxy : BaseProxy}
    {src dst : Option Bytes} {attempts : Nat → Attempt} {conn : Nat}
    {m : StartWorkConn}
    (hstarted : (conn, m) ∈ (pxy.getWorkConnFromPool w src dst attempts).started) :
    m = pxy.startMsg w src dst :=
  mem_started_tryConns _ attempts _ 0 (by simp [PoolResult.zero]) _ hstarted

/-- A user gets a started connection or an error exactly when one of the attempts
has no connection or writes its message. -/
theorem getWorkConnFromPool_sound_iff (w : Width) (pxy : BaseProxy)
    (src dst : Option Bytes) (attempts : Nat → Attempt) :
    (pxy.getWorkConnFromPool w src dst attempts).Sound ↔
      ∃ i : Nat, (i : Int) < w.wrap (pxy.poolCount + 1) ∧
        Settles attempts i := by
  rw [BaseProxy.getWorkConnFromPool,
    PoolResult.pending_zero.sound_tryConns_iff]
  constructor
  · rintro ⟨i, _, hlt, hsettles⟩
    rw [BaseProxy.turns] at hlt
    exact ⟨i, by omega, hsettles⟩
  · rintro ⟨i, hlt, hsettles⟩
    refine ⟨i, by omega, ?_, hsettles⟩
    rw [BaseProxy.turns]
    omega

/-- One connection from the pool, dead: it is closed and returned with no error. -/
theorem getWorkConnFromPool_dead :
    ¬ (BaseProxy.getWorkConnFromPool .bits64 ⟨ascii "web", 0⟩
      (some (ascii "192.0.2.1:5000")) none
      fun _ => ⟨.ok 7, some (ascii "broken pipe")⟩).Sound := by
  intro hsound
  exact hsound.failed (by decide) (by decide)

example : (BaseProxy.startMsg .bits64 ⟨ascii "web", 0⟩
    (some (ascii "192.0.2.1:5000")) none).srcPort = 5000 := by decide

end Server

end Frp
