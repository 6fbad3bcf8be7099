/-
The pool count of a login, from `NewControl` to `HandleUserTCPConnection`.  It is
clamped from above only; then it sizes a channel, counts the first requests of
`Start` and bounds the loop of `GetWorkConnFromPool`.
-/
import Frp.Server.ControlInv
import Frp.Server.WorkConnPool

namespace Frp

open GoInt GoStrings Transition

namespace Server

/-- The machine frps runs on: the width of an `int`, and the largest capacity that
`make` accepts for a channel of connections. -/
structure Platform where
  width : Width
  makeMax : Nat
  fits : makeMax < width.half

/-- 64 bits, with 48 bits of address space and connections of 16 bytes. -/
def Platform.amd64 : Platform := ⟨.bits64, 17592186044410, by decide⟩

/-- The pool count that a Login message carries. -/
structure Login (w : Width) where
  poolCount : Int
  holds : w.Holds poolCount

/-- `makechan: size out of range`. -/
inductive Panic where
  | makechan
deriving DecidableEq, Repr

def Login.clamp {w : Width} (login : Login w) (maxPoolCount : Int) : Int :=
  if login.poolCount > w.wrap maxPoolCount then w.wrap maxPoolCount
  else login.poolCount

theorem Login.holds_clamp {w : Width} (login : Login w) (maxPoolCount : Int) :
    w.Holds (login.clamp maxPoolCount) := by
  unfold clamp
  split
  · exact Width.holds_wrap maxPoolCount
  · exact login.holds

/-- `NewControl`, as far as the pool count goes. -/
def newControl (p : Platform) (login : Login p.width) (maxPoolCount : Int)
    (heartbeat : Bool) : Except Panic Config :=
  if hsize : 0 ≤ p.width.wrap (login.clamp maxPoolCount + 10) ∧
      p.width.wrap (login.clamp maxPoolCount + 10) ≤ p.makeMax then
    .ok ⟨login.clamp maxPoolCount, heartbeat,
      Width.nonneg_of_wrap (login.holds_clamp maxPoolCount) (by decide)
        hsize.1⟩
  else .error .makechan

/-- A user connection: its addresses, the verdict of the plugins, the error of
`WithEncryption`, and what the pool has for it. -/
structure UserConn where
  remoteAddr : Bytes
  localAddr : Bytes
  rejected : Option Bytes
  encryptionErr : Option Bytes
  attempts : Nat → Attempt

inductive UserEnding where
  | rejected (err : Bytes)
  | noWorkConn (err : Bytes)
  | noEncryption (err : Bytes)
  | joined (workConn : Nat)
  | panicked
deriving DecidableEq, Repr

/-- How the handler ended and which work connections it has closed by then. -/
structure UserResult where
  ending : UserEnding
  closed : List Nat
deriving DecidableEq, Repr

/-- `HandleUserTCPConnection`.  A nil work connection panics where its `Close` is
deferred. -/
def handleUserTCPConnection (w : Width) (pxy : BaseProxy)
    (useEncryption : Bool) (user : UserConn) : UserResult :=
  match user.rejected with
  | some err => ⟨.rejected err, []⟩
  | none =>
      let pool := pxy.getWorkConnFromPool w (some user.remoteAddr)
        (some user.localAddr) user.attempts
      match pool.err with
      | some err => ⟨.noWorkConn err, pool.closed⟩
      | none =>
          match pool.workConn with
          | none => ⟨.panicked, pool.closed⟩
          | some conn =>
              match useEncryption, user.encryptionErr with
              | true, some err => ⟨.noEncryption err, pool.closed ++ [conn]⟩
              | _, _ => ⟨.joined conn, pool.closed ++ [conn]⟩

/-- No goroutine of a Control panics over its pool count: its channel has the
capacity asked for, `Start` goes through, and every user connection is handled
with a connection or an error. -/
structure Config.Quiet (p : Platform) (cfg : Config) : Prop where
  capacity : (cfg.workConnCap : Int) = p.width.wrap (cfg.poolCount + 10)
  start : ∀ word s, (system cfg).Reaches word s → s.start ≠ .panicked
  pool : ∀ name src dst attempts,
    let pool := BaseProxy.getWorkConnFromPool p.width ⟨name, cfg.poolCount⟩
      src dst attempts
    pool.err = none → pool.workConn ≠ none
  user : ∀ name useEncryption user,
    (handleUserTCPConnection p.width ⟨name, cfg.poolCount⟩ useEncryption
      user).ending ≠ .panicked

/-- The login goes through and its Control is quiet. -/
def Login.Safe (p : Platform) (login : Login p.width) (maxPoolCount : Int)
    (heartbeat : Bool) : Prop :=
  ∃ cfg, newControl p login maxPoolCount heartbeat = .ok cfg ∧ cfg.Quiet p

theorem newControl_eq_ok_iff {p : Platform} {login : Login p.width}
    {maxPoolCount : Int} {heartbeat : Bool} {cfg : Config} :
    newControl p login maxPoolCount heartbeat = .ok cfg ↔
      (0 ≤ p.width.wrap (login.clamp maxPoolCount + 10) ∧
        p.width.wrap (login.clamp maxPoolCount + 10) ≤ p.makeMax) ∧
      cfg.poolCount = login.clamp maxPoolCount ∧
      cfg.heartbeat = heartbeat := by
  unfold newControl
  split
  · rename_i hsize
    rw [Except.ok.injEq]
    obtain ⟨poolCount, beat, fits⟩ := cfg
    simp only [Config.mk.injEq]
    constructor
    · rintro ⟨rfl, rfl⟩
      exact ⟨hsize, rfl, rfl⟩
    · rintro ⟨_, rfl, rfl⟩
      exact ⟨rfl, rfl⟩
  · rename_i hsize
    constructor
    · intro hok
      cases hok
    · rintro ⟨hfits, _⟩
      exact absurd hfits hsize

/-- Once the loop has had a connection, or has a turn to go, it does not return
without one and without an error. -/
theorem workConn_tryConns (start : StartWorkConn) (attempts : Nat → Attempt)
    (left : Nat) {turn : Nat} {r : PoolResult}
    (hturn : 0 < left ∨ r.workConn ≠ none)
    (hnoError : (tryConns start attempts left turn r).err = none) :
    (tryConns start attempts left turn r).workConn ≠ none := by
  induction left generalizing turn r with
  | zero =>
      rcases hturn with hleft | hconn
      · omega
      · exact hconn
  | succ left ih =>
      cases hconn : (attempts turn).conn with
      | error err =>
          rw [tryConns_error hconn] at hnoError
          cases hnoError
      | ok conn =>
          cases hwrite : writeMsg r.closed conn (attempts turn).write with
          | none =>
              rw [tryConns_written hconn hwrite]
              exact Option.some_ne_none conn
          | some err =>
              rw [tryConns_refused hconn hwrite] at hnoError ⊢
              exact ih (Or.inr (Option.some_ne_none conn)) hnoError

/-- A pool count below zero leaves the loop without a turn. -/
theorem getWorkConnFromPool_of_neg {w : Width} {pxy : BaseProxy}
    (hholds : w.Holds pxy.poolCount) (hneg : pxy.poolCount < 0)
    (src dst : Option Bytes) (attempts : Nat → Attempt) :
    pxy.getWorkConnFromPool w src dst attempts = .zero := by
  have hturns : pxy.turns w = 0 := by
    have hpos := w.half_pos
    obtain ⟨hlow, hhigh⟩ := hholds
    rw [BaseProxy.turns, Width.wrap_of_holds ⟨by omega, by omega⟩]
    omega
  rw [BaseProxy.getWorkConnFromPool, hturns, tryConns]

theorem getWorkConnFromPool_workConn {w : Width} {pxy : BaseProxy}
    (hlow : 0 ≤ pxy.poolCount) (hhigh : pxy.poolCount + 1 < w.half)
    {src dst : Option Bytes} {attempts : Nat → Attempt}
    (hnoError : (pxy.getWorkConnFromPool w src dst attempts).err = none) :
    (pxy.getWorkConnFromPool w src dst attempts).workConn ≠ none := by
  refine workConn_tryConns _ attempts _ (Or.inl ?_) hnoError
  rw [BaseProxy.turns, Width.wrap_of_holds ⟨by omega, hhigh⟩]
  omega

/-- The handler panics only over a nil connection from the pool. -/
theorem handleUserTCPConnection_panicked_iff {w : Width} {pxy : BaseProxy}
    {useEncryption : Bool} {user : UserConn} :
    (handleUserTCPConnection w pxy useEncryption user).ending = .panicked ↔
      user.rejected = none ∧
      (pxy.getWorkConnFromPool w (some user.remoteAddr) (some user.localAddr)
        user.attempts).err = none ∧
      (pxy.getWorkConnFromPool w (some user.remoteAddr) (some user.localAddr)
        user.attempts).workConn = none := by
  unfold handleUserTCPConnection
  split
  · rename_i err hrejected
    simp [hrejected]
  · rename_i hrejected
    dsimp only
    split
    · rename_i err herr
      simp [herr]
    · rename_i herr
      split
      · rename_i hconn
        simp [hrejected, herr, hconn]
      · rename_i conn hconn
        split <;> simp [hconn]

/-- A Control with a pool count from zero on never panics over it. -/
theorem Config.quiet_of_nonneg {p : Platform} {cfg : Config}
    (hlow : 0 ≤ cfg.poolCount) (hhigh : cfg.poolCount + 10 < p.width.half) :
    cfg.Quiet p where
  capacity := by
    rw [Width.wrap_of_holds ⟨by omega, hhigh⟩, Config.workConnCap]
    omega
  start word s hreach := (inv_of_reaches hreach).startSafe
  pool name src dst attempts := by
    intro pool hnoError
    exact getWorkConnFromPool_workConn hlow (by dsimp only; omega) hnoError
  user name useEncryption user hpanicked := by
    obtain ⟨_, hnoError, hnil⟩ :=
      handleUserTCPConnection_panicked_iff.mp hpanicked
    exact getWorkConnFromPool_workConn hlow (by dsimp only; omega) hnoError hnil

theorem Config.Quiet.nonneg {p : Platform} {cfg : Config}
    (hquiet : cfg.Quiet p) (hholds : p.width.Holds cfg.poolCount) :
    0 ≤ cfg.poolCount := by
  by_contra hneg
  have hzero : (⟨[], cfg.poolCount⟩ : BaseProxy).getWorkConnFromPool p.width
      none none (fun _ => ⟨.ok 0, none⟩) = .zero :=
    getWorkConnFromPool_of_neg hholds (by dsimp only; omega) none none _
  refine hquiet.pool [] none none (fun _ => ⟨.ok 0, none⟩) ?_ ?_
  · rw [hzero]
    rfl
  · rw [hzero]
    rfl

/-- A login leaves frps running exactly when its pool count and its bound are not
negative and the channel for the smaller one can be made. -/
theorem Login.safe_iff (p : Platform) (login : Login p.width)
    (maxPoolCount : Int) (heartbeat : Bool) :
    login.Safe p maxPoolCount heartbeat ↔
      0 ≤ login.poolCount ∧ 0 ≤ p.width.wrap maxPoolCount ∧
        min login.poolCount (p.width.wrap maxPoolCount) + 10 ≤ p.makeMax := by
  have hclamp : login.clamp maxPoolCount =
      min login.poolCount (p.width.wrap maxPoolCount) := by
    unfold clamp
    split <;> omega
  have hbig := p.fits
  have hholds := login.holds_clamp maxPoolCount
  constructor
  · rintro ⟨cfg, hok, hquiet⟩
    obtain ⟨⟨hsize, hmake⟩, hcount, _⟩ := newControl_eq_ok_iff.mp hok
    have hnonneg := hquiet.nonneg (hcount ▸ hholds)
    rw [hcount] at hnonneg
    have hsmall : login.clamp maxPoolCount + 10 < p.width.half := by
      by_contra hlarge
      have hroom : 10 ≤ p.width.half := by
        cases p.width <;> decide
      have hneg := @Width.wrap_neg_of_half_le p.width
        (login.clamp maxPoolCount + 10) (by omega)
        (by have := hholds.2; omega)
      omega
    rw [Width.wrap_of_holds ⟨by omega, hsmall⟩] at hmake
    omega
  · rintro ⟨hlogin, hbound, hmake⟩
    have hlow : 0 ≤ login.clamp maxPoolCount := by omega
    have hhigh : login.clamp maxPoolCount + 10 < p.width.half := by omega
    refine ⟨⟨login.clamp maxPoolCount, heartbeat, by omega⟩,
      newControl_eq_ok_iff.mpr ⟨?_, rfl, rfl⟩,
      Config.quiet_of_nonneg hlow hhigh⟩
    rw [Width.wrap_of_holds ⟨by omega, hhigh⟩]
    omega

/-- A pool count of minus eleven crashes frps at the login, one of minus one at
the next user connection. -/
theorem Login.not_safe_negative :
    newControl .amd64 ⟨-11, by decide⟩ 5 true = .error .makechan ∧
    ¬ Login.Safe .amd64 ⟨-11, by decide⟩ 5 true ∧
    ¬ Login.Safe .amd64 ⟨-1, by decide⟩ 5 true := by
  refine ⟨rfl, ?_, ?_⟩
  · rintro ⟨cfg, hok, _⟩
    have hsize := (newControl_eq_ok_iff.mp hok).1.1
    exact absurd hsize (by decide)
  · rintro ⟨cfg, hok, hquiet⟩
    have hcount := (newControl_eq_ok_iff.mp hok).2.1
    have hnonneg := hquiet.nonneg (hcount ▸ by decide)
    rw [hcount] at hnonneg
    exact absurd hnonneg (by decide)

end Server

end Frp
