/-
The OIDC verifier of `pkg/auth/oidc.go`.  One verifier serves all clients of
frps: `RegisterControl` calls it for every login, the Controls for every ping
and `RegisterWorkConn` for every work connection, and the subject of the last
login stands in one field.  Which tokens are valid is left to `verify`.
-/
import Frp.Lib.GoStrings

namespace Frp

open GoStrings

/-- The switches of `BaseConfig` that the verifier reads. -/
structure AuthBaseConfig where
  authenticateHeartBeats : Bool
  authenticateNewWorkConns : Bool
deriving DecidableEq, Repr

structure OidcAuthConsumer where
  base : AuthBaseConfig
  subjectFromLogin : Bytes
deriving DecidableEq, Repr

/-- A call of the verifier on behalf of the client with this run id. -/
inductive VerifierCall where
  | verifyLogin (runID privilegeKey : Bytes)
  | verifyPing (runID privilegeKey : Bytes)
  | verifyNewWorkConn (runID privilegeKey : Bytes)
deriving DecidableEq, Repr

namespace OidcAuthConsumer

def newOidcAuthVerifier (base : AuthBaseConfig) : OidcAuthConsumer :=
  ⟨base, []⟩

variable (verify : Bytes → Except Bytes Bytes)

def verifyLogin (auth : OidcAuthConsumer) (privilegeKey : Bytes) :
    OidcAuthConsumer × Except Bytes Unit :=
  match verify privilegeKey with
  | .error err => (auth, .error (ascii "invalid OIDC token in login: " ++ err))
  | .ok subject => ({ auth with subjectFromLogin := subject }, .ok ())

def verifyPostLoginToken (auth : OidcAuthConsumer) (privilegeKey : Bytes) :
    Except Bytes Unit :=
  match verify privilegeKey with
  | .error err => .error (ascii "invalid OIDC token in ping: " ++ err)
  | .ok subject =>
      if subject ≠ auth.subjectFromLogin then
        .error (ascii "received different OIDC subject in login and ping. " ++
          ascii "original subject: " ++ auth.subjectFromLogin ++
          ascii ", new subject: " ++ subject)
      else .ok ()

def verifyPing (auth : OidcAuthConsumer) (privilegeKey : Bytes) :
    Except Bytes Unit :=
  if auth.base.authenticateHeartBeats then
    auth.verifyPostLoginToken verify privilegeKey
  else .ok ()

def verifyNewWorkConn (auth : OidcAuthConsumer) (privilegeKey : Bytes) :
    Except Bytes Unit :=
  if auth.base.authenticateNewWorkConns then
    auth.verifyPostLoginToken verify privilegeKey
  else .ok ()

/-- One call: only a login writes the verifier. -/
def call (auth : OidcAuthConsumer) :
    VerifierCall → OidcAuthConsumer × Except Bytes Unit
  | .verifyLogin _ privilegeKey => auth.verifyLogin verify privilegeKey
  | .verifyPing _ privilegeKey => (auth, auth.verifyPing verify privilegeKey)
  | .verifyNewWorkConn _ privilegeKey =>
      (auth, auth.verifyNewWorkConn verify privilegeKey)

/-- The verifier after the calls of all clients, in the order in which they
reach its field. -/
def after (auth : OidcAuthConsumer) (calls : List VerifierCall) :
    OidcAuthConsumer :=
  calls.foldl (fun next c => (next.call verify c).1) auth

end OidcAuthConsumer

namespace VerifierCall

variable (verify : Bytes → Except Bytes Bytes)

/-- The subject that a successful login of one of these clients leaves. -/
def loginSubject (clients : Bytes → Bool) : VerifierCall → Option Bytes
  | .verifyLogin runID privilegeKey =>
      if clients runID then (verify privilegeKey).toOption else none
  | .verifyPing _ _ | .verifyNewWorkConn _ _ => none

/-- The subject of the last successful login of these clients. -/
def lastLogin (clients : Bytes → Bool) (calls : List VerifierCall) :
    Option Bytes :=
  calls.reverse.findSome? (loginSubject verify clients)

end VerifierCall

open VerifierCall

section Verdicts

variable (verify : Bytes → Except Bytes Bytes)

/-- The token is valid and names the subject of the client's own last login. -/
def OwnToken (calls : List VerifierCall) (runID privilegeKey : Bytes) : Prop :=
  ∃ subject, verify privilegeKey = .ok subject ∧
    lastLogin verify (· == runID) calls = some subject

/-- After these calls, a ping and a work connection of the client are accepted
exactly with a token of its own. -/
def IndependentVerdict (calls : List VerifierCall)
    (runID privilegeKey : Bytes) : Prop :=
  let auth := (OidcAuthConsumer.newOidcAuthVerifier ⟨true, true⟩).after verify
    calls
  ((auth.verifyPing verify privilegeKey = .ok ()) ↔
      OwnToken verify calls runID privilegeKey) ∧
    ((auth.verifyNewWorkConn verify privilegeKey = .ok ()) ↔
      OwnToken verify calls runID privilegeKey)

/-- The last login of all clients had the subject of the client's own last
login, or the token is invalid, or it names neither of the two.  Before any
login the subject is empty. -/
def Undisturbed (calls : List VerifierCall) (runID privilegeKey : Bytes) :
    Prop :=
  let last := (lastLogin verify (fun _ => true) calls).getD []
  let own := lastLogin verify (· == runID) calls
  own = some last ∨
    ∀ subject, verify privilegeKey = .ok subject →
      subject ≠ last ∧ own ≠ some subject

end Verdicts

namespace OidcAuthConsumer

variable {verify : Bytes → Except Bytes Bytes}

theorem verifyPostLoginToken_eq_ok_iff {auth : OidcAuthConsumer}
    {privilegeKey : Bytes} :
    auth.verifyPostLoginToken verify privilegeKey = .ok () ↔
      verify privilegeKey = .ok auth.subjectFromLogin := by
  unfold verifyPostLoginToken
  cases verify privilegeKey with
  | error err => simp
  | ok subject => simp

/-- A call leaves the switches alone, and the field as its login says. -/
theorem call_fst (auth : OidcAuthConsumer) (c : VerifierCall) :
    (auth.call verify c).1 = { auth with subjectFromLogin :=
      (c.loginSubject verify fun _ => true).getD auth.subjectFromLogin } := by
  cases c with
  | verifyLogin runID privilegeKey =>
      cases hverify : verify privilegeKey with
      | error err =>
          simp [call, verifyLogin, loginSubject, hverify, Except.toOption]
      | ok subject =>
          simp [call, verifyLogin, loginSubject, hverify, Except.toOption]
  | verifyPing _ _ | verifyNewWorkConn _ _ => rfl

/-- The field holds the subject of the last login of all clients. -/
theorem after_eq (auth : OidcAuthConsumer) (calls : List VerifierCall) :
    auth.after verify calls = { auth with subjectFromLogin :=
      (lastLogin verify (fun _ => true) calls).getD auth.subjectFromLogin } := by
  induction calls generalizing auth with
  | nil => rfl
  | cons c calls ih =>
      have hstep : auth.after verify (c :: calls) =
          (auth.call verify c).1.after verify calls := rfl
      rw [hstep, ih, call_fst]
      unfold lastLogin
      rw [List.reverse_cons, List.findSome?_append]
      cases calls.reverse.findSome? (loginSubject verify fun _ => true) with
      | some subject => rfl
      | none =>
          cases hlogin : c.loginSubject verify fun _ => true with
          | some subject => simp [hlogin]
          | none => simp [hlogin]

/-- With both switches on, a ping and a work connection are accepted exactly
when the token names the subject in the field. -/
theorem verdicts_iff (verify : Bytes → Except Bytes Bytes)
    (auth : OidcAuthConsumer) (hbase : auth.base = ⟨true, true⟩)
    (privilegeKey : Bytes) :
    (auth.verifyPing verify privilegeKey = .ok () ↔
        verify privilegeKey = .ok auth.subjectFromLogin) ∧
      (auth.verifyNewWorkConn verify privilegeKey = .ok () ↔
        verify privilegeKey = .ok auth.subjectFromLogin) := by
  simp [verifyPing, verifyNewWorkConn, hbase, verifyPostLoginToken_eq_ok_iff]

end OidcAuthConsumer

/-- A verdict is right exactly when no login of another client stands between
the client and the field that its token is compared with. -/
theorem independentVerdict_iff (verify : Bytes → Except Bytes Bytes)
    (calls : List VerifierCall) (runID privilegeKey : Bytes) :
    IndependentVerdict verify calls runID privilegeKey ↔
      Undisturbed verify calls runID privilegeKey := by
  unfold IndependentVerdict Undisturbed OwnToken
  rw [OidcAuthConsumer.after_eq]
  obtain ⟨hping, hworkConn⟩ := OidcAuthConsumer.verdicts_iff verify
    ⟨⟨true, true⟩, (lastLogin verify (fun _ => true) calls).getD []⟩ rfl
    privilegeKey
  simp only [OidcAuthConsumer.newOidcAuthVerifier, hping, hworkConn, and_self]
  generalize (lastLogin verify (fun _ => true) calls).getD [] = last
  generalize lastLogin verify (· == runID) calls = own
  cases verify privilegeKey with
  | error err => simp
  | ok subject =>
      simp only [Except.ok.injEq, exists_eq_left', forall_eq']
      constructor
      · intro hverdict
        by_cases hlast : subject = last
        · exact Or.inl (hlast ▸ hverdict.mp hlast)
        · exact Or.inr ⟨hlast, fun hown => hlast (hverdict.mpr hown)⟩
      · rintro (hown | ⟨hlast, hown⟩)
        · rw [hown, Option.some.injEq]
          exact eq_comm
        · exact iff_of_false hlast hown

/-- A verifier for which every token is valid and names itself. -/
def selfNamed (privilegeKey : Bytes) : Except Bytes Bytes := .ok privilegeKey

/-- Bob logs in after Alice: her ping is rejected, and a ping under her run id
is accepted with the token of Bob. -/
theorem not_independentVerdict_twoLogins :
    let calls : List VerifierCall :=
      [.verifyLogin (ascii "run-a") (ascii "alice"),
        .verifyLogin (ascii "run-b") (ascii "bob")]
    ¬ IndependentVerdict selfNamed calls (ascii "run-a") (ascii "alice") ∧
      ¬ IndependentVerdict selfNamed calls (ascii "run-a") (ascii "bob") := by
  constructor
  · rintro ⟨hping, _⟩
    have haccepted := hping.mpr ⟨ascii "alice", rfl, by decide⟩
    revert haccepted
    decide
  · rintro ⟨hping, _⟩
    obtain ⟨subject, hsubject, hown⟩ := hping.mp (by decide)
    obtain rfl : ascii "bob" = subject := Except.ok.inj hsubject
    revert hown
    decide

end Frp
