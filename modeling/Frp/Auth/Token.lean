/-
Token authentication, `pkg/auth/token.go`: frpc signs Login, Ping and NewWorkConn
with a digest of the token and a timestamp, frps makes the digest again with its
own token.  Either side has its own switches for pings and work connections.
-/
import Frp.Client.ReqWorkConn

namespace Frp

theorem hexDigit_injective {a b : UInt8} (ha : a < 16) (hb : b < 16)
    (hsame : hexDigit a = hexDigit b) : a = b := by
  have hall : ∀ m < 16, ∀ n < 16, hexDigit (UInt8.ofNat m) =
      hexDigit (UInt8.ofNat n) → m = n := by decide
  have hnat := hall a.toNat (UInt8.lt_iff_toNat_lt.mp ha) b.toNat
    (UInt8.lt_iff_toNat_lt.mp hb)
  simp only [UInt8.ofNat_toNat] at hnat
  exact UInt8.toNat_inj.mp (hnat hsame)

/-- The two digits of a byte determine it. -/
theorem hexDigits_injective {a b : UInt8}
    (hhigh : hexDigit (a / 16) = hexDigit (b / 16))
    (hlow : hexDigit (a % 16) = hexDigit (b % 16)) : a = b := by
  have hbound : ∀ c : UInt8, c / 16 < 16 ∧ c % 16 < 16 := by
    intro c
    have hc := c.toNat_lt
    constructor
    · rw [UInt8.lt_iff_toNat_lt, UInt8.toNat_div]
      exact Nat.div_lt_of_lt_mul (by simpa using hc)
    · rw [UInt8.lt_iff_toNat_lt, UInt8.toNat_mod]
      exact Nat.mod_lt _ (by decide)
  have hdiv := congrArg UInt8.toNat
    (hexDigit_injective (hbound a).1 (hbound b).1 hhigh)
  have hmod := congrArg UInt8.toNat
    (hexDigit_injective (hbound a).2 (hbound b).2 hlow)
  rw [UInt8.toNat_div, UInt8.toNat_div] at hdiv
  rw [UInt8.toNat_mod, UInt8.toNat_mod] at hmod
  have ha := Nat.div_add_mod a.toNat (16 : UInt8).toNat
  have hb := Nat.div_add_mod b.toNat (16 : UInt8).toNat
  rw [hdiv, hmod] at ha
  exact UInt8.toNat_inj.mp (ha.symm.trans hb)

theorem hexEncode_injective {data data' : List UInt8}
    (hsame : hexEncode data = hexEncode data') : data = data' := by
  have hchars := congrArg String.toList hsame
  simp only [hexEncode, String.toList_ofList] at hchars
  clear hsame
  induction data generalizing data' with
  | nil =>
      cases data' with
      | nil => rfl
      | cons byte rest => simp at hchars
  | cons byte rest ih =>
      cases data' with
      | nil => simp at hchars
      | cons byte' rest' =>
          simp only [List.flatMap_cons, List.cons_append, List.nil_append,
            List.cons.injEq] at hchars
          obtain ⟨hhigh, hlow, hrest⟩ := hchars
          rw [hexDigits_injective hhigh hlow, ih hrest]

/-- The two texts do not have one digest by accident. -/
def NoCollision (md5 : String → List UInt8) (text text' : String) : Prop :=
  md5 text = md5 text' → text = text'

/-- With one timestamp, one key means one token. -/
theorem getAuthKey_injective {md5 : String → List UInt8} {token token' : String}
    {timestamp : Int} (hcollision : NoCollision md5
      (token ++ toString timestamp) (token' ++ toString timestamp))
    (hsame : getAuthKey md5 token timestamp = getAuthKey md5 token' timestamp) :
    token = token' := by
  have htext := hcollision (hexEncode_injective hsame)
  have hlist := congrArg String.toList htext
  rw [String.toList_append, String.toList_append, List.append_left_inj] at hlist
  exact String.toList_inj.mp hlist

structure TokenAuthSetterVerifier where
  base : AuthBaseConfig
  token : String

namespace TokenAuth

/-- The fields of a Login message that authentication reads and writes. -/
structure Login where
  privilegeKey : String
  timestamp : Int
deriving DecidableEq, Repr

structure Ping where
  privilegeKey : String
  timestamp : Int
deriving DecidableEq, Repr

/-- The key of a message against the token, with the error of the caller. -/
def checkKey (md5 : String → List UInt8) (token : String) (timestamp : Int)
    (privilegeKey errText : String) : Except String Unit :=
  if getAuthKey md5 token timestamp ≠ privilegeKey then .error errText else .ok ()

variable (md5 : String → List UInt8) (auth : TokenAuthSetterVerifier)

def setLogin (m : Login) : Login :=
  { m with privilegeKey := getAuthKey md5 auth.token m.timestamp }

def setPing (now : Int) (m : Ping) : Ping :=
  if auth.base.authenticateHeartBeats then
    ⟨getAuthKey md5 auth.token now, now⟩
  else m

def setNewWorkConn (now : Int) (m : NewWorkConn) : NewWorkConn :=
  if auth.base.authenticateNewWorkConns then
    { m with
      timestamp := now
      privilegeKey := getAuthKey md5 auth.token now }
  else m

def verifyLogin (m : Login) : Except String Unit :=
  checkKey md5 auth.token m.timestamp m.privilegeKey
    "token in login doesn't match token from configuration"

def verifyPing (m : Ping) : Except String Unit :=
  if auth.base.authenticateHeartBeats then
    checkKey md5 auth.token m.timestamp m.privilegeKey
      "token in heartbeat doesn't match token from configuration"
  else .ok ()

def verifyNewWorkConn (m : NewWorkConn) : Except String Unit :=
  if auth.base.authenticateNewWorkConns then
    checkKey md5 auth.token m.timestamp m.privilegeKey
      "token in NewWorkConn doesn't match token from configuration"
  else .ok ()

/-- The setter that `HandleReqWorkConn` calls. -/
theorem setNewWorkConn_eq (now : Int) (tokenObj : Except String String)
    (m : NewWorkConn) :
    (AuthSetter.tokenAuth auth.base auth.token).setNewWorkConn md5 now tokenObj m =
      (setNewWorkConn md5 auth now m, none) := by
  cases hswitch : auth.base.authenticateNewWorkConns with
  | true => simp [AuthSetter.setNewWorkConn, setNewWorkConn, hswitch]
  | false => simp [AuthSetter.setNewWorkConn, setNewWorkConn, hswitch]

variable {md5 auth}

theorem checkKey_eq_ok_iff {token privilegeKey errText : String}
    {timestamp : Int} :
    checkKey md5 token timestamp privilegeKey errText = .ok () ↔
      getAuthKey md5 token timestamp = privilegeKey := by
  by_cases hkey : getAuthKey md5 token timestamp = privilegeKey
  · simp [checkKey, hkey]
  · simp [checkKey, hkey]

/-- A key of another token is recognised. -/
theorem checkKey_getAuthKey_iff {token token' errText : String} {timestamp : Int}
    (hcollision : NoCollision md5 (token' ++ toString timestamp)
      (token ++ toString timestamp)) :
    checkKey md5 token' timestamp (getAuthKey md5 token timestamp) errText =
      .ok () ↔ token = token' := by
  rw [checkKey_eq_ok_iff]
  constructor
  · intro hsame
    exact (getAuthKey_injective hcollision hsame).symm
  · rintro rfl
    rfl

/-- A message without a key is refused: a digest is not empty. -/
theorem checkKey_empty {token errText : String} {timestamp : Int}
    (hdigest : ∀ text, md5 text ≠ []) :
    checkKey md5 token timestamp "" errText ≠ .ok () := by
  rw [Ne, checkKey_eq_ok_iff]
  intro hempty
  apply hdigest (token ++ toString timestamp)
  exact hexEncode_injective hempty

/-- A side of a check that is switched by both sides: what passes where frps does
not ask, and where it does. -/
theorem switched_iff {asked given : Bool} {same : Prop}
    {set plain : Except String Unit} (hset : set = .ok () ↔ same)
    (hplain : plain ≠ .ok ()) :
    (if asked then (if given then set else plain) else .ok ()) = .ok () ↔
      (asked = true → given = true ∧ same) := by
  cases asked with
  | false => simp
  | true =>
      cases given with
      | false => simpa using hplain
      | true => simpa using hset

/-- frps takes the login of frpc exactly when the tokens are the same, and its
pings and work connections also where it does not ask for a key. -/
theorem verify_set_iff (hdigest : ∀ text, md5 text ≠ [])
    (client server : TokenAuthSetterVerifier) (now : Int) (runID : String)
    (hcollision : NoCollision md5 (server.token ++ toString now)
      (client.token ++ toString now)) :
    (verifyLogin md5 server (setLogin md5 client ⟨"", now⟩) = .ok () ↔
      client.token = server.token) ∧
    (verifyPing md5 server (setPing md5 client now ⟨"", 0⟩) = .ok () ↔
      (server.base.authenticateHeartBeats = true →
        client.base.authenticateHeartBeats = true ∧
          client.token = server.token)) ∧
    (verifyNewWorkConn md5 server
        (setNewWorkConn md5 client now ⟨runID, "", 0⟩) = .ok () ↔
      (server.base.authenticateNewWorkConns = true →
        client.base.authenticateNewWorkConns = true ∧
          client.token = server.token)) := by
  refine ⟨checkKey_getAuthKey_iff hcollision, ?_, ?_⟩
  · rw [← switched_iff (checkKey_getAuthKey_iff hcollision)
      (checkKey_empty hdigest)]
    unfold verifyPing setPing
    cases client.base.authenticateHeartBeats <;> rfl
  · rw [← switched_iff (checkKey_getAuthKey_iff hcollision)
      (checkKey_empty hdigest)]
    unfold verifyNewWorkConn setNewWorkConn
    cases client.base.authenticateNewWorkConns <;> rfl

/-- A stand-in digest that tells the texts below apart. -/
def sampleDigest (text : String) : List UInt8 :=
  1 :: text.toList.map fun char => UInt8.ofNat char.toNat

/-- Two tokens, and a client that does not sign its pings. -/
theorem verify_set_iff_strangers :
    verifyLogin sampleDigest ⟨⟨true, false⟩, "b"⟩
        (setLogin sampleDigest ⟨⟨false, true⟩, "a"⟩ ⟨"", 1600000000⟩) ≠ .ok () ∧
      verifyPing sampleDigest ⟨⟨true, false⟩, "b"⟩
        (setPing sampleDigest ⟨⟨false, true⟩, "a"⟩ 1600000000 ⟨"", 0⟩) ≠ .ok () ∧
      verifyNewWorkConn sampleDigest ⟨⟨true, false⟩, "b"⟩
        (setNewWorkConn sampleDigest ⟨⟨false, true⟩, "a"⟩ 1600000000
          ⟨"run", "", 0⟩) = .ok () := by
  obtain ⟨hlogin, hping, hworkConn⟩ := @verify_set_iff sampleDigest
    (fun text => by simp [sampleDigest]) ⟨⟨false, true⟩, "a"⟩ ⟨⟨true, false⟩, "b"⟩
    1600000000 "run" (by intro hsame; revert hsame; decide)
  exact ⟨fun hok => absurd (hlogin.mp hok) (by decide),
    fun hok => absurd ((hping.mp hok) rfl).1 (by decide),
    hworkConn.mpr fun hasked => absurd hasked (by decide)⟩

end TokenAuth

end Frp
