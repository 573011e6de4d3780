import FietsOfOv.Lib.Text
import FietsOfOv.TripAlerts

/-!
# Passwords and access tokens

`app/core/security.py`, the account part of `app/schemas/auth.py`, `app/models/user.py`
and `get_current_user` of `app/api/deps.py`.  bcrypt, PyJWT with the signing secret, the
e-mail validator and `str.lower` come in as an `AuthEnv`; what the service relies on in
them is `Bcrypt` and `Jwt`.
-/

namespace FietsOfOv

open Transactional

/-- A row of `users`. -/
structure User where
  id : Nat
  email : String
  hashedPassword : String
  createdAt : Timestamp
deriving DecidableEq

/-- `UserOut`: all but the password hash. -/
structure UserOut where
  id : Nat
  email : String
  createdAt : Timestamp
deriving DecidableEq

def User.out (user : User) : UserOut := ⟨user.id, user.email, user.createdAt⟩

/-- The unique index is on the email; the application never updates a row. -/
def User.schema : Schema User String Empty where
  ident := id
  key := email
  patch := Empty.elim
  ident_patch c := c.elim
  key_patch c := c.elim

/-- What `create_access_token` signs; the moments are `datetime`s, in microseconds. -/
structure Claims where
  sub : String
  exp : Timestamp
  iat : Timestamp
deriving DecidableEq

/-- What `jwt.decode` gives back; `exp` counts whole seconds. -/
structure Payload where
  sub : String
  exp : Int
deriving DecidableEq

/-- PyJWT writes a `datetime` as whole seconds. -/
def wholeSeconds (at_ : Timestamp) : Int := at_ / 1000000

def Claims.payload (claims : Claims) : Payload := ⟨claims.sub, wholeSeconds claims.exp⟩

/-- The libraries and the settings behind authentication. -/
structure AuthEnv where
  /-- `bcrypt.hashpw(password, salt)`; `none` is a `ValueError`. -/
  hashpw : String → String → Option String
  /-- `bcrypt.checkpw(password, hashed)`; `none` is a `ValueError` or `TypeError`. -/
  checkpw : String → String → Option Bool
  /-- `jwt.encode`. -/
  encode : Claims → String
  /-- `jwt.decode` at a moment, `exp` and `sub` required; `none` is a `PyJWTError`. -/
  decode : Timestamp → String → Option Payload
  /-- The address `EmailStr` makes of a text. -/
  emailStr : String → Option String
  /-- `str.lower`. -/
  lower : String → String
  dummyPasswordHash : String
  accessTokenExpireMinutes : Int

/-- What PyJWT promises of tokens. -/
structure Jwt (env : AuthEnv) : Prop where
  /-- From the second its `exp` names on, a token is refused. -/
  expires : ∀ {now token payload}, env.decode now token = some payload →
    now < payload.exp * 1000000
  /-- Until then, and from the second of `iat` on, what was signed is read back. -/
  accepts : ∀ {now} {claims : Claims}, 0 ≤ claims.iat → wholeSeconds claims.iat * 1000000 ≤ now →
    now < wholeSeconds claims.exp * 1000000 →
    env.decode now (env.encode claims) = some claims.payload

/-- A password verifies against each of its hashes. -/
def Bcrypt (env : AuthEnv) : Prop :=
  ∀ {password salt hashed}, env.hashpw password salt = some hashed →
    env.checkpw password hashed = some true

namespace AuthEnv

variable (env : AuthEnv)

/-- `verify_password`: what makes bcrypt raise is no match. -/
def verifyPassword (password hashed : String) : Bool :=
  match env.checkpw password hashed with
  | some result => result
  | none => false

/-- The payload of `create_access_token`; a lifetime of zero is as good as none. -/
def accessClaims (subject : String) (expiresDelta : Option Int) (now : Timestamp) : Claims :=
  let configured := env.accessTokenExpireMinutes * 60000000
  let delta := match expiresDelta with
    | some delta => if delta = 0 then configured else delta
    | none => configured
  ⟨subject, now + delta, now⟩

/-- `create_access_token`. -/
def createAccessToken (subject : String) (expiresDelta : Option Int) (now : Timestamp) : String :=
  env.encode (env.accessClaims subject expiresDelta now)

/-- `decode_token`; `none` is the `TokenError`. -/
def decodeToken (now : Timestamp) (token : String) : Option String :=
  match env.decode now token with
  | some payload => if payload.sub = "" then none else some payload.sub
  | none => none

/-- `text.strip().lower()`. -/
def canonical (text : String) : String := env.lower (String.ofList (Text.strip text.toList))

end AuthEnv

/-- `UserCreate`: a body that passed validation. -/
structure UserCreate where
  email : String
  password : String

/-- `EmailStr`, `_normalize_email`, `Field(min_length=8)` and `_within_bcrypt_limit`. -/
def AuthEnv.userCreate (env : AuthEnv) (email password : String) : Option UserCreate :=
  match env.emailStr email with
  | some address =>
      if password.length < 8 then none
      else if 72 < password.utf8ByteSize then none
      else some ⟨env.canonical address, password⟩
  | none => none

def credentialsError : Refusal := .http 401 "could not validate credentials"

def invalidCredentials : Refusal := .http 401 "incorrect email or password"

def internalServerError : Refusal := .http 500 "Internal Server Error"

/-- `scalar_one_or_none` and `session.get` over the committed rows. -/
def oneOrNone (rows : List User) : Except Refusal (Option User) :=
  match rows with
  | [] => .ok none
  | [user] => .ok (some user)
  | _ => .error internalServerError

/-- `get_current_user`; asyncpg refuses a number that is no int4. -/
def AuthEnv.getCurrentUser (env : AuthEnv) (users : List User) (now : Timestamp)
    (token : String) : Except Refusal User :=
  match env.decodeToken now token with
  | none => .error credentialsError
  | some subject =>
      match Text.int subject.toList with
      | none => .error credentialsError
      | some userId =>
          if userId < -2147483648 ∨ 2147483647 < userId then .error internalServerError
          else
            match users.find? fun user => (user.id : Int) = userId with
            | some user => .ok user
            | none => .error credentialsError

/-! ## A plain environment

Passwords and payloads in the clear, for runs on concrete requests. -/

def plainEncode (claims : Claims) : String :=
  String.ofList (Nat.toDigits 10 (wholeSeconds claims.exp).toNat ++
    '.' :: (Nat.toDigits 10 (wholeSeconds claims.iat).toNat ++ '.' :: claims.sub.toList))

def plainDecode (now : Timestamp) (token : String) : Option Payload :=
  match Text.splitOnce '.' token.toList with
  | some (exp, rest) =>
      match Text.splitOnce '.' rest with
      | some (iat, sub) =>
          let expires : Int := Nat.ofDigitChars 10 exp 0
          let issued : Int := Nat.ofDigitChars 10 iat 0
          if issued * 1000000 ≤ now ∧ now < expires * 1000000 then
            some ⟨String.ofList sub, expires⟩
          else none
      | none => none
  | none => none

def plainEnv : AuthEnv where
  hashpw password salt :=
    if salt.length = 22 then some ("$2b$12$" ++ salt ++ password) else none
  checkpw password hashed := some (hashed.toList.drop 29 = password.toList)
  encode := plainEncode
  decode := plainDecode
  emailStr text := if text.toList.contains '@' then some text else none
  lower := Text.asciiLower
  dummyPasswordHash := "$2b$12$......................not-a-real-password-timing-equaliser"
  accessTokenExpireMinutes := 60

theorem plainEnv_bcrypt : Bcrypt plainEnv := by
  intro password salt hashed h
  simp only [plainEnv] at h ⊢
  split at h
  · rename_i hsalt
    cases h
    rw [Option.some.injEq, decide_eq_true_eq, String.toList_append, List.drop_left' (by
      rw [String.length_toList, String.length_append, hsalt]
      rfl)]
  · cases h

theorem splitOnce_toDigits (n : Nat) (rest : List Char) :
    Text.splitOnce '.' (Nat.toDigits 10 n ++ '.' :: rest) = some (Nat.toDigits 10 n, rest) := by
  have hdigits : ∀ c ∈ Nat.toDigits 10 n, c ≠ '.' := by
    rintro c hc rfl
    exact absurd (Nat.isDigit_of_mem_toDigits (by decide) (by decide) hc) (by decide)
  generalize Nat.toDigits 10 n = digits at hdigits
  induction digits with
  | nil => rfl
  | cons c digits ih =>
      rw [List.forall_mem_cons] at hdigits
      rw [List.cons_append, Text.splitOnce, if_neg hdigits.1, ih hdigits.2]
      rfl

theorem plainEnv_jwt : Jwt plainEnv where
  expires := by
    intro now token payload h
    simp only [plainEnv, plainDecode] at h
    split at h
    · split at h
      · split at h
        · rename_i hlive
          cases h
          exact hlive.2
        · cases h
      · cases h
    · cases h
  accepts := by
    intro now claims hiat hissued hlive
    have hiat' : 0 ≤ wholeSeconds claims.iat := Int.ediv_nonneg hiat (by decide)
    have hexp : 0 ≤ wholeSeconds claims.exp := by omega
    simp only [plainEnv, plainDecode, plainEncode, String.toList_ofList, splitOnce_toDigits,
      Nat.ofDigitChars_toDigits (b := 10) (by decide) (by decide), Int.toNat_of_nonneg hiat',
      Int.toNat_of_nonneg hexp, hissued, hlive, and_self, if_true, String.ofList_toList]
    rfl

end FietsOfOv
