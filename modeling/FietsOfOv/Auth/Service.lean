import FietsOfOv.Auth.Security
import FietsOfOv.Lib.Pool
import FietsOfOv.Lib.Run

/-!
# Accounts and sessions

`app/api/auth.py` next to the trip-alert routes: any number of requests at once, each with
its own database session, switched at every `await`.  A request is an `AuthStage`, named after
what it waits for.  Whatever else happens to the database happens in between: an account
may be deleted, and any statement may fail.
-/

namespace FietsOfOv

open Transactional OwnedRows

/-- A request whose form or body has been decoded. -/
inductive AuthRequest where
  | register (email password : String)
  | token (username password : String)
  | tripAlerts (bearer : String) (request : TripAlertRequest)

deriving instance DecidableEq for TripAlertBody, Geocoded, Insertion, TripAlertRequest

deriving instance DecidableEq for UserCreate, AuthRequest

inductive AuthAnswer where
  | registered (out : UserOut)
  | token (accessToken : String)
  | tripAlerts (answer : TripAlertAnswer)
  | refused (refusal : Refusal)
deriving DecidableEq

/-- What a request waits for. -/
inductive AuthStage where
  /-- `register`, at `hash_password_async`. -/
  | hashing (body : UserCreate)
  /-- `register`, at `session.flush`. -/
  | flushing (email hashedPassword : String)
  /-- `register`, at `session.commit`. -/
  | committing (user : User)
  /-- `login`, at the query. -/
  | selecting (email password : String)
  /-- `login`, at `verify_password_async`; without an account, against the dummy hash. -/
  | verifying (user : Option User) (password : String)
  /-- A trip-alert route, at `get_current_user`. -/
  | authenticating (bearer : String) (request : TripAlertRequest)
  /-- The body of a trip-alert route. -/
  | serving (user : User) (request : TripAlertRequest)
  | answered (answer : AuthAnswer)
deriving DecidableEq

structure AuthSession where
  request : AuthRequest
  stage : AuthStage
deriving DecidableEq

/-- An account that was committed, with the session that made it. -/
structure Registration where
  session : Nat
  user : User

/-- A token that was signed: for whom, on what password, and when. -/
structure Login where
  user : User
  password : String
  at_ : Timestamp

structure Service where
  users : Transactional.Table User Empty
  tripAlerts : TripAlertTable
  sessions : List AuthSession
  /-- History: nothing reads it. -/
  registrations : List Registration
  /-- History: nothing reads it. -/
  logins : List Login
  /-- History: nothing reads it. -/
  deleted : List Nat

inductive ServiceEvent where
  | arrive (request : AuthRequest)
  /-- What the session waits for is there; a salt and the time, for whoever needs them. -/
  | resume (session : Nat) (salt : String) (now : Timestamp)
  /-- What the session waits for fails; a commit may have got through all the same. -/
  | fail (session : Nat) (durable : Bool)
  /-- An account is deleted in the database, its trip alerts with it. -/
  | deleteUser (userId : Nat)

/-- The session that a step moves. -/
def ServiceEvent.mover : ServiceEvent → Option Nat
  | .resume session _ _ => some session
  | .fail session _ => some session
  | _ => none

/-- The claims behind a token. -/
def Login.claims (env : AuthEnv) (login : Login) : Claims :=
  env.accessClaims (toString login.user.id) none login.at_

def emailTaken : Refusal := .http 409 "a user with this email already exists"

/-- Postgres keeps no text with a NUL in it. -/
def storable (text : String) : Bool := text.toList.all (· ≠ '\x00')

namespace Service

def empty : Service := ⟨⟨[], [], 1⟩, ⟨[], 0⟩, [], [], [], []⟩

/-- The first stage of a request. -/
def firstStage (env : AuthEnv) : AuthRequest → AuthStage
  | .register email password =>
      match env.userCreate email password with
      | some body => .hashing body
      | none => .answered (.refused .unprocessable)
  | .token username password => .selecting (env.canonical username) password
  | .tripAlerts bearer request => .authenticating bearer request

def setStage (s : Service) (k : Nat) (request : AuthRequest) (stage : AuthStage) : Service :=
  { s with sessions := s.sessions.set k ⟨request, stage⟩ }

/-- An exception leaves the route: its database session is closed, which rolls back. -/
def refuse (s : Service) (k : Nat) (request : AuthRequest) (refusal : Refusal) : Service :=
  { s with
    users := s.users.rollback k
    sessions := s.sessions.set k ⟨request, .answered (.refused refusal)⟩ }

/-- The commit of `register`. -/
def commitUser (s : Service) (k : Nat) (request : AuthRequest) (user : User)
    (answer : AuthAnswer) : Service :=
  { s with
    users := s.users.commit User.schema k
    sessions := s.sessions.set k ⟨request, .answered answer⟩
    registrations := s.registrations ++ [⟨k, user⟩] }

section Steps

variable (env : AuthEnv) (repr : String → String)

/-- `session.flush` of `register`: a plain `INSERT` waits where `ON CONFLICT DO NOTHING` does
    and raises `IntegrityError` where that skips.  Numbers are int4. -/
def flushUser (s : Service) (k : Nat) (request : AuthRequest) (email hashedPassword : String)
    (createdAt : Timestamp) : Option Service :=
  if 2147483647 < s.users.nextId ∨ storable email = false then
    some (s.refuse k request internalServerError)
  else
    match s.users.insertOnConflictDoNothing User.schema k
        fun id => ⟨id, email, hashedPassword, createdAt⟩ with
    | none => none
    | some (users, none) =>
        some ({ s with users }.refuse k request emailTaken)
    | some (users, some user) => some ({ s with users }.setStage k request (.committing user))

/-- The query of `login`. -/
def selectUser (s : Service) (k : Nat) (request : AuthRequest) (email password : String) :
    Service :=
  if storable email = false then s.refuse k request internalServerError
  else
    match oneOrNone (s.users.rows.filter (·.email = email)) with
    | .ok user => s.setStage k request (.verifying user password)
    | .error refusal => s.refuse k request refusal

/-- `login` from the verification on. -/
def verifyUser (s : Service) (k : Nat) (request : AuthRequest) (user : Option User)
    (password : String) (now : Timestamp) : Service :=
  let hashed := match user with
    | some user => user.hashedPassword
    | none => env.dummyPasswordHash
  match user, env.verifyPassword password hashed with
  | some user, true =>
      { s.setStage k request
          (.answered (.token (env.createAccessToken (toString user.id) none now))) with
        logins := s.logins ++ [⟨user, password, now⟩] }
  | _, _ => s.refuse k request invalidCredentials

/-- A trip alert refers to its owner; where that is gone, the insert violates the foreign
    key. -/
def serveTripAlerts (s : Service) (user : User) (request : TripAlertRequest) :
    TripAlertTable × TripAlertAnswer :=
  match request with
  | .create _ _ _ _ =>
      if s.users.rows.any (·.id = user.id) then
        TripAlertCall.serve repr s.tripAlerts ⟨user.id, request⟩
      else
        match TripAlertCall.serve repr s.tripAlerts ⟨user.id, request⟩ with
        | (_, .created _) => (s.tripAlerts, .refused internalServerError)
        | (_, answer) => (s.tripAlerts, answer)
  | _ => TripAlertCall.serve repr s.tripAlerts ⟨user.id, request⟩

/-- What the session waited for is there. -/
def resume (s : Service) (k : Nat) (request : AuthRequest) (salt : String) (now : Timestamp) :
    AuthStage → Option Service
  | .hashing body =>
      match env.hashpw body.password salt with
      | some hashed => some (s.setStage k request (.flushing body.email hashed))
      | none => some (s.refuse k request internalServerError)
  | .flushing email hashedPassword => s.flushUser k request email hashedPassword now
  | .committing user => some (s.commitUser k request user (.registered user.out))
  | .selecting email password => some (s.selectUser k request email password)
  | .verifying user password => some (s.verifyUser env k request user password now)
  | .authenticating bearer route =>
      match env.getCurrentUser s.users.rows now bearer with
      | .ok user => some (s.setStage k request (.serving user route))
      | .error refusal => some (s.refuse k request refusal)
  | .serving user route =>
      let served := s.serveTripAlerts repr user route
      some { s.setStage k request (.answered (.tripAlerts served.2)) with tripAlerts := served.1 }
  | .answered _ => none

/-- What the session waited for fails. -/
def breakOff (s : Service) (k : Nat) (request : AuthRequest) (durable : Bool) :
    AuthStage → Option Service
  | .answered _ => none
  | .committing user =>
      if durable then some (s.commitUser k request user (.refused internalServerError))
      else some (s.refuse k request internalServerError)
  | .serving user route =>
      let served := s.serveTripAlerts repr user route
      some { s.refuse k request internalServerError with
        tripAlerts := if durable then served.1 else s.tripAlerts }
  | _ => some (s.refuse k request internalServerError)

def step (s : Service) : ServiceEvent → Option Service
  | .arrive request =>
      some { s with sessions := s.sessions ++ [⟨request, firstStage env request⟩] }
  | .resume k salt now =>
      s.sessions[k]?.bind fun session => s.resume env repr k session.request salt now session.stage
  | .fail k durable =>
      s.sessions[k]?.bind fun session => s.breakOff repr k session.request durable session.stage
  | .deleteUser userId =>
      if s.users.rows.any (·.id = userId) then
        some { s with
          users := s.users.delete (·.id = userId)
          tripAlerts := ⟨s.tripAlerts.rows.filter (·.userId ≠ userId), s.tripAlerts.lastId⟩
          deleted := s.deleted ++ [userId] }
      else none

end Steps

end Service

/-! ## What a step does -/

/-- Why what a session waited for ends in a refusal. -/
def RefusedFor (env : AuthEnv) (s : Service) (salt : String) (now : Timestamp) :
    AuthStage → Refusal → Prop
  | .hashing body, refusal =>
      refusal = internalServerError ∧ env.hashpw body.password salt = none
  | .flushing email _, refusal =>
      refusal = internalServerError ∧ (2147483647 < s.users.nextId ∨ storable email = false)
  | .selecting email _, refusal =>
      storable email = false ∧ refusal = internalServerError ∨
        oneOrNone (s.users.rows.filter (·.email = email)) = .error refusal
  | .verifying user password, refusal =>
      refusal = invalidCredentials ∧
        ∀ u, user = some u → env.verifyPassword password u.hashedPassword = false
  | .authenticating bearer _, refusal =>
      env.getCurrentUser s.users.rows now bearer = .error refusal
  | _, _ => False

/-- The kinds of steps of the service; `k` is the session that moves. -/
inductive ServiceMoves (env : AuthEnv) (repr : String → String) (s : Service) :
    ServiceEvent → Service → Prop
  | arrives (request : AuthRequest) :
      ServiceMoves env repr s (.arrive request)
        { s with sessions := s.sessions ++ [⟨request, Service.firstStage env request⟩] }
  | hashes {k : Nat} {request : AuthRequest} {salt : String} {now : Timestamp} {body : UserCreate}
      {hashed : String} (hk : s.sessions[k]? = some ⟨request, .hashing body⟩)
      (hhashed : env.hashpw body.password salt = some hashed) :
      ServiceMoves env repr s (.resume k salt now)
        (s.setStage k request (.flushing body.email hashed))
  | flushes {k : Nat} {request : AuthRequest} {salt : String} {now : Timestamp} {user : User}
      (hk : s.sessions[k]? = some ⟨request, .flushing user.email user.hashedPassword⟩)
      (hid : user.id = s.users.nextId) (hfree : s.users.blocked User.schema k user.email = false)
      (hnew : s.users.taken User.schema k user.email = false)
      (hroom : s.users.nextId ≤ 2147483647) (htext : storable user.email = true) :
      ServiceMoves env repr s (.resume k salt now)
        (({ s with users :=
            ⟨s.users.rows, s.users.uncommitted ++ [(k, .insert user)], s.users.nextId + 1⟩ } :
          Service).setStage k request (.committing user))
  | conflicts {k : Nat} {request : AuthRequest} {salt : String} {now : Timestamp}
      {email hashedPassword : String}
      (hk : s.sessions[k]? = some ⟨request, .flushing email hashedPassword⟩)
      (htaken : s.users.taken User.schema k email = true) :
      ServiceMoves env repr s (.resume k salt now)
        (({ s with users := { s.users with nextId := s.users.nextId + 1 } } : Service).refuse k
          request emailTaken)
  | commits {event : ServiceEvent} {k : Nat} {request : AuthRequest} {user : User}
      {answer : AuthAnswer} (hk : s.sessions[k]? = some ⟨request, .committing user⟩)
      (hanswer : answer = .registered user.out ∨ answer = .refused internalServerError)
      (hmover : event.mover = some k) :
      ServiceMoves env repr s event (s.commitUser k request user answer)
  | selects {k : Nat} {request : AuthRequest} {salt : String} {now : Timestamp}
      {email password : String} {user : Option User}
      (hk : s.sessions[k]? = some ⟨request, .selecting email password⟩)
      (huser : oneOrNone (s.users.rows.filter (·.email = email)) = .ok user) :
      ServiceMoves env repr s (.resume k salt now)
        (s.setStage k request (.verifying user password))
  | signs {k : Nat} {request : AuthRequest} {salt : String} {now : Timestamp} {user : User}
      {password : String} (hk : s.sessions[k]? = some ⟨request, .verifying (some user) password⟩)
      (hverified : env.verifyPassword password user.hashedPassword = true) :
      ServiceMoves env repr s (.resume k salt now)
        { s.setStage k request
            (.answered (.token (env.createAccessToken (toString user.id) none now))) with
          logins := s.logins ++ [⟨user, password, now⟩] }
  | authenticates {k : Nat} {request : AuthRequest} {salt : String} {now : Timestamp}
      {bearer : String} {route : TripAlertRequest} {user : User}
      (hk : s.sessions[k]? = some ⟨request, .authenticating bearer route⟩)
      (huser : env.getCurrentUser s.users.rows now bearer = .ok user) :
      ServiceMoves env repr s (.resume k salt now) (s.setStage k request (.serving user route))
  | serves {k : Nat} {request : AuthRequest} {salt : String} {now : Timestamp} {user : User}
      {route : TripAlertRequest} (hk : s.sessions[k]? = some ⟨request, .serving user route⟩) :
      ServiceMoves env repr s (.resume k salt now)
        { s.setStage k request (.answered (.tripAlerts (s.serveTripAlerts repr user route).2)) with
          tripAlerts := (s.serveTripAlerts repr user route).1 }
  | refuses {k : Nat} {request : AuthRequest} {salt : String} {now : Timestamp} {stage : AuthStage}
      {refusal : Refusal} (hk : s.sessions[k]? = some ⟨request, stage⟩)
      (hwhy : RefusedFor env s salt now stage refusal) :
      ServiceMoves env repr s (.resume k salt now) (s.refuse k request refusal)
  | breaks {k : Nat} {durable : Bool} {request : AuthRequest} {stage : AuthStage}
      {tripAlerts : TripAlertTable} (hk : s.sessions[k]? = some ⟨request, stage⟩)
      (hwaits : ∀ answer, stage ≠ .answered answer)
      (halerts : tripAlerts = s.tripAlerts ∨ ∃ user route, stage = .serving user route ∧
        tripAlerts = (s.serveTripAlerts repr user route).1) :
      ServiceMoves env repr s (.fail k durable)
        { s.refuse k request internalServerError with tripAlerts }
  | deletes {userId : Nat} (hrow : ∃ user ∈ s.users.rows, user.id = userId) :
      ServiceMoves env repr s (.deleteUser userId)
        { s with
          users := s.users.delete (·.id = userId)
          tripAlerts := ⟨s.tripAlerts.rows.filter (·.userId ≠ userId), s.tripAlerts.lastId⟩
          deleted := s.deleted ++ [userId] }

section Inversion

variable {env : AuthEnv} {repr : String → String} {s s' : Service}

theorem resume_moves {k : Nat} {request : AuthRequest} {salt : String} {now : Timestamp}
    {stage : AuthStage} (hk : s.sessions[k]? = some ⟨request, stage⟩)
    (h : s.resume env repr k request salt now stage = some s') :
    ServiceMoves env repr s (.resume k salt now) s' := by
  cases stage with
  | hashing body =>
      simp only [Service.resume] at h
      split at h
      · rename_i hashed hhashed
        cases h
        exact .hashes hk hhashed
      · rename_i hnone
        cases h
        exact .refuses hk ⟨rfl, hnone⟩
  | flushing email hashedPassword =>
      simp only [Service.resume, Service.flushUser] at h
      split at h
      · rename_i hbad
        cases h
        exact .refuses hk ⟨rfl, hbad⟩
      · rename_i hgood
        rw [not_or, not_lt, Bool.not_eq_false] at hgood
        split at h
        · cases h
        · rename_i users hinsert
          rcases Table.insert_cases User.schema hinsert with ⟨-, rfl, htaken⟩ | ⟨hsome, -⟩
          · cases h
            exact .conflicts hk htaken
          · cases hsome
        · rename_i users user hinsert
          rcases Table.insert_cases User.schema hinsert with ⟨hnone, -⟩ | ⟨hsome, rfl, hfree, hnew⟩
          · cases hnone
          · cases hsome
            cases h
            exact @ServiceMoves.flushes env repr s k request salt now
              ⟨s.users.nextId, email, hashedPassword, now⟩ hk rfl hfree hnew hgood.1 hgood.2
  | committing user =>
      cases h
      exact .commits hk (Or.inl rfl) rfl
  | selecting email password =>
      simp only [Service.resume, Service.selectUser, Option.some.injEq] at h
      split at h
      · rename_i hbad
        subst h
        exact .refuses hk (Or.inl ⟨hbad, rfl⟩)
      · split at h
        · rename_i user huser
          subst h
          exact .selects hk huser
        · rename_i refusal hrefusal
          subst h
          exact .refuses hk (Or.inr hrefusal)
  | verifying user password =>
      simp only [Service.resume, Service.verifyUser, Option.some.injEq] at h
      cases user with
      | none =>
          subst h
          exact .refuses hk ⟨rfl, fun u hu => by cases hu⟩
      | some user =>
          cases hverify : env.verifyPassword password user.hashedPassword with
          | true =>
              simp only [hverify] at h
              subst h
              exact .signs hk hverify
          | false =>
              simp only [hverify] at h
              subst h
              refine .refuses hk ⟨rfl, ?_⟩
              rintro u hu
              cases hu
              exact hverify
  | authenticating bearer route =>
      simp only [Service.resume] at h
      split at h
      · rename_i user huser
        cases h
        exact .authenticates hk huser
      · rename_i refusal hrefusal
        cases h
        exact .refuses hk hrefusal
  | serving user route =>
      cases h
      exact .serves hk
  | answered answer => cases h

theorem breakOff_moves {k : Nat} {request : AuthRequest} {durable : Bool} {stage : AuthStage}
    (hk : s.sessions[k]? = some ⟨request, stage⟩)
    (h : s.breakOff repr k request durable stage = some s') :
    ServiceMoves env repr s (.fail k durable) s' := by
  have hplain : (∀ answer, stage ≠ .answered answer) →
      some (s.refuse k request internalServerError) = some s' →
      ServiceMoves env repr s (.fail k durable) s' := by
    intro hwaits heq
    cases heq
    exact .breaks hk hwaits (Or.inl rfl)
  cases stage with
  | committing user =>
      cases durable with
      | true =>
          cases h
          exact .commits hk (Or.inr rfl) rfl
      | false => exact hplain (fun _ heq => by cases heq) h
  | serving user route =>
      cases h
      refine .breaks hk (fun _ heq => by cases heq) ?_
      cases durable with
      | true => exact Or.inr ⟨user, route, rfl, rfl⟩
      | false => exact Or.inl rfl
  | answered answer => cases h
  | _ => exact hplain (fun _ heq => by cases heq) h

theorem service_moves {event : ServiceEvent} (h : s.step env repr event = some s') :
    ServiceMoves env repr s event s' := by
  cases event with
  | arrive request =>
      cases h
      exact .arrives request
  | resume k salt now =>
      obtain ⟨⟨request, stage⟩, hk, hresume⟩ := Option.bind_eq_some_iff.mp h
      exact resume_moves hk hresume
  | fail k durable =>
      obtain ⟨⟨request, stage⟩, hk, hbreak⟩ := Option.bind_eq_some_iff.mp h
      exact breakOff_moves hk hbreak
  | deleteUser userId =>
      simp only [Service.step] at h
      split at h
      · rename_i hrow
        cases h
        exact .deletes (by simpa using hrow)
      · cases h

end Inversion

end FietsOfOv
