import FietsOfOv.Auth.Accounts

/-!
# Who acts for whom

A request is served for an account only on a token that a login of that very account was
answered with, and only until the token expires or the account is deleted; a login with
the right password gets such a token; and an account's trip alerts change through nothing
else.  Nobody but the service signs with its secret: every step is `Unforged`.
-/

namespace FietsOfOv

open Transactional OwnedRows

variable {env : AuthEnv} {repr : String → String} {s s' : Service} {event : ServiceEvent}

/-- The token that a step looks at, and when. -/
def presented (s : Service) : ServiceEvent → Option (Timestamp × String)
  | .resume k _ now =>
      match s.sessions[k]? with
      | some ⟨_, .authenticating bearer _⟩ => some (now, bearer)
      | _ => none
  | _ => none

/-- A token that can be read carries what some login was given. -/
def Unforged (env : AuthEnv) (s : Service) (event : ServiceEvent) : Prop :=
  ∀ payload ∈ (presented s event).bind fun shown => env.decode shown.1 shown.2,
    ∃ login ∈ s.logins, (login.claims env).payload = payload

instance (env : AuthEnv) (s : Service) (event : ServiceEvent) :
    Decidable (Unforged env s event) :=
  inferInstanceAs (Decidable (∀ payload ∈ _, _))

/-! ## Tokens -/

theorem int_toString {n : Nat} (hn : n ≤ 2147483647) :
    Text.int (toString n).toList = some (n : Int) := by
  have hlength : (Nat.toDigits 10 n).length ≤ 10 :=
    (Nat.length_toDigits_le_iff (by decide) (by decide)).mpr (by omega)
  rw [Nat.toString_eq_ofList_toDigits, String.toList_ofList,
    Text.int_of_isDigit Nat.toDigits_ne_nil fun c hc =>
      Nat.isDigit_of_mem_toDigits (by decide) (by decide) hc,
    if_pos (hlength.trans (by decide)), Nat.ofDigitChars_toDigits (by decide) (by decide)]

theorem toString_ne_empty (n : Nat) : toString n ≠ "" := by
  intro heq
  have hlist := congrArg String.toList heq
  rw [Nat.toString_eq_ofList_toDigits, String.toList_ofList] at hlist
  exact Nat.toDigits_ne_nil hlist

/-- While it is valid, the token of a login names the account, for as long as that is there. -/
theorem getCurrentUser_own (hjwt : Jwt env) {users : List User} {user : User} {at_ now : Timestamp}
    (huser : user ∈ users) (hids : (users.map (·.id)).Nodup) (hstored : user.Stored)
    (hat : 0 ≤ at_) (hissued : wholeSeconds at_ * 1000000 ≤ now)
    (hlive : now <
      wholeSeconds (at_ + env.accessTokenExpireMinutes * 60000000) * 1000000) :
    env.getCurrentUser users now (env.createAccessToken (toString user.id) none at_) =
      .ok user := by
  have hdecode : env.decode now (env.createAccessToken (toString user.id) none at_) =
      some ⟨toString user.id, wholeSeconds (at_ + env.accessTokenExpireMinutes * 60000000)⟩ :=
    hjwt.accepts hat hissued hlive
  have hfind : users.find? (fun u => ((u.id : Int) = (user.id : Int))) = some user := by
    obtain ⟨found, hfound⟩ : ∃ found,
        users.find? (fun u => ((u.id : Int) = (user.id : Int))) = some found := by
      rw [← Option.isSome_iff_exists, List.find?_isSome]
      exact ⟨user, huser, by simp⟩
    have hid := List.find?_some hfound
    rw [decide_eq_true_eq] at hid
    rw [hfound, List.inj_on_of_nodup_map hids (List.mem_of_find?_eq_some hfound) huser
      (Int.ofNat.inj hid)]
  have hsmall := hstored.1
  rw [AuthEnv.getCurrentUser, AuthEnv.decodeToken, hdecode]
  simp only [toString_ne_empty, if_false, int_toString hsmall]
  rw [if_neg (by omega), hfind]

/-! ## What a login leaves behind -/

theorem registrations_subset (hmove : ServiceMoves env repr s event s') :
    s.registrations ⊆ s'.registrations := by
  rcases registrations_cases hmove with hsame | ⟨k, request, user, answer, -, -, rfl⟩
  · rw [hsame]
    exact List.Subset.refl _
  · exact List.subset_append_left _ _

theorem firstStage_ne_serving (request : AuthRequest) (user : User) (route : TripAlertRequest) :
    Service.firstStage env request ≠ .serving user route := by
  cases request with
  | register typed password =>
      simp only [Service.firstStage]
      split <;> exact fun heq => by cases heq
  | token username password => exact fun heq => by cases heq
  | tripAlerts bearer route => exact fun heq => by cases heq

structure Authentic (env : AuthEnv) (s : Service) : Prop where
  /-- A token was signed for the account whose address and password the request gave. -/
  logins : ∀ l ∈ s.logins, (∃ r ∈ s.registrations, r.user = l.user) ∧
    env.verifyPassword l.password l.user.hashedPassword = true ∧
    ∃ (k : Nat) (username : String), s.sessions[k]? =
        some ⟨.token username l.password, .answered (.token (env.encode (l.claims env)))⟩ ∧
      env.canonical username = l.user.email
  serving : ∀ (k : Nat) request user route,
    s.sessions[k]? = some ⟨request, .serving user route⟩ → ∃ l ∈ s.logins, l.user = user

/-- A number belongs to one account, now and ever. -/
theorem Consistent.user_eq_of_id (h : Consistent env s) {r r' : Registration}
    (hr : r ∈ s.registrations) (hr' : r' ∈ s.registrations) (hid : r.user.id = r'.user.id) :
    r.user = r'.user := by
  have hnodup : (s.registrations.map (·.user.id)).Nodup := h.ids.of_append_left
  rw [List.inj_on_of_nodup_map hnodup hr hr' hid]

/-- Who is let in has logged in, as the same row, and the token has not expired. -/
theorem login_of_getCurrentUser (hjwt : Jwt env) (h : Consistent env s) (hauth : Authentic env s)
    {now : Timestamp} {bearer : String} {user : User}
    (hunforged : ∀ payload, env.decode now bearer = some payload →
      ∃ login ∈ s.logins, (login.claims env).payload = payload)
    (hok : env.getCurrentUser s.users.rows now bearer = .ok user) :
    ∃ l ∈ s.logins, l.user = user ∧
      now < wholeSeconds (l.at_ + env.accessTokenExpireMinutes * 60000000) * 1000000 := by
  obtain ⟨payload, hdecode, hint, hmem⟩ := getCurrentUser_eq_ok hok
  obtain ⟨l, hl, rfl⟩ := hunforged payload hdecode
  obtain ⟨⟨r, hr, hruser⟩, -⟩ := hauth.logins l hl
  obtain ⟨r', hr', rfl⟩ := h.registered_of_mem hmem
  have hsmall : l.user.id ≤ 2147483647 := hruser ▸ (h.stored r hr).1
  have hid : Text.int (toString l.user.id).toList = some (r'.user.id : Int) := hint
  rw [int_toString hsmall, Option.some.injEq] at hid
  have hsame : r.user.id = r'.user.id := by
    rw [hruser]
    exact Int.ofNat.inj hid
  exact ⟨l, hl, hruser.symm.trans (h.user_eq_of_id hr hr' hsame), hjwt.expires hdecode⟩

theorem serving_set {logins : List Login} {k : Nat} {new : AuthSession}
    (hauth : Authentic env s) (hgrow : s.logins ⊆ logins)
    (hnew : ∀ user route, new.stage = .serving user route → ∃ l ∈ logins, l.user = user)
    (j : Nat) (request : AuthRequest) (user : User) (route : TripAlertRequest)
    (hj : (s.sessions.set k new)[j]? = some ⟨request, .serving user route⟩) :
    ∃ l ∈ logins, l.user = user := by
  by_cases hne : k = j
  · subst hne
    have hk : k < s.sessions.length := by
      simpa using (List.getElem?_eq_some_iff.mp hj).1
    rw [List.getElem?_set_self hk, Option.some.injEq] at hj
    exact hnew user route (congrArg (·.stage) hj)
  · rw [List.getElem?_set_ne hne] at hj
    obtain ⟨l, hl, hluser⟩ := hauth.serving j request user route hj
    exact ⟨l, hgrow hl, hluser⟩

theorem authentic_step (hjwt : Jwt env) (h : Consistent env s) (hauth : Authentic env s)
    (hunforged : Unforged env s event) (hmove : ServiceMoves env repr s event s') :
    Authentic env s' := by
  -- what a login left behind stays: its answer is final, its account is on record
  have hkept : ∀ l ∈ s.logins, (∃ r ∈ s'.registrations, r.user = l.user) ∧
      env.verifyPassword l.password l.user.hashedPassword = true ∧
      ∃ (k : Nat) (username : String), s'.sessions[k]? =
          some ⟨.token username l.password, .answered (.token (env.encode (l.claims env)))⟩ ∧
        env.canonical username = l.user.email := by
    intro l hl
    obtain ⟨⟨r, hr, hruser⟩, hverified, k, username, hk, hname⟩ := hauth.logins l hl
    exact ⟨⟨r, registrations_subset hmove hr, hruser⟩, hverified, k, username,
      answered_stays hmove hk, hname⟩
  have hstill : ∀ {k : Nat} {new : AuthSession},
      (∀ user route, new.stage ≠ .serving user route) → ∀ (j : Nat) request user route,
        (s.sessions.set k new)[j]? = some ⟨request, .serving user route⟩ →
          ∃ l ∈ s.logins, l.user = user := fun hnot =>
    serving_set hauth (List.Subset.refl _) fun user route heq => absurd heq (hnot user route)
  cases hmove with
  | arrives request =>
      refine ⟨hkept, fun j request' user route hj => ?_⟩
      rcases lt_or_ge j s.sessions.length with hlt | hge
      · rw [List.getElem?_append_left hlt] at hj
        exact hauth.serving j request' user route hj
      · rw [List.getElem?_append_right hge] at hj
        have hnew := List.mem_of_getElem? hj
        rw [List.mem_singleton] at hnew
        exact absurd (congrArg (·.stage) hnew).symm (firstStage_ne_serving request user route)
  | deletes hrow => exact ⟨hkept, hauth.serving⟩
  | @authenticates k request salt now bearer route user hk huser =>
      refine ⟨hkept, serving_set hauth (List.Subset.refl _) ?_⟩
      rintro user' route' heq
      cases heq
      have hshown : presented s (.resume k salt now) = some (now, bearer) := by
        simp only [presented, hk]
      obtain ⟨l, hl, hluser, -⟩ := login_of_getCurrentUser hjwt h hauth
        (fun payload hdecode => hunforged payload (by rw [hshown]; exact hdecode)) huser
      exact ⟨l, hl, hluser⟩
  | @signs k request salt now user password hk hverified =>
      refine ⟨?_, serving_set hauth (List.subset_append_left _ _) fun _ _ heq => by cases heq⟩
      intro l hl
      rcases List.mem_append.mp hl with hl | hl
      · exact hkept l hl
      · rw [List.mem_singleton.mp hl]
        obtain ⟨username, hrequest, hknown⟩ := h.sessions k _ hk
        obtain ⟨hname, hregistered⟩ := hknown user rfl
        refine ⟨hregistered, hverified, k, username, ?_, hname.symm⟩
        have hset := List.getElem?_set_self (a := (⟨request, .answered (.token
          (env.createAccessToken (toString user.id) none now))⟩ : AuthSession))
          (List.getElem?_eq_some_iff.mp hk).1
        have hrequest' : request = .token username password := hrequest
        rw [← hrequest']
        exact hset
  | hashes hk =>
      exact ⟨hkept, hstill fun _ _ heq => by cases heq⟩
  | flushes hk =>
      exact ⟨hkept, hstill fun _ _ heq => by cases heq⟩
  | conflicts hk =>
      exact ⟨hkept, hstill fun _ _ heq => by cases heq⟩
  | commits hk =>
      exact ⟨hkept, hstill fun _ _ heq => by cases heq⟩
  | selects hk =>
      exact ⟨hkept, hstill fun _ _ heq => by cases heq⟩
  | serves hk =>
      exact ⟨hkept, hstill fun _ _ heq => by cases heq⟩
  | refuses hk =>
      exact ⟨hkept, hstill fun _ _ heq => by cases heq⟩
  | breaks hk =>
      exact ⟨hkept, hstill fun _ _ heq => by cases heq⟩

theorem empty_authentic : Authentic env Service.empty where
  logins l hl := by cases hl
  serving k request user route hk := by cases hk

theorem authentic_of_exec (hjwt : Jwt env) {events : List ServiceEvent}
    (hmeets : Run.Meets (Service.step env repr) (Unforged env) Service.empty events)
    (hrun : Run.exec (Service.step env repr) Service.empty events = some s) :
    Consistent env s ∧ Authentic env s := by
  have hstep : ∀ t event t', Consistent env t ∧ Authentic env t → Unforged env t event →
      Service.step env repr t event = some t' → Consistent env t' ∧ Authentic env t' := by
    rintro t event t' ⟨ht, hauth⟩ hunforged hmoves
    have hmove := service_moves hmoves
    exact ⟨consistent_step ht hmove, authentic_step hjwt ht hauth hunforged hmove⟩
  exact Run.exec_invariant hstep ⟨empty_consistent, empty_authentic⟩ hmeets hrun

/-- **Acting for an account takes a login.**  Whoever is let in as a user holds what a login
    of this very row was answered with: with its address, a password that verifies against its
    hash, and less than the lifetime of a token ago.  Rows that are gone are nobody's, and the
    number of a row is not used again. -/
theorem access_needs_login (env : AuthEnv) (repr : String → String) (hjwt : Jwt env)
    (events : List ServiceEvent) (s s' : Service) (k : Nat) (salt : String) (now : Timestamp)
    (request : AuthRequest) (bearer : String) (route : TripAlertRequest) (user : User)
    (hmeets : Run.Meets (Service.step env repr) (Unforged env) Service.empty
      (events ++ [.resume k salt now]))
    (hrun : Run.exec (Service.step env repr) Service.empty events = some s)
    (hk : s.sessions[k]? = some ⟨request, .authenticating bearer route⟩)
    (hstep : s.step env repr (.resume k salt now) = some s')
    (hserving : s'.sessions[k]? = some ⟨request, .serving user route⟩) :
    user ∈ s.users.rows ∧ user.id ∉ s.deleted ∧
    ∃ l ∈ s.logins, l.user = user ∧
      env.verifyPassword l.password user.hashedPassword = true ∧
      now < wholeSeconds (l.at_ + env.accessTokenExpireMinutes * 60000000) * 1000000 ∧
      ∃ (j : Nat) (username : String), env.canonical username = user.email ∧
        s.sessions[j]? = some ⟨.token username l.password, .answered
          (.token (env.createAccessToken (toString user.id) none l.at_))⟩ := by
  obtain ⟨hbefore, hunforged⟩ := Run.meets_snoc.mp hmeets
  obtain ⟨h, hauth⟩ := authentic_of_exec hjwt hbefore hrun
  have huser : env.getCurrentUser s.users.rows now bearer = .ok user := by
    rw [Service.step, hk, Option.bind_some] at hstep
    simp only [Service.resume] at hstep
    have hlt := (List.getElem?_eq_some_iff.mp hk).1
    split at hstep
    · rename_i found hfound
      cases hstep
      rw [Service.setStage, List.getElem?_set_self hlt] at hserving
      cases hserving
      exact hfound
    · cases hstep
      rw [Service.refuse, List.getElem?_set_self hlt] at hserving
      cases hserving
  have hshown : presented s (.resume k salt now) = some (now, bearer) := by
    simp only [presented, hk]
  obtain ⟨l, hl, rfl, hlive⟩ := login_of_getCurrentUser hjwt h hauth
    (fun payload hdecode => hunforged s hrun payload (by rw [hshown]; exact hdecode)) huser
  obtain ⟨payload, -, -, hmem⟩ := getCurrentUser_eq_ok huser
  obtain ⟨-, hverified, j, username, hj, hname⟩ := hauth.logins l hl
  have hgone : l.user.id ∉ s.deleted := by
    have hrow := hmem
    rw [h.rows, List.mem_filter, decide_eq_true_eq] at hrow
    exact hrow.2
  exact ⟨hmem, hgone, l, hl, rfl, hverified, hlive, j, username, hname, hj⟩

/-! ### Ann logs in -/

def ann : User := ⟨1, "ann@x.nl", "$2b$12$abcdefghijklmnopqrstuvcorrect horse", 1000⟩

/-- Ann's account is made. -/
def annRegisters : List ServiceEvent :=
  [.arrive (.register "Ann@x.nl" "correct horse"), .resume 0 "abcdefghijklmnopqrstuv" 0,
   .resume 0 "" 1000, .resume 0 "" 1001]

/-- She logs in after five seconds, and her trip alerts are asked for with the token. -/
def annAsks : List ServiceEvent :=
  annRegisters ++ [.arrive (.token "ANN@x.nl " "correct horse"), .resume 1 "" 4000000,
    .resume 1 "" 5000000, .arrive (.tripAlerts "3605.5.1" (createdBy 1 0).request)]

theorem access_needs_login_ann :
    ∃ s, Run.exec (Service.step plainEnv String.quote) Service.empty annAsks = some s ∧
      ∃ l ∈ s.logins, l.user = ann ∧
        (6000000 : Int) < wholeSeconds (l.at_ + 3600000000) * 1000000 := by
  have hrun : (Run.exec (Service.step plainEnv String.quote) Service.empty annAsks).any
      (fun s => s.sessions[2]? = some ⟨.tripAlerts "3605.5.1" (createdBy 1 0).request,
          .authenticating "3605.5.1" (createdBy 1 0).request⟩ ∧
        (s.step plainEnv String.quote (.resume 2 "" 6000000)).any fun s' =>
          s'.sessions[2]? = some ⟨.tripAlerts "3605.5.1" (createdBy 1 0).request,
            .serving ann (createdBy 1 0).request⟩) = true := by
    decide +kernel
  obtain ⟨s, hexec, hs⟩ := (Option.any_eq_true _ _).mp hrun
  obtain ⟨hk, hstep⟩ := of_decide_eq_true hs
  obtain ⟨s', hstep, hserving⟩ := (Option.any_eq_true _ _).mp hstep
  obtain ⟨-, -, l, hl, huser, -, hlive, -⟩ := access_needs_login plainEnv String.quote plainEnv_jwt
    annAsks s s' 2 "" 6000000 _ _ _ ann (by decide +kernel) hexec hk hstep
    (of_decide_eq_true hserving)
  exact ⟨s, hexec, l, hl, huser, hlive⟩

/-! ## A login with the right password -/

/-- A step leaves every session alone but the one that moves. -/
theorem session_stays (hmove : ServiceMoves env repr s event s') {j : Nat} {session : AuthSession}
    (hj : s.sessions[j]? = some session) (hother : event.mover ≠ some j) :
    s'.sessions[j]? = some session := by
  have hset : ∀ {k : Nat} {new : AuthSession}, k ≠ j →
      (s.sessions.set k new)[j]? = some session := by
    intro k new hne
    rw [List.getElem?_set_ne hne, hj]
  cases hmove with
  | arrives request =>
      exact (List.getElem?_append_left (List.getElem?_eq_some_iff.mp hj).1).trans hj
  | deletes hrow => exact hj
  | commits hk hanswer hmover => exact hset fun heq => hother (heq ▸ hmover)
  | _ => exact hset fun heq => hother (congrArg some heq)

/-- A row stays until it is deleted. -/
theorem user_stays (h : Consistent env s) (hmove : ServiceMoves env repr s event s') {user : User}
    (huser : user ∈ s.users.rows) (hkept : event ≠ .deleteUser user.id) :
    user ∈ s'.users.rows := by
  have hgone : user.id ∉ s'.deleted := by
    rw [h.rows, List.mem_filter, decide_eq_true_eq] at huser
    cases hmove with
    | @deletes userId hrow =>
        intro hmem
        rcases List.mem_append.mp hmem with hmem | hmem
        · exact huser.2 hmem
        · exact hkept (by rw [List.mem_singleton.mp hmem])
    | _ => exact huser.2
  obtain ⟨r, hr, rfl⟩ := h.registered_of_mem huser
  rw [(consistent_step h hmove).rows, List.mem_filter, decide_eq_true_eq]
  exact ⟨List.mem_map_of_mem (registrations_subset hmove hr), hgone⟩

/-- Where a login with the right password for the account can stand. -/
inductive LoggingIn (env : AuthEnv) (user : User) (password : String) : AuthStage → Prop
  | selecting : LoggingIn env user password (.selecting user.email password)
  | verifying : LoggingIn env user password (.verifying (some user) password)
  | answered (at_ : Timestamp) : LoggingIn env user password
      (.answered (.token (env.createAccessToken (toString user.id) none at_)))

structure AtLogin (env : AuthEnv) (user : User) (username password : String) (k : Nat)
    (s : Service) : Prop where
  consistent : Consistent env s
  row : user ∈ s.users.rows
  session : ∃ stage, s.sessions[k]? = some ⟨.token username password, stage⟩ ∧
    LoggingIn env user password stage

theorem resume_login {user : User} {username password : String} {k : Nat} {salt : String}
    {now : Timestamp} {stage : AuthStage} (h : Consistent env s) (huser : user ∈ s.users.rows)
    (hverified : env.verifyPassword password user.hashedPassword = true)
    (hk : s.sessions[k]? = some ⟨.token username password, stage⟩)
    (hstage : LoggingIn env user password stage)
    (hstep : s.resume env repr k (.token username password) salt now stage = some s') :
    ∃ stage', s'.sessions[k]? = some ⟨.token username password, stage'⟩ ∧
      LoggingIn env user password stage' := by
  have hlt := (List.getElem?_eq_some_iff.mp hk).1
  rcases hstage with - | - | at_
  · obtain ⟨r, hr, rfl⟩ := h.registered_of_mem huser
    have htext : storable r.user.email = true := (h.stored r hr).2
    have hrow : s.users.rows.filter (·.email = r.user.email) = [r.user] :=
      h.keyed.filter_key huser
    simp only [Service.resume, Service.selectUser, htext, hrow, oneOrNone, Bool.true_eq_false,
      if_false, Option.some.injEq] at hstep
    rw [← hstep, Service.setStage, List.getElem?_set_self hlt]
    exact ⟨_, rfl, .verifying⟩
  · simp only [Service.resume, Service.verifyUser, hverified, Option.some.injEq] at hstep
    rw [← hstep]
    exact ⟨_, List.getElem?_set_self hlt, .answered now⟩
  · cases hstep

theorem atLogin_step {user : User} {username password : String} {k : Nat}
    (h : AtLogin env user username password k s)
    (hverified : env.verifyPassword password user.hashedPassword = true)
    (hkept : event ≠ .deleteUser user.id) (hwhole : ∀ durable, event ≠ .fail k durable)
    (hstep : s.step env repr event = some s') : AtLogin env user username password k s' := by
  have hmove := service_moves hstep
  refine ⟨consistent_step h.consistent hmove, user_stays h.consistent hmove h.row hkept, ?_⟩
  obtain ⟨stage, hk, hstage⟩ := h.session
  by_cases hown : event.mover = some k
  · cases event with
    | resume j salt now =>
        cases hown
        rw [Service.step, hk, Option.bind_some] at hstep
        exact resume_login h.consistent h.row hverified hk hstage hstep
    | fail j durable =>
        cases hown
        exact absurd rfl (hwhole durable)
    | arrive request => cases hown
    | deleteUser userId => cases hown
  · exact ⟨stage, session_stays hmove hk hown, hstage⟩

/-- **The right password always gets in.**  A login with the address of an account, in whatever
    case it is typed, and the password behind its hash is answered with a token, unless it
    breaks off or the account is deleted meanwhile; and from then on this token names the
    account, in every state that has it, until it expires. -/
theorem login_gives_access (env : AuthEnv) (repr : String → String) (hbcrypt : Bcrypt env)
    (hjwt : Jwt env) (events : List ServiceEvent) (s : Service) (user : User)
    (username password salt : String)
    (hrun : Run.exec (Service.step env repr) Service.empty events = some s)
    (huser : user ∈ s.users.rows) (hname : env.canonical username = user.email)
    (hpassword : env.hashpw password salt = some user.hashedPassword)
    (events' : List ServiceEvent) (s' : Service)
    (hrun' : Run.exec (Service.step env repr) s (.arrive (.token username password) :: events') =
      some s')
    (hkept : ∀ event ∈ events', event ≠ .deleteUser user.id ∧
      ∀ durable, event ≠ .fail s.sessions.length durable)
    (answer : AuthAnswer)
    (hanswered : s'.sessions[s.sessions.length]? =
      some ⟨.token username password, .answered answer⟩) :
    ∃ at_, answer = .token (env.createAccessToken (toString user.id) none at_) ∧
      (0 ≤ at_ → ∀ events'' s'',
        Run.exec (Service.step env repr) Service.empty events'' = some s'' →
        user ∈ s''.users.rows → ∀ now, wholeSeconds at_ * 1000000 ≤ now →
          now < wholeSeconds (at_ + env.accessTokenExpireMinutes * 60000000) * 1000000 →
            env.getCurrentUser s''.users.rows now
              (env.createAccessToken (toString user.id) none at_) = .ok user) := by
  have h := consistent_of_exec hrun
  have hverified : env.verifyPassword password user.hashedPassword = true := by
    rw [AuthEnv.verifyPassword, hbcrypt hpassword]
  obtain ⟨t, harrive, hrest⟩ := Run.exec_cons_eq_some.mp hrun'
  have hstart : AtLogin env user username password s.sessions.length t := by
    have hmove := service_moves harrive
    refine ⟨consistent_step h hmove, user_stays h hmove huser (by simp), ?_⟩
    cases harrive
    refine ⟨.selecting (env.canonical username) password, ?_, hname ▸ .selecting⟩
    simp [Service.firstStage]
  have hend : AtLogin env user username password s.sessions.length s' :=
    Run.exec_invariant
      (fun _ _ _ hs hok hstep => atLogin_step hs hverified hok.1 hok.2 hstep)
      hstart (Run.meets_of_forall hkept t) hrest
  obtain ⟨stage, hk, hstage⟩ := hend.session
  cases hk.symm.trans hanswered
  rcases hstage with - | - | at_
  refine ⟨at_, rfl, fun hat events'' s'' hrun'' huser'' now hissued hlive => ?_⟩
  have h'' := consistent_of_exec hrun''
  obtain ⟨r, hr, rfl⟩ := h''.registered_of_mem huser''
  have hidents := h''.keyed.idents
  rw [List.map_append] at hidents
  exact getCurrentUser_own hjwt huser'' hidents.of_append_left (h''.stored r hr) hat hissued hlive

theorem login_gives_access_ann :
    ∃ s s' at_, Run.exec (Service.step plainEnv String.quote) Service.empty annRegisters = some s ∧
      Run.exec (Service.step plainEnv String.quote) s
        [.arrive (.token "ANN@x.nl " "correct horse"), .resume 1 "" 4000000,
          .resume 1 "" 5000000] = some s' ∧
      s'.sessions[1]? = some ⟨.token "ANN@x.nl " "correct horse",
        .answered (.token (plainEnv.createAccessToken "1" none at_))⟩ := by
  have hrun : (Run.exec (Service.step plainEnv String.quote) Service.empty annRegisters).any
      (fun s => ann ∈ s.users.rows ∧ s.sessions.length = 1 ∧
        (Run.exec (Service.step plainEnv String.quote) s
          [.arrive (.token "ANN@x.nl " "correct horse"), .resume 1 "" 4000000,
            .resume 1 "" 5000000]).any fun s' =>
          s'.sessions[1]? = some ⟨.token "ANN@x.nl " "correct horse",
            .answered (.token "3605.5.1")⟩) = true := by
    decide +kernel
  obtain ⟨s, hexec, hs⟩ := (Option.any_eq_true _ _).mp hrun
  obtain ⟨huser, hlength, hexec'⟩ := of_decide_eq_true hs
  obtain ⟨s', hexec', hk⟩ := (Option.any_eq_true _ _).mp hexec'
  have hanswered := of_decide_eq_true hk
  obtain ⟨at_, hanswer, -⟩ := login_gives_access plainEnv String.quote plainEnv_bcrypt
    plainEnv_jwt annRegisters s ann "ANN@x.nl " "correct horse" "abcdefghijklmnopqrstuv" hexec huser
    (by decide +kernel) (by decide +kernel) [.resume 1 "" 4000000, .resume 1 "" 5000000] s' hexec'
    (by simp) (.token "3605.5.1") (by rw [hlength]; exact hanswered)
  exact ⟨s, s', at_, hexec, hexec', hanswered.trans (by rw [hanswer]; rfl)⟩

end FietsOfOv
