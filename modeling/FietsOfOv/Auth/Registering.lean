import FietsOfOv.Auth.Accounts

/-!
# Concurrent registrations

Registrations that wait for each other at the unique index never wait in a circle: left
undisturbed, every request gets its answer after a bounded number of steps, and of any
number of registrations of one address exactly one is answered with an account.
-/

namespace FietsOfOv

open Transactional

variable {env : AuthEnv} {repr : String → String} {s s' : Service} {event : ServiceEvent}

/-! ## Everybody is answered -/

/-- How often a session still has to be resumed. -/
def AuthStage.work : AuthStage → Nat
  | .hashing _ => 3
  | .flushing _ _ => 2
  | .committing _ => 1
  | .selecting _ _ => 2
  | .verifying _ _ => 1
  | .authenticating _ _ => 2
  | .serving _ _ => 1
  | .answered _ => 0

def Service.work (s : Service) : Nat := Pool.weight (·.stage.work) s.sessions

/-- Sessions go on; nothing arrives, fails or is deleted. -/
def Undisturbed (_ : Service) (event : ServiceEvent) : Prop :=
  ∃ k salt now, event = .resume k salt now

def Service.AllAnswered (s : Service) : Prop :=
  ∀ (k : Nat) (session : AuthSession), s.sessions[k]? = some session →
    ∃ answer, session.stage = .answered answer

theorem allAnswered_of_work (h : s.work = 0) : s.AllAnswered := by
  rintro k ⟨request, stage⟩ hk
  have hwork := Pool.weight_eq_zero.mp h _ (List.mem_of_getElem? hk)
  cases stage with
  | answered answer => exact ⟨answer, rfl⟩
  | _ => cases hwork

theorem work_set {k : Nat} {request : AuthRequest} {stage stage' : AuthStage}
    (hk : s.sessions[k]? = some ⟨request, stage⟩)
    (hset : s'.sessions = s.sessions.set k ⟨request, stage'⟩) (hless : stage'.work < stage.work) :
    s'.work < s.work := by
  have hsum := Pool.weight_set (fun session : AuthSession => session.stage.work)
    ⟨request, stage'⟩ hk
  rw [Service.work, Service.work, hset]
  simp only at hsum
  omega

theorem RefusedFor.work_pos {salt : String} {now : Timestamp} {stage : AuthStage}
    {refusal : Refusal} (h : RefusedFor env s salt now stage refusal) : 0 < stage.work := by
  cases stage with
  | answered answer => exact h.elim
  | _ => exact Nat.succ_pos _

/-- Whatever a session is resumed with, it has less left to do. -/
theorem work_lt (hmove : ServiceMoves env repr s event s') (hevent : Undisturbed s event) :
    s'.work < s.work := by
  obtain ⟨k, salt, now, rfl⟩ := hevent
  cases hmove with
  | hashes hk => exact work_set hk rfl (by simp [AuthStage.work])
  | flushes hk => exact work_set hk rfl (by simp [AuthStage.work])
  | conflicts hk => exact work_set hk rfl (by simp [AuthStage.work])
  | commits hk => exact work_set hk rfl (by simp [AuthStage.work])
  | selects hk => exact work_set hk rfl (by simp [AuthStage.work])
  | signs hk => exact work_set hk rfl (by simp [AuthStage.work])
  | authenticates hk => exact work_set hk rfl (by simp [AuthStage.work])
  | serves hk => exact work_set hk rfl (by simp [AuthStage.work])
  | refuses hk hwhy => exact work_set hk rfl hwhy.work_pos

theorem flushUser_eq_none {k : Nat} {request : AuthRequest} {email hashedPassword : String}
    {now : Timestamp} (h : s.flushUser k request email hashedPassword now = none) :
    s.users.blocked User.schema k email = true := by
  simp only [Service.flushUser] at h
  split at h
  · cases h
  · split at h
    · rename_i hinsert
      rw [← Bool.not_eq_false]
      intro hfree
      obtain ⟨users, result, hsome⟩ := @Table.insert_isSome _ _ _ User.schema _ s.users k
        (fun id => ⟨id, email, hashedPassword, now⟩) hfree
      cases hinsert.symm.trans hsome
    · cases h
    · cases h

/-- Who waits at the index waits for a session at its commit, which waits for nobody. -/
theorem answered_of_stuck (h : Consistent env s)
    (hstuck : Run.Stuck (Service.step env repr) Undisturbed s) : s.AllAnswered := by
  have hresume : ∀ (k : Nat) (session : AuthSession), s.sessions[k]? = some session →
      s.resume env repr k session.request "" 0 session.stage = none := by
    intro k session hk
    have hnone := hstuck (.resume k "" 0) ⟨k, "", 0, rfl⟩
    rw [Service.step, hk] at hnone
    exact hnone
  have hnoCommit : ∀ (k : Nat) request user, s.sessions[k]? ≠ some ⟨request, .committing user⟩ := by
    intro k request user hk
    cases hresume k _ hk
  rintro k ⟨request, stage⟩ hk
  have hnone := hresume k _ hk
  cases stage with
  | hashing body =>
      simp only [Service.resume] at hnone
      split at hnone
      · cases hnone
      · cases hnone
  | flushing email hashedPassword =>
      obtain ⟨other, row, hmem, -, -⟩ :=
        (Table.blocked_eq_true User.schema).mp (flushUser_eq_none hnone)
      have hopen : s.openedBy other ≠ [] := by
        rw [← h.opened]
        exact List.ne_nil_of_mem (Table.mem_openOf.mpr hmem)
      rw [Service.openedBy] at hopen
      split at hopen
      · rename_i session hother
        obtain ⟨request', stage'⟩ := session
        cases stage' with
        | committing user => exact absurd hother (hnoCommit other request' user)
        | _ => exact absurd rfl hopen
      · exact absurd rfl hopen
  | committing user => cases hnone
  | selecting email password => cases hnone
  | verifying user password => cases hnone
  | authenticating bearer route =>
      simp only [Service.resume] at hnone
      split at hnone
      · cases hnone
      · cases hnone
  | serving user route => cases hnone
  | answered answer => exact ⟨answer, rfl⟩

/-- **No request waits for ever.**  From every state the service can reach, a run in which the
    sessions just go on takes at most `work` steps; it gets stuck only when everybody has an
    answer; and there is such a run. -/
theorem requests_finish (env : AuthEnv) (repr : String → String) (events : List ServiceEvent)
    (s : Service) (hrun : Run.exec (Service.step env repr) Service.empty events = some s) :
    (∀ events' s', Run.Meets (Service.step env repr) Undisturbed s events' →
      Run.exec (Service.step env repr) s events' = some s' →
        events'.length ≤ s.work ∧
        (Run.Stuck (Service.step env repr) Undisturbed s' → s'.AllAnswered)) ∧
    ∃ events' s', Run.Meets (Service.step env repr) Undisturbed s events' ∧
      Run.exec (Service.step env repr) s events' = some s' ∧ s'.AllAnswered := by
  have hconsistent := consistent_of_exec hrun
  have hstep : ∀ t event t', Consistent env t → Undisturbed t event →
      Service.step env repr t event = some t' → Consistent env t' ∧ t'.work < t.work :=
    fun t event t' ht hevent hmoves =>
      ⟨consistent_step ht (service_moves hmoves), work_lt (service_moves hmoves) hevent⟩
  constructor
  · intro events' s' hmeets hexec
    have hlength := Run.length_add_le Service.work hstep hconsistent hmeets hexec
    have hconsistent' : Consistent env s' :=
      Run.exec_invariant (fun t event t' ht hevent hmoves => (hstep t event t' ht hevent hmoves).1)
        hconsistent hmeets hexec
    exact ⟨by omega, answered_of_stuck hconsistent'⟩
  · obtain ⟨events', s', hmeets, hexec, hstuck⟩ :=
      Run.exists_stuck Service.work hstep s hconsistent
    have hconsistent' : Consistent env s' :=
      Run.exec_invariant (fun t event t' ht hevent hmoves => (hstep t event t' ht hevent hmoves).1)
        hconsistent hmeets hexec
    exact ⟨events', s', hmeets, hexec, answered_of_stuck hconsistent' hstuck⟩

theorem requests_finish_two :
    ∃ s, Run.exec (Service.step plainEnv String.quote) Service.empty twoRegistrations = some s ∧
      ∃ events' s', Run.Meets (Service.step plainEnv String.quote) Undisturbed s events' ∧
        Run.exec (Service.step plainEnv String.quote) s events' = some s' ∧ s'.AllAnswered := by
  obtain ⟨s, hs⟩ := twoRegistrations_runs
  exact ⟨s, hs, (requests_finish plainEnv String.quote twoRegistrations s hs).2⟩

/-! ## One of them wins -/

/-- The session was asked to register the address. -/
def AuthSession.asksFor (env : AuthEnv) (email : String) : AuthSession → Bool
  | ⟨.register typed password, _⟩ => (env.userCreate typed password).any (·.email = email)
  | _ => false

/-- The session was a registration that ended in a 500. -/
def AuthSession.brokeOff : AuthSession → Bool
  | ⟨.register _ _, .answered (.refused refusal)⟩ => refusal = internalServerError
  | _ => false

def Service.AsksFor (env : AuthEnv) (s : Service) (email : String) (k : Nat) : Prop :=
  ∃ session, s.sessions[k]? = some session ∧ session.asksFor env email = true

def Service.Whole (s : Service) : Prop :=
  ∀ session ∈ s.sessions, session.brokeOff = false

theorem exists_of_asksFor {email : String} {k : Nat} (h : s.AsksFor env email k) :
    ∃ typed password body stage, s.sessions[k]? = some ⟨.register typed password, stage⟩ ∧
      env.userCreate typed password = some body ∧ body.email = email := by
  obtain ⟨⟨request, stage⟩, hk, hasks⟩ := h
  cases request with
  | register typed password =>
      obtain ⟨body, hbody, hemail⟩ := (Option.any_eq_true _ _).mp hasks
      exact ⟨typed, password, body, stage, hk, hbody, of_decide_eq_true hemail⟩
  | token username password => cases hasks
  | tripAlerts bearer route => cases hasks

theorem Service.Whole.ne_internalServerError (h : s.Whole) {k : Nat} {typed password : String} :
    s.sessions[k]? ≠
      some ⟨.register typed password, .answered (.refused internalServerError)⟩ := by
  intro hk
  have hbroke := h _ (List.mem_of_getElem? hk)
  simp [AuthSession.brokeOff] at hbroke

theorem outcome_of_asksFor (h : Consistent env s) (hall : s.AllAnswered) (hwhole : s.Whole)
    {email : String} {k : Nat} (hasks : s.AsksFor env email k) :
    (∃ request user, s.sessions[k]? = some ⟨request, .answered (.registered user.out)⟩ ∧
        ⟨k, user⟩ ∈ s.registrations ∧ user.email = email) ∨
      (∃ request, s.sessions[k]? = some ⟨request, .answered (.refused emailTaken)⟩) ∧
        ∃ r ∈ s.registrations, r.user.email = email := by
  obtain ⟨typed, password, body, stage, hk, hbody, rfl⟩ := exists_of_asksFor hasks
  obtain ⟨answer, rfl⟩ := hall k _ hk
  rcases registrationOutcome h hk with ⟨-, hnone, -⟩ | ⟨body', hbody', hcases⟩
  · rw [hbody] at hnone
    cases hnone
  · cases hbody.symm.trans hbody'
    rcases hcases with ⟨user, salt, rfl, hmem, hemail, -⟩ | ⟨rfl, -, hother⟩ | rfl
    · exact Or.inl ⟨_, user, hk, hmem, hemail⟩
    · exact Or.inr ⟨⟨_, hk⟩, hother⟩
    · exact absurd hk hwhole.ne_internalServerError

/-- A committed account was asked for, and answered where nothing broke off. -/
theorem winner_of_registration (h : Consistent env s) (hwhole : s.Whole) {r : Registration}
    (hr : r ∈ s.registrations) : s.AsksFor env r.user.email r.session ∧
      ∃ request, s.sessions[r.session]? = some ⟨request, .answered (.registered r.user.out)⟩ := by
  obtain ⟨request, answer, hsession, hanswer, typed, password, body, salt, rfl, hbody, hemail, -⟩ :=
    h.registered r hr
  refine ⟨⟨_, hsession, ?_⟩, ?_⟩
  · simp [AuthSession.asksFor, hbody, hemail]
  · rcases hanswer with rfl | rfl
    · exact ⟨_, hsession⟩
    · exact absurd hsession hwhole.ne_internalServerError

/-- Without deletions two accounts of one address are one. -/
theorem registration_eq_of_email (h : Consistent env s) (hkept : s.deleted = [])
    {r r' : Registration} (hr : r ∈ s.registrations) (hr' : r' ∈ s.registrations)
    (hemail : r.user.email = r'.user.email) : r = r' := by
  have hrow : ∀ {r}, r ∈ s.registrations → r.user ∈ s.users.rows := by
    intro r hr
    rw [h.rows, hkept]
    simpa using ⟨r, hr, rfl⟩
  have huser : r.user = r'.user := h.keyed.eq_of_key (hrow hr) (hrow hr') hemail
  have hnodup : (s.registrations.map (·.user.id)).Nodup := h.ids.of_append_left
  exact List.inj_on_of_nodup_map hnodup hr hr' (congrArg (·.id) huser)

/-- **Exactly one registration of an address wins.**  Once all are answered, whatever the order
    of their steps was: if none broke off and no account was deleted, then of the sessions that
    asked for an address exactly one is answered with the account, and all the others are told
    that the address is taken. -/
theorem registration_race (env : AuthEnv) (repr : String → String) (events : List ServiceEvent)
    (s : Service) (hrun : Run.exec (Service.step env repr) Service.empty events = some s)
    (hall : s.AllAnswered) (hwhole : s.Whole) (hkept : s.deleted = []) (email : String)
    (hasked : ∃ k, s.AsksFor env email k) :
    ∃ k, s.AsksFor env email k ∧
      (∃ request user, user ∈ s.users.rows ∧ user.email = email ∧
        s.sessions[k]? = some ⟨request, .answered (.registered user.out)⟩) ∧
      ∀ k', k' ≠ k → s.AsksFor env email k' →
        ∃ request, s.sessions[k']? = some ⟨request, .answered (.refused emailTaken)⟩ := by
  have h := consistent_of_exec hrun
  have hwinner : ∃ r ∈ s.registrations, r.user.email = email := by
    obtain ⟨k, hasks⟩ := hasked
    rcases outcome_of_asksFor h hall hwhole hasks with
      ⟨request, user, -, hmem, hemail⟩ | ⟨-, hother⟩
    · exact ⟨⟨k, user⟩, hmem, hemail⟩
    · exact hother
  obtain ⟨r, hr, rfl⟩ := hwinner
  obtain ⟨hasks, request, hsession⟩ := winner_of_registration h hwhole hr
  refine ⟨r.session, hasks, ⟨request, r.user, ?_, rfl, hsession⟩, ?_⟩
  · rw [h.rows, hkept]
    simpa using ⟨r, hr, rfl⟩
  · intro k' hne hasks'
    rcases outcome_of_asksFor h hall hwhole hasks' with
      ⟨request', user, -, hmem, hemail⟩ | ⟨htaken, -⟩
    · have heq := registration_eq_of_email h hkept hmem hr hemail
      exact absurd (congrArg (·.session) heq) hne
    · exact htaken

theorem registration_race_two :
    ∃ s, Run.exec (Service.step plainEnv String.quote) Service.empty twoRegistrations = some s ∧
      ∃ k, s.AsksFor plainEnv "ann@x.nl" k ∧
        (∃ request user, user ∈ s.users.rows ∧ user.email = "ann@x.nl" ∧
          s.sessions[k]? = some ⟨request, .answered (.registered user.out)⟩) ∧
        ∀ k', k' ≠ k → s.AsksFor plainEnv "ann@x.nl" k' →
          ∃ request, s.sessions[k']? = some ⟨request, .answered (.refused emailTaken)⟩ := by
  have hrun : (Run.exec (Service.step plainEnv String.quote) Service.empty twoRegistrations).any
      (fun s => s.work = 0 ∧ (∀ session ∈ s.sessions, session.brokeOff = false) ∧ s.deleted = [] ∧
        s.sessions[0]?.any (·.asksFor plainEnv "ann@x.nl")) = true := by
    decide +kernel
  obtain ⟨s, hexec, hs⟩ := (Option.any_eq_true _ _).mp hrun
  obtain ⟨hwork, hwhole, hkept, hasks⟩ := of_decide_eq_true hs
  obtain ⟨session, hsession, hasks⟩ := (Option.any_eq_true _ _).mp hasks
  exact ⟨s, hexec, registration_race plainEnv String.quote twoRegistrations s hexec
    (allAnswered_of_work hwork) hwhole hkept "ann@x.nl" ⟨0, session, hsession, hasks⟩⟩

end FietsOfOv
