import FietsOfOv.Auth.Service

/-!
# One account per address

What registrations come to, however their steps are interleaved with those of other
requests: the committed accounts are those that were registered and not deleted since,
each made by the one session that was answered for it.
-/

namespace FietsOfOv

open Transactional

/-- The row of an account is what its registration asked for. -/
def Makes (env : AuthEnv) (request : AuthRequest) (email hashedPassword : String) : Prop :=
  ∃ typed password body salt, request = .register typed password ∧
    env.userCreate typed password = some body ∧ email = body.email ∧
    env.hashpw body.password salt = some hashedPassword

/-- The number fits the column and the address can be stored. -/
def User.Stored (user : User) : Prop := user.id ≤ 2147483647 ∧ storable user.email = true

/-- Why a registration is refused. -/
def RefusedRegistration (env : AuthEnv) (registrations : List Registration)
    (typed password : String) (refusal : Refusal) : Prop :=
  refusal = .unprocessable ∧ env.userCreate typed password = none ∨
    ∃ body, env.userCreate typed password = some body ∧
      (refusal = emailTaken ∧ (∃ r ∈ registrations, r.user.email = body.email) ∨
        refusal = internalServerError)

/-- What a session is at goes back to what it was asked. -/
def AuthSession.Sound (env : AuthEnv) (registrations : List Registration) (k : Nat)
    (session : AuthSession) : Prop :=
  match session.stage with
  | .hashing body =>
      ∃ typed password, session.request = .register typed password ∧
        env.userCreate typed password = some body
  | .flushing email hashedPassword => Makes env session.request email hashedPassword
  | .committing user =>
      Makes env session.request user.email user.hashedPassword ∧ user.Stored
  | .selecting email password =>
      ∃ username, session.request = .token username password ∧ email = env.canonical username
  | .verifying user password =>
      ∃ username, session.request = .token username password ∧
        ∀ u, user = some u → u.email = env.canonical username ∧ ∃ r ∈ registrations, r.user = u
  | .authenticating bearer route => session.request = .tripAlerts bearer route
  | .serving user route =>
      (∃ bearer, session.request = .tripAlerts bearer route) ∧ ∃ r ∈ registrations, r.user = user
  | .answered (.registered out) =>
      ∃ r ∈ registrations, r.session = k ∧ r.user.out = out ∧
        Makes env session.request r.user.email r.user.hashedPassword
  | .answered (.refused refusal) =>
      ∀ typed password, session.request = .register typed password →
        RefusedRegistration env registrations typed password refusal
  | .answered (.token _) => ∃ username password, session.request = .token username password
  | .answered (.tripAlerts _) => ∃ bearer route, session.request = .tripAlerts bearer route

/-- What a session keeps open in the table of users. -/
def AuthStage.opened : AuthStage → List (Transactional.Write User Empty)
  | .committing user => [.insert user]
  | _ => []

def Service.openedBy (s : Service) (k : Nat) : List (Transactional.Write User Empty) :=
  match s.sessions[k]? with
  | some session => session.stage.opened
  | none => []

structure Consistent (env : AuthEnv) (s : Service) : Prop where
  keyed : s.users.WellKeyed User.schema
  opened : ∀ k, s.users.openOf k = s.openedBy k
  /-- A number is used once, deleted accounts included. -/
  ids : (s.registrations.map (·.user.id) ++ s.users.pendingRows.map (·.id)).Nodup
  below : ∀ r ∈ s.registrations, r.user.id < s.users.nextId
  rows : s.users.rows = (s.registrations.map (·.user)).filter (·.id ∉ s.deleted)
  deleted : ∀ id ∈ s.deleted, ∃ r ∈ s.registrations, r.user.id = id
  registrants : (s.registrations.map (·.session)).Nodup
  registered : ∀ r ∈ s.registrations, ∃ request answer,
    s.sessions[r.session]? = some ⟨request, .answered answer⟩ ∧
      (answer = .registered r.user.out ∨ answer = .refused internalServerError) ∧
      Makes env request r.user.email r.user.hashedPassword
  stored : ∀ r ∈ s.registrations, r.user.Stored
  sessions : ∀ (k : Nat) (session : AuthSession), s.sessions[k]? = some session →
    session.Sound env s.registrations k

variable {env : AuthEnv} {repr : String → String} {s s' : Service} {event : ServiceEvent}

/-! ## What a step leaves of the sessions -/

theorem set_keeps_answered {k j : Nat} {request request' : AuthRequest} {stage : AuthStage}
    {new : AuthSession} {answer : AuthAnswer} (hk : s.sessions[k]? = some ⟨request, stage⟩)
    (hwaits : ∀ answer, stage ≠ .answered answer)
    (hj : s.sessions[j]? = some ⟨request', .answered answer⟩) :
    (s.sessions.set k new)[j]? = some ⟨request', .answered answer⟩ := by
  have hne : k ≠ j := by
    rintro rfl
    cases hk.symm.trans hj
    exact hwaits answer rfl
  rw [List.getElem?_set_ne hne, hj]

theorem RefusedFor.waits {salt : String} {now : Timestamp} {stage : AuthStage} {refusal : Refusal}
    (h : RefusedFor env s salt now stage refusal) (answer : AuthAnswer) :
    stage ≠ .answered answer := by
  rintro rfl
  exact h

/-- An answer is final. -/
theorem answered_stays (h : ServiceMoves env repr s event s') {j : Nat} {request : AuthRequest}
    {answer : AuthAnswer} (hj : s.sessions[j]? = some ⟨request, .answered answer⟩) :
    s'.sessions[j]? = some ⟨request, .answered answer⟩ := by
  cases h with
  | arrives request' =>
      exact (List.getElem?_append_left (List.getElem?_eq_some_iff.mp hj).1).trans hj
  | deletes hrow => exact hj
  | refuses hk hwhy => exact set_keeps_answered hk hwhy.waits hj
  | breaks hk hwaits halerts => exact set_keeps_answered hk hwaits hj
  | hashes hk => exact set_keeps_answered hk (fun _ heq => by cases heq) hj
  | flushes hk => exact set_keeps_answered hk (fun _ heq => by cases heq) hj
  | conflicts hk => exact set_keeps_answered hk (fun _ heq => by cases heq) hj
  | commits hk => exact set_keeps_answered hk (fun _ heq => by cases heq) hj
  | selects hk => exact set_keeps_answered hk (fun _ heq => by cases heq) hj
  | signs hk => exact set_keeps_answered hk (fun _ heq => by cases heq) hj
  | authenticates hk => exact set_keeps_answered hk (fun _ heq => by cases heq) hj
  | serves hk => exact set_keeps_answered hk (fun _ heq => by cases heq) hj

theorem openedBy_set_self {k : Nat} {old new : AuthSession}
    {opened : List (Transactional.Write User Empty)} (hk : s.sessions[k]? = some old)
    (hset : s'.sessions = s.sessions.set k new) (hnew : new.stage.opened = opened) :
    s'.openedBy k = opened := by
  rw [Service.openedBy, hset, List.getElem?_set_self (List.getElem?_eq_some_iff.mp hk).1, ← hnew]

theorem openedBy_set_ne {k j : Nat} {new : AuthSession} (hne : k ≠ j)
    (hset : s'.sessions = s.sessions.set k new) : s'.openedBy j = s.openedBy j := by
  rw [Service.openedBy, Service.openedBy, hset, List.getElem?_set_ne hne]

theorem openedBy_of_some {k : Nat} {session : AuthSession} (hk : s.sessions[k]? = some session) :
    s.openedBy k = session.stage.opened := by
  rw [Service.openedBy, hk]

/-! ## What a step does to the accounts -/

/-- A session takes a row into the table, or out of it again. -/
inductive AccountStep (s s' : Service) : Prop
  | keeps (hrows : s'.users.rows = s.users.rows)
      (huncommitted : s'.users.uncommitted = s.users.uncommitted)
      (hnext : s.users.nextId ≤ s'.users.nextId) (hopened : ∀ j, s'.openedBy j = s.openedBy j)
      (hregistrations : s'.registrations = s.registrations) (hdeleted : s'.deleted = s.deleted)
  | inserts {k : Nat} {user : User} (hnothing : s.openedBy k = [])
      (hid : user.id = s.users.nextId) (hfree : s.users.blocked User.schema k user.email = false)
      (hnew : s.users.taken User.schema k user.email = false)
      (husers : s'.users =
        ⟨s.users.rows, s.users.uncommitted ++ [(k, .insert user)], s.users.nextId + 1⟩)
      (hown : s'.openedBy k = [.insert user]) (hothers : ∀ j, k ≠ j → s'.openedBy j = s.openedBy j)
      (hregistrations : s'.registrations = s.registrations) (hdeleted : s'.deleted = s.deleted)
  | commits {k : Nat} {user : User} (hopen : s.openedBy k = [.insert user])
      (husers : s'.users = s.users.commit User.schema k) (hown : s'.openedBy k = [])
      (hothers : ∀ j, k ≠ j → s'.openedBy j = s.openedBy j)
      (hregistrations : s'.registrations = s.registrations ++ [⟨k, user⟩])
      (hdeleted : s'.deleted = s.deleted)
  | aborts {k : Nat} (husers : s'.users = s.users.rollback k) (hown : s'.openedBy k = [])
      (hothers : ∀ j, k ≠ j → s'.openedBy j = s.openedBy j)
      (hregistrations : s'.registrations = s.registrations) (hdeleted : s'.deleted = s.deleted)
  | deletes {id : Nat} (hrow : ∃ user ∈ s.users.rows, user.id = id)
      (husers : s'.users = s.users.delete (·.id = id)) (hopened : ∀ j, s'.openedBy j = s.openedBy j)
      (hregistrations : s'.registrations = s.registrations)
      (hdeleted : s'.deleted = s.deleted ++ [id])

theorem openedBy_append {request : AuthRequest}
    (hsessions : s'.sessions = s.sessions ++ [⟨request, Service.firstStage env request⟩])
    (j : Nat) : s'.openedBy j = s.openedBy j := by
  have hfirst : (Service.firstStage env request).opened = [] := by
    cases request with
    | register typed password =>
        simp only [Service.firstStage]
        split <;> rfl
    | token username password => rfl
    | tripAlerts bearer route => rfl
  rw [Service.openedBy, Service.openedBy, hsessions]
  rcases lt_trichotomy j s.sessions.length with hlt | rfl | hgt
  · rw [List.getElem?_append_left hlt]
  · simp [hfirst]
  · rw [List.getElem?_eq_none (le_of_lt hgt), List.getElem?_eq_none]
    rw [List.length_append, List.length_singleton]
    exact hgt

/-- A session that holds nothing before and after its step. -/
theorem openedBy_idle {k : Nat} {request : AuthRequest} {stage stage' : AuthStage}
    (hk : s.sessions[k]? = some ⟨request, stage⟩) (hbefore : stage.opened = [])
    (hafter : stage'.opened = []) (hset : s'.sessions = s.sessions.set k ⟨request, stage'⟩)
    (j : Nat) : s'.openedBy j = s.openedBy j := by
  by_cases hne : k = j
  · subst hne
    rw [openedBy_set_self hk hset hafter, openedBy_of_some hk, hbefore]
  · exact openedBy_set_ne hne hset

theorem account_step (h : Consistent env s) (hmove : ServiceMoves env repr s event s') :
    AccountStep s s' := by
  cases hmove with
  | arrives request =>
      exact .keeps rfl rfl le_rfl (openedBy_append rfl) rfl rfl
  | hashes hk => exact .keeps rfl rfl le_rfl (openedBy_idle hk rfl rfl rfl) rfl rfl
  | flushes hk hid hfree hnew =>
      exact .inserts (openedBy_of_some hk) hid hfree hnew rfl (openedBy_set_self hk rfl rfl)
        (fun _ hne => openedBy_set_ne hne rfl) rfl rfl
  | @conflicts k request salt now email hashedPassword hk htaken =>
      have hnothing : Table.openOf { s.users with nextId := s.users.nextId + 1 } k = [] :=
        (h.opened k).trans (openedBy_of_some hk)
      have husers := Table.rollback_eq_self hnothing
      exact .keeps (congrArg (·.rows) husers) (congrArg (·.uncommitted) husers)
        (Nat.le_succ _) (openedBy_idle hk rfl rfl rfl) rfl rfl
  | commits hk =>
      exact .commits (openedBy_of_some hk) rfl (openedBy_set_self hk rfl rfl)
        (fun _ hne => openedBy_set_ne hne rfl) rfl rfl
  | selects hk => exact .keeps rfl rfl le_rfl (openedBy_idle hk rfl rfl rfl) rfl rfl
  | signs hk => exact .keeps rfl rfl le_rfl (openedBy_idle hk rfl rfl rfl) rfl rfl
  | authenticates hk => exact .keeps rfl rfl le_rfl (openedBy_idle hk rfl rfl rfl) rfl rfl
  | serves hk => exact .keeps rfl rfl le_rfl (openedBy_idle hk rfl rfl rfl) rfl rfl
  | refuses hk =>
      exact .aborts rfl (openedBy_set_self hk rfl rfl) (fun _ hne => openedBy_set_ne hne rfl) rfl
        rfl
  | breaks hk =>
      exact .aborts rfl (openedBy_set_self hk rfl rfl) (fun _ hne => openedBy_set_ne hne rfl) rfl
        rfl
  | deletes hrow => exact .deletes hrow rfl (fun _ => rfl) rfl rfl

/-! ## One step keeps the accounts consistent -/

namespace AccountStep

theorem keyed (h : Consistent env s) (hstep : AccountStep s s') :
    s'.users.WellKeyed User.schema := by
  cases hstep with
  | keeps hrows huncommitted hnext =>
      have hpending : s'.users.pendingRows = s.users.pendingRows := by
        rw [Table.pendingRows, Table.pendingRows, huncommitted]
      refine ⟨?_, ?_, ?_⟩
      · rw [hrows, hpending]
        exact h.keyed.keys
      · rw [hrows, hpending]
        exact h.keyed.idents
      · rw [hrows, hpending]
        exact fun r hr => lt_of_lt_of_le (h.keyed.below r hr) hnext
  | @inserts k user hnothing hid hfree hnew husers =>
      have hinsert : s.users.insertOnConflictDoNothing User.schema k
          (fun id => { user with id }) = some (s'.users, some user) := by
        have hrow : { user with id := s.users.nextId } = user := by rw [← hid]
        rw [Table.insertOnConflictDoNothing, husers]
        simp only [hrow, show User.schema.key user = user.email from rfl, hfree, hnew,
          Bool.false_eq_true, if_false]
      exact h.keyed.insert (fun _ => rfl) hinsert
  | commits hopen husers =>
      rw [husers]
      exact h.keyed.commit _
  | aborts husers =>
      rw [husers]
      exact h.keyed.rollback _
  | deletes hrow husers =>
      rw [husers]
      exact h.keyed.delete _

theorem opened (h : Consistent env s) (hstep : AccountStep s s') (j : Nat) :
    s'.users.openOf j = s'.openedBy j := by
  cases hstep with
  | keeps hrows huncommitted hnext hopened =>
      rw [hopened, ← h.opened, Table.openOf, Table.openOf, huncommitted]
  | @inserts k user hnothing hid hfree hnew husers hown hothers =>
      rw [husers, Table.openOf_insert, h.opened]
      by_cases hne : k = j
      · subst hne
        rw [if_pos rfl, hown, hnothing, List.nil_append]
      · rw [if_neg hne, hothers j hne, List.append_nil]
  | @commits k user hopen husers hown hothers =>
      rw [husers]
      by_cases hne : k = j
      · subst hne
        rw [Table.openOf_commit_self, hown]
      · rw [Table.openOf_commit_other _ _ hne, hothers j hne, h.opened]
  | @aborts k husers hown hothers =>
      rw [husers]
      by_cases hne : k = j
      · subst hne
        rw [Table.openOf_rollback_self, hown]
      · rw [Table.openOf_rollback_other _ hne, hothers j hne, h.opened]
  | deletes hrow husers hopened =>
      rw [husers, hopened, ← h.opened]
      rfl

/-- The row a session is about to commit stands in its transaction. -/
theorem mem_pendingRows (h : Consistent env s) {k : Nat} {user : User}
    (hopen : s.openedBy k = [.insert user]) : user ∈ s.users.pendingRows := by
  refine Table.mem_pendingRows.mpr ⟨k, Table.mem_openOf.mp ?_⟩
  rw [h.opened, hopen]
  exact List.mem_singleton.mpr rfl

theorem ids (h : Consistent env s) (hstep : AccountStep s s') :
    (s'.registrations.map (·.user.id) ++ s'.users.pendingRows.map (·.id)).Nodup := by
  cases hstep with
  | keeps hrows huncommitted hnext hopened hregistrations =>
      rw [hregistrations, Table.pendingRows, huncommitted]
      exact h.ids
  | @inserts k user hnothing hid hfree hnew husers hown hothers hregistrations =>
      have hpending : s'.users.pendingRows = s.users.pendingRows ++ [user] := by
        rw [husers]
        simp [Table.pendingRows, Transactional.Write.row?]
      rw [hregistrations, hpending, List.map_append, ← List.append_assoc, List.nodup_append]
      refine ⟨h.ids, List.nodup_singleton _, ?_⟩
      intro id hold id' hid' heq
      rw [List.map_singleton, List.mem_singleton] at hid'
      rw [heq, hid', hid] at hold
      rcases List.mem_append.mp hold with hold | hold
      · obtain ⟨r, hr, hrid⟩ := List.mem_map.mp hold
        exact absurd (h.below r hr) (by omega)
      · obtain ⟨row, hrow, hrid⟩ := List.mem_map.mp hold
        have hlt := h.keyed.below row (List.mem_append_right _ hrow)
        exact absurd hlt (by simp only [User.schema]; omega)
  | @commits k user hopen husers hown hothers hregistrations =>
      have hperm := Table.pendingRows_commit_perm (S := User.schema) s.users k
      rw [h.opened, hopen] at hperm
      rw [hregistrations, husers, List.map_append, List.append_assoc]
      refine (List.Perm.append_left _ ?_).nodup_iff.mpr h.ids
      exact hperm.map _
  | @aborts k husers hown hothers hregistrations =>
      rw [hregistrations, husers]
      have hsub : (s.users.rollback k).pendingRows.Sublist s.users.pendingRows :=
        List.filter_sublist.filterMap _
      exact h.ids.sublist ((hsub.map _).append_left _)
  | deletes hrow husers hopened hregistrations =>
      rw [hregistrations, husers]
      exact h.ids

theorem below (h : Consistent env s) (hstep : AccountStep s s') :
    ∀ r ∈ s'.registrations, r.user.id < s'.users.nextId := by
  cases hstep with
  | keeps hrows huncommitted hnext hopened hregistrations =>
      rw [hregistrations]
      exact fun r hr => lt_of_lt_of_le (h.below r hr) hnext
  | inserts hnothing hid hfree hnew husers hown hothers hregistrations =>
      rw [hregistrations, husers]
      exact fun r hr => Nat.lt_succ_of_lt (h.below r hr)
  | commits hopen husers hown hothers hregistrations =>
      rw [hregistrations, husers]
      intro r hr
      rcases List.mem_append.mp hr with hr | hr
      · exact h.below r hr
      · rw [List.mem_singleton.mp hr]
        exact h.keyed.below _ (List.mem_append_right _ (mem_pendingRows h hopen))
  | aborts husers hown hothers hregistrations =>
      rw [hregistrations, husers]
      exact h.below
  | deletes hrow husers hopened hregistrations =>
      rw [hregistrations, husers]
      exact h.below

theorem deleted (h : Consistent env s) (hstep : AccountStep s s') :
    ∀ id ∈ s'.deleted, ∃ r ∈ s'.registrations, r.user.id = id := by
  cases hstep with
  | keeps hrows huncommitted hnext hopened hregistrations hdeleted =>
      rw [hregistrations, hdeleted]
      exact h.deleted
  | inserts hnothing hid hfree hnew husers hown hothers hregistrations hdeleted =>
      rw [hregistrations, hdeleted]
      exact h.deleted
  | commits hopen husers hown hothers hregistrations hdeleted =>
      rw [hregistrations, hdeleted]
      intro id hid
      obtain ⟨r, hr, hrid⟩ := h.deleted id hid
      exact ⟨r, List.mem_append_left _ hr, hrid⟩
  | aborts husers hown hothers hregistrations hdeleted =>
      rw [hregistrations, hdeleted]
      exact h.deleted
  | deletes hrow husers hopened hregistrations hdeleted =>
      rw [hregistrations, hdeleted]
      intro id hid
      rcases List.mem_append.mp hid with hid | hid
      · exact h.deleted id hid
      · obtain ⟨user, huser, rfl⟩ := hrow
        rw [h.rows, List.mem_filter] at huser
        obtain ⟨r, hr, rfl⟩ := List.mem_map.mp huser.1
        exact ⟨r, hr, (List.mem_singleton.mp hid).symm⟩

/-- A number that is still open was never deleted. -/
theorem notMem_deleted (h : Consistent env s) {user : User} (huser : user ∈ s.users.pendingRows) :
    user.id ∉ s.deleted := by
  intro hmem
  obtain ⟨r, hr, hid⟩ := h.deleted _ hmem
  exact (List.nodup_append.mp h.ids).2.2 _ (List.mem_map_of_mem hr) _
    (List.mem_map_of_mem huser) hid

theorem rows (h : Consistent env s) (hstep : AccountStep s s') :
    s'.users.rows = (s'.registrations.map (·.user)).filter (·.id ∉ s'.deleted) := by
  cases hstep with
  | keeps hrows huncommitted hnext hopened hregistrations hdeleted =>
      rw [hregistrations, hdeleted, hrows, h.rows]
  | inserts hnothing hid hfree hnew husers hown hothers hregistrations hdeleted =>
      rw [hregistrations, hdeleted, husers, h.rows]
  | @commits k user hopen husers hown hothers hregistrations hdeleted =>
      have hnew := notMem_deleted h (mem_pendingRows h hopen)
      rw [hregistrations, hdeleted, husers, List.map_append, List.filter_append,
        Table.rows_commit_insert _ ((h.opened k).trans hopen), h.rows]
      simp [hnew]
  | aborts husers hown hothers hregistrations hdeleted =>
      rw [hregistrations, hdeleted, husers, ← h.rows]
      rfl
  | deletes hrow husers hopened hregistrations hdeleted =>
      rw [hregistrations, hdeleted, husers, Table.delete, h.rows, List.filter_filter]
      refine List.filter_congr fun user _ => ?_
      simp [and_comm]

end AccountStep

/-! ## One step keeps the sessions sound -/

theorem RefusedRegistration.mono {registrations registrations' : List Registration}
    (hgrow : registrations ⊆ registrations') {typed password : String} {refusal : Refusal}
    (h : RefusedRegistration env registrations typed password refusal) :
    RefusedRegistration env registrations' typed password refusal := by
  rcases h with h | ⟨body, hbody, ⟨hrefusal, r, hr, hemail⟩ | hrefusal⟩
  · exact Or.inl h
  · exact Or.inr ⟨body, hbody, Or.inl ⟨hrefusal, r, hgrow hr, hemail⟩⟩
  · exact Or.inr ⟨body, hbody, Or.inr hrefusal⟩

theorem AuthSession.Sound.mono {registrations registrations' : List Registration}
    (hgrow : registrations ⊆ registrations') {k : Nat} {session : AuthSession}
    (h : session.Sound env registrations k) : session.Sound env registrations' k := by
  obtain ⟨request, stage⟩ := session
  cases stage with
  | verifying user password =>
      obtain ⟨username, hrequest, hknown⟩ := h
      refine ⟨username, hrequest, fun u hu => ?_⟩
      obtain ⟨hemail, r, hr, hruser⟩ := hknown u hu
      exact ⟨hemail, r, hgrow hr, hruser⟩
  | serving user route =>
      obtain ⟨hrequest, r, hr, hruser⟩ := h
      exact ⟨hrequest, r, hgrow hr, hruser⟩
  | answered answer =>
      cases answer with
      | registered out =>
          obtain ⟨r, hr, hrest⟩ := h
          exact ⟨r, hgrow hr, hrest⟩
      | refused refusal => exact fun typed password heq => (h typed password heq).mono hgrow
      | token accessToken => exact h
      | tripAlerts answer => exact h
  | _ => exact h

theorem firstStage_sound (registrations : List Registration) (k : Nat) (request : AuthRequest) :
    AuthSession.Sound env registrations k ⟨request, Service.firstStage env request⟩ := by
  cases request with
  | register typed password =>
      simp only [Service.firstStage]
      split
      · rename_i body hbody
        exact ⟨typed, password, rfl, hbody⟩
      · rename_i hnone
        rintro typed' password' heq
        cases heq
        exact Or.inl ⟨rfl, hnone⟩
  | token username password => exact ⟨username, rfl, rfl⟩
  | tripAlerts bearer route => rfl

/-- Where one session moves, it is enough to look at that one. -/
theorem sound_set (h : Consistent env s) {registrations : List Registration}
    (hgrow : s.registrations ⊆ registrations) {k : Nat} {new : AuthSession}
    (hnew : new.Sound env registrations k) (j : Nat) (session : AuthSession)
    (hj : (s.sessions.set k new)[j]? = some session) : session.Sound env registrations j := by
  by_cases hne : k = j
  · subst hne
    have hk : k < s.sessions.length := by
      simpa using (List.getElem?_eq_some_iff.mp hj).1
    rw [List.getElem?_set_self hk, Option.some.injEq] at hj
    exact hj ▸ hnew
  · rw [List.getElem?_set_ne hne] at hj
    exact (h.sessions j session hj).mono hgrow

/-- A refused request that was a registration had a valid body, once it waits for anything. -/
theorem userCreate_of_sound {registrations : List Registration} {k : Nat} {typed password : String}
    {stage : AuthStage} (hwaits : ∀ answer, stage ≠ .answered answer)
    (h : AuthSession.Sound env registrations k ⟨.register typed password, stage⟩) :
    ∃ body, env.userCreate typed password = some body := by
  have hmakes : ∀ {email hashedPassword : String},
      Makes env (.register typed password) email hashedPassword →
        ∃ body, env.userCreate typed password = some body := by
    rintro email hashedPassword ⟨typed', password', body, salt, heq, hbody, -⟩
    cases heq
    exact ⟨body, hbody⟩
  cases stage with
  | hashing body =>
      obtain ⟨typed', password', heq, hbody⟩ := h
      cases heq
      exact ⟨body, hbody⟩
  | flushing email hashedPassword => exact hmakes h
  | committing user => exact hmakes h.1
  | selecting email password' =>
      obtain ⟨username, heq, -⟩ := h
      cases heq
  | verifying user password' =>
      obtain ⟨username, heq, -⟩ := h
      cases heq
  | authenticating bearer route => cases h
  | serving user route =>
      obtain ⟨⟨bearer, heq⟩, -⟩ := h
      cases heq
  | answered answer => exact absurd rfl (hwaits answer)

/-- What a registration waits for is refused with a 500, the taken address apart. -/
theorem RefusedFor.eq_internalServerError {salt : String} {now : Timestamp} {stage : AuthStage}
    {refusal : Refusal} {registrations : List Registration} {k : Nat} {typed password : String}
    (hwhy : RefusedFor env s salt now stage refusal)
    (h : AuthSession.Sound env registrations k ⟨.register typed password, stage⟩) :
    refusal = internalServerError := by
  cases stage with
  | hashing body => exact hwhy.1
  | flushing email hashedPassword => exact hwhy.1
  | committing user => exact hwhy.elim
  | selecting email password' =>
      obtain ⟨username, heq, -⟩ := h
      cases heq
  | verifying user password' =>
      obtain ⟨username, heq, -⟩ := h
      cases heq
  | authenticating bearer route => cases h
  | serving user route => exact hwhy.elim
  | answered answer => exact hwhy.elim

theorem internalServerError_sound {k : Nat} {request : AuthRequest} {stage : AuthStage}
    (hwaits : ∀ answer, stage ≠ .answered answer)
    (h : AuthSession.Sound env s.registrations k ⟨request, stage⟩) :
    AuthSession.Sound env s.registrations k
      ⟨request, .answered (.refused internalServerError)⟩ := by
  rintro typed password rfl
  obtain ⟨body, hbody⟩ := userCreate_of_sound hwaits h
  exact Or.inr ⟨body, hbody, Or.inr rfl⟩

/-- A taken address belongs to somebody's committed account. -/
theorem Consistent.registered_of_taken (h : Consistent env s) {k : Nat} {email : String}
    (hnothing : s.openedBy k = []) (htaken : s.users.taken User.schema k email = true) :
    ∃ r ∈ s.registrations, r.user.email = email := by
  rcases (Table.taken_eq_true User.schema).mp htaken with ⟨row, hrow, hkey⟩ | ⟨row, hrow, -⟩
  · rw [h.rows, List.mem_filter] at hrow
    obtain ⟨r, hr, rfl⟩ := List.mem_map.mp hrow.1
    exact ⟨r, hr, hkey⟩
  · have hmem := Table.mem_openOf.mpr hrow
    rw [h.opened, hnothing] at hmem
    cases hmem

theorem Consistent.registered_of_mem (h : Consistent env s) {user : User}
    (huser : user ∈ s.users.rows) : ∃ r ∈ s.registrations, r.user = user := by
  rw [h.rows, List.mem_filter] at huser
  obtain ⟨r, hr, rfl⟩ := List.mem_map.mp huser.1
  exact ⟨r, hr, rfl⟩

theorem mem_of_oneOrNone {rows : List User} {user : User} (h : oneOrNone rows = .ok (some user)) :
    user ∈ rows := by
  cases rows with
  | nil => cases h
  | cons head rest =>
      cases rest with
      | nil =>
          cases h
          exact List.mem_singleton.mpr rfl
      | cons next rest => cases h

theorem getCurrentUser_eq_ok {users : List User} {now : Timestamp} {token : String} {user : User}
    (h : env.getCurrentUser users now token = .ok user) :
    ∃ payload, env.decode now token = some payload ∧
      Text.int payload.sub.toList = some (user.id : Int) ∧ user ∈ users := by
  unfold AuthEnv.getCurrentUser AuthEnv.decodeToken at h
  cases hdecode : env.decode now token with
  | none =>
      rw [hdecode] at h
      cases h
  | some payload =>
      rw [hdecode] at h
      by_cases hsub : payload.sub = ""
      · simp [hsub] at h
      · simp only [hsub, if_false] at h
        split at h
        · cases h
        · rename_i userId hint
          split at h
          · cases h
          · split at h
            · rename_i found hfound
              cases h
              refine ⟨payload, rfl, ?_, List.mem_of_find?_eq_some hfound⟩
              rw [hint, Option.some.injEq]
              have hid := List.find?_some hfound
              exact (of_decide_eq_true hid).symm
            · cases h

theorem sessions_step (h : Consistent env s) (hmove : ServiceMoves env repr s event s') (j : Nat)
    (session : AuthSession) (hj : s'.sessions[j]? = some session) :
    session.Sound env s'.registrations j := by
  cases hmove with
  | arrives request =>
      rcases lt_or_ge j s.sessions.length with hlt | hge
      · rw [List.getElem?_append_left hlt] at hj
        exact h.sessions j session hj
      · rw [List.getElem?_append_right hge] at hj
        have hnew := List.mem_of_getElem? hj
        rw [List.mem_singleton] at hnew
        rw [hnew]
        exact firstStage_sound s.registrations j request
  | @hashes k request salt now body hashed hk hhashed =>
      obtain ⟨typed, password, hrequest, hbody⟩ := h.sessions k _ hk
      refine sound_set h (List.Subset.refl _) ?_ j session hj
      exact ⟨typed, password, body, salt, hrequest, hbody, rfl, hhashed⟩
  | @flushes k request salt now user hk hid hfree hnew hroom htext =>
      have hmakes : Makes env request user.email user.hashedPassword := h.sessions k _ hk
      refine sound_set h (List.Subset.refl _) ?_ j session hj
      exact ⟨hmakes, hid ▸ hroom, htext⟩
  | @conflicts k request salt now email hashedPassword hk htaken =>
      refine sound_set h (List.Subset.refl _) ?_ j session hj
      obtain ⟨typed, password, body, salt, hrequest, hbody, rfl, -⟩ := h.sessions k _ hk
      have hregistered := h.registered_of_taken (openedBy_of_some hk) htaken
      rintro typed' password' heq
      cases hrequest.symm.trans heq
      exact Or.inr ⟨body, hbody, Or.inl ⟨rfl, hregistered⟩⟩
  | @commits event k request user answer hk hanswer =>
      obtain ⟨hmakes, -⟩ : Makes env request user.email user.hashedPassword ∧ user.Stored :=
        h.sessions k _ hk
      refine sound_set h (List.subset_append_left _ _) ?_ j session hj
      rcases hanswer with rfl | rfl
      · exact ⟨⟨k, user⟩, List.mem_append_right _ (List.mem_singleton.mpr rfl), rfl, rfl, hmakes⟩
      · rintro typed password rfl
        obtain ⟨typed', password', body, salt, heq, hbody, -⟩ := hmakes
        cases heq
        exact Or.inr ⟨body, hbody, Or.inr rfl⟩
  | @selects k request salt now email password user hk huser =>
      obtain ⟨username, hrequest, hemail⟩ := h.sessions k _ hk
      refine sound_set h (List.Subset.refl _) ?_ j session hj
      refine ⟨username, hrequest, ?_⟩
      rintro u rfl
      obtain ⟨hmem, hkey⟩ := List.mem_filter.mp (mem_of_oneOrNone huser)
      exact ⟨(of_decide_eq_true hkey).trans hemail, h.registered_of_mem hmem⟩
  | @signs k request salt now user password hk =>
      obtain ⟨username, hrequest, -⟩ := h.sessions k _ hk
      refine sound_set h (List.Subset.refl _) ?_ j session hj
      exact ⟨username, password, hrequest⟩
  | @authenticates k request salt now bearer route user hk huser =>
      have hrequest : request = .tripAlerts bearer route := h.sessions k _ hk
      obtain ⟨payload, -, -, hmem⟩ := getCurrentUser_eq_ok huser
      refine sound_set h (List.Subset.refl _) ?_ j session hj
      exact ⟨⟨bearer, hrequest⟩, h.registered_of_mem hmem⟩
  | @serves k request salt now user route hk =>
      obtain ⟨⟨bearer, hrequest⟩, -⟩ := h.sessions k _ hk
      refine sound_set h (List.Subset.refl _) ?_ j session hj
      exact ⟨bearer, route, hrequest⟩
  | @refuses k request salt now stage refusal hk hwhy =>
      have hsound := h.sessions k _ hk
      refine sound_set h (List.Subset.refl _) ?_ j session hj
      rintro typed password rfl
      obtain ⟨body, hbody⟩ := userCreate_of_sound hwhy.waits hsound
      exact Or.inr ⟨body, hbody, Or.inr (hwhy.eq_internalServerError hsound)⟩
  | @breaks k durable request stage tripAlerts hk hwaits =>
      exact sound_set h (List.Subset.refl _)
        (internalServerError_sound hwaits (h.sessions k _ hk)) j session hj
  | deletes hrow => exact h.sessions j session hj

/-! ## Every run -/

/-- An account is recorded as its commit goes through, and never otherwise. -/
theorem registrations_cases (hmove : ServiceMoves env repr s event s') :
    s'.registrations = s.registrations ∨
      ∃ k request user answer, s.sessions[k]? = some ⟨request, .committing user⟩ ∧
        (answer = .registered user.out ∨ answer = .refused internalServerError) ∧
        s' = s.commitUser k request user answer := by
  cases hmove with
  | commits hk hanswer => exact Or.inr ⟨_, _, _, _, hk, hanswer, rfl⟩
  | _ => exact Or.inl rfl

theorem registered_step (h : Consistent env s) (hmove : ServiceMoves env repr s event s') :
    ∀ r ∈ s'.registrations, ∃ request answer,
      s'.sessions[r.session]? = some ⟨request, .answered answer⟩ ∧
        (answer = .registered r.user.out ∨ answer = .refused internalServerError) ∧
        Makes env request r.user.email r.user.hashedPassword := by
  have hold : ∀ r ∈ s.registrations, ∃ request answer,
      s'.sessions[r.session]? = some ⟨request, .answered answer⟩ ∧
        (answer = .registered r.user.out ∨ answer = .refused internalServerError) ∧
        Makes env request r.user.email r.user.hashedPassword := by
    intro r hr
    obtain ⟨request, answer, hsession, hrest⟩ := h.registered r hr
    exact ⟨request, answer, answered_stays hmove hsession, hrest⟩
  rcases registrations_cases hmove with hsame | ⟨k, request, user, answer, hk, hanswer, rfl⟩
  · rw [hsame]
    exact hold
  · intro r hr
    rcases List.mem_append.mp hr with hr | hr
    · exact hold r hr
    · rw [List.mem_singleton.mp hr]
      obtain ⟨hmakes, -⟩ : Makes env request user.email user.hashedPassword ∧ user.Stored :=
        h.sessions k _ hk
      refine ⟨request, answer, ?_, hanswer, hmakes⟩
      exact List.getElem?_set_self (List.getElem?_eq_some_iff.mp hk).1

theorem registrants_step (h : Consistent env s) (hmove : ServiceMoves env repr s event s') :
    (s'.registrations.map (·.session)).Nodup := by
  rcases registrations_cases hmove with hsame | ⟨k, request, user, answer, hk, -, rfl⟩
  · rw [hsame]
    exact h.registrants
  · simp only [Service.commitUser, List.map_append, List.nodup_append]
    refine ⟨h.registrants, List.nodup_singleton _, ?_⟩
    rintro k' hold k'' hnew rfl
    obtain ⟨r, hr, rfl⟩ := List.mem_map.mp hold
    obtain ⟨request', answer', hsession, -⟩ := h.registered r hr
    -- a session that made an account has its answer, the one that commits has none yet
    rw [List.map_singleton, List.mem_singleton] at hnew
    rw [hnew] at hsession
    cases hk.symm.trans hsession

theorem stored_step (h : Consistent env s) (hmove : ServiceMoves env repr s event s') :
    ∀ r ∈ s'.registrations, r.user.Stored := by
  rcases registrations_cases hmove with hsame | ⟨k, request, user, answer, hk, -, rfl⟩
  · rw [hsame]
    exact h.stored
  · intro r hr
    rcases List.mem_append.mp hr with hr | hr
    · exact h.stored r hr
    · rw [List.mem_singleton.mp hr]
      exact (h.sessions k _ hk).2

theorem consistent_step (h : Consistent env s) (hmove : ServiceMoves env repr s event s') :
    Consistent env s' := by
  have haccount := account_step h hmove
  exact
    { keyed := haccount.keyed h
      opened := haccount.opened h
      ids := haccount.ids h
      below := haccount.below h
      rows := haccount.rows h
      deleted := haccount.deleted h
      registrants := registrants_step h hmove
      registered := registered_step h hmove
      stored := stored_step h hmove
      sessions := sessions_step h hmove }

theorem empty_consistent : Consistent env Service.empty where
  keyed := ⟨List.nodup_nil, List.nodup_nil, fun _ hr => by cases hr⟩
  opened _ := rfl
  ids := List.nodup_nil
  below _ hr := by cases hr
  rows := rfl
  deleted _ hid := by cases hid
  registrants := List.nodup_nil
  registered _ hr := by cases hr
  stored _ hr := by cases hr
  sessions _ _ hk := by cases hk

theorem consistent_of_exec {events : List ServiceEvent}
    (h : Run.exec (Service.step env repr) Service.empty events = some s) : Consistent env s :=
  Run.exec_invariant (fun _ _ _ hs _ hstep => consistent_step hs (service_moves hstep))
    empty_consistent (Run.meets_true _ _) h

/-- What a registration was answered, read off the accounts. -/
def RegistrationOutcome (env : AuthEnv) (s : Service) (k : Nat) (typed password : String)
    (answer : AuthAnswer) : Prop :=
  (answer = .refused .unprocessable ∧ env.userCreate typed password = none ∧
    ∀ r ∈ s.registrations, r.session ≠ k) ∨
  ∃ body, env.userCreate typed password = some body ∧
    ((∃ user salt, answer = .registered user.out ∧ ⟨k, user⟩ ∈ s.registrations ∧
        user.email = body.email ∧ env.hashpw body.password salt = some user.hashedPassword ∧
        (user ∈ s.users.rows ∨ user.id ∈ s.deleted)) ∨
      (answer = .refused emailTaken ∧ (∀ r ∈ s.registrations, r.session ≠ k) ∧
        ∃ r ∈ s.registrations, r.user.email = body.email) ∨
      answer = .refused internalServerError)

theorem registrationOutcome (h : Consistent env s) {k : Nat} {typed password : String}
    {answer : AuthAnswer}
    (hk : s.sessions[k]? = some ⟨.register typed password, .answered answer⟩) :
    RegistrationOutcome env s k typed password answer := by
  have hsound := h.sessions k _ hk
  -- a session that made an account was answered for it, or broke off
  have hnobody : ∀ refusal, answer = .refused refusal → refusal ≠ internalServerError →
      ∀ r ∈ s.registrations, r.session ≠ k := by
    rintro refusal rfl hrefusal r hr rfl
    obtain ⟨request, answer, hsession, hanswer, -⟩ := h.registered r hr
    cases hk.symm.trans hsession
    rcases hanswer with hanswer | hanswer
    · cases hanswer
    · cases hanswer
      exact hrefusal rfl
  cases answer with
  | registered out =>
      obtain ⟨r, hr, rfl, rfl, typed', password', body, salt, heq, hbody, hemail, hhash⟩ := hsound
      cases heq
      refine Or.inr ⟨body, hbody, Or.inl ⟨r.user, salt, rfl, hr, hemail, hhash, ?_⟩⟩
      rw [h.rows, List.mem_filter, decide_eq_true_eq]
      by_cases hgone : r.user.id ∈ s.deleted
      · exact Or.inr hgone
      · exact Or.inl ⟨List.mem_map_of_mem hr, hgone⟩
  | refused refusal =>
      rcases hsound typed password rfl with ⟨rfl, hnone⟩ | ⟨body, hbody, ⟨rfl, r, hr, hemail⟩ | rfl⟩
      · exact Or.inl ⟨rfl, hnone, hnobody _ rfl (by decide)⟩
      · exact Or.inr ⟨body, hbody, Or.inr (Or.inl ⟨rfl, hnobody _ rfl (by decide), r, hr, hemail⟩)⟩
      · exact Or.inr ⟨body, hbody, Or.inr (Or.inr rfl)⟩
  | token accessToken =>
      obtain ⟨username, password', heq⟩ := hsound
      cases heq
  | tripAlerts answer =>
      obtain ⟨bearer, route, heq⟩ := hsound
      cases heq

/-- **One account per address.**  In every run, whatever is interleaved, fails or is deleted:
    no two accounts share an address or a number; each was made by exactly one registration,
    which was answered for it (or broke off as it was committed); and a registration is answered
    with its own account, or a 409 where another one has the address, or leaves nothing. -/
theorem accounts_sound (env : AuthEnv) (repr : String → String) (events : List ServiceEvent)
    (s : Service) (hrun : Run.exec (Service.step env repr) Service.empty events = some s) :
    (s.users.rows.map (·.email)).Nodup ∧ (s.users.rows.map (·.id)).Nodup ∧
    (∀ user ∈ s.users.rows, ∃ k typed password answer body salt,
      s.sessions[k]? = some ⟨.register typed password, .answered answer⟩ ∧
      (answer = .registered user.out ∨ answer = .refused internalServerError) ∧
      env.userCreate typed password = some body ∧ user.email = body.email ∧
      env.hashpw body.password salt = some user.hashedPassword ∧
      ∀ r ∈ s.registrations, r.user.id = user.id ↔ r.session = k) ∧
    ∀ k typed password answer,
      s.sessions[k]? = some ⟨.register typed password, .answered answer⟩ →
        RegistrationOutcome env s k typed password answer := by
  have h := consistent_of_exec hrun
  have hkeys := h.keyed.keys
  have hidents := h.keyed.idents
  rw [List.map_append] at hkeys hidents
  refine ⟨hkeys.of_append_left, hidents.of_append_left, ?_, fun _ _ _ _ => registrationOutcome h⟩
  intro user huser
  obtain ⟨r, hr, rfl⟩ := h.registered_of_mem huser
  obtain ⟨request, answer, hsession, hanswer, typed, password, body, salt, rfl, hbody, hemail,
    hhash⟩ := h.registered r hr
  refine ⟨r.session, typed, password, answer, body, salt, hsession, hanswer, hbody, hemail, hhash,
    fun r' hr' => ⟨fun hid => ?_, fun hk => ?_⟩⟩
  · have hnodup : (s.registrations.map (·.user.id)).Nodup := h.ids.of_append_left
    rw [List.inj_on_of_nodup_map hnodup hr' hr hid]
  · rw [List.inj_on_of_nodup_map h.registrants hr' hr hk]

/-! ### Two at once -/

/-- The second hash is there before the first row is; the index makes it wait for the commit. -/
def twoRegistrations : List ServiceEvent :=
  [.arrive (.register "Ann@x.nl" "correct horse"), .arrive (.register "ann@X.nl" "battery staple"),
   .resume 1 "vutsrqponmlkjihgfedcba" 0, .resume 0 "abcdefghijklmnopqrstuv" 0, .resume 0 "" 1000,
   .resume 0 "" 1001, .resume 1 "" 1002]

theorem twoRegistrations_runs :
    ∃ s, Run.exec (Service.step plainEnv String.quote) Service.empty twoRegistrations = some s :=
  Option.isSome_iff_exists.mp (by decide +kernel)

theorem accounts_sound_two :
    ∃ s, Run.exec (Service.step plainEnv String.quote) Service.empty twoRegistrations = some s ∧
      (s.users.rows.map (·.email)).Nodup := by
  obtain ⟨s, hs⟩ := twoRegistrations_runs
  exact ⟨s, hs, (accounts_sound plainEnv String.quote twoRegistrations s hs).1⟩

end FietsOfOv
