import FietsOfOv.Auth.Access

/-!
# Trip alerts and their owners

The trip-alert routes behind their authentication: every stored trip belongs to an account
that is there and has logged in, and the trips of an account change only by requests of
somebody who logged in to it, or as it is deleted.
-/

namespace FietsOfOv

open Transactional OwnedRows

variable {env : AuthEnv} {repr : String → String} {s s' : Service} {event : ServiceEvent}

theorem deleteTripAlert_sublist (t : TripAlertTable) (user : Nat) (alertId : Int) :
    (deleteTripAlert t user alertId).1.rows.Sublist t.rows := by
  simp only [deleteTripAlert]
  split
  · split
    · exact List.Sublist.refl _
    · exact List.filter_sublist
    · exact List.Sublist.refl _
  · exact List.Sublist.refl _

/-- What the body of a route leaves of the table; a new row has an owner. -/
theorem serveTripAlerts_cases (s : Service) (user : User) (route : TripAlertRequest) :
    (s.serveTripAlerts repr user route).1 = s.tripAlerts ∨
    (∃ row : TripAlert, row.userId = user.id ∧ s.tripAlerts.lastId < row.id ∧
      (∃ owner ∈ s.users.rows, owner.id = user.id) ∧
      (s.serveTripAlerts repr user route).1 = ⟨s.tripAlerts.rows ++ [row], row.id⟩) ∨
    ∃ row ∈ rowsOf (·.userId) s.tripAlerts.rows user.id,
      (s.serveTripAlerts repr user route).1 =
        ⟨remove (·.id) s.tripAlerts.rows row.id, s.tripAlerts.lastId⟩ := by
  have hserved := serve_cases repr s.tripAlerts ⟨user.id, route⟩
  cases route with
  | create body origin destination insertion =>
      simp only [Service.serveTripAlerts]
      split
      · rename_i howner
        have howner' : ∃ owner ∈ s.users.rows, owner.id = user.id := by simpa using howner
        rcases hserved with hsame | ⟨row, hown, hnew, hinserted⟩ | hremoved
        · exact Or.inl hsame
        · exact Or.inr (Or.inl ⟨row, hown, hnew, howner', hinserted⟩)
        · exact Or.inr (Or.inr hremoved)
      · split <;> exact Or.inl rfl
  | list => exact Or.inl rfl
  | delete alertId =>
      rcases hserved with hsame | ⟨row, -, -, hinserted⟩ | hremoved
      · exact Or.inl hsame
      · have hsub := (deleteTripAlert_sublist s.tripAlerts user.id alertId).length_le
        have hlonger : (deleteTripAlert s.tripAlerts user.id alertId).1 =
            ⟨s.tripAlerts.rows ++ [row], row.id⟩ := hinserted
        rw [hlonger, List.length_append, List.length_singleton] at hsub
        exact absurd hsub (Nat.not_succ_le_self _)
      · exact Or.inr (Or.inr hremoved)

/-- Every stored trip has its owner, who logged in. -/
structure Owned (s : Service) : Prop where
  serial : Serial (·.id) s.tripAlerts
  owners : ∀ row ∈ s.tripAlerts.rows,
    ∃ l ∈ s.logins, l.user ∈ s.users.rows ∧ l.user.id = row.userId

/-- The ways a step can touch the stored trips. -/
inductive TripsStep (env : AuthEnv) (repr : String → String) (s : Service) (event : ServiceEvent)
    (t : TripAlertTable) : Prop
  | keeps (hsame : t = s.tripAlerts) (hevent : ∀ userId, event ≠ .deleteUser userId)
  | serves {k : Nat} {request : AuthRequest} {user : User} {route : TripAlertRequest}
      (hmover : event.mover = some k) (hk : s.sessions[k]? = some ⟨request, .serving user route⟩)
      (hserved : t = (s.serveTripAlerts repr user route).1)
  | deletes {userId : Nat} (hevent : event = .deleteUser userId)
      (hgone : t = ⟨s.tripAlerts.rows.filter (·.userId ≠ userId), s.tripAlerts.lastId⟩)

theorem not_deleteUser {k : Nat} (hmover : event.mover = some k) (userId : Nat) :
    event ≠ .deleteUser userId := by
  rintro rfl
  cases hmover

theorem trips_step (hmove : ServiceMoves env repr s event s') :
    TripsStep env repr s event s'.tripAlerts := by
  cases hmove with
  | arrives request => exact .keeps rfl fun _ heq => by cases heq
  | commits hk hanswer hmover => exact .keeps rfl (not_deleteUser hmover)
  | serves hk => exact .serves rfl hk rfl
  | breaks hk hwaits halerts =>
      rcases halerts with hsame | ⟨user, route, rfl, hserved⟩
      · exact .keeps hsame (not_deleteUser rfl)
      · exact .serves rfl hk hserved
  | deletes hrow => exact .deletes rfl rfl
  | _ => exact .keeps rfl (not_deleteUser rfl)

theorem logins_subset (hmove : ServiceMoves env repr s event s') : s.logins ⊆ s'.logins := by
  cases hmove with
  | signs hk hverified => exact List.subset_append_left _ _
  | _ => exact List.Subset.refl _

theorem owned_step (h : Consistent env s) (hauth : Authentic env s) (howned : Owned s)
    (hmove : ServiceMoves env repr s event s') : Owned s' := by
  -- a trip that stays keeps its owner, as long as the step does not delete that one
  have hold : ∀ row ∈ s.tripAlerts.rows, event ≠ .deleteUser row.userId →
      ∃ l ∈ s'.logins, l.user ∈ s'.users.rows ∧ l.user.id = row.userId := by
    intro row hrow hkept
    obtain ⟨l, hl, huser, hid⟩ := howned.owners row hrow
    exact ⟨l, logins_subset hmove hl, user_stays h hmove huser (hid ▸ hkept), hid⟩
  rcases trips_step hmove with ⟨hsame, hevent⟩ | ⟨hmover, hk, hserved⟩ | ⟨rfl, hgone⟩
  · exact ⟨hsame ▸ howned.serial, fun row hrow => hold row (hsame ▸ hrow) (hevent _)⟩
  · rename_i k request user route
    rcases serveTripAlerts_cases s user route with
      hsame | ⟨row, hown, hnew, ⟨owner, howner, hid⟩, hinserted⟩ | ⟨row, hrow, hremoved⟩
    · rw [hsame] at hserved
      exact ⟨hserved ▸ howned.serial, fun row hrow =>
        hold row (hserved ▸ hrow) (not_deleteUser hmover _)⟩
    · rw [hinserted] at hserved
      refine ⟨hserved ▸ howned.serial.insert hnew, fun row' hrow' => ?_⟩
      rw [hserved] at hrow'
      rcases List.mem_append.mp hrow' with hrow' | hrow'
      · exact hold row' hrow' (not_deleteUser hmover _)
      · -- the new trip: whoever is being served logged in, as the very row that is there
        rw [List.mem_singleton.mp hrow', hown]
        obtain ⟨l, hl, rfl⟩ := hauth.serving k request user route hk
        obtain ⟨⟨r, hr, hruser⟩, -⟩ := hauth.logins l hl
        obtain ⟨r', hr', rfl⟩ := h.registered_of_mem howner
        have hsame : r.user = r'.user := h.user_eq_of_id hr hr' (by rw [hruser, hid])
        have huser : l.user ∈ s.users.rows := by
          rw [← hruser, hsame]
          exact howner
        exact ⟨l, logins_subset hmove hl,
          user_stays h hmove huser (not_deleteUser hmover _), rfl⟩
    · rw [hremoved] at hserved
      refine ⟨hserved ▸ howned.serial.remove row.id, fun row' hrow' => ?_⟩
      rw [hserved] at hrow'
      exact hold row' (List.mem_of_mem_filter hrow') (not_deleteUser hmover _)
  · rename_i userId
    have hserial : Serial (fun row : TripAlert => row.id)
        ⟨s.tripAlerts.rows.filter (·.userId ≠ userId), s.tripAlerts.lastId⟩ :=
      ⟨howned.serial.ascending.filter _, fun r hr =>
        howned.serial.handedOut r (List.mem_of_mem_filter hr)⟩
    refine ⟨hgone ▸ hserial, fun row hrow => ?_⟩
    rw [hgone] at hrow
    obtain ⟨hrow, hother⟩ := List.mem_filter.mp hrow
    refine hold row hrow fun heq => ?_
    cases heq
    simp at hother

theorem owned_of_exec (hjwt : Jwt env) {events : List ServiceEvent}
    (hmeets : Run.Meets (Service.step env repr) (Unforged env) Service.empty events)
    (hrun : Run.exec (Service.step env repr) Service.empty events = some s) :
    Consistent env s ∧ Authentic env s ∧ Owned s := by
  have hstep : ∀ t event t', Consistent env t ∧ Authentic env t ∧ Owned t →
      Unforged env t event → Service.step env repr t event = some t' →
        Consistent env t' ∧ Authentic env t' ∧ Owned t' := by
    rintro t event t' ⟨ht, hauth, howned⟩ hunforged hmoves
    have hmove := service_moves hmoves
    exact ⟨consistent_step ht hmove, authentic_step hjwt ht hauth hunforged hmove,
      owned_step ht hauth howned hmove⟩
  exact Run.exec_invariant hstep
    ⟨empty_consistent, empty_authentic, empty_serial, fun _ hrow => by cases hrow⟩ hmeets hrun

/-- A served request leaves the trips of everybody else as they were. -/
theorem serveTripAlerts_others (hserial : Serial (·.id) s.tripAlerts) (user : User)
    (route : TripAlertRequest) {other : Nat} (hother : other ≠ user.id) :
    rowsOf (·.userId) (s.serveTripAlerts repr user route).1.rows other =
      rowsOf (·.userId) s.tripAlerts.rows other := by
  rcases serveTripAlerts_cases s user route with
    hsame | ⟨row, hown, -, -, hinserted⟩ | ⟨row, hrow, hremoved⟩
  · rw [hsame]
  · rw [hinserted]
    exact rowsOf_append_other fun howner => hother (howner.symm.trans hown)
  · rw [hremoved]
    exact hserial.rowsOf_remove_other hrow hother

/-- **Nobody's trips without a login.**  In every run without forged tokens, each stored trip
    belongs to an account that is there and that somebody logged in to; and a step that changes
    what is stored for an account deletes that account, or is taken by a request of somebody
    who logged in to it. -/
theorem trip_alerts_need_login (env : AuthEnv) (repr : String → String) (hjwt : Jwt env)
    (events : List ServiceEvent) (s : Service)
    (hmeets : Run.Meets (Service.step env repr) (Unforged env) Service.empty events)
    (hrun : Run.exec (Service.step env repr) Service.empty events = some s) :
    (∀ row ∈ s.tripAlerts.rows, ∃ l ∈ s.logins,
      l.user ∈ s.users.rows ∧ l.user.id = row.userId ∧
        env.verifyPassword l.password l.user.hashedPassword = true) ∧
    ∀ event s' owner, s.step env repr event = some s' →
      rowsOf (·.userId) s'.tripAlerts.rows owner ≠ rowsOf (·.userId) s.tripAlerts.rows owner →
        event = .deleteUser owner ∨
        ∃ k request route, event.mover = some k ∧ ∃ l ∈ s.logins, l.user.id = owner ∧
          s.sessions[k]? = some ⟨request, .serving l.user route⟩ := by
  obtain ⟨h, hauth, howned⟩ := owned_of_exec hjwt hmeets hrun
  constructor
  · intro row hrow
    obtain ⟨l, hl, huser, hid⟩ := howned.owners row hrow
    exact ⟨l, hl, huser, hid, (hauth.logins l hl).2.1⟩
  · intro event s' owner hstep hchanged
    rcases trips_step (service_moves hstep) with
      ⟨hsame, -⟩ | ⟨hmover, hk, hserved⟩ | ⟨rfl, hgone⟩
    · exact absurd (by rw [hsame]) hchanged
    · rename_i k request user route
      by_cases hown : owner = user.id
      · obtain ⟨l, hl, rfl⟩ := hauth.serving k request user route hk
        exact Or.inr ⟨k, request, route, hmover, l, hl, hown.symm, hk⟩
      · rw [hserved, serveTripAlerts_others howned.serial user route hown] at hchanged
        exact absurd rfl hchanged
    · rename_i userId
      by_cases hown : userId = owner
      · exact Or.inl (by rw [hown])
      · refine absurd ?_ hchanged
        rw [hgone, rowsOf, rowsOf, List.filter_filter]
        refine List.filter_congr fun row _ => ?_
        by_cases hrow : row.userId = owner
        · simp [hrow, Ne.symm hown]
        · simp [hrow]

theorem trip_alerts_need_login_ann :
    ∃ s, Run.exec (Service.step plainEnv String.quote) Service.empty
        (annAsks ++ [.resume 2 "" 6000000, .resume 2 "" 0]) = some s ∧
      s.tripAlerts.rows.length = 1 ∧
      ∀ row ∈ s.tripAlerts.rows, ∃ l ∈ s.logins,
        l.user ∈ s.users.rows ∧ l.user.id = row.userId := by
  have hrun : (Run.exec (Service.step plainEnv String.quote) Service.empty
      (annAsks ++ [.resume 2 "" 6000000, .resume 2 "" 0])).any
        (fun s => s.tripAlerts.rows.length = 1) = true := by
    decide +kernel
  obtain ⟨s, hexec, hs⟩ := (Option.any_eq_true _ _).mp hrun
  refine ⟨s, hexec, of_decide_eq_true hs, fun row hrow => ?_⟩
  obtain ⟨l, hl, huser, hid, -⟩ := (trip_alerts_need_login plainEnv String.quote plainEnv_jwt _ s
    (by decide +kernel) hexec).1 row hrow
  exact ⟨l, hl, huser, hid⟩

end FietsOfOv
