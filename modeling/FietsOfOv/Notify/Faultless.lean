import FietsOfOv.Notify.Isolation

/-!
# Sweeps without faults

What a sweep of `run_due_checks` keeps while no statement fails.  The rows and the
sends that a task has contributed so far can be read off its own program counter,
whatever the other tasks do, and what it will have contributed in the end depends
on its alert alone.
-/

namespace FietsOfOv

open WallClock Relation

/-! ## Sweeps without faults -/

/-- Evaluations and sends turn out as given, and no statement fails. -/
def Faultless (o : Outcomes) (sends : TripAlert → Bool) (s : TickState) (act : TickAct) : Prop :=
  Follows o s act ∧ act.writeFails = false ∧
    ∀ i ok, act = .task i (.deliver (.send ok)) →
      ∀ task, s.tick.tasks[i]? = some task → ok = sends task.alert

/-! ## What is counted -/

/-- A row without its number and its timestamps. -/
def Notification.values (n : Notification) : InsertStmt where
  tripAlertId := n.tripAlertId
  userId := n.userId
  recommendation := n.recommendation
  reason := n.reason
  departureDate := n.departureDate

/-- The values of a row, and whether it is stamped. -/
def Notification.summary (n : Notification) : InsertStmt × Bool := (n.values, n.deliveredAt.isSome)

theorem Notification.summary_of_null {n : Notification} (h : n.deliveredAt = none) :
    n.summary = (n.values, false) := by
  rw [summary, h]
  rfl

/-- The committed rows with this summary. -/
def rowCount (db : Database) (v : InsertStmt × Bool) : Nat := (db.rows.map (·.summary)).count v

/-- The sends attempted on the row of a departure. -/
def attemptCount (log : List Event) (key : Nat × Int) : Nat :=
  log.countP fun
    | .sent _ row _ => row.key = key
    | _ => false

/-! ## What a task contributes -/

/-- The insert of an alert's warning, if a sweep from `s₀` is to make it. -/
def expected (env : Env) (o : Outcomes) (s₀ : TickState) (alert : TripAlert) : Option InsertStmt :=
  if departureKey alert s₀.tick.now ∈ s₀.db.rows.map (·.key) then none
  else o.warning env s₀.tick.now alert

theorem expected_key {env : Env} {o : Outcomes} {s₀ : TickState} {alert : TripAlert}
    {stmt : InsertStmt} (h : expected env o s₀ alert = some stmt) :
    stmt.key = departureKey alert s₀.tick.now := by
  unfold expected at h
  split at h
  · cases h
  · exact warning_key h

theorem expected_of_new {env : Env} {o : Outcomes} {s₀ : TickState} {alert : TripAlert}
    (h : ¬ Recorded s₀.db (departureKey alert s₀.tick.now)) :
    expected env o s₀ alert = o.warning env s₀.tick.now alert :=
  if_neg h

theorem expected_of_recorded {env : Env} {o : Outcomes} {s₀ : TickState} {alert : TripAlert}
    (h : Recorded s₀.db (departureKey alert s₀.tick.now)) : expected env o s₀ alert = none :=
  if_pos h

/-- The rows with this summary that a task has added, its send being fixed. -/
def Pc.rowCount (v : InsertStmt × Bool) (sends : Bool) : Pc → Nat
  | .delivering inst _ => if inst.row.summary = v then 1 else 0
  | .finished (some n) => if (n.values, sends) = v then 1 else 0
  | _ => 0

/-- The sends that a task has attempted on the row of this departure. -/
def Pc.attemptCount (key : Nat × Int) : Pc → Nat
  | .delivering _ .sending => 0
  | .delivering inst _ => if inst.row.key = key then 1 else 0
  | .finished (some n) => if n.key = key then 1 else 0
  | _ => 0

/-- Where a task stands, given what it is to make. -/
def Pc.OnTrack (env : Env) (o : Outcomes) (sends : Bool) (s₀ : TickState) (db : Database)
    (alert : TripAlert) : Pc → Prop
  | .forecasting candidates => o.planned alert = .ok candidates ∧ hasBike candidates = true
  | .locking stmt => o.warning env s₀.tick.now alert = some stmt
  | .inserting stmt => o.warning env s₀.tick.now alert = some stmt
  | .committing _ none => expected env o s₀ alert = none
  | .committing _ (some inst) => expected env o s₀ alert = some inst.row.values
  | .delivering inst d => expected env o s₀ alert = some inst.row.values ∧
      inst.row ∈ db.rows ∧ inst.row.deliveredAt = none ∧ (d ≠ .sending → sends = true)
  | .finished result => result.map (·.values) = expected env o s₀ alert
  | .raised => False
  | _ => True

section Task

variable {env : Env} {session : Nat} {o : Outcomes} {sends : Bool} {s₀ : TickState}
  {alert : TripAlert} {site site' : Site} {pc pc' : Pc} {act : TaskAct}

theorem Pc.OnTrack.mono {db db' : Database} (h : pc.OnTrack env o sends s₀ db alert)
    (hrows : ∀ inst d, pc = .delivering inst d → inst.row ∈ db.rows → inst.row ∈ db'.rows) :
    pc.OnTrack env o sends s₀ db' alert := by
  cases pc with
  | committing stmt notification => cases notification <;> exact h
  | delivering inst d =>
      obtain ⟨hexpected, hmem, hnull, hsent⟩ := h
      exact ⟨hexpected, hrows inst d rfl hmem, hnull, hsent⟩
  | _ => exact h

/-- A stamp changes the summary of its own row, and no other. -/
theorem rowCount_stamp {inst : Instance} {deliveredAt : Timestamp}
    (hkeyed : site.db.notifications.WellKeyed Notification.schema)
    (hopen : site.db.openOf session = [.update inst.row.id deliveredAt])
    (hmem : inst.row ∈ site.db.rows) (v : InsertStmt × Bool) :
    rowCount (site.db.commit session) v + (if inst.row.summary = v then 1 else 0) =
      rowCount site.db v + if (inst.row.values, true) = v then 1 else 0 := by
  have hidents : (site.db.rows.map Notification.schema.ident).Nodup :=
    hkeyed.idents.sublist ((List.sublist_append_left _ _).map _)
  obtain ⟨before, after, hbefore, hafter⟩ :=
    Transactional.Table.update_rows_split Notification.schema deliveredAt hidents hmem
  have hrows : (site.db.commit session).rows =
      before ++ Notification.schema.patch deliveredAt inst.row :: after :=
    (Database.rows_commit_stamp hopen).trans hafter
  have hsummary : (Notification.schema.patch deliveredAt inst.row).summary =
      (inst.row.values, true) := rfl
  rw [rowCount, rowCount, hrows, hbefore]
  simp only [List.map_append, List.map_cons, List.count_append, List.count_cons, hsummary,
    beq_iff_eq]
  omega

/-- Only a stamp changes a committed row, and only its own. -/
theorem SmoothMoves.rows_mem
    (h : SmoothMoves env session s₀.tick.now alert site pc act site' pc')
    (hopen : pc.critical = true → site.db.openOf session = pc.writes) {n : Notification}
    (hn : n ∈ site.db.rows)
    (hother : ∀ inst d, pc = .delivering inst d → n.id ≠ inst.row.id) : n ∈ site'.db.rows := by
  cases h with
  | inserts hinsert =>
      have hrows : (site.withDb _).db.rows = site.db.rows := (Database.insert_cases hinsert).2.1
      rw [hrows]
      exact hn
  | skips =>
      have hrows : (site.db.commit session).rows = site.db.rows :=
        Database.rows_commit_nil (hopen rfl)
      exact hrows ▸ hn
  | @records stmt inst =>
      have hrows : (site.db.commit session).rows = site.db.rows ++ [inst.row] :=
        Database.rows_commit_insert (hopen rfl)
      exact hrows ▸ List.mem_append_left _ hn
  | delivers hdeliver => cases hdeliver <;> exact hn
  | @delivered inst d act ok site' hdeliver =>
      cases hdeliver with
      | sendFails => exact hn
      | stamps =>
          have hne := hother inst _ rfl
          have hrows := Database.rows_commit_stamp (hopen rfl)
          refine hrows ▸ List.mem_map.mpr ⟨n, hn, if_neg hne⟩
  | _ => exact hn

/-- The step lemma of a task: it stays on track. -/
theorem SmoothMoves.onTrack
    (h : SmoothMoves env session s₀.tick.now alert site pc act site' pc')
    (htrack : pc.OnTrack env o sends s₀ site.db alert) (hsound : pc.Sound s₀.tick.now alert)
    (hanswers : act.Answers o alert) (hsends : ∀ ok, act = .deliver (.send ok) → ok = sends)
    (hopen : pc.critical = true → site.db.openOf session = pc.writes)
    (hkept : ∀ key, Recorded s₀.db key → Recorded site.db key)
    (hsource : ∀ stmt, pc = .inserting stmt → Recorded site.db (departureKey alert s₀.tick.now) →
      Recorded s₀.db (departureKey alert s₀.tick.now)) :
    pc'.OnTrack env o sends s₀ site'.db alert := by
  have hdry : o.warning env s₀.tick.now alert = none → none = expected env o s₀ alert := by
    intro hnone
    rw [expected, hnone, ite_self]
  cases h with
  | starts => trivial
  | unassessable hnone =>
      cases hanswers
      exact hdry (hnone _)
  | plans hbike => exact ⟨hanswers.symm, hbike⟩
  | staysDry hnone =>
      cases hanswers
      apply hdry
      rw [Outcomes.warning, htrack.1]
      exact hnone
  | warns hsome =>
      cases hanswers
      have hwarning := hsome htrack.2
      rwa [← htrack.1] at hwarning
  | acquires => exact htrack
  | @inserts stmt createdAt db row hinsert =>
      have hkey : stmt.key = departureKey alert s₀.tick.now := hsound
      obtain ⟨_, _, _, _, ⟨rfl, _, _, hfound⟩ | ⟨row, rfl, rfl, _, _, _, hnew⟩⟩ :=
        Database.insert_cases hinsert
      · rcases hfound with ⟨n, hn, hnkey⟩ | ⟨n, hn, _⟩
        · apply expected_of_recorded
          exact hsource stmt rfl (List.mem_map.mpr ⟨n, hn, hnkey.trans hkey⟩)
        · rw [hopen rfl] at hn
          cases hn
      · have hunrecorded : ¬ Recorded s₀.db (departureKey alert s₀.tick.now) := by
          intro hrecorded
          obtain ⟨n, hn, hnkey⟩ := List.mem_map.mp (hkept _ hrecorded)
          exact hnew n hn (hnkey.trans hkey.symm)
        exact (expected_of_new hunrecorded).trans htrack
  | skips => exact htrack.symm
  | @records stmt inst =>
      have hrows : (site.db.commit session).rows = site.db.rows ++ [inst.row] :=
        Database.rows_commit_insert (hopen rfl)
      refine ⟨htrack, ?_, (hsound.2 inst rfl).2, fun hne => absurd rfl hne⟩
      exact hrows ▸ List.mem_append_right _ (List.mem_singleton_self _)
  | delivers hdeliver =>
      obtain ⟨hexpected, hmem, hnull, hsent⟩ := htrack
      cases hdeliver with
      | sends => exact ⟨hexpected, hmem, hnull, fun _ => (hsends true rfl).symm⟩
      | acquires => exact ⟨hexpected, hmem, hnull, fun _ => hsent (by simp)⟩
      | updates => exact ⟨hexpected, hmem, hnull, fun _ => hsent (by simp)⟩
  | delivered => exact htrack.1.symm

/-- The rows that a step adds are those that the task's contribution grows by. -/
theorem SmoothMoves.rowCount_eq
    (h : SmoothMoves env session s₀.tick.now alert site pc act site' pc')
    (hsends : ∀ ok, act = .deliver (.send ok) → ok = sends)
    (hkeyed : site.db.notifications.WellKeyed Notification.schema)
    (htrack : pc.OnTrack env o sends s₀ site.db alert) (hsound : pc.Sound s₀.tick.now alert)
    (hopen : pc.critical = true → site.db.openOf session = pc.writes) (v : InsertStmt × Bool) :
    rowCount site'.db v + pc.rowCount v sends = rowCount site.db v + pc'.rowCount v sends := by
  cases h with
  | inserts hinsert =>
      have hrows : (site.withDb _).db.rows = site.db.rows := (Database.insert_cases hinsert).2.1
      rw [rowCount, hrows]
      rfl
  | skips =>
      have hrows : (site.db.commit session).rows = site.db.rows :=
        Database.rows_commit_nil (hopen rfl)
      exact congrArg (fun rows => List.count v (rows.map (·.summary)) + 0) hrows
  | @records stmt inst =>
      have hrows : (site.db.commit session).rows = site.db.rows ++ [inst.row] :=
        Database.rows_commit_insert (hopen rfl)
      rw [show (Site.release _ true).db = site.db.commit session from rfl, rowCount, hrows,
        List.map_append, List.count_append, List.map_singleton, List.count_singleton]
      simp only [Pc.rowCount, rowCount, beq_iff_eq]
      rfl
  | delivers hdeliver => cases hdeliver <;> rfl
  | @delivered inst d act ok site' hdeliver =>
      obtain ⟨_, hmem, hnull, hsent⟩ := htrack
      cases hdeliver with
      | sendFails =>
          -- the row stays as it was recorded, and so it will stay in the end
          have hfailed := hsends false rfl
          subst hfailed
          rw [Pc.rowCount, Pc.rowCount, Notification.summary_of_null hnull]
          rfl
      | stamps =>
          have hsent := hsent (by simp)
          subst hsent
          exact rowCount_stamp hkeyed (hopen rfl) hmem v
  | _ => rfl

/-- So for the sends. -/
theorem SmoothMoves.attemptCount_eq
    (h : SmoothMoves env session s₀.tick.now alert site pc act site' pc') (key : Nat × Int) :
    attemptCount site'.log key + pc.attemptCount key =
      attemptCount site.log key + pc'.attemptCount key := by
  cases h with
  | skips => simp [attemptCount, Pc.attemptCount, Site.leave, Site.release, Site.post, Site.withDb]
  | records => simp [attemptCount, Pc.attemptCount, Site.release, Site.post, Site.withDb]
  | delivers hdeliver =>
      cases hdeliver <;> simp [attemptCount, Pc.attemptCount, Site.post, Site.acquire, Site.withDb,
        List.countP_append, List.countP_cons]
  | delivered hdeliver =>
      cases hdeliver <;> simp [attemptCount, Pc.attemptCount, Site.post, Site.leave, Site.release,
        Site.withDb, List.countP_append, List.countP_cons]
  | _ => rfl

end Task

/-! ## What a sweep keeps -/

/-- What holds all along a sweep that starts from `s₀` and meets no fault. -/
structure Swept (env : Env) (session : Nat) (o : Outcomes) (sends : TripAlert → Bool)
    (s₀ s : TickState) : Prop where
  alive : s.tick.alive = true
  stage : s.tick.stage = .sweeping
  now : s.tick.now = s₀.tick.now
  alerts : s.tick.alerts = s₀.due
  loaded : s.tick.loaded = s.tick.loop.rollbacks
  current : ∀ task ∈ s.tick.tasks, ∀ inst ∈ task.pc.instances,
    inst.loaded = s.tick.loop.rollbacks
  keyed : s.db.notifications.WellKeyed Notification.schema
  tripAlerts : s.db.tripAlerts = s₀.db.tripAlerts
  others : ∀ other, session ≠ other → s.db.openOf other = s₀.db.openOf other
  tasks : ∀ task ∈ s.tick.tasks, task.pc.OnTrack env o (sends task.alert) s₀ s.db task.alert
  rows : ∀ v, rowCount s.db v = rowCount s₀.db v +
    Pool.weight (fun task => task.pc.rowCount v (sends task.alert)) s.tick.tasks
  attempts : ∀ key, attemptCount s.log key = attemptCount s₀.log key +
    Pool.weight (·.pc.attemptCount key) s.tick.tasks
  returned : ∀ outcome, s.tick.outcome = some outcome →
    outcome = .ok (s.tick.tasks.filterMap (·.pc.result)) ∧
      ∀ task ∈ s.tick.tasks, task.pc.isFinished = true

theorem rowCount_pos {db : Database} {v : InsertStmt × Bool} :
    0 < rowCount db v ↔ ∃ n ∈ db.rows, n.summary = v := by
  rw [rowCount, List.count_pos_iff, List.mem_map]

/-- A task has added a row with this summary, hence one for its departure. -/
theorem Pc.holds_of_rowCount {pc : Pc} {n : Notification} {sends : Bool}
    (h : pc.rowCount n.summary sends ≠ 0) : pc.Holds n.key := by
  cases pc with
  | delivering inst d =>
      have hsummary : inst.row.summary = n.summary := by
        by_contra hne
        exact h (if_neg hne)
      exact congrArg (fun v => v.1.key) hsummary
  | finished result =>
      cases result with
      | none => exact absurd rfl h
      | some row =>
          have hsummary : (row.values, sends) = n.summary := by
            by_contra hne
            exact h (if_neg hne)
          exact congrArg (fun v => v.1.key) hsummary
  | _ => exact absurd rfl h

/-- Whatever a task holds belongs to the departure of its alert. -/
theorem Pc.key_of_holds {env : Env} {o : Outcomes} {sends : Bool} {s₀ : TickState} {db : Database}
    {alert : TripAlert} {pc : Pc} {key : Nat × Int} (h : pc.Holds key)
    (htrack : pc.OnTrack env o sends s₀ db alert) : key = departureKey alert s₀.tick.now := by
  cases pc with
  | delivering inst d =>
      have hkey : inst.row.key = key := h
      rw [← hkey, ← expected_key htrack.1]
      rfl
  | finished result =>
      cases result with
      | none => cases h
      | some n =>
          have hkey : n.key = key := h
          have hexpected : some n.values = expected env o s₀ alert := htrack
          rw [← hkey, ← expected_key hexpected.symm]
          rfl
  | _ => cases h

section Tick

variable {env : Env} {session : Nat} {o : Outcomes} {sends : TripAlert → Bool}
  {s₀ s s' : TickState}

theorem Swept.kept (h : Swept env session o sends s₀ s) {key : Nat × Int}
    (hkey : Recorded s₀.db key) : Recorded s.db key := by
  obtain ⟨n, hn, rfl⟩ := List.mem_map.mp hkey
  have hpos : 0 < rowCount s₀.db n.summary := rowCount_pos.mpr ⟨n, hn, rfl⟩
  have hrows := h.rows n.summary
  obtain ⟨m, hm, hsummary⟩ := rowCount_pos.mp (show 0 < rowCount s.db n.summary by omega)
  exact List.mem_map.mpr ⟨m, hm, congrArg (fun v => v.1.key) hsummary⟩

/-- Every departure with a row had it before the sweep, or has it from one of its tasks. -/
theorem Swept.source (h : Swept env session o sends s₀ s) {key : Nat × Int}
    (hkey : Recorded s.db key) :
    Recorded s₀.db key ∨ ∃ task ∈ s.tick.tasks, task.pc.Holds key := by
  obtain ⟨n, hn, rfl⟩ := List.mem_map.mp hkey
  have hpos : 0 < rowCount s.db n.summary := rowCount_pos.mpr ⟨n, hn, rfl⟩
  by_cases hold : 0 < rowCount s₀.db n.summary
  · obtain ⟨m, hm, hsummary⟩ := rowCount_pos.mp hold
    exact Or.inl (List.mem_map.mpr ⟨m, hm, congrArg (fun v => v.1.key) hsummary⟩)
  · have hrows := h.rows n.summary
    have hweight : Pool.weight (fun task => task.pc.rowCount n.summary (sends task.alert))
        s.tick.tasks ≠ 0 := by omega
    rw [Ne, Pool.weight_eq_zero] at hweight
    obtain ⟨task, htask, hcount⟩ : ∃ task ∈ s.tick.tasks,
        task.pc.rowCount n.summary (sends task.alert) ≠ 0 := by simpa using hweight
    exact Or.inr ⟨task, htask, Pc.holds_of_rowCount hcount⟩

/-- Different tasks have different alerts. -/
theorem Swept.ids_ne (h : Swept env session o sends s₀ s) (hids : (s₀.due.map (·.id)).Nodup)
    {i j : Nat} {task other : Task} (hi : s.tick.tasks[i]? = some task)
    (hj : s.tick.tasks[j]? = some other) (hne : i ≠ j) : task.alert.id ≠ other.alert.id := by
  rw [← h.alerts] at hids
  intro heq
  have hget : ∀ {k : Nat} {u : Task}, s.tick.tasks[k]? = some u →
      (s.tick.alerts.map (·.id))[k]? = some u.alert.id := by
    intro k u hk
    simp [Tick.alerts, hk]
  have hlt : i < (s.tick.alerts.map (·.id)).length :=
    (List.getElem?_eq_some_iff.mp (hget hi)).1
  exact hne ((List.getElem?_inj hlt hids).mp ((hget hi).trans (heq ▸ (hget hj).symm)))

/-- A departure that is recorded while its task inserts was recorded at first: no other task
    has this departure, and this one has no row yet. -/
theorem Swept.recorded_of_inserting (h : Swept env session o sends s₀ s)
    (hids : (s₀.due.map (·.id)).Nodup) {i : Nat} {task : Task} {stmt : InsertStmt}
    (hi : s.tick.tasks[i]? = some task) (hpc : task.pc = .inserting stmt)
    (hrecorded : Recorded s.db (departureKey task.alert s₀.tick.now)) :
    Recorded s₀.db (departureKey task.alert s₀.tick.now) := by
  rcases h.source hrecorded with hold | ⟨other, hother, hholds⟩
  · exact hold
  · exfalso
    have hkey := Pc.key_of_holds hholds (h.tasks other hother)
    obtain ⟨j, hj⟩ := List.mem_iff_getElem?.mp hother
    by_cases hij : i = j
    · subst hij
      cases hi.symm.trans hj
      rw [hpc] at hholds
      cases hholds
    · exact h.ids_ne hids hi hj hij (congrArg Prod.fst hkey)

/-- The other tasks stay on track: the one that moves has another alert, hence another row. -/
theorem Swept.onTrack_other (h : Swept env session o sends s₀ s)
    (hids : (s₀.due.map (·.id)).Nodup) {i j : Nat} {task other : Task} {act : TaskAct}
    {site : Site} {pc : Pc} (hi : s.tick.tasks[i]? = some task)
    (hj : s.tick.tasks[j]? = some other) (hij : i ≠ j)
    (hopen : task.pc.critical = true → s.site.db.openOf session = task.pc.writes)
    (hsmooth : SmoothMoves env session s₀.tick.now task.alert s.site task.pc act site pc) :
    other.pc.OnTrack env o (sends other.alert) s₀ site.db other.alert := by
  have htrack := h.tasks task (List.mem_of_getElem? hi)
  have hother := h.tasks other (List.mem_of_getElem? hj)
  refine hother.mono fun inst d hpc hrow => hsmooth.rows_mem hopen hrow ?_
  intro inst' d' hpc' hid
  rw [hpc'] at htrack
  rw [hpc] at hother
  have heq := h.keyed.eq_of_ident hrow htrack.2.1 hid
  have hkey : inst.row.values.key = inst'.row.values.key := by rw [heq]
  rw [expected_key hother.1, expected_key htrack.1] at hkey
  exact h.ids_ne hids hi hj hij (congrArg Prod.fst hkey).symm

/-- The step lemma of a sweep: one task moves. -/
theorem Swept.setTask (horderly : Orderly session s) (hids : (s₀.due.map (·.id)).Nodup)
    (h : Swept env session o sends s₀ s) {i : Nat} {task : Task} {act : TaskAct} {site : Site}
    {pc : Pc} (hi : s.tick.tasks[i]? = some task) (hanswers : act.Answers o task.alert)
    (hact : act.writeFails = false)
    (hsends : ∀ ok, act = .deliver (.send ok) → ok = sends task.alert)
    (hstep : taskStep env session s.tick.now s.tick.loaded task.alert s.site task.pc act =
      some (site, pc)) :
    Swept env session o sends s₀ (s.setTask i task.alert site pc) := by
  have hmem := List.mem_of_getElem? hi
  have hlt := (List.getElem?_eq_some_iff.mp hi).1
  have hopen := horderly.openOf_of_critical h.alive h.stage hi
  have hsound := horderly.sound task hmem
  have htrack := h.tasks task hmem
  have hsmooth := taskStep_smooth hstep h.loaded.ge
    (fun inst hinst => (h.current task hmem inst hinst).ge) hact
  have heffects : Effects (fun _ => True) session s.tick.now s.tick.alerts s.face
      (s.setTask i task.alert site pc).face :=
    setTask_effects horderly h.alive h.stage hi hstep
  rw [h.now] at hsmooth hsound
  exact {
    alive := h.alive
    stage := h.stage
    now := h.now
    alerts := (TickState.setTask_alerts hi site pc).trans h.alerts
    loaded := h.loaded.trans hsmooth.rollbacks_eq.symm
    current := hsmooth.current hi h.current
    keyed := heffects.wellKeyed h.keyed
    tripAlerts := Eq.trans heffects.tripAlerts_eq h.tripAlerts
    others := fun other hne => Eq.trans (heffects.openOf_other hne) (h.others other hne)
    tasks := by
      intro other hother
      obtain ⟨j, hj⟩ := List.mem_iff_getElem?.mp hother
      by_cases hij : i = j
      · subst hij
        simp only [TickState.setTask, List.getElem?_set_self hlt, Option.some.injEq] at hj
        subst hj
        exact hsmooth.onTrack htrack hsound hanswers hsends hopen (fun _ => h.kept)
          fun _ hpc => h.recorded_of_inserting hids hi hpc
      · simp only [TickState.setTask, List.getElem?_set_ne hij] at hj
        exact h.onTrack_other hids hi hj hij hopen hsmooth
    rows := by
      intro v
      have hcount := hsmooth.rowCount_eq hsends h.keyed htrack hsound hopen v
      have hset := Pool.weight_set (fun task => task.pc.rowCount v (sends task.alert))
        ⟨task.alert, pc⟩ hi
      have hrows := h.rows v
      simp only [TickState.setTask, TickState.site] at hcount hset ⊢
      omega
    attempts := by
      intro key
      have hcount := hsmooth.attemptCount_eq key
      have hset := Pool.weight_set (·.pc.attemptCount key) ⟨task.alert, pc⟩ hi
      have hattempts := h.attempts key
      simp only [TickState.setTask, TickState.site] at hcount hset ⊢
      omega
    returned := by
      intro outcome heq
      have hfinished := (h.returned outcome heq).2 task hmem
      rw [taskStep_unfinished hstep] at hfinished
      cases hfinished }

theorem Swept.step (horderly : Orderly session s) (hids : (s₀.due.map (·.id)).Nodup)
    (h : Swept env session o sends s₀ s) {act : TickAct} (hact : Faultless o sends s act)
    (hstep : tickStep env session s act = some s') : Swept env session o sends s₀ s' := by
  obtain ⟨hfollows, hwrites, hsends⟩ := hact
  obtain ⟨_, hmoves⟩ := tickStep_moves hstep
  cases hmoves.of_sweeping h.stage with
  | @sweeps i task act site pc hi htask =>
      refine h.setTask horderly hids hi (hfollows.answers hi) hwrites ?_ htask
      rintro ok rfl
      exact hsends i ok rfl task hi
  | gatherRaises houtcome hraised =>
      obtain ⟨task, htask, hpc⟩ := hraised
      have htrack := h.tasks task htask
      rw [hpc] at htrack
      cases htrack
  | gathers houtcome hfinished =>
      exact {
        h with
        returned := by
          intro outcome heq
          cases heq
          exact ⟨rfl, hfinished⟩ }
  | dies => cases hfollows

end Tick

end FietsOfOv
