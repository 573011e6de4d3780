import FietsOfOv.Notify.Delivery

/-!
# Which departures the rows are about

Every row goes back to an insert of a tick at which its alert was due, and its
key is the departure that the alert had at that tick.  The key tells departures
apart and no two rows share one, so a conflict means that the row of this very
departure is there.  What is missing is the row of a departure found rainy after the
tick's session was rolled back: its alert cannot be read any more.
-/

namespace FietsOfOv

open WallClock Relation Transactional

/-- What a tick may add to the log, if `good` holds of the rows it sends. -/
def Event.LawfulFrom (session : Nat) (now : DateTime) (alerts : List TripAlert)
    (good : Notification → Prop) : Event → Prop
  | .recorded s alert row =>
      s = session ∧ alert ∈ alerts ∧ ∀ r, row = some r → r.key = departureKey alert now
  | .sent s row _ => s = session ∧ good row
  | _ => True

/-- Every stored row was recorded. -/
def RowsRecorded (db : Database) (log : List Event) : Prop :=
  ∀ n ∈ db.rows, ∃ session alert row, .recorded session alert (some row) ∈ log ∧
    row.id = n.id ∧ row.key = n.key

section Effect

variable {pickable good : Notification → Prop} {session : Nat} {now : DateTime}
  {alerts : List TripAlert} {f f' : Face}

theorem Effect.good_waiting (h : Effect pickable session now alerts f f')
    (hpick : ∀ n, pickable n → good n)
    (hnew : ∀ n, ∀ alert ∈ alerts, n.key = departureKey alert now → good n)
    (hgood : ∀ n ∈ f.waiting, good n) : ∀ n ∈ f'.waiting, good n := by
  cases h with
  | picks hpicks => exact fun n hn => hpick n (hpicks n hn)
  | reorders hW hU => exact fun n hn => hgood n (hW.mem_iff.mpr hn)
  | givesUp rows => exact fun n hn => hgood n (List.mem_append_right _ hn)
  | records halert hkey =>
      intro n hn
      rcases List.mem_cons.mp hn with rfl | hn
      · exact hnew n _ halert hkey
      · exact hgood n hn
  | sends => exact fun n hn => hgood n (List.mem_cons_of_mem _ hn)
  | sendFails => exact fun n hn => hgood n (List.mem_cons_of_mem _ hn)
  | _ => exact hgood

theorem Effect.log_lawful (h : Effect pickable session now alerts f f')
    (hgood : ∀ n ∈ f.waiting, good n) {event : Event} (he : event ∈ f'.log) :
    event ∈ f.log ∨ event.LawfulFrom session now alerts good := by
  have hsnoc : ∀ {log : List Event} {new : Event}, event ∈ log ++ [new] →
      new.LawfulFrom session now alerts good →
      event ∈ log ∨ event.LawfulFrom session now alerts good := by
    intro log new hmem hnew
    rcases List.mem_append.mp hmem with hmem | hmem
    · exact Or.inl hmem
    · rw [List.mem_singleton.mp hmem]
      exact Or.inr hnew
  cases h with
  | skips halert => exact hsnoc he ⟨rfl, halert, by simp⟩
  | records halert hkey =>
      refine hsnoc he ⟨rfl, halert, fun r hr => ?_⟩
      rw [← Option.some.inj hr]
      exact hkey
  | sends => exact hsnoc he ⟨rfl, hgood _ List.mem_cons_self⟩
  | sendFails => exact hsnoc he ⟨rfl, hgood _ List.mem_cons_self⟩
  | stamps => exact hsnoc he trivial
  | stampFails => exact hsnoc he trivial
  | raises => exact hsnoc he trivial
  | _ => exact Or.inl he

theorem Effect.rows_recorded (h : Effect pickable session now alerts f f')
    (hopen : f.db.openOf session = f.writes) (hrows : RowsRecorded f.db f.log) :
    RowsRecorded f'.db f'.log := by
  have hkeep : ∀ n : Notification, (∃ m ∈ f.db.rows, m.id = n.id ∧ m.key = n.key) →
      ∃ s alert row, .recorded s alert (some row) ∈ f'.log ∧ row.id = n.id ∧ row.key = n.key := by
    rintro n ⟨m, hm, hid, hkey⟩
    obtain ⟨s, alert, row, hmem, hrow_id, hrow_key⟩ := hrows m hm
    exact ⟨s, alert, row, h.log_subset hmem, hrow_id.trans hid, hrow_key.trans hkey⟩
  intro n hn
  cases h with
  | inserts _ _ hinsert =>
      rw [(Database.insert_cases hinsert).2.1] at hn
      exact hkeep n ⟨n, hn, rfl, rfl⟩
  | skips =>
      rw [Database.rows_commit_nil hopen] at hn
      exact hkeep n ⟨n, hn, rfl, rfl⟩
  | @records db log W U alert row =>
      rw [Database.rows_commit_insert hopen] at hn
      rcases List.mem_append.mp hn with hn | hn
      · exact hkeep n ⟨n, hn, rfl, rfl⟩
      · rw [List.mem_singleton.mp hn]
        exact ⟨session, alert, row, List.mem_append_right _ (List.mem_singleton_self _), rfl, rfl⟩
  | stamps =>
      rw [Database.rows_commit_stamp hopen] at hn
      obtain ⟨m, hm, rfl⟩ := List.mem_map.mp hn
      refine hkeep _ ⟨m, hm, ?_, ?_⟩
      · split <;> rfl
      · split <;> rfl
  | _ => exact hkeep n ⟨n, hn, rfl, rfl⟩

theorem Effects.good_waiting (h : Effects pickable session now alerts f f')
    (hpick : ∀ n, pickable n → good n)
    (hnew : ∀ n, ∀ alert ∈ alerts, n.key = departureKey alert now → good n)
    (hgood : ∀ n ∈ f.waiting, good n) : ∀ n ∈ f'.waiting, good n := by
  induction h with
  | refl => exact hgood
  | tail _ hstep ih => exact hstep.good_waiting hpick hnew ih

theorem Effects.log_lawful (h : Effects pickable session now alerts f f')
    (hpick : ∀ n, pickable n → good n)
    (hnew : ∀ n, ∀ alert ∈ alerts, n.key = departureKey alert now → good n)
    (hgood : ∀ n ∈ f.waiting, good n) {event : Event} (he : event ∈ f'.log) :
    event ∈ f.log ∨ event.LawfulFrom session now alerts good := by
  induction h with
  | refl => exact Or.inl he
  | tail hsteps hstep ih =>
      rcases hstep.log_lawful (Effects.good_waiting hsteps hpick hnew hgood) he with he | hlawful
      · exact ih he
      · exact Or.inr hlawful

theorem Effects.rows_recorded (h : Effects pickable session now alerts f f')
    (hopen : f.db.openOf session = f.writes) (hrows : RowsRecorded f.db f.log) :
    RowsRecorded f'.db f'.log := by
  induction h with
  | refl => exact hrows
  | tail hsteps hstep ih => exact hstep.rows_recorded (Effects.openOf_eq hsteps hopen) ih

end Effect

/-! ## A tick keeps its clock and its alerts -/

theorem tickStep_clock {env : Env} {session : Nat} {s s' : TickState} {act : TickAct}
    (h : tickStep env session s act = some s') :
    s'.tick.now = s.tick.now ∧ s'.tick.leadMinutes = s.tick.leadMinutes := by
  obtain ⟨_, hmoves⟩ := tickStep_moves h
  cases hmoves <;> exact ⟨rfl, rfl⟩

/-- A tick's alerts are those that its query found due. -/
theorem tickStep_alerts {env : Env} {session : Nat} {s s' : TickState} {act : TickAct}
    (h : tickStep env session s act = some s') :
    s'.tick.alerts = s.tick.alerts ∨
      s'.tick.alerts = dueTripAlerts s.db.tripAlerts s.tick.now s.tick.leadMinutes := by
  obtain ⟨_, hmoves⟩ := tickStep_moves h
  cases hmoves with
  | startsSweep hstage houtcome =>
      apply Or.inr
      simp [TickState.startSweep, Tick.alerts, Function.comp_def]
  | @sweeps i task act site pc hstage hi htask =>
      apply Or.inl
      simp only [TickState.setTask, Tick.alerts, List.map_set]
      have hget : (s.tick.tasks.map (·.alert))[i]? = some task.alert := by simp [hi]
      obtain ⟨hlt, heq⟩ := List.getElem?_eq_some_iff.mp hget
      rw [← heq]
      exact List.set_getElem_self hlt
  | _ => exact Or.inl rfl

/-! ## Where the rows of the worker come from -/

/-- The clock reading and the lead of a tick. -/
def Worker.clockOf (w : Worker) (session : Nat) : Option (DateTime × Nat) :=
  w.ticks[session]?.map fun tick => (tick.now, tick.leadMinutes)

structure Worker.Traced (w : Worker) : Prop where
  loaded : ∀ tick ∈ w.ticks, ∀ alert ∈ tick.alerts,
    alert ∈ w.created ∧ dueCond tick.now tick.leadMinutes alert = true
  recorded : ∀ session alert row, .recorded session alert row ∈ w.log →
    ∃ now leadMinutes, w.clockOf session = some (now, leadMinutes) ∧ alert ∈ w.created ∧
      dueCond now leadMinutes alert = true ∧ ∀ r, row = some r → r.key = departureKey alert now
  rows : RowsRecorded w.db w.log

section Worker

variable {env : Env} {w w' : Worker}

theorem clockOf_setTick {k : Nat} {tick : Tick} {act : TickAct} {s : TickState}
    (hk : w.ticks[k]? = some tick) (hstep : tickStep env k (w.stateOf tick) act = some s)
    (session : Nat) : (w.setTick k s).clockOf session = w.clockOf session := by
  obtain ⟨hnow, hlead⟩ := tickStep_clock hstep
  have hlt := (List.getElem?_eq_some_iff.mp hk).1
  simp only [Worker.clockOf, Worker.setTick]
  by_cases hks : k = session
  · subst hks
    rw [List.getElem?_set_self hlt, hk, Option.map_some, Option.map_some, hnow, hlead]
    rfl
  · rw [List.getElem?_set_ne hks]

theorem clockOf_step {a : Action} (hstep : w.step env a = some w') {session : Nat}
    {clock : DateTime × Nat} (h : w.clockOf session = some clock) :
    w'.clockOf session = some clock := by
  have hmoves := step_moves hstep
  cases hmoves with
  | starts now leadMinutes =>
      obtain ⟨tick, htick, heq⟩ := Option.map_eq_some_iff.mp h
      have hlt := (List.getElem?_eq_some_iff.mp htick).1
      exact Option.map_eq_some_iff.mpr ⟨tick, by rw [List.getElem?_append_left hlt, htick], heq⟩
  | ticks hk htick => exact (clockOf_setTick hk htick session).trans h
  | creates hnew => exact h
  | deletes hdelete => exact h

theorem created_step {a : Action} (hstep : w.step env a = some w') : w.created ⊆ w'.created := by
  have hmoves := step_moves hstep
  cases hmoves with
  | creates hnew => exact List.subset_append_left _ _
  | _ => exact fun _ halert => halert

/-- The alerts of a tick that has moved are stored ones that its query finds due. -/
theorem loaded_setTick (h : w.Sound)
    (hloaded : ∀ tick ∈ w.ticks, ∀ alert ∈ tick.alerts,
      alert ∈ w.created ∧ dueCond tick.now tick.leadMinutes alert = true)
    {k : Nat} {tick : Tick} {act : TickAct} {s : TickState} (hk : w.ticks[k]? = some tick)
    (hstep : tickStep env k (w.stateOf tick) act = some s) :
    ∀ other ∈ (w.setTick k s).ticks, ∀ alert ∈ other.alerts,
      alert ∈ w.created ∧ dueCond other.now other.leadMinutes alert = true := by
  intro other hother alert halert
  rcases List.mem_or_eq_of_mem_set hother with hother | rfl
  · exact hloaded other hother alert halert
  · obtain ⟨hnow, hlead⟩ := tickStep_clock hstep
    rw [hnow, hlead]
    rcases tickStep_alerts hstep with heq | heq
    · exact hloaded tick (List.mem_of_getElem? hk) alert (heq ▸ halert)
    · rw [heq, dueTripAlerts, List.mem_filter] at halert
      exact ⟨h.stored alert halert.1, halert.2⟩

theorem Worker.Traced.step (h : w.Sound) (htraced : w.Traced) {a : Action}
    (hstep : w.step env a = some w') : w'.Traced := by
  have hclock : ∀ session clock, w.clockOf session = some clock →
      w'.clockOf session = some clock := fun session clock hof => clockOf_step hstep hof
  have hcreated := created_step hstep
  have hmoves := step_moves hstep
  cases hmoves with
  | starts now leadMinutes =>
      exact {
        htraced with
        loaded := by
          intro tick htick
          rcases List.mem_append.mp htick with htick | htick
          · exact htraced.loaded tick htick
          · rw [List.mem_singleton.mp htick]
            simp [Tick.opened, Tick.alerts]
        recorded := by
          intro session alert row he
          obtain ⟨now', lead', hof, hrest⟩ := htraced.recorded session alert row he
          exact ⟨now', lead', hclock _ _ hof, hrest⟩ }
  | @ticks k act tick s hk htick =>
      have horderly := h.orderly k tick hk
      have heffects : Effects (fun _ => True) k tick.now tick.alerts (w.stateOf tick).face s.face :=
        tickStep_effects horderly (fun _ _ _ => trivial) htick
      constructor
      · exact loaded_setTick h htraced.loaded hk htick
      · intro session alert row he
        have hlawful : _ ∨ Event.LawfulFrom k tick.now tick.alerts (fun _ => True) _ :=
          heffects.log_lawful (fun _ _ => trivial) (fun _ _ _ _ => trivial) (fun _ _ => trivial) he
        rcases hlawful with he | ⟨rfl, halert, hkey⟩
        · obtain ⟨now', lead', hof, hrest⟩ := htraced.recorded session alert row he
          exact ⟨now', lead', hclock _ _ hof, hrest⟩
        · obtain ⟨hmem, hdue⟩ := htraced.loaded tick (List.mem_of_getElem? hk) alert halert
          refine ⟨tick.now, tick.leadMinutes, ?_, hmem, hdue, hkey⟩
          rw [clockOf_setTick hk htick, Worker.clockOf, hk]
          rfl
      · exact heffects.rows_recorded horderly.writes htraced.rows
  | creates hnew =>
      exact {
        htraced with
        loaded := by
          intro tick htick alert halert
          obtain ⟨hmem, hdue⟩ := htraced.loaded tick htick alert halert
          exact ⟨hcreated hmem, hdue⟩
        recorded := by
          intro session alert row he
          obtain ⟨now', lead', hof, hmem, hrest⟩ := htraced.recorded session alert row he
          exact ⟨now', lead', hof, hcreated hmem, hrest⟩ }
  | deletes hdelete =>
      obtain ⟨_, rfl⟩ := Database.deleteAlert_cases hdelete
      exact { htraced with rows := fun n hn => htraced.rows n (Table.mem_rows_delete.mp hn).1 }

theorem Worker.initial_traced : Worker.initial.Traced where
  loaded := by simp [initial]
  recorded := by simp [initial]
  rows := by simp [RowsRecorded, initial, Database.rows]

theorem Worker.Reachable.traced (h : w.Reachable env) : w.Traced := by
  obtain ⟨actions, hexec⟩ := h
  have hstep : ∀ v a v', (v.Sound ∧ v.Traced) → True → Worker.step env v a = some v' →
      v'.Sound ∧ v'.Traced :=
    fun v a v' hv _ hstep => ⟨hv.1.step hstep, Worker.Traced.step hv.1 hv.2 hstep⟩
  exact (Run.exec_invariant hstep ⟨Worker.initial_sound, Worker.initial_traced⟩
    (Run.meets_true _ _) hexec).2

/-! ## One record per departure -/

/-- A task that met a conflict did so with a row for its departure, which is
    still there unless the alert has been deleted. -/
def Worker.ConflictsHold (w : Worker) : Prop :=
  ∀ tick ∈ w.ticks, ∀ task ∈ tick.tasks, ∀ stmt, task.pc = .committing stmt none →
    w.db.hasAlert task.alert.id = true → ∃ n ∈ w.db.rows, n.key = stmt.key

/-- A conflict that has just been met is with a committed row, for the session itself had
    written nothing. -/
theorem recorded_of_conflict {session i : Nat} {s : TickState} {task : Task} {act : TaskAct}
    {site : Site} {stmt : InsertStmt} (horderly : Orderly session s)
    (halive : s.tick.alive = true) (hstage : s.tick.stage = .sweeping)
    (hi : s.tick.tasks[i]? = some task)
    (hstep : taskStep env session s.tick.now s.tick.loaded task.alert s.site task.pc act =
      some (site, .committing stmt none)) :
    ∃ n ∈ s.db.rows, n.key = stmt.key := by
  obtain ⟨hinserting, createdAt, hinsert⟩ := taskStep_conflict hstep
  have hnone : s.db.openOf session = [] := by
    have hwrites := horderly.openOf_of_critical halive hstage hi
    rw [hinserting] at hwrites
    exact hwrites rfl
  obtain ⟨_, _, _, _, ⟨_, _, _, hrow | ⟨n, hn, _⟩⟩ | ⟨_, hsome, _⟩⟩ :=
    Database.insert_cases hinsert
  · exact hrow
  · have : Transactional.Write.insert n ∈ s.db.openOf session := hn
    rw [hnone] at this
    cases this
  · cases hsome

/-- A tick that moves leaves the rows, and so the conflicts of all ticks. -/
theorem Worker.ConflictsHold.ticks (h : w.Sound) (hholds : w.ConflictsHold) {k : Nat}
    {act : TickAct} {tick : Tick} {s : TickState} (hk : w.ticks[k]? = some tick)
    (htick : tickStep env k (w.stateOf tick) act = some s) {other : Tick}
    (hother : other ∈ w.ticks.set k s.tick) {task : Task} (htask : task ∈ other.tasks)
    {stmt : InsertStmt} (hpc : task.pc = .committing stmt none)
    (halert : s.db.hasAlert task.alert.id = true) : ∃ n ∈ s.db.rows, n.key = stmt.key := by
  have horderly := h.orderly k tick hk
  have heffects : Effects (fun _ => True) k tick.now tick.alerts (w.stateOf tick).face s.face :=
    tickStep_effects horderly (fun _ _ _ => trivial) htick
  have halerts : s.db.tripAlerts = w.db.tripAlerts := heffects.tripAlerts_eq
  have hkept : ∀ {key}, (∃ n ∈ w.db.rows, n.key = key) → ∃ n ∈ s.db.rows, n.key = key := by
    rintro key ⟨n, hn, hkey⟩
    rcases heffects.rows_kept horderly.writes hn with hkept | ⟨t, hstamped⟩
    · exact ⟨n, hkept, hkey⟩
    · exact ⟨n.stamp t, hstamped, hkey⟩
  have hold : ∀ other ∈ w.ticks, ∀ task ∈ other.tasks, ∀ stmt,
      task.pc = .committing stmt none → s.db.hasAlert task.alert.id = true →
      ∃ n ∈ s.db.rows, n.key = stmt.key := by
    intro other hother task htask stmt hpc halert
    simp only [Database.hasAlert, halerts] at halert
    exact hkept (hholds other hother task htask stmt hpc halert)
  rcases List.mem_or_eq_of_mem_set hother with hother | rfl
  · exact hold other hother task htask stmt hpc halert
  · obtain ⟨halive, hmoves⟩ := tickStep_moves htick
    have hmem := List.mem_of_getElem? hk
    cases hmoves with
    | startsSweep hstage houtcome =>
        obtain ⟨alert, _, rfl⟩ := List.mem_map.mp htask
        cases hpc
    | @sweeps i moved act site pc hstage hi htaskStep =>
        rcases List.mem_or_eq_of_mem_set htask with htask | rfl
        · exact hold tick hmem task htask stmt hpc halert
        · simp only at hpc
          rw [hpc] at htaskStep
          exact hkept (recorded_of_conflict horderly halive hstage hi htaskStep)
    | _ => exact hold tick hmem task htask stmt hpc halert

theorem Worker.ConflictsHold.step (h : w.Sound) (htraced : w.Traced) (hholds : w.ConflictsHold)
    {a : Action} (hstep : w.step env a = some w') : w'.ConflictsHold := by
  have hmoves := step_moves hstep
  cases hmoves with
  | starts now leadMinutes =>
      intro tick htick task htask stmt hpc halert
      rcases List.mem_append.mp htick with htick | htick
      · exact hholds tick htick task htask stmt hpc halert
      · rw [List.mem_singleton.mp htick] at htask
        simp [Tick.opened] at htask
  | ticks hk htick =>
      intro other hother task htask stmt hpc halert
      exact hholds.ticks h hk htick hother htask hpc halert
  | @creates alert hnew =>
      intro tick htick task htask stmt hpc halert
      -- the new alert's id was never used before
      have hold : w.db.hasAlert task.alert.id = true := by
        obtain ⟨other, hother, hid⟩ := Database.hasAlert_iff.mp halert
        rcases List.mem_append.mp hother with hother | hother
        · exact Database.hasAlert_iff.mpr ⟨other, hother, hid⟩
        · rw [List.mem_singleton.mp hother] at hid
          have hcreated := (htraced.loaded tick htick task.alert (List.mem_map_of_mem htask)).1
          exact absurd hid.symm (hnew _ hcreated)
      exact hholds tick htick task htask stmt hpc hold
  | @deletes alertId db hdelete =>
      obtain ⟨_, rfl⟩ := Database.deleteAlert_cases hdelete
      intro tick htick task htask stmt hpc halert
      obtain ⟨other, hother, hid⟩ := Database.hasAlert_iff.mp halert
      obtain ⟨hother, hne⟩ := List.mem_filter.mp hother
      obtain ⟨n, hn, hkey⟩ := hholds tick htick task htask stmt hpc
        (Database.hasAlert_iff.mpr ⟨other, hother, hid⟩)
      refine ⟨n, Table.mem_rows_delete.mpr ⟨hn, ?_⟩, hkey⟩
      have hk : ∃ k, w.ticks[k]? = some tick := List.mem_iff_getElem?.mp htick
      obtain ⟨k, hk⟩ := hk
      have hsound := (h.orderly k tick hk).sound task htask
      rw [hpc] at hsound
      have hown : n.tripAlertId = task.alert.id := congrArg Prod.fst (hkey.trans hsound.1)
      simpa [hown, ← hid] using hne

theorem Worker.Reachable.conflictsHold (h : w.Reachable env) : w.ConflictsHold := by
  obtain ⟨actions, hexec⟩ := h
  let P (v : Worker) : Prop := v.Sound ∧ v.Traced ∧ v.ConflictsHold
  have hstep : ∀ v a v', P v → True → Worker.step env v a = some v' → P v' :=
    fun v a v' hv _ hstep => ⟨hv.1.step hstep, Worker.Traced.step hv.1 hv.2.1 hstep,
      Worker.ConflictsHold.step hv.1 hv.2.1 hv.2.2 hstep⟩
  have hinitial : P .initial :=
    ⟨Worker.initial_sound, Worker.initial_traced, by simp [ConflictsHold, Worker.initial]⟩
  exact (Run.exec_invariant hstep hinitial (Run.meets_true _ _) hexec).2.2

/-- The task has found rain and its insert is not committed yet. -/
def Pc.Recording (stmt : InsertStmt) : Pc → Prop
  | .locking s => s = stmt
  | .inserting s => s = stmt
  | .committing s _ => s = stmt
  | _ => False

/-- A departure on its way into the outbox: the task of its alert is recording it,
    or its row is there, or the alert is gone. -/
def Worker.Tracks (w : Worker) (k i : Nat) (alert : TripAlert) (now : DateTime)
    (stmt : InsertStmt) : Prop :=
  (∃ tick task, w.ticks[k]? = some tick ∧ tick.tasks[i]? = some task ∧ tick.now = now ∧
    task.alert = alert ∧ task.pc.Recording stmt) ∨
  (∃ n ∈ w.db.rows, n.key = departureKey alert now) ∨ alert ∉ w.db.tripAlerts

/-- The step of a recording task: it goes on recording, fails, or has its row. -/
theorem recording_step {s : TickState} {k i : Nat} {task : Task} {stmt : InsertStmt}
    {act : TaskAct} {site : Site} {pc : Pc} (h : Orderly k s) (halive : s.tick.alive = true)
    (hstage : s.tick.stage = .sweeping) (hi : s.tick.tasks[i]? = some task)
    (hrecording : task.pc.Recording stmt)
    (hconflict : task.pc = .committing stmt none →
      ∃ n ∈ s.db.rows, n.key = departureKey task.alert s.tick.now)
    (htask : taskStep env k s.tick.now s.tick.loaded task.alert s.site task.pc act =
      some (site, pc))
    (hinsert : ∀ createdAt, act ≠ .insert false createdAt) (hcommit : act ≠ .commit false) :
    pc.Recording stmt ∨ ∃ n ∈ site.db.rows, n.key = departureKey task.alert s.tick.now := by
  have hsound := h.sound task (List.mem_of_getElem? hi)
  have hopen : task.pc.critical = true → s.db.openOf k = task.pc.writes :=
    h.openOf_of_critical halive hstage hi
  generalize hpc : task.pc = pc₀ at *
  have hmoves := taskStep_moves htask
  cases hmoves with
  | acquires hfree => exact Or.inl hrecording
  | inserts hinsert => exact Or.inl hrecording
  | insertFails hfails => exact absurd rfl (hinsert _)
  | skips =>
      cases hrecording
      obtain ⟨n, hn, hkey⟩ := hconflict rfl
      refine Or.inr ⟨n, ?_, hkey⟩
      have hrows : (s.db.commit k).rows = s.db.rows := Database.rows_commit_nil (hopen rfl)
      exact hrows ▸ hn
  | @records stmt inst =>
      have hrows : (s.db.commit k).rows = s.db.rows ++ [inst.row] :=
        Database.rows_commit_insert (hopen rfl)
      refine Or.inr ⟨inst.row, ?_, (hsound.2 inst rfl).1⟩
      exact hrows ▸ List.mem_append_right _ (List.mem_singleton_self _)
  | commitFails hfails => exact absurd rfl hcommit
  | _ => cases hrecording

/-- A row is kept for as long as its alert is. -/
theorem key_kept (h : w.Sound) {alert : TripAlert} {date : Int} {a : Action}
    (hstep : w.step env a = some w') (hrow : ∃ n ∈ w.db.rows, n.key = (alert.id, date)) :
    (∃ n ∈ w'.db.rows, n.key = (alert.id, date)) ∨ alert ∉ w'.db.tripAlerts := by
  obtain ⟨n, hn, hkey⟩ := hrow
  have hown : n.tripAlertId = alert.id := congrArg Prod.fst hkey
  by_cases ha : a = .deleteAlert n.tripAlertId
  · subst ha
    have hmoves := step_moves hstep
    cases hmoves with
    | deletes hdelete =>
        obtain ⟨_, rfl⟩ := Database.deleteAlert_cases hdelete
        apply Or.inr
        intro halert
        have hne := (List.mem_filter.mp halert).2
        simp [hown] at hne
  · rcases Worker.step_rows_kept h hstep hn ha with hkept | ⟨t, hstamped⟩
    · exact Or.inl ⟨n, hkept, hkey⟩
    · exact Or.inl ⟨n.stamp t, hstamped, hkey⟩

/-- An alert that was deleted does not come back. -/
theorem gone_step (h : w.Sound) {alert : TripAlert} (hcreated : alert ∈ w.created) {a : Action}
    (hstep : w.step env a = some w') (hgone : alert ∉ w.db.tripAlerts) :
    alert ∉ w'.db.tripAlerts := by
  have hmoves := step_moves hstep
  cases hmoves with
  | starts now leadMinutes => exact hgone
  | @ticks k act tick s hk htick =>
      have heffects : Effects (fun _ => True) k tick.now tick.alerts (w.stateOf tick).face s.face :=
        tickStep_effects (h.orderly k tick hk) (fun _ _ _ => trivial) htick
      have halerts : s.db.tripAlerts = w.db.tripAlerts := heffects.tripAlerts_eq
      intro halert
      exact hgone (halerts ▸ halert)
  | creates hnew =>
      intro halert
      rcases List.mem_append.mp halert with halert | halert
      · exact hgone halert
      · exact hnew alert hcreated (congrArg TripAlert.id (List.mem_singleton.mp halert))
  | deletes hdelete =>
      obtain ⟨_, rfl⟩ := Database.deleteAlert_cases hdelete
      intro halert
      exact hgone (List.mem_of_mem_filter halert)

theorem Worker.Tracks.step (h : w.Sound) (hholds : w.ConflictsHold) {k i : Nat}
    {alert : TripAlert} {now : DateTime} {stmt : InsertStmt} (hcreated : alert ∈ w.created)
    (htracks : w.Tracks k i alert now stmt) {a : Action} (hstep : w.step env a = some w')
    (hinsert : ∀ createdAt, a ≠ .tick k (.task i (.insert false createdAt)))
    (hcommit : a ≠ .tick k (.task i (.commit false))) : w'.Tracks k i alert now stmt := by
  rcases htracks with ⟨tick, task, hk, hi, rfl, rfl, hrecording⟩ | hrow | hgone
  · by_cases hstill : ∃ tick', w'.ticks[k]? = some tick' ∧ tick'.now = tick.now ∧
        tick'.tasks[i]? = some task
    · obtain ⟨tick', hk', hnow, hi'⟩ := hstill
      exact Or.inl ⟨tick', task, hk', hi', hnow, rfl, hrecording⟩
    · -- only a step of this very task can move it on
      have hlt := (List.getElem?_eq_some_iff.mp hk).1
      have hmoves := step_moves hstep
      cases hmoves with
      | starts now leadMinutes =>
          exact absurd ⟨tick, by rw [List.getElem?_append_left hlt, hk], rfl, hi⟩ hstill
      | creates hnew => exact absurd ⟨tick, hk, rfl, hi⟩ hstill
      | deletes hdelete => exact absurd ⟨tick, hk, rfl, hi⟩ hstill
      | @ticks l act tick' s hl htick =>
          by_cases hne : l = k
          · subst hne
            cases hk.symm.trans hl
            have hself : (w.setTick l s).ticks[l]? = some s.tick := List.getElem?_set_self hlt
            obtain ⟨halive, hmoves⟩ := tickStep_moves htick
            have hsweeping : tick.stage = .sweeping := by
              by_contra hidle
              have htasks : tick.tasks = [] := (h.orderly l tick hk).idle hidle
              simp [htasks] at hi
            cases hmoves.of_sweeping hsweeping with
            | @sweeps j other act site pc hj htask =>
                by_cases hij : j = i
                · subst hij
                  cases hi.symm.trans hj
                  by_cases halert : task.alert ∈ w.db.tripAlerts
                  · have hconflict : task.pc = .committing stmt none →
                        ∃ n ∈ w.db.rows, n.key = departureKey task.alert tick.now := by
                      intro hpc
                      have hsound := (h.orderly l tick hk).sound task (List.mem_of_getElem? hi)
                      rw [hpc] at hsound
                      obtain ⟨n, hn, hkey⟩ := hholds tick (List.mem_of_getElem? hk) task
                        (List.mem_of_getElem? hi) stmt hpc
                        (Database.hasAlert_iff.mpr ⟨_, halert, rfl⟩)
                      exact ⟨n, hn, hkey.trans hsound.1⟩
                    have hmoved := recording_step (h.orderly l tick hk) halive hsweeping hi
                      hrecording hconflict htask
                      (fun createdAt heq => hinsert createdAt (heq ▸ rfl))
                      (fun heq => hcommit (heq ▸ rfl))
                    have hset : (tick.tasks.set j ⟨task.alert, pc⟩)[j]? = some ⟨task.alert, pc⟩ :=
                      List.getElem?_set_self (List.getElem?_eq_some_iff.mp hi).1
                    exact hmoved.imp
                      (fun hrecording => ⟨_, ⟨task.alert, pc⟩, hself, hset, rfl, rfl, hrecording⟩)
                      Or.inl
                  · exact Or.inr (Or.inr (gone_step h hcreated hstep halert))
                · exact absurd ⟨_, hself, rfl, (List.getElem?_set_ne hij).trans hi⟩ hstill
            | gatherRaises => exact absurd ⟨_, hself, rfl, hi⟩ hstill
            | gathers => exact absurd ⟨_, hself, rfl, hi⟩ hstill
            | dies => exact absurd ⟨_, hself, rfl, hi⟩ hstill
          · exact absurd ⟨tick, (List.getElem?_set_ne hne).trans hk, rfl, hi⟩ hstill
  · exact Or.inr (key_kept h hstep hrow)
  · exact Or.inr (Or.inr (gone_step h hcreated hstep hgone))

theorem Worker.Tracks.exec (h : w.Sound) (htraced : w.Traced) (hholds : w.ConflictsHold)
    {k i : Nat} {alert : TripAlert} {now : DateTime} {stmt : InsertStmt}
    (hcreated : alert ∈ w.created) (htracks : w.Tracks k i alert now stmt) {actions : List Action}
    (hexec : Run.exec (Worker.step env) w actions = some w')
    (hinsert : ∀ createdAt, .tick k (.task i (.insert false createdAt)) ∉ actions)
    (hcommit : .tick k (.task i (.commit false)) ∉ actions) : w'.Tracks k i alert now stmt := by
  induction actions generalizing w with
  | nil =>
      cases hexec
      exact htracks
  | cons a actions ih =>
      obtain ⟨v, hv, hrest⟩ := Run.exec_cons_eq_some.mp hexec
      have hcommit' := List.ne_and_not_mem_of_not_mem_cons hcommit
      have hinsert' := fun createdAt => List.ne_and_not_mem_of_not_mem_cons (hinsert createdAt)
      have htracks' := Worker.Tracks.step h hholds hcreated htracks hv
        (fun createdAt => (hinsert' createdAt).1.symm) hcommit'.1.symm
      exact ih (h.step hv) (Worker.Traced.step h htraced hv)
        (Worker.ConflictsHold.step h htraced hholds hv) (created_step hv hcreated) htracks' hrest
        (fun createdAt => (hinsert' createdAt).2) hcommit'.2

/-- The leads that `notify_lead_minutes` allows. -/
def LeadBelowDay (_ : Worker) : Action → Prop
  | .start _ leadMinutes => leadMinutes < 1440
  | _ => True

instance (w : Worker) : (a : Action) → Decidable (LeadBelowDay w a)
  | .start _ leadMinutes => inferInstanceAs (Decidable (leadMinutes < 1440))
  | .tick _ _ => isTrue trivial
  | .createAlert _ => isTrue trivial
  | .deleteAlert _ => isTrue trivial

theorem leads_step {a : Action} (hleads : ∀ tick ∈ w.ticks, tick.leadMinutes < 1440)
    (hok : LeadBelowDay w a) (hstep : w.step env a = some w') :
    ∀ tick ∈ w'.ticks, tick.leadMinutes < 1440 := by
  have hmoves := step_moves hstep
  cases hmoves with
  | starts now leadMinutes =>
      intro tick htick
      rcases List.mem_append.mp htick with htick | htick
      · exact hleads tick htick
      · rw [List.mem_singleton.mp htick]
        exact hok
  | ticks hk htick =>
      intro tick hmem
      rcases List.mem_or_eq_of_mem_set hmem with hmem | rfl
      · exact hleads tick hmem
      · rw [(tickStep_clock htick).2]
        exact hleads _ (List.mem_of_getElem? hk)
  | creates hnew => exact hleads
  | deletes hdelete => exact hleads

/-- Every row was recorded by a tick at which its alert was due, for a departure in that
    tick's window, and no departure has two rows. -/
structure Worker.RowsPlaced (w : Worker) : Prop where
  placed : ∀ n ∈ w.db.rows, ∃ session tick alert row, w.ticks[session]? = some tick ∧
    .recorded session alert (some row) ∈ w.log ∧ row.id = n.id ∧ row.key = n.key ∧
    alert ∈ w.created ∧ alert.id = n.tripAlertId ∧
    dueCond tick.now tick.leadMinutes alert = true ∧
    DepartsWithin alert tick.now tick.leadMinutes n.departureDate
  unique : (w.db.rows.map (·.key)).Nodup

theorem Worker.rowsPlaced {actions : List Action}
    (hleads : Run.Meets (Worker.step env) LeadBelowDay .initial actions)
    (hexec : Run.exec (Worker.step env) .initial actions = some w) : w.RowsPlaced := by
  have hreachable : w.Reachable env := ⟨actions, hexec⟩
  have htraced := hreachable.traced
  have hbelow : ∀ tick ∈ w.ticks, tick.leadMinutes < 1440 := by
    have hinitial : ∀ tick ∈ Worker.initial.ticks, tick.leadMinutes < 1440 := by
      simp [Worker.initial]
    exact Run.exec_invariant (fun _ _ _ hv hok hstep => leads_step hv hok hstep) hinitial hleads
      hexec
  constructor
  · intro n hn
    obtain ⟨session, alert, row, hmem, hid, hkey⟩ := htraced.rows n hn
    obtain ⟨now, lead, hclock, hcreated, hdue, hrow⟩ := htraced.recorded _ _ _ hmem
    obtain ⟨tick, htick, heq⟩ := Option.map_eq_some_iff.mp hclock
    cases heq
    have hdeparture : n.key = departureKey alert tick.now := hkey.symm.trans (hrow row rfl)
    have hwithin := (dueCond_iff alert tick.now (hbelow tick (List.mem_of_getElem? htick))).mp hdue
    have hdate : n.departureDate = (nextDeparture alert tick.now).date :=
      congrArg Prod.snd hdeparture
    exact ⟨session, tick, alert, row, htick, hmem, hid, hkey, hcreated,
      (congrArg Prod.fst hdeparture).symm, hdue, hdate ▸ hwithin⟩
  · exact hreachable.sound.keyed.keys.sublist ((List.sublist_append_left _ _).map _)

/-! ## A departure found rainy -/

/-- The forecast `rain` makes the evaluation that the task is in the middle of warn. -/
def Task.findsRain (env : Env) (task : Task) (rain : Option RainForecast) : Bool :=
  match task.pc with
  | .forecasting candidates => (assess env candidates rain).any warrants
  | _ => false

/-- The answer `rain` to task `i` of tick `k` finds it rainy, and its alert is stored. -/
structure Worker.FindsRain (env : Env) (w : Worker) (k i : Nat) (tick : Tick) (task : Task)
    (rain : Option RainForecast) : Prop where
  atTick : w.ticks[k]? = some tick
  atTask : tick.tasks[i]? = some task
  rainy : task.findsRain env rain = true
  stored : task.alert ∈ w.db.tripAlerts

/-- In every state of the run after `w` in which the alert is stored, the task has its insert
    or its commit before it still, or the departure has its row; unless one of these failed. -/
def Worker.Records (env : Env) (w : Worker) (k i : Nat) (alert : TripAlert) (now : DateTime)
    (actions : List Action) : Prop :=
  ∀ before after later, actions = before ++ after →
    Run.exec (Worker.step env) w before = some later →
    (∀ createdAt, .tick k (.task i (.insert false createdAt)) ∉ before) →
    .tick k (.task i (.commit false)) ∉ before → alert ∈ later.db.tripAlerts →
    (∃ tick task stmt, later.ticks[k]? = some tick ∧ tick.tasks[i]? = some task ∧
      stmt.key = departureKey alert now ∧ task.pc.Recording stmt) ∨
    ∃ n ∈ later.db.rows, n.key = departureKey alert now

/-- One record per departure, all along a run. -/
structure OneRecordPerDeparture (env : Env) (actions : List Action) : Prop where
  rows : ∀ before after w, actions = before ++ after →
    Run.exec (Worker.step env) .initial before = some w → w.RowsPlaced
  /-- Every departure found rainy is recorded. -/
  records : ∀ before after k i tick task rain u v,
    actions = before ++ .tick k (.task i (.forecast (.ok rain))) :: after →
    Run.exec (Worker.step env) .initial before = some u → u.FindsRain env k i tick task rain →
    u.step env (.tick k (.task i (.forecast (.ok rain)))) = some v →
    v.Records env k i task.alert tick.now after

/-- Where an evaluation finds its departure rainy, the session has not been rolled back since
    it loaded the alerts, or the row is there already. -/
def FindsRainLoaded (env : Env) (w : Worker) : Action → Prop
  | .tick k (.task i (.forecast (.ok rain))) =>
      ∀ tick ∈ w.ticks[k]?, ∀ task ∈ tick.tasks[i]?, task.findsRain env rain = true →
        task.alert ∈ w.db.tripAlerts →
          tick.loop.expired tick.loaded = false ∨
            ∃ n ∈ w.db.rows, n.key = departureKey task.alert tick.now
  | _ => True

instance (env : Env) (w : Worker) : (a : Action) → Decidable (FindsRainLoaded env w a)
  | .tick k (.task i (.forecast (.ok rain))) =>
      inferInstanceAs (Decidable (∀ tick ∈ w.ticks[k]?, ∀ task ∈ tick.tasks[i]?,
        task.findsRain env rain = true → task.alert ∈ w.db.tripAlerts →
          tick.loop.expired tick.loaded = false ∨
            ∃ n ∈ w.db.rows, n.key = departureKey task.alert tick.now))
  | .tick _ (.task _ (.forecast (.error _))) => isTrue trivial
  | .tick _ (.task _ .start) => isTrue trivial
  | .tick _ (.task _ (.plan _)) => isTrue trivial
  | .tick _ (.task _ .acquire) => isTrue trivial
  | .tick _ (.task _ (.insert _ _)) => isTrue trivial
  | .tick _ (.task _ (.commit _)) => isTrue trivial
  | .tick _ (.task _ (.deliver _)) => isTrue trivial
  | .tick _ (.selectPending _) => isTrue trivial
  | .tick _ (.redeliver _) => isTrue trivial
  | .tick _ (.selectDue _) => isTrue trivial
  | .tick _ .gather => isTrue trivial
  | .tick _ .die => isTrue trivial
  | .start _ _ => isTrue trivial
  | .createAlert _ => isTrue trivial
  | .deleteAlert _ => isTrue trivial

theorem Task.findsRain_eq_true {task : Task} {rain : Option RainForecast}
    (h : task.findsRain env rain = true) : ∃ candidates advice,
      task.pc = .forecasting candidates ∧ assess env candidates rain = some advice ∧
        warrants advice = true := by
  unfold findsRain at h
  split at h
  · rename_i candidates hpc
    obtain ⟨advice, hassess, hwarrants⟩ := (Option.any_eq_true _ _).mp h
    exact ⟨candidates, advice, hpc, hassess, hwarrants⟩
  · cases h

section FindsRain

variable {k i : Nat} {tick : Tick} {task : Task} {rain : Option RainForecast}

/-- The step that finds rain: the task goes on to its insert, or it raises, and then it has
    seen a rollback; it writes nothing. -/
theorem Worker.FindsRain.step_cases (h : w.FindsRain env k i tick task rain)
    (hstep : w.step env (.tick k (.task i (.forecast (.ok rain)))) = some w') :
    ∃ tick' pc, w'.ticks[k]? = some tick' ∧ tick'.tasks[i]? = some ⟨task.alert, pc⟩ ∧
      tick'.now = tick.now ∧ w'.db = w.db ∧
      ((∃ stmt, tick.loop.expired tick.loaded = false ∧
          stmt.key = departureKey task.alert tick.now ∧ pc = .locking stmt) ∨
        tick.loop.expired tick.loaded = true ∧ (pc = .raised ∨ pc = .finished none)) := by
  obtain ⟨candidates, advice, hpc, hassess, hwarrants⟩ := task.findsRain_eq_true h.rainy
  have hmoves := step_moves hstep
  cases hmoves with
  | @ticks _ _ tick₁ s hk htick =>
      cases h.atTick.symm.trans hk
      obtain ⟨halive, htickMoves⟩ := tickStep_moves htick
      cases htickMoves with
      | @sweeps _ task₁ _ site pc hstage hi htask =>
          cases h.atTask.symm.trans hi
          have hself : (w.ticks.set k ((w.stateOf tick).setTask i task.alert site pc).tick)[k]? =
              some ((w.stateOf tick).setTask i task.alert site pc).tick :=
            List.getElem?_set_self (List.getElem?_eq_some_iff.mp hk).1
          have hset : (tick.tasks.set i ⟨task.alert, pc⟩)[i]? = some ⟨task.alert, pc⟩ :=
            List.getElem?_set_self (List.getElem?_eq_some_iff.mp hi).1
          rw [hpc] at htask
          have htaskMoves := taskStep_moves htask
          cases htaskMoves with
          | forecastRaises hanswer hskip =>
              obtain ⟨rfl, hended⟩ := skipAlert_cases hskip
              refine ⟨_, pc, hself, hset, rfl, rfl, Or.inr ⟨?_, hended⟩⟩
              rcases hanswer with hanswer | ⟨_, hanswer, hnone⟩ | hexpired
              · cases hanswer
              · cases hanswer
                cases hassess.symm.trans hnone
              · exact Loop.expired_eq_true.mpr hexpired
          | staysDry hassess' hdry =>
              cases hassess.symm.trans hassess'
              cases hwarrants.symm.trans hdry
          | warns hassess' hwet hfresh =>
              refine ⟨_, _, hself, hset, rfl, rfl, Or.inl ⟨_, ?_, ?_, rfl⟩⟩
              · exact Loop.expired_eq_false.mpr hfresh
              · rfl

/-- A departure found rainy is recorded, exactly if the session has its alerts loaded or the
    row is there already. -/
theorem Worker.FindsRain.records_iff (hreachable : w.Reachable env)
    (h : w.FindsRain env k i tick task rain)
    (hstep : w.step env (.tick k (.task i (.forecast (.ok rain)))) = some w')
    (after : List Action) : w'.Records env k i task.alert tick.now after ↔
      tick.loop.expired tick.loaded = false ∨
        ∃ n ∈ w.db.rows, n.key = departureKey task.alert tick.now := by
  have hsound := hreachable.sound
  have htraced := hreachable.traced
  have hholds := hreachable.conflictsHold
  have hcreated : task.alert ∈ w.created := (htraced.loaded tick (List.mem_of_getElem? h.atTick)
    task.alert (List.mem_map_of_mem (List.mem_of_getElem? h.atTask))).1
  obtain ⟨tick', pc, hk, hi, hnow, hdb, hended⟩ := h.step_cases hstep
  constructor
  · intro hrecords
    rcases hended with ⟨_, hloaded, _⟩ | ⟨_, hover⟩
    · exact Or.inl hloaded
    · right
      rcases hrecords [] after w' rfl rfl (by simp) (by simp) (hdb ▸ h.stored) with
        ⟨tick₁, task₁, stmt, hk₁, hi₁, _, hrecording⟩ | hrow
      · cases hk.symm.trans hk₁
        cases hi.symm.trans hi₁
        rcases hover with rfl | rfl
        · cases hrecording
        · cases hrecording
      · rw [hdb] at hrow
        exact hrow
  · intro hloaded before rest later heq hexec hinsert hcommit halert
    obtain ⟨stmt, hkey, htracks⟩ : ∃ stmt : InsertStmt,
        stmt.key = departureKey task.alert tick.now ∧
          w'.Tracks k i task.alert tick.now stmt := by
      rcases hloaded with hloaded | hrow
      · rcases hended with ⟨stmt, _, hkey, rfl⟩ | ⟨hexpired, _⟩
        · exact ⟨stmt, hkey, Or.inl ⟨tick', _, hk, hi, hnow, rfl, rfl⟩⟩
        · cases hloaded.symm.trans hexpired
      · obtain ⟨_, advice, _⟩ := task.findsRain_eq_true h.rainy
        refine ⟨insertStmt task.alert tick.now advice, rfl, Or.inr (Or.inl ?_)⟩
        rw [hdb]
        exact hrow
    have hcreated' := created_step hstep hcreated
    rcases Worker.Tracks.exec (hsound.step hstep) (Worker.Traced.step hsound htraced hstep)
      (Worker.ConflictsHold.step hsound htraced hholds hstep) hcreated' htracks hexec hinsert
      hcommit with ⟨tick₁, task₁, hk₁, hi₁, _, _, hrecording⟩ | hrow | hgone
    · exact Or.inl ⟨tick₁, task₁, stmt, hk₁, hi₁, hkey, hrecording⟩
    · exact Or.inr hrow
    · exact absurd halert hgone

end FindsRain

/-- **One record per departure, exactly while the alerts stay loaded.**  All along a run the
    rows are where they belong; every departure that is found rainy is recorded, unless its
    own insert or commit fails, if and only if no evaluation finds rain after its session was
    rolled back for a departure without a row. -/
theorem one_record_per_departure_iff (actions : List Action)
    (hleads : Run.Meets (Worker.step env) LeadBelowDay .initial actions)
    (hexec : Run.exec (Worker.step env) .initial actions = some w) :
    OneRecordPerDeparture env actions ↔
      Run.Meets (Worker.step env) (FindsRainLoaded env) .initial actions := by
  constructor
  · intro h
    rw [Run.meets_iff]
    intro before a after u heq hbefore
    unfold FindsRainLoaded
    split
    · rename_i k i rain
      intro tick htick task htask hrainy hstored
      rw [heq] at hexec
      obtain ⟨u', hu, hrest⟩ := Run.exec_append_eq_some.mp hexec
      cases hbefore.symm.trans hu
      obtain ⟨v, hstep, _⟩ := Run.exec_cons_eq_some.mp hrest
      have hfinds : u.FindsRain env k i tick task rain := ⟨htick, htask, hrainy, hstored⟩
      apply (hfinds.records_iff ⟨before, hbefore⟩ hstep after).mp
      exact h.records before after k i tick task rain u v heq hbefore hfinds hstep
    · trivial
  · intro hmeets
    constructor
    · intro before after u heq hbefore
      subst heq
      exact Worker.rowsPlaced (Run.meets_of_append hleads) hbefore
    · intro before after k i tick task rain u v heq hbefore hfinds hstep
      have hok := Run.meets_iff.mp hmeets before _ after u heq hbefore
      exact (hfinds.records_iff ⟨before, hbefore⟩ hstep after).mpr
        (hok tick hfinds.atTick task hfinds.atTask hfinds.rainy hfinds.stored)

end Worker

/-- Two alerts for the same wet ride are evaluated side by side. -/
def planningRun : List Action :=
  [.createAlert tuesdayMorning, .createAlert { tuesdayMorning with id := 2 },
    .start mondayNight 15, .tick 0 (.selectPending true), .tick 0 (.selectDue true),
    .tick 0 (.task 0 .start), .tick 0 (.task 1 .start),
    .tick 0 (.task 0 (.plan (.ok [wetRide]))), .tick 0 (.task 1 (.plan (.ok [wetRide]))),
    .tick 0 (.task 0 (.forecast (.ok (some shower))))]

/-- The first alert has just been deleted when its insert is executed, which fails. -/
def failedInsert : List Action :=
  [.deleteAlert 1, .tick 0 (.task 0 .acquire), .tick 0 (.task 0 (.insert false 7))]

/-- The second evaluation finds rain, and the second insert goes through. -/
def foundRain : Action := .tick 0 (.task 1 (.forecast (.ok (some shower))))

def secondInsert : List Action :=
  [.tick 0 (.task 1 .acquire), .tick 0 (.task 1 (.insert true 8)),
    .tick 0 (.task 1 (.commit true))]

/-- Rain that is found before the other insert fails is recorded after it. -/
theorem one_record_per_departure_saved :
    ∃ w, Run.exec (Worker.step flatEnv) .initial
        (planningRun ++ foundRain :: failedInsert ++ secondInsert) = some w ∧
      w.db.rows.length = 1 ∧
      OneRecordPerDeparture flatEnv (planningRun ++ foundRain :: failedInsert ++ secondInsert) := by
  have hrun : ((Run.exec (Worker.step flatEnv) .initial
      (planningRun ++ foundRain :: failedInsert ++ secondInsert)).map (·.db.rows.length)) =
        some 1 := by decide +kernel
  obtain ⟨w, hw, hlength⟩ := Option.map_eq_some_iff.mp hrun
  exact ⟨w, hw, hlength, (one_record_per_departure_iff _ (by decide +kernel) hw).mpr
    (by decide +kernel)⟩

/-- Rain that is found after the other insert has failed is not recorded. -/
theorem one_record_per_departure_lost :
    ¬ ∀ (actions : List Action) (w : Worker),
      Run.Meets (Worker.step flatEnv) LeadBelowDay .initial actions →
      Run.exec (Worker.step flatEnv) .initial actions = some w →
        OneRecordPerDeparture flatEnv actions := by
  intro hall
  -- the state in which rain is found, with what the session has seen and the rows there are
  have hrun : ((Run.exec (Worker.step flatEnv) .initial (planningRun ++ failedInsert)).map
      fun u => (u.ticks[0]?.map fun tick => (tick.loop.expired tick.loaded,
        tick.tasks[1]?.map fun task => task.findsRain flatEnv (some shower) &&
          decide (task.alert ∈ u.db.tripAlerts)), u.db.rows,
        (u.step flatEnv foundRain).isSome)) = some (some (true, some true), [], true) := by
    decide +kernel
  obtain ⟨u, hu, hfound⟩ := Option.map_eq_some_iff.mp hrun
  simp only [Prod.mk.injEq, Option.map_eq_some_iff, Bool.and_eq_true, decide_eq_true_eq,
    Option.isSome_iff_exists] at hfound
  obtain ⟨⟨tick, htick, hexpired, task, htask, hrainy, hstored⟩, hrows, v, hv⟩ := hfound
  have hexec : Run.exec (Worker.step flatEnv) .initial (planningRun ++ failedInsert ++
      [foundRain]) = some v := Run.exec_append hu (Run.exec_cons_eq_some.mpr ⟨v, hv, rfl⟩)
  have hone := hall _ v (by decide +kernel) hexec
  have hfinds : u.FindsRain flatEnv 0 1 tick task (some shower) := ⟨htick, htask, hrainy, hstored⟩
  have hrecords := hone.records (planningRun ++ failedInsert) [] 0 1 tick task (some shower) u v
    rfl hu hfinds hv
  rcases (hfinds.records_iff ⟨_, hu⟩ hv []).mp hrecords with hloaded | ⟨n, hn, _⟩
  · cases hloaded.symm.trans hexpired
  · rw [hrows] at hn
    cases hn

end FietsOfOv
