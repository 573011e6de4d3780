import FietsOfOv.Notify.Effects

/-!
# The lock, the permits and the open transaction of a tick

`Orderly` is what a tick keeps through all its steps: at most one task stands
between the start of a statement and its commit, exactly while `db_lock` is held;
the semaphore lends out what the running tasks hold; and the session's open
transaction is what the task in the critical region wrote.
-/

namespace FietsOfOv

open WallClock Relation Transactional

/-! ## What effects keep -/

section Effect

variable {pickable : Notification → Prop} {session : Nat} {now : DateTime}
  {alerts : List TripAlert} {f f' : Face}

theorem Effect.openOf_eq (h : Effect pickable session now alerts f f')
    (hopen : f.db.openOf session = f.writes) : f'.db.openOf session = f'.writes := by
  cases h with
  | rollsBack => exact Database.openOf_rollback_self _ _
  | inserts _ _ hinsert =>
      obtain ⟨_, _, _, _, ⟨rfl, heq, _⟩ | ⟨row, rfl, _, heq, _⟩⟩ := Database.insert_cases hinsert
      · exact heq.trans hopen
      · rw [heq, hopen]
        rfl
  | skips => exact Database.openOf_commit_self _ _
  | records => exact Database.openOf_commit_self _ _
  | updates =>
      rw [Database.openOf_stamp_self, hopen]
      rfl
  | stamps => exact Database.openOf_commit_self _ _
  | _ => exact hopen

theorem Effect.openOf_other (h : Effect pickable session now alerts f f') {other : Nat}
    (hne : session ≠ other) : f'.db.openOf other = f.db.openOf other := by
  cases h with
  | rollsBack => exact Database.openOf_rollback_other _ hne
  | inserts _ _ hinsert => exact (Database.insert_cases hinsert).2.2.2.1 other hne
  | skips => exact Database.openOf_commit_other _ hne
  | records => exact Database.openOf_commit_other _ hne
  | updates => exact Database.openOf_stamp_other _ _ _ hne
  | stamps => exact Database.openOf_commit_other _ hne
  | _ => rfl

theorem Effect.tripAlerts_eq (h : Effect pickable session now alerts f f') :
    f'.db.tripAlerts = f.db.tripAlerts := by
  cases h with
  | inserts _ _ hinsert => exact (Database.insert_cases hinsert).1
  | _ => rfl

theorem Effect.wellKeyed (h : Effect pickable session now alerts f f')
    (hkeyed : f.db.notifications.WellKeyed Notification.schema) :
    f'.db.notifications.WellKeyed Notification.schema := by
  cases h with
  | rollsBack => exact hkeyed.rollback session
  | inserts _ _ hinsert => exact Database.insert_wellKeyed hkeyed hinsert
  | skips => exact hkeyed.commit session
  | records => exact hkeyed.commit session
  | updates => exact hkeyed.update session _ _
  | stamps => exact hkeyed.commit session
  | _ => exact hkeyed

theorem Effect.log_subset (h : Effect pickable session now alerts f f') : f.log ⊆ f'.log := by
  cases h with
  | skips => exact List.subset_append_left _ _
  | records => exact List.subset_append_left _ _
  | sends => exact List.subset_append_left _ _
  | sendFails => exact List.subset_append_left _ _
  | stamps => exact List.subset_append_left _ _
  | stampFails => exact List.subset_append_left _ _
  | raises => exact List.subset_append_left _ _
  | _ => exact fun _ he => he

theorem Effects.openOf_eq (h : Effects pickable session now alerts f f')
    (hopen : f.db.openOf session = f.writes) : f'.db.openOf session = f'.writes := by
  induction h with
  | refl => exact hopen
  | tail _ hstep ih => exact hstep.openOf_eq ih

theorem Effects.openOf_other (h : Effects pickable session now alerts f f') {other : Nat}
    (hne : session ≠ other) : f'.db.openOf other = f.db.openOf other := by
  induction h with
  | refl => rfl
  | tail _ hstep ih => exact (hstep.openOf_other hne).trans ih

theorem Effects.tripAlerts_eq (h : Effects pickable session now alerts f f') :
    f'.db.tripAlerts = f.db.tripAlerts := by
  induction h with
  | refl => rfl
  | tail _ hstep ih => exact hstep.tripAlerts_eq.trans ih

theorem Effects.wellKeyed (h : Effects pickable session now alerts f f')
    (hkeyed : f.db.notifications.WellKeyed Notification.schema) :
    f'.db.notifications.WellKeyed Notification.schema := by
  induction h with
  | refl => exact hkeyed
  | tail _ hstep ih => exact hstep.wellKeyed ih

/-- The log only grows. -/
theorem Effects.log_subset (h : Effects pickable session now alerts f f') : f.log ⊆ f'.log := by
  induction h with
  | refl => exact fun _ hmem => hmem
  | tail _ hstep ih => exact fun event hmem => hstep.log_subset (ih hmem)

end Effect

/-! ## Orderly ticks -/

structure Orderly (session : Nat) (s : TickState) : Prop where
  writes : s.db.openOf session = s.tick.writes
  lock : Pool.weight (·.pc.critical.toNat) s.tick.tasks = s.tick.loop.dbLocked.toNat
  permits : Pool.weight (·.pc.running.toNat) s.tick.tasks + s.tick.loop.semaphore = 4
  idle : s.tick.stage ≠ .sweeping → s.tick.tasks = []
  /-- `redeliver_pending` delivers without the lock. -/
  lockless : ∀ inst rest, s.tick.stage ≠ .redelivering inst .locking rest
  sound : ∀ task ∈ s.tick.tasks, task.pc.Sound s.tick.now task.alert

section Tick

variable {env : Env} {pickable : Notification → Prop} {session : Nat} {s s' : TickState}

theorem Tick.opened_orderly {db : Database} {log : List Event} {now : DateTime} {lead : Nat}
    (h : db.openOf session = []) : Orderly session ⟨db, log, .opened now lead⟩ where
  writes := h
  lock := rfl
  permits := rfl
  idle _ := rfl
  lockless := by simp [Tick.opened]
  sound := by simp [Tick.opened]

/-- What other sessions do leaves a tick orderly. -/
theorem Orderly.congr (h : Orderly session s) (htick : s'.tick = s.tick)
    (hopen : s'.db.openOf session = s.db.openOf session) : Orderly session s' := by
  cases s'
  cases htick
  exact ⟨hopen.trans h.writes, h.lock, h.permits, h.idle, h.lockless, h.sound⟩

theorem Orderly.locked_of_critical (h : Orderly session s) {i : Nat} {task : Task}
    (hi : s.tick.tasks[i]? = some task) (hcritical : task.pc.critical = true) :
    s.tick.loop.dbLocked = true := by
  have hle := Pool.le_weight (·.pc.critical.toNat) (List.mem_of_getElem? hi)
  simp only [hcritical, h.lock, Bool.toNat_true] at hle
  cases hlocked : s.tick.loop.dbLocked with
  | true => rfl
  | false => simp [hlocked] at hle

/-- **Mutual exclusion.**  While one task stands between the start of a statement
    and its commit, no other does. -/
theorem Orderly.others_not_critical (h : Orderly session s) {i j : Nat} {task other : Task}
    (hi : s.tick.tasks[i]? = some task) (hcritical : task.pc.critical = true)
    (hj : s.tick.tasks[j]? = some other) (hne : i ≠ j) : other.pc.critical = false := by
  have hle : Pool.weight (·.pc.critical.toNat) s.tick.tasks ≤ task.pc.critical.toNat := by
    rw [h.lock, hcritical]
    exact Bool.toNat_le _
  have hzero := Pool.weight_others (·.pc.critical.toNat) hle hi hj hne
  simpa using hzero

theorem Pc.writes_of_not_critical {pc : Pc} (h : pc.critical = false) : pc.writes = [] := by
  cases pc with
  | committing stmt notification => simp [critical] at h
  | delivering inst d =>
      cases d with
      | committing deliveredAt => simp [critical, Delivery.critical] at h
      | _ => rfl
  | _ => rfl

/-- What the tasks have written: the share of the one that moves, and the rest,
    which is nothing while the one that moves is in the critical region. -/
theorem Orderly.split_writes (h : Orderly session s) {i : Nat} {task : Task} {pc' : Pc}
    (hi : s.tick.tasks[i]? = some task)
    (hwrites : task.pc.critical = false → pc'.writes = []) :
    ∃ V, (task.pc.critical = true → V = []) ∧
      s.tick.tasks.flatMap (·.pc.writes) = task.pc.writes ++ V ∧
      (s.tick.tasks.set i ⟨task.alert, pc'⟩).flatMap (·.pc.writes) = pc'.writes ++ V := by
  cases hcritical : task.pc.critical with
  | true =>
      have hothers : ∀ j (u : Task), s.tick.tasks[j]? = some u → i ≠ j → u.pc.writes = [] :=
        fun j u hj hne => Pc.writes_of_not_critical (h.others_not_critical hi hcritical hj hne)
      have hself : s.tick.tasks.set i task = s.tick.tasks := by
        obtain ⟨hlt, rfl⟩ := List.getElem?_eq_some_iff.mp hi
        exact List.set_getElem_self hlt
      refine ⟨[], fun _ => rfl, ?_, ?_⟩
      · have hall := Pool.flatMap_set_of_others_nil (·.pc.writes) task hi hothers
        rw [hself] at hall
        rw [hall, List.append_nil]
      · rw [Pool.flatMap_set_of_others_nil (·.pc.writes) _ hi hothers, List.append_nil]
  | false =>
      have hnil := Pc.writes_of_not_critical hcritical
      have hnil' := hwrites hcritical
      refine ⟨s.tick.tasks.flatMap (·.pc.writes), by simp, by rw [hnil, List.nil_append], ?_⟩
      rw [hnil', List.nil_append]
      exact Pool.flatMap_set_of_eq _ hi (hnil'.trans hnil.symm)

/-- In the critical region, the open transaction is what the task itself wrote. -/
theorem Orderly.openOf_of_critical (h : Orderly session s) (halive : s.tick.alive = true)
    (hstage : s.tick.stage = .sweeping) {i : Nat} {task : Task} (hi : s.tick.tasks[i]? = some task)
    (hcritical : task.pc.critical = true) : s.db.openOf session = task.pc.writes := by
  obtain ⟨V, hV, hbefore, _⟩ := h.split_writes hi fun _ => (rfl : Pc.queued.writes = [])
  rw [h.writes, Tick.writes, if_pos halive, hstage, hbefore, hV hcritical, List.append_nil]
  rfl

theorem setTask_effects (h : Orderly session s) (halive : s.tick.alive = true)
    (hstage : s.tick.stage = .sweeping) {i : Nat} {task : Task} {act : TaskAct} {site' : Site}
    {pc' : Pc} (hi : s.tick.tasks[i]? = some task)
    (hstep : taskStep env session s.tick.now s.tick.loaded task.alert s.site task.pc act =
      some (site', pc')) :
    Effects pickable session s.tick.now s.tick.alerts s.face
      (s.setTask i task.alert site' pc').face := by
  have hmem := List.mem_of_getElem? hi
  have hsound := h.sound task hmem
  have haccounted := taskStep_accounted hsound hstep (h.locked_of_critical hi)
  obtain ⟨V, hV, hbefore, hafter⟩ := h.split_writes hi haccounted.writes
  have heffects : Effects pickable session s.tick.now s.tick.alerts _ _ :=
    taskStep_effects hsound (List.mem_map_of_mem (f := (·.alert)) hmem) hstep
      ((s.tick.tasks.eraseIdx i).flatMap (·.pc.waiting))
      ((s.tick.tasks.eraseIdx i).flatMap (·.pc.unstamped)) V hV
  refine .head ?_ (heffects.tail ?_)
  · simp only [TickState.face, Tick.waiting, Tick.unstamped, Tick.writes, halive, hstage,
      Stage.waiting, Stage.unstamped, Stage.writes, List.nil_append, if_true, hbefore]
    exact .reorders (Pool.flatMap_perm _ hi) (Pool.flatMap_perm _ hi)
  · simp only [TickState.setTask, TickState.face, Tick.waiting, Tick.unstamped, Tick.writes, halive,
      hstage, Stage.waiting, Stage.unstamped, Stage.writes, List.nil_append, if_true, hafter]
    exact .reorders (Pool.flatMap_set_perm (·.pc.waiting) ⟨task.alert, pc'⟩ hi).symm
      (Pool.flatMap_set_perm (·.pc.unstamped) ⟨task.alert, pc'⟩ hi).symm

/-! ## The steps of a tick -/

/-- Before the sweep, a tick's face is that of its stage. -/
theorem face_of_idle (halive : s.tick.alive = true) (htasks : s.tick.tasks = []) :
    s.face = ⟨s.db, s.log, s.tick.stage.waiting, s.tick.stage.unstamped, s.tick.stage.writes⟩ := by
  simp [TickState.face, Tick.waiting, Tick.unstamped, Tick.writes, halive, htasks]

theorem nextRedelivery_face (rest : List Instance) :
    (nextRedelivery rest).waiting = rest.map (·.row) ∧ (nextRedelivery rest).unstamped = [] ∧
      (nextRedelivery rest).writes = [] := by
  cases rest with
  | nil => exact ⟨rfl, rfl, rfl⟩
  | cons inst rest => exact ⟨rfl, rfl, rfl⟩

/-- The loop of `redeliver_pending` goes on, or is followed by the query for due alerts. -/
theorem nextRedelivery_stage (rest : List Instance) :
    nextRedelivery rest ≠ .sweeping ∧ nextRedelivery rest ≠ .selectingPending := by
  cases rest with
  | nil => simp [nextRedelivery]
  | cons inst rest => simp [nextRedelivery]

theorem Effect.drops {now : DateTime} {alerts : List TripAlert} {db : Database}
    {log : List Event} {W U : List Notification} {V : List Write} :
    Effect pickable session now alerts ⟨db, log, W, U, V⟩ ⟨db, log, [], U, V⟩ := by
  simpa using Effect.givesUp (W := []) W

/-- Nothing more will be stamped: the failed stamps of a tick that dies. -/
theorem stampFails_all {now : DateTime} {alerts : List TripAlert} (db : Database)
    (log : List Event) (W U : List Notification) (V : List Write) :
    Effects pickable session now alerts ⟨db, log, W, U, V⟩
      ⟨db, log ++ U.map (.stamped session · false), W, [], V⟩ := by
  induction U generalizing log with
  | nil => rw [List.map_nil, List.append_nil]
  | cons row U ih =>
      have hrest := ih (log ++ [.stamped session row false])
      rw [List.append_assoc] at hrest
      exact .head .stampFails hrest

/-- A step of `deliver` inside the loop of `redeliver_pending`. -/
theorem redeliver_effects {now : DateTime} {alerts : List TripAlert} {inst : Instance}
    {d : Delivery} {act : DeliverAct} {site : Site} {progress : Progress} (rest : List Notification)
    (h : deliverStep session false inst s.site d act = some (site, progress)) :
    Effects pickable session now alerts
      ⟨s.db, s.log, d.waiting inst ++ rest, d.unstamped inst, d.writes inst⟩
      ⟨site.db, site.log, progress.waiting inst ++ rest, progress.unstamped inst,
        progress.writes inst⟩ := by
  have heffects : Effects pickable session now alerts _ _ :=
    deliverStep_effects h rest [] [] (fun _ => rfl)
  simp only [List.append_nil] at heffects
  exact heffects

/-- Every step of an orderly tick is a sequence of effects. -/
theorem tickStep_effects {act : TickAct} (h : Orderly session s)
    (hpick : act = .selectPending true →
      ∀ n ∈ s.db.pending s.tick.now.date maxRedeliveriesPerTick, pickable n)
    (hstep : tickStep env session s act = some s') :
    Effects pickable session s.tick.now s.tick.alerts s.face s'.face := by
  obtain ⟨halive, hmoves⟩ := tickStep_moves hstep
  have hidle := h.idle
  cases hmoves with
  | selects hstage =>
      have htasks := hidle (by simp [hstage])
      rw [face_of_idle halive htasks, face_of_idle (s := s.atStage _ _) halive htasks, hstage]
      simp only [TickState.atStage, nextRedelivery_face, List.map_map]
      rw [show ((·.row) ∘ (⟨·, s.tick.loop.rollbacks⟩ : Notification → Instance)) = id from rfl,
        List.map_id]
      exact .single (.picks (hpick rfl))
  | selectFails hstage =>
      have htasks := hidle (by simp [hstage])
      rw [face_of_idle halive htasks, face_of_idle (s := s.atStage _ _) halive htasks, hstage]
      exact .single .rollsBack
  | @redelivers inst d d' rest _ site hstage hdeliver =>
      have htasks := hidle (by simp [hstage])
      rw [face_of_idle halive htasks, face_of_idle (s := s.atStage _ _) halive htasks, hstage]
      exact redeliver_effects (rest.map (·.row)) hdeliver
  | @redelivered inst d rest _ site ok hstage hdeliver =>
      have htasks := hidle (by simp [hstage])
      rw [face_of_idle halive htasks, face_of_idle (s := s.atStage _ _) halive htasks, hstage]
      simp only [TickState.atStage, nextRedelivery_face]
      exact redeliver_effects (rest.map (·.row)) hdeliver
  | @redeliveryRaises inst d rest _ site hstage hdeliver =>
      have htasks := hidle (by simp [hstage])
      rw [face_of_idle halive htasks, face_of_idle (s := s.atStage _ _) halive htasks, hstage]
      have heffects : Effects pickable session s.tick.now s.tick.alerts _ _ :=
        redeliver_effects (rest.map (·.row)) hdeliver
      exact (heffects.tail .rollsBack).tail .drops
  | startsSweep hstage houtcome =>
      have htasks := hidle (by simp [hstage])
      have hface : s.startSweep.face = s.face := by
        rw [face_of_idle halive htasks, hstage]
        simp [TickState.face, TickState.startSweep, Tick.waiting, Tick.unstamped, Tick.writes,
          halive, Stage.waiting, Stage.unstamped, Stage.writes, Pc.waiting, Pc.unstamped, Pc.writes]
      rw [hface]
  | dueFails hstage houtcome => exact .refl
  | sweeps hstage hi htask => exact setTask_effects h halive hstage hi htask
  | gatherRaises hstage houtcome hraised => exact .refl
  | gathers hstage houtcome hfinished => exact .refl
  | dies =>
      have hrollback : Effects pickable session s.tick.now s.tick.alerts s.face _ :=
        .single .rollsBack
      exact (hrollback.trans (stampFails_all _ _ _ _ _)).tail .drops

theorem deliverStep_lockless {inst : Instance} {d : Delivery} {act : DeliverAct}
    {site site' : Site} {progress : Progress}
    (h : deliverStep session false inst site d act = some (site', progress))
    (hd : d ≠ .locking) :
    site'.loop.dbLocked = site.loop.dbLocked ∧ site'.loop.semaphore = site.loop.semaphore ∧
      progress ≠ .on .locking := by
  have hfails : stampFails session false inst site = (site', progress) →
      site'.loop.dbLocked = site.loop.dbLocked ∧ site'.loop.semaphore = site.loop.semaphore ∧
        progress ≠ .on .locking := by
    intro hfails
    obtain ⟨_, hloop, ⟨rfl, _⟩ | ⟨rfl, _⟩⟩ := stampFails_cases hfails
    · exact ⟨by simp [hloop], by simp [hloop], by simp⟩
    · exact ⟨by simp [hloop], by simp [hloop], by simp⟩
  have hmoves := deliverStep_moves h
  cases hmoves with
  | sendRaises hexpired => exact ⟨rfl, rfl, by simp⟩
  | sends hfresh => exact ⟨rfl, rfl, by simp⟩
  | sendFails hfresh => exact ⟨rfl, rfl, by simp⟩
  | acquires hfree => exact absurd rfl hd
  | updates hfresh => exact ⟨rfl, rfl, by simp⟩
  | updateFails _ hstamp => exact hfails hstamp
  | stamps => exact ⟨by simp [Site.release, Site.post, Site.withDb], rfl, by simp⟩
  | commitFails hstamp => exact hfails hstamp

theorem nextRedelivery_lockless (rest : List Instance) (inst : Instance) (rest' : List Instance) :
    nextRedelivery rest ≠ .redelivering inst .locking rest' := by
  cases rest with
  | nil => simp [nextRedelivery]
  | cons next rest => simp [nextRedelivery]

/-- The tasks of a sweep that starts now. -/
theorem weight_queued (f : Task → Nat) (alerts : List TripAlert)
    (h : ∀ alert, f ⟨alert, .queued⟩ = 0) :
    Pool.weight f (alerts.map (⟨·, .queued⟩)) = 0 := by
  rw [Pool.weight_eq_zero]
  intro task htask
  obtain ⟨alert, _, rfl⟩ := List.mem_map.mp htask
  exact h alert

/-- A step of `redeliver_pending` that leaves the lock and the permits alone. -/
theorem Orderly.atStage {site : Site} {stage : Stage} (h : Orderly session s)
    (hwrites : (s.atStage site stage).db.openOf session = (s.atStage site stage).tick.writes)
    (hlock : site.loop.dbLocked = s.site.loop.dbLocked)
    (hsemaphore : site.loop.semaphore = s.site.loop.semaphore)
    (hidle : stage ≠ .sweeping → s.tick.tasks = [])
    (hlockless : ∀ inst rest, stage ≠ .redelivering inst .locking rest) :
    Orderly session (s.atStage site stage) where
  writes := hwrites
  lock := h.lock.trans (congrArg Bool.toNat hlock.symm)
  permits := by
    rw [← h.permits]
    exact congrArg _ hsemaphore
  idle := hidle
  lockless := hlockless
  sound := h.sound

/-- The tasks of a sweep that starts hold neither the lock nor a permit. -/
theorem Orderly.startSweep (h : Orderly session s) (hstage : s.tick.stage ≠ .sweeping)
    (hwrites : s.startSweep.db.openOf session = s.startSweep.tick.writes) :
    Orderly session s.startSweep := by
  have htasks := h.idle hstage
  have hlock := h.lock
  have hpermits := h.permits
  rw [htasks] at hlock hpermits
  exact {
    writes := hwrites
    lock := (weight_queued _ _ fun _ => rfl).trans hlock
    permits := by
      rw [← hpermits]
      exact congrArg (· + s.tick.loop.semaphore) (weight_queued _ _ fun _ => rfl)
    idle := fun hne => absurd rfl hne
    lockless := by simp [TickState.startSweep]
    sound := by
      intro task htask
      obtain ⟨alert, _, rfl⟩ := List.mem_map.mp htask
      trivial }

/-- A task that moves takes and gives back what the loop counts. -/
theorem Orderly.setTask (h : Orderly session s) {i : Nat} {task : Task} {act : TaskAct}
    {site : Site} {pc : Pc} (hstage : s.tick.stage = .sweeping)
    (hi : s.tick.tasks[i]? = some task)
    (htask : taskStep env session s.tick.now s.tick.loaded task.alert s.site task.pc act =
      some (site, pc))
    (hwrites : (s.setTask i task.alert site pc).db.openOf session =
      (s.setTask i task.alert site pc).tick.writes) :
    Orderly session (s.setTask i task.alert site pc) := by
  obtain ⟨hlock, hpermits, _, hsound⟩ :=
    taskStep_accounted (h.sound task (List.mem_of_getElem? hi)) htask (h.locked_of_critical hi)
  have hcritical : Pool.weight _ (s.tick.tasks.set i ⟨task.alert, pc⟩) + task.pc.critical.toNat =
      Pool.weight _ s.tick.tasks + pc.critical.toNat :=
    Pool.weight_set (·.pc.critical.toNat) ⟨task.alert, pc⟩ hi
  have hrunning : Pool.weight _ (s.tick.tasks.set i ⟨task.alert, pc⟩) + task.pc.running.toNat =
      Pool.weight _ s.tick.tasks + pc.running.toNat :=
    Pool.weight_set (·.pc.running.toNat) ⟨task.alert, pc⟩ hi
  have hlock₀ := h.lock
  have hpermits₀ := h.permits
  exact {
    writes := hwrites
    lock := by
      simp only [TickState.setTask, TickState.site] at hlock ⊢
      omega
    permits := by
      simp only [TickState.setTask, TickState.site] at hpermits ⊢
      omega
    idle := fun hne => absurd hstage hne
    lockless := h.lockless
    sound := by
      intro other hother
      rcases List.mem_or_eq_of_mem_set hother with hother | rfl
      · exact h.sound other hother
      · exact hsound }

/-- Every step keeps a tick orderly. -/
theorem tickStep_orderly {act : TickAct} (h : Orderly session s)
    (hstep : tickStep env session s act = some s') : Orderly session s' := by
  have heffects : Effects (fun _ => True) session s.tick.now s.tick.alerts s.face s'.face :=
    tickStep_effects h (fun _ _ _ => trivial) hstep
  have hwrites := heffects.openOf_eq h.writes
  obtain ⟨halive, hmoves⟩ := tickStep_moves hstep
  have hd : ∀ {inst d rest}, s.tick.stage = .redelivering inst d rest → d ≠ .locking := by
    rintro inst d rest hstage rfl
    exact h.lockless inst rest hstage
  cases hmoves with
  | selects hstage =>
      exact {
        h with
        writes := hwrites
        idle := fun _ => h.idle (by simp [hstage])
        lockless := nextRedelivery_lockless _ }
  | selectFails hstage =>
      exact {
        h with
        writes := hwrites
        idle := fun _ => h.idle (by simp [hstage])
        lockless := by simp [TickState.atStage] }
  | redelivers hstage hdeliver =>
      obtain ⟨hlock, hsemaphore, hprogress⟩ := deliverStep_lockless hdeliver (hd hstage)
      refine h.atStage hwrites hlock hsemaphore (fun _ => h.idle (by simp [hstage])) ?_
      rintro inst rest heq
      cases heq
      exact hprogress rfl
  | redelivered hstage hdeliver =>
      obtain ⟨hlock, hsemaphore, _⟩ := deliverStep_lockless hdeliver (hd hstage)
      exact h.atStage hwrites hlock hsemaphore (fun _ => h.idle (by simp [hstage]))
        (nextRedelivery_lockless _)
  | redeliveryRaises hstage hdeliver =>
      obtain ⟨hlock, hsemaphore, _⟩ := deliverStep_lockless hdeliver (hd hstage)
      exact h.atStage hwrites hlock hsemaphore (fun _ => h.idle (by simp [hstage])) (by simp)
  | startsSweep hstage houtcome => exact h.startSweep (by simp [hstage]) hwrites
  | dueFails hstage houtcome => exact { h with writes := hwrites }
  | sweeps hstage hi htask => exact h.setTask hstage hi htask hwrites
  | gatherRaises hstage houtcome hraised => exact { h with writes := hwrites }
  | gathers hstage houtcome hfinished => exact { h with writes := hwrites }
  | dies => exact { h with writes := hwrites }

end Tick

end FietsOfOv
