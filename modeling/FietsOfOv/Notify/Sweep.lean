import FietsOfOv.Lib.Run
import FietsOfOv.Notify.Smooth

/-!
# A tick comes to its end

Every step of a tick brings it closer to its end, so every run of a tick is
finite.  And a tick is never stuck before it has an outcome: the task that holds
`db_lock` can always move, and while nobody holds it, every task with a permit
can.
-/

namespace FietsOfOv

open WallClock

/-- What the evaluation of each alert comes to. -/
structure Outcomes where
  planned : TripAlert → Except PlanError (List Candidate)
  forecast : TripAlert → Except Unit (Option RainForecast)

/-- The insert that an alert's evaluation at `now` leads to. -/
def Outcomes.warning (o : Outcomes) (env : Env) (now : DateTime) (alert : TripAlert) :
    Option InsertStmt :=
  FietsOfOv.warning env alert now (o.planned alert) (o.forecast alert)

/-- The steps of a tick that does not die and whose query for due alerts succeeds,
    with these evaluations.  Sends and writes turn out in any way. -/
def Follows (o : Outcomes) (s : TickState) : TickAct → Prop
  | .task i (.plan answer) => ∀ task ∈ s.tick.tasks[i]?, answer = o.planned task.alert
  | .task i (.forecast answer) => ∀ task ∈ s.tick.tasks[i]?, answer = o.forecast task.alert
  | .selectDue ok => ok = true
  | .die => False
  | _ => True

instance (o : Outcomes) (s : TickState) : (act : TickAct) → Decidable (Follows o s act)
  | .task i (.plan answer) =>
      inferInstanceAs (Decidable (∀ task ∈ s.tick.tasks[i]?, answer = o.planned task.alert))
  | .task i (.forecast answer) =>
      inferInstanceAs (Decidable (∀ task ∈ s.tick.tasks[i]?, answer = o.forecast task.alert))
  | .selectDue ok => inferInstanceAs (Decidable (ok = true))
  | .die => isFalse id
  | .task _ .start => isTrue trivial
  | .task _ .acquire => isTrue trivial
  | .task _ (.insert _ _) => isTrue trivial
  | .task _ (.commit _) => isTrue trivial
  | .task _ (.deliver _) => isTrue trivial
  | .selectPending _ => isTrue trivial
  | .redeliver _ => isTrue trivial
  | .gather => isTrue trivial

/-! ## Every step counts -/

/-- The steps a delivery can still take. -/
def Delivery.remaining : Delivery → Nat
  | .sending => 4
  | .locking => 3
  | .updating => 2
  | .committing _ => 1

/-- The steps a task can still take. -/
def Pc.remaining : Pc → Nat
  | .queued => 10
  | .planning => 9
  | .forecasting _ => 8
  | .locking _ => 7
  | .inserting _ => 6
  | .committing _ _ => 5
  | .delivering _ d => d.remaining
  | .finished _ => 0
  | .raised => 0

/-- The steps a stage can still take before the sweep. -/
def Stage.remaining : Stage → Nat
  | .selectingPending => 4 * maxRedeliveriesPerTick + 2
  | .redelivering _ d rest => d.remaining + 4 * rest.length + 1
  | .selectingDue => 1
  | .sweeping => 0

/-- The steps a tick can still take, `due` being the number of its due alerts. -/
def Tick.remaining (tick : Tick) (due : Nat) : Nat :=
  if tick.stage = .sweeping then
    Pool.weight (·.pc.remaining) tick.tasks + if tick.outcome = none then 1 else 0
  else tick.stage.remaining + 10 * due + 1

def TickState.remaining (s : TickState) : Nat :=
  s.tick.remaining (dueTripAlerts s.db.tripAlerts s.tick.now s.tick.leadMinutes).length

theorem deliverStep_remaining {session : Nat} {useLock : Bool} {inst : Instance}
    {site site' : Site} {d d' : Delivery} {act : DeliverAct}
    (h : deliverStep session useLock inst site d act = some (site', .on d')) :
    d'.remaining < d.remaining := by
  have hended : ∀ {site₁ : Site}, stampFails session useLock inst site₁ ≠ (site', .on d') := by
    intro site₁ heq
    obtain ⟨_, _, ⟨hprogress, _⟩ | ⟨hprogress, _⟩⟩ := stampFails_cases heq
    · cases hprogress
    · cases hprogress
  generalize hprogress : Progress.on d' = progress at h
  have hmoves := deliverStep_moves h
  cases hmoves with
  | sends =>
      cases hprogress
      cases useLock <;> simp [Delivery.remaining]
  | acquires =>
      cases hprogress
      simp [Delivery.remaining]
  | updates =>
      cases hprogress
      simp [Delivery.remaining]
  | updateFails _ hstamp => exact absurd (hprogress ▸ hstamp) hended
  | commitFails hstamp => exact absurd (hprogress ▸ hstamp) hended
  | _ => cases hprogress

theorem Delivery.remaining_pos (d : Delivery) : 0 < d.remaining := by
  cases d <;> simp [remaining]

section Task

variable {env : Env} {session loaded : Nat} {now : DateTime} {alert : TripAlert}
  {site site' : Site} {pc pc' : Pc}

theorem skipAlert_remaining (h : skipAlert loaded site = (site', pc')) : pc'.remaining = 0 := by
  obtain ⟨_, rfl | rfl⟩ := skipAlert_cases h
  · rfl
  · rfl

theorem taskStep_remaining {act : TaskAct}
    (h : taskStep env session now loaded alert site pc act = some (site', pc')) :
    pc'.remaining < pc.remaining := by
  have hskips : ∀ {site₁ : Site} {n : Nat}, skipAlert loaded site₁ = (site', pc') →
      pc'.remaining < n + 1 := by
    intro site₁ n hskip
    rw [skipAlert_remaining hskip]
    exact Nat.succ_pos n
  have hmoves := taskStep_moves h
  cases hmoves with
  | startRaises _ _ hskip => exact hskips hskip
  | planRaises _ hskip => exact hskips hskip
  | forecastRaises _ hskip => exact hskips hskip
  | insertFails hfails => exact hskips hfails
  | commitFails hfails => exact hskips hfails
  | delivers hdeliver => exact deliverStep_remaining hdeliver
  | delivered hdeliver => exact Delivery.remaining_pos _
  | deliverRaises hdeliver hskip =>
      rw [skipAlert_remaining hskip]
      exact Delivery.remaining_pos _
  | _ => simp [Pc.remaining, Delivery.remaining]

end Task

theorem nextRedelivery_remaining (rest : List Instance) :
    (nextRedelivery rest).remaining = 4 * rest.length + 1 := by
  cases rest with
  | nil => rfl
  | cons inst rest =>
      simp only [nextRedelivery, Stage.remaining, Delivery.remaining, List.length_cons]
      omega

section Tick

variable {env : Env} {session : Nat} {s s' : TickState} {o : Outcomes}

/-- What the tasks of a sweep that starts have before them. -/
theorem remaining_queued (alerts : List TripAlert) :
    Pool.weight (·.pc.remaining) (alerts.map (⟨·, .queued⟩ : TripAlert → Task)) =
      10 * alerts.length := by
  induction alerts with
  | nil => rfl
  | cons alert alerts ih =>
      rw [List.map_cons, Pool.weight_cons, ih, List.length_cons, Nat.mul_succ, Nat.add_comm]
      rfl

theorem tickStep_remaining {act : TickAct} (h : Orderly session s) (hfollows : Follows o s act)
    (hstep : tickStep env session s act = some s') : s'.remaining < s.remaining := by
  have heffects : Effects (fun _ => True) session s.tick.now s.tick.alerts s.face s'.face :=
    tickStep_effects h (fun _ _ _ => trivial) hstep
  have halerts : s'.db.tripAlerts = s.db.tripAlerts := heffects.tripAlerts_eq
  obtain ⟨halive, hmoves⟩ := tickStep_moves hstep
  unfold TickState.remaining
  rw [halerts]
  cases hmoves with
  | selects hstage =>
      have hremaining := nextRedelivery_remaining
        ((s.db.pending s.tick.now.date maxRedeliveriesPerTick).map (⟨·, s.tick.loop.rollbacks⟩))
      have hne := (nextRedelivery_stage
        ((s.db.pending s.tick.now.date maxRedeliveriesPerTick).map
          (⟨·, s.tick.loop.rollbacks⟩ : Notification → Instance))).1
      have hle : (s.db.pending s.tick.now.date maxRedeliveriesPerTick).length ≤
          maxRedeliveriesPerTick := List.length_take_le _ _
      simp only [List.length_map] at hremaining
      simp only [Tick.remaining, TickState.atStage, hne, hstage, if_false, hremaining, reduceCtorEq]
      simp only [Stage.remaining]
      omega
  | selectFails hstage =>
      simp only [Tick.remaining, TickState.atStage, hstage, Stage.remaining, reduceCtorEq, if_false]
      omega
  | redelivers hstage hdeliver =>
      have hlt := deliverStep_remaining hdeliver
      simp only [Tick.remaining, TickState.atStage, hstage, Stage.remaining, reduceCtorEq, if_false]
      omega
  | @redelivered inst d rest _ _ _ hstage hdeliver =>
      have hremaining := nextRedelivery_remaining rest
      have hne := (nextRedelivery_stage rest).1
      have hpos := d.remaining_pos
      simp only [Tick.remaining, TickState.atStage, hstage, hne, hremaining, reduceCtorEq, if_false]
      simp only [Stage.remaining]
      omega
  | @redeliveryRaises inst d rest _ _ hstage hdeliver =>
      have hpos := d.remaining_pos
      simp only [Tick.remaining, TickState.atStage, hstage, Stage.remaining, reduceCtorEq, if_false]
      omega
  | startsSweep hstage houtcome =>
      simp only [Tick.remaining, TickState.startSweep, hstage, houtcome, remaining_queued,
        Stage.remaining, reduceCtorEq, if_true, if_false]
      omega
  | dueFails => cases hfollows
  | @sweeps i task act site pc hstage hi htask =>
      have hlt := taskStep_remaining htask
      have hset := Pool.weight_set (·.pc.remaining) ⟨task.alert, pc⟩ hi
      simp only [Tick.remaining, TickState.setTask, hstage, if_true]
      simp only at hset
      omega
  | gatherRaises hstage houtcome =>
      simp [Tick.remaining, TickState.finishWith, hstage, houtcome]
  | gathers hstage houtcome =>
      simp [Tick.remaining, TickState.finishWith, hstage, houtcome]
  | dies => cases hfollows

/-! ## A tick is not stuck before it has an outcome -/

/-- A task that waits for neither a permit nor the lock can move. -/
def Pc.canMove (loop : Loop) : Pc → Bool
  | .queued => loop.semaphore ≠ 0
  | .locking _ => !loop.dbLocked
  | .delivering _ .locking => !loop.dbLocked
  | .finished _ => false
  | .raised => false
  | _ => true

theorem Pc.canMove_of_critical {loop : Loop} {pc : Pc} (h : pc.critical = true) :
    pc.canMove loop = true := by
  cases pc with
  | delivering inst d => cases d <;> simp [critical, Delivery.critical, canMove] at h ⊢
  | _ => simp [critical, canMove] at h ⊢

theorem Pc.canMove_of_running {loop : Loop} {pc : Pc} (h : pc.running = true)
    (hfree : loop.dbLocked = false) : pc.canMove loop = true := by
  cases pc with
  | delivering inst d => cases d <;> simp [canMove, hfree]
  | _ => simp [running, canMove, hfree] at h ⊢

theorem Pc.running_of_critical {pc : Pc} (h : pc.critical = true) : pc.running = true := by
  cases pc <;> simp [critical, running] at h ⊢

theorem Pc.queued_of_idle {pc : Pc} (hidle : pc.running = false) (hleft : pc.remaining ≠ 0) :
    pc = .queued := by
  cases pc with
  | queued => rfl
  | finished result => exact absurd rfl hleft
  | raised => exact absurd rfl hleft
  | _ => cases hidle

theorem Pc.idle_of_remaining {pc : Pc} (h : pc.remaining = 0) : pc.running = false := by
  cases pc with
  | delivering inst d => exact absurd h (Nat.ne_of_gt d.remaining_pos)
  | queued => rfl
  | finished result => rfl
  | raised => rfl
  | _ => cases h

/-- While no task is in the critical region, nobody holds the lock. -/
theorem Orderly.free (h : Orderly session s)
    (hnone : ∀ task ∈ s.tick.tasks, task.pc.critical = false) : s.tick.loop.dbLocked = false := by
  have hzero : Pool.weight (·.pc.critical.toNat) s.tick.tasks = 0 := by
    apply Pool.weight_eq_zero.mpr
    intro task htask
    rw [hnone task htask]
    rfl
  have hlock := h.lock
  rw [hzero] at hlock
  simpa using hlock.symm

/-- While no task runs, a queued one can start. -/
theorem Orderly.canMove_queued (h : Orderly session s)
    (hnone : ∀ task ∈ s.tick.tasks, task.pc.running = false) :
    Pc.queued.canMove s.tick.loop = true := by
  have hzero : Pool.weight (·.pc.running.toNat) s.tick.tasks = 0 := by
    apply Pool.weight_eq_zero.mpr
    intro task htask
    rw [hnone task htask]
    rfl
  have hpermits := h.permits
  rw [hzero, Nat.zero_add] at hpermits
  simp [Pc.canMove, hpermits]

/-- Whoever holds the lock can move, else whoever holds a permit, else whoever
    waits for one. -/
theorem Orderly.exists_mover (h : Orderly session s)
    (hleft : ∃ task ∈ s.tick.tasks, task.pc.remaining ≠ 0) :
    ∃ task ∈ s.tick.tasks, task.pc.canMove s.tick.loop = true := by
  by_cases hcritical : ∃ task ∈ s.tick.tasks, task.pc.critical = true
  · obtain ⟨task, htask, hpc⟩ := hcritical
    exact ⟨task, htask, Pc.canMove_of_critical hpc⟩
  have hfree := h.free (by simpa using hcritical)
  by_cases hrunning : ∃ task ∈ s.tick.tasks, task.pc.running = true
  · obtain ⟨task, htask, hpc⟩ := hrunning
    exact ⟨task, htask, Pc.canMove_of_running hpc hfree⟩
  have hidle : ∀ task ∈ s.tick.tasks, task.pc.running = false := by simpa using hrunning
  obtain ⟨task, htask, hremaining⟩ := hleft
  refine ⟨task, htask, ?_⟩
  rw [Pc.queued_of_idle (hidle task htask) hremaining]
  exact h.canMove_queued hidle

/-- A task that runs alone can move. -/
theorem Orderly.canMove_alone (h : Orderly session s) {i : Nat} {task : Task}
    (hi : s.tick.tasks[i]? = some task) (hleft : task.pc.remaining ≠ 0)
    (halone : ∀ j other, s.tick.tasks[j]? = some other → j ≠ i → other.pc.running = false) :
    task.pc.canMove s.tick.loop = true := by
  have hothers : ∀ {other}, other ∈ s.tick.tasks → other = task ∨ other.pc.running = false := by
    intro other hother
    obtain ⟨j, hj⟩ := List.mem_iff_getElem?.mp hother
    by_cases hji : j = i
    · subst hji
      cases hi.symm.trans hj
      exact Or.inl rfl
    · exact Or.inr (halone j other hj hji)
  cases hcritical : task.pc.critical with
  | true => exact Pc.canMove_of_critical hcritical
  | false =>
      cases hrunning : task.pc.running with
      | true =>
          apply Pc.canMove_of_running hrunning
          apply h.free
          intro other hother
          rcases hothers hother with rfl | hidle
          · exact hcritical
          · rw [Bool.eq_false_iff]
            intro hpc
            rw [Pc.running_of_critical hpc] at hidle
            cases hidle
      | false =>
          rw [Pc.queued_of_idle hrunning hleft]
          apply h.canMove_queued
          intro other hother
          rcases hothers hother with rfl | hidle
          · exact hrunning
          · exact hidle

/-- The next step of a delivery, with the given outcomes of its send and its writes. -/
def Delivery.next (send writes : Bool) : Delivery → DeliverAct
  | .sending => .send send
  | .locking => .acquire
  | .updating => .update writes 0
  | .committing _ => .commit writes

/-- The next step of a task, with the given outcomes. -/
def Pc.next (o : Outcomes) (send writes : Bool) (alert : TripAlert) : Pc → TaskAct
  | .planning => .plan (o.planned alert)
  | .forecasting _ => .forecast (o.forecast alert)
  | .locking _ => .acquire
  | .inserting _ => .insert writes 0
  | .committing _ _ => .commit writes
  | .delivering _ d => .deliver (d.next send writes)
  | _ => .start

theorem deliverStep_next {useLock : Bool} {inst : Instance} {site : Site} {d : Delivery}
    (send writes : Bool) (hfree : d = .locking → site.loop.dbLocked = false) :
    (deliverStep session useLock inst site d (d.next send writes)).isSome = true := by
  cases d with
  | sending =>
      simp only [Delivery.next, deliverStep]
      split
      · rfl
      · split <;> rfl
  | locking => simp [Delivery.next, deliverStep, hfree rfl]
  | updating =>
      simp only [Delivery.next, deliverStep]
      split <;> rfl
  | committing deliveredAt =>
      simp only [Delivery.next, deliverStep]
      split <;> rfl

/-- A task that can move takes its next step, as long as its insert does not wait. -/
theorem taskStep_next {loaded : Nat} {now : DateTime} {alert : TripAlert} {site : Site} {pc : Pc}
    (send writes : Bool) (hmove : pc.canMove site.loop = true)
    (hinsert : writes = true → ∀ stmt, pc = .inserting stmt →
      (site.db.insert session stmt 0).isSome = true) :
    (taskStep env session now loaded alert site pc (pc.next o send writes alert)).isSome =
      true := by
  cases pc with
  | queued =>
      simp only [Pc.canMove, ne_eq, decide_not, Bool.not_eq_true', decide_eq_false_iff_not] at hmove
      simp only [Pc.next, taskStep, hmove, if_false]
      split <;> rfl
  | planning =>
      simp only [Pc.next, taskStep]
      split
      · rfl
      · rfl
      · split
        · rfl
        · split <;> rfl
  | forecasting candidates =>
      simp only [Pc.next, taskStep]
      split <;> rfl
  | locking stmt =>
      simp only [Pc.canMove, Bool.not_eq_true'] at hmove
      simp [Pc.next, taskStep, hmove]
  | inserting stmt =>
      cases writes with
      | true => simpa [Pc.next, taskStep] using hinsert rfl stmt rfl
      | false => rfl
  | committing stmt notification =>
      cases writes with
      | true => cases notification <;> rfl
      | false => rfl
  | delivering inst d =>
      simp only [Pc.next, taskStep, Option.isSome_map]
      apply deliverStep_next send writes
      rintro rfl
      simpa [Pc.canMove] using hmove
  | finished result => cases hmove
  | raised => cases hmove

theorem follows_next {i : Nat} {task : Task} (send writes : Bool)
    (hi : s.tick.tasks[i]? = some task) :
    Follows o s (.task i (task.pc.next o send writes task.alert)) := by
  cases hpc : task.pc <;> simp [Pc.next, Follows, hi]

/-- A tick whose tasks have all ended can gather them. -/
theorem gather_isSome (halive : s.tick.alive = true) (hstage : s.tick.stage = .sweeping)
    (houtcome : s.tick.outcome = none) (hended : ∀ task ∈ s.tick.tasks, task.pc.remaining = 0) :
    tickStep env session s .gather ≠ none := by
  intro hnone
  simp only [tickStep, halive, hstage, houtcome, if_true, Option.isSome_none, Bool.false_eq_true,
    if_false] at hnone
  split at hnone
  · cases hnone
  · split at hnone
    · cases hnone
    · rename_i hraised hfinished
      apply hfinished
      apply List.all_eq_true.mpr
      intro task htask
      have hzero := hended task htask
      cases hpc : task.pc with
      | finished result => rfl
      | raised => exact absurd (List.any_eq_true.mpr ⟨task, htask, by simp [hpc]⟩) hraised
      | delivering inst d =>
          simp only [hpc, Pc.remaining] at hzero
          exact absurd hzero (Nat.ne_of_gt d.remaining_pos)
      | _ => simp [hpc, Pc.remaining] at hzero

theorem stuck_ends (h : Orderly session s) (halive : s.tick.alive = true)
    (houtcome : s.tick.stage ≠ .sweeping → s.tick.outcome = none)
    (hstuck : Run.Stuck (tickStep env session) (Follows o) s) :
    s.tick.stage = .sweeping ∧ s.tick.outcome ≠ none := by
  cases hstage : s.tick.stage with
  | selectingPending =>
      have hnone := hstuck (.selectPending false) trivial
      simp [tickStep, halive, hstage] at hnone
  | redelivering inst d rest =>
      have hd : d = .locking → s.site.loop.dbLocked = false := by
        rintro rfl
        exact absurd hstage (h.lockless inst rest)
      have hnext : (deliverStep session false inst s.site d (d.next true true)).isSome = true :=
        deliverStep_next true true hd
      have hnone := hstuck (.redeliver (d.next true true)) trivial
      obtain ⟨⟨site, progress⟩, hdeliver⟩ := Option.isSome_iff_exists.mp hnext
      simp [tickStep, halive, hstage, hdeliver] at hnone
  | selectingDue =>
      have hnone := hstuck (.selectDue true) rfl
      simp [tickStep, halive, hstage, houtcome (by simp [hstage])] at hnone
  | sweeping =>
      refine ⟨rfl, fun hopen => ?_⟩
      by_cases hleft : ∃ task ∈ s.tick.tasks, task.pc.remaining ≠ 0
      · obtain ⟨task, htask, hmove⟩ := h.exists_mover hleft
        obtain ⟨i, hi⟩ := List.mem_iff_getElem?.mp htask
        have hnext : (taskStep env session s.tick.now s.tick.loaded task.alert s.site task.pc
            (task.pc.next o true false task.alert)).isSome = true :=
          taskStep_next true false hmove (by simp)
        obtain ⟨⟨site, pc⟩, hstep⟩ := Option.isSome_iff_exists.mp hnext
        have hnone := hstuck _ (follows_next true false hi)
        rw [tickStep_task halive hstage hi hstep] at hnone
        cases hnone
      · have hended : ∀ task ∈ s.tick.tasks, task.pc.remaining = 0 := by simpa using hleft
        exact gather_isSome halive hstage hopen hended (hstuck .gather trivial)

end Tick

end FietsOfOv
