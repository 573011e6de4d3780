import FietsOfOv.Notify.Faultless

/-!
# The concurrent sweep and the serial one

`run_due_checks` of `app/services/notify.py` starts the tasks of all due alerts
at once.  While no statement fails, the order in which their steps come does not
show at the end: every sweep ends with the rows, the sends and the list that
processing one alert after another ends with, up to row numbers and timestamps.
No schedule is compared with another one, since what a sweep comes to depends on
its due alerts alone.
-/

namespace FietsOfOv

open WallClock

/-- Two ticks that ended alike, for these due alerts. -/
structure SameEnd (due : List TripAlert) (t t' : TickState) : Prop where
  rows : (t.db.rows.map (·.summary)).Perm (t'.db.rows.map (·.summary))
  attempts : ∀ key, attemptCount t.log key = attemptCount t'.log key
  returned : ∃ created created', t.tick.outcome = some (.ok created) ∧
    t'.tick.outcome = some (.ok created') ∧ created.map (·.values) = created'.map (·.values) ∧
    (created.map (·.tripAlertId)).Sublist (due.map (·.id))

/-- No two tasks stand between the start of a statement and its commit. -/
def Exclusive (s : TickState) : Prop :=
  ∀ (i j : Nat) (task other : Task), s.tick.tasks[i]? = some task → s.tick.tasks[j]? = some other →
    task.pc.critical = true → other.pc.critical = true → i = j

/-- Besides, a task moves only once all tasks before it have ended. -/
def InTurn (o : Outcomes) (sends : TripAlert → Bool) (s : TickState) (act : TickAct) : Prop :=
  Faultless o sends s act ∧
    ∀ i taskAct, act = .task i taskAct →
      ∀ j < i, ∀ task, s.tick.tasks[j]? = some task → task.pc.remaining = 0

section Tick

variable {env : Env} {session : Nat} {o : Outcomes} {sends : TripAlert → Bool}
  {s₀ s s' : TickState}

/-! ## A sweep comes to its end -/

/-- A tick that is about to start its sweep, on a database with unique keys. -/
structure ReadyToSweep (session : Nat) (s₀ : TickState) : Prop where
  orderly : Orderly session s₀
  alive : s₀.tick.alive = true
  stage : s₀.tick.stage = .selectingDue
  outcome : s₀.tick.outcome = none
  keyed : s₀.db.notifications.WellKeyed Notification.schema
  ids : (s₀.db.tripAlerts.map (·.id)).Nodup

/-- No other session is inserting a row for one of the departures, so no insert waits. -/
def Unblocked (session : Nat) (s₀ : TickState) : Prop :=
  ∀ alert ∈ s₀.due, s₀.db.notifications.blocked Notification.schema session
    (departureKey alert s₀.tick.now) = false

theorem ReadyToSweep.due_ids (h : ReadyToSweep session s₀) : (s₀.due.map (·.id)).Nodup :=
  h.ids.sublist (List.filter_sublist.map _)

theorem ReadyToSweep.orderly_start (h : ReadyToSweep session s₀) (env : Env) :
    Orderly session s₀.startSweep := by
  have hstart : tickStep env session s₀ (.selectDue true) = some s₀.startSweep := by
    simp [tickStep, h.alive, h.stage, h.outcome]
  exact tickStep_orderly h.orderly hstart

theorem ReadyToSweep.swept (h : ReadyToSweep session s₀) :
    Swept env session o sends s₀ s₀.startSweep := by
  constructor
  · exact h.alive
  · rfl
  · rfl
  · simp [Tick.alerts, TickState.startSweep, TickState.due, Function.comp_def]
  · rfl
  · intro task htask inst hinst
    obtain ⟨alert, _, rfl⟩ := List.mem_map.mp htask
    cases hinst
  · exact h.keyed
  · rfl
  · intro _ _
    rfl
  · intro task htask
    obtain ⟨alert, _, rfl⟩ := List.mem_map.mp htask
    trivial
  · intro v
    have hnone := weight_queued (fun task => task.pc.rowCount v (sends task.alert)) s₀.due
      fun _ => rfl
    exact (congrArg (rowCount s₀.db v + ·) hnone).symm
  · intro key
    have hnone := weight_queued (·.pc.attemptCount key) s₀.due fun _ => rfl
    exact (congrArg (attemptCount s₀.log key + ·) hnone).symm
  · intro outcome heq
    cases h.outcome.symm.trans heq

/-- A task that can move can do so without a fault. -/
theorem Swept.moves (hunblocked : Unblocked session s₀)
    (h : Swept env session o sends s₀ s) {i : Nat} {task : Task}
    (hi : s.tick.tasks[i]? = some task) (hmove : task.pc.canMove s.tick.loop = true) :
    ∃ act s', Faultless o sends s (.task i act) ∧
      tickStep env session s (.task i act) = some s' := by
  have hmem := List.mem_of_getElem? hi
  have hinsert : ∀ stmt, task.pc = .inserting stmt →
      (s.site.db.insert session stmt 0).isSome = true := by
    intro stmt hpc
    have hdue : task.alert ∈ s₀.due := by
      rw [← h.alerts]
      exact List.mem_map_of_mem hmem
    have hkey : stmt.key = departureKey task.alert s₀.tick.now := by
      have htrack := h.tasks task hmem
      rw [hpc] at htrack
      exact warning_key htrack
    have halert : s.db.hasAlert stmt.tripAlertId = true := by
      refine Database.hasAlert_iff.mpr ⟨task.alert, ?_, (congrArg Prod.fst hkey).symm⟩
      rw [h.tripAlerts]
      exact List.mem_of_mem_filter hdue
    have hblocked : s.db.notifications.blocked Notification.schema session stmt.key = false := by
      rw [Transactional.Table.blocked_congr _ _ h.others, hkey]
      exact hunblocked task.alert hdue
    exact Database.insert_isSome 0 halert hblocked
  have hnext : (taskStep env session s.tick.now s.tick.loaded task.alert s.site task.pc
      (task.pc.next o (sends task.alert) true task.alert)).isSome = true :=
    taskStep_next (sends task.alert) true hmove fun _ => hinsert
  obtain ⟨⟨site, pc⟩, hstep⟩ := Option.isSome_iff_exists.mp hnext
  refine ⟨_, _, ⟨follows_next (sends task.alert) true hi, ?_, ?_⟩,
    tickStep_task h.alive h.stage hi hstep⟩
  · cases task.pc with
    | delivering inst d => cases d <;> rfl
    | _ => rfl
  · intro k ok heq other hother
    injection heq with hk hact
    subst hk
    cases hi.symm.trans hother
    cases hpc : task.pc with
    | delivering inst d =>
        rw [hpc] at hact
        cases d <;> cases hact
        rfl
    | _ =>
        rw [hpc] at hact
        cases hact

/-- The serial order: while a task has not ended, those after it have not started. -/
def OneByOne (s : TickState) : Prop :=
  ∀ (i j : Nat) (task other : Task), i < j → s.tick.tasks[i]? = some task →
    s.tick.tasks[j]? = some other → other.pc ≠ .queued → task.pc.remaining = 0

theorem OneByOne.step (h : OneByOne s) (hswept : Swept env session o sends s₀ s) {act : TickAct}
    (hact : InTurn o sends s act) (hstep : tickStep env session s act = some s') : OneByOne s' := by
  obtain ⟨_, hmoves⟩ := tickStep_moves hstep
  cases hmoves.of_sweeping hswept.stage with
  | @sweeps k moved act site pc hk htask =>
      have hlt := (List.getElem?_eq_some_iff.mp hk).1
      intro i j task other hij hi hj hstarted
      by_cases hjk : k = j
      · -- the task that moves has been given its turn
        subst hjk
        simp only [TickState.setTask, List.getElem?_set_ne (Nat.ne_of_gt hij)] at hi
        exact hact.2 k act rfl i hij task hi
      · simp only [TickState.setTask, List.getElem?_set_ne hjk] at hj
        by_cases hik : k = i
        · -- a task that has ended does not move
          subst hik
          have hended := h k j moved other hij hk hj hstarted
          have hlower := taskStep_remaining htask
          omega
        · simp only [TickState.setTask, List.getElem?_set_ne hik] at hi
          exact h i j task other hij hi hj hstarted
  | gatherRaises => exact h
  | gathers => exact h
  | dies => exact h

/-- A sweep that can take no step without a fault has come to its outcome. -/
theorem Swept.ends (hunblocked : Unblocked session s₀) (horderly : Orderly session s)
    (h : Swept env session o sends s₀ s)
    (hstuck : Run.Stuck (tickStep env session) (Faultless o sends) s) : s.tick.outcome ≠ none := by
  intro hopen
  by_cases hleft : ∃ task ∈ s.tick.tasks, task.pc.remaining ≠ 0
  · obtain ⟨task, htask, hmove⟩ := horderly.exists_mover hleft
    obtain ⟨i, hi⟩ := List.mem_iff_getElem?.mp htask
    obtain ⟨act, s', hact, hstep⟩ := h.moves hunblocked hi hmove
    rw [hstuck _ hact] at hstep
    cases hstep
  · refine gather_isSome h.alive h.stage hopen (by simpa using hleft) (hstuck .gather ?_)
    exact ⟨trivial, rfl, by simp⟩

/-- So has one in which nobody whose turn it is can take a step. -/
theorem Swept.ends_in_turn (hunblocked : Unblocked session s₀) (horderly : Orderly session s)
    (h : Swept env session o sends s₀ s) (honeByOne : OneByOne s)
    (hstuck : Run.Stuck (tickStep env session) (InTurn o sends) s) : s.tick.outcome ≠ none := by
  intro hopen
  by_cases hleft : ∃ task ∈ s.tick.tasks, task.pc.remaining ≠ 0
  · obtain ⟨i, task, hi, hremaining, hfirst⟩ := Pool.exists_first hleft
    have hbefore : ∀ j < i, ∀ other, s.tick.tasks[j]? = some other → other.pc.remaining = 0 :=
      fun j hj other hother => by simpa using hfirst j hj other hother
    have halone : ∀ j other, s.tick.tasks[j]? = some other → j ≠ i → other.pc.running = false := by
      intro j other hj hne
      rcases Nat.lt_or_gt_of_ne hne with hlt | hgt
      · exact Pc.idle_of_remaining (hbefore j hlt other hj)
      · by_contra hrunning
        refine hremaining (honeByOne i j task other hgt hi hj ?_)
        intro hqueued
        rw [hqueued] at hrunning
        exact hrunning rfl
    have hmove := horderly.canMove_alone hi hremaining halone
    obtain ⟨act, s', hact, hstep⟩ := h.moves hunblocked hi hmove
    have hturn : InTurn o sends s (.task i act) := by
      refine ⟨hact, fun k taskAct heq => ?_⟩
      cases heq
      exact hbefore
    rw [hstuck _ hturn] at hstep
    cases hstep
  · refine gather_isSome h.alive h.stage hopen (by simpa using hleft) (hstuck .gather ?_)
    exact ⟨⟨trivial, rfl, by simp⟩, by simp⟩

/-! ## What a sweep comes to -/

/-- The rows with this summary that an alert leads to. -/
def expectedRows (env : Env) (o : Outcomes) (sends : TripAlert → Bool) (s₀ : TickState)
    (v : InsertStmt × Bool) (alert : TripAlert) : Nat :=
  match expected env o s₀ alert with
  | some stmt => if (stmt, sends alert) = v then 1 else 0
  | none => 0

/-- The sends that an alert leads to on the row of a departure. -/
def expectedAttempts (env : Env) (o : Outcomes) (s₀ : TickState) (key : Nat × Int)
    (alert : TripAlert) : Nat :=
  match expected env o s₀ alert with
  | some stmt => if stmt.key = key then 1 else 0
  | none => 0

/-- A sweep that has come to its outcome, by the due alerts alone. -/
structure Comes (env : Env) (o : Outcomes) (sends : TripAlert → Bool) (s₀ t : TickState) :
    Prop where
  rows : ∀ v, rowCount t.db v =
    rowCount s₀.db v + Pool.weight (expectedRows env o sends s₀ v) s₀.due
  attempts : ∀ key, attemptCount t.log key =
    attemptCount s₀.log key + Pool.weight (expectedAttempts env o s₀ key) s₀.due
  returned : ∃ created, t.tick.outcome = some (.ok created) ∧
    created.map (·.values) = s₀.due.filterMap (expected env o s₀)

theorem Swept.comes (h : Swept env session o sends s₀ s) (houtcome : s.tick.outcome ≠ none) :
    Comes env o sends s₀ s := by
  obtain ⟨outcome, heq⟩ := Option.ne_none_iff_exists'.mp houtcome
  obtain ⟨rfl, hfinished⟩ := h.returned outcome heq
  have hresult : ∀ task ∈ s.tick.tasks, ∃ result, task.pc = .finished result ∧
      result.map (·.values) = expected env o s₀ task.alert := by
    intro task htask
    have hdone := hfinished task htask
    have htrack := h.tasks task htask
    cases hpc : task.pc with
    | finished result =>
        rw [hpc] at htrack
        exact ⟨result, rfl, htrack⟩
    | _ => simp [hpc, Pc.isFinished] at hdone
  constructor
  · intro v
    rw [h.rows v, ← h.alerts, Tick.alerts, Pool.weight_map]
    refine congrArg _ (Pool.weight_congr fun task htask => ?_)
    obtain ⟨result, hpc, hexpected⟩ := hresult task htask
    rw [hpc, expectedRows, ← hexpected]
    cases result <;> rfl
  · intro key
    rw [h.attempts key, ← h.alerts, Tick.alerts, Pool.weight_map]
    refine congrArg _ (Pool.weight_congr fun task htask => ?_)
    obtain ⟨result, hpc, hexpected⟩ := hresult task htask
    rw [hpc, expectedAttempts, ← hexpected]
    cases result <;> rfl
  · refine ⟨_, heq, ?_⟩
    rw [← h.alerts, Tick.alerts, List.map_filterMap, List.filterMap_map]
    apply List.filterMap_congr
    intro task htask
    obtain ⟨result, hpc, hexpected⟩ := hresult task htask
    rw [hpc]
    exact hexpected

/-- The warnings are about the alerts they are returned for. -/
theorem expected_sublist (env : Env) (o : Outcomes) (s₀ : TickState) (alerts : List TripAlert) :
    ((alerts.filterMap (expected env o s₀)).map (·.tripAlertId)).Sublist (alerts.map (·.id)) := by
  induction alerts with
  | nil => exact List.Sublist.slnil
  | cons alert alerts ih =>
      cases hexpected : expected env o s₀ alert with
      | none =>
          rw [List.filterMap_cons_none hexpected]
          exact ih.cons _
      | some stmt =>
          have hid : stmt.tripAlertId = alert.id := congrArg Prod.fst (expected_key hexpected)
          rw [List.filterMap_cons_some hexpected, List.map_cons, List.map_cons, hid]
          exact ih.cons_cons _

theorem Comes.sameEnd {t t' : TickState} (h : Comes env o sends s₀ t)
    (h' : Comes env o sends s₀ t') : SameEnd s₀.due t t' := by
  obtain ⟨created, houtcome, hcreated⟩ := h.returned
  obtain ⟨created', houtcome', hcreated'⟩ := h'.returned
  constructor
  · rw [List.perm_iff_count]
    intro v
    exact (h.rows v).trans (h'.rows v).symm
  · intro key
    exact (h.attempts key).trans (h'.attempts key).symm
  · refine ⟨created, created', houtcome, houtcome', hcreated.trans hcreated'.symm, ?_⟩
    have hids : created.map (·.tripAlertId) =
        (created.map (·.values)).map (·.tripAlertId) := by
      rw [List.map_map]
      rfl
    rw [hids, hcreated]
    exact expected_sublist env o s₀ s₀.due

/-! ## Runs -/

theorem exec_swept (hready : ReadyToSweep session s₀) {acts : List TickAct}
    (hmeets : Run.Meets (tickStep env session) (Faultless o sends) s₀.startSweep acts)
    (hexec : Run.exec (tickStep env session) s₀.startSweep acts = some s) :
    Orderly session s ∧ Swept env session o sends s₀ s := by
  have hstep : ∀ u a u', Orderly session u ∧ Swept env session o sends s₀ u →
      Faultless o sends u a → tickStep env session u a = some u' →
      Orderly session u' ∧ Swept env session o sends s₀ u' := by
    rintro u a u' ⟨horderly, hswept⟩ hact hu
    exact ⟨tickStep_orderly horderly hu, hswept.step horderly hready.due_ids hact hu⟩
  exact Run.exec_invariant hstep ⟨hready.orderly_start env, hready.swept⟩
    hmeets hexec

theorem exec_in_turn (hready : ReadyToSweep session s₀) {acts : List TickAct}
    (hmeets : Run.Meets (tickStep env session) (InTurn o sends) s₀.startSweep acts)
    (hexec : Run.exec (tickStep env session) s₀.startSweep acts = some s) :
    Orderly session s ∧ Swept env session o sends s₀ s ∧ OneByOne s := by
  have hstep : ∀ u a u', Orderly session u ∧ Swept env session o sends s₀ u ∧ OneByOne u →
      InTurn o sends u a → tickStep env session u a = some u' →
      Orderly session u' ∧ Swept env session o sends s₀ u' ∧ OneByOne u' := by
    rintro u a u' ⟨horderly, hswept, honeByOne⟩ hact hu
    exact ⟨tickStep_orderly horderly hu, hswept.step horderly hready.due_ids hact.1 hu,
      honeByOne.step hswept hact hu⟩
  have hstart : OneByOne s₀.startSweep := by
    intro i j task other _ _ hj hstarted
    obtain ⟨alert, _, rfl⟩ := List.mem_map.mp (List.mem_of_getElem? hj)
    exact absurd rfl hstarted
  exact Run.exec_invariant hstep
    ⟨hready.orderly_start env, hready.swept, hstart⟩ hmeets hexec

/-- Each step without a fault keeps a tick orderly and brings it closer to its end. -/
theorem faultless_remaining {act : TickAct} (h : Orderly session s)
    (hact : Faultless o sends s act) (hstep : tickStep env session s act = some s') :
    Orderly session s' ∧ s'.remaining < s.remaining :=
  ⟨tickStep_orderly h hstep, tickStep_remaining h hact.1 hstep⟩

/-- **The concurrent sweep is equivalent to a serial one.**  In every state of every
    sweep without a fault at most one task stands between the start of a statement and
    its commit, and every such sweep is finite.  Unless an insert waits for another
    session, the sweep goes on until it has its outcome, and so it does when the alerts
    are processed one after another.  And whenever they are, every other sweep that has
    its outcome ends as that one does. -/
theorem sweep_serial (hready : ReadyToSweep session s₀) :
    (∀ acts s, Run.Meets (tickStep env session) (Faultless o sends) s₀.startSweep acts →
      Run.exec (tickStep env session) s₀.startSweep acts = some s →
      Exclusive s ∧ acts.length ≤ s₀.startSweep.remaining ∧
        (Unblocked session s₀ → Run.Stuck (tickStep env session) (Faultless o sends) s →
          s.tick.outcome ≠ none)) ∧
    (Unblocked session s₀ → ∃ acts t,
      Run.Meets (tickStep env session) (InTurn o sends) s₀.startSweep acts ∧
      Run.exec (tickStep env session) s₀.startSweep acts = some t ∧ t.tick.outcome ≠ none) ∧
    ∀ acts t serialActs t',
      Run.Meets (tickStep env session) (Faultless o sends) s₀.startSweep acts →
      Run.exec (tickStep env session) s₀.startSweep acts = some t → t.tick.outcome ≠ none →
      Run.Meets (tickStep env session) (InTurn o sends) s₀.startSweep serialActs →
      Run.exec (tickStep env session) s₀.startSweep serialActs = some t' →
      t'.tick.outcome ≠ none → SameEnd s₀.due t t' := by
  have hstart := hready.orderly_start env
  refine ⟨?_, ?_, ?_⟩
  · intro acts s hmeets hexec
    obtain ⟨horderly, hswept⟩ := exec_swept hready hmeets hexec
    refine ⟨?_, ?_, fun hunblocked hstuck => hswept.ends hunblocked horderly hstuck⟩
    · intro i j task other hi hj hcritical hcritical'
      by_contra hne
      have hidle := horderly.others_not_critical hi hcritical hj hne
      rw [hcritical'] at hidle
      cases hidle
    · have hle := Run.length_add_le TickState.remaining
        (fun s a s' h hact hstep => faultless_remaining h hact hstep) hstart hmeets hexec
      omega
  · intro hunblocked
    obtain ⟨acts, t, hmeets, hexec, hstuck⟩ := Run.exists_stuck TickState.remaining
      (fun s a s' h (hact : InTurn o sends s a) (hstep : tickStep env session s a = some s') =>
        faultless_remaining h hact.1 hstep) s₀.startSweep hstart
    obtain ⟨horderly, hswept, honeByOne⟩ := exec_in_turn hready hmeets hexec
    exact ⟨acts, t, hmeets, hexec, hswept.ends_in_turn hunblocked horderly honeByOne hstuck⟩
  · intro acts t serialActs t' hmeets hexec houtcome hmeets' hexec' houtcome'
    obtain ⟨_, hswept⟩ := exec_swept hready hmeets hexec
    obtain ⟨_, hswept', _⟩ := exec_in_turn hready hmeets' hexec'
    exact (hswept.comes houtcome).sameEnd (hswept'.comes houtcome')

/-- Two alerts for the same ride, about to be swept. -/
def twoAlerts : TickState where
  db := ⟨[tuesdayMorning, { tuesdayMorning with id := 2 }], ⟨[], [], 0⟩⟩
  log := []
  tick := { Tick.opened mondayNight 15 with stage := .selectingDue }

theorem twoAlerts_ready : ReadyToSweep 0 twoAlerts where
  orderly := ⟨rfl, rfl, rfl, fun _ => rfl, by simp [twoAlerts], by simp [twoAlerts, Tick.opened]⟩
  alive := rfl
  stage := rfl
  outcome := rfl
  keyed := ⟨List.nodup_nil, List.nodup_nil, by simp [twoAlerts, Transactional.Table.pendingRows]⟩
  ids := by decide

theorem sweep_serial_two :
    twoAlerts.due.length = 2 ∧ ∃ serialActs t',
      Run.Meets (tickStep flatEnv 0) (InTurn rainyOutcomes fun _ => true) twoAlerts.startSweep
        serialActs ∧
      Run.exec (tickStep flatEnv 0) twoAlerts.startSweep serialActs = some t' ∧
      ∀ acts t,
        Run.Meets (tickStep flatEnv 0) (Faultless rainyOutcomes fun _ => true)
          twoAlerts.startSweep acts →
        Run.exec (tickStep flatEnv 0) twoAlerts.startSweep acts = some t →
        t.tick.outcome ≠ none → SameEnd twoAlerts.due t t' := by
  obtain ⟨_, hserial, hsame⟩ := @sweep_serial flatEnv 0 rainyOutcomes (fun _ => true) twoAlerts
    twoAlerts_ready
  obtain ⟨serialActs, t', hmeets, hexec, houtcome⟩ := hserial fun _ _ => rfl
  refine ⟨by decide +kernel, serialActs, t', hmeets, hexec, fun acts t hacts ht hended => ?_⟩
  exact hsame acts t serialActs t' hacts ht hended hmeets hexec houtcome

end Tick

end FietsOfOv
