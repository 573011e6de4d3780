import FietsOfOv.Notify.Tick

/-!
# The kinds of steps

What a step of a delivery, of a task and of a tick can be, said once: every fact
about steps is a case analysis of these.
-/

namespace FietsOfOv

open WallClock

/-! ## `deliver` -/

section Deliver

variable {session : Nat} {useLock : Bool} {inst : Instance} {site site' : Site}
  {progress : Progress}

/-- A failed stamp ends the delivery: by returning, or by raising in the log line. -/
theorem stampFails_cases (h : stampFails session useLock inst site = (site', progress)) :
    site'.db = site.db.rollback session ∧
    site'.loop = ⟨site.loop.rollbacks + 1, site.loop.semaphore,
      site.loop.dbLocked && !useLock⟩ ∧
    ((progress = .returned false ∧ (site.loop.rollbacks + 1 ≤ inst.loaded) ∧
        site'.log = site.log ++ [.stamped session inst.row false]) ∨
      (progress = .raised ∧ inst.loaded < site.loop.rollbacks + 1 ∧
        site'.log = site.log ++ [.stamped session inst.row false] ++
          [.deliverRaised session inst.row])) := by
  simp only [stampFails] at h
  split at h
  · rename_i hexpired
    cases h
    refine ⟨rfl, rfl, Or.inr ⟨rfl, ?_, rfl⟩⟩
    simpa [Site.rollback, Site.post, Site.release] using hexpired
  · rename_i hexpired
    cases h
    refine ⟨rfl, rfl, Or.inl ⟨rfl, ?_, rfl⟩⟩
    simpa [Site.rollback, Site.post, Site.release] using hexpired

inductive DeliverMoves (session : Nat) (useLock : Bool) (inst : Instance) (site : Site) :
    Delivery → DeliverAct → Site → Progress → Prop
  | sendRaises {ok : Bool} (hexpired : inst.loaded < site.loop.rollbacks) :
      DeliverMoves session useLock inst site .sending (.send ok)
        ((site.post (.sent session inst.row false)).post (.deliverRaised session inst.row)) .raised
  | sends (hfresh : site.loop.rollbacks ≤ inst.loaded) :
      DeliverMoves session useLock inst site
        .sending (.send true) (site.post (.sent session inst.row true))
        (.on (if useLock then .locking else .updating))
  | sendFails (hfresh : site.loop.rollbacks ≤ inst.loaded) :
      DeliverMoves session useLock inst site
        .sending (.send false) (site.post (.sent session inst.row false))
        (.returned false)
  | acquires (hfree : site.loop.dbLocked = false) :
      DeliverMoves session useLock inst site .locking .acquire site.acquire (.on .updating)
  | updates {deliveredAt : Timestamp} (hfresh : site.loop.rollbacks ≤ inst.loaded) :
      DeliverMoves session useLock inst site .updating (.update true deliveredAt)
        (site.withDb (site.db.stamp session inst.row.id deliveredAt))
        (.on (.committing deliveredAt))
  | updateFails {ok : Bool} {deliveredAt : Timestamp} {site' : Site} {progress : Progress}
      (hfails : ok = false ∨ inst.loaded < site.loop.rollbacks)
      (hstamp : stampFails session useLock inst site = (site', progress)) :
      DeliverMoves session useLock inst site .updating (.update ok deliveredAt) site' progress
  | stamps {deliveredAt : Timestamp} :
      DeliverMoves session useLock inst site (.committing deliveredAt) (.commit true)
        (((site.withDb (site.db.commit session)).post
          (.stamped session inst.row true)).release useLock) (.returned true)
  | commitFails {deliveredAt : Timestamp} {site' : Site} {progress : Progress}
      (hstamp : stampFails session useLock inst site = (site', progress)) :
      DeliverMoves session useLock inst site
        (.committing deliveredAt) (.commit false) site' progress

theorem deliverStep_moves {d : Delivery} {act : DeliverAct}
    (h : deliverStep session useLock inst site d act = some (site', progress)) :
    DeliverMoves session useLock inst site d act site' progress := by
  cases d with
  | sending =>
      cases act with
      | send ok =>
          simp only [deliverStep] at h
          split at h
          · rename_i hexpired
            cases h
            exact .sendRaises (Loop.expired_eq_true.mp hexpired)
          · rename_i hexpired
            have hfresh := Loop.expired_eq_false.mp (Bool.not_eq_true _ ▸ hexpired)
            cases ok with
            | true =>
                cases h
                exact .sends hfresh
            | false =>
                cases h
                exact .sendFails hfresh
      | _ => simp [deliverStep] at h
  | locking =>
      cases act with
      | acquire =>
          simp only [deliverStep] at h
          split at h
          · cases h
          · rename_i hfree
            cases h
            exact .acquires (Bool.not_eq_true _ ▸ hfree)
      | _ => simp [deliverStep] at h
  | updating =>
      cases act with
      | update ok deliveredAt =>
          simp only [deliverStep] at h
          split at h
          · rename_i hok
            cases h
            rw [hok.1]
            exact .updates (Loop.expired_eq_false.mp hok.2)
          · rename_i hfails
            refine .updateFails ?_ (Option.some.inj h)
            cases ok with
            | false => exact Or.inl rfl
            | true => exact Or.inr (by simpa using hfails)
      | _ => simp [deliverStep] at h
  | committing deliveredAt =>
      cases act with
      | commit ok =>
          cases ok with
          | true =>
              cases h
              exact .stamps
          | false => exact .commitFails (Option.some.inj h)
      | _ => simp [deliverStep] at h

end Deliver

/-! ## The task of an alert -/

section Task

variable {env : Env} {session loaded : Nat} {now : DateTime} {alert : TripAlert}
  {site site' : Site} {pc pc' : Pc}

/-- An ended task holds nothing. -/
theorem skipAlert_cases (h : skipAlert loaded site = (site', pc')) :
    site' = site.leave ∧ (pc' = .raised ∨ pc' = .finished none) := by
  unfold skipAlert at h
  cases h
  refine ⟨rfl, ?_⟩
  split
  · exact Or.inl rfl
  · exact Or.inr rfl

inductive TaskMoves (env : Env) (session : Nat) (now : DateTime) (loaded : Nat)
    (alert : TripAlert) (site : Site) : Pc → TaskAct → Site → Pc → Prop
  | starts (hpermit : site.loop.semaphore ≠ 0) (hfresh : site.loop.rollbacks ≤ loaded) :
      TaskMoves env session now loaded alert site .queued .start site.enter .planning
  | startRaises {site' : Site} {pc' : Pc} (hpermit : site.loop.semaphore ≠ 0)
      (hexpired : loaded < site.loop.rollbacks)
      (hskip : skipAlert loaded site.enter = (site', pc')) :
      TaskMoves env session now loaded alert site .queued .start site' pc'
  /-- No plan, or none with a bike. -/
  | unassessable {answer : Except PlanError (List Candidate)}
      (hanswer : answer = .error .otpError ∨
        ∃ candidates, answer = .ok candidates ∧ hasBike candidates = false) :
      TaskMoves env session now loaded alert site
        .planning (.plan answer) site.leave (.finished none)
  | planRaises {answer : Except PlanError (List Candidate)} {site' : Site} {pc' : Pc}
      (hanswer : answer = .error .other ∨ loaded < site.loop.rollbacks)
      (hskip : skipAlert loaded site = (site', pc')) :
      TaskMoves env session now loaded alert site .planning (.plan answer) site' pc'
  | plans {candidates : List Candidate} (hbike : hasBike candidates = true)
      (hfresh : site.loop.rollbacks ≤ loaded) :
      TaskMoves env session now loaded alert site
        .planning (.plan (.ok candidates)) site (.forecasting candidates)
  | forecastRaises {candidates : List Candidate} {answer : Except Unit (Option RainForecast)}
      {site' : Site} {pc' : Pc}
      (hanswer : answer = .error () ∨
        (∃ rain, answer = .ok rain ∧ assess env candidates rain = none) ∨
        loaded < site.loop.rollbacks)
      (hskip : skipAlert loaded site = (site', pc')) :
      TaskMoves env session now loaded alert site
        (.forecasting candidates) (.forecast answer) site' pc'
  | staysDry {candidates : List Candidate} {rain : Option RainForecast} {advice : AdviceResponse}
      (hassess : assess env candidates rain = some advice) (hdry : warrants advice = false) :
      TaskMoves env session now loaded alert site
        (.forecasting candidates) (.forecast (.ok rain)) site.leave (.finished none)
  | warns {candidates : List Candidate} {rain : Option RainForecast} {advice : AdviceResponse}
      (hassess : assess env candidates rain = some advice) (hwet : warrants advice = true)
      (hfresh : site.loop.rollbacks ≤ loaded) :
      TaskMoves env session now loaded alert site
        (.forecasting candidates) (.forecast (.ok rain)) site
        (.locking (insertStmt alert now advice))
  | acquires {stmt : InsertStmt} (hfree : site.loop.dbLocked = false) :
      TaskMoves env session now loaded alert site
        (.locking stmt) .acquire site.acquire (.inserting stmt)
  | inserts {stmt : InsertStmt} {createdAt : Timestamp} {db : Database}
      {row : Option Notification}
      (hinsert : site.db.insert session stmt createdAt = some (db, row)) :
      TaskMoves env session now loaded alert site
        (.inserting stmt) (.insert true createdAt) (site.withDb db)
        (.committing stmt (row.map (⟨·, site.loop.rollbacks⟩)))
  | insertFails {stmt : InsertStmt} {createdAt : Timestamp} {site' : Site} {pc' : Pc}
      (hfails : insertFails session loaded site = (site', pc')) :
      TaskMoves env session now loaded alert site
        (.inserting stmt) (.insert false createdAt) site' pc'
  | skips {stmt : InsertStmt} :
      TaskMoves env session now loaded alert site (.committing stmt none) (.commit true)
        (((site.withDb (site.db.commit session)).post
          (.recorded session alert none)).release true).leave (.finished none)
  | records {stmt : InsertStmt} {inst : Instance} :
      TaskMoves env session now loaded alert site (.committing stmt (some inst)) (.commit true)
        (((site.withDb (site.db.commit session)).post
          (.recorded session alert (some inst.row))).release true) (.delivering inst .sending)
  | commitFails {stmt : InsertStmt} {notification : Option Instance} {site' : Site} {pc' : Pc}
      (hfails : insertFails session loaded site = (site', pc')) :
      TaskMoves env session now loaded alert site
        (.committing stmt notification) (.commit false) site' pc'
  | delivers {inst : Instance} {d d' : Delivery} {act : DeliverAct} {site' : Site}
      (hdeliver : deliverStep session true inst site d act = some (site', .on d')) :
      TaskMoves env session now loaded alert site
        (.delivering inst d) (.deliver act) site' (.delivering inst d')
  | delivered {inst : Instance} {d : Delivery} {act : DeliverAct} {ok : Bool} {site' : Site}
      (hdeliver : deliverStep session true inst site d act = some (site', .returned ok)) :
      TaskMoves env session now loaded alert site
        (.delivering inst d) (.deliver act) site'.leave (.finished (some inst.row))
  | deliverRaises {inst : Instance} {d : Delivery} {act : DeliverAct} {site₁ site' : Site}
      {pc' : Pc} (hdeliver : deliverStep session true inst site d act = some (site₁, .raised))
      (hskip : skipAlert loaded site₁ = (site', pc')) :
      TaskMoves env session now loaded alert site (.delivering inst d) (.deliver act) site' pc'

theorem decideStep_moves {candidates : List Candidate} {rain : Option RainForecast}
    (h : decideStep now loaded alert site (assess env candidates rain) = (site', pc')) :
    TaskMoves env session now loaded alert site (.forecasting candidates) (.forecast (.ok rain))
      site' pc' := by
  cases hassess : assess env candidates rain with
  | none =>
      rw [hassess] at h
      exact .forecastRaises (Or.inr (Or.inl ⟨rain, rfl, hassess⟩)) h
  | some advice =>
      simp only [hassess, decideStep] at h
      split at h
      · rename_i hdegraded
        split at h
        · rename_i hexpired
          exact .forecastRaises (Or.inr (Or.inr (Loop.expired_eq_true.mp hexpired))) h
        · cases h
          exact .staysDry hassess (by simp [warrants, hdegraded])
      · rename_i hdegraded
        split at h
        · rename_i hdry
          cases h
          exact .staysDry hassess (by simp [warrants, hdry])
        · rename_i hwet
          split at h
          · rename_i hexpired
            exact .forecastRaises (Or.inr (Or.inr (Loop.expired_eq_true.mp hexpired))) h
          · rename_i hexpired
            cases h
            refine .warns hassess ?_ (Loop.expired_eq_false.mp (Bool.not_eq_true _ ▸ hexpired))
            simp only [ne_eq, Decidable.not_not] at hwet
            simp [warrants, hdegraded, hwet]

theorem taskStep_moves {act : TaskAct}
    (h : taskStep env session now loaded alert site pc act = some (site', pc')) :
    TaskMoves env session now loaded alert site pc act site' pc' := by
  cases pc with
  | queued =>
      cases act with
      | start =>
          simp only [taskStep] at h
          split at h
          · cases h
          · rename_i hpermit
            split at h
            · rename_i hexpired
              exact .startRaises hpermit (Loop.expired_eq_true.mp hexpired) (Option.some.inj h)
            · rename_i hexpired
              cases h
              exact .starts hpermit (Loop.expired_eq_false.mp (Bool.not_eq_true _ ▸ hexpired))
      | _ => simp [taskStep] at h
  | planning =>
      cases act with
      | plan answer =>
          simp only [taskStep] at h
          split at h
          · cases h
            exact .unassessable (Or.inl rfl)
          · exact .planRaises (Or.inl rfl) (Option.some.inj h)
          · rename_i candidates
            split at h
            · rename_i hbike
              cases h
              exact .unassessable (Or.inr ⟨candidates, rfl, by simpa using hbike⟩)
            · rename_i hbike
              split at h
              · rename_i hexpired
                exact .planRaises (Or.inr (Loop.expired_eq_true.mp hexpired)) (Option.some.inj h)
              · rename_i hexpired
                cases h
                exact .plans (by simpa using hbike)
                  (Loop.expired_eq_false.mp (Bool.not_eq_true _ ▸ hexpired))
      | _ => simp [taskStep] at h
  | forecasting candidates =>
      cases act with
      | forecast answer =>
          simp only [taskStep] at h
          split at h
          · exact .forecastRaises (Or.inl rfl) (Option.some.inj h)
          · exact decideStep_moves (Option.some.inj h)
      | _ => simp [taskStep] at h
  | locking stmt =>
      cases act with
      | acquire =>
          simp only [taskStep] at h
          split at h
          · cases h
          · rename_i hfree
            cases h
            exact .acquires (Bool.not_eq_true _ ▸ hfree)
      | _ => simp [taskStep] at h
  | inserting stmt =>
      cases act with
      | insert ok createdAt =>
          cases ok with
          | true =>
              obtain ⟨⟨db, row⟩, hinsert, heq⟩ := Option.map_eq_some_iff.mp h
              cases heq
              exact .inserts hinsert
          | false => exact .insertFails (Option.some.inj h)
      | _ => simp [taskStep] at h
  | committing stmt notification =>
      cases act with
      | commit ok =>
          cases ok with
          | true =>
              cases notification with
              | none =>
                  cases h
                  exact .skips
              | some inst =>
                  cases h
                  exact .records
          | false => exact .commitFails (Option.some.inj h)
      | _ => simp [taskStep] at h
  | delivering inst d =>
      cases act with
      | deliver act =>
          obtain ⟨⟨site₁, progress⟩, hdeliver, heq⟩ := Option.map_eq_some_iff.mp h
          cases progress with
          | on d' =>
              cases heq
              exact .delivers hdeliver
          | returned ok =>
              cases heq
              exact .delivered hdeliver
          | raised => exact .deliverRaises hdeliver heq
      | _ => simp [taskStep] at h
  | finished result => cases act <;> simp [taskStep] at h
  | raised => cases act <;> simp [taskStep] at h

/-- A task that has returned does not move. -/
theorem taskStep_unfinished {act : TaskAct}
    (h : taskStep env session now loaded alert site pc act = some (site', pc')) :
    pc.isFinished = false := by
  cases pc with
  | finished result => cases act <;> simp [taskStep] at h
  | _ => rfl

end Task

/-! ## `run_due_checks` -/

section Tick

variable {env : Env} {session : Nat} {s s' : TickState}

/-- The kinds of steps of a living tick. -/
inductive Moves (env : Env) (session : Nat) (s : TickState) : TickAct → TickState → Prop
  | selects (hstage : s.tick.stage = .selectingPending) :
      Moves env session s (.selectPending true) (s.atStage s.site (nextRedelivery
        ((s.db.pending s.tick.now.date maxRedeliveriesPerTick).map
          (⟨·, s.tick.loop.rollbacks⟩))))
  | selectFails (hstage : s.tick.stage = .selectingPending) :
      Moves env session s (.selectPending false) (s.atStage (s.site.rollback session) .selectingDue)
  | redelivers {inst : Instance} {d d' : Delivery} {rest : List Instance} {act : DeliverAct}
      {site : Site} (hstage : s.tick.stage = .redelivering inst d rest)
      (hdeliver : deliverStep session false inst s.site d act = some (site, .on d')) :
      Moves env session s (.redeliver act) (s.atStage site (.redelivering inst d' rest))
  | redelivered {inst : Instance} {d : Delivery} {rest : List Instance} {act : DeliverAct}
      {site : Site} {ok : Bool} (hstage : s.tick.stage = .redelivering inst d rest)
      (hdeliver : deliverStep session false inst s.site d act = some (site, .returned ok)) :
      Moves env session s (.redeliver act) (s.atStage site (nextRedelivery rest))
  | redeliveryRaises {inst : Instance} {d : Delivery} {rest : List Instance} {act : DeliverAct}
      {site : Site} (hstage : s.tick.stage = .redelivering inst d rest)
      (hdeliver : deliverStep session false inst s.site d act = some (site, .raised)) :
      Moves env session s (.redeliver act) (s.atStage (site.rollback session) .selectingDue)
  | startsSweep (hstage : s.tick.stage = .selectingDue) (houtcome : s.tick.outcome = none) :
      Moves env session s (.selectDue true) s.startSweep
  | dueFails (hstage : s.tick.stage = .selectingDue) (houtcome : s.tick.outcome = none) :
      Moves env session s (.selectDue false) (s.finishWith (.error ()))
  | sweeps {i : Nat} {task : Task} {act : TaskAct} {site : Site} {pc : Pc}
      (hstage : s.tick.stage = .sweeping) (hi : s.tick.tasks[i]? = some task)
      (htask : taskStep env session s.tick.now s.tick.loaded task.alert s.site task.pc act =
        some (site, pc)) :
      Moves env session s (.task i act) (s.setTask i task.alert site pc)
  | gatherRaises (hstage : s.tick.stage = .sweeping) (houtcome : s.tick.outcome = none)
      (hraised : ∃ task ∈ s.tick.tasks, task.pc = .raised) :
      Moves env session s .gather (s.finishWith (.error ()))
  | gathers (hstage : s.tick.stage = .sweeping) (houtcome : s.tick.outcome = none)
      (hfinished : ∀ task ∈ s.tick.tasks, task.pc.isFinished = true) :
      Moves env session s .gather
        (s.finishWith (.ok (s.tick.tasks.filterMap (·.pc.result))))
  | dies : Moves env session s .die (s.dies session)

theorem tickStep_moves {act : TickAct} (h : tickStep env session s act = some s') :
    s.tick.alive = true ∧ Moves env session s act s' := by
  unfold tickStep at h
  split at h
  · rename_i halive
    refine ⟨halive, ?_⟩
    split at h
    · cases h
      exact .dies
    · rename_i hstage
      split at h
      · rename_i hok
        cases h
        subst hok
        exact .selects hstage
      · rename_i hok
        cases h
        rw [Bool.not_eq_true] at hok
        subst hok
        exact .selectFails hstage
    · rename_i hstage
      obtain ⟨⟨site, progress⟩, hdeliver, rfl⟩ := Option.map_eq_some_iff.mp h
      cases progress with
      | on d => exact .redelivers hstage hdeliver
      | returned ok => exact .redelivered hstage hdeliver
      | raised => exact .redeliveryRaises hstage hdeliver
    · rename_i hstage
      split at h
      · cases h
      · rename_i houtcome
        rw [Bool.not_eq_true, Option.isSome_eq_false_iff, Option.isNone_iff_eq_none] at houtcome
        split at h
        · rename_i hok
          cases h
          subst hok
          exact .startsSweep hstage houtcome
        · rename_i hok
          cases h
          rw [Bool.not_eq_true] at hok
          subst hok
          exact .dueFails hstage houtcome
    · rename_i hstage
      obtain ⟨task, hi, hrest⟩ := Option.bind_eq_some_iff.mp h
      obtain ⟨⟨site, pc⟩, htask, rfl⟩ := Option.map_eq_some_iff.mp hrest
      exact .sweeps hstage hi htask
    · rename_i hstage
      split at h
      · cases h
      · rename_i houtcome
        rw [Bool.not_eq_true, Option.isSome_eq_false_iff, Option.isNone_iff_eq_none] at houtcome
        split at h
        · rename_i hraised
          cases h
          exact .gatherRaises hstage houtcome (by simpa using hraised)
        · split at h
          · rename_i hfinished
            cases h
            exact .gathers hstage houtcome (by simpa using hfinished)
          · cases h
    · cases h
  · cases h

/-- The kinds of steps of a living tick in its sweep. -/
inductive SweepMoves (env : Env) (session : Nat) (s : TickState) : TickAct → TickState → Prop
  | sweeps {i : Nat} {task : Task} {act : TaskAct} {site : Site} {pc : Pc}
      (hi : s.tick.tasks[i]? = some task)
      (htask : taskStep env session s.tick.now s.tick.loaded task.alert s.site task.pc act =
        some (site, pc)) :
      SweepMoves env session s (.task i act) (s.setTask i task.alert site pc)
  | gatherRaises (houtcome : s.tick.outcome = none)
      (hraised : ∃ task ∈ s.tick.tasks, task.pc = .raised) :
      SweepMoves env session s .gather (s.finishWith (.error ()))
  | gathers (houtcome : s.tick.outcome = none)
      (hfinished : ∀ task ∈ s.tick.tasks, task.pc.isFinished = true) :
      SweepMoves env session s .gather
        (s.finishWith (.ok (s.tick.tasks.filterMap (·.pc.result))))
  | dies : SweepMoves env session s .die (s.dies session)

theorem Moves.of_sweeping {act : TickAct} (h : Moves env session s act s')
    (hsweeping : s.tick.stage = .sweeping) : SweepMoves env session s act s' := by
  cases h with
  | sweeps _ hi htask => exact .sweeps hi htask
  | gatherRaises _ houtcome hraised => exact .gatherRaises houtcome hraised
  | gathers _ houtcome hfinished => exact .gathers houtcome hfinished
  | dies => exact .dies
  | selects hstage => cases hstage.symm.trans hsweeping
  | selectFails hstage => cases hstage.symm.trans hsweeping
  | redelivers hstage => cases hstage.symm.trans hsweeping
  | redelivered hstage => cases hstage.symm.trans hsweeping
  | redeliveryRaises hstage => cases hstage.symm.trans hsweeping
  | startsSweep hstage => cases hstage.symm.trans hsweeping
  | dueFails hstage => cases hstage.symm.trans hsweeping

/-- A step of a task is one of its tick. -/
theorem tickStep_task {i : Nat} {task : Task} {act : TaskAct} {site : Site} {pc : Pc}
    (halive : s.tick.alive = true) (hstage : s.tick.stage = .sweeping)
    (hi : s.tick.tasks[i]? = some task)
    (htask : taskStep env session s.tick.now s.tick.loaded task.alert s.site task.pc act =
      some (site, pc)) :
    tickStep env session s (.task i act) = some (s.setTask i task.alert site pc) := by
  simp only [tickStep, halive, hstage, hi, htask, if_true, Option.bind_some, Option.map_some]

end Tick

end FietsOfOv
