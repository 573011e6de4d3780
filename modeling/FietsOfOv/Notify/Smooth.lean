import FietsOfOv.Notify.Orderly

/-!
# Steps that no write fails

A failing write rolls the session back, and with that every instance the session
has loaded expires.  As long as no write fails, the instances stay readable and
far fewer kinds of steps are left, which `SmoothMoves` lists.  A failing write,
on the other hand, is always noticed: the handler itself reads an expired
instance and raises.
-/

namespace FietsOfOv

open WallClock

/-! ## Failing writes -/

/-- A stamp that fails. -/
def DeliverAct.writeFails : DeliverAct → Bool
  | .update ok _ => !ok
  | .commit ok => !ok
  | _ => false

/-- An insert or a stamp that fails, or the commit of one. -/
def TaskAct.writeFails : TaskAct → Bool
  | .insert ok _ => !ok
  | .commit ok => !ok
  | .deliver act => act.writeFails
  | _ => false

def TickAct.writeFails : TickAct → Bool
  | .redeliver act => act.writeFails
  | .task _ act => act.writeFails
  | _ => false

/-! ## Loaded instances -/

def Pc.instances : Pc → List Instance
  | .committing _ notification => notification.toList
  | .delivering inst _ => [inst]
  | _ => []

def Stage.instances : Stage → List Instance
  | .redelivering inst _ rest => inst :: rest
  | _ => []

/-- The instances the tick still holds on to. -/
def Tick.instances (tick : Tick) : List Instance :=
  tick.stage.instances ++ tick.tasks.flatMap (·.pc.instances)

/-! ## The steps of a delivery and of a task -/

section Deliver

variable {session : Nat} {useLock : Bool} {inst : Instance} {site site' : Site}
  {progress : Progress}

/-- The steps of a delivery whose instance is readable and whose stamp does not fail. -/
inductive SmoothDelivers (session : Nat) (useLock : Bool) (inst : Instance) (site : Site) :
    Delivery → DeliverAct → Site → Progress → Prop
  | sends : SmoothDelivers session useLock inst site
      .sending (.send true) (site.post (.sent session inst.row true))
      (.on (if useLock then .locking else .updating))
  | sendFails : SmoothDelivers session useLock inst site
      .sending (.send false) (site.post (.sent session inst.row false)) (.returned false)
  | acquires (hfree : site.loop.dbLocked = false) :
      SmoothDelivers session useLock inst site .locking .acquire site.acquire (.on .updating)
  | updates {deliveredAt : Timestamp} :
      SmoothDelivers session useLock inst site .updating (.update true deliveredAt)
        (site.withDb (site.db.stamp session inst.row.id deliveredAt))
        (.on (.committing deliveredAt))
  | stamps {deliveredAt : Timestamp} :
      SmoothDelivers session useLock inst site (.committing deliveredAt) (.commit true)
        (((site.withDb (site.db.commit session)).post
          (.stamped session inst.row true)).release useLock) (.returned true)

theorem deliverStep_smooth {d : Delivery} {act : DeliverAct}
    (h : deliverStep session useLock inst site d act = some (site', progress))
    (hfresh : site.loop.rollbacks ≤ inst.loaded) (hact : act.writeFails = false) :
    SmoothDelivers session useLock inst site d act site' progress := by
  have hmoves := deliverStep_moves h
  cases hmoves with
  | sendRaises hexpired => omega
  | sends => exact .sends
  | sendFails => exact .sendFails
  | acquires hfree => exact .acquires hfree
  | updates => exact .updates
  | updateFails hfails =>
      rcases hfails with rfl | hexpired
      · cases hact
      · omega
  | stamps => exact .stamps
  | commitFails => cases hact

namespace SmoothDelivers

variable {d : Delivery} {act : DeliverAct}

theorem rollbacks_eq (h : SmoothDelivers session useLock inst site d act site' progress) :
    site'.loop.rollbacks = site.loop.rollbacks := by
  cases h <;> rfl

theorem not_raised (h : SmoothDelivers session useLock inst site d act site' progress) :
    progress ≠ .raised := by
  cases h <;> simp

/-- A stamp changes no key. -/
theorem keys_eq (h : SmoothDelivers session useLock inst site d act site' progress)
    (hopen : d.critical = true → site.db.openOf session = d.writes inst) :
    site'.db.rows.map (·.key) = site.db.rows.map (·.key) := by
  cases h with
  | stamps =>
      have hrows := Database.rows_commit_stamp (hopen rfl)
      simp only [Site.release, Site.post, Site.withDb, hrows, List.map_map]
      apply List.map_congr_left
      intro n _
      by_cases hid : n.id = inst.row.id <;> simp [hid]
  | _ => rfl

/-- A delivery logs its send, and never that it raised. -/
theorem log_eq (h : SmoothDelivers session useLock inst site d act site' progress) :
    ∃ events, site'.log = site.log ++ events ∧
      (∀ s row, .deliverRaised s row ∉ events) ∧
      ∀ s row ok, .sent s row ok ∈ events ↔
        d = .sending ∧ act = .send ok ∧ s = session ∧ row = inst.row := by
  cases h with
  | sends =>
      refine ⟨[.sent session inst.row true], rfl, by simp, fun s row ok => ?_⟩
      simp [and_left_comm, and_comm, eq_comm]
  | sendFails =>
      refine ⟨[.sent session inst.row false], rfl, by simp, fun s row ok => ?_⟩
      simp [and_left_comm, and_comm, eq_comm]
  | acquires => exact ⟨[], (List.append_nil _).symm, by simp, by simp⟩
  | updates => exact ⟨[], (List.append_nil _).symm, by simp, by simp⟩
  | stamps => exact ⟨[.stamped session inst.row true], rfl, by simp, by simp⟩

end SmoothDelivers

/-- A failing stamp makes the handler read the instance that its rollback expired. -/
theorem deliverStep_raises {d : Delivery} {act : DeliverAct}
    (h : deliverStep session useLock inst site d act = some (site', progress))
    (hloaded : inst.loaded ≤ site.loop.rollbacks) (hact : act.writeFails = true) :
    progress = .raised ∧ .deliverRaised session inst.row ∈ site'.log := by
  have hfails : stampFails session useLock inst site = (site', progress) →
      progress = .raised ∧ .deliverRaised session inst.row ∈ site'.log := by
    intro hstamp
    obtain ⟨_, _, ⟨_, hle, _⟩ | ⟨hraised, _, hlog⟩⟩ := stampFails_cases hstamp
    · omega
    · exact ⟨hraised, by simp [hlog]⟩
  have hmoves := deliverStep_moves h
  cases hmoves with
  | updateFails _ hstamp => exact hfails hstamp
  | commitFails hstamp => exact hfails hstamp
  | _ => cases hact

end Deliver

section Task

variable {env : Env} {session loaded : Nat} {now : DateTime} {alert : TripAlert}
  {site site' : Site} {pc pc' : Pc}

/-- The steps of a task whose instances are readable and whose writes do not fail. -/
inductive SmoothMoves (env : Env) (session : Nat) (now : DateTime) (alert : TripAlert)
    (site : Site) : Pc → TaskAct → Site → Pc → Prop
  | starts (hpermit : site.loop.semaphore ≠ 0) :
      SmoothMoves env session now alert site .queued .start site.enter .planning
  /-- The plan leads to no warning. -/
  | unassessable {answer : Except PlanError (List Candidate)}
      (hnone : ∀ forecast, warning env alert now answer forecast = none) :
      SmoothMoves env session now alert site
        .planning (.plan answer) site.leave (.finished none)
  | plans {candidates : List Candidate} (hbike : hasBike candidates = true) :
      SmoothMoves env session now alert site
        .planning (.plan (.ok candidates)) site (.forecasting candidates)
  /-- The forecast leads to no warning. -/
  | staysDry {candidates : List Candidate} {answer : Except Unit (Option RainForecast)}
      (hnone : warning env alert now (.ok candidates) answer = none) :
      SmoothMoves env session now alert site
        (.forecasting candidates) (.forecast answer) site.leave (.finished none)
  | warns {candidates : List Candidate} {answer : Except Unit (Option RainForecast)}
      {stmt : InsertStmt} (hsome : hasBike candidates = true →
        warning env alert now (.ok candidates) answer = some stmt) :
      SmoothMoves env session now alert site
        (.forecasting candidates) (.forecast answer) site (.locking stmt)
  | acquires {stmt : InsertStmt} (hfree : site.loop.dbLocked = false) :
      SmoothMoves env session now alert site
        (.locking stmt) .acquire site.acquire (.inserting stmt)
  | inserts {stmt : InsertStmt} {createdAt : Timestamp} {db : Database}
      {row : Option Notification}
      (hinsert : site.db.insert session stmt createdAt = some (db, row)) :
      SmoothMoves env session now alert site
        (.inserting stmt) (.insert true createdAt) (site.withDb db)
        (.committing stmt (row.map (⟨·, site.loop.rollbacks⟩)))
  | skips {stmt : InsertStmt} :
      SmoothMoves env session now alert site (.committing stmt none) (.commit true)
        (((site.withDb (site.db.commit session)).post
          (.recorded session alert none)).release true).leave (.finished none)
  | records {stmt : InsertStmt} {inst : Instance} :
      SmoothMoves env session now alert site (.committing stmt (some inst)) (.commit true)
        (((site.withDb (site.db.commit session)).post
          (.recorded session alert (some inst.row))).release true) (.delivering inst .sending)
  | delivers {inst : Instance} {d d' : Delivery} {act : DeliverAct} {site' : Site}
      (hdeliver : SmoothDelivers session true inst site d act site' (.on d')) :
      SmoothMoves env session now alert site
        (.delivering inst d) (.deliver act) site' (.delivering inst d')
  | delivered {inst : Instance} {d : Delivery} {act : DeliverAct} {ok : Bool} {site' : Site}
      (hdeliver : SmoothDelivers session true inst site d act site' (.returned ok)) :
      SmoothMoves env session now alert site
        (.delivering inst d) (.deliver act) site'.leave (.finished (some inst.row))

/-- An exception of the evaluation is logged and skipped while the alert is readable. -/
theorem skipAlert_of_fresh (h : skipAlert loaded site = (site', pc'))
    (hfresh : site.loop.rollbacks ≤ loaded) : site' = site.leave ∧ pc' = .finished none := by
  have hexpired := Loop.expired_eq_false.mpr hfresh
  simp only [skipAlert, hexpired, Bool.false_eq_true, if_false] at h
  cases h
  exact ⟨rfl, rfl⟩

theorem warning_of_assess {candidates : List Candidate} {rain : Option RainForecast}
    {advice : AdviceResponse} (hbike : hasBike candidates = true)
    (hassess : assess env candidates rain = some advice) :
    warning env alert now (.ok candidates) (.ok rain) =
      if warrants advice then some (insertStmt alert now advice) else none := by
  simp only [warning, evaluateTripAlert, hbike, hassess, if_true]

theorem taskStep_smooth {act : TaskAct}
    (h : taskStep env session now loaded alert site pc act = some (site', pc'))
    (hfresh : site.loop.rollbacks ≤ loaded)
    (hinstances : ∀ inst ∈ pc.instances, site.loop.rollbacks ≤ inst.loaded)
    (hact : act.writeFails = false) : SmoothMoves env session now alert site pc act site' pc' := by
  have hmoves := taskStep_moves h
  cases hmoves with
  | starts hpermit => exact .starts hpermit
  | startRaises _ hexpired => omega
  | unassessable hanswer =>
      apply SmoothMoves.unassessable
      intro forecast
      rcases hanswer with rfl | ⟨candidates, rfl, hbike⟩
      · rfl
      · simp [warning, evaluateTripAlert, hbike]
  | planRaises hanswer hskip =>
      obtain ⟨rfl, rfl⟩ := skipAlert_of_fresh hskip hfresh
      rcases hanswer with rfl | hexpired
      · exact .unassessable fun forecast => rfl
      · omega
  | plans hbike => exact .plans hbike
  | @forecastRaises candidates answer _ _ hanswer hskip =>
      obtain ⟨rfl, rfl⟩ := skipAlert_of_fresh hskip hfresh
      apply SmoothMoves.staysDry
      rcases hanswer with rfl | ⟨rain, rfl, hassess⟩ | hexpired
      · cases hbike : hasBike candidates <;> simp [warning, evaluateTripAlert, hbike]
      · cases hbike : hasBike candidates <;> simp [warning, evaluateTripAlert, hbike, hassess]
      · omega
  | @staysDry candidates rain advice hassess hdry =>
      apply SmoothMoves.staysDry
      cases hbike : hasBike candidates with
      | false => simp [warning, evaluateTripAlert, hbike]
      | true => simp [warning_of_assess hbike hassess, hdry]
  | warns hassess hwet =>
      apply SmoothMoves.warns
      intro hbike
      simp [warning_of_assess hbike hassess, hwet]
  | acquires hfree => exact .acquires hfree
  | inserts hinsert => exact .inserts hinsert
  | insertFails => cases hact
  | skips => exact .skips
  | records => exact .records
  | commitFails => cases hact
  | delivers hdeliver =>
      exact .delivers (deliverStep_smooth hdeliver
        (hinstances _ (List.mem_singleton_self _)) hact)
  | delivered hdeliver =>
      exact .delivered (deliverStep_smooth hdeliver
        (hinstances _ (List.mem_singleton_self _)) hact)
  | deliverRaises hdeliver =>
      have hsmooth := deliverStep_smooth hdeliver (hinstances _ (List.mem_singleton_self _)) hact
      cases hsmooth

namespace SmoothMoves

variable {act : TaskAct}

theorem rollbacks_eq (h : SmoothMoves env session now alert site pc act site' pc') :
    site'.loop.rollbacks = site.loop.rollbacks := by
  cases h with
  | delivers hdeliver => exact hdeliver.rollbacks_eq
  | delivered hdeliver => exact hdeliver.rollbacks_eq
  | _ => rfl

/-- An instance is loaded by the insert, and kept from then on. -/
theorem instances (h : SmoothMoves env session now alert site pc act site' pc')
    {inst : Instance} (hinst : inst ∈ pc'.instances) :
    inst ∈ pc.instances ∨ inst.loaded = site.loop.rollbacks := by
  cases h with
  | inserts hinsert =>
      obtain ⟨row, _, rfl⟩ := Option.map_eq_some_iff.mp (Option.mem_toList.mp hinst)
      exact Or.inr rfl
  | records => exact Or.inl hinst
  | delivers => exact Or.inl hinst
  | _ => cases hinst

/-- While one task of a sweep makes its step, all instances stay readable. -/
theorem current {tasks : List Task} {i : Nat}
    (h : SmoothMoves env session now alert site pc act site' pc')
    (hi : tasks[i]? = some ⟨alert, pc⟩)
    (hcurrent : ∀ task ∈ tasks, ∀ inst ∈ task.pc.instances, inst.loaded = site.loop.rollbacks) :
    ∀ task ∈ tasks.set i ⟨alert, pc'⟩, ∀ inst ∈ task.pc.instances,
      inst.loaded = site'.loop.rollbacks := by
  intro task htask inst hinst
  rw [h.rollbacks_eq]
  rcases List.mem_or_eq_of_mem_set htask with htask | rfl
  · exact hcurrent task htask inst hinst
  · rcases h.instances hinst with hinst | hloaded
    · exact hcurrent _ (List.mem_of_getElem? hi) inst hinst
    · exact hloaded

/-- Only the commit of an insert adds a key. -/
theorem keys_eq (h : SmoothMoves env session now alert site pc act site' pc')
    (hopen : pc.critical = true → site.db.openOf session = pc.writes) :
    site'.db.rows.map (·.key) = site.db.rows.map (·.key) ∨
    ∃ stmt inst, pc = .committing stmt (some inst) ∧ pc' = .delivering inst .sending ∧
      site'.db.rows.map (·.key) = site.db.rows.map (·.key) ++ [inst.row.key] := by
  cases h with
  | inserts hinsert =>
      apply Or.inl
      rw [show (site.withDb _).db.rows = site.db.rows from (Database.insert_cases hinsert).2.1]
  | skips =>
      have hrows := Database.rows_commit_nil (hopen rfl)
      exact Or.inl (congrArg _ hrows)
  | @records stmt inst =>
      have hrows : (site.db.commit session).rows = site.db.rows ++ [inst.row] :=
        Database.rows_commit_insert (hopen rfl)
      refine Or.inr ⟨stmt, inst, rfl, rfl, ?_⟩
      simp [Site.release, Site.post, Site.withDb, hrows]
  | delivers hdeliver => exact Or.inl (hdeliver.keys_eq hopen)
  | delivered hdeliver => exact Or.inl (hdeliver.keys_eq hopen)
  | _ => exact Or.inl rfl

/-- What a task logs: its send while it is sending, and never that its delivery raised. -/
theorem log_eq (h : SmoothMoves env session now alert site pc act site' pc') :
    ∃ events, site'.log = site.log ++ events ∧
      (∀ s row, .deliverRaised s row ∉ events) ∧
      ∀ s row ok, .sent s row ok ∈ events ↔ ∃ inst, pc = .delivering inst .sending ∧
        act = .deliver (.send ok) ∧ s = session ∧ row = inst.row := by
  cases h with
  | skips => exact ⟨[.recorded session alert none], rfl, by simp, by simp⟩
  | @records stmt inst =>
      exact ⟨[.recorded session alert (some inst.row)], rfl, by simp, by simp⟩
  | delivers hdeliver =>
      obtain ⟨events, hlog, hquiet, hsent⟩ := hdeliver.log_eq
      refine ⟨events, hlog, hquiet, fun s row ok => ?_⟩
      simp [hsent, and_assoc]
  | delivered hdeliver =>
      obtain ⟨events, hlog, hquiet, hsent⟩ := hdeliver.log_eq
      refine ⟨events, hlog, hquiet, fun s row ok => ?_⟩
      simp [hsent, and_assoc]
  | _ => exact ⟨[], (List.append_nil _).symm, by simp, by simp⟩

end SmoothMoves

/-- A failing write of a task makes it raise, or its delivery. -/
theorem taskStep_raises {act : TaskAct}
    (h : taskStep env session now loaded alert site pc act = some (site', pc'))
    (hloaded : loaded ≤ site.loop.rollbacks)
    (hinstances : ∀ inst ∈ pc.instances, inst.loaded ≤ site.loop.rollbacks)
    (hact : act.writeFails = true) :
    pc' = .raised ∨ ∃ row, .deliverRaised session row ∈ site'.log := by
  have hinsert : insertFails session loaded site = (site', pc') → pc' = .raised := by
    intro hfails
    have hexpired : loaded < site.loop.rollbacks + 1 := Nat.lt_succ_of_le hloaded
    simp only [insertFails, skipAlert, Site.rollback, Site.release, Loop.expired, hexpired,
      decide_true, if_true] at hfails
    cases hfails
    rfl
  have hmoves := taskStep_moves h
  cases hmoves with
  | insertFails hfails => exact Or.inl (hinsert hfails)
  | commitFails hfails => exact Or.inl (hinsert hfails)
  | delivers hdeliver =>
      have hraised := (deliverStep_raises hdeliver
        (hinstances _ (List.mem_singleton_self _)) hact).1
      cases hraised
  | delivered hdeliver =>
      have hraised := (deliverStep_raises hdeliver
        (hinstances _ (List.mem_singleton_self _)) hact).1
      cases hraised
  | deliverRaises hdeliver hskip =>
      obtain ⟨_, hlog⟩ := deliverStep_raises hdeliver
        (hinstances _ (List.mem_singleton_self _)) hact
      obtain ⟨rfl, _⟩ := skipAlert_cases hskip
      exact Or.inr ⟨_, hlog⟩
  | _ => cases hact

end Task

end FietsOfOv
