import FietsOfOv.Lib.Pool
import FietsOfOv.Notify.Moves
import Mathlib.Logic.Relation

/-!
# What a step of a tick does to the outbox

A tick has a few dozen kinds of steps, but the outbox sees only the effects
listed in `Effect`: what happens to the database, to the log, to the rows the
tick is about to send or to stamp, and to the open transaction.  Every step is a
sequence of such effects (`tickStep_effects`), as long as the tick is `Orderly`:
its open transaction holds what the task in the critical region wrote, and
nothing else.
-/

namespace FietsOfOv

open WallClock Relation

/-- What the outbox sees of a tick. -/
structure Face where
  db : Database
  log : List Event
  waiting : List Notification
  unstamped : List Notification
  writes : List Write

/-- The effects of a tick with this session and clock reading on its due alerts.
    `pickable` is what is known of the rows that it selects for redelivery. -/
inductive Effect (pickable : Notification → Prop) (session : Nat) (now : DateTime)
    (alerts : List TripAlert) : Face → Face → Prop
  /-- `redeliver_pending` selects the rows it will retry. -/
  | picks {db log V} (h : ∀ n ∈ db.pending now.date maxRedeliveriesPerTick, pickable n) :
      Effect pickable session now alerts ⟨db, log, [], [], V⟩
        ⟨db, log, db.pending now.date maxRedeliveriesPerTick, [], V⟩
  | reorders {db log W W' U U' V} (hW : W.Perm W') (hU : U.Perm U') :
      Effect pickable session now alerts ⟨db, log, W, U, V⟩ ⟨db, log, W', U', V⟩
  | givesUp {db log W U V} (rows : List Notification) :
      Effect pickable session now alerts ⟨db, log, rows ++ W, U, V⟩ ⟨db, log, W, U, V⟩
  | rollsBack {db log W U V} :
      Effect pickable session now alerts ⟨db, log, W, U, V⟩ ⟨db.rollback session, log, W, U, []⟩
  | inserts {db db' log W U} {stmt : InsertStmt} {createdAt : Timestamp}
      {result : Option Notification} {alert : TripAlert} (halert : alert ∈ alerts)
      (hkey : stmt.key = departureKey alert now)
      (h : db.insert session stmt createdAt = some (db', result)) :
      Effect pickable session now alerts ⟨db, log, W, U, []⟩
        ⟨db', log, W, U, (result.map .insert).toList⟩
  /-- The insert met a conflict, and its empty transaction is committed. -/
  | skips {db log W U} {alert : TripAlert} (halert : alert ∈ alerts) :
      Effect pickable session now alerts ⟨db, log, W, U, []⟩
        ⟨db.commit session, log ++ [.recorded session alert none], W, U, []⟩
  | records {db log W U} {alert : TripAlert} {row : Notification} (halert : alert ∈ alerts)
      (hkey : row.key = departureKey alert now) (hnull : row.deliveredAt = none) :
      Effect pickable session now alerts ⟨db, log, W, U, [.insert row]⟩
        ⟨db.commit session, log ++ [.recorded session alert (some row)], row :: W, U, []⟩
  | sends {db log W U V} {row : Notification} :
      Effect pickable session now alerts ⟨db, log, row :: W, U, V⟩
        ⟨db, log ++ [.sent session row true], W, row :: U, V⟩
  | sendFails {db log W U V} {row : Notification} :
      Effect pickable session now alerts ⟨db, log, row :: W, U, V⟩
        ⟨db, log ++ [.sent session row false], W, U, V⟩
  | updates {db log W U} {row : Notification} {deliveredAt : Timestamp} :
      Effect pickable session now alerts ⟨db, log, W, U, []⟩
        ⟨db.stamp session row.id deliveredAt, log, W, U, [.update row.id deliveredAt]⟩
  | stamps {db log W U} {row : Notification} {deliveredAt : Timestamp} :
      Effect pickable session now alerts ⟨db, log, W, row :: U, [.update row.id deliveredAt]⟩
        ⟨db.commit session, log ++ [.stamped session row true], W, U, []⟩
  | stampFails {db log W U V} {row : Notification} :
      Effect pickable session now alerts ⟨db, log, W, row :: U, V⟩
        ⟨db, log ++ [.stamped session row false], W, U, V⟩
  | raises {db log W U V} {row : Notification} :
      Effect pickable session now alerts ⟨db, log, W, U, V⟩
        ⟨db, log ++ [.deliverRaised session row], W, U, V⟩

abbrev Effects (pickable : Notification → Prop) (session : Nat) (now : DateTime)
    (alerts : List TripAlert) : Face → Face → Prop :=
  ReflTransGen (Effect pickable session now alerts)

/-! ## What a delivery, a task and a tick hold -/

def Delivery.writes (inst : Instance) : Delivery → List Write
  | .committing deliveredAt => [.update inst.row.id deliveredAt]
  | _ => []

/-- Between the start of a statement and its commit. -/
def Delivery.critical : Delivery → Bool
  | .updating => true
  | .committing _ => true
  | _ => false

namespace Progress

def waiting (inst : Instance) : Progress → List Notification
  | .on d => d.waiting inst
  | _ => []

def unstamped (inst : Instance) : Progress → List Notification
  | .on d => d.unstamped inst
  | _ => []

def writes (inst : Instance) : Progress → List Write
  | .on d => d.writes inst
  | _ => []

def critical : Progress → Bool
  | .on d => d.critical
  | _ => false

end Progress

namespace Pc

def writes : Pc → List Write
  | .committing _ (some inst) => [.insert inst.row]
  | .delivering inst d => d.writes inst
  | _ => []

def critical : Pc → Bool
  | .inserting _ => true
  | .committing _ _ => true
  | .delivering _ d => d.critical
  | _ => false

/-- The task holds one of the semaphore's permits. -/
def running : Pc → Bool
  | .queued => false
  | .finished _ => false
  | .raised => false
  | _ => true

/-- What a task carries belongs to the departure its alert has at `now`. -/
def Sound (now : DateTime) (alert : TripAlert) : Pc → Prop
  | .locking stmt => stmt.key = departureKey alert now
  | .inserting stmt => stmt.key = departureKey alert now
  | .committing stmt notification =>
      stmt.key = departureKey alert now ∧
        ∀ inst, notification = some inst →
          inst.row.key = departureKey alert now ∧ inst.row.deliveredAt = none
  | .delivering inst _ => inst.row.key = departureKey alert now
  | _ => True

end Pc

def Stage.writes : Stage → List Write
  | .redelivering inst d _ => d.writes inst
  | _ => []

/-- The writes of the tick's open transaction. -/
def Tick.writes (tick : Tick) : List Write :=
  if tick.alive then tick.stage.writes ++ tick.tasks.flatMap (·.pc.writes) else []

def Tick.alerts (tick : Tick) : List TripAlert := tick.tasks.map (·.alert)

def TickState.face (s : TickState) : Face :=
  ⟨s.db, s.log, s.tick.waiting, s.tick.unstamped, s.tick.writes⟩

/-- A task keeps its alert. -/
theorem TickState.setTask_alerts {s : TickState} {i : Nat} {task : Task}
    (hi : s.tick.tasks[i]? = some task) (site : Site) (pc : Pc) :
    (s.setTask i task.alert site pc).tick.alerts = s.tick.alerts := by
  have hget : s.tick.alerts[i]? = some task.alert := by simp [Tick.alerts, hi]
  obtain ⟨hlt, heq⟩ := List.getElem?_eq_some_iff.mp hget
  have hself : s.tick.alerts.set i task.alert = s.tick.alerts := by
    rw [← heq]
    exact List.set_getElem_self hlt
  rw [← hself]
  simp [Tick.alerts, TickState.setTask, List.map_set]

/-! ## The steps of `deliver` -/

section Deliver

variable {pickable : Notification → Prop} {session : Nat} {now : DateTime}
  {alerts : List TripAlert} {useLock : Bool}
  {inst : Instance} {site site' : Site} {progress : Progress}

theorem stampFails_effects (h : stampFails session useLock inst site = (site', progress))
    (W U : List Notification) (V : List Write) :
    Effects pickable session now alerts ⟨site.db, site.log, W, inst.row :: U, V⟩
      ⟨site'.db, site'.log, progress.waiting inst ++ W, progress.unstamped inst ++ U,
        progress.writes inst⟩ := by
  obtain ⟨hdb, _, hend⟩ := stampFails_cases h
  have hfail : Effects pickable session now alerts ⟨site.db, site.log, W, inst.row :: U, V⟩
      ⟨site.db.rollback session, site.log ++ [.stamped session inst.row false], W, U, []⟩ :=
    .tail (.single .rollsBack) .stampFails
  rcases hend with ⟨rfl, _, hlog⟩ | ⟨rfl, _, hlog⟩
  · simpa [Progress.waiting, Progress.unstamped, Progress.writes, hdb, hlog] using hfail
  · have hraise : Effects pickable session now alerts _
        ⟨_, _ ++ [.deliverRaised session inst.row], _, _, _⟩ := hfail.tail .raises
    simpa [Progress.waiting, Progress.unstamped, Progress.writes, hdb, hlog] using hraise

theorem deliverStep_effects {d : Delivery} {act : DeliverAct}
    (h : deliverStep session useLock inst site d act = some (site', progress))
    (W U : List Notification) (V : List Write) (hV : d.critical = true → V = []) :
    Effects pickable session now alerts
      ⟨site.db, site.log, d.waiting inst ++ W, d.unstamped inst ++ U, d.writes inst ++ V⟩
      ⟨site'.db, site'.log, progress.waiting inst ++ W, progress.unstamped inst ++ U,
        progress.writes inst ++ V⟩ := by
  have hmoves := deliverStep_moves h
  cases hmoves with
  | sendRaises hexpired => exact .tail (.single .sendFails) .raises
  | sends hfresh => cases useLock <;> exact .single .sends
  | sendFails hfresh => exact .single .sendFails
  | acquires hfree => exact .refl
  | updates hfresh =>
      rw [hV rfl]
      exact .single .updates
  | updateFails hfails hstamp =>
      rw [hV rfl, List.append_nil, List.append_nil]
      exact stampFails_effects hstamp W U _
  | stamps =>
      rw [hV rfl]
      exact .single .stamps
  | commitFails hstamp =>
      rw [hV rfl, List.append_nil, List.append_nil]
      exact stampFails_effects hstamp W U _

end Deliver

/-! ## The steps of a task -/

section Task

variable {env : Env} {pickable : Notification → Prop} {session loaded : Nat} {now : DateTime}
  {alerts : List TripAlert} {alert : TripAlert} {site site' : Site} {pc pc' : Pc}

theorem skipAlert_effects (h : skipAlert loaded site = (site', pc')) (W U : List Notification)
    (V : List Write) :
    Effects pickable session now alerts ⟨site.db, site.log, W, U, V⟩
      ⟨site'.db, site'.log, pc'.waiting ++ W, pc'.unstamped ++ U, pc'.writes ++ V⟩ := by
  obtain ⟨rfl, rfl | rfl⟩ := skipAlert_cases h
  · exact .refl
  · exact .refl

theorem insertFails_effects (h : insertFails session loaded site = (site', pc'))
    (W U : List Notification) (V : List Write) :
    Effects pickable session now alerts ⟨site.db, site.log, W, U, V⟩
      ⟨site'.db, site'.log, pc'.waiting ++ W, pc'.unstamped ++ U, pc'.writes⟩ := by
  have hskip : Effects pickable session now alerts _ _ := skipAlert_effects h W U []
  rw [List.append_nil] at hskip
  exact .head .rollsBack hskip

theorem taskStep_effects {act : TaskAct} (hsound : pc.Sound now alert) (halert : alert ∈ alerts)
    (h : taskStep env session now loaded alert site pc act = some (site', pc'))
    (W U : List Notification) (V : List Write) (hV : pc.critical = true → V = []) :
    Effects pickable session now alerts
      ⟨site.db, site.log, pc.waiting ++ W, pc.unstamped ++ U, pc.writes ++ V⟩
      ⟨site'.db, site'.log, pc'.waiting ++ W, pc'.unstamped ++ U, pc'.writes ++ V⟩ := by
  have hmoves := taskStep_moves h
  cases hmoves with
  | starts hpermit hfresh => exact .refl
  | startRaises hpermit hexpired hskip => exact skipAlert_effects hskip W U V
  | unassessable hanswer => exact .refl
  | planRaises hanswer hskip => exact skipAlert_effects hskip W U V
  | plans hbike hfresh => exact .refl
  | forecastRaises hanswer hskip => exact skipAlert_effects hskip W U V
  | staysDry hassess hdry => exact .refl
  | warns hassess hwet hfresh => exact .refl
  | acquires hfree => exact .refl
  | @inserts stmt createdAt db row hinsert =>
      rw [hV rfl]
      cases row with
      | none => exact .single (.inserts halert hsound hinsert)
      | some row => exact .single (.inserts halert hsound hinsert)
  | insertFails hfails =>
      rw [hV rfl, List.append_nil, List.append_nil]
      exact insertFails_effects hfails W U _
  | skips =>
      rw [hV rfl]
      exact .single (.skips halert)
  | records =>
      rw [hV rfl]
      obtain ⟨hkey, hnull⟩ := hsound.2 _ rfl
      exact .single (.records halert hkey hnull)
  | commitFails hfails =>
      rw [hV rfl, List.append_nil, List.append_nil]
      exact insertFails_effects hfails W U _
  | delivers hdeliver => exact deliverStep_effects hdeliver W U V hV
  | delivered hdeliver => exact deliverStep_effects hdeliver W U V hV
  | deliverRaises hdeliver hskip =>
      have heffects : Effects pickable session now alerts _ _ :=
        deliverStep_effects hdeliver W U V hV
      exact heffects.trans (skipAlert_effects hskip W U V)

/-- How a step of a task moves the lock, the permits and the open transaction. -/
structure Accounted (now : DateTime) (alert : TripAlert) (site : Site) (pc : Pc) (site' : Site)
    (pc' : Pc) : Prop where
  lock : pc'.critical.toNat + site.loop.dbLocked.toNat =
    pc.critical.toNat + site'.loop.dbLocked.toNat
  permits : pc'.running.toNat + site'.loop.semaphore =
    pc.running.toNat + site.loop.semaphore
  writes : pc.critical = false → pc'.writes = []
  sound : pc'.Sound now alert

/-- A task that waits for nothing any more is in no critical region. -/
theorem Pc.idle_of_not_running (h : pc.running = false) :
    pc.critical = false ∧ pc.writes = [] ∧ pc.Sound now alert := by
  cases pc with
  | queued => exact ⟨rfl, rfl, trivial⟩
  | finished result => exact ⟨rfl, rfl, trivial⟩
  | raised => exact ⟨rfl, rfl, trivial⟩
  | _ => simp [Pc.running] at h

theorem skipAlert_not_running (h : skipAlert loaded site = (site', pc')) :
    site' = site.leave ∧ pc'.running = false := by
  obtain ⟨rfl, rfl | rfl⟩ := skipAlert_cases h
  · exact ⟨rfl, rfl⟩
  · exact ⟨rfl, rfl⟩

theorem Accounted.leaves (hcritical : pc.critical = false) (hrunning : pc.running = true)
    (hended : pc'.running = false) : Accounted now alert site pc site.leave pc' := by
  obtain ⟨hcritical', hwrites, hsound⟩ := Pc.idle_of_not_running hended
  constructor
  · rw [hcritical', hcritical]
    rfl
  · rw [hended, hrunning]
    simp [Site.leave, Nat.add_comm]
  · intro _
    exact hwrites
  · exact hsound

theorem skipAlert_accounted (h : skipAlert loaded site = (site', pc'))
    (hcritical : pc.critical = false) (hrunning : pc.running = true) :
    Accounted now alert site pc site' pc' := by
  obtain ⟨rfl, hended⟩ := skipAlert_not_running h
  exact .leaves hcritical hrunning hended

theorem insertFails_accounted (h : insertFails session loaded site = (site', pc'))
    (hcritical : pc.critical = true) (hrunning : pc.running = true)
    (hlock : site.loop.dbLocked = true) : Accounted now alert site pc site' pc' := by
  obtain ⟨rfl, hended⟩ := skipAlert_not_running h
  obtain ⟨hcritical', hwrites, hsound⟩ := Pc.idle_of_not_running hended
  constructor
  · rw [hcritical', hcritical, hlock]
    simp [Site.leave, Site.release]
  · rw [hended, hrunning]
    simp [Site.leave, Site.release, Site.rollback, Nat.add_comm]
  · intro _
    exact hwrites
  · exact hsound

/-- The lock and the open transaction along a step of `deliver` under the lock. -/
theorem deliverStep_accounted {inst : Instance} {d : Delivery} {act : DeliverAct}
    {progress : Progress} (h : deliverStep session true inst site d act = some (site', progress))
    (hlock : d.critical = true → site.loop.dbLocked = true) :
    progress.critical.toNat + site.loop.dbLocked.toNat =
      d.critical.toNat + site'.loop.dbLocked.toNat ∧
    site'.loop.semaphore = site.loop.semaphore ∧
    (d.critical = false → progress.writes inst = []) := by
  have hfails : stampFails session true inst site = (site', progress) → d.critical = true →
      progress.critical.toNat + site.loop.dbLocked.toNat =
        d.critical.toNat + site'.loop.dbLocked.toNat ∧
      site'.loop.semaphore = site.loop.semaphore ∧
      (d.critical = false → progress.writes inst = []) := by
    intro hfails hcritical
    obtain ⟨_, hloop, ⟨rfl, _⟩ | ⟨rfl, _⟩⟩ := stampFails_cases hfails
    · simp [hloop, Progress.critical, hcritical, hlock hcritical]
    · simp [hloop, Progress.critical, hcritical, hlock hcritical]
  have hmoves := deliverStep_moves h
  cases hmoves with
  | sendRaises hexpired => exact ⟨rfl, rfl, fun _ => rfl⟩
  | sends hfresh => exact ⟨rfl, rfl, fun _ => rfl⟩
  | sendFails hfresh => exact ⟨rfl, rfl, fun _ => rfl⟩
  | acquires hfree => exact ⟨by rw [hfree]; rfl, rfl, fun _ => rfl⟩
  | updates hfresh => exact ⟨rfl, rfl, by simp [Delivery.critical]⟩
  | updateFails _ hstamp => exact hfails hstamp rfl
  | stamps =>
      refine ⟨?_, rfl, by simp [Delivery.critical]⟩
      rw [hlock rfl]
      simp [Progress.critical, Delivery.critical, Site.release]
  | commitFails hstamp => exact hfails hstamp rfl

theorem taskStep_accounted {act : TaskAct} (hsound : pc.Sound now alert)
    (h : taskStep env session now loaded alert site pc act = some (site', pc'))
    (hlock : pc.critical = true → site.loop.dbLocked = true) :
    Accounted now alert site pc site' pc' := by
  have hmoves := taskStep_moves h
  cases hmoves with
  | starts hpermit hfresh =>
      refine ⟨rfl, ?_, fun _ => rfl, trivial⟩
      simp only [Pc.running, Site.enter, Bool.toNat_true, Bool.toNat_false]
      omega
  | startRaises hpermit hexpired hskip =>
      obtain ⟨rfl, hended⟩ := skipAlert_not_running hskip
      obtain ⟨hcritical', hwrites, hsound'⟩ := Pc.idle_of_not_running hended
      refine ⟨by rw [hcritical']; rfl, ?_, fun _ => hwrites, hsound'⟩
      rw [hended]
      simp only [Site.leave, Site.enter, Pc.running]
      omega
  | unassessable hanswer => exact .leaves rfl rfl rfl
  | planRaises hanswer hskip => exact skipAlert_accounted hskip rfl rfl
  | plans hbike hfresh => exact ⟨rfl, rfl, fun _ => rfl, trivial⟩
  | forecastRaises hanswer hskip => exact skipAlert_accounted hskip rfl rfl
  | staysDry hassess hdry => exact .leaves rfl rfl rfl
  | warns hassess hwet hfresh => exact ⟨rfl, rfl, fun _ => rfl, rfl⟩
  | acquires hfree => exact ⟨by rw [hfree]; rfl, rfl, fun _ => rfl, hsound⟩
  | inserts hinsert =>
      refine ⟨rfl, rfl, by simp [Pc.critical], hsound, fun inst hinst => ?_⟩
      obtain ⟨n, hrow, rfl⟩ := Option.map_eq_some_iff.mp hinst
      obtain ⟨_, _, _, _, ⟨hnone, _⟩ | ⟨new, hsome, rfl, _⟩⟩ := Database.insert_cases hinsert
      · rw [hnone] at hrow
        cases hrow
      · rw [hsome] at hrow
        cases hrow
        exact ⟨hsound, rfl⟩
  | insertFails hfails => exact insertFails_accounted hfails rfl rfl (hlock rfl)
  | skips =>
      refine ⟨?_, ?_, by simp [Pc.critical], trivial⟩
      · rw [hlock rfl]
        simp [Pc.critical, Site.leave, Site.release]
      · simp [Pc.running, Site.leave, Site.release, Site.post, Site.withDb, Nat.add_comm]
  | records =>
      refine ⟨?_, rfl, by simp [Pc.critical], (hsound.2 _ rfl).1⟩
      rw [hlock rfl]
      simp [Pc.critical, Delivery.critical, Site.release]
  | commitFails hfails => exact insertFails_accounted hfails rfl rfl (hlock rfl)
  | delivers hdeliver =>
      obtain ⟨hlocked, hsemaphore, hwrites⟩ := deliverStep_accounted hdeliver hlock
      exact ⟨hlocked, congrArg _ hsemaphore, hwrites, hsound⟩
  | delivered hdeliver =>
      obtain ⟨hlocked, hsemaphore, hwrites⟩ := deliverStep_accounted hdeliver hlock
      refine ⟨hlocked, ?_, fun _ => rfl, trivial⟩
      simp [Pc.running, Site.leave, hsemaphore, Nat.add_comm]
  | deliverRaises hdeliver hskip =>
      obtain ⟨hlocked, hsemaphore, hwrites⟩ := deliverStep_accounted hdeliver hlock
      obtain ⟨rfl, hended⟩ := skipAlert_not_running hskip
      obtain ⟨hcritical', hended_writes, hsound'⟩ := Pc.idle_of_not_running hended
      refine ⟨by rw [hcritical']; exact hlocked, ?_, fun _ => hended_writes, hsound'⟩
      rw [hended]
      simp [Pc.running, Site.leave, hsemaphore, Nat.add_comm]

/-- A task that is about to commit a conflict has just met it. -/
theorem taskStep_conflict {act : TaskAct} {stmt : InsertStmt}
    (h : taskStep env session now loaded alert site pc act = some (site', .committing stmt none)) :
    pc = .inserting stmt ∧
      ∃ createdAt, site.db.insert session stmt createdAt = some (site'.db, none) := by
  have hended : ∀ {site₁ : Site}, skipAlert loaded site₁ ≠ (site', .committing stmt none) := by
    intro site₁ heq
    have hended := (skipAlert_not_running heq).2
    cases hended
  generalize hpc' : Pc.committing stmt none = pc' at h
  have hmoves := taskStep_moves h
  cases hmoves with
  | @inserts stmt₁ createdAt db row hinsert =>
      cases row with
      | none =>
          cases hpc'
          exact ⟨rfl, createdAt, hinsert⟩
      | some row => cases hpc'
  | startRaises _ _ hskip => exact absurd (hpc' ▸ hskip) hended
  | planRaises _ hskip => exact absurd (hpc' ▸ hskip) hended
  | forecastRaises _ hskip => exact absurd (hpc' ▸ hskip) hended
  | insertFails hfails => exact absurd (hpc' ▸ hfails) hended
  | commitFails hfails => exact absurd (hpc' ▸ hfails) hended
  | deliverRaises _ hskip => exact absurd (hpc' ▸ hskip) hended
  | _ => cases hpc'

end Task

end FietsOfOv
