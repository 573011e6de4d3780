import FietsOfOv.Notify.Evaluate

/-!
# One worker tick

`run_due_checks` of `app/services/notify.py` with `redeliver_pending`,
`process_trip_alert` and `deliver`, as a machine that moves from one `await` to
the next.  An action says which part of the tick moves and how the statement,
the send or the upstream call that it awaits turns out.  A task may be overtaken
by the others wherever it awaits something; only the semaphore and `db_lock`
hold it back.

The ORM session expires every instance it has loaded when it rolls back, and
reading an attribute of an expired instance raises.  Instances therefore carry
the number of rollbacks at which they were loaded.
-/

namespace FietsOfOv

open WallClock

/-- What a run is observed by, besides the database. -/
inductive Event where
  /-- `process_trip_alert` committed its insert, which returned `row`. -/
  | recorded (session : Nat) (alert : TripAlert) (row : Option Notification)
  /-- A `notifier.send` came back, or raised. -/
  | sent (session : Nat) (row : Notification) (ok : Bool)
  /-- The stamp after a successful send was committed, or failed. -/
  | stamped (session : Nat) (row : Notification) (ok : Bool)
  | deliverRaised (session : Nat) (row : Notification)
deriving DecidableEq

/-- A loaded ORM instance of a notification. -/
structure Instance where
  row : Notification
  loaded : Nat
deriving DecidableEq

/-- What the tasks of one tick share besides the database session. -/
structure Loop where
  rollbacks : Nat
  semaphore : Nat
  dbLocked : Bool
deriving DecidableEq

/-- Reading an instance loaded after `loaded` rollbacks raises. -/
def Loop.expired (loop : Loop) (loaded : Nat) : Bool := loaded < loop.rollbacks

@[simp] theorem Loop.expired_eq_true {loop : Loop} {loaded : Nat} :
    loop.expired loaded = true ↔ loaded < loop.rollbacks := by
  simp [expired]

@[simp] theorem Loop.expired_eq_false {loop : Loop} {loaded : Nat} :
    loop.expired loaded = false ↔ loop.rollbacks ≤ loaded := by
  simp [expired]

/-- What one step of a tick can change outside its own program counter. -/
structure Site where
  db : Database
  log : List Event
  loop : Loop

namespace Site

def post (site : Site) (event : Event) : Site := { site with log := site.log ++ [event] }

def withDb (site : Site) (db : Database) : Site := { site with db }

/-- `await session.rollback()`. -/
def rollback (site : Site) (session : Nat) : Site :=
  { site with
    db := site.db.rollback session
    loop := { site.loop with rollbacks := site.loop.rollbacks + 1 } }

/-- Enter `async with db_lock`. -/
def acquire (site : Site) : Site := { site with loop := { site.loop with dbLocked := true } }

/-- Leave `async with db_lock`, or the null context in its place. -/
def release (site : Site) (useLock : Bool) : Site :=
  { site with loop := { site.loop with dbLocked := site.loop.dbLocked && !useLock } }

/-- Enter `async with semaphore`. -/
def enter (site : Site) : Site :=
  { site with loop := { site.loop with semaphore := site.loop.semaphore - 1 } }

/-- Leave `async with semaphore`. -/
def leave (site : Site) : Site :=
  { site with loop := { site.loop with semaphore := site.loop.semaphore + 1 } }

end Site

/-! ## `deliver` -/

/-- Where `deliver` waits. -/
inductive Delivery where
  | sending
  | locking
  | updating
  | committing (deliveredAt : Timestamp)
deriving DecidableEq

inductive DeliverAct where
  | send (ok : Bool)
  | acquire
  | update (ok : Bool) (deliveredAt : Timestamp)
  | commit (ok : Bool)
deriving DecidableEq

inductive Progress where
  | on (d : Delivery)
  | returned (ok : Bool)
  | raised
deriving DecidableEq

/-- The `except` around the stamp: roll back, and log the notification's id. -/
def stampFails (session : Nat) (useLock : Bool) (inst : Instance) (site : Site) :
    Site × Progress :=
  let site := (((site.rollback session).post (.stamped session inst.row false)).release useLock)
  if site.loop.expired inst.loaded then
    (site.post (.deliverRaised session inst.row), .raised)
  else (site, .returned false)

/-- A send is one step, at the moment the channel reads the row.  A send that reads an
    expired instance raises, and so does the log line after it. -/
def deliverStep (session : Nat) (useLock : Bool) (inst : Instance) (site : Site) :
    Delivery → DeliverAct → Option (Site × Progress)
  | .sending, .send ok =>
      if site.loop.expired inst.loaded then
        some ((site.post (.sent session inst.row false)).post (.deliverRaised session inst.row),
          .raised)
      else if ok then
        some (site.post (.sent session inst.row true),
          .on (if useLock then .locking else .updating))
      else some (site.post (.sent session inst.row false), .returned false)
  | .locking, .acquire => if site.loop.dbLocked then none else some (site.acquire, .on .updating)
  | .updating, .update ok deliveredAt =>
      if ok ∧ site.loop.expired inst.loaded = false then
        some (site.withDb (site.db.stamp session inst.row.id deliveredAt),
          .on (.committing deliveredAt))
      else some (stampFails session useLock inst site)
  | .committing _, .commit ok =>
      if ok then
        some (((site.withDb (site.db.commit session)).post
          (.stamped session inst.row true)).release useLock, .returned true)
      else some (stampFails session useLock inst site)
  | _, _ => none

/-! ## `process_trip_alert` inside `_process` -/

/-- Where the task of one alert waits, or how it ended. -/
inductive Pc where
  | queued
  | planning
  | forecasting (candidates : List Candidate)
  | locking (stmt : InsertStmt)
  | inserting (stmt : InsertStmt)
  | committing (stmt : InsertStmt) (notification : Option Instance)
  | delivering (inst : Instance) (d : Delivery)
  | finished (result : Option Notification)
  | raised
deriving DecidableEq

inductive TaskAct where
  | start
  | plan (answer : Except PlanError (List Candidate))
  | forecast (answer : Except Unit (Option RainForecast))
  | acquire
  | insert (ok : Bool) (createdAt : Timestamp)
  | commit (ok : Bool)
  | deliver (act : DeliverAct)

/-- `_process` returns. -/
def finish (site : Site) (result : Option Notification) : Site × Pc :=
  (site.leave, .finished result)

/-- The `except` of `_process`: its log line reads the alert's id. -/
def skipAlert (loaded : Nat) (site : Site) : Site × Pc :=
  (site.leave, if site.loop.expired loaded then .raised else .finished none)

/-- The `except` around the insert: roll back and raise. -/
def insertFails (session loaded : Nat) (site : Site) : Site × Pc :=
  skipAlert loaded ((site.rollback session).release true)

/-- What follows the forecast: the guards of `process_trip_alert`. -/
def decideStep (now : DateTime) (loaded : Nat) (alert : TripAlert) (site : Site) :
    Option AdviceResponse → Site × Pc
  | none => skipAlert loaded site
  | some advice =>
      if advice.forecastDegraded then
        if site.loop.expired loaded then skipAlert loaded site else finish site none
      else if advice.rainExpected ≠ some true then finish site none
      else if site.loop.expired loaded then skipAlert loaded site
      else (site, .locking (insertStmt alert now advice))

def taskStep (env : Env) (session : Nat) (now : DateTime) (loaded : Nat) (alert : TripAlert)
    (site : Site) : Pc → TaskAct → Option (Site × Pc)
  | .queued, .start =>
      if site.loop.semaphore = 0 then none
      else if site.loop.expired loaded then some (skipAlert loaded site.enter)
      else some (site.enter, .planning)
  | .planning, .plan answer =>
      match answer with
      | .error .otpError => some (finish site none)
      | .error .other => some (skipAlert loaded site)
      | .ok candidates =>
          if !hasBike candidates then some (finish site none)
          else if site.loop.expired loaded then some (skipAlert loaded site)
          else some (site, .forecasting candidates)
  | .forecasting candidates, .forecast answer =>
      match answer with
      | .error _ => some (skipAlert loaded site)
      | .ok rain => some (decideStep now loaded alert site (assess env candidates rain))
  | .locking stmt, .acquire =>
      if site.loop.dbLocked then none else some (site.acquire, .inserting stmt)
  | .inserting stmt, .insert ok createdAt =>
      if ok then
        (site.db.insert session stmt createdAt).map fun (db, row) =>
          (site.withDb db, .committing stmt (row.map (⟨·, site.loop.rollbacks⟩)))
      else some (insertFails session loaded site)
  | .committing _ notification, .commit ok =>
      if ok then
        let site := ((site.withDb (site.db.commit session)).post
          (.recorded session alert (notification.map (·.row)))).release true
        match notification with
        | none => some (finish site none)
        | some inst => some (site, .delivering inst .sending)
      else some (insertFails session loaded site)
  | .delivering inst d, .deliver act =>
      (deliverStep session true inst site d act).map fun (site, progress) =>
        match progress with
        | .on d => (site, .delivering inst d)
        | .returned _ => finish site (some inst.row)
        | .raised => skipAlert loaded site
  | _, _ => none

/-! ## `run_due_checks` -/

structure Task where
  alert : TripAlert
  pc : Pc
deriving DecidableEq

/-- Where `run_due_checks` itself waits. -/
inductive Stage where
  | selectingPending
  | redelivering (inst : Instance) (d : Delivery) (rest : List Instance)
  | selectingDue
  | sweeping
deriving DecidableEq

/-- A tick with its clock reading; its number is also that of its session. -/
structure Tick where
  now : DateTime
  leadMinutes : Nat
  alive : Bool
  stage : Stage
  /-- The rollbacks at which the due alerts were loaded. -/
  loaded : Nat
  tasks : List Task
  loop : Loop
  /-- What `run_due_checks` returned, or that it raised. -/
  outcome : Option (Except Unit (List Notification))

/-- A tick that has just opened its session. -/
def Tick.opened (now : DateTime) (leadMinutes : Nat) : Tick where
  now := now
  leadMinutes := leadMinutes
  alive := true
  stage := .selectingPending
  loaded := 0
  tasks := []
  loop := ⟨0, 4, false⟩
  outcome := none

inductive TickAct where
  | selectPending (ok : Bool)
  | redeliver (act : DeliverAct)
  | selectDue (ok : Bool)
  | task (i : Nat) (act : TaskAct)
  | gather
  | die

/-- The loop of `redeliver_pending` takes the next row. -/
def nextRedelivery : List Instance → Stage
  | [] => .selectingDue
  | inst :: rest => .redelivering inst .sending rest

/-- The rows a delivery is about to send. -/
def Delivery.waiting (inst : Instance) : Delivery → List Notification
  | .sending => [inst.row]
  | _ => []

/-- The rows a delivery has sent and not stamped yet. -/
def Delivery.unstamped (inst : Instance) : Delivery → List Notification
  | .sending => []
  | _ => [inst.row]

def Pc.waiting : Pc → List Notification
  | .delivering inst d => d.waiting inst
  | _ => []

def Pc.unstamped : Pc → List Notification
  | .delivering inst d => d.unstamped inst
  | _ => []

def Stage.waiting : Stage → List Notification
  | .redelivering inst d rest => d.waiting inst ++ rest.map (·.row)
  | _ => []

def Stage.unstamped : Stage → List Notification
  | .redelivering inst d _ => d.unstamped inst
  | _ => []

/-- The rows this tick will still try to send. -/
def Tick.waiting (tick : Tick) : List Notification :=
  if tick.alive then tick.stage.waiting ++ tick.tasks.flatMap (·.pc.waiting) else []

/-- The rows this tick has sent and not stamped yet. -/
def Tick.unstamped (tick : Tick) : List Notification :=
  if tick.alive then tick.stage.unstamped ++ tick.tasks.flatMap (·.pc.unstamped) else []

/-- A task's entry in the list that `run_due_checks` returns. -/
def Pc.result : Pc → Option Notification
  | .finished result => result
  | _ => none

def Pc.isFinished : Pc → Bool
  | .finished _ => true
  | _ => false

/-- One tick and the world it acts on. -/
structure TickState where
  db : Database
  log : List Event
  tick : Tick

namespace TickState

def site (s : TickState) : Site := ⟨s.db, s.log, s.tick.loop⟩

/-- The tick moves on to another stage. -/
def atStage (s : TickState) (site : Site) (stage : Stage) : TickState :=
  ⟨site.db, site.log, { s.tick with loop := site.loop, stage }⟩

/-- One task moves. -/
def setTask (s : TickState) (i : Nat) (alert : TripAlert) (site : Site) (pc : Pc) : TickState :=
  ⟨site.db, site.log, { s.tick with loop := site.loop, tasks := s.tick.tasks.set i ⟨alert, pc⟩ }⟩

/-- The sweep starts with one task for each due alert. -/
def startSweep (s : TickState) : TickState :=
  { s with tick := { s.tick with
    stage := .sweeping
    loaded := s.tick.loop.rollbacks
    tasks := (dueTripAlerts s.db.tripAlerts s.tick.now s.tick.leadMinutes).map (⟨·, .queued⟩) } }

def finishWith (s : TickState) (outcome : Except Unit (List Notification)) : TickState :=
  { s with tick := { s.tick with outcome := some outcome } }

/-- The process is gone: the server rolls the open transaction back, and no stamp
    will follow the sends that still wait for one. -/
def dies (s : TickState) (session : Nat) : TickState :=
  ⟨s.db.rollback session, s.log ++ s.tick.unstamped.map (.stamped session · false),
    { s.tick with alive := false }⟩

end TickState

def tickStep (env : Env) (session : Nat) (s : TickState) (act : TickAct) : Option TickState :=
  if s.tick.alive then
    match s.tick.stage, act with
    | _, .die => some (s.dies session)
    | .selectingPending, .selectPending ok =>
        if ok then
          let pending := s.db.pending s.tick.now.date maxRedeliveriesPerTick
          some (s.atStage s.site (nextRedelivery (pending.map (⟨·, s.tick.loop.rollbacks⟩))))
        else some (s.atStage (s.site.rollback session) .selectingDue)
    | .redelivering inst d rest, .redeliver act =>
        (deliverStep session false inst s.site d act).map fun (site, progress) =>
          match progress with
          | .on d => s.atStage site (.redelivering inst d rest)
          | .returned _ => s.atStage site (nextRedelivery rest)
          | .raised => s.atStage (site.rollback session) .selectingDue
    | .selectingDue, .selectDue ok =>
        if s.tick.outcome.isSome then none
        else if ok then some s.startSweep
        else some (s.finishWith (.error ()))
    | .sweeping, .task i act =>
        s.tick.tasks[i]?.bind fun task =>
          (taskStep env session s.tick.now s.tick.loaded task.alert s.site task.pc act).map
            fun (site, pc) => s.setTask i task.alert site pc
    | .sweeping, .gather =>
        -- `asyncio.gather` raises with the first task that does, and leaves the others running
        if s.tick.outcome.isSome then none
        else if s.tick.tasks.any (·.pc = .raised) then some (s.finishWith (.error ()))
        else if s.tick.tasks.all (·.pc.isFinished) then
          some (s.finishWith (.ok (s.tick.tasks.filterMap (·.pc.result))))
        else none
    | _, _ => none
  else none

end FietsOfOv
