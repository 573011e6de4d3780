import FietsOfOv.Notify.Due

/-!
# The notifier's database

The statements that `app/services/notify.py` and the trip-alert API execute.
A foreign key ties every notification to its trip alert: an insert for a deleted
alert fails, and deleting an alert drops its notifications.
-/

namespace FietsOfOv

open WallClock Transactional

abbrev Write := Transactional.Write Notification Timestamp

structure Database where
  tripAlerts : List TripAlert
  notifications : Notifications

/-- The values of the `INSERT` of `process_trip_alert`. -/
structure InsertStmt where
  tripAlertId : Nat
  userId : Nat
  recommendation : OptionKind
  reason : String
  departureDate : Int
deriving DecidableEq

/-- The row the statement makes; `delivered_at` starts out `NULL`. -/
def InsertStmt.row (stmt : InsertStmt) (createdAt : Timestamp) (id : Nat) : Notification where
  id := id
  tripAlertId := stmt.tripAlertId
  userId := stmt.userId
  recommendation := stmt.recommendation
  reason := stmt.reason
  departureDate := stmt.departureDate
  createdAt := createdAt
  deliveredAt := none

def InsertStmt.key (stmt : InsertStmt) : Nat × Int := (stmt.tripAlertId, stmt.departureDate)

/-- `MAX_REDELIVERIES_PER_TICK`. -/
def maxRedeliveriesPerTick : Nat := 50

namespace Database

/-- The committed rows of `notifications`. -/
def rows (db : Database) : List Notification := db.notifications.rows

/-- The writes of a session's open transaction. -/
def openOf (db : Database) (session : Nat) : List Write := db.notifications.openOf session

def hasAlert (db : Database) (alertId : Nat) : Bool := db.tripAlerts.any (·.id = alertId)

/-- `insert(Notification)…on_conflict_do_nothing(…).returning(Notification)`, run at
    database time `createdAt`.  `none` is a statement that cannot return: it waits
    for another session, or its trip alert is gone. -/
def insert (db : Database) (session : Nat) (stmt : InsertStmt) (createdAt : Timestamp) :
    Option (Database × Option Notification) :=
  match db.notifications.insertOnConflictDoNothing Notification.schema session
      (stmt.row createdAt) with
  | none => none
  | some (notifications, none) => some ({ db with notifications }, none)
  | some (notifications, some row) =>
      if db.hasAlert stmt.tripAlertId then some ({ db with notifications }, some row) else none

/-- `update(Notification).where(Notification.id == id).values(delivered_at=func.now())`. -/
def stamp (db : Database) (session id : Nat) (deliveredAt : Timestamp) : Database :=
  { db with notifications := db.notifications.update session id deliveredAt }

def commit (db : Database) (session : Nat) : Database :=
  { db with notifications := db.notifications.commit Notification.schema session }

def rollback (db : Database) (session : Nat) : Database :=
  { db with notifications := db.notifications.rollback session }

/-- What `redeliver_pending` selects before its limit. -/
def undelivered (db : Database) (today : Int) : List Notification :=
  db.rows.filter fun n => n.deliveredAt = none ∧ today ≤ n.departureDate

/-- The query of `redeliver_pending`: oldest first, up to the limit. -/
def pending (db : Database) (today : Int) (limit : Nat) : List Notification :=
  ((db.undelivered today).insertionSort fun m n => m.createdAt ≤ n.createdAt).take limit

/-- The API stores a new trip alert. -/
def createAlert (db : Database) (alert : TripAlert) : Database :=
  { db with tripAlerts := db.tripAlerts ++ [alert] }

/-- The API deletes a trip alert, and its notifications with it.  The statement
    waits for a transaction that has inserted a notification of the alert. -/
def deleteAlert (db : Database) (alertId : Nat) : Option Database :=
  if db.notifications.pendingRows.any (·.tripAlertId = alertId) then none
  else some {
    tripAlerts := db.tripAlerts.filter (·.id ≠ alertId)
    notifications := db.notifications.delete (·.tripAlertId = alertId) }

theorem mem_undelivered {db : Database} {today : Int} {n : Notification} :
    n ∈ db.undelivered today ↔ n ∈ db.rows ∧ n.deliveredAt = none ∧ today ≤ n.departureDate := by
  simp [undelivered]

theorem mem_undelivered_of_mem_pending {db : Database} {today : Int} {limit : Nat}
    {n : Notification} (h : n ∈ db.pending today limit) : n ∈ db.undelivered today :=
  (List.perm_insertionSort _ _).subset (List.mem_of_mem_take h)

theorem pending_ids_nodup {db : Database}
    (h : db.notifications.WellKeyed Notification.schema) (today : Int) (limit : Nat) :
    ((db.pending today limit).map (·.id)).Nodup := by
  have hrows : (db.rows.map (·.id)).Nodup :=
    h.idents.sublist ((List.sublist_append_left _ _).map _)
  have hundelivered : ((db.undelivered today).map (·.id)).Nodup :=
    hrows.sublist (List.filter_sublist.map _)
  have hsorted := ((List.perm_insertionSort (fun m n : Notification => m.createdAt ≤ n.createdAt)
    (db.undelivered today)).map (·.id)).nodup_iff.mpr hundelivered
  exact hsorted.sublist ((List.take_sublist _ _).map _)

theorem hasAlert_iff {db : Database} {alertId : Nat} :
    db.hasAlert alertId = true ↔ ∃ alert ∈ db.tripAlerts, alert.id = alertId := by
  simp [hasAlert]

/-! ## What the statements leave alone -/

@[simp] theorem rows_stamp (db : Database) (session id : Nat) (t : Timestamp) :
    (db.stamp session id t).rows = db.rows := rfl

@[simp] theorem pendingRows_stamp (db : Database) (session id : Nat) (t : Timestamp) :
    (db.stamp session id t).notifications.pendingRows = db.notifications.pendingRows := by
  simp [stamp, Table.pendingRows, Table.update, Write.row?]

@[simp] theorem openOf_rollback_self (db : Database) (session : Nat) :
    (db.rollback session).openOf session = [] := Table.openOf_rollback_self _ _

@[simp] theorem openOf_commit_self (db : Database) (session : Nat) :
    (db.commit session).openOf session = [] := Table.openOf_commit_self _ _ _

theorem openOf_stamp_self (db : Database) (session id : Nat) (t : Timestamp) :
    (db.stamp session id t).openOf session = db.openOf session ++ [.update id t] := by
  simp [openOf, stamp]

theorem openOf_stamp_other (db : Database) {session other : Nat} (id : Nat) (t : Timestamp)
    (h : session ≠ other) : (db.stamp session id t).openOf other = db.openOf other := by
  simp [openOf, stamp, h]

theorem openOf_rollback_other (db : Database) {session other : Nat} (h : session ≠ other) :
    (db.rollback session).openOf other = db.openOf other :=
  Table.openOf_rollback_other _ h

theorem openOf_commit_other (db : Database) {session other : Nat} (h : session ≠ other) :
    (db.commit session).openOf other = db.openOf other :=
  Table.openOf_commit_other _ _ h

/-! ## What the three transactions of the notifier commit -/

theorem rows_commit_nil {db : Database} {session : Nat} (h : db.openOf session = []) :
    (db.commit session).rows = db.rows :=
  Table.rows_commit_nil _ h

theorem rows_commit_insert {db : Database} {session : Nat} {row : Notification}
    (h : db.openOf session = [.insert row]) : (db.commit session).rows = db.rows ++ [row] :=
  Table.rows_commit_insert _ h

theorem rows_commit_stamp {db : Database} {session id : Nat} {t : Timestamp}
    (h : db.openOf session = [.update id t]) :
    (db.commit session).rows = db.rows.map fun n => if n.id = id then n.stamp t else n :=
  Table.rows_commit_update _ h

/-- The two ways an insert can go through. -/
theorem insert_cases {db db' : Database} {session : Nat} {stmt : InsertStmt} {t : Timestamp}
    {result : Option Notification} (h : db.insert session stmt t = some (db', result)) :
    db'.tripAlerts = db.tripAlerts ∧ db'.rows = db.rows ∧
    db'.notifications.nextId = db.notifications.nextId + 1 ∧
    (∀ other, session ≠ other → db'.openOf other = db.openOf other) ∧
    ((result = none ∧ db'.openOf session = db.openOf session ∧
        db'.notifications.pendingRows = db.notifications.pendingRows ∧
        ((∃ n ∈ db.rows, n.key = stmt.key) ∨
          ∃ n, .insert n ∈ db.openOf session ∧ n.key = stmt.key)) ∨
      ∃ row, result = some row ∧ row = stmt.row t db.notifications.nextId ∧
        db'.openOf session = db.openOf session ++ [.insert row] ∧
        db'.notifications.pendingRows = db.notifications.pendingRows ++ [row] ∧
        db.hasAlert stmt.tripAlertId = true ∧ ∀ n ∈ db.rows, n.key ≠ stmt.key) := by
  unfold insert at h
  split at h
  · cases h
  · rename_i notifications hinsert
    rcases Table.insert_cases _ hinsert with ⟨_, rfl, htaken⟩ | ⟨hsome, _⟩
    · cases h
      refine ⟨rfl, rfl, rfl, fun _ _ => rfl, Or.inl ⟨rfl, rfl, rfl, ?_⟩⟩
      rcases (Table.taken_eq_true _).mp htaken with hrow | ⟨n, hn, hkey⟩
      · exact Or.inl hrow
      · exact Or.inr ⟨n, Table.mem_openOf.mpr hn, hkey⟩
    · cases hsome
  · rename_i notifications row hinsert
    rcases Table.insert_cases _ hinsert with ⟨hnone, _⟩ | ⟨hsome, rfl, _, htaken⟩
    · cases hnone
    · cases hsome
      split at h
      · rename_i hfk
        cases h
        refine ⟨rfl, rfl, rfl, fun other hne => ?_, Or.inr ⟨_, rfl, rfl, ?_, ?_, hfk, ?_⟩⟩
        · simp [openOf, Table.openOf_insert, hne]
        · simp [openOf, Table.openOf_insert]
        · simp [Table.pendingRows, Write.row?]
        · intro n hn hkey
          have htrue : db.notifications.taken Notification.schema session stmt.key = true :=
            (Table.taken_eq_true _).mpr (Or.inl ⟨n, hn, hkey⟩)
          cases htrue.symm.trans htaken
      · cases h

/-- The insert of a key that nobody holds, for an alert that is there. -/
theorem insert_new {db : Database} {session : Nat} {stmt : InsertStmt} (t : Timestamp)
    (halert : db.hasAlert stmt.tripAlertId = true) (hrows : ∀ n ∈ db.rows, n.key ≠ stmt.key)
    (hopen : db.openOf session = [])
    (hblocked : db.notifications.blocked Notification.schema session stmt.key = false) :
    ∃ db', db.insert session stmt t = some (db', some (stmt.row t db.notifications.nextId)) ∧
      db'.rows = db.rows ∧ db'.openOf session = [.insert (stmt.row t db.notifications.nextId)] := by
  obtain ⟨notifications, hinsert, hsame, hwrites⟩ :=
    @Table.insert_new _ _ _ Notification.schema _ db.notifications session (stmt.row t) hrows hopen
      hblocked
  refine ⟨{ db with notifications }, ?_, hsame, hwrites⟩
  simp only [insert, hinsert, halert, if_true]

/-- An insert for an alert that is there goes through unless another session holds its key. -/
theorem insert_isSome {db : Database} {session : Nat} {stmt : InsertStmt} (t : Timestamp)
    (halert : db.hasAlert stmt.tripAlertId = true)
    (hblocked : db.notifications.blocked Notification.schema session stmt.key = false) :
    (db.insert session stmt t).isSome = true := by
  obtain ⟨notifications, result, hinsert⟩ := @Table.insert_isSome _ _ _ Notification.schema _
    db.notifications session (stmt.row t) hblocked
  cases result <;> simp [insert, hinsert, halert]

theorem insert_wellKeyed {db db' : Database} {session : Nat} {stmt : InsertStmt} {t : Timestamp}
    {result : Option Notification} (h : db.notifications.WellKeyed Notification.schema)
    (hinsert : db.insert session stmt t = some (db', result)) :
    db'.notifications.WellKeyed Notification.schema := by
  unfold insert at hinsert
  split at hinsert
  · cases hinsert
  · rename_i notifications heq
    cases hinsert
    exact h.insert (fun _ => rfl) heq
  · rename_i notifications row heq
    split at hinsert
    · cases hinsert
      exact h.insert (fun _ => rfl) heq
    · cases hinsert

end Database

end FietsOfOv
