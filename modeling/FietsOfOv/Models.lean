import FietsOfOv.Lib.Table
import FietsOfOv.Scoring

/-!
# The two tables of the notifier

`app/models/trip_alert.py` and `app/models/notification.py`.  Timestamps are
the database server's clock, in microseconds.
-/

namespace FietsOfOv

open WallClock

abbrev Timestamp := Int

/-- `TripAlert`: a saved trip with its departure time and recurrence days. -/
structure TripAlert where
  id : Nat
  userId : Nat
  label : String
  origin : String
  originLat : ℚ
  originLon : ℚ
  destination : String
  destLat : ℚ
  destLon : ℚ
  departureTime : Time
  /-- ISO weekdays, a `SmallInteger` array. -/
  days : List Nat
  createdAt : Timestamp
deriving DecidableEq

/-- `Notification`: an outbox row; its departure date is an ordinal. -/
structure Notification where
  id : Nat
  tripAlertId : Nat
  userId : Nat
  recommendation : OptionKind
  reason : String
  departureDate : Int
  createdAt : Timestamp
  deliveredAt : Option Timestamp
deriving DecidableEq

namespace Notification

/-- The columns of `uq_notifications_trip_alert_departure_date`. -/
def key (n : Notification) : Nat × Int := (n.tripAlertId, n.departureDate)

/-- `.values(delivered_at=func.now())`. -/
def stamp (at_ : Timestamp) (n : Notification) : Notification := { n with deliveredAt := some at_ }

@[simp] theorem stamp_id (at_ : Timestamp) (n : Notification) : (n.stamp at_).id = n.id := rfl

@[simp] theorem stamp_key (at_ : Timestamp) (n : Notification) : (n.stamp at_).key = n.key := rfl

@[simp] theorem stamp_deliveredAt (at_ : Timestamp) (n : Notification) :
    (n.stamp at_).deliveredAt = some at_ := rfl

def schema : Transactional.Schema Notification (Nat × Int) Timestamp where
  ident := id
  key := key
  patch := stamp
  ident_patch _ _ := rfl
  key_patch _ _ := rfl

end Notification

abbrev Notifications := Transactional.Table Notification Timestamp

end FietsOfOv
