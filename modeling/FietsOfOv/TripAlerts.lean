import FietsOfOv.Lib.OwnedRows
import FietsOfOv.Lib.Text
import FietsOfOv.Models

/-!
# Saved trips

`app/api/trip_alerts.py` over the `trip_alerts` table: a user creates, lists and deletes
saved trips.  Authentication names the user of a request; what the geocoder comes to, and
the number and the timestamp the database gives a new row, are inputs of the request.
-/

namespace FietsOfOv

open OwnedRows WallClock

/-! ## Requests and answers -/

/-- The body of a create request as it is decoded. -/
structure TripAlertBody where
  label : String
  origin : String
  destination : String
  departureTime : Time
  tzinfo : Option Int
  days : List Int

/-- `TripAlertCreate`: a body that passed validation. -/
structure TripAlertCreate where
  label : String
  origin : String
  destination : String
  departureTime : Time
  days : List Nat

/-- `Field(min_length=1, max_length=…)` and `_strip_nonblank`. -/
def stripNonblank (maxLength : Nat) (value : String) : Option String :=
  let stripped := Text.strip value.toList
  if 1 ≤ value.length ∧ value.length ≤ maxLength ∧ stripped ≠ [] then some (String.ofList stripped)
  else none

/-- `_naive_local_time`. -/
def naiveLocalTime (value : Time) : Option Int → Option Time
  | none => some value
  | some _ => none

/-- `_validate_days`. -/
def validateDays (days : List Int) : Option (List Nat) :=
  if days = [] then none
  else if 7 < days.length then none
  else if days.any fun day => day < 1 ∨ 7 < day then none
  else some ((days.map Int.toNat).dedup.insertionSort (· ≤ ·))

def TripAlertBody.validate (body : TripAlertBody) : Option TripAlertCreate := do
  let label ← stripNonblank 100 body.label
  let origin ← stripNonblank 200 body.origin
  let destination ← stripNonblank 200 body.destination
  let departureTime ← naiveLocalTime body.departureTime body.tzinfo
  let days ← validateDays body.days
  return { label, origin, destination, departureTime, days }

/-- What `resolve_place` comes to; `raises` is an exception that nothing maps to a status,
    such as the `OverflowError` of a coordinate that is too large an integer. -/
inductive Geocoded where
  | found (lat lon : ℚ)
  | notFound
  | unavailable
  | raises

/-- An answer that changes nothing: a body or path that is rejected, or an
    `HTTPException`. -/
inductive Refusal where
  | unprocessable
  | http (status : Nat) (detail : String)
deriving DecidableEq

/-- The columns of a saved trip that come from its request. -/
structure SavedTrip where
  label : String
  origin : String
  originLat : ℚ
  originLon : ℚ
  destination : String
  destLat : ℚ
  destLon : ℚ
  departureTime : Time
  days : List Nat
deriving DecidableEq

/-- `TripAlertOut`. -/
structure TripAlertOut where
  id : Nat
  label : String
  origin : String
  originLat : ℚ
  originLon : ℚ
  destination : String
  destLat : ℚ
  destLon : ℚ
  departureTime : Time
  days : List Nat
  createdAt : Timestamp
deriving DecidableEq

def TripAlert.out (row : TripAlert) : TripAlertOut :=
  { id := row.id, label := row.label, origin := row.origin, originLat := row.originLat,
    originLon := row.originLon, destination := row.destination, destLat := row.destLat,
    destLon := row.destLon, departureTime := row.departureTime, days := row.days,
    createdAt := row.createdAt }

def TripAlertOut.saved (out : TripAlertOut) : SavedTrip :=
  { label := out.label, origin := out.origin, originLat := out.originLat,
    originLon := out.originLon, destination := out.destination, destLat := out.destLat,
    destLon := out.destLon, departureTime := out.departureTime, days := out.days }

def SavedTrip.row (trip : SavedTrip) (id userId : Nat) (createdAt : Timestamp) : TripAlert :=
  { id, userId, label := trip.label, origin := trip.origin, originLat := trip.originLat,
    originLon := trip.originLon, destination := trip.destination, destLat := trip.destLat,
    destLon := trip.destLon, departureTime := trip.departureTime, days := trip.days, createdAt }

/-- The database's part in a create request: how many numbers it passes over, and its
    clock. -/
structure Insertion where
  skipped : Nat
  createdAt : Timestamp

inductive TripAlertRequest where
  | create (body : TripAlertBody) (origin destination : Geocoded) (insertion : Insertion)
  | list
  | delete (alertId : Int)

/-- A request with the user its token names. -/
structure TripAlertCall where
  user : Nat
  request : TripAlertRequest

inductive TripAlertAnswer where
  | created (out : TripAlertOut)
  | listed (outs : List TripAlertOut)
  | deleted
  | refused (refusal : Refusal)
deriving DecidableEq

abbrev TripAlertTable := OwnedRows.Table TripAlert

/-! ## The three routes -/

section Routes

-- Python's `repr` of a string, which stands in one of the error texts
variable (repr : String → String)

/-- `resolve_place_http`. -/
def resolvePlaceHttp (value : String) : Geocoded → Except Refusal (ℚ × ℚ)
  | .found lat lon => .ok (lat, lon)
  | .notFound => .error (.http 400 ("could not find a place named " ++ repr value))
  | .unavailable => .error (.http 502 "geocoding upstream unavailable")
  | .raises => .error (.http 500 "Internal Server Error")

/-- `create_trip_alert` up to the insertion. -/
def requestedTrip (body : TripAlertBody) (origin destination : Geocoded) :
    Except Refusal SavedTrip :=
  match body.validate with
  | none => .error .unprocessable
  | some body => do
      let (originLat, originLon) ← resolvePlaceHttp repr body.origin origin
      let (destLat, destLon) ← resolvePlaceHttp repr body.destination destination
      return { label := body.label, origin := body.origin, originLat, originLon,
               destination := body.destination, destLat, destLon,
               departureTime := body.departureTime, days := body.days }

/-- `create_trip_alert`. -/
def createTripAlert (t : TripAlertTable) (user : Nat) (body : TripAlertBody)
    (origin destination : Geocoded) (insertion : Insertion) : TripAlertTable × TripAlertAnswer :=
  match requestedTrip repr body origin destination with
  | .ok trip =>
      let row := trip.row (t.lastId + insertion.skipped + 1) user insertion.createdAt
      (⟨t.rows ++ [row], row.id⟩, .created row.out)
  | .error refusal => (t, .refused refusal)

/-- `list_trip_alerts`. -/
def listTripAlerts (t : TripAlertTable) (user : Nat) : List TripAlertOut :=
  (newestFirst (·.id) (·.userId) t.rows user).map TripAlert.out

/-- `delete_trip_alert`; `scalar_one_or_none` raises where several rows match. -/
def deleteTripAlert (t : TripAlertTable) (user : Nat) (alertId : Int) :
    TripAlertTable × TripAlertAnswer :=
  if 1 ≤ alertId ∧ alertId ≤ 2147483647 then
    match matching (·.id) (·.userId) t.rows alertId.toNat user with
    | [] => (t, .refused (.http 404 "trip alert not found"))
    | [row] => (⟨remove (·.id) t.rows row.id, t.lastId⟩, .deleted)
    | _ => (t, .refused (.http 500 "Internal Server Error"))
  else (t, .refused .unprocessable)

def TripAlertCall.serve (t : TripAlertTable) (call : TripAlertCall) :
    TripAlertTable × TripAlertAnswer :=
  match call.request with
  | .create body origin destination insertion =>
      createTripAlert repr t call.user body origin destination insertion
  | .list => (t, .listed (listTripAlerts t call.user))
  | .delete alertId => deleteTripAlert t call.user alertId

/-- The table after a sequence of requests. -/
def tripAlertsAfter (calls : List TripAlertCall) : TripAlertTable :=
  calls.foldl (fun t call => (call.serve repr t).1) ⟨[], 0⟩

/-- A row number in a request lies in the accepted range. -/
def TripAlertCall.InRange (call : TripAlertCall) : Prop :=
  ∀ alertId, call.request = .delete alertId → 1 ≤ alertId ∧ alertId ≤ 2147483647

/-! ## What one user sees

A user knows a row by the create request that made it: the name of a row is the number of
rows the user had made before. -/

/-- The name of a row among the rows a user made, in the order they were made. -/
def nameIn (made : List Nat) (id : Nat) : Option Nat :=
  if id ∈ made then some (made.idxOf id) else none

inductive SeenRequest where
  | create (body : TripAlertBody) (origin destination : Geocoded)
  | list
  | delete (name : Option Nat)

inductive SeenAnswer where
  | created (name : Option Nat) (trip : SavedTrip)
  | listed (trips : List (Option Nat × SavedTrip))
  | deleted
  | refused (refusal : Refusal)
deriving DecidableEq

/-- A request of a user, its row number read as the live row of the user it denotes. -/
def TripAlertRequest.seen (t : TripAlertTable) (user : Nat) (made : List Nat) :
    TripAlertRequest → SeenRequest
  | .create body origin destination _ => .create body origin destination
  | .list => .list
  | .delete alertId =>
      .delete
        (if alertId ∈ (rowsOf (·.userId) t.rows user).map fun row : TripAlert => (row.id : Int)
        then nameIn made alertId.toNat else none)

def TripAlertOut.seen (made : List Nat) (out : TripAlertOut) : Option Nat × SavedTrip :=
  (nameIn made out.id, out.saved)

def TripAlertAnswer.seen (made : List Nat) : TripAlertAnswer → SeenAnswer
  | .created out => .created (nameIn made out.id) out.saved
  | .listed outs => .listed (outs.map (TripAlertOut.seen made))
  | .deleted => .deleted
  | .refused refusal => .refused refusal

/-- The rows an answer says were made. -/
def TripAlertAnswer.made : TripAlertAnswer → List Nat
  | .created out => [out.id]
  | _ => []

/-- The requests of one user in a run with their answers, as that user sees them. -/
def exchanges (user : Nat) (t : TripAlertTable) (made : List Nat) :
    List TripAlertCall → List (SeenRequest × SeenAnswer)
  | [] => []
  | call :: calls =>
      let served := call.serve repr t
      if call.user = user then
        (call.request.seen t user made, served.2.seen (made ++ served.2.made)) ::
          exchanges user served.1 (made ++ served.2.made) calls
      else exchanges user served.1 made calls

def seenRequests (user : Nat) (calls : List TripAlertCall) : List SeenRequest :=
  (exchanges repr user ⟨[], 0⟩ [] calls).map (·.1)

def seenAnswers (user : Nat) (calls : List TripAlertCall) : List SeenAnswer :=
  (exchanges repr user ⟨[], 0⟩ [] calls).map (·.2)

/-! ## A notebook of one's own

What the routes are for: each user keeps trips as in a notebook nobody else writes in. -/

structure Notebook where
  made : Nat
  entries : List (Nat × SavedTrip)

def Notebook.serve (n : Notebook) : SeenRequest → Notebook × SeenAnswer
  | .create body origin destination =>
      match requestedTrip repr body origin destination with
      | .ok trip => (⟨n.made + 1, n.entries ++ [(n.made, trip)]⟩, .created (some n.made) trip)
      | .error refusal => (n, .refused refusal)
  | .list => (n, .listed (n.entries.reverse.map fun entry => (some entry.1, entry.2)))
  | .delete name =>
      if name ∈ n.entries.map fun entry => some entry.1 then
        (⟨n.made, n.entries.filter fun entry => some entry.1 ≠ name⟩, .deleted)
      else (n, .refused (.http 404 "trip alert not found"))

def Notebook.answers (n : Notebook) : List SeenRequest → List SeenAnswer
  | [] => []
  | request :: requests => (n.serve repr request).2 :: (n.serve repr request).1.answers requests

/-- A user's rows are the entries of a notebook. -/
structure Notebook.Keeps (n : Notebook) (t : TripAlertTable) (user : Nat) (made : List Nat) :
    Prop where
  count : n.made = made.length
  entries : n.entries =
    (rowsOf (·.userId) t.rows user).map fun row => (made.idxOf row.id, row.out.saved)
  known : ∀ row ∈ rowsOf (·.userId) t.rows user, row.id ∈ made
  handedOut : ∀ id ∈ made, id ≤ t.lastId

variable {t : TripAlertTable} {user : Nat} {made : List Nat} {n : Notebook}

/-! ### One request -/

theorem nameIn_of_mem {id : Nat} (h : id ∈ made) : nameIn made id = some (made.idxOf id) :=
  if_pos h

/-- No two rows have one name. -/
theorem nameIn_inj {id id' : Nat} (hid : id ∈ made) (hid' : id' ∈ made)
    (heq : nameIn made id = nameIn made id') : id = id' := by
  rw [nameIn_of_mem hid, nameIn_of_mem hid', Option.some.injEq] at heq
  exact (List.idxOf_inj hid).mp heq

theorem createTripAlert_cases (t : TripAlertTable) (user : Nat) (body : TripAlertBody)
    (origin destination : Geocoded) (insertion : Insertion) :
    (∃ trip, requestedTrip repr body origin destination = .ok trip ∧
      createTripAlert repr t user body origin destination insertion =
        (let row := trip.row (t.lastId + insertion.skipped + 1) user insertion.createdAt
        (⟨t.rows ++ [row], row.id⟩, .created row.out))) ∨
    ∃ refusal, requestedTrip repr body origin destination = .error refusal ∧
      createTripAlert repr t user body origin destination insertion = (t, .refused refusal) := by
  rw [createTripAlert]
  cases requestedTrip repr body origin destination with
  | ok trip => exact Or.inl ⟨trip, rfl, rfl⟩
  | error refusal => exact Or.inr ⟨refusal, rfl, rfl⟩

/-- A live row of the caller is deleted. -/
theorem deleteTripAlert_of_mem (hserial : Serial (·.id) t) {row : TripAlert}
    (hrow : row ∈ rowsOf (·.userId) t.rows user) (hrange : 1 ≤ row.id ∧ row.id ≤ 2147483647) :
    deleteTripAlert t user row.id = (⟨remove (·.id) t.rows row.id, t.lastId⟩, .deleted) := by
  obtain ⟨hmem, hown⟩ := mem_rowsOf.mp hrow
  have hmatch : matching (·.id) (·.userId) t.rows (row.id : Int).toNat user = [row] :=
    hserial.matching_eq_singleton hmem rfl hown
  rw [deleteTripAlert, if_pos (by omega), hmatch]

/-- Any other number is answered as if nothing had that number. -/
theorem deleteTripAlert_of_notMem {alertId : Int}
    (hnone : ∀ row ∈ rowsOf (·.userId) t.rows user, (row.id : Int) ≠ alertId)
    (hrange : 1 ≤ alertId ∧ alertId ≤ 2147483647) :
    deleteTripAlert t user alertId = (t, .refused (.http 404 "trip alert not found")) := by
  have hmatch : matching (·.id) (·.userId) t.rows alertId.toNat user = [] := by
    rw [List.eq_nil_iff_forall_not_mem]
    intro row hrow
    obtain ⟨hmem, hid, hown⟩ := mem_matching.mp hrow
    exact hnone row (mem_rowsOf.mpr ⟨hmem, hown⟩) (by omega)
  rw [deleteTripAlert, if_pos hrange, hmatch]

/-- What a request leaves of the table: all of it, one more row of the caller, or all but
    one row of the caller. -/
theorem serve_cases (t : TripAlertTable) (call : TripAlertCall) :
    (call.serve repr t).1 = t ∨
    (∃ row : TripAlert, row.userId = call.user ∧ t.lastId < row.id ∧
      (call.serve repr t).1 = ⟨t.rows ++ [row], row.id⟩) ∨
    ∃ row ∈ rowsOf (·.userId) t.rows call.user,
      (call.serve repr t).1 = ⟨remove (·.id) t.rows row.id, t.lastId⟩ := by
  rw [TripAlertCall.serve]
  cases call.request with
  | create body origin destination insertion =>
      rcases createTripAlert_cases repr t call.user body origin destination insertion with
        ⟨trip, -, hcreate⟩ | ⟨refusal, -, hcreate⟩
      · refine Or.inr (Or.inl ⟨_, rfl, ?_, congrArg (·.1) hcreate⟩)
        exact Nat.lt_succ_of_le (Nat.le_add_right _ _)
      · exact Or.inl (congrArg (·.1) hcreate)
  | list => exact Or.inl rfl
  | delete alertId =>
      simp only [deleteTripAlert]
      split
      · split
        · exact Or.inl rfl
        · rename_i row hmatch
          have hrow : row ∈ matching (·.id) (·.userId) t.rows alertId.toNat call.user := by
            simp [hmatch]
          obtain ⟨hmem, -, hown⟩ := mem_matching.mp hrow
          exact Or.inr (Or.inr ⟨row, mem_rowsOf.mpr ⟨hmem, hown⟩, rfl⟩)
        · exact Or.inl rfl
      · exact Or.inl rfl

theorem serve_serial (hserial : Serial (·.id) t) (call : TripAlertCall) :
    Serial (·.id) (call.serve repr t).1 := by
  rcases serve_cases repr t call with heq | ⟨row, -, hnew, heq⟩ | ⟨row, -, heq⟩
  · rw [heq]
    exact hserial
  · rw [heq]
    exact hserial.insert hnew
  · rw [heq]
    exact hserial.remove row.id

theorem serve_lastId (t : TripAlertTable) (call : TripAlertCall) :
    t.lastId ≤ (call.serve repr t).1.lastId := by
  rcases serve_cases repr t call with heq | ⟨row, -, hnew, heq⟩ | ⟨row, -, heq⟩
  · rw [heq]
  · rw [heq]
    exact le_of_lt hnew
  · rw [heq]

/-- A request leaves the rows of everybody else as they were. -/
theorem serve_others (hserial : Serial (·.id) t) (call : TripAlertCall) {other : Nat}
    (hother : other ≠ call.user) :
    rowsOf (·.userId) (call.serve repr t).1.rows other = rowsOf (·.userId) t.rows other := by
  rcases serve_cases repr t call with heq | ⟨row, hown, -, heq⟩ | ⟨row, hrow, heq⟩
  · rw [heq]
  · rw [heq]
    exact rowsOf_append_other fun howner => hother (howner.symm.trans hown)
  · rw [heq]
    exact hserial.rowsOf_remove_other hrow hother

/-! ### The notebook behind the rows -/

namespace Notebook.Keeps

theorem other (h : n.Keeps t user made) (hserial : Serial (·.id) t) {call : TripAlertCall}
    (hother : user ≠ call.user) : n.Keeps (call.serve repr t).1 user made where
  count := h.count
  entries := by rw [serve_others repr hserial call hother, h.entries]
  known := by
    rw [serve_others repr hserial call hother]
    exact h.known
  handedOut := fun id hid => (h.handedOut id hid).trans (serve_lastId repr t call)

/-- A new row is the next entry. -/
theorem insert (h : n.Keeps t user made) {row : TripAlert} (hown : row.userId = user)
    (hnew : t.lastId < row.id) :
    Keeps ⟨n.made + 1, n.entries ++ [(n.made, row.out.saved)]⟩ ⟨t.rows ++ [row], row.id⟩ user
      (made ++ [row.id]) := by
  have hfresh : row.id ∉ made := fun hmem => absurd (h.handedOut _ hmem) (by omega)
  constructor
  · simp [h.count]
  · rw [rowsOf_append_own hown, List.map_append, h.entries, List.map_singleton,
      List.idxOf_append_of_notMem hfresh, h.count]
    have hold : (rowsOf TripAlert.userId t.rows user).map
          (fun old => (List.idxOf old.id (made ++ [row.id]), old.out.saved)) =
        (rowsOf TripAlert.userId t.rows user).map fun old => (made.idxOf old.id, old.out.saved) :=
      List.map_congr_left fun old hold => by rw [List.idxOf_append_of_mem (h.known old hold)]
    rw [hold]
    simp
  · intro old hold
    rw [rowsOf_append_own hown, List.mem_append, List.mem_singleton] at hold
    rcases hold with hold | rfl
    · exact List.mem_append_left _ (h.known old hold)
    · simp
  · intro id hid
    rcases List.mem_append.mp hid with hid | hid
    · exact (h.handedOut id hid).trans (le_of_lt hnew)
    · exact le_of_eq (List.mem_singleton.mp hid)

/-- Removing a row strikes out the entry with its name. -/
theorem remove (h : n.Keeps t user made) {row : TripAlert}
    (hrow : row ∈ rowsOf (·.userId) t.rows user) :
    Keeps ⟨n.made, n.entries.filter fun entry => some entry.1 ≠ nameIn made row.id⟩
      ⟨OwnedRows.remove (·.id) t.rows row.id, t.lastId⟩ user made := by
  constructor
  · exact h.count
  · rw [rowsOf_remove, OwnedRows.remove, h.entries, List.filter_map]
    refine congrArg _ (List.filter_congr fun r hr => ?_)
    have hknown := h.known r hr
    simp only [Function.comp_apply, ← nameIn_of_mem hknown]
    refine decide_eq_decide.mpr (not_congr ⟨nameIn_inj hknown (h.known row hrow), ?_⟩)
    intro heq
    rw [heq]
  · intro r hr
    rw [rowsOf_remove] at hr
    exact h.known r (List.mem_of_mem_filter hr)
  · exact h.handedOut

/-- The name of a live row is the name of an entry. -/
theorem mem_entries (h : n.Keeps t user made) {row : TripAlert}
    (hrow : row ∈ rowsOf (·.userId) t.rows user) :
    nameIn made row.id ∈ n.entries.map fun entry => some entry.1 := by
  rw [h.entries, List.map_map, nameIn_of_mem (h.known row hrow)]
  exact List.mem_map_of_mem hrow

/-- The user's own request is answered from the notebook. -/
theorem own (h : n.Keeps t user made) (hserial : Serial (·.id) t) {call : TripAlertCall}
    (hown : call.user = user) (hrange : call.InRange) :
    (n.serve repr (call.request.seen t user made)).2 =
        (call.serve repr t).2.seen (made ++ (call.serve repr t).2.made) ∧
      (n.serve repr (call.request.seen t user made)).1.Keeps (call.serve repr t).1 user
        (made ++ (call.serve repr t).2.made) := by
  obtain ⟨caller, request⟩ := call
  subst hown
  cases request with
  | create body origin destination insertion =>
      rcases createTripAlert_cases repr t caller body origin destination insertion with
        ⟨trip, htrip, hcreate⟩ | ⟨refusal, hrefused, hcreate⟩
      · have hnew : t.lastId < t.lastId + insertion.skipped + 1 :=
          Nat.lt_succ_of_le (Nat.le_add_right _ _)
        let row := trip.row (t.lastId + insertion.skipped + 1) caller insertion.createdAt
        have hkeeps := Keeps.insert h (show row.userId = caller from rfl) hnew
        have hfresh : t.lastId + insertion.skipped + 1 ∉ made :=
          fun hmem => absurd (h.handedOut _ hmem) (by omega)
        simp only [TripAlertCall.serve, hcreate, TripAlertRequest.seen, Notebook.serve, htrip,
          TripAlertAnswer.seen, TripAlertAnswer.made]
        refine ⟨?_, hkeeps⟩
        rw [nameIn_of_mem (by simp [TripAlert.out]), h.count]
        simp [TripAlert.out, SavedTrip.row, List.idxOf_append_of_notMem hfresh,
          TripAlertOut.saved]
      · simp only [TripAlertCall.serve, hcreate, TripAlertRequest.seen, Notebook.serve, hrefused,
          TripAlertAnswer.seen, TripAlertAnswer.made, List.append_nil]
        exact ⟨trivial, h⟩
  | list =>
      simp only [TripAlertCall.serve, TripAlertRequest.seen, Notebook.serve, TripAlertAnswer.seen,
        TripAlertAnswer.made, List.append_nil, listTripAlerts, hserial.newestFirst_eq]
      refine ⟨?_, h⟩
      rw [SeenAnswer.listed.injEq, h.entries, ← List.map_reverse, List.map_map, List.map_map]
      refine List.map_congr_left fun row hrow => ?_
      simp only [Function.comp_apply, TripAlertOut.seen]
      have hname := nameIn_of_mem (h.known row (List.mem_reverse.mp hrow))
      exact congrArg (·, row.out.saved) hname.symm
  | delete alertId =>
      have hinside := hrange alertId rfl
      simp only [TripAlertCall.serve, TripAlertRequest.seen, Notebook.serve]
      split
      · rename_i hlive
        obtain ⟨row, hrow, rfl⟩ := List.mem_map.mp hlive
        rw [deleteTripAlert_of_mem hserial hrow (by omega), Int.toNat_natCast,
          if_pos (h.mem_entries hrow)]
        simp only [TripAlertAnswer.seen, TripAlertAnswer.made, List.append_nil]
        exact ⟨trivial, h.remove hrow⟩
      · rename_i hgone
        have hnone : ∀ row ∈ rowsOf (·.userId) t.rows caller, (row.id : Int) ≠ alertId :=
          fun row hrow heq => hgone (List.mem_map.mpr ⟨row, hrow, heq⟩)
        have hunnamed : (none : Option Nat) ∉ n.entries.map fun entry => some entry.1 := by simp
        rw [deleteTripAlert_of_notMem hnone hinside, if_neg hunnamed]
        simp only [TripAlertAnswer.seen, TripAlertAnswer.made, List.append_nil]
        exact ⟨trivial, h⟩

end Notebook.Keeps

/-- Over any run a user's answers are those of a notebook that sees that user's requests
    alone. -/
theorem exchanges_eq_notebook {calls : List TripAlertCall}
    (hrange : ∀ call ∈ calls, call.InRange) (hserial : Serial (·.id) t)
    (hkeeps : n.Keeps t user made) :
    (exchanges repr user t made calls).map (·.2) =
      n.answers repr ((exchanges repr user t made calls).map (·.1)) := by
  induction calls generalizing t made n with
  | nil => rfl
  | cons call calls ih =>
      have hserial' : Serial (·.id) (call.serve repr t).1 := serve_serial repr hserial call
      have hrange' : ∀ call' ∈ calls, call'.InRange :=
        fun call' hcall' => hrange call' (List.mem_cons_of_mem _ hcall')
      by_cases hown : call.user = user
      · obtain ⟨hanswer, hkeeps'⟩ :=
          hkeeps.own repr hserial hown (hrange call List.mem_cons_self)
        simp only [exchanges, if_pos hown, List.map_cons, Notebook.answers]
        rw [hanswer, ih hrange' hserial' hkeeps']
      · simp only [exchanges, if_neg hown]
        exact ih hrange' hserial' (hkeeps.other repr hserial (Ne.symm hown))

theorem empty_serial : Serial (fun row : TripAlert => row.id) ⟨[], 0⟩ :=
  ⟨List.Pairwise.nil, by simp⟩

theorem empty_keeps (user : Nat) : Notebook.Keeps ⟨0, []⟩ ⟨[], 0⟩ user [] :=
  ⟨rfl, rfl, by simp, by simp⟩

theorem tripAlertsAfter_serial (calls : List TripAlertCall) :
    Serial (·.id) (tripAlertsAfter repr calls) := by
  induction calls using List.reverseRecOn with
  | nil => exact empty_serial
  | append_singleton calls call ih =>
      rw [tripAlertsAfter, List.foldl_append]
      exact serve_serial repr ih call

/-- A list is the caller's rows, last number first, and changes nothing. -/
theorem serve_list (hserial : Serial (·.id) t) {call : TripAlertCall}
    (hlist : call.request = .list) : (call.serve repr t).1 = t ∧
      ∃ rows : List TripAlert, rows.Perm (rowsOf (·.userId) t.rows call.user) ∧
        rows.Pairwise (·.id > ·.id) ∧
        (call.serve repr t).2 = .listed (rows.map TripAlert.out) := by
  have hserved : call.serve repr t = (t, .listed (listTripAlerts t call.user)) := by
    simp only [TripAlertCall.serve, hlist]
  refine ⟨congrArg (·.1) hserved, (rowsOf (·.userId) t.rows call.user).reverse,
    List.reverse_perm _, List.pairwise_reverse.mpr (hserial.ascending.filter _), ?_⟩
  rw [hserved, listTripAlerts, hserial.newestFirst_eq]

/-- A delete takes exactly the caller's live row of that number, or is a 404. -/
theorem serve_delete (hserial : Serial (·.id) t) {call : TripAlertCall} {alertId : Int}
    (hdelete : call.request = .delete alertId) (hrange : call.InRange) :
    (∀ row ∈ rowsOf (·.userId) t.rows call.user, (row.id : Int) = alertId →
      (call.serve repr t).2 = .deleted ∧
        (call.serve repr t).1.rows = t.rows.filter (· ≠ row)) ∧
    ((∀ row ∈ rowsOf (·.userId) t.rows call.user, (row.id : Int) ≠ alertId) →
      call.serve repr t = (t, .refused (.http 404 "trip alert not found"))) := by
  have hinside := hrange alertId hdelete
  have hserved : call.serve repr t = deleteTripAlert t call.user alertId := by
    simp only [TripAlertCall.serve, hdelete]
  constructor
  · rintro row hrow rfl
    rw [hserved, deleteTripAlert_of_mem hserial hrow (by omega)]
    refine ⟨rfl, List.filter_congr fun r hr => ?_⟩
    refine decide_eq_decide.mpr (not_congr ⟨?_, fun heq => by rw [heq]⟩)
    exact hserial.eq_of_ident hr (mem_rowsOf.mp hrow).1
  · intro hnone
    rw [hserved, deleteTripAlert_of_notMem hnone hinside]

/-- **Trip alerts of different users do not interfere.**  After any run, a request leaves
    everybody else's rows alone; a list is the caller's rows, last number first; a delete
    takes exactly the caller's live row of that number, and is otherwise the same 404;
    and a user's answers depend on that user's own requests alone. -/
theorem trip_alerts_isolated (repr : String → String) :
    (∀ before, ∀ call : TripAlertCall,
      let t := tripAlertsAfter repr before
      let served := call.serve repr t
      (∀ other, other ≠ call.user →
        rowsOf (·.userId) served.1.rows other = rowsOf (·.userId) t.rows other) ∧
      (call.request = .list → served.1 = t ∧
        ∃ rows : List TripAlert, rows.Perm (rowsOf (·.userId) t.rows call.user) ∧
          rows.Pairwise (·.id > ·.id) ∧ served.2 = .listed (rows.map TripAlert.out)) ∧
      ∀ alertId, call.request = .delete alertId → call.InRange →
        (∀ row ∈ rowsOf (·.userId) t.rows call.user, (row.id : Int) = alertId →
          served.2 = .deleted ∧ served.1.rows = t.rows.filter (· ≠ row)) ∧
        ((∀ row ∈ rowsOf (·.userId) t.rows call.user, (row.id : Int) ≠ alertId) →
          served = (t, .refused (.http 404 "trip alert not found")))) ∧
    ∀ user calls calls', (∀ call ∈ calls, call.InRange) → (∀ call ∈ calls', call.InRange) →
      seenRequests repr user calls = seenRequests repr user calls' →
        seenAnswers repr user calls = seenAnswers repr user calls' := by
  constructor
  · intro before call t served
    have hserial : Serial (·.id) t := tripAlertsAfter_serial repr before
    exact ⟨fun other hother => serve_others repr hserial call hother,
      fun hlist => serve_list repr hserial hlist,
      fun alertId hdelete hrange => serve_delete repr hserial hdelete hrange⟩
  · intro user calls calls' hrange hrange' hrequests
    have hanswers := exchanges_eq_notebook repr hrange empty_serial (empty_keeps user)
    have hanswers' := exchanges_eq_notebook repr hrange' empty_serial (empty_keeps user)
    rw [seenAnswers, hanswers, seenAnswers, hanswers']
    exact congrArg _ hrequests

end Routes

/-! ### A quiet run and a busy one -/

def toWork : TripAlertBody :=
  ⟨"To work", "Dam", "Zuid", ⟨30600000000, by decide⟩, none, [1, 2, 3]⟩

def createdBy (user skipped : Nat) : TripAlertCall :=
  ⟨user, .create toWork (.found (5237 / 100) (489 / 100)) (.found (5234 / 100) (487 / 100))
    ⟨skipped, 0⟩⟩

/-- The user is alone, and deletes the first row that was ever made. -/
def quietRun : List TripAlertCall := [createdBy 1 0, ⟨1, .delete 1⟩, ⟨1, .list⟩]

/-- Somebody else makes a row before, and tries to delete the user's. -/
def busyRun : List TripAlertCall :=
  [createdBy 2 0, createdBy 1 6, ⟨2, .delete 8⟩, ⟨1, .delete 8⟩, ⟨2, .list⟩, ⟨1, .list⟩]

theorem trip_alerts_isolated_busyRun :
    seenAnswers String.quote 1 busyRun = seenAnswers String.quote 1 quietRun :=
  (trip_alerts_isolated String.quote).2 1 busyRun quietRun
    (by simp [busyRun, createdBy, TripAlertCall.InRange])
    (by simp [quietRun, createdBy, TripAlertCall.InRange]) rfl

end FietsOfOv
