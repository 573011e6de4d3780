import FietsOfOv.Lib.Gather
import FietsOfOv.Lib.Run
import FietsOfOv.Planner

/-!
# Snapping an endpoint to a bikeable point

`app/services/snap.py`: around the destination, then around the origin, rings of
nudged points are probed, all points of a ring at once; then the hits are planned in
full one by one.  The machine moves where a query is answered or the deadline passes.
-/

namespace FietsOfOv

abbrev Place := ℚ × ℚ

/-! ## The queries -/

/-- `BIKE_MODES`. -/
def bikeModes : String := "BICYCLE,FERRY"

/-- `_SNAP_RINGS`: offsets in latitude and longitude, the nearest ring first. -/
def snapRings : List (List (ℚ × ℚ)) :=
  [[(2 / 1000, 0), (0, 22 / 10000), (-2 / 1000, 0), (0, -22 / 10000), (2 / 1000, 22 / 10000),
    (-2 / 1000, 22 / 10000), (2 / 1000, -22 / 10000), (-2 / 1000, -22 / 10000)],
   [(4 / 1000, 0), (0, 44 / 10000), (-4 / 1000, 0), (0, -44 / 10000)]]

/-- `_PROBE_NUM_ITINERARIES`. -/
def probeNumItineraries : Nat := 3

/-- What is passed to `otp.plan`. -/
structure PlanQuery where
  fromPlace : Place
  toPlace : Place
  mode : String
  departure : Option IsoFormat.Moment
  numItineraries : Option Nat
  slim : Bool

/-- The query `_bike` makes between two places. -/
def bikeQuery (departure : Option IsoFormat.Moment) (slim : Bool) (pair : Place × Place) :
    PlanQuery where
  fromPlace := pair.1
  toPlace := pair.2
  mode := bikeModes
  departure := departure
  numItineraries := if slim then some probeNumItineraries else none
  slim := slim

/-- `_first_bike`. -/
def firstBike (plan : List Itinerary) : Option Itinerary :=
  plan.find? fun itin => classifyKind itin = some .bike

/-- What `_bike` makes of an answer: an `OTPError` is no bike, anything else is raised. -/
def bikeOutcome : Except PlanException (List Itinerary) → Except PlanException (Option Itinerary)
  | .ok plan => .ok (firstBike plan)
  | .error (.otpError _) => .ok none
  | .error e => .error e

/-- The pairs of places of a ring, around the destination or around the origin. -/
def nudged (origin dest : Place) (snapDestination : Bool) (ring : List (ℚ × ℚ)) :
    List (Place × Place) :=
  if snapDestination then ring.map fun offset => (origin, (dest.1 + offset.1, dest.2 + offset.2))
  else ring.map fun offset => ((origin.1 + offset.1, origin.2 + offset.2), dest)

/-- The rings in the order they are searched in. -/
def searchRings (origin dest : Place) : List (List (Place × Place)) :=
  [true, false].flatMap fun snapDestination => snapRings.map (nudged origin dest snapDestination)

/-! ## The search as a machine -/

inductive SnapState where
  /-- `asyncio.gather` over a ring, and the rings after it. -/
  | probing (tasks : List ((Place × Place) × Option (Option Itinerary)))
      (rings : List (List (Place × Place)))
  /-- A hit is planned in full; the probes after it in its ring, and the rings after it. -/
  | confirming (pair : Place × Place) (probes : List ((Place × Place) × Option Itinerary))
      (rings : List (List (Place × Place)))
  | done (outcome : Except PlanException (Option Itinerary))

inductive SnapEvent where
  /-- The probe at an index of the ring is answered. -/
  | probed (index : Nat) (answer : Except PlanException (List Itinerary))
  /-- The full query is answered. -/
  | replanned (answer : Except PlanException (List Itinerary))
  /-- `snap_timeout_seconds` have passed. -/
  | expired

/-- The loop over a ring's probes up to the first hit, then the next ring. -/
def scan : List ((Place × Place) × Option Itinerary) → List (List (Place × Place)) → SnapState
  | (pair, some _) :: probes, rings => .confirming pair probes rings
  | (_, none) :: probes, rings => scan probes rings
  | [], ring :: rings => .probing (Gather.start ring) rings
  | [], [] => .done (.ok none)

/-- `bike_with_snapping` up to its first query. -/
def snapStart (origin dest : Place) : SnapState := scan [] (searchRings origin dest)

/-- After a probe: the loop over the ring once all of its probes are answered. -/
def afterProbe (tasks : List ((Place × Place) × Option (Option Itinerary)))
    (rings : List (List (Place × Place))) : SnapState :=
  match Gather.finished tasks with
  | some probes => scan probes rings
  | none => .probing tasks rings

/-- After a full query: its bike itinerary, or the loop goes on. -/
def afterReplan (probes : List ((Place × Place) × Option Itinerary))
    (rings : List (List (Place × Place))) : Except PlanException (Option Itinerary) → SnapState
  | .ok (some itin) => .done (.ok (some itin))
  | .ok none => scan probes rings
  | .error e => .done (.error e)

/-- `bike_with_snapping` from one answer to the next. -/
def snapStep : SnapState → SnapEvent → Option SnapState
  | .probing tasks rings, .probed index answer =>
      match bikeOutcome answer with
      | .ok found => (Gather.complete tasks index found).map (afterProbe · rings)
      | .error e => (Gather.complete tasks index none).map fun _ => .done (.error e)
  | .confirming _ probes rings, .replanned answer =>
      some (afterReplan probes rings (bikeOutcome answer))
  | .probing _ _, .expired => some (.done (.ok none))
  | .confirming _ _ _, .expired => some (.done (.ok none))
  | _, _ => none

/-! ## The sequential search -/

variable (otp : PlanQuery → Except String (List Itinerary)) (departure : Option IsoFormat.Moment)

/-- The answer of an OTP that fails with nothing but an `OTPError`. -/
def otpAnswer (query : PlanQuery) : Except PlanException (List Itinerary) :=
  (otp query).mapError .otpError

/-- `_bike` with such an OTP. -/
def bike (slim : Bool) (pair : Place × Place) : Option Itinerary :=
  match otp (bikeQuery departure slim pair) with
  | .ok plan => firstBike plan
  | .error _ => none

/-- One point after the other: the full plan's bike itinerary if the probe found one. -/
def confirmed (pair : Place × Place) : Option Itinerary :=
  (bike otp departure true pair).bind fun _ => bike otp departure false pair

/-- The first point, ring by ring, whose probe and whose full plan have a bike itinerary. -/
def nearestFirst (origin dest : Place) : Option Itinerary :=
  (searchRings origin dest).flatten.findSome? (confirmed otp departure)

/-- The events of a search that OTP answers and no deadline ends. -/
def Answers : SnapState → SnapEvent → Prop
  | .probing tasks _, .probed index answer =>
      ∀ pair, tasks[index]?.map (·.1) = some pair →
        answer = otpAnswer otp (bikeQuery departure true pair)
  | .confirming pair _ _, .replanned answer =>
      answer = otpAnswer otp (bikeQuery departure false pair)
  | _, .expired => False
  | _, _ => True

/-! ## What the search is for -/

/-- The points of all offsets in their order, around the destination and then around the
    origin. -/
def pointsAround (origin dest : Place) : List (Place × Place) :=
  snapRings.flatten.map (fun offset => (origin, (dest.1 + offset.1, dest.2 + offset.2))) ++
    snapRings.flatten.map (fun offset => ((origin.1 + offset.1, origin.2 + offset.2), dest))

/-- The plan has this itinerary as its first bike itinerary. -/
def LeadingBike (plan : List Itinerary) (itin : Itinerary) : Prop :=
  ∃ before after, plan = before ++ itin :: after ∧ classifyKind itin = some .bike ∧
    ∀ other ∈ before, classifyKind other ≠ some .bike

/-- OTP's slim plan between the two places has a bike itinerary. -/
def Probes (pair : Place × Place) : Prop :=
  ∃ plan, otp ⟨pair.1, pair.2, bikeModes, departure, some probeNumItineraries, true⟩ = .ok plan ∧
    ∃ itin ∈ plan, classifyKind itin = some .bike

/-- OTP's full plan between the two places has this itinerary as its first bike itinerary. -/
def Replans (pair : Place × Place) (itin : Itinerary) : Prop :=
  ∃ plan, otp ⟨pair.1, pair.2, bikeModes, departure, none, false⟩ = .ok plan ∧
    LeadingBike plan itin

/-- A point that counts: its slim plan has a bike itinerary, and so has its full plan. -/
def Bikeable (pair : Place × Place) : Prop :=
  Probes otp departure pair ∧ ∃ itin, Replans otp departure pair itin

/-! ## What a step does -/

section Steps

variable {otp departure} {s s' : SnapState} {event : SnapEvent} {result : Option Itinerary}

theorem snapStep_cases (h : snapStep s event = some s') :
    (∃ tasks rings index answer found tasks', s = .probing tasks rings ∧
      event = .probed index answer ∧ bikeOutcome answer = .ok found ∧
      Gather.complete tasks index found = some tasks' ∧ s' = afterProbe tasks' rings) ∨
    (∃ tasks rings index answer e tasks', s = .probing tasks rings ∧
      event = .probed index answer ∧ bikeOutcome answer = .error e ∧
      Gather.complete tasks index none = some tasks' ∧ s' = .done (.error e)) ∨
    (∃ pair probes rings answer, s = .confirming pair probes rings ∧
      event = .replanned answer ∧ s' = afterReplan probes rings (bikeOutcome answer)) ∨
    (event = .expired ∧ s' = .done (.ok none)) := by
  cases s with
  | probing tasks rings =>
      cases event with
      | probed index answer =>
          simp only [snapStep] at h
          cases houtcome : bikeOutcome answer with
          | ok found =>
              rw [houtcome] at h
              obtain ⟨tasks', hcomplete, rfl⟩ := Option.map_eq_some_iff.mp h
              exact .inl ⟨tasks, rings, index, answer, found, tasks', rfl, rfl, houtcome,
                hcomplete, rfl⟩
          | error e =>
              rw [houtcome] at h
              obtain ⟨tasks', hcomplete, rfl⟩ := Option.map_eq_some_iff.mp h
              exact .inr (.inl ⟨tasks, rings, index, answer, e, tasks', rfl, rfl, houtcome,
                hcomplete, rfl⟩)
      | replanned answer => cases h
      | expired =>
          cases h
          exact .inr (.inr (.inr ⟨rfl, rfl⟩))
  | confirming pair probes rings =>
      cases event with
      | probed index answer => cases h
      | replanned answer =>
          cases h
          exact .inr (.inr (.inl ⟨pair, probes, rings, answer, rfl, rfl, rfl⟩))
      | expired =>
          cases h
          exact .inr (.inr (.inr ⟨rfl, rfl⟩))
  | done outcome =>
      cases event <;> cases h

theorem bikeOutcome_otpAnswer (slim : Bool) (pair : Place × Place) :
    bikeOutcome (otpAnswer otp (bikeQuery departure slim pair)) =
      .ok (bike otp departure slim pair) := by
  unfold otpAnswer bike
  cases otp (bikeQuery departure slim pair) <;> rfl

/-! ## The machine keeps to the sequential search -/

/-- What is left of the search comes to the result. -/
def OnTrack (otp : PlanQuery → Except String (List Itinerary))
    (departure : Option IsoFormat.Moment) (result : Option Itinerary) : SnapState → Prop
  | .probing tasks rings =>
      Gather.Agrees (bike otp departure true) tasks ∧ Gather.pending tasks ≠ 0 ∧
      (∀ ring ∈ rings, ring ≠ []) ∧
      (tasks.map (·.1) ++ rings.flatten).findSome? (confirmed otp departure) = result
  | .confirming pair probes rings =>
      bike otp departure true pair ≠ none ∧
      (∀ probe ∈ probes, probe.2 = bike otp departure true probe.1) ∧
      (∀ ring ∈ rings, ring ≠ []) ∧
      (pair :: probes.map (·.1) ++ rings.flatten).findSome? (confirmed otp departure) = result
  | .done outcome => outcome = .ok result

/-- The queries that may still be made. -/
def queriesLeft : SnapState → Nat
  | .probing tasks rings => Gather.pending tasks + tasks.length + 2 * rings.flatten.length
  | .confirming _ probes rings => 1 + probes.length + 2 * rings.flatten.length
  | .done _ => 0

theorem scan_onTrack {probes : List ((Place × Place) × Option Itinerary)}
    {rings : List (List (Place × Place))}
    (hprobes : ∀ probe ∈ probes, probe.2 = bike otp departure true probe.1)
    (hrings : ∀ ring ∈ rings, ring ≠ [])
    (hresult : (probes.map (·.1) ++ rings.flatten).findSome? (confirmed otp departure) = result) :
    OnTrack otp departure result (scan probes rings) := by
  induction probes with
  | nil =>
      cases rings with
      | nil => exact congrArg Except.ok hresult
      | cons ring rings =>
          refine ⟨Gather.start_agrees _ ring, ?_, fun r hr => hrings r (List.mem_cons_of_mem _ hr),
            by simpa using hresult⟩
          rw [Gather.pending_start, Ne, List.length_eq_zero_iff]
          exact hrings ring List.mem_cons_self
  | cons probe probes ih =>
      obtain ⟨pair, found⟩ := probe
      have hfound := hprobes (pair, found) List.mem_cons_self
      have hprobes' := fun p hp => hprobes p (List.mem_cons_of_mem _ hp)
      cases found with
      | some itin => exact ⟨by simp [← hfound], hprobes', hrings, hresult⟩
      | none =>
          -- a probe without a hit is not confirmed either
          apply ih hprobes'
          have hmiss : confirmed otp departure pair = none := by simp [confirmed, ← hfound]
          simpa [hmiss] using hresult

theorem scan_queriesLeft (probes : List ((Place × Place) × Option Itinerary))
    (rings : List (List (Place × Place))) :
    queriesLeft (scan probes rings) ≤ probes.length + 2 * rings.flatten.length := by
  induction probes with
  | nil =>
      cases rings with
      | nil => simp [scan, queriesLeft]
      | cons ring rings =>
          simp [scan, queriesLeft, Gather.start, Gather.pending, List.countP_map,
            Function.comp_def]
          omega
  | cons probe probes ih =>
      obtain ⟨pair, found⟩ := probe
      cases found with
      | some itin =>
          simp only [scan, queriesLeft, List.length_cons]
          omega
      | none =>
          simp only [scan, List.length_cons]
          omega

/-- With one more probe answered, the ring is still waited for, or its hits come next. -/
theorem afterProbe_onTrack {tasks tasks' : List ((Place × Place) × Option (Option Itinerary))}
    {rings : List (List (Place × Place))} {index : Nat} {found : Option Itinerary}
    (hs : OnTrack otp departure result (.probing tasks rings))
    (hcomplete : Gather.complete tasks index found = some tasks')
    (hfound : ∀ pair, (tasks[index]?).map (·.1) = some pair →
      found = bike otp departure true pair) :
    OnTrack otp departure result (afterProbe tasks' rings) ∧
      queriesLeft (afterProbe tasks' rings) < queriesLeft (.probing tasks rings) := by
  obtain ⟨hagrees, hpending, hrings, hresult⟩ := hs
  have hagrees' := Gather.complete_agrees hagrees hcomplete hfound
  have hcalls := Gather.complete_calls hcomplete
  have hcount := Gather.complete_pending hcomplete
  unfold afterProbe
  cases hfinished : Gather.finished tasks' with
  | none =>
      refine ⟨⟨hagrees', Gather.finished_eq_none_iff.mp hfinished, hrings, hcalls ▸ hresult⟩, ?_⟩
      have hlength := congrArg List.length hcalls
      simp only [List.length_map] at hlength
      simp only [queriesLeft]
      omega
  | some probes =>
      have hprobes := Gather.finished_eq_map hagrees' hfinished
      have hlength : probes.length = tasks.length := by
        rw [hprobes, hcalls]
        simp
      constructor
      · apply scan_onTrack
        · intro probe hprobe
          rw [hprobes] at hprobe
          obtain ⟨call, _, rfl⟩ := List.mem_map.mp hprobe
          rfl
        · exact hrings
        · rw [hprobes, hcalls]
          simpa [Function.comp_def] using hresult
      · calc
          queriesLeft (scan probes rings) ≤ probes.length + 2 * rings.flatten.length :=
            scan_queriesLeft probes rings
          _ < queriesLeft (.probing tasks rings) := by
            simp only [queriesLeft]
            omega

/-- With a hit planned in full, the search has its result, or the next hits come. -/
theorem afterReplan_onTrack {pair : Place × Place}
    {probes : List ((Place × Place) × Option Itinerary)} {rings : List (List (Place × Place))}
    (hs : OnTrack otp departure result (.confirming pair probes rings)) :
    OnTrack otp departure result
        (afterReplan probes rings (.ok (bike otp departure false pair))) ∧
      queriesLeft (afterReplan probes rings (.ok (bike otp departure false pair))) <
        queriesLeft (.confirming pair probes rings) := by
  obtain ⟨hprobed, hprobes, hrings, hresult⟩ := hs
  obtain ⟨hit, hhit⟩ := Option.ne_none_iff_exists'.mp hprobed
  have hconfirmed : confirmed otp departure pair = bike otp departure false pair := by
    simp [confirmed, hhit]
  cases hfull : bike otp departure false pair with
  | some itin =>
      constructor
      · simpa [hconfirmed, hfull, OnTrack, afterReplan] using hresult
      · simp only [afterReplan, queriesLeft]
        omega
  | none =>
      constructor
      · apply scan_onTrack hprobes hrings
        simpa [hconfirmed, hfull] using hresult
      · calc
          queriesLeft (scan probes rings) ≤ probes.length + 2 * rings.flatten.length :=
            scan_queriesLeft probes rings
          _ < queriesLeft (.confirming pair probes rings) := by
            simp only [queriesLeft]
            omega

/-- One answer keeps the search on track, and uses up a query. -/
theorem snapStep_onTrack (hs : OnTrack otp departure result s)
    (hanswer : Answers otp departure s event) (h : snapStep s event = some s') :
    OnTrack otp departure result s' ∧ queriesLeft s' < queriesLeft s := by
  rcases snapStep_cases h with
    ⟨tasks, rings, index, answer, found, tasks', rfl, rfl, houtcome, hcomplete, rfl⟩ |
    ⟨tasks, rings, index, answer, e, tasks', rfl, rfl, houtcome, hcomplete, rfl⟩ |
    ⟨pair, probes, rings, answer, rfl, rfl, rfl⟩ | ⟨rfl, rfl⟩
  · apply afterProbe_onTrack hs hcomplete
    intro pair hpair
    rw [hanswer pair hpair, bikeOutcome_otpAnswer] at houtcome
    exact (Except.ok.inj houtcome).symm
  · -- OTP raises nothing but its own error
    obtain ⟨before, call, after, rfl, rfl, _⟩ := Gather.complete_cases hcomplete
    rw [hanswer call (by simp), bikeOutcome_otpAnswer] at houtcome
    cases houtcome
  · rw [show answer = _ from hanswer, bikeOutcome_otpAnswer]
    exact afterReplan_onTrack hs
  · cases s <;> cases hanswer

/-- Until it is done, the search waits for an answer that can come. -/
theorem exists_snapStep (hs : OnTrack otp departure result s)
    (hdone : ∀ outcome, s ≠ .done outcome) :
    ∃ event, Answers otp departure s event ∧ snapStep s event ≠ none := by
  cases s with
  | probing tasks rings =>
      obtain ⟨index, call, tasks', hcall, hcomplete⟩ :=
        Gather.exists_complete hs.2.1 (bike otp departure true)
      refine ⟨.probed index (otpAnswer otp (bikeQuery departure true call)), ?_, ?_⟩
      · intro pair hpair
        rw [Option.some.inj (hcall.symm.trans hpair)]
      · simp [snapStep, bikeOutcome_otpAnswer, hcomplete]
  | confirming pair probes rings =>
      exact ⟨.replanned (otpAnswer otp (bikeQuery departure false pair)), rfl, by simp [snapStep]⟩
  | done outcome => exact absurd rfl (hdone outcome)

theorem stuck_iff_done (hs : OnTrack otp departure result s) :
    Run.Stuck snapStep (Answers otp departure) s ↔ s = .done (.ok result) := by
  constructor
  · intro hstuck
    by_contra hdone
    obtain ⟨event, hanswer, hmoves⟩ := exists_snapStep hs (by
      rintro outcome rfl
      exact hdone (congrArg SnapState.done hs))
    exact hmoves (hstuck event hanswer)
  · rintro rfl event _
    cases event <;> rfl

end Steps

theorem ring_ne_nil {origin dest : Place} :
    ∀ ring ∈ searchRings origin dest, ring ≠ [] := by
  simp [searchRings, snapRings, nudged]

theorem snapStart_onTrack (origin dest : Place) :
    OnTrack otp departure (nearestFirst otp departure origin dest) (snapStart origin dest) :=
  scan_onTrack (by simp) ring_ne_nil rfl

theorem snapStart_queriesLeft (origin dest : Place) :
    queriesLeft (snapStart origin dest) ≤ 48 := by
  have hpoints : (searchRings origin dest).flatten.length = 24 := by
    simp [searchRings, snapRings, nudged]
  have hle := scan_queriesLeft [] (searchRings origin dest)
  rw [hpoints] at hle
  exact hle

theorem searchRings_flatten (origin dest : Place) :
    (searchRings origin dest).flatten = pointsAround origin dest := by
  simp [searchRings, pointsAround, nudged, snapRings]

theorem firstBike_eq_some_iff {plan : List Itinerary} {itin : Itinerary} :
    firstBike plan = some itin ↔ LeadingBike plan itin := by
  unfold firstBike LeadingBike
  rw [List.find?_eq_some_iff_append]
  simp only [decide_eq_true_eq, Bool.not_eq_true', decide_eq_false_iff_not]
  constructor
  · rintro ⟨hkind, before, after, hplan, hbefore⟩
    exact ⟨before, after, hplan, hkind, hbefore⟩
  · rintro ⟨before, after, hplan, hkind, hbefore⟩
    exact ⟨hkind, before, after, hplan, hbefore⟩

theorem firstBike_ne_none_iff {plan : List Itinerary} :
    firstBike plan ≠ none ↔ ∃ itin ∈ plan, classifyKind itin = some .bike := by
  simp [firstBike]

theorem bike_slim_ne_none_iff {pair : Place × Place} :
    bike otp departure true pair ≠ none ↔ Probes otp departure pair := by
  have hquery : bikeQuery departure true pair =
      ⟨pair.1, pair.2, bikeModes, departure, some probeNumItineraries, true⟩ := rfl
  unfold bike Probes
  rw [← hquery]
  cases otp (bikeQuery departure true pair) with
  | error message => simp
  | ok plan =>
      simp only [Except.ok.injEq, exists_eq_left']
      exact firstBike_ne_none_iff

theorem bike_full_eq_some_iff {pair : Place × Place} {itin : Itinerary} :
    bike otp departure false pair = some itin ↔ Replans otp departure pair itin := by
  have hquery : bikeQuery departure false pair =
      ⟨pair.1, pair.2, bikeModes, departure, none, false⟩ := rfl
  unfold bike Replans
  rw [← hquery]
  cases otp (bikeQuery departure false pair) with
  | error message => simp
  | ok plan =>
      simp only [Except.ok.injEq, exists_eq_left']
      exact firstBike_eq_some_iff

theorem confirmed_eq_some_iff {pair : Place × Place} {itin : Itinerary} :
    confirmed otp departure pair = some itin ↔
      Probes otp departure pair ∧ Replans otp departure pair itin := by
  rw [← bike_slim_ne_none_iff, ← bike_full_eq_some_iff]
  unfold confirmed
  cases bike otp departure true pair <;> simp

theorem confirmed_eq_none_iff {pair : Place × Place} :
    confirmed otp departure pair = none ↔ ¬ Bikeable otp departure pair := by
  rw [Option.eq_none_iff_forall_ne_some]
  constructor
  · rintro hnone ⟨hprobes, itin, hreplans⟩
    exact hnone itin ((confirmed_eq_some_iff otp departure).mpr ⟨hprobes, hreplans⟩)
  · intro hnot itin hconfirmed
    obtain ⟨hprobes, hreplans⟩ := (confirmed_eq_some_iff otp departure).mp hconfirmed
    exact hnot ⟨hprobes, itin, hreplans⟩

/-- **Snapping is a scan of the points, the nearest ring first.**  Whatever order the
    probes of a ring are answered in, the search comes to its end, with the first point
    whose probe and whose full plan have a bike itinerary; nothing is found exactly if
    there is no such point, and what is found is a bike itinerary of a full plan. -/
theorem snapping_is_nearest_first (origin dest : Place) :
    (∀ events s, Run.Meets snapStep (Answers otp departure) (snapStart origin dest) events →
      Run.exec snapStep (snapStart origin dest) events = some s →
      events.length ≤ 48 ∧
      (Run.Stuck snapStep (Answers otp departure) s ↔
        s = .done (.ok (nearestFirst otp departure origin dest))) ∧
      ∀ outcome, s = .done outcome → outcome = .ok (nearestFirst otp departure origin dest)) ∧
    (∃ events, Run.Meets snapStep (Answers otp departure) (snapStart origin dest) events ∧
      Run.exec snapStep (snapStart origin dest) events =
        some (.done (.ok (nearestFirst otp departure origin dest)))) ∧
    (∀ itin, nearestFirst otp departure origin dest = some itin ↔
      ∃ nearer pair farther, pointsAround origin dest = nearer ++ pair :: farther ∧
        Probes otp departure pair ∧ Replans otp departure pair itin ∧
        ∀ other ∈ nearer, ¬ Bikeable otp departure other) ∧
    (nearestFirst otp departure origin dest = none ↔
      ∀ pair ∈ pointsAround origin dest, ¬ Bikeable otp departure pair) ∧
    ∀ itin, nearestFirst otp departure origin dest = some itin →
      classifyKind itin = some .bike ∧
      ∃ pair ∈ pointsAround origin dest, ∃ query plan,
        query.fromPlace = pair.1 ∧ query.toPlace = pair.2 ∧ query.slim = false ∧
        otp query = .ok plan ∧ itin ∈ plan := by
  have hstep : ∀ s event s', OnTrack otp departure (nearestFirst otp departure origin dest) s →
      Answers otp departure s event → snapStep s event = some s' →
      OnTrack otp departure (nearestFirst otp departure origin dest) s' ∧
        queriesLeft s' < queriesLeft s :=
    fun _ _ _ hs hanswer h => snapStep_onTrack hs hanswer h
  have hstart := snapStart_onTrack otp departure origin dest
  refine ⟨?_, ?_, ?_, ?_, ?_⟩
  · intro events s hmeets hexec
    have hs := Run.exec_invariant (fun s e s' hs ha h => (hstep s e s' hs ha h).1) hstart hmeets
      hexec
    refine ⟨?_, stuck_iff_done hs, ?_⟩
    · have hlength := Run.length_add_le queriesLeft hstep hstart hmeets hexec
      have hbound := snapStart_queriesLeft origin dest
      omega
    · rintro outcome rfl
      exact hs
  · obtain ⟨events, s, hmeets, hexec, hstuck⟩ := Run.exists_stuck queriesLeft hstep _ hstart
    have hs := Run.exec_invariant (fun s e s' hs ha h => (hstep s e s' hs ha h).1) hstart hmeets
      hexec
    rw [(stuck_iff_done hs).mp hstuck] at hexec
    exact ⟨events, hmeets, hexec⟩
  · intro itin
    unfold nearestFirst
    rw [searchRings_flatten, List.findSome?_eq_some_iff]
    simp only [confirmed_eq_some_iff, confirmed_eq_none_iff, and_assoc]
  · unfold nearestFirst
    rw [searchRings_flatten, List.findSome?_eq_none_iff]
    simp only [confirmed_eq_none_iff]
  · intro itin hfound
    unfold nearestFirst at hfound
    rw [searchRings_flatten] at hfound
    obtain ⟨pair, hpair, hconfirmed⟩ := List.exists_of_findSome?_eq_some hfound
    obtain ⟨_, plan, hplan, before, after, rfl, hkind, _⟩ :=
      (confirmed_eq_some_iff otp departure).mp hconfirmed
    exact ⟨hkind, pair, hpair, _, _, rfl, rfl, rfl, hplan, by simp⟩

end FietsOfOv
