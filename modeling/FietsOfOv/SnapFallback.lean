import FietsOfOv.Snap

/-!
# When the fallback runs

`gather_candidates` looks for a nudged ride whenever the pooled itineraries hold no
bike, so also when the query for bikes has failed and nothing is known about the
real endpoints.
-/

namespace FietsOfOv

/-- The event is no exception but OTP's own. -/
def SnapEvent.Plain : SnapEvent → Prop
  | .probed _ answer => ∀ e, answer ≠ .error (.other e)
  | .replanned answer => ∀ e, answer ≠ .error (.other e)
  | .expired => True

/-- A nudged point is planned in full, and has a bike itinerary. -/
def SnapEvent.FindsBike : SnapEvent → Prop
  | .replanned (.ok plan) => ∃ itin ∈ plan, classifyKind itin = some .bike
  | _ => False

/-- The plans of the queries that succeeded, in order. -/
def succeeded (results : List (Except String (List Itinerary))) : List (List Itinerary) :=
  results.filterMap Except.toOption

/-- Some itinerary of the plans is a pure-bike one. -/
def HasBike (plans : List (List Itinerary)) : Prop :=
  ∃ plan ∈ plans, ∃ itin ∈ plan, classifyKind itin = some .bike

/-! ## What the fallback comes to -/

theorem bikeOutcome_of_plain {answer : Except PlanException (List Itinerary)}
    (hplain : ∀ e, answer ≠ .error (.other e)) :
    ∃ found, bikeOutcome answer = .ok found ∧
      ∀ itin, found = some itin ↔ ∃ plan, answer = .ok plan ∧ firstBike plan = some itin := by
  cases answer with
  | ok plan => exact ⟨firstBike plan, rfl, fun itin => by simp⟩
  | error e =>
      cases e with
      | otpError message => exact ⟨none, rfl, fun itin => by simp⟩
      | other e => exact absurd rfl (hplain e)

theorem scan_done {probes : List ((Place × Place) × Option Itinerary)}
    {rings : List (List (Place × Place))} {outcome : Except PlanException (Option Itinerary)}
    (h : scan probes rings = .done outcome) : outcome = .ok none := by
  induction probes with
  | nil =>
      cases rings with
      | nil =>
          cases h
          rfl
      | cons ring rings => cases h
  | cons probe probes ih =>
      obtain ⟨pair, found⟩ := probe
      cases found with
      | some itin => cases h
      | none => exact ih h

theorem afterProbe_done {tasks : List ((Place × Place) × Option (Option Itinerary))}
    {rings : List (List (Place × Place))} {outcome : Except PlanException (Option Itinerary)}
    (h : afterProbe tasks rings = .done outcome) : outcome = .ok none := by
  unfold afterProbe at h
  split at h
  · exact scan_done h
  · cases h

theorem exec_done {outcome : Except PlanException (Option Itinerary)} {events : List SnapEvent}
    {s : SnapState} (h : Run.exec snapStep (.done outcome) events = some s) :
    events = [] ∧ s = .done outcome := by
  cases events with
  | nil => exact ⟨rfl, (Option.some.inj h).symm⟩
  | cons event events =>
      obtain ⟨s', hs', _⟩ := Run.exec_cons_eq_some.mp h
      cases event <;> cases hs'

/-- The outcome is a ride exactly if a full plan among the events has one, and it is of such
    a plan. -/
def Finds (events : List SnapEvent) (outcome : Except PlanException (Option Itinerary)) : Prop :=
  ∃ found, outcome = .ok found ∧ (found ≠ none ↔ ∃ event ∈ events, event.FindsBike) ∧
    ∀ itin, found = some itin →
      ∃ plan, .replanned (.ok plan) ∈ events ∧ LeadingBike plan itin

/-- An event that finds nothing changes nothing about it. -/
theorem Finds.cons {events : List SnapEvent} {event : SnapEvent}
    {outcome : Except PlanException (Option Itinerary)} (h : Finds events outcome)
    (hmiss : ¬ event.FindsBike) : Finds (event :: events) outcome := by
  obtain ⟨found, houtcome, hfound, hplan⟩ := h
  refine ⟨found, houtcome, ?_, ?_⟩
  · rw [hfound]
    simp [hmiss]
  · intro itin hitin
    obtain ⟨plan, hmem, hfirst⟩ := hplan itin hitin
    exact ⟨plan, List.mem_cons_of_mem _ hmem, hfirst⟩

/-- A step either finds nothing, or ends the search with the ride of a full plan. -/
theorem snapStep_plain {s s' : SnapState} {event : SnapEvent} (hstep : snapStep s event = some s')
    (hplain : event.Plain) :
    (¬ event.FindsBike ∧ ∀ o, s' = .done o → o = .ok none) ∨
    ∃ plan itin, event = .replanned (.ok plan) ∧ firstBike plan = some itin ∧
      s' = .done (.ok (some itin)) := by
  rcases snapStep_cases hstep with
    ⟨tasks, rings, index, answer, found, tasks', rfl, rfl, _, _, rfl⟩ |
    ⟨tasks, rings, index, answer, e, tasks', rfl, rfl, houtcome, _, rfl⟩ |
    ⟨pair, probes, rings, answer, rfl, rfl, rfl⟩ | ⟨rfl, rfl⟩
  · exact Or.inl ⟨id, fun o ho => afterProbe_done ho⟩
  · obtain ⟨found, hfound, _⟩ := bikeOutcome_of_plain hplain
    rw [hfound] at houtcome
    cases houtcome
  · obtain ⟨found, hfound, hplan⟩ := bikeOutcome_of_plain hplain
    rw [hfound]
    cases found with
    | none =>
        refine Or.inl ⟨?_, fun o ho => scan_done ho⟩
        intro hfinds
        cases answer with
        | ok plan =>
            obtain ⟨itin, hitin⟩ :=
              Option.ne_none_iff_exists'.mp (firstBike_ne_none_iff.mpr hfinds)
            cases (hplan itin).mpr ⟨plan, rfl, hitin⟩
        | error e => exact hfinds
    | some itin =>
        obtain ⟨plan, rfl, hfirst⟩ := (hplan itin).mp rfl
        exact Or.inr ⟨plan, itin, rfl, hfirst, rfl⟩
  · refine Or.inl ⟨id, ?_⟩
    intro o ho
    cases ho
    rfl

/-- From a state without a find, a run finds a ride exactly if a full plan does. -/
theorem found_of_exec {events : List SnapEvent} {s : SnapState}
    {outcome : Except PlanException (Option Itinerary)}
    (hs : ∀ o, s = .done o → o = .ok none) (hplain : ∀ event ∈ events, event.Plain)
    (hexec : Run.exec snapStep s events = some (.done outcome)) : Finds events outcome := by
  induction events generalizing s with
  | nil =>
      obtain rfl := hs outcome (Option.some.inj hexec)
      exact ⟨none, rfl, by simp⟩
  | cons event events ih =>
      obtain ⟨s', hstep, hrest⟩ := Run.exec_cons_eq_some.mp hexec
      rw [List.forall_mem_cons] at hplain
      rcases snapStep_plain hstep hplain.1 with ⟨hmiss, hs'⟩ | ⟨plan, itin, rfl, hfirst, rfl⟩
      · -- where the event finds nothing, the rest of the run decides
        exact (ih hs' hplain.2 hrest).cons hmiss
      · obtain ⟨rfl, hdone⟩ := exec_done hrest
        cases hdone
        refine ⟨some itin, rfl, ?_, ?_⟩
        · have hfinds : SnapEvent.FindsBike (.replanned (.ok plan)) :=
            firstBike_ne_none_iff.mp (by simp [hfirst])
          simp [hfinds]
        · intro other hother
          cases hother
          exact ⟨plan, List.mem_cons_self, firstBike_eq_some_iff.mp hfirst⟩

/-! ## What the fan-out comes to -/

theorem plansOf_otpErrors (plans : List (List Itinerary)) (firstError : Option String)
    (results : List (Except String (List Itinerary))) :
    ∃ firstError', plansOf plans firstError (results.map (·.mapError .otpError)) =
      .ok (plans ++ succeeded results, firstError') := by
  induction results generalizing plans firstError with
  | nil => exact ⟨firstError, by simp [plansOf, succeeded]⟩
  | cons result results ih =>
      cases result with
      | ok plan =>
          obtain ⟨firstError', h⟩ := ih (plans ++ [plan]) firstError
          refine ⟨firstError', h.trans ?_⟩
          simp [succeeded, Except.toOption]
      | error message => exact ih plans (firstError.or (some message))

theorem any_bike_classified {plans : List (List Itinerary)} :
    (classified plans).any (·.kind = .bike) = true ↔ HasBike plans := by
  simp only [classified, HasBike, List.any_eq_true, List.mem_filterMap, List.mem_flatten,
    Option.map_eq_some_iff, decide_eq_true_eq]
  constructor
  · rintro ⟨_, ⟨itin, ⟨plan, hplan, hitin⟩, kind, hkind, rfl⟩, rfl⟩
    exact ⟨plan, hplan, itin, hitin, hkind⟩
  · rintro ⟨plan, hplan, itin, hitin, hkind⟩
    exact ⟨_, ⟨itin, ⟨plan, hplan, hitin⟩, .bike, hkind, rfl⟩, rfl⟩

theorem succeeded_ne_nil {bike transit mixed : Except String (List Itinerary)}
    (hsome : ∃ plan, bike = .ok plan ∨ transit = .ok plan ∨ mixed = .ok plan) :
    succeeded [bike, transit, mixed] ≠ [] := by
  obtain ⟨plan, hplan⟩ := hsome
  apply List.ne_nil_of_mem (a := plan)
  apply List.mem_filterMap.mpr
  rcases hplan with rfl | rfl | rfl
  · exact ⟨_, List.mem_cons_self, rfl⟩
  · exact ⟨_, List.mem_cons_of_mem _ List.mem_cons_self, rfl⟩
  · exact ⟨_, List.mem_cons_of_mem _ (List.mem_cons_of_mem _ List.mem_cons_self), rfl⟩

/-- With a plan at hand, the candidates are the classified itineraries of the plans, and
    a nudged ride behind them if there are some but no bike, and it was found. -/
theorem gatherCandidates_eq {bike transit mixed : Except String (List Itinerary)}
    (hsome : ∃ plan, bike = .ok plan ∨ transit = .ok plan ∨ mixed = .ok plan)
    (found : Option Itinerary) :
    ∃ extra : List Candidate,
      gatherCandidates ⟨bike.mapError .otpError, transit.mapError .otpError,
        mixed.mapError .otpError, .ok found⟩ =
        .ok (classified (succeeded [bike, transit, mixed]) ++ extra) ∧
      (extra = [] ∨ ∃ itin, found = some itin ∧ extra = [⟨.bike, itin⟩]) ∧
      (extra ≠ [] ↔ ¬ HasBike (succeeded [bike, transit, mixed]) ∧
        classified (succeeded [bike, transit, mixed]) ≠ [] ∧ found ≠ none) := by
  obtain ⟨firstError, hplans⟩ := plansOf_otpErrors [] none [bike, transit, mixed]
  have hne := succeeded_ne_nil hsome
  rw [← any_bike_classified]
  simp only [List.map_cons, List.map_nil, List.nil_append] at hplans
  simp only [gatherCandidates, hplans, bind, Except.bind, if_neg hne]
  by_cases hstuck : ¬ (classified (succeeded [bike, transit, mixed])).any (·.kind = .bike) = true ∧
      classified (succeeded [bike, transit, mixed]) ≠ []
  · simp only [if_pos hstuck]
    cases found with
    | some itin => exact ⟨[⟨.bike, itin⟩], rfl, .inr ⟨itin, rfl, rfl⟩, by simp [hstuck]⟩
    | none => exact ⟨[], by simp [pure, Except.pure], .inl rfl, by simp⟩
  · simp only [if_neg hstuck]
    refine ⟨[], by simp [pure, Except.pure], .inl rfl, ?_⟩
    constructor
    · intro h
      exact absurd rfl h
    · rintro ⟨hnone, hclassified, _⟩
      exact absurd ⟨hnone, hclassified⟩ hstuck

/-- **When a failed bike query is not replaced.**  Whatever the three queries come to, with
    at least one plan, and whatever OTP answers to further queries: all classified
    itineraries are returned in order, with at most one ride behind them, which was
    planned to or from a nudged point.  It stands only for a bike query that was answered
    without a bike, and all bikes are from the plans after one that failed, exactly
    unless the bike query failed, the others hold something but no bike, and a nudged
    point has one. -/
theorem nudged_only_without_bike_iff (bike transit mixed : Except String (List Itinerary))
    (origin dest : Place) (events : List SnapEvent)
    (outcome : Except PlanException (Option Itinerary))
    (hsome : ∃ plan, bike = .ok plan ∨ transit = .ok plan ∨ mixed = .ok plan)
    (hplain : ∀ event ∈ events, event.Plain)
    (hexec : Run.exec snapStep (snapStart origin dest) events = some (.done outcome)) :
    ∃ extra : List Candidate,
      gatherCandidates ⟨bike.mapError .otpError, transit.mapError .otpError,
        mixed.mapError .otpError, outcome⟩ =
        .ok (classified (succeeded [bike, transit, mixed]) ++ extra) ∧
      extra.length ≤ 1 ∧
      (∀ c ∈ extra, c.kind = .bike ∧
        ∃ plan, .replanned (.ok plan) ∈ events ∧ LeadingBike plan c.itinerary) ∧
      (((∀ message, bike = .error message →
            ∀ c ∈ classified (succeeded [bike, transit, mixed]) ++ extra, c.kind = .bike →
              ∃ plan ∈ succeeded [bike, transit, mixed], c.itinerary ∈ plan) ∧
          (extra ≠ [] → (∃ plan, bike = .ok plan) ∧
            ¬ HasBike (succeeded [bike, transit, mixed]))) ↔
        ¬ ((∃ message, bike = .error message) ∧
          classified (succeeded [bike, transit, mixed]) ≠ [] ∧
          ¬ HasBike (succeeded [bike, transit, mixed]) ∧
          ∃ event ∈ events, event.FindsBike)) := by
  obtain ⟨found, rfl, hfound, hplan⟩ := found_of_exec (fun o ho => scan_done ho) hplain hexec
  obtain ⟨extra, hgather, hextra, hextra_iff⟩ := gatherCandidates_eq hsome found
  have hlength : extra.length ≤ 1 := by
    rcases hextra with rfl | ⟨itin, _, rfl⟩
    · exact Nat.zero_le 1
    · exact Nat.le_refl 1
  have horigin : ∀ c ∈ extra, c.kind = .bike ∧
      ∃ plan, .replanned (.ok plan) ∈ events ∧ LeadingBike plan c.itinerary := by
    intro c hc
    rcases hextra with rfl | ⟨itin, hitin, rfl⟩
    · cases hc
    · rw [List.mem_singleton.mp hc]
      exact ⟨rfl, hplan itin hitin⟩
  refine ⟨extra, hgather, hlength, horigin, ?_⟩
  rw [← hfound]
  constructor
  · rintro ⟨_, honly⟩ ⟨⟨message, hfailed⟩, hclassified, hnone, hsnapped⟩
    obtain ⟨⟨plan, hanswered⟩, _⟩ := honly (hextra_iff.mpr ⟨hnone, hclassified, hsnapped⟩)
    rw [hfailed] at hanswered
    cases hanswered
  · intro hcalm
    have hempty : ∀ message, bike = .error message → extra = [] := by
      intro message hfailed
      by_contra hadded
      obtain ⟨hnone, hclassified, hsnapped⟩ := hextra_iff.mp hadded
      exact hcalm ⟨⟨message, hfailed⟩, hclassified, hnone, hsnapped⟩
    constructor
    · intro message hfailed c hc _
      rw [hempty message hfailed, List.append_nil] at hc
      obtain ⟨itin, hitin, hkind⟩ := List.mem_filterMap.mp hc
      obtain ⟨kind, _, rfl⟩ := Option.map_eq_some_iff.mp hkind
      exact List.mem_flatten.mp hitin
    · intro hadded
      refine ⟨?_, (hextra_iff.mp hadded).1⟩
      cases bike with
      | ok plan => exact ⟨plan, rfl⟩
      | error message => exact absurd (hempty message rfl) hadded

/-- A metro, and a ride a nudged point has. -/
def metroTrip : Itinerary :=
  ⟨600, 0, 600000, [{ mode := "SUBWAY", startTime := 0, endTime := 600000, duration := 600 }]⟩

def nudgedRide : Itinerary :=
  ⟨600, 0, 600000, [{ mode := "BICYCLE", startTime := 0, endTime := 600000, duration := 600 }]⟩

/-- Every probe of the nearest ring has a bike, and so has the first point's full plan. -/
def bikesAllAround : List SnapEvent :=
  (List.range 8).map (.probed · (.ok [nudgedRide])) ++ [.replanned (.ok [nudgedRide])]

theorem bikesAllAround_done :
    Run.exec snapStep (snapStart (0, 0) (0, 0)) bikesAllAround =
      some (.done (.ok (some nudgedRide))) := by
  rfl

theorem bikesAllAround_plain : ∀ event ∈ bikesAllAround, event.Plain := by
  intro event hevent
  rcases List.mem_append.mp hevent with hprobed | hreplanned
  · obtain ⟨index, _, rfl⟩ := List.mem_map.mp hprobed
    simp [SnapEvent.Plain]
  · rw [List.mem_singleton.mp hreplanned]
    simp [SnapEvent.Plain]

theorem nudged_only_without_bike_iff_metroTrip :
    ∃ extra : List Candidate,
      gatherCandidates ⟨.error (.otpError "timeout"), .ok [metroTrip], .ok [],
        .ok (some nudgedRide)⟩ =
        .ok (classified (succeeded [.error "timeout", .ok [metroTrip], .ok []]) ++ extra) ∧
      extra.length ≤ 1 ∧
      (∀ c ∈ extra, c.kind = .bike ∧
        ∃ plan, .replanned (.ok plan) ∈ bikesAllAround ∧ LeadingBike plan c.itinerary) ∧
      (((∀ message, (.error "timeout" : Except String (List Itinerary)) = .error message →
            ∀ c ∈ classified (succeeded [.error "timeout", .ok [metroTrip], .ok []]) ++ extra,
              c.kind = .bike →
              ∃ plan ∈ succeeded [.error "timeout", .ok [metroTrip], .ok []],
                c.itinerary ∈ plan) ∧
          (extra ≠ [] → (∃ plan, (.error "timeout" : Except String (List Itinerary)) = .ok plan) ∧
            ¬ HasBike (succeeded [.error "timeout", .ok [metroTrip], .ok []]))) ↔
        ¬ ((∃ message, (.error "timeout" : Except String (List Itinerary)) = .error message) ∧
          classified (succeeded [.error "timeout", .ok [metroTrip], .ok []]) ≠ [] ∧
          ¬ HasBike (succeeded [.error "timeout", .ok [metroTrip], .ok []]) ∧
          ∃ event ∈ bikesAllAround, event.FindsBike)) :=
  nudged_only_without_bike_iff (.error "timeout") (.ok [metroTrip]) (.ok []) (0, 0) (0, 0)
    bikesAllAround _ ⟨[metroTrip], .inr (.inl rfl)⟩ bikesAllAround_plain bikesAllAround_done

/-- The bike query times out, the metro is found, and a ride from elsewhere is offered. -/
theorem nudged_ride_for_a_failed_query :
    ¬ ∀ (bike transit mixed : Except String (List Itinerary)) (origin dest : Place)
        (events : List SnapEvent) (outcome : Except PlanException (Option Itinerary))
        (candidates : List Candidate),
      (∃ plan, bike = .ok plan ∨ transit = .ok plan ∨ mixed = .ok plan) →
      (∀ event ∈ events, event.Plain) →
      Run.exec snapStep (snapStart origin dest) events = some (.done outcome) →
      gatherCandidates ⟨bike.mapError .otpError, transit.mapError .otpError,
        mixed.mapError .otpError, outcome⟩ = .ok candidates →
      ∀ message, bike = .error message → ∀ c ∈ candidates, c.kind = .bike →
        ∃ plan ∈ succeeded [bike, transit, mixed], c.itinerary ∈ plan := by
  intro hall
  have hgather : gatherCandidates ⟨.error (.otpError "timeout"), .ok [metroTrip], .ok [],
      .ok (some nudgedRide)⟩ = .ok [⟨.transit, metroTrip⟩, ⟨.bike, nudgedRide⟩] := by rfl
  have hplan := hall (.error "timeout") (.ok [metroTrip]) (.ok []) (0, 0) (0, 0) bikesAllAround _ _
    ⟨[metroTrip], .inr (.inl rfl)⟩ bikesAllAround_plain bikesAllAround_done hgather "timeout" rfl
    ⟨.bike, nudgedRide⟩ (by simp) rfl
  simp [succeeded, Except.toOption, metroTrip, nudgedRide] at hplan

end FietsOfOv
