import FietsOfOv.Notify.Departures
import FietsOfOv.Ranking

/-!
# Which rain a warning is about

A warning depends on the rain in one window: that of the bike candidate which
`rank` keeps, the cheapest one with the waiting and the rain itself priced in.
Rain in that window is always reported, and recorded however the ticks and tasks
take turns, as long as the session has its alerts loaded.  Rain on the earliest
bike candidate is not, once a later one is cheaper.
-/

namespace FietsOfOv

open WallClock

variable {env : Env} {candidates : List Candidate} {rain : RainForecast}

/-- Some slot inside the candidate's window reaches the rain threshold. -/
def WetWindow (env : Env) (c : Candidate) (rain : RainForecast) : Prop :=
  ∃ slot ∈ rain.slots,
    inTimeWindow slot.time (localTime env c.itinerary.startTime)
      (localTime env c.itinerary.endTime) = true ∧ defaultRainThresholdMmH ≤ slot.mmPerH

instance (env : Env) (c : Candidate) (rain : RainForecast) : Decidable (WetWindow env c rain) :=
  inferInstanceAs (Decidable (∃ slot ∈ rain.slots,
    inTimeWindow slot.time (localTime env c.itinerary.startTime)
      (localTime env c.itinerary.endTime) = true ∧ defaultRainThresholdMmH ≤ slot.mmPerH))

theorem rainSummary_wet (c : Candidate) (rain : RainForecast) :
    (rainSummary env c.itinerary (some rain) defaultRainThresholdMmH).1 =
      some (decide (WetWindow env c rain)) := by
  simp only [rainSummary, Option.some.injEq]
  rw [Bool.eq_iff_iff, List.any_eq_true, decide_eq_true_eq]
  constructor
  · rintro ⟨slot, hslot, hwet⟩
    obtain ⟨hmem, hwindow⟩ := List.mem_filter.mp hslot
    exact ⟨slot, hmem, hwindow, of_decide_eq_true hwet⟩
  · rintro ⟨slot, hmem, hwindow, hwet⟩
    exact ⟨slot, List.mem_filter.mpr ⟨hmem, hwindow⟩, decide_eq_true hwet⟩

theorem hasBike_eq_true : hasBike candidates = true ↔ ∃ c ∈ candidates, c.kind = .bike := by
  simp [hasBike]

/-- The verdict is about the window of the bike candidate that `rank` keeps. -/
theorem assess_winner {c : Candidate} {rain : Option RainForecast}
    (hdated : Dated env candidates rain)
    (hwinner : (rank env candidates rain).find? (·.kind = .bike) =
      some (priced env candidates rain defaultWeights defaultRainThresholdMmH c)) :
    ∃ advice, assess env candidates rain = some advice ∧
      advice.rainExpected = (rainSummary env c.itinerary rain defaultRainThresholdMmH).1 ∧
      advice.forecastDegraded = rain.isNone := by
  obtain ⟨plan, hplan, hexpected, hdegraded⟩ : ∃ plan,
      recommend env candidates rain = some plan ∧
        plan.rainExpected = (rainSummary env c.itinerary rain defaultRainThresholdMmH).1 ∧
        plan.forecastDegraded = rain.isNone := by
    cases hrank : rank env candidates rain with
    | nil =>
        rw [hrank] at hwinner
        cases hwinner
    | cons top rest =>
        simp only [recommend, hrank]
        rw [← hrank, hwinner]
        exact ⟨_, rfl, by simp only [priced_itinerary], rfl⟩
  have hraised : Raising.recommend env candidates rain = some plan :=
    Raising.recommend_eq_some.mpr ⟨hdated, hplan⟩
  unfold assess
  rw [hraised]
  exact ⟨_, rfl, hexpected, hdegraded⟩

/-- **Rain on the bike ride that `rank` keeps is never missed.**  Among pooled
    candidates with a bike there is a cheapest one within the departure cap; the
    evaluation reports rain exactly if its window is wet, and then the departure is
    recorded in every run from there on, unless its own insert or commit fails. -/
theorem winner_rain_is_recorded {w v : Worker} {k i : Nat} {tick : Tick} {task : Task}
    (candidates : List Candidate) (rain : RainForecast) (hreachable : w.Reachable env)
    (htick : w.ticks[k]? = some tick) (htask : tick.tasks[i]? = some task)
    (hpc : task.pc = .forecasting candidates) (hbike : hasBike candidates = true)
    (hdated : Dated env candidates (some rain))
    (hstep : w.step env (.tick k (.task i (.forecast (.ok (some rain))))) = some v) :
    ∃ c ∈ candidates, c.kind = .bike ∧ competes defaultWeights candidates c = true ∧
      (rank env candidates (some rain)).find? (·.kind = .bike) =
        some (priced env candidates (some rain) defaultWeights defaultRainThresholdMmH c) ∧
      (∀ other ∈ candidates, other.kind = .bike → competes defaultWeights candidates other = true →
        (priced env candidates (some rain) defaultWeights defaultRainThresholdMmH c).cost ≤
          (priced env candidates (some rain) defaultWeights defaultRainThresholdMmH other).cost) ∧
      (∃ advice, evaluateTripAlert env (.ok candidates) (.ok (some rain)) = .ok (some advice) ∧
        advice.rainExpected = some (decide (WetWindow env c rain))) ∧
      (WetWindow env c rain → task.alert ∈ w.db.tripAlerts →
        tick.loop.expired tick.loaded = false →
          ∀ after, v.Records env k i task.alert tick.now after) := by
  obtain ⟨c, hc, hkind, hcompetes, hwinner, hcheapest⟩ :=
    @exists_winner env candidates (some rain) defaultWeights defaultRainThresholdMmH .bike
      (hasBike_eq_true.mp hbike) (by decide)
  obtain ⟨advice, hassess, hexpected, hconfirmed⟩ := assess_winner hdated hwinner
  rw [rainSummary_wet] at hexpected
  refine ⟨c, hc, hkind, hcompetes, hwinner, hcheapest, ⟨advice, ?_, hexpected⟩, ?_⟩
  · simp only [evaluateTripAlert, hbike, if_true, hassess]
  · intro hwet hstored hloaded after
    have hwarrants : warrants advice = true := by simp [warrants, hconfirmed, hexpected, hwet]
    have hrainy : task.findsRain env (some rain) = true := by
      simp [Task.findsRain, hpc, hassess, hwarrants]
    have hfinds : w.FindsRain env k i tick task (some rain) := ⟨htick, htask, hrainy, hstored⟩
    exact (hfinds.records_iff hreachable hstep after).mpr (Or.inl hloaded)

/-- A ride of half an hour that leaves `start` milliseconds after midnight. -/
def rideAt (start : Int) : Candidate :=
  ⟨.bike, ⟨1800, start, start + 1800000,
    [{ mode := "BICYCLE", startTime := start, endTime := start + 1800000, duration := 1800 }]⟩⟩

/-- Ten millimetres an hour at 00:10, and dry after it. -/
def cloudburst : RainForecast :=
  ⟨[⟨tenPast, 141, 10⟩, ⟨⟨1800000000, by decide⟩, 0, 0⟩]⟩

/-- Tuesday's 00:05 alert has been planned on Monday night, with two rides to choose from. -/
def twoRidesRun : List Action :=
  [.createAlert tuesdayMorning, .start mondayNight 15, .tick 0 (.selectPending true),
    .tick 0 (.selectDue true), .tick 0 (.task 0 .start),
    .tick 0 (.task 0 (.plan (.ok [rideAt 300000, rideAt 1500000])))]

/-- The shower finds the departure rainy, and its insert goes through. -/
def recordingActs : List Action :=
  [.tick 0 (.task 0 .acquire), .tick 0 (.task 0 (.insert true 7)), .tick 0 (.task 0 (.commit true))]

/-- Waiting twenty minutes for the dry ride costs more than the shower on the first. -/
theorem winner_rain_is_recorded_shower :
    ∃ c ∈ [rideAt 300000, rideAt 1500000], WetWindow flatEnv c shower ∧
      ¬ WetWindow flatEnv (rideAt 1500000) shower ∧
      ∃ later, Run.exec (Worker.step flatEnv) .initial
          (twoRidesRun ++ .tick 0 (.task 0 (.forecast (.ok (some shower)))) :: recordingActs) =
            some later ∧
        ∃ n ∈ later.db.rows, n.key = departureKey tuesdayMorning mondayNight := by
  have hrun : ((Run.exec (Worker.step flatEnv) .initial twoRidesRun).map fun w =>
      (w.ticks[0]?.map fun tick => (tick.now, tick.loop.expired tick.loaded, tick.tasks[0]?),
        w.db.tripAlerts)) = some (some (mondayNight, false,
          some ⟨tuesdayMorning, .forecasting [rideAt 300000, rideAt 1500000]⟩),
        [tuesdayMorning]) := by decide +kernel
  have hends : ((Run.exec (Worker.step flatEnv) .initial
      (twoRidesRun ++ .tick 0 (.task 0 (.forecast (.ok (some shower)))) :: recordingActs)).map
        fun later => (later.ticks[0]?.map fun tick => tick.tasks[0]?.map fun task =>
          task.pc.waiting.length, later.db.tripAlerts)) =
            some (some (some 1), [tuesdayMorning]) := by decide +kernel
  have hbest : ((rank flatEnv [rideAt 300000, rideAt 1500000] (some shower)).find?
      (·.kind = .bike)).map (·.itinerary.startTime) = some 300000 := by decide +kernel
  obtain ⟨w, hw, hstate⟩ := Option.map_eq_some_iff.mp hrun
  simp only [Prod.mk.injEq, Option.map_eq_some_iff] at hstate
  obtain ⟨⟨tick, htick, hnow, hloaded, htask⟩, halerts⟩ := hstate
  obtain ⟨later, hlater, hended⟩ := Option.map_eq_some_iff.mp hends
  simp only [Prod.mk.injEq, Option.map_eq_some_iff] at hended
  obtain ⟨hsent, hkept⟩ := hended
  obtain ⟨u, hu, hrest⟩ := Run.exec_append_eq_some.mp hlater
  cases hw.symm.trans hu
  obtain ⟨v, hstep, hacts⟩ := Run.exec_cons_eq_some.mp hrest
  obtain ⟨plan, hplan⟩ := Option.isSome_iff_exists.mp (show (Raising.recommend flatEnv
    [rideAt 300000, rideAt 1500000] (some shower)).isSome = true by decide +kernel)
  obtain ⟨c, hc, _, _, hwinner, _, _, hrecords⟩ := winner_rain_is_recorded
    [rideAt 300000, rideAt 1500000] shower ⟨_, hw⟩ htick htask rfl rfl
    (Raising.recommend_eq_some.mp hplan).1 hstep
  have hfirst : c = rideAt 300000 := by
    rw [hwinner, Option.map_some, priced_itinerary, Option.some.injEq] at hbest
    rcases List.mem_pair.mp hc with rfl | rfl
    · rfl
    · cases hbest
  subst hfirst
  have hwet : WetWindow flatEnv (rideAt 300000) shower := by decide +kernel
  refine ⟨_, hc, hwet, by decide +kernel, later, hlater, ?_⟩
  have hstored : tuesdayMorning ∈ w.db.tripAlerts := halerts ▸ List.mem_singleton_self _
  rcases hrecords hwet hstored hloaded recordingActs recordingActs [] later
    (List.append_nil _).symm hacts
    (by simp [recordingActs]) (by simp [recordingActs]) (hkept ▸ List.mem_singleton_self _) with
    ⟨tick', task', stmt, htick', htask', _, hrecording⟩ | hrow
  · -- the task is past its commit
    obtain ⟨_, hk, _, hi, hsending⟩ := hsent
    cases htick'.symm.trans hk
    cases htask'.symm.trans hi
    cases hpc : task'.pc with
    | locking | inserting | committing => simp [hpc, Pc.waiting] at hsending
    | _ => simp [hpc, Pc.Recording] at hrecording
  · rw [← hnow]
    exact hrow

/-- Whether an evaluation that came to an advice expects rain. -/
def expectsRain : Except Unit (Option AdviceResponse) → Option Bool
  | .ok (some advice) => advice.rainExpected
  | _ => none

/-- The ride at 00:05 is wet, but waiting for the dry one at 00:25 is cheaper. -/
theorem earliest_rain_is_missed :
    ¬ ∀ (candidates : List Candidate) (rain : RainForecast), ∀ first ∈ candidates,
      first.kind = .bike →
      (∀ c ∈ candidates, c.kind = .bike → first.itinerary.startTime ≤ c.itinerary.startTime) →
      (∀ c ∈ candidates, c.itinerary.endTime - c.itinerary.startTime < 86400000) →
      WetWindow flatEnv first rain →
      ∃ advice, evaluateTripAlert flatEnv (.ok candidates) (.ok (some rain)) = .ok (some advice) ∧
        advice.rainExpected = some true := by
  intro hall
  obtain ⟨advice, hadvice, hexpected⟩ := hall [rideAt 300000, rideAt 1500000] cloudburst
    (rideAt 300000) List.mem_cons_self rfl (by decide) (by decide) (by decide +kernel)
  have hdry : expectsRain (evaluateTripAlert flatEnv (.ok [rideAt 300000, rideAt 1500000])
      (.ok (some cloudburst))) = some false := by decide +kernel
  rw [hadvice] at hdry
  cases hexpected.symm.trans hdry

end FietsOfOv
