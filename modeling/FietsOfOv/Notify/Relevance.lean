import FietsOfOv.Notify.Departures

/-!
# Warnings for trips that have left

A row that was just recorded is sent before its trip leaves, since its departure
is the next one at the tick's clock.  A row that is picked up later is only known
to depart on the tick's day or after it: the cutoff of `redeliver_pending` is a
date, and the departure itself may lie earlier that day.
-/

namespace FietsOfOv

open WallClock

/-- The trip the row is about has not left at `now`. -/
def StillToCome (tripAlerts : List TripAlert) (now : DateTime) (n : Notification) : Prop :=
  ∃ alert ∈ tripAlerts, alert.id = n.tripAlertId ∧ now ≤ alert.departureOn n.departureDate

instance (tripAlerts : List TripAlert) (now : DateTime) (n : Notification) :
    Decidable (StillToCome tripAlerts now n) :=
  inferInstanceAs (Decidable (∃ alert ∈ tripAlerts,
    alert.id = n.tripAlertId ∧ now ≤ alert.departureOn n.departureDate))

theorem StillToCome.mono {tripAlerts tripAlerts' : List TripAlert} {now : DateTime}
    {n : Notification} (h : StillToCome tripAlerts now n) (hsub : tripAlerts ⊆ tripAlerts') :
    StillToCome tripAlerts' now n := by
  obtain ⟨alert, halert, hown, hle⟩ := h
  exact ⟨alert, hsub halert, hown, hle⟩

/-- The departure of a warning that is just recorded is still to come. -/
theorem stillToCome_of_key {tripAlerts : List TripAlert} {alert : TripAlert} {now : DateTime}
    {n : Notification} (halert : alert ∈ tripAlerts) (hkey : n.key = departureKey alert now) :
    StillToCome tripAlerts now n := by
  refine ⟨alert, halert, (congrArg Prod.fst hkey).symm, ?_⟩
  have hdate : n.departureDate = (nextDeparture alert now).date := congrArg Prod.snd hkey
  rw [hdate, ← nextDeparture_eq_departureOn]
  exact le_nextDeparture alert now

/-- A departure on a later day, or later on the same day, is still to come. -/
theorem le_departureOn {alert : TripAlert} {now : DateTime} {date : Int} (hday : now.date ≤ date)
    (htime : date = now.date → now.time ≤ alert.departureTime) : now ≤ alert.departureOn date := by
  have hnow := now.time.lt_day
  simp only [microsPerDay] at hnow
  rw [DateTime.le_iff]
  simp only [TripAlert.departureOn, DateTime.micros]
  by_cases hsame : date = now.date
  · have hle := Time.le_iff.mp (htime hsame)
    omega
  · omega

/-- The action selects no row for redelivery whose trip left earlier that day. -/
def SelectsNoDepartedRow (w : Worker) : Action → Prop
  | .tick k (.selectPending true) => ∀ tick ∈ w.ticks[k]?,
      ∀ n ∈ w.db.pending tick.now.date maxRedeliveriesPerTick, n.departureDate = tick.now.date →
        ∀ alert ∈ w.db.tripAlerts, alert.id = n.tripAlertId → tick.now.time ≤ alert.departureTime
  | _ => True

instance (w : Worker) : (a : Action) → Decidable (SelectsNoDepartedRow w a)
  | .tick k (.selectPending true) => inferInstanceAs (Decidable (∀ tick ∈ w.ticks[k]?,
      ∀ n ∈ w.db.pending tick.now.date maxRedeliveriesPerTick, n.departureDate = tick.now.date →
        ∀ alert ∈ w.db.tripAlerts, alert.id = n.tripAlertId → tick.now.time ≤ alert.departureTime))
  | .tick _ (.selectPending false) => isTrue trivial
  | .tick _ (.redeliver _) => isTrue trivial
  | .tick _ (.selectDue _) => isTrue trivial
  | .tick _ (.task _ _) => isTrue trivial
  | .tick _ .gather => isTrue trivial
  | .tick _ .die => isTrue trivial
  | .start _ _ => isTrue trivial
  | .createAlert _ => isTrue trivial
  | .deleteAlert _ => isTrue trivial

/-- Every send, made or still to be made, is for a trip that has not left. -/
structure Worker.Timely (w : Worker) : Prop where
  waiting : ∀ tick ∈ w.ticks, ∀ n ∈ tick.waiting, StillToCome w.created tick.now n
  sent : ∀ session row ok, .sent session row ok ∈ w.log →
    ∃ now leadMinutes, w.clockOf session = some (now, leadMinutes) ∧ StillToCome w.created now row

section Worker

variable {env : Env} {w w' : Worker}

theorem Worker.initial_timely : Worker.initial.Timely where
  waiting := by simp [initial]
  sent := by simp [initial]

/-- What a permitted redelivery pass selects is still to come. -/
theorem stillToCome_of_pending (h : w.Sound) {k : Nat} {tick : Tick} {n : Notification}
    (hk : w.ticks[k]? = some tick) (hok : SelectsNoDepartedRow w (.tick k (.selectPending true)))
    (hn : n ∈ w.db.pending tick.now.date maxRedeliveriesPerTick) :
    StillToCome w.created tick.now n := by
  obtain ⟨hrow, _, hday⟩ :=
    Database.mem_undelivered.mp (Database.mem_undelivered_of_mem_pending hn)
  obtain ⟨alert, halert, hown⟩ :=
    Database.hasAlert_iff.mp (h.referential n (List.mem_append_left _ hrow))
  refine ⟨alert, h.stored alert halert, hown, le_departureOn hday fun hsame => ?_⟩
  exact hok tick hk n hn hsame alert halert hown

theorem Worker.Timely.step (h : w.Sound) (htraced : w.Traced) (htimely : w.Timely) {a : Action}
    (hok : SelectsNoDepartedRow w a) (hstep : w.step env a = some w') : w'.Timely := by
  have hcreated := created_step hstep
  have hsent : ∀ session row ok, .sent session row ok ∈ w.log → ∃ now leadMinutes,
      w'.clockOf session = some (now, leadMinutes) ∧ StillToCome w'.created now row := by
    intro session row ok he
    obtain ⟨now, lead, hclock, hcome⟩ := htimely.sent session row ok he
    exact ⟨now, lead, clockOf_step hstep hclock, hcome.mono hcreated⟩
  have hmoves := step_moves hstep
  cases hmoves with
  | starts now leadMinutes =>
      refine ⟨fun tick htick => ?_, hsent⟩
      rcases List.mem_append.mp htick with htick | htick
      · exact htimely.waiting tick htick
      · rw [List.mem_singleton.mp htick]
        simp [Tick.opened, Tick.waiting, Stage.waiting]
  | @ticks k act tick s hk htick =>
      have hmem := List.mem_of_getElem? hk
      have heffects : Effects (StillToCome w.created tick.now) k tick.now tick.alerts
          (w.stateOf tick).face s.face := by
        refine tickStep_effects (h.orderly k tick hk) ?_ htick
        rintro rfl n hn
        exact stillToCome_of_pending h hk hok hn
      have hnew : ∀ n, ∀ alert ∈ tick.alerts, n.key = departureKey alert tick.now →
          StillToCome w.created tick.now n :=
        fun n alert halert hkey => stillToCome_of_key (htraced.loaded tick hmem alert halert).1 hkey
      refine ⟨fun other hother => ?_, fun session row ok he => ?_⟩
      · rcases List.mem_or_eq_of_mem_set hother with hother | rfl
        · exact htimely.waiting other hother
        · rw [(tickStep_clock htick).1]
          exact heffects.good_waiting (fun _ hn => hn) hnew (htimely.waiting tick hmem)
      · rcases heffects.log_lawful (fun _ hn => hn) hnew (htimely.waiting tick hmem) he with
          he | ⟨rfl, hcome⟩
        · exact hsent session row ok he
        · refine ⟨tick.now, tick.leadMinutes, ?_, hcome⟩
          rw [clockOf_setTick hk htick, Worker.clockOf, hk]
          rfl
  | creates hnew =>
      exact ⟨fun tick htick n hn => (htimely.waiting tick htick n hn).mono hcreated, hsent⟩
  | deletes hdelete => exact ⟨htimely.waiting, hsent⟩

/-- **No warning for a trip that has left, where no departed row is selected.**  In
    every run whose redelivery passes select no row whose trip left earlier that day,
    each attempted send is for a departure that is still to come at its tick's clock. -/
theorem Worker.sends_still_to_come (actions : List Action)
    (hmeets : Run.Meets (Worker.step env) SelectsNoDepartedRow .initial actions)
    (hexec : Run.exec (Worker.step env) .initial actions = some w) (session : Nat)
    (row : Notification) (ok : Bool) (hsent : .sent session row ok ∈ w.log) :
    ∃ tick, w.ticks[session]? = some tick ∧ StillToCome w.created tick.now row := by
  let P (v : Worker) : Prop := v.Sound ∧ v.Traced ∧ v.Timely
  have hstep : ∀ v a v', P v → SelectsNoDepartedRow v a → Worker.step env v a = some v' → P v' :=
    fun v a v' hv hok hstep => ⟨hv.1.step hstep, Worker.Traced.step hv.1 hv.2.1 hstep,
      Worker.Timely.step hv.1 hv.2.1 hv.2.2 hok hstep⟩
  have hinitial : P .initial :=
    ⟨Worker.initial_sound, Worker.initial_traced, Worker.initial_timely⟩
  have htimely := (Run.exec_invariant hstep hinitial hmeets hexec).2.2
  obtain ⟨now, lead, hclock, hcome⟩ := htimely.sent session row ok hsent
  obtain ⟨tick, htick, heq⟩ := Option.map_eq_some_iff.mp hclock
  cases heq
  exact ⟨tick, htick, hcome⟩

/-- The send of Tuesday's 00:05 warning fails, and the next tick tries again at `now`. -/
def retryingRun (now : DateTime) : List Action :=
  recordingRun ++ [.tick 0 (.task 0 (.deliver (.send false))), .tick 0 .gather, .start now 15,
    .tick 1 (.selectPending true), .tick 1 (.redeliver (.send true))]

def Event.isSentBy (session : Nat) : Event → Bool
  | .sent s _ _ => s == session
  | _ => false

theorem Event.isSentBy_eq_true {session : Nat} {event : Event}
    (h : event.isSentBy session = true) : ∃ row ok, event = .sent session row ok := by
  cases event with
  | sent s row ok =>
      cases beq_iff_eq.mp h
      exact ⟨row, ok, rfl⟩
  | _ => cases h

theorem Worker.sends_still_to_come_retrying :
    ∃ w row ok, Run.exec (Worker.step flatEnv) .initial (retryingRun (mondayNight.addMinutes 10)) =
        some w ∧ .sent 1 row ok ∈ w.log ∧
      ∃ tick, w.ticks[1]? = some tick ∧ StillToCome w.created tick.now row := by
  have hrun : ((Run.exec (Worker.step flatEnv) .initial
      (retryingRun (mondayNight.addMinutes 10))).map (·.log.any (·.isSentBy 1))) = some true := by
    decide +kernel
  obtain ⟨w, hw, hany⟩ := Option.map_eq_some_iff.mp hrun
  obtain ⟨event, hmem, hevent⟩ := List.any_eq_true.mp hany
  obtain ⟨row, ok, rfl⟩ := Event.isSentBy_eq_true hevent
  exact ⟨w, row, ok, hw, hmem, Worker.sends_still_to_come _ (by decide +kernel) hw 1 row ok hmem⟩

/-- Clocks do not run backwards from one tick to the next, and leads are below a day. -/
def InOrder (w : Worker) : Action → Prop
  | .start now leadMinutes => leadMinutes < 1440 ∧ ∀ tick ∈ w.ticks, tick.now ≤ now
  | _ => True

instance (w : Worker) : (a : Action) → Decidable (InOrder w a)
  | .start now leadMinutes =>
      inferInstanceAs (Decidable (leadMinutes < 1440 ∧ ∀ tick ∈ w.ticks, tick.now ≤ now))
  | .tick _ _ => isTrue trivial
  | .createAlert _ => isTrue trivial
  | .deleteAlert _ => isTrue trivial

/-- At 00:10 the warning for 00:05 is sent again. -/
theorem Worker.sends_after_departure :
    ¬ ∀ (actions : List Action) (w : Worker),
      Run.Meets (Worker.step flatEnv) InOrder .initial actions →
      Run.exec (Worker.step flatEnv) .initial actions = some w →
      ∀ session row ok, .sent session row ok ∈ w.log →
        ∃ tick, w.ticks[session]? = some tick ∧ StillToCome w.created tick.now row := by
  intro hall
  let late (w : Worker) (event : Event) : Bool :=
    match event with
    | .sent session row _ =>
        w.ticks[session]?.all fun tick => !decide (StillToCome w.created tick.now row)
    | _ => false
  have hrun : ((Run.exec (Worker.step flatEnv) .initial
      (retryingRun (mondayNight.addMinutes 15))).map fun w => w.log.any (late w)) = some true := by
    decide +kernel
  obtain ⟨w, hw, hany⟩ := Option.map_eq_some_iff.mp hrun
  obtain ⟨event, hmem, hlate⟩ := List.any_eq_true.mp hany
  cases event with
  | sent session row ok =>
      obtain ⟨tick, htick, hcome⟩ := hall _ w (by decide +kernel) hw session row ok hmem
      simp [late, htick, hcome] at hlate
  | _ => cases hlate

end Worker

end FietsOfOv
