import FietsOfOv.Lib.Backlog
import FietsOfOv.Notify.Departures
import FietsOfOv.Notify.Smooth

/-!
# The backlog drains

A redelivery pass whose sends and stamps succeed settles every row it selected, whatever
other ticks and the API do in the meantime.  Since a pass takes the oldest rows first, a
recorded row waits for no more passes than the rows recorded before it fill.
-/

namespace FietsOfOv

open WallClock Relation Transactional

/-! ## Settled rows -/

/-- The row is stamped, or its alert was deleted. -/
def Worker.Settled (w : Worker) (id : Nat) : Prop := (w.lifeOf id).Settled

/-- Every stored row is a recorded one, with a stamp or without. -/
def StoredAsRecorded (db : Database) (log : List Event) : Prop :=
  ∀ n ∈ db.rows, ∃ row ∈ recordedRows log, n = row ∨ ∃ deliveredAt, n = row.stamp deliveredAt

section Effect

variable {pickable : Notification → Prop} {session : Nat} {now : DateTime}
  {alerts : List TripAlert} {f f' : Face}

theorem Effect.recordedRows_subset (h : Effect pickable session now alerts f f') :
    recordedRows f.log ⊆ recordedRows f'.log := by
  intro row hrow
  obtain ⟨event, hevent, heq⟩ := List.mem_filterMap.mp hrow
  exact List.mem_filterMap.mpr ⟨event, h.log_subset hevent, heq⟩

theorem Effect.storedAsRecorded (h : Effect pickable session now alerts f f')
    (hopen : f.db.openOf session = f.writes) (hstored : StoredAsRecorded f.db f.log) :
    StoredAsRecorded f'.db f'.log := by
  have hkeep : ∀ n ∈ f.db.rows, ∃ row ∈ recordedRows f'.log,
      n = row ∨ ∃ deliveredAt, n = row.stamp deliveredAt := by
    intro n hn
    obtain ⟨row, hrow, heq⟩ := hstored n hn
    exact ⟨row, h.recordedRows_subset hrow, heq⟩
  intro n hn
  cases h with
  | inserts _ _ hinsert =>
      rw [(Database.insert_cases hinsert).2.1] at hn
      exact hkeep n hn
  | skips =>
      rw [Database.rows_commit_nil hopen] at hn
      exact hkeep n hn
  | @records db log W U alert row =>
      rw [Database.rows_commit_insert hopen] at hn
      rcases List.mem_append.mp hn with hn | hn
      · exact hkeep n hn
      · refine ⟨row, ?_, Or.inl (List.mem_singleton.mp hn)⟩
        rw [recordedRows_snoc]
        exact List.mem_append_right _ (List.mem_singleton_self _)
  | stamps =>
      rw [Database.rows_commit_stamp hopen] at hn
      obtain ⟨m, hm, rfl⟩ := List.mem_map.mp hn
      obtain ⟨row, hrow, heq⟩ := hkeep m hm
      refine ⟨row, hrow, ?_⟩
      split
      · right
        rcases heq with rfl | ⟨deliveredAt, rfl⟩
        · exact ⟨_, rfl⟩
        · exact ⟨_, rfl⟩
      · exact heq
  | _ => exact hkeep n hn

theorem Effects.storedAsRecorded (h : Effects pickable session now alerts f f')
    (hopen : f.db.openOf session = f.writes) (hstored : StoredAsRecorded f.db f.log) :
    StoredAsRecorded f'.db f'.log := by
  induction h with
  | refl => exact hstored
  | tail hsteps hstep ih => exact hstep.storedAsRecorded (Effects.openOf_eq hsteps hopen) ih

end Effect

variable {env : Env} {w w' : Worker} {k id : Nat} {n : Notification}

theorem Worker.step_storedAsRecorded (h : w.Sound) (hstored : StoredAsRecorded w.db w.log)
    {a : Action} (hstep : w.step env a = some w') : StoredAsRecorded w'.db w'.log := by
  have hmoves := step_moves hstep
  cases hmoves with
  | starts now leadMinutes => exact hstored
  | @ticks k act tick s hk htick =>
      have horderly := h.orderly k tick hk
      have heffects : Effects (fun _ => True) k tick.now tick.alerts (w.stateOf tick).face s.face :=
        tickStep_effects horderly (fun _ _ _ => trivial) htick
      exact heffects.storedAsRecorded horderly.writes hstored
  | creates hnew => exact hstored
  | deletes hdelete =>
      obtain ⟨_, rfl⟩ := Database.deleteAlert_cases hdelete
      intro n hn
      exact hstored n (Table.mem_rows_delete.mp hn).1

theorem Worker.Reachable.storedAsRecorded (h : w.Reachable env) : StoredAsRecorded w.db w.log := by
  obtain ⟨actions, hexec⟩ := h
  have hstep : ∀ v a v', (v.Sound ∧ StoredAsRecorded v.db v.log) → True →
      Worker.step env v a = some v' → v'.Sound ∧ StoredAsRecorded v'.db v'.log :=
    fun v a v' hv _ hstep => ⟨hv.1.step hstep, Worker.step_storedAsRecorded hv.1 hv.2 hstep⟩
  have hinitial : StoredAsRecorded Worker.initial.db Worker.initial.log := by
    intro n hn
    cases hn
  exact (Run.exec_invariant hstep ⟨Worker.initial_sound, hinitial⟩ (Run.meets_true _ _) hexec).2

theorem Worker.Reachable.exec (h : w.Reachable env) {actions : List Action}
    (hexec : Run.exec (Worker.step env) w actions = some w') : w'.Reachable env := by
  obtain ⟨before, hbefore⟩ := h
  exact ⟨before ++ actions, Run.exec_append hbefore hexec⟩

theorem Worker.Reachable.step (h : w.Reachable env) {a : Action}
    (hstep : w.step env a = some w') : w'.Reachable env := by
  have hexec : Run.exec (Worker.step env) w [a] = some w' :=
    Run.exec_cons_eq_some.mpr ⟨w', hstep, rfl⟩
  exact h.exec hexec

/-- What is settled stays so. -/
theorem Worker.Settled.step (h : w.Settled id) (hreach : w.Reachable env) {a : Action}
    (hstep : w.step env a = some w') : w'.Settled id := by
  have hsteps : Outbox.Steps False _ _ :=
    Worker.step_lifeSteps hreach.sound hreach.lives_sound (by simp) hstep id
  exact hsteps.settled h

theorem Worker.step_recordedRows (h : w.Sound) {a : Action} (hstep : w.step env a = some w') :
    recordedRows w.log ⊆ recordedRows w'.log := by
  have hmoves := step_moves hstep
  cases hmoves with
  | @ticks k act tick s hk htick =>
      have heffects : Effects (fun _ => True) k tick.now tick.alerts (w.stateOf tick).face s.face :=
        tickStep_effects (h.orderly k tick hk) (fun _ _ _ => trivial) htick
      intro row hrow
      obtain ⟨event, hevent, heq⟩ := List.mem_filterMap.mp hrow
      exact List.mem_filterMap.mpr ⟨event, heffects.log_subset hevent, heq⟩
  | starts now leadMinutes => exact fun _ hrow => hrow
  | creates hnew => exact fun _ hrow => hrow
  | deletes hdelete => exact fun _ hrow => hrow

theorem Worker.exec_keeps (hreach : w.Reachable env) {actions : List Action}
    (hexec : Run.exec (Worker.step env) w actions = some w') :
    (∀ id, w.Settled id → w'.Settled id) ∧ recordedRows w.log ⊆ recordedRows w'.log := by
  induction actions generalizing w with
  | nil =>
      cases hexec
      exact ⟨fun _ h => h, fun _ h => h⟩
  | cons a actions ih =>
      obtain ⟨v, hv, hrest⟩ := Run.exec_cons_eq_some.mp hexec
      obtain ⟨hsettled, hrecorded⟩ := ih (hreach.step hv) hrest
      refine ⟨fun id h => hsettled id (h.step hreach hv), ?_⟩
      intro row hrow
      exact hrecorded (Worker.step_recordedRows hreach.sound hv hrow)

/-- A recorded row is settled if every stored row with its number has a stamp. -/
theorem Worker.settled_iff (hrecorded : ∃ row ∈ recordedRows w.log, row.id = id)
    (hkeyed : w.db.notifications.WellKeyed Notification.schema) :
    w.Settled id ↔ ∀ n ∈ w.db.rows, n.id = id → n.deliveredAt ≠ none := by
  obtain ⟨row, hrow, rfl⟩ := hrecorded
  have hany : (recordedRows w.log).any (·.id == row.id) = true :=
    List.any_eq_true.mpr ⟨row, hrow, beq_self_eq_true _⟩
  constructor
  · rintro ⟨_, hdelivered⟩ n hn hid
    have hstored : w.db.rows.any (·.id == row.id) = true :=
      List.any_eq_true.mpr ⟨n, hn, beq_iff_eq.mpr hid⟩
    obtain ⟨m, hm, hmark⟩ := List.any_eq_true.mp (hdelivered hstored)
    rw [Bool.and_eq_true, beq_iff_eq] at hmark
    have heq : n = m := hkeyed.eq_of_ident hn hm (hid.trans hmark.1.symm)
    rw [heq]
    exact Option.isSome_iff_ne_none.mp hmark.2
  · intro h
    refine ⟨hany, fun hstored => ?_⟩
    obtain ⟨n, hn, hid⟩ := List.any_eq_true.mp hstored
    have hmark := Option.isSome_iff_ne_none.mpr (h n hn (beq_iff_eq.mp hid))
    exact List.any_eq_true.mpr ⟨n, hn, by rw [Bool.and_eq_true]; exact ⟨hid, hmark⟩⟩

/-! ## A pass -/

/-- The send, the stamp or its commit goes through. -/
def DeliverAct.succeeds : DeliverAct → Bool
  | .send ok => ok
  | .acquire => true
  | .update ok _ => ok
  | .commit ok => ok

/-- A redelivery of tick `k` goes through; nothing is asked of other steps. -/
def Action.SucceedsFor (k : Nat) : Action → Prop
  | .tick j (.redeliver act) => j = k → act.succeeds = true
  | _ => True

/-- Tick `k` selects and redelivers its rows, and all its redeliveries go through.  Other
    ticks and the API move in between. -/
def Worker.Pass (env : Env) (day : Int) (w w' : Worker) : Prop :=
  ∃ k tick actions tick', w.ticks[k]? = some tick ∧ tick.now.date ≤ day ∧
    Run.exec (Worker.step env) w (.tick k (.selectPending true) :: actions) = some w' ∧
    (∀ a ∈ actions, a.SucceedsFor k) ∧ w'.ticks[k]? = some tick' ∧ tick'.stage = .selectingDue

/-- Tick `k` can read the instances it has left, and each of the selected rows is settled or
    among them. -/
def Worker.Redelivering (w : Worker) (k : Nat) (selected : List Nat) : Prop :=
  ∃ tick, w.ticks[k]? = some tick ∧
    (∀ inst ∈ tick.stage.instances, tick.loop.rollbacks ≤ inst.loaded) ∧
    ∀ id ∈ selected, (∃ row ∈ recordedRows w.log, row.id = id) ∧
      (w.Settled id ∨ ∃ inst ∈ tick.stage.instances, inst.row.id = id)

theorem DeliverAct.writeFails_of_succeeds {act : DeliverAct} (h : act.succeeds = true) :
    act.writeFails = false := by
  cases act with
  | send ok => rfl
  | acquire => rfl
  | update ok deliveredAt =>
      rw [DeliverAct.succeeds] at h
      rw [h]
      rfl
  | commit ok =>
      rw [DeliverAct.succeeds] at h
      rw [h]
      rfl

@[simp] theorem nextRedelivery_instances (insts : List Instance) :
    (nextRedelivery insts).instances = insts := by
  cases insts <;> rfl

/-- The rows with this number have their stamp. -/
def Stamped (db : Database) (id : Nat) : Prop := ∀ n ∈ db.rows, n.id = id → n.deliveredAt ≠ none

section Tick

variable {session : Nat} {s s' : TickState} {act : TickAct}

/-- Committing the stamp of a row stamps it. -/
theorem stamped_commit {db : Database} {deliveredAt : Timestamp}
    (hopen : db.openOf session = [.update id deliveredAt]) : Stamped (db.commit session) id := by
  intro n hn hid
  rw [Database.rows_commit_stamp hopen] at hn
  obtain ⟨m, _, rfl⟩ := List.mem_map.mp hn
  by_cases hm : m.id = id
  · rw [if_pos hm]
    exact Option.some_ne_none _
  · rw [if_neg hm] at hid
    exact absurd hid hm

/-- One redelivery that goes through: no instance becomes unreadable, and only a stamped row
    is left behind. -/
theorem redelivery_settles (horderly : Orderly session s) (halive : s.tick.alive = true)
    {inst : Instance} {d : Delivery} {rest : List Instance} {act : DeliverAct} {site : Site}
    {progress : Progress} (hstage : s.tick.stage = .redelivering inst d rest)
    (hdeliver : deliverStep session false inst s.site d act = some (site, progress))
    (hact : act.succeeds = true) (hfresh : s.tick.loop.rollbacks ≤ inst.loaded) :
    site.loop.rollbacks = s.tick.loop.rollbacks ∧ progress ≠ .raised ∧
      ∀ ok, progress = .returned ok → Stamped site.db inst.row.id := by
  have hsmooth := deliverStep_smooth hdeliver hfresh (DeliverAct.writeFails_of_succeeds hact)
  refine ⟨hsmooth.rollbacks_eq, hsmooth.not_raised, ?_⟩
  intro ok hreturned
  have htasks := horderly.idle (by simp [hstage])
  have hwrites := horderly.writes
  rw [Tick.writes, if_pos halive, hstage, htasks, List.flatMap_nil, List.append_nil] at hwrites
  cases hsmooth with
  | sends => cases hreturned
  | sendFails => cases hact
  | acquires hfree => cases hreturned
  | updates => cases hreturned
  | stamps => exact stamped_commit hwrites

/-- The step lemma of a pass: a tick keeps its instances readable, and leaves one behind only
    with its row stamped. -/
theorem tickStep_redelivers (horderly : Orderly session s)
    (hfresh : ∀ inst ∈ s.tick.stage.instances, s.tick.loop.rollbacks ≤ inst.loaded)
    (hact : ∀ deliver, act = .redeliver deliver → deliver.succeeds = true)
    (h : tickStep env session s act = some s') :
    (∀ inst ∈ s'.tick.stage.instances, s'.tick.loop.rollbacks ≤ inst.loaded) ∧
      ∀ inst ∈ s.tick.stage.instances,
        inst ∈ s'.tick.stage.instances ∨ Stamped s'.db inst.row.id := by
  obtain ⟨halive, hmoves⟩ := tickStep_moves h
  have hidle : ∀ {stage : Stage}, s.tick.stage = stage → stage.instances = [] →
      ∀ inst ∈ s.tick.stage.instances,
        inst ∈ s'.tick.stage.instances ∨ Stamped s'.db inst.row.id := by
    intro stage hstage hnone inst hinst
    rw [hstage, hnone] at hinst
    cases hinst
  cases hmoves with
  | selects hstage =>
      refine ⟨?_, hidle hstage rfl⟩
      intro inst hinst
      simp only [TickState.atStage, nextRedelivery_instances] at hinst
      obtain ⟨n, _, rfl⟩ := List.mem_map.mp hinst
      exact Nat.le_refl _
  | selectFails hstage => exact ⟨by simp [TickState.atStage, Stage.instances], hidle hstage rfl⟩
  | @redelivers inst d d' rest deliver site hstage hdeliver =>
      have hinst : inst ∈ s.tick.stage.instances := by
        rw [hstage]
        exact List.mem_cons_self
      obtain ⟨hrollbacks, -, -⟩ := redelivery_settles horderly halive hstage hdeliver
        (hact deliver rfl) (hfresh inst hinst)
      rw [hstage] at hfresh ⊢
      refine ⟨fun i hi => ?_, fun i hi => Or.inl hi⟩
      simp only [TickState.atStage, hrollbacks]
      exact hfresh i hi
  | @redelivered inst d rest deliver site ok hstage hdeliver =>
      have hinst : inst ∈ s.tick.stage.instances := by
        rw [hstage]
        exact List.mem_cons_self
      obtain ⟨hrollbacks, -, hstamped⟩ := redelivery_settles horderly halive hstage hdeliver
        (hact deliver rfl) (hfresh inst hinst)
      rw [hstage] at hfresh ⊢
      refine ⟨fun i hi => ?_, fun i hi => ?_⟩
      · simp only [TickState.atStage, nextRedelivery_instances] at hi
        simp only [TickState.atStage, hrollbacks]
        exact hfresh i (List.mem_cons_of_mem _ hi)
      · rcases List.mem_cons.mp hi with rfl | hi
        · exact Or.inr (hstamped ok rfl)
        · left
          simp only [TickState.atStage, nextRedelivery_instances]
          exact hi
  | @redeliveryRaises inst d rest deliver site hstage hdeliver =>
      have hinst : inst ∈ s.tick.stage.instances := by
        rw [hstage]
        exact List.mem_cons_self
      obtain ⟨-, hraised, -⟩ := redelivery_settles horderly halive hstage hdeliver
        (hact deliver rfl) (hfresh inst hinst)
      exact absurd rfl hraised
  | startsSweep hstage houtcome =>
      exact ⟨by simp [TickState.startSweep, Stage.instances], hidle hstage rfl⟩
  | dueFails hstage houtcome => exact ⟨hfresh, hidle hstage rfl⟩
  | sweeps hstage hi htask =>
      refine ⟨?_, hidle hstage rfl⟩
      simp [TickState.setTask, hstage, Stage.instances]
  | gatherRaises hstage houtcome hraised => exact ⟨hfresh, hidle hstage rfl⟩
  | gathers hstage houtcome hfinished => exact ⟨hfresh, hidle hstage rfl⟩
  | dies => exact ⟨hfresh, fun inst hinst => Or.inl hinst⟩

end Tick

/-- A step of anything else leaves tick `k` alone. -/
theorem Worker.step_other {a : Action} (hstep : w.step env a = some w')
    (hother : ∀ act, a ≠ .tick k act) {tick : Tick} (hk : w.ticks[k]? = some tick) :
    w'.ticks[k]? = some tick := by
  have hmoves := step_moves hstep
  cases hmoves with
  | starts now leadMinutes =>
      have hlt : k < w.ticks.length := (List.getElem?_eq_some_iff.mp hk).1
      rw [List.getElem?_append_left hlt]
      exact hk
  | @ticks j act other s hj htick =>
      have hne : j ≠ k := by
        rintro rfl
        exact hother act rfl
      simp only [Worker.setTick]
      rw [List.getElem?_set_ne hne]
      exact hk
  | creates hnew => exact hk
  | deletes hdelete => exact hk

theorem Worker.Redelivering.step {selected : List Nat} (h : w.Redelivering k selected)
    (hreach : w.Reachable env) {a : Action} (hok : a.SucceedsFor k)
    (hstep : w.step env a = some w') : w'.Redelivering k selected := by
  obtain ⟨tick, hk, hfresh, hselected⟩ := h
  have hrecorded := Worker.step_recordedRows hreach.sound hstep
  by_cases hown : ∃ act, a = .tick k act
  · obtain ⟨act, rfl⟩ := hown
    have hmoves := step_moves hstep
    cases hmoves with
    | @ticks _ _ tick' s hk' htick =>
        cases hk.symm.trans hk'
        have hact : ∀ deliver, act = .redeliver deliver → deliver.succeeds = true := by
          rintro deliver rfl
          exact hok rfl
        obtain ⟨hfresh', hleft⟩ :=
          tickStep_redelivers (hreach.sound.orderly k tick hk) hfresh hact htick
        have hlt : k < w.ticks.length := (List.getElem?_eq_some_iff.mp hk).1
        refine ⟨s.tick, by simp [Worker.setTick, hlt], hfresh', ?_⟩
        intro id hid
        obtain ⟨⟨row, hrow, rfl⟩, hcases⟩ := hselected id hid
        have hrow' : ∃ row' ∈ recordedRows (w.setTick k s).log, row'.id = row.id :=
          ⟨row, hrecorded hrow, rfl⟩
        refine ⟨hrow', ?_⟩
        rcases hcases with hsettled | ⟨inst, hinst, hinst_id⟩
        · exact Or.inl (hsettled.step hreach hstep)
        · rcases hleft inst hinst with hinst | hstamped
          · exact Or.inr ⟨inst, hinst, hinst_id⟩
          · left
            rw [hinst_id] at hstamped
            exact (Worker.settled_iff hrow' (hreach.step hstep).sound.keyed).mpr hstamped
  · rw [not_exists] at hown
    refine ⟨tick, Worker.step_other hstep hown hk, hfresh, ?_⟩
    intro id hid
    obtain ⟨⟨row, hrow, rfl⟩, hcases⟩ := hselected id hid
    refine ⟨⟨row, hrecorded hrow, rfl⟩, ?_⟩
    rcases hcases with hsettled | hleft
    · exact Or.inl (hsettled.step hreach hstep)
    · exact Or.inr hleft

theorem Worker.Redelivering.exec {selected : List Nat} (h : w.Redelivering k selected)
    (hreach : w.Reachable env) {actions : List Action} (hok : ∀ a ∈ actions, a.SucceedsFor k)
    (hexec : Run.exec (Worker.step env) w actions = some w') : w'.Redelivering k selected := by
  induction actions generalizing w with
  | nil =>
      cases hexec
      exact h
  | cons a actions ih =>
      obtain ⟨v, hv, hrest⟩ := Run.exec_cons_eq_some.mp hexec
      rw [List.forall_mem_cons] at hok
      exact ih (h.step hreach hok.1 hv) (hreach.step hv) hok.2 hrest

/-- The ids of recorded rows are handed out once. -/
theorem Fresh.eq_of_id {db : Database} {log : List Event} (h : Fresh db log)
    {m n : Notification} (hm : m ∈ recordedRows log) (hn : n ∈ recordedRows log)
    (hid : m.id = n.id) : m = n := by
  have hnodup := h.nodup
  rw [List.map_append, List.nodup_append] at hnodup
  exact List.inj_on_of_nodup_map hnodup.1 hm hn hid

theorem Worker.Reachable.recorded_of_row (h : w.Reachable env) {row : Notification}
    (hrow : row ∈ w.db.rows) :
    ∃ n ∈ recordedRows w.log, n.id = row.id ∧ n.createdAt = row.createdAt := by
  obtain ⟨n, hn, heq⟩ := h.storedAsRecorded row hrow
  refine ⟨n, hn, ?_⟩
  rcases heq with rfl | ⟨deliveredAt, rfl⟩
  · exact ⟨rfl, rfl⟩
  · exact ⟨rfl, rfl⟩

/-- **A pass settles what it selects.** -/
theorem Worker.Pass.settles {day : Int} (h : w.Pass env day w') (hreach : w.Reachable env) :
    ∃ today ≤ day, ∀ n ∈ w.db.pending today maxRedeliveriesPerTick, w'.Settled n.id := by
  obtain ⟨k, tick, actions, tick', hk, hday, hexec, hok, hk', hstage'⟩ := h
  refine ⟨tick.now.date, hday, ?_⟩
  obtain ⟨v, hv, hrest⟩ := Run.exec_cons_eq_some.mp hexec
  have hselected : v.Redelivering k
      ((w.db.pending tick.now.date maxRedeliveriesPerTick).map (·.id)) := by
    have hmoves := step_moves hv
    cases hmoves with
    | @ticks _ _ tick₁ s hk₁ htick =>
        cases hk.symm.trans hk₁
        obtain ⟨_, hmoves⟩ := tickStep_moves htick
        cases hmoves with
        | selects hstage =>
            have hlt : k < w.ticks.length := (List.getElem?_eq_some_iff.mp hk).1
            refine ⟨_, by simp only [Worker.setTick]; exact List.getElem?_set_self hlt, ?_, ?_⟩
            · intro inst hinst
              simp only [TickState.atStage, nextRedelivery_instances] at hinst
              obtain ⟨n, _, rfl⟩ := List.mem_map.mp hinst
              exact Nat.le_refl _
            · intro id hid
              obtain ⟨n, hn, rfl⟩ := List.mem_map.mp hid
              have hrow := (Database.mem_undelivered.mp
                (Database.mem_undelivered_of_mem_pending hn)).1
              obtain ⟨row, hrow, hrow_id, _⟩ := hreach.recorded_of_row hrow
              refine ⟨⟨row, hrow, hrow_id⟩, Or.inr ⟨⟨n, tick.loop.rollbacks⟩, ?_, rfl⟩⟩
              simp only [TickState.atStage, nextRedelivery_instances]
              exact List.mem_map_of_mem hn
  obtain ⟨last, hlast, _, hends⟩ := hselected.exec (hreach.step hv) hok hrest
  cases hk'.symm.trans hlast
  intro n hn
  obtain ⟨_, hsettled | ⟨inst, hinst, _⟩⟩ := hends n.id (List.mem_map_of_mem hn)
  · exact hsettled
  · rw [hstage'] at hinst
    cases hinst

/-- Where the loop goes on after a step of the delivery. -/
def Progress.next (inst : Instance) (rest : List Instance) : Progress → Stage
  | .on d => .redelivering inst d rest
  | .returned _ => nextRedelivery rest
  | .raised => .selectingDue

/-- A warning is recorded and its send fails; a minute later the next tick starts. -/
def failedSendRun : List Action :=
  recordingRun ++ [.tick 0 (.task 0 (.deliver (.send false))), .start (mondayNight.addMinutes 1) 15]

/-- A recorded row that is not settled is stored as it was recorded. -/
theorem Worker.Reachable.stored_of_unsettled (h : w.Reachable env) (hn : n ∈ recordedRows w.log)
    (hunsettled : ¬ w.Settled n.id) : n ∈ w.db.rows ∧ n.deliveredAt = none := by
  rw [Worker.settled_iff ⟨n, hn, rfl⟩ h.sound.keyed] at hunsettled
  simp only [ne_eq, not_forall, Decidable.not_not] at hunsettled
  obtain ⟨row, hrow, hid, hnull⟩ := hunsettled
  obtain ⟨m, hm, rfl | ⟨deliveredAt, rfl⟩⟩ := h.storedAsRecorded row hrow
  · cases h.sound.fresh.eq_of_id hm hn hid
    exact ⟨hrow, hnull⟩
  · cases hnull

/-- The row is one of those recorded no later than `n`. -/
def Worker.Older (n : Notification) (w : Worker) (id : Nat) : Prop :=
  ∃ row ∈ recordedRows w.log, row.id = id ∧ row.createdAt ≤ n.createdAt

/-- The worker goes on in any way. -/
def Worker.Reaches (env : Env) (w w' : Worker) : Prop :=
  ∃ actions, Run.exec (Worker.step env) w actions = some w'

theorem Worker.Pass.reaches {day : Int} (h : w.Pass env day w') : w.Reaches env w' := by
  obtain ⟨_, _, actions, _, _, _, hexec, _⟩ := h
  exact ⟨_, hexec⟩

/-- The unstamped rows that a pass leaves out are younger than the fifty it takes. -/
theorem Database.pending_full {db : Database} {today : Int} {limit : Nat}
    (hn : n ∈ db.undelivered today) (hout : n ∉ db.pending today limit) :
    (db.pending today limit).length = limit ∧
      ∀ m ∈ db.pending today limit, m.createdAt ≤ n.createdAt := by
  have htotal : Std.Total fun m n : Notification => m.createdAt ≤ n.createdAt :=
    ⟨fun m n => le_total m.createdAt n.createdAt⟩
  have htrans : IsTrans Notification fun m n => m.createdAt ≤ n.createdAt :=
    ⟨fun _ _ _ => le_trans⟩
  exact Backlog.mem_take_insertionSort hn hout

/-- Passes serve a recorded row fairly. -/
theorem passes_fair (env : Env) (n : Notification) :
    Backlog.Fair (Worker.Reaches env) (Worker.Pass env n.departureDate)
      (fun w => w.Reachable env ∧ n ∈ recordedRows w.log) Worker.Settled (Worker.Older n)
      maxRedeliveriesPerTick n.id where
  keeps := by
    rintro w w' hmoves ⟨hreach, hn⟩
    obtain ⟨actions, hexec⟩ : w.Reaches env w' := by
      rcases hmoves with hreaches | hpass
      · exact hreaches
      · exact hpass.reaches
    obtain ⟨hsettled, hrecorded⟩ := Worker.exec_keeps hreach hexec
    refine ⟨⟨hreach.exec hexec, hrecorded hn⟩, fun id => ⟨hsettled id, ?_⟩⟩
    rintro ⟨row, hrow, hid, hle⟩
    exact ⟨row, hrecorded hrow, hid, hle⟩
  serves := by
    rintro w w' hpass ⟨hreach, hn⟩
    obtain ⟨today, htoday, hsettles⟩ := hpass.settles hreach
    obtain ⟨actions, hexec⟩ := hpass.reaches
    obtain ⟨hsettled, hrecorded⟩ := Worker.exec_keeps hreach hexec
    by_cases hunsettled : w.Settled n.id
    · exact Or.inl (hsettled n.id hunsettled)
    · obtain ⟨hrow, hnull⟩ := hreach.stored_of_unsettled hn hunsettled
      have hundelivered : n ∈ w.db.undelivered today :=
        Database.mem_undelivered.mpr ⟨hrow, hnull, htoday⟩
      by_cases hpicked : n ∈ w.db.pending today maxRedeliveriesPerTick
      · exact Or.inl (hsettles n hpicked)
      · obtain ⟨hfull, hold⟩ := Database.pending_full hundelivered hpicked
        refine Or.inr ⟨(w.db.pending today maxRedeliveriesPerTick).map (·.id),
          Database.pending_ids_nodup hreach.sound.keyed _ _, ?_, ?_⟩
        · rw [List.length_map]
          exact hfull
        · intro id hid
          obtain ⟨m, hm, rfl⟩ := List.mem_map.mp hid
          obtain ⟨hm_row, hm_null, _⟩ :=
            Database.mem_undelivered.mp (Database.mem_undelivered_of_mem_pending hm)
          obtain ⟨row, hrow', hrow_id, hrow_created⟩ := hreach.recorded_of_row hm_row
          refine ⟨?_, hsettles m hm, row, hrecorded hrow', hrow_id, hrow_created ▸ hold m hm⟩
          intro hm_settled
          exact (Worker.settled_iff ⟨row, hrow', hrow_id⟩ hreach.sound.keyed).mp hm_settled m
            hm_row rfl hm_null

/-- **The backlog drains.**  Whatever else happens, a recorded row is stamped, or its alert is
    deleted, after as many passes as the rows recorded no later than it fill. -/
theorem Worker.backlog_drains {m : Nat} (hreach : w.Reachable env) (hn : n ∈ recordedRows w.log)
    (hpasses : Backlog.Rounds (Worker.Reaches env) (Worker.Pass env n.departureDate) m w w')
    (hm : ((recordedRows w'.log).filter (·.createdAt ≤ n.createdAt)).length ≤
      maxRedeliveriesPerTick * m) :
    ∀ row ∈ w'.db.rows, row.id = n.id → row.deliveredAt ≠ none := by
  have hall : ∀ id, Worker.Older n w' id →
      id ∈ ((recordedRows w'.log).filter (·.createdAt ≤ n.createdAt)).map (·.id) := by
    rintro id ⟨row, hrow, rfl, hle⟩
    exact List.mem_map_of_mem (List.mem_filter.mpr ⟨hrow, decide_eq_true hle⟩)
  have hsettled : w'.Settled n.id :=
    (passes_fair env n).settled_of_le hpasses ⟨hreach, hn⟩ ⟨n, hn, rfl, le_rfl⟩ hall
      (by rw [List.length_map]; exact hm)
  obtain ⟨⟨hreach', hn'⟩, _⟩ := (passes_fair env n).keeps_rounds hpasses ⟨hreach, hn⟩
  exact (Worker.settled_iff ⟨n, hn', rfl⟩ hreach'.sound.keyed).mp hsettled

/-- What the next tick does after it has selected the row. -/
def retryActs : List Action :=
  [.tick 1 (.redeliver (.send true)), .tick 1 (.redeliver (.update true 8)),
    .tick 1 (.redeliver (.commit true))]

/-- The row waits in `w`, and the pass of tick 1 from there ends in `w'` with the row stored. -/
def retried (w w' : Worker) (n : Notification) : Bool :=
  w.ticks[1]?.any (·.now.date ≤ n.departureDate) &&
    w'.ticks[1]?.any (·.stage = .selectingDue) &&
    ((recordedRows w'.log).filter (·.createdAt ≤ n.createdAt)).length ≤ maxRedeliveriesPerTick &&
    w'.db.rows.any (·.id = n.id)

theorem Worker.backlog_drains_retried :
    ∃ (w w' : Worker) (n : Notification), w.Reachable flatEnv ∧
      (∃ row ∈ w'.db.rows, row.id = n.id) ∧
      ∀ row ∈ w'.db.rows, row.id = n.id → row.deliveredAt ≠ none := by
  have hrun : (Run.exec (Worker.step flatEnv) .initial failedSendRun).any fun w =>
      (Run.exec (Worker.step flatEnv) w (.tick 1 (.selectPending true) :: retryActs)).any fun w' =>
        (recordedRows w.log).any (retried w w') := by decide +kernel
  obtain ⟨w, hw, hrun⟩ := (Option.any_eq_true _ _).mp hrun
  obtain ⟨w', hw', hrun⟩ := (Option.any_eq_true _ _).mp hrun
  obtain ⟨n, hn, hretried⟩ := List.any_eq_true.mp hrun
  simp only [retried, Bool.and_eq_true, decide_eq_true_eq] at hretried
  obtain ⟨⟨⟨hbefore, hafter⟩, hfew⟩, hstored⟩ := hretried
  obtain ⟨tick, hk, hday⟩ := (Option.any_eq_true _ _).mp hbefore
  obtain ⟨tick', hk', hstage⟩ := (Option.any_eq_true _ _).mp hafter
  obtain ⟨row, hrow, hid⟩ := List.any_eq_true.mp hstored
  have hsucceeds : ∀ a ∈ retryActs, a.SucceedsFor 1 := by
    simp [retryActs, Action.SucceedsFor, DeliverAct.succeeds]
  have hpass : w.Pass flatEnv n.departureDate w' :=
    ⟨1, tick, retryActs, tick', hk, of_decide_eq_true hday, hw', hsucceeds, hk',
      of_decide_eq_true hstage⟩
  have hreach : w.Reachable flatEnv := ⟨failedSendRun, hw⟩
  exact ⟨w, w', n, hreach, ⟨row, hrow, of_decide_eq_true hid⟩,
    Worker.backlog_drains hreach hn (.next ⟨[], rfl⟩ hpass (.rest ⟨[], rfl⟩)) hfew⟩

end FietsOfOv
