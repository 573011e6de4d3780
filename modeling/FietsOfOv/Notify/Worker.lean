import FietsOfOv.Lib.Run
import FietsOfOv.Notify.Orderly

/-!
# The worker

Any number of ticks over one database, each with its own session, next to the
API that stores and deletes trip alerts (`app/workers/main.py`,
`app/api/trip_alerts.py`).  arq starts a tick whenever its cron job says so,
whether or not earlier ticks are still running, so the steps of different ticks
come in any order.
-/

namespace FietsOfOv

open WallClock Relation Transactional

structure Worker where
  db : Database
  log : List Event
  ticks : List Tick
  /-- Every trip alert that was ever stored; serial ids are not used again. -/
  created : List TripAlert

inductive Action where
  | start (now : DateTime) (leadMinutes : Nat)
  | tick (k : Nat) (act : TickAct)
  | createAlert (alert : TripAlert)
  | deleteAlert (alertId : Nat)

namespace Worker

def initial : Worker where
  db := ⟨[], ⟨[], [], 0⟩⟩
  log := []
  ticks := []
  created := []

/-- The worker as the tick with number `k` sees it. -/
def stateOf (w : Worker) (tick : Tick) : TickState := ⟨w.db, w.log, tick⟩

def setTick (w : Worker) (k : Nat) (s : TickState) : Worker :=
  ⟨s.db, s.log, w.ticks.set k s.tick, w.created⟩

def step (env : Env) (w : Worker) : Action → Option Worker
  | .start now leadMinutes => some { w with ticks := w.ticks ++ [.opened now leadMinutes] }
  | .tick k act =>
      w.ticks[k]?.bind fun tick => (tickStep env k (w.stateOf tick) act).map (w.setTick k)
  | .createAlert alert =>
      if w.created.any (·.id = alert.id) then none
      else some { w with db := w.db.createAlert alert, created := w.created ++ [alert] }
  | .deleteAlert alertId => (w.db.deleteAlert alertId).map fun db => { w with db }

/-- The rows that living ticks are about to send. -/
def waiting (w : Worker) : List Notification := w.ticks.flatMap (·.waiting)

/-- The rows that living ticks have sent and not stamped yet. -/
def unstamped (w : Worker) : List Notification := w.ticks.flatMap (·.unstamped)

end Worker

/-- The kinds of steps of the worker. -/
inductive WorkerMoves (env : Env) (w : Worker) : Action → Worker → Prop
  | starts (now : DateTime) (leadMinutes : Nat) :
      WorkerMoves env w (.start now leadMinutes)
        { w with ticks := w.ticks ++ [.opened now leadMinutes] }
  | ticks {k : Nat} {act : TickAct} {tick : Tick} {s : TickState} (hk : w.ticks[k]? = some tick)
      (hstep : tickStep env k (w.stateOf tick) act = some s) :
      WorkerMoves env w (.tick k act) (w.setTick k s)
  | creates {alert : TripAlert} (hnew : ∀ other ∈ w.created, other.id ≠ alert.id) :
      WorkerMoves env w (.createAlert alert)
        { w with db := w.db.createAlert alert, created := w.created ++ [alert] }
  | deletes {alertId : Nat} {db : Database} (hdelete : w.db.deleteAlert alertId = some db) :
      WorkerMoves env w (.deleteAlert alertId) { w with db }

theorem step_moves {env : Env} {w w' : Worker} {a : Action} (h : w.step env a = some w') :
    WorkerMoves env w a w' := by
  cases a with
  | start now leadMinutes =>
      cases h
      exact .starts now leadMinutes
  | tick k act =>
      obtain ⟨tick, hk, hrest⟩ := Option.bind_eq_some_iff.mp h
      obtain ⟨s, hstep, rfl⟩ := Option.map_eq_some_iff.mp hrest
      exact .ticks hk hstep
  | createAlert alert =>
      simp only [Worker.step] at h
      split at h
      · cases h
      · rename_i hnew
        cases h
        exact .creates (by simpa using hnew)
  | deleteAlert alertId =>
      obtain ⟨db, hdelete, rfl⟩ := Option.map_eq_some_iff.mp h
      exact .deletes hdelete

/-! ## Row numbers are handed out once -/

/-- The rows whose insert was committed. -/
def recordedRows (log : List Event) : List Notification :=
  log.filterMap fun
    | .recorded _ _ row => row
    | _ => none

/-- Every number in use was handed out once: to a row recorded earlier, even if
    it is deleted by now, or to a row of an open transaction. -/
structure Fresh (db : Database) (log : List Event) : Prop where
  nodup : ((recordedRows log ++ db.notifications.pendingRows).map (·.id)).Nodup
  below : ∀ n ∈ recordedRows log ++ db.notifications.pendingRows, n.id < db.notifications.nextId

theorem recordedRows_append (log log' : List Event) :
    recordedRows (log ++ log') = recordedRows log ++ recordedRows log' := by
  simp [recordedRows]

theorem recordedRows_snoc (log : List Event) (event : Event) :
    recordedRows (log ++ [event]) = recordedRows log ++
      match event with
      | .recorded _ _ row => row.toList
      | _ => [] := by
  rw [recordedRows_append]
  cases event with
  | recorded session alert row => cases row <;> rfl
  | _ => rfl

theorem Fresh.of_sublist {db db' : Database} {log log' : List Event} (h : Fresh db log)
    (hlog : recordedRows log' = recordedRows log)
    (hpending : db'.notifications.pendingRows.Sublist db.notifications.pendingRows)
    (hnext : db'.notifications.nextId = db.notifications.nextId) : Fresh db' log' where
  nodup := by
    rw [hlog]
    exact h.nodup.sublist ((hpending.append_left _).map _)
  below n hn := by
    rw [hlog] at hn
    rw [hnext]
    exact h.below n ((hpending.append_left _).subset hn)

section Effect

variable {pickable : Notification → Prop} {session : Nat} {now : DateTime}
  {alerts : List TripAlert} {f f' : Face}

theorem Effect.fresh (h : Effect pickable session now alerts f f')
    (hopen : f.db.openOf session = f.writes) (hfresh : Fresh f.db f.log) :
    Fresh f'.db f'.log := by
  cases h with
  | rollsBack => exact hfresh.of_sublist rfl (List.filter_sublist.filterMap _) rfl
  | inserts _ _ hinsert =>
      obtain ⟨_, _, hnext, _, ⟨_, _, hpending, _⟩ | ⟨row, _, rfl, _, hpending, _⟩⟩ :=
        Database.insert_cases hinsert
      · refine ⟨by rw [hpending]; exact hfresh.nodup, fun n hn => ?_⟩
        rw [hpending] at hn
        rw [hnext]
        exact Nat.lt_succ_of_lt (hfresh.below n hn)
      · constructor
        · rw [hpending, ← List.append_assoc, List.map_append, List.nodup_append]
          refine ⟨hfresh.nodup, List.nodup_singleton _, ?_⟩
          intro a ha b hb
          obtain ⟨n, hn, rfl⟩ := List.mem_map.mp ha
          rw [List.mem_singleton.mp hb]
          exact Nat.ne_of_lt (hfresh.below n hn)
        · intro n hn
          rw [hpending, ← List.append_assoc] at hn
          rw [hnext]
          rcases List.mem_append.mp hn with hn | hn
          · exact Nat.lt_succ_of_lt (hfresh.below n hn)
          · rw [List.mem_singleton.mp hn]
            exact Nat.lt_succ_self _
  | skips => exact hfresh.of_sublist (by simp [recordedRows]) (List.filter_sublist.filterMap _) rfl
  | @records db log W U alert row =>
      -- the row moves from the open transaction to the recorded ones
      have hperm : (recordedRows (log ++ [.recorded session alert (some row)]) ++
          (db.commit session).notifications.pendingRows).Perm
          (recordedRows log ++ db.notifications.pendingRows) := by
        have hmoved := Table.pendingRows_commit_perm (S := Notification.schema) db.notifications
          session
        have hown : db.notifications.openOf session = [.insert row] := hopen
        rw [hown] at hmoved
        rw [recordedRows_append, List.append_assoc]
        exact hmoved.append_left _
      refine ⟨(hperm.map _).nodup_iff.mpr hfresh.nodup, fun n hn => ?_⟩
      exact hfresh.below n (hperm.subset hn)
  | updates =>
      refine hfresh.of_sublist rfl ?_ rfl
      rw [Database.pendingRows_stamp]
  | stamps => exact hfresh.of_sublist (by simp [recordedRows]) (List.filter_sublist.filterMap _) rfl
  | picks => exact hfresh
  | reorders => exact hfresh
  | givesUp => exact hfresh
  | sends => exact hfresh.of_sublist (by simp [recordedRows]) (List.Sublist.refl _) rfl
  | sendFails => exact hfresh.of_sublist (by simp [recordedRows]) (List.Sublist.refl _) rfl
  | stampFails => exact hfresh.of_sublist (by simp [recordedRows]) (List.Sublist.refl _) rfl
  | raises => exact hfresh.of_sublist (by simp [recordedRows]) (List.Sublist.refl _) rfl

theorem Effects.fresh (h : Effects pickable session now alerts f f')
    (hopen : f.db.openOf session = f.writes) (hfresh : Fresh f.db f.log) :
    Fresh f'.db f'.log := by
  induction h with
  | refl => exact hfresh
  | tail hsteps hstep ih => exact hstep.fresh (Effects.openOf_eq hsteps hopen) ih

/-- Every row, committed or not, has its trip alert. -/
def Referential (db : Database) : Prop :=
  ∀ n ∈ db.rows ++ db.notifications.pendingRows, db.hasAlert n.tripAlertId = true

theorem Referential.commit {db : Database} (h : Referential db) (session : Nat) :
    Referential (db.commit session) := by
  intro n hn
  have hperm := Table.map_commit_perm (S := Notification.schema) (·.tripAlertId) (fun _ _ => rfl)
    db.notifications session
  obtain ⟨m, hm, heq⟩ := List.mem_map.mp (hperm.subset (List.mem_map_of_mem hn))
  rw [← heq]
  exact h m hm

theorem Effect.referential (h : Effect pickable session now alerts f f')
    (hrefers : Referential f.db) : Referential f'.db := by
  cases h with
  | rollsBack =>
      intro n hn
      exact hrefers n ((List.filter_sublist.filterMap _).append_left _ |>.subset hn)
  | inserts _ _ hinsert =>
      obtain ⟨halerts, hrows, _, _, ⟨_, _, hpending, _⟩ | ⟨row, _, rfl, _, hpending, halert, _⟩⟩ :=
        Database.insert_cases hinsert
      · intro n hn
        rw [hrows, hpending] at hn
        simp only [Database.hasAlert, halerts]
        exact hrefers n hn
      · intro n hn
        rw [hrows, hpending, ← List.append_assoc] at hn
        simp only [Database.hasAlert, halerts]
        rcases List.mem_append.mp hn with hn | hn
        · exact hrefers n hn
        · rw [List.mem_singleton.mp hn]
          exact halert
  | skips => exact hrefers.commit session
  | records => exact hrefers.commit session
  | updates =>
      intro n hn
      rw [Database.rows_stamp, Database.pendingRows_stamp] at hn
      exact hrefers n hn
  | stamps => exact hrefers.commit session
  | _ => exact hrefers

theorem Effects.referential (h : Effects pickable session now alerts f f')
    (hrefers : Referential f.db) : Referential f'.db := by
  induction h with
  | refl => exact hrefers
  | tail _ hstep ih => exact hstep.referential ih

end Effect

/-! ## What holds in every reachable state -/

structure Worker.Sound (w : Worker) : Prop where
  orderly : ∀ k tick, w.ticks[k]? = some tick → Orderly k (w.stateOf tick)
  /-- Sessions that no tick has opened yet have no transaction. -/
  unopened : ∀ session, w.ticks.length ≤ session → w.db.openOf session = []
  keyed : w.db.notifications.WellKeyed Notification.schema
  fresh : Fresh w.db w.log
  referential : Referential w.db
  stored : ∀ alert ∈ w.db.tripAlerts, alert ∈ w.created
  serial : (w.created.map (·.id)).Nodup

theorem Worker.initial_sound : Worker.initial.Sound where
  orderly := by simp [initial]
  unopened _ _ := rfl
  keyed := ⟨by simp [initial, Table.pendingRows], by simp [initial, Table.pendingRows],
    by simp [initial, Table.pendingRows]⟩
  fresh := ⟨by simp [initial, recordedRows, Table.pendingRows],
    by simp [initial, recordedRows, Table.pendingRows]⟩
  referential := by simp [Referential, initial, Database.rows, Table.pendingRows]
  stored := by simp [initial]
  serial := by simp [initial]

variable {env : Env} {w w' : Worker}

/-- Only the one tick that moves changes, and its session alone touches the database. -/
theorem Worker.Sound.setTick (h : w.Sound) {k : Nat} {tick : Tick} {act : TickAct}
    {s : TickState} (hk : w.ticks[k]? = some tick)
    (hstep : tickStep env k (w.stateOf tick) act = some s) : (w.setTick k s).Sound := by
  have horderly := h.orderly k tick hk
  have heffects : Effects (fun _ => True) k tick.now tick.alerts (w.stateOf tick).face s.face :=
    tickStep_effects horderly (fun _ _ _ => trivial) hstep
  have hlt : k < w.ticks.length := (List.getElem?_eq_some_iff.mp hk).1
  constructor
  · intro j other hj
    by_cases hjk : k = j
    · subst hjk
      simp only [Worker.setTick, List.getElem?_set_self hlt, Option.some.injEq] at hj
      subst hj
      exact tickStep_orderly horderly hstep
    · simp only [Worker.setTick, List.getElem?_set_ne hjk] at hj
      exact (h.orderly j other hj).congr rfl (heffects.openOf_other hjk)
  · intro session hle
    simp only [Worker.setTick, List.length_set] at hle
    have hne : k ≠ session := by omega
    exact (heffects.openOf_other hne).trans (h.unopened session hle)
  · exact heffects.wellKeyed h.keyed
  · exact heffects.fresh horderly.writes h.fresh
  · exact heffects.referential h.referential
  · intro alert halert
    have heq : s.db.tripAlerts = w.db.tripAlerts := heffects.tripAlerts_eq
    simp only [Worker.setTick, heq] at halert
    exact h.stored alert halert
  · exact h.serial

theorem Database.deleteAlert_cases {db db' : Database} {alertId : Nat}
    (h : db.deleteAlert alertId = some db') :
    (∀ n ∈ db.notifications.pendingRows, n.tripAlertId ≠ alertId) ∧
    db' = ⟨db.tripAlerts.filter (·.id ≠ alertId),
      db.notifications.delete (·.tripAlertId = alertId)⟩ := by
  unfold Database.deleteAlert at h
  split at h
  · cases h
  · rename_i hpending
    cases h
    exact ⟨by simpa using hpending, rfl⟩

theorem Worker.Sound.step (h : w.Sound) {a : Action} (hstep : w.step env a = some w') :
    w'.Sound := by
  have hmoves := step_moves hstep
  cases hmoves with
  | starts now leadMinutes =>
      exact {
        h with
        orderly := by
          intro k tick hk
          rcases Nat.lt_trichotomy k w.ticks.length with hlt | rfl | hgt
          · rw [List.getElem?_append_left hlt] at hk
            exact h.orderly k tick hk
          · simp only [List.getElem?_concat_length, Option.some.injEq] at hk
            subst hk
            exact Tick.opened_orderly (h.unopened _ (Nat.le_refl _))
          · rw [List.getElem?_eq_none (by simp; omega)] at hk
            cases hk
        unopened := by
          intro session hle
          rw [List.length_append] at hle
          exact h.unopened session (Nat.le_of_add_right_le hle) }
  | ticks hk htick => exact h.setTick hk htick
  | @creates alert hnew =>
      exact {
        h with
        orderly := fun k tick hk => (h.orderly k tick hk).congr rfl rfl
        fresh := ⟨h.fresh.nodup, h.fresh.below⟩
        referential := by
          intro n hn
          obtain ⟨other, hother, hid⟩ := Database.hasAlert_iff.mp (h.referential n hn)
          exact Database.hasAlert_iff.mpr ⟨other, List.mem_append_left _ hother, hid⟩
        stored := by
          intro other hother
          rcases List.mem_append.mp hother with hother | hother
          · exact List.mem_append_left _ (h.stored other hother)
          · exact List.mem_append_right _ hother
        serial := by
          rw [List.map_append, List.nodup_append]
          refine ⟨h.serial, List.nodup_singleton _, ?_⟩
          intro a ha b hb
          obtain ⟨other, hother, rfl⟩ := List.mem_map.mp ha
          rw [List.mem_singleton.mp hb]
          exact hnew other hother }
  | @deletes alertId db hdelete =>
      obtain ⟨hpending, rfl⟩ := Database.deleteAlert_cases hdelete
      exact {
        h with
        orderly := fun k tick hk => (h.orderly k tick hk).congr rfl rfl
        keyed := h.keyed.delete _
        fresh := h.fresh.of_sublist rfl (List.Sublist.refl _) rfl
        referential := by
          intro n hn
          -- the alert of a row that is left is not the deleted one
          obtain ⟨hmem, hne⟩ : n ∈ w.db.rows ++ w.db.notifications.pendingRows ∧
              n.tripAlertId ≠ alertId := by
            rcases List.mem_append.mp hn with hn | hn
            · obtain ⟨hrow, hkeep⟩ := Table.mem_rows_delete.mp hn
              exact ⟨List.mem_append_left _ hrow, by simpa using hkeep⟩
            · exact ⟨List.mem_append_right _ hn, hpending n hn⟩
          obtain ⟨alert, halert, hid⟩ := Database.hasAlert_iff.mp (h.referential n hmem)
          refine Database.hasAlert_iff.mpr ⟨alert, List.mem_filter.mpr ⟨halert, ?_⟩, hid⟩
          simpa [hid] using hne
        stored := fun other hother => h.stored other (List.mem_of_mem_filter hother) }

/-- The states a run of the worker can lead to. -/
def Worker.Reachable (env : Env) (w : Worker) : Prop :=
  ∃ actions, Run.exec (Worker.step env) .initial actions = some w

theorem Worker.Reachable.sound (h : w.Reachable env) : w.Sound := by
  obtain ⟨actions, hexec⟩ := h
  exact Run.exec_invariant (fun _ _ _ hs _ hstep => Worker.Sound.step hs hstep) initial_sound
    (Run.meets_true _ _) hexec

end FietsOfOv
