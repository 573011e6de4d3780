import FietsOfOv.Lib.Outbox
import FietsOfOv.Notify.Worker

/-!
# The worker refines the outbox

For every row number, what happens to the row in a run of the worker is a life
in the sense of the outbox library: each effect of a tick is a few steps of that
life, whichever tick it comes from.  The guarantees of the outbox are then those
of the worker: no row is marked as delivered that nobody received, and a row
that nobody received stays among those a later tick selects.

The library's bound on duplicate sends asks for more: a row must not be selected
for redelivery while another tick is at work on it.  Nothing in the source sees
to that.
-/

namespace FietsOfOv

open WallClock Relation Transactional

/-! ## The life of a row -/

def Event.isSend (id : Nat) : Event → Bool
  | .sent _ row ok => ok && row.id == id
  | _ => false

def Event.isStamp (id : Nat) (done : Bool) : Event → Bool
  | .stamped _ row ok => ok == done && row.id == id
  | _ => false

/-- The successful sends of a row. -/
def sendsOf (log : List Event) (id : Nat) : Nat := log.countP (·.isSend id)

def stampsOf (log : List Event) (id : Nat) : Nat := log.countP (·.isStamp id true)

/-- The stamps of a row that failed, after a send that did not. -/
def failedStampsOf (log : List Event) (id : Nat) : Nat := log.countP (·.isStamp id false)

def lifeOf (db : Database) (log : List Event) (waiting unstamped : List Notification) (id : Nat) :
    Outbox.Life where
  recorded := (recordedRows log).any (·.id == id)
  stored := db.rows.any (·.id == id)
  delivered := db.rows.any fun n => n.id == id && n.deliveredAt.isSome
  waiting := waiting.countP (·.id == id)
  sent := unstamped.countP (·.id == id)
  sends := sendsOf log id
  stamps := stampsOf log id
  failed := failedStampsOf log id

def Worker.lifeOf (w : Worker) (id : Nat) : Outbox.Life :=
  FietsOfOv.lifeOf w.db w.log w.waiting w.unstamped id

theorem sendsOf_snoc (log : List Event) (event : Event) (id : Nat) :
    sendsOf (log ++ [event]) id = sendsOf log id + (event.isSend id).toNat := by
  cases h : event.isSend id <;> simp [sendsOf, h]

theorem stampsOf_snoc (log : List Event) (event : Event) (id : Nat) :
    stampsOf (log ++ [event]) id = stampsOf log id + (event.isStamp id true).toNat := by
  cases h : event.isStamp id true <;> simp [stampsOf, h]

theorem failedStampsOf_snoc (log : List Event) (event : Event) (id : Nat) :
    failedStampsOf (log ++ [event]) id =
      failedStampsOf log id + (event.isStamp id false).toNat := by
  cases h : event.isStamp id false <;> simp [failedStampsOf, h]

/-- An event that is no insert, no send and no stamp of the row leaves its life alone. -/
theorem lifeOf_snoc_of_ne {db : Database} {log : List Event} {event : Event} {id : Nat}
    (hrecorded : recordedRows [event] = []) (hsend : event.isSend id = false)
    (hstamp : ∀ done, event.isStamp id done = false) (W U : List Notification) :
    lifeOf db (log ++ [event]) W U id = lifeOf db log W U id := by
  simp only [lifeOf, recordedRows_append, hrecorded, List.append_nil, sendsOf_snoc, stampsOf_snoc,
    failedStampsOf_snoc, hsend, hstamp, Bool.toNat_false, Nat.add_zero]

theorem lifeOf_perm {db : Database} {log : List Event} {W W' U U' : List Notification}
    (hW : W.Perm W') (hU : U.Perm U') (id : Nat) :
    lifeOf db log W U id = lifeOf db log W' U' id := by
  simp only [lifeOf, hW.countP_eq, hU.countP_eq]

theorem lifeOf_congr {db db' : Database} (h : db'.rows = db.rows) (log : List Event)
    (W U : List Notification) (id : Nat) :
    lifeOf db' log W U id = lifeOf db log W U id := by
  simp only [lifeOf, h]

section Effect

variable {careful : Prop} {pickable : Notification → Prop} {session : Nat} {now : DateTime}
  {alerts : List TripAlert} {f f' : Face}

/-- Among the rows selected for redelivery, a stored unstamped row occurs once. -/
theorem countP_pending {db : Database} (hkeyed : db.notifications.WellKeyed Notification.schema)
    (today : Int) (id : Nat) :
    (db.pending today maxRedeliveriesPerTick).countP (·.id == id) = 0 ∨
    ((db.pending today maxRedeliveriesPerTick).countP (·.id == id) = 1 ∧
      db.rows.any (·.id == id) = true ∧
      db.rows.any (fun n => n.id == id && n.deliveredAt.isSome) = false ∧
      ∃ n ∈ db.pending today maxRedeliveriesPerTick, n.id = id) := by
  by_cases hsome : ∃ n ∈ db.pending today maxRedeliveriesPerTick, n.id = id
  · right
    obtain ⟨n, hn, rfl⟩ := hsome
    have hundelivered := Database.mem_undelivered_of_mem_pending hn
    obtain ⟨hrow, hnull, _⟩ := Database.mem_undelivered.mp hundelivered
    refine ⟨?_, ?_, ?_, n, hn, rfl⟩
    · have hnodup : ((db.pending today maxRedeliveriesPerTick).map (·.id)).Nodup :=
        Database.pending_ids_nodup hkeyed today _
      have hcount := List.count_eq_one_of_mem hnodup (List.mem_map_of_mem (f := (·.id)) hn)
      rwa [List.count, List.countP_map] at hcount
    · exact List.any_eq_true.mpr ⟨n, hrow, beq_self_eq_true _⟩
    · rw [List.any_eq_false]
      intro m hm
      simp only [Bool.and_eq_true, beq_iff_eq, not_and]
      intro hid
      rw [hkeyed.eq_of_ident hm hrow hid, hnull]
      simp
  · left
    rw [List.countP_eq_zero]
    intro n hn
    simp only [beq_iff_eq]
    intro hid
    exact hsome ⟨n, hn, hid⟩

theorem any_stamp (rows : List Notification) (target id : Nat) (deliveredAt : Timestamp) :
    (rows.map fun n => if n.id = target then n.stamp deliveredAt else n).any (·.id == id) =
      rows.any (·.id == id) := by
  rw [List.any_map]
  congr 1
  funext n
  by_cases h : n.id = target <;> simp [h]

theorem any_stamp_delivered (rows : List Notification) (id : Nat) (deliveredAt : Timestamp) :
    ((rows.map fun n => if n.id = id then n.stamp deliveredAt else n).any
      fun n => n.id == id && n.deliveredAt.isSome) = rows.any (·.id == id) := by
  rw [List.any_map]
  congr 1
  funext n
  by_cases h : n.id = id <;> simp [h]

theorem any_stamp_delivered_other (rows : List Notification) {target id : Nat}
    (hne : target ≠ id) (deliveredAt : Timestamp) :
    ((rows.map fun n => if n.id = target then n.stamp deliveredAt else n).any
      fun n => n.id == id && n.deliveredAt.isSome) =
      rows.any fun n => n.id == id && n.deliveredAt.isSome := by
  rw [List.any_map]
  congr 1
  funext n
  by_cases h : n.id = target <;> simp [h, hne]

/-- A row that is stored was recorded. -/
theorem recorded_of_stored {db : Database} {log : List Event} {W U : List Notification} {id : Nat}
    (hsound : (lifeOf db log W U id).Sound) (hstored : db.rows.any (·.id == id) = true) :
    (recordedRows log).any (·.id == id) = true := by
  by_contra hne
  have hunborn := congrArg Outbox.Life.stored (hsound.unrecorded (Bool.not_eq_true _ ▸ hne))
  simp [lifeOf, Outbox.Life.unborn, hstored] at hunborn

/-- The number of a row that waits for its commit was never recorded. -/
theorem Fresh.unrecorded {db : Database} {log : List Event} {row : Notification}
    (h : Fresh db log) (hpending : row ∈ db.notifications.pendingRows) :
    (recordedRows log).any (·.id == row.id) = false := by
  rw [List.any_eq_false]
  intro n hn
  simp only [beq_iff_eq]
  intro hid
  have hnodup := h.nodup
  rw [List.map_append, List.nodup_append] at hnodup
  exact hnodup.2.2 n.id (List.mem_map_of_mem hn) row.id (List.mem_map_of_mem hpending) hid

section Rows

variable {careful : Prop} {session id : Nat} {db : Database} {log : List Event}
  {W U : List Notification} {row : Notification}

/-- A row that is picked up was stored and has no mark; a careful tick picks it up from nobody. -/
theorem lifeSteps_picks {today : Int} (hkeyed : db.notifications.WellKeyed Notification.schema)
    (hcareful : careful → ∀ n ∈ db.pending today maxRedeliveriesPerTick, ∀ m ∈ W ++ U, m.id ≠ n.id)
    (hsound : (lifeOf db log W U id).Sound) :
    Outbox.Steps careful (lifeOf db log W U id)
      (lifeOf db log (db.pending today maxRedeliveriesPerTick ++ W) U id) := by
  obtain hzero | ⟨hone, hstored, hnull, n, hn, hid⟩ := countP_pending hkeyed today id
  · simp only [lifeOf, List.countP_append, hzero, Nat.zero_add]
    exact .refl
  · have hrecorded : (recordedRows log).any (·.id == id) = true :=
      recorded_of_stored hsound hstored
    have hfree : careful → (W.countP (·.id == id) = 0 ∧ U.countP (·.id == id) = 0) := by
      intro hc
      have hothers := hcareful hc n hn
      simp only [List.countP_eq_zero, beq_iff_eq, ← hid]
      exact ⟨fun m hm => hothers m (List.mem_append_left _ hm),
        fun m hm => hothers m (List.mem_append_right _ hm)⟩
    simp only [lifeOf, List.countP_append, hone, hrecorded, hstored, hnull, Nat.add_comm 1]
    exact .of_step (.pick hfree)

/-- The number of a recorded row comes from the open transaction: nothing was recorded under it. -/
theorem lifeSteps_records {alert : TripAlert} (hopen : db.openOf session = [.insert row])
    (hfresh : Fresh db log) (hnull : row.deliveredAt = none)
    (hsound : (lifeOf db log W U id).Sound) :
    Outbox.Steps careful (lifeOf db log W U id)
      (lifeOf (db.commit session) (log ++ [.recorded session alert (some row)]) (row :: W) U
        id) := by
  by_cases hid : row.id = id
  · have hown : .insert row ∈ db.openOf session := by
      rw [hopen]
      exact List.mem_singleton_self _
    have hpending : row ∈ db.notifications.pendingRows :=
      Table.mem_pendingRows.mpr ⟨session, Table.mem_openOf.mp hown⟩
    have hunrecorded : (recordedRows log).any (·.id == id) = false :=
      hid ▸ hfresh.unrecorded hpending
    have hunborn := hsound.unrecorded hunrecorded
    rw [hunborn]
    simp only [lifeOf, Outbox.Life.unborn, Outbox.Life.mk.injEq] at hunborn
    obtain ⟨hrecorded, hstored, hdelivered, hwaiting, hsent, hsends, hstamps, hfailed⟩ := hunborn
    simp only [lifeOf, Database.rows_commit_insert hopen, recordedRows_snoc, Option.toList_some,
      List.any_append, hrecorded, hstored, hdelivered, sendsOf_snoc, stampsOf_snoc,
      failedStampsOf_snoc, hsends, hstamps, hfailed, List.countP_cons,
      hwaiting, hsent, List.any_cons, List.any_nil, hid, hnull, beq_self_eq_true, if_true]
    exact .of_step .record
  · apply Outbox.Steps.of_eq
    simp [lifeOf, Database.rows_commit_insert hopen, recordedRows_snoc, sendsOf_snoc,
      stampsOf_snoc, failedStampsOf_snoc, Event.isSend, Event.isStamp, hid]

theorem lifeSteps_stamps {deliveredAt : Timestamp}
    (hopen : db.openOf session = [.update row.id deliveredAt]) :
    Outbox.Steps careful (lifeOf db log W (row :: U) id)
      (lifeOf (db.commit session) (log ++ [.stamped session row true]) W U id) := by
  have hrows := Database.rows_commit_stamp hopen
  have hstored := any_stamp db.rows row.id id deliveredAt
  by_cases hid : row.id = id
  · have hdelivered := any_stamp_delivered db.rows id deliveredAt
    simp only [lifeOf, hrows, hid, List.countP_cons, recordedRows_snoc,
      sendsOf_snoc, stampsOf_snoc, failedStampsOf_snoc, Event.isSend, Event.isStamp,
      beq_self_eq_true, if_true, Bool.and_self, Bool.toNat_true, Bool.toNat_false,
      Nat.add_zero, List.append_nil, hdelivered]
    rw [hid] at hstored
    rw [hstored]
    exact .of_step .stamp
  · apply Outbox.Steps.of_eq
    have hdelivered := any_stamp_delivered_other db.rows hid deliveredAt
    rw [lifeOf_snoc_of_ne rfl rfl fun done => by simp [Event.isStamp, hid]]
    simp only [lifeOf, hrows, hstored, hdelivered, List.countP_cons]
    simp [hid]

end Rows

theorem Effect.lifeSteps (h : Effect pickable session now alerts f f')
    (hopen : f.db.openOf session = f.writes) (hfresh : Fresh f.db f.log)
    (hkeyed : f.db.notifications.WellKeyed Notification.schema) (W U : List Notification)
    (hcareful : careful → ∀ n, pickable n → ∀ m ∈ W ++ U, m.id ≠ n.id) (id : Nat)
    (hsound : (lifeOf f.db f.log (f.waiting ++ W) (f.unstamped ++ U) id).Sound) :
    Outbox.Steps careful (lifeOf f.db f.log (f.waiting ++ W) (f.unstamped ++ U) id)
      (lifeOf f'.db f'.log (f'.waiting ++ W) (f'.unstamped ++ U) id) := by
  cases h with
  | @picks db log V hpick =>
      exact lifeSteps_picks hkeyed (fun hc n hn => hcareful hc n (hpick n hn)) hsound
  | reorders hW hU => exact .of_eq (lifeOf_perm (hW.append_right W) (hU.append_right U) id)
  | @givesUp db log W₁ U₁ V rows =>
      simp only [lifeOf, List.append_assoc, List.countP_append]
      exact .giveUps _
  | rollsBack => exact .refl
  | inserts _ _ hinsert =>
      exact .of_eq (lifeOf_congr (Database.insert_cases hinsert).2.1 _ _ _ id).symm
  | skips =>
      apply Outbox.Steps.of_eq
      rw [lifeOf_congr (Database.rows_commit_nil hopen), lifeOf_snoc_of_ne rfl rfl fun _ => rfl]
  | records _ _ hnull => exact lifeSteps_records hopen hfresh hnull hsound
  | @sends db log W₁ U₁ V row =>
      by_cases hid : row.id = id
      · simp only [lifeOf, List.cons_append, List.countP_cons, recordedRows_snoc, sendsOf_snoc,
          stampsOf_snoc, failedStampsOf_snoc, Event.isSend, Event.isStamp, hid, beq_self_eq_true,
          if_true, Bool.and_self, Bool.toNat_true, Bool.toNat_false, Nat.add_zero, List.append_nil]
        exact .of_step .send
      · apply Outbox.Steps.of_eq
        rw [lifeOf_snoc_of_ne rfl (by simp [Event.isSend, hid]) fun _ => rfl]
        simp [lifeOf, hid]
  | @sendFails db log W₁ U₁ V row =>
      by_cases hid : row.id = id
      · rw [lifeOf_snoc_of_ne rfl (by simp [Event.isSend]) fun _ => rfl]
        simp only [lifeOf, List.cons_append, List.countP_cons, hid, beq_self_eq_true, if_true]
        exact .of_step .giveUp
      · apply Outbox.Steps.of_eq
        rw [lifeOf_snoc_of_ne rfl (by simp [Event.isSend]) fun _ => rfl]
        simp [lifeOf, hid]
  | updates => exact .refl
  | stamps => exact lifeSteps_stamps hopen
  | @stampFails db log W₁ U₁ V row =>
      by_cases hid : row.id = id
      · simp only [lifeOf, List.cons_append, List.countP_cons, recordedRows_snoc, sendsOf_snoc,
          stampsOf_snoc, failedStampsOf_snoc, Event.isSend, Event.isStamp, hid, beq_self_eq_true,
          if_true, Bool.and_self, Bool.toNat_true, Bool.toNat_false, Nat.add_zero, List.append_nil]
        exact .of_step .stampFails
      · apply Outbox.Steps.of_eq
        rw [lifeOf_snoc_of_ne rfl rfl fun done => by simp [Event.isStamp, hid]]
        simp [lifeOf, hid]
  | raises => exact .of_eq (lifeOf_snoc_of_ne rfl rfl (fun _ => rfl) _ _).symm

theorem any_filter_of_false {rows : List Notification} {p q : Notification → Bool}
    (h : ∀ n ∈ rows, q n = true → p n = false) : (rows.filter q).any p = false := by
  rw [List.any_eq_false]
  intro n hn
  obtain ⟨hmem, hq⟩ := List.mem_filter.mp hn
  simp [h n hmem hq]

theorem any_filter_of_imp {rows : List Notification} {p q : Notification → Bool}
    (h : ∀ n ∈ rows, p n = true → q n = true) : (rows.filter q).any p = rows.any p := by
  rw [Bool.eq_iff_iff, List.any_eq_true, List.any_eq_true]
  constructor
  · rintro ⟨n, hn, hp⟩
    exact ⟨n, List.mem_of_mem_filter hn, hp⟩
  · rintro ⟨n, hn, hp⟩
    exact ⟨n, List.mem_filter.mpr ⟨hn, h n hn hp⟩, hp⟩

theorem Effects.lifeSteps (h : Effects pickable session now alerts f f')
    (hopen : f.db.openOf session = f.writes) (hfresh : Fresh f.db f.log)
    (hkeyed : f.db.notifications.WellKeyed Notification.schema) (W U : List Notification)
    (hcareful : careful → ∀ n, pickable n → ∀ m ∈ W ++ U, m.id ≠ n.id) (id : Nat)
    (hsound : (lifeOf f.db f.log (f.waiting ++ W) (f.unstamped ++ U) id).Sound) :
    Outbox.Steps careful (lifeOf f.db f.log (f.waiting ++ W) (f.unstamped ++ U) id)
      (lifeOf f'.db f'.log (f'.waiting ++ W) (f'.unstamped ++ U) id) := by
  induction h with
  | refl => exact .refl
  | tail hsteps hstep ih =>
      exact ih.trans (hstep.lifeSteps (Effects.openOf_eq hsteps hopen)
        (Effects.fresh hsteps hopen hfresh) (Effects.wellKeyed hsteps hkeyed) W U hcareful id
        (ih.sound hsound))

end Effect

/-! ## Runs of the worker -/

/-- The action selects no row for redelivery that a living tick is still at work on. -/
def SelectsNoBusyRow (w : Worker) : Action → Prop
  | .tick k (.selectPending true) => ∀ tick ∈ w.ticks[k]?,
      ∀ n ∈ w.db.pending tick.now.date maxRedeliveriesPerTick,
        ∀ m ∈ w.waiting ++ w.unstamped, m.id ≠ n.id
  | _ => True

instance (w : Worker) : (a : Action) → Decidable (SelectsNoBusyRow w a)
  | .tick k (.selectPending true) => inferInstanceAs (Decidable (∀ tick ∈ w.ticks[k]?,
      ∀ n ∈ w.db.pending tick.now.date maxRedeliveriesPerTick,
        ∀ m ∈ w.waiting ++ w.unstamped, m.id ≠ n.id))
  | .tick _ (.selectPending false) => isTrue trivial
  | .tick _ (.redeliver _) => isTrue trivial
  | .tick _ (.selectDue _) => isTrue trivial
  | .tick _ (.task _ _) => isTrue trivial
  | .tick _ .gather => isTrue trivial
  | .tick _ .die => isTrue trivial
  | .start _ _ => isTrue trivial
  | .createAlert _ => isTrue trivial
  | .deleteAlert _ => isTrue trivial

variable {env : Env} {careful : Prop} {w w' : Worker}

/-- A tick that moves takes each row a few steps on. -/
theorem Worker.setTick_lifeSteps (h : w.Sound) (hlives : ∀ id, (w.lifeOf id).Sound) {k : Nat}
    {act : TickAct} {tick : Tick} {s : TickState}
    (hcareful : careful → SelectsNoBusyRow w (.tick k act)) (hk : w.ticks[k]? = some tick)
    (htick : tickStep env k (w.stateOf tick) act = some s) (id : Nat) :
    Outbox.Steps careful (w.lifeOf id) ((w.setTick k s).lifeOf id) := by
  have horderly := h.orderly k tick hk
  let W := (w.ticks.eraseIdx k).flatMap (·.waiting)
  let U := (w.ticks.eraseIdx k).flatMap (·.unstamped)
  have hW : w.waiting.Perm (tick.waiting ++ W) := Pool.flatMap_perm _ hk
  have hU : w.unstamped.Perm (tick.unstamped ++ U) := Pool.flatMap_perm _ hk
  have hbefore : w.lifeOf id =
      FietsOfOv.lifeOf w.db w.log (tick.waiting ++ W) (tick.unstamped ++ U) id :=
    lifeOf_perm hW hU id
  have hafter : (w.setTick k s).lifeOf id =
      FietsOfOv.lifeOf s.db s.log (s.tick.waiting ++ W) (s.tick.unstamped ++ U) id :=
    lifeOf_perm (Pool.flatMap_set_perm _ s.tick hk) (Pool.flatMap_set_perm _ s.tick hk) id
  have hpick : act = .selectPending true →
      ∀ n ∈ w.db.pending tick.now.date maxRedeliveriesPerTick,
        careful → ∀ m ∈ W ++ U, m.id ≠ n.id := by
    rintro rfl n hn hc m hm
    apply hcareful hc tick hk n hn m
    rcases List.mem_append.mp hm with hm | hm
    · exact List.mem_append_left _ (hW.mem_iff.mpr (List.mem_append_right _ hm))
    · exact List.mem_append_right _ (hU.mem_iff.mpr (List.mem_append_right _ hm))
  have heffects := tickStep_effects horderly hpick htick
  have hsound := hlives id
  rw [hbefore] at hsound
  rw [hbefore, hafter]
  exact Effects.lifeSteps heffects horderly.writes h.fresh h.keyed W U
    (fun hc n hn => hn hc) id hsound

/-- With an alert its rows are deleted, and no others. -/
theorem Worker.deleteAlert_lifeSteps (h : w.Sound) {alertId : Nat} {db : Database}
    (hdelete : w.db.deleteAlert alertId = some db) (id : Nat) :
    Outbox.Steps careful (w.lifeOf id) ({ w with db }.lifeOf id) := by
  obtain ⟨_, rfl⟩ := Database.deleteAlert_cases hdelete
  by_cases hgone : ∃ n ∈ w.db.rows, n.id = id ∧ n.tripAlertId = alertId
  · obtain ⟨n, hn, rfl, rfl⟩ := hgone
    have hnone : ∀ m ∈ w.db.rows, (!decide (m.tripAlertId = n.tripAlertId)) = true →
        (m.id == n.id) = false := by
      intro m hm hne
      rw [beq_eq_false_iff_ne]
      intro hid
      have heq : m = n := h.keyed.eq_of_ident hm hn hid
      simp [heq] at hne
    have hstored := any_filter_of_false (p := (·.id == n.id)) hnone
    have hdelivered := any_filter_of_false
      (p := fun m => m.id == n.id && m.deliveredAt.isSome)
      fun m hm hne => by rw [hnone m hm hne, Bool.false_and]
    simp only [Worker.lifeOf, FietsOfOv.lifeOf, Database.rows, Table.delete]
      at hstored hdelivered ⊢
    rw [hstored, hdelivered]
    exact .of_step .delete
  · apply Outbox.Steps.of_eq
    have hkept : ∀ m ∈ w.db.rows, (m.id == id) = true →
        (!decide (m.tripAlertId = alertId)) = true := by
      intro m hm hid
      simp only [Bool.not_eq_true', decide_eq_false_iff_not]
      intro halert
      exact hgone ⟨m, hm, beq_iff_eq.mp hid, halert⟩
    have hstored := any_filter_of_imp (p := (·.id == id)) hkept
    have hdelivered := any_filter_of_imp (p := fun m => m.id == id && m.deliveredAt.isSome)
      fun m hm hid => hkept m hm (Bool.and_eq_true_iff.mp hid).1
    simp only [Worker.lifeOf, FietsOfOv.lifeOf, Database.rows, Table.delete]
      at hstored hdelivered ⊢
    rw [hstored, hdelivered]
    rfl

/-- Every step of the worker is a few steps in the life of each row. -/
theorem Worker.step_lifeSteps (h : w.Sound) (hlives : ∀ id, (w.lifeOf id).Sound) {a : Action}
    (hcareful : careful → SelectsNoBusyRow w a) (hstep : w.step env a = some w') (id : Nat) :
    Outbox.Steps careful (w.lifeOf id) (w'.lifeOf id) := by
  have hmoves := step_moves hstep
  cases hmoves with
  | starts now leadMinutes =>
      apply Outbox.Steps.of_eq
      simp [Worker.lifeOf, Worker.waiting, Worker.unstamped, Tick.opened, Tick.waiting,
        Tick.unstamped, Stage.waiting, Stage.unstamped]
  | ticks hk htick => exact Worker.setTick_lifeSteps h hlives hcareful hk htick id
  | creates hnew => exact .refl
  | deletes hdelete => exact Worker.deleteAlert_lifeSteps h hdelete id

theorem Worker.Reachable.lives_sound (h : w.Reachable env) (id : Nat) : (w.lifeOf id).Sound := by
  obtain ⟨actions, hexec⟩ := h
  have hstep : ∀ v a v', (v.Sound ∧ ∀ id, (v.lifeOf id).Sound) → True →
      Worker.step env v a = some v' → v'.Sound ∧ ∀ id, (v'.lifeOf id).Sound := by
    rintro v a v' ⟨hv, hlives⟩ _ hstep
    refine ⟨hv.step hstep, fun id => ?_⟩
    have hsteps : Outbox.Steps False _ _ := Worker.step_lifeSteps hv hlives (by simp) hstep id
    exact hsteps.sound (hlives id)
  have hinitial : Worker.initial.Sound ∧ ∀ id, (Worker.initial.lifeOf id).Sound :=
    ⟨Worker.initial_sound, fun _ => Outbox.Life.unborn_sound⟩
  exact (Run.exec_invariant hstep hinitial (Run.meets_true _ _) hexec).2 id

/-- As long as no busy row is selected, every row has one worker at a time. -/
theorem lives_single {actions : List Action}
    (hmeets : Run.Meets (Worker.step env) SelectsNoBusyRow .initial actions)
    (hexec : Run.exec (Worker.step env) .initial actions = some w) (id : Nat) :
    (w.lifeOf id).Sound ∧ (w.lifeOf id).Single := by
  let P (v : Worker) : Prop :=
    v.Sound ∧ ∀ id, (v.lifeOf id).Sound ∧ (v.lifeOf id).Single
  have hstep : ∀ v a v', P v → SelectsNoBusyRow v a → Worker.step env v a = some v' → P v' := by
    rintro v a v' ⟨hv, hlives⟩ hcalm hstep
    refine ⟨hv.step hstep, fun id => ?_⟩
    have hsteps : Outbox.Steps True _ _ :=
      Worker.step_lifeSteps hv (fun id => (hlives id).1) (fun _ => hcalm) hstep id
    exact ⟨hsteps.sound (hlives id).1, hsteps.single (hlives id).2⟩
  have hinitial : P .initial :=
    ⟨Worker.initial_sound, fun _ => ⟨Outbox.Life.unborn_sound, Outbox.Life.unborn_single⟩⟩
  exact (Run.exec_invariant hstep hinitial hmeets hexec).2 id

/-! ## Rows stay until their alert is deleted -/

theorem Effect.rows_kept {pickable : Notification → Prop} {session : Nat} {now : DateTime}
    {alerts : List TripAlert} {f f' : Face} (h : Effect pickable session now alerts f f')
    (hopen : f.db.openOf session = f.writes) {n : Notification} (hn : n ∈ f.db.rows) :
    n ∈ f'.db.rows ∨ ∃ deliveredAt, n.stamp deliveredAt ∈ f'.db.rows := by
  cases h with
  | inserts _ _ hinsert =>
      rw [(Database.insert_cases hinsert).2.1]
      exact Or.inl hn
  | skips =>
      rw [Database.rows_commit_nil hopen]
      exact Or.inl hn
  | records =>
      rw [Database.rows_commit_insert hopen]
      exact Or.inl (List.mem_append_left _ hn)
  | @stamps db log W U row deliveredAt =>
      rw [Database.rows_commit_stamp hopen]
      by_cases hid : n.id = row.id
      · exact Or.inr ⟨deliveredAt, List.mem_map.mpr ⟨n, hn, if_pos hid⟩⟩
      · exact Or.inl (List.mem_map.mpr ⟨n, hn, if_neg hid⟩)
  | _ => exact Or.inl hn

theorem Effects.rows_kept {pickable : Notification → Prop} {session : Nat} {now : DateTime}
    {alerts : List TripAlert} {f f' : Face} (h : Effects pickable session now alerts f f')
    (hopen : f.db.openOf session = f.writes) {n : Notification} (hn : n ∈ f.db.rows) :
    n ∈ f'.db.rows ∨ ∃ deliveredAt, n.stamp deliveredAt ∈ f'.db.rows := by
  induction h with
  | refl => exact Or.inl hn
  | tail hsteps hstep ih =>
      have hopen' := Effects.openOf_eq hsteps hopen
      rcases ih with hkept | ⟨deliveredAt, hstamped⟩
      · exact hstep.rows_kept hopen' hkept
      · rcases hstep.rows_kept hopen' hstamped with hkept | ⟨deliveredAt', hrestamped⟩
        · exact Or.inr ⟨deliveredAt, hkept⟩
        · exact Or.inr ⟨deliveredAt', hrestamped⟩

theorem Worker.step_rows_kept (h : w.Sound) {a : Action} (hstep : w.step env a = some w')
    {n : Notification} (hn : n ∈ w.db.rows) (ha : a ≠ .deleteAlert n.tripAlertId) :
    n ∈ w'.db.rows ∨ ∃ deliveredAt, n.stamp deliveredAt ∈ w'.db.rows := by
  have hmoves := step_moves hstep
  cases hmoves with
  | starts now leadMinutes => exact Or.inl hn
  | @ticks k act tick s hk htick =>
      have horderly := h.orderly k tick hk
      have heffects : Effects (fun _ => True) k tick.now tick.alerts (w.stateOf tick).face s.face :=
        tickStep_effects horderly (fun _ _ _ => trivial) htick
      exact heffects.rows_kept horderly.writes hn
  | creates hnew => exact Or.inl hn
  | deletes hdelete =>
      obtain ⟨_, rfl⟩ := Database.deleteAlert_cases hdelete
      refine Or.inl (Table.mem_rows_delete.mpr ⟨hn, ?_⟩)
      simp only [decide_eq_false_iff_not]
      rintro rfl
      exact ha rfl

/-- A row is kept, at most stamped, by every run that does not delete its alert. -/
theorem Worker.exec_rows_kept (h : w.Sound) {actions : List Action}
    (hexec : Run.exec (Worker.step env) w actions = some w') {n : Notification}
    (hn : n ∈ w.db.rows) (hkeep : .deleteAlert n.tripAlertId ∉ actions) :
    n ∈ w'.db.rows ∨ ∃ deliveredAt, n.stamp deliveredAt ∈ w'.db.rows := by
  induction actions generalizing w n with
  | nil =>
      cases hexec
      exact Or.inl hn
  | cons a actions ih =>
      obtain ⟨v, hv, hrest⟩ := Run.exec_cons_eq_some.mp hexec
      have hkeep' := List.ne_and_not_mem_of_not_mem_cons hkeep
      rcases Worker.step_rows_kept h hv hn hkeep'.1.symm with hkept | ⟨deliveredAt, hstamped⟩
      · exact ih (h.step hv) hrest hkept hkeep'.2
      · rcases ih (h.step hv) hrest hstamped hkeep'.2 with hkept | ⟨deliveredAt', hrestamped⟩
        · exact Or.inr ⟨deliveredAt, hkept⟩
        · exact Or.inr ⟨deliveredAt', hrestamped⟩

theorem delivered_of_stamped {n : Notification} (hn : n ∈ w.db.rows)
    (hdelivered : n.deliveredAt ≠ none) : (w.lifeOf n.id).delivered = true :=
  List.any_eq_true.mpr ⟨n, hn, by simpa [Option.isSome_iff_ne_none] using hdelivered⟩

/-! ## No lost warning -/

/-- **No lost warning.**  In every state that a run of the worker reaches, a
    stamped row was sent; and a row that was never sent, or never stamped after a
    send, is still unstamped, and stays among the rows that a later tick selects for
    redelivery, as long as its alert is not deleted and its day has not passed. -/
theorem Worker.no_lost_warning (before : List Action)
    (hbefore : Run.exec (Worker.step env) .initial before = some w)
    (n : Notification) (hn : n ∈ w.db.rows) :
    (n.deliveredAt ≠ none → 0 < sendsOf w.log n.id) ∧
    (stampsOf w.log n.id = 0 → n.deliveredAt = none) ∧
    ∀ (after : List Action) (later : Worker),
      Run.exec (Worker.step env) w after = some later → .deleteAlert n.tripAlertId ∉ after →
      sendsOf later.log n.id = 0 → n.deliveredAt = none ∧
        ∀ today, today ≤ n.departureDate → n ∈ later.db.undelivered today := by
  have hreachable : w.Reachable env := ⟨before, hbefore⟩
  have hlife := hreachable.lives_sound n.id
  refine ⟨?_, ?_, ?_⟩
  · intro hdelivered
    exact hlife.sends_pos (delivered_of_stamped hn hdelivered)
  · intro hunstamped
    by_contra hdelivered
    have hstamps := (hlife.delivered_stamped (delivered_of_stamped hn hdelivered)).2
    exact absurd hunstamped (Nat.ne_of_gt hstamps)
  · intro after later hafter hkeep hunsent
    have hlater : later.Reachable env := ⟨before ++ after, Run.exec_append hbefore hafter⟩
    have hnotStamped : ∀ m ∈ later.db.rows, m.id = n.id → m.deliveredAt = none := by
      intro m hm hid
      by_contra hdelivered
      have hsends := (hlater.lives_sound m.id).sends_pos (delivered_of_stamped hm hdelivered)
      rw [hid] at hsends
      exact absurd hunsent (Nat.ne_of_gt hsends)
    rcases Worker.exec_rows_kept hreachable.sound hafter hn hkeep with hkept | ⟨t, hstamped⟩
    · have hnull := hnotStamped n hkept rfl
      exact ⟨hnull, fun today htoday => Database.mem_undelivered.mpr ⟨hkept, hnull, htoday⟩⟩
    · exact absurd (hnotStamped _ hstamped rfl) (by simp)

/-- A ride from 00:05 to 00:35. -/
def wetRide : Candidate := ⟨.bike, ⟨1800, 300000, 2100000, []⟩⟩

/-- 00:10. -/
def tenPast : Time := ⟨600000000, by decide⟩

/-- One millimetre an hour at 00:10. -/
def shower : RainForecast := ⟨[⟨tenPast, 109, 1⟩]⟩

/-- A tick on Monday night records Tuesday's warning and is about to send it. -/
def recordingRun : List Action :=
  [.createAlert tuesdayMorning, .start mondayNight 15, .tick 0 (.selectPending true),
    .tick 0 (.selectDue true), .tick 0 (.task 0 .start), .tick 0 (.task 0 (.plan (.ok [wetRide]))),
    .tick 0 (.task 0 (.forecast (.ok (some shower)))), .tick 0 (.task 0 .acquire),
    .tick 0 (.task 0 (.insert true 7)), .tick 0 (.task 0 (.commit true))]

theorem Worker.no_lost_warning_recorded :
    ∃ w n, Run.exec (Worker.step flatEnv) .initial recordingRun = some w ∧ n ∈ w.db.rows ∧
      n.deliveredAt = none ∧ n ∈ w.db.undelivered 739768 := by
  have hrun : ((Run.exec (Worker.step flatEnv) .initial recordingRun).map fun w =>
      (w.db.rows.map fun n => (n.id, n.departureDate), sendsOf w.log 0)) =
      some ([(0, 739769)], 0) := by decide +kernel
  obtain ⟨w, hw, heq⟩ := Option.map_eq_some_iff.mp hrun
  rw [Prod.mk.injEq] at heq
  obtain ⟨n, hn, hkey⟩ := List.mem_map.mp (heq.1 ▸ List.mem_singleton_self (0, (739769 : Int)))
  rw [Prod.mk.injEq] at hkey
  have hkept := (Worker.no_lost_warning recordingRun hw n hn).2.2 [] w rfl List.not_mem_nil
    (hkey.1 ▸ heq.2)
  exact ⟨w, n, hw, hn, hkept.1, hkept.2 739768 (by rw [hkey.2]; decide)⟩

/-! ## Duplicate sends -/

/-- **Duplicates need a failed stamp, where no busy row is selected.**  In every run
    whose redelivery passes select no row that a living tick is at work on, a row is
    sent at most once more than its stamps failed. -/
theorem Worker.sends_le_failedStamps (actions : List Action)
    (hmeets : Run.Meets (Worker.step env) SelectsNoBusyRow .initial actions)
    (hexec : Run.exec (Worker.step env) .initial actions = some w) (id : Nat) :
    sendsOf w.log id ≤ failedStampsOf w.log id + 1 := by
  obtain ⟨hsound, hsingle⟩ := lives_single hmeets hexec id
  exact hsingle.sends_le hsound

/-- The tick sends the warning but dies before it stamps the row; the next one sends it again. -/
def resendingRun : List Action :=
  recordingRun ++ [.tick 0 (.task 0 (.deliver (.send true))), .tick 0 .die,
    .start (mondayNight.addMinutes 1) 15, .tick 1 (.selectPending true),
    .tick 1 (.redeliver (.send true))]

theorem Worker.sends_le_failedStamps_resending :
    ∃ w, Run.exec (Worker.step flatEnv) .initial resendingRun = some w ∧
      sendsOf w.log 0 = 2 ∧ sendsOf w.log 0 ≤ failedStampsOf w.log 0 + 1 := by
  have hrun : ((Run.exec (Worker.step flatEnv) .initial resendingRun).map fun w =>
      sendsOf w.log 0) = some 2 := by decide +kernel
  obtain ⟨w, hw, hsends⟩ := Option.map_eq_some_iff.mp hrun
  exact ⟨w, hw, hsends, Worker.sends_le_failedStamps resendingRun (by decide +kernel) hw 0⟩

/-- A second tick starts while the first still sends, selects its row and sends it too. -/
def overlappingRun : List Action :=
  recordingRun ++ [.start (mondayNight.addMinutes 1) 15, .tick 1 (.selectPending true),
    .tick 1 (.redeliver (.send true)), .tick 1 (.redeliver (.update true 8)),
    .tick 1 (.redeliver (.commit true)), .tick 0 (.task 0 (.deliver (.send true)))]

theorem Worker.sends_not_bounded :
    ¬ ∀ (actions : List Action) (w : Worker),
      Run.exec (Worker.step flatEnv) .initial actions = some w →
        ∀ id, sendsOf w.log id ≤ failedStampsOf w.log id + 1 := by
  intro hall
  have hrun : ((Run.exec (Worker.step flatEnv) .initial overlappingRun).map fun w =>
      (sendsOf w.log 0, failedStampsOf w.log 0)) = some (2, 0) := by decide +kernel
  obtain ⟨w, hw, heq⟩ := Option.map_eq_some_iff.mp hrun
  rw [Prod.mk.injEq] at heq
  have hle := hall overlappingRun w hw 0
  rw [heq.1, heq.2] at hle
  exact absurd hle (by decide)

end FietsOfOv
