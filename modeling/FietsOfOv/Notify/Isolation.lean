import FietsOfOv.Notify.Delivery
import FietsOfOv.Notify.Sweep

/-!
# Error isolation of a tick

The handlers of `app/services/notify.py` are there so that one failure costs one
alert.  A failing evaluation or send does cost no more than that.  A failing
write does: the handler rolls the session back, and its log line then reads an
instance that the rollback has expired.  Whether a tick is isolated therefore
depends on whether its writes go through.
-/

namespace FietsOfOv

open WallClock Relation

/-! ## What isolation means -/

def Event.session : Event → Nat
  | .recorded session _ _ => session
  | .sent session _ _ => session
  | .stamped session _ _ => session
  | .deliverRaised session _ => session

/-- There is a row for the departure. -/
def Recorded (db : Database) (key : Nat × Int) : Prop := key ∈ db.rows.map (·.key)

/-- A send was attempted on the row of the departure. -/
def Attempted (log : List Event) (key : Nat × Int) : Prop :=
  ∃ session row ok, .sent session row ok ∈ log ∧ row.key = key

/-- The alerts that are due in a tick. -/
def TickState.due (s : TickState) : List TripAlert :=
  dueTripAlerts s.db.tripAlerts s.tick.now s.tick.leadMinutes

/-- The rows that the redelivery pass of a tick selects. -/
def TickState.pending (s : TickState) : List Notification :=
  s.db.pending s.tick.now.date maxRedeliveriesPerTick

/-- A tick that went from `s₀` to `t` with these actions, in isolation: it returned,
    no delivery raised, each due alert with rain whose insert did not fail has its row
    and a send, and each row selected for redelivery was attempted. -/
structure Isolated (env : Env) (session : Nat) (o : Outcomes) (s₀ : TickState)
    (acts : List TickAct) (t : TickState) : Prop where
  returns : ∃ created, t.tick.outcome = some (.ok created)
  delivers : ∀ row, .deliverRaised session row ∉ t.log
  records : ∀ i alert stmt, s₀.due[i]? = some alert →
    o.warning env s₀.tick.now alert = some stmt →
    (∀ createdAt, .task i (.insert false createdAt) ∉ acts) → .task i (.commit false) ∉ acts →
    Recorded t.db (departureKey alert s₀.tick.now) ∧
      Attempted t.log (departureKey alert s₀.tick.now)
  retries : .selectPending true ∈ acts → ∀ n ∈ s₀.pending, ∃ ok, .sent session n ok ∈ t.log

/-- No insert, no stamp and none of their commits fails. -/
def WritesGoThrough (acts : List TickAct) : Prop := ∀ act ∈ acts, act.writeFails = false

/-- A due alert with rain whose departure had a row before the tick: a send was
    attempted on the row before, or the redelivery pass selects it. -/
def NoneStranded (env : Env) (o : Outcomes) (s₀ : TickState) (acts : List TickAct) : Prop :=
  ∀ alert ∈ s₀.due, ∀ stmt, o.warning env s₀.tick.now alert = some stmt →
    ∀ n ∈ s₀.db.rows, n.key = departureKey alert s₀.tick.now →
      Attempted s₀.log n.key ∨ (.selectPending true ∈ acts ∧ n ∈ s₀.pending)

/-! ## The invariant of a tick whose writes go through -/

/-- The task has, or had, a row for the departure. -/
def Pc.Holds (key : Nat × Int) : Pc → Prop
  | .delivering inst _ => inst.row.key = key
  | .finished (some n) => n.key = key
  | _ => False

/-- What the task of an alert has seen to so far. -/
def Pc.Kept (env : Env) (o : Outcomes) (s₀ : TickState) (db : Database) (log : List Event)
    (alert : TripAlert) : Pc → Prop
  | .forecasting candidates => o.planned alert = .ok candidates
  | .committing _ none => Recorded db (departureKey alert s₀.tick.now)
  | .committing _ (some _) => ¬ Recorded s₀.db (departureKey alert s₀.tick.now)
  | .delivering _ d => Recorded db (departureKey alert s₀.tick.now) ∧
      ¬ Recorded s₀.db (departureKey alert s₀.tick.now) ∧
      (d ≠ .sending → Attempted log (departureKey alert s₀.tick.now))
  | .finished none => o.warning env s₀.tick.now alert = none ∨
      Recorded db (departureKey alert s₀.tick.now)
  | .finished (some n) => n.key = departureKey alert s₀.tick.now ∧
      Recorded db (departureKey alert s₀.tick.now) ∧
      Attempted log (departureKey alert s₀.tick.now)
  | .raised => False
  | _ => True

/-- What holds all along a tick that started from `s₀`, as long as its writes go
    through.  `selected` says whether the redelivery pass has selected its rows. -/
structure Calm (env : Env) (session : Nat) (o : Outcomes) (s₀ : TickState) (selected : Prop)
    (s : TickState) : Prop where
  alive : s.tick.alive = true
  now : s.tick.now = s₀.tick.now
  due : s.due = s₀.due
  untouched : s.tick.stage = .selectingPending → s.db = s₀.db
  running : s.tick.stage ≠ .sweeping → s.tick.outcome = none
  returned : ∀ outcome, s.tick.outcome = some outcome →
    (∃ created, outcome = .ok created) ∧ ∀ task ∈ s.tick.tasks, task.pc.isFinished = true
  current : ∀ inst ∈ s.tick.instances, inst.loaded = s.tick.loop.rollbacks
  loaded : s.tick.stage = .sweeping → s.tick.loaded = s.tick.loop.rollbacks
  quiet : ∀ row, .deliverRaised session row ∉ s.log
  log : s₀.log ⊆ s.log
  waiting : ∀ n ∈ s.tick.stage.waiting, selected ∧ n ∈ s₀.pending
  retried : selected → ∀ n ∈ s₀.pending,
    n ∈ s.tick.stage.waiting ∨ ∃ ok, .sent session n ok ∈ s.log
  alerts : s.tick.stage = .sweeping → s.tick.alerts = s₀.due
  tasks : ∀ task ∈ s.tick.tasks, task.pc.Kept env o s₀ s.db s.log task.alert
  rows : ∀ key, Recorded s.db key →
    Recorded s₀.db key ∨ ∃ task ∈ s.tick.tasks, task.pc.Holds key
  kept : ∀ key, Recorded s₀.db key → Recorded s.db key
  sources : ∀ tick row ok, .sent tick row ok ∈ s.log →
    .sent tick row ok ∈ s₀.log ∨ (selected ∧ row ∈ s₀.pending) ∨ ¬ Recorded s₀.db row.key

section Task

variable {env : Env} {session : Nat} {o : Outcomes} {s₀ : TickState} {alert : TripAlert}
  {site site' : Site} {pc pc' : Pc}

theorem Attempted.mono {log log' : List Event} {key : Nat × Int} (h : Attempted log key)
    (hsub : log ⊆ log') : Attempted log' key := by
  obtain ⟨session, row, ok, hmem, hkey⟩ := h
  exact ⟨session, row, ok, hsub hmem, hkey⟩

theorem Pc.Kept.mono {db db' : Database} {log log' : List Event}
    (h : pc.Kept env o s₀ db log alert) (hdb : ∀ key, Recorded db key → Recorded db' key)
    (hlog : log ⊆ log') : pc.Kept env o s₀ db' log' alert := by
  cases pc with
  | committing stmt notification =>
      cases notification with
      | none => exact hdb _ h
      | some inst => exact h
  | delivering inst d =>
      obtain ⟨hrecorded, hnew, hattempted⟩ := h
      exact ⟨hdb _ hrecorded, hnew, fun hd => (hattempted hd).mono hlog⟩
  | finished result =>
      cases result with
      | none => exact h.imp_right (hdb _)
      | some n =>
          obtain ⟨hkey, hrecorded, hattempted⟩ := h
          exact ⟨hkey, hdb _ hrecorded, hattempted.mono hlog⟩
  | _ => exact h

/-- The answers of the evaluation are the given ones. -/
def TaskAct.Answers (o : Outcomes) (alert : TripAlert) : TaskAct → Prop
  | .plan answer => answer = o.planned alert
  | .forecast answer => answer = o.forecast alert
  | _ => True

theorem Follows.answers {s : TickState} {i : Nat} {task : Task} {act : TaskAct}
    (h : Follows o s (.task i act)) (hi : s.tick.tasks[i]? = some task) :
    act.Answers o task.alert := by
  cases act with
  | plan answer => exact h task hi
  | forecast answer => exact h task hi
  | _ => trivial

/-- A row holds on to its key, and the task to its row. -/
theorem SmoothMoves.holds {act : TaskAct} {now : DateTime} {key : Nat × Int}
    (h : SmoothMoves env session now alert site pc act site' pc') (hholds : pc.Holds key) :
    pc'.Holds key := by
  cases h with
  | delivers => exact hholds
  | delivered => exact hholds
  | _ => cases hholds

theorem SmoothMoves.recorded_mono {act : TaskAct} {now : DateTime} {key : Nat × Int}
    (h : SmoothMoves env session now alert site pc act site' pc')
    (hopen : pc.critical = true → site.db.openOf session = pc.writes)
    (hkey : Recorded site.db key) : Recorded site'.db key := by
  unfold Recorded
  rcases h.keys_eq hopen with heq | ⟨_, _, _, _, heq⟩
  · rw [heq]
    exact hkey
  · rw [heq]
    exact List.mem_append_left _ hkey

/-- A row that is recorded after a step was so before, or the task holds it. -/
theorem SmoothMoves.recorded_cases {act : TaskAct} {now : DateTime} {key : Nat × Int}
    (h : SmoothMoves env session now alert site pc act site' pc')
    (hopen : pc.critical = true → site.db.openOf session = pc.writes)
    (hkey : Recorded site'.db key) : Recorded site.db key ∨ pc'.Holds key := by
  unfold Recorded at hkey ⊢
  rcases h.keys_eq hopen with heq | ⟨_, inst, _, hpc', heq⟩
  · rw [heq] at hkey
    exact Or.inl hkey
  · rw [heq] at hkey
    rcases List.mem_append.mp hkey with hkey | hkey
    · exact Or.inl hkey
    · right
      rw [hpc']
      exact (List.mem_singleton.mp hkey).symm

/-- A row is sent by a step only if its departure was not recorded at first. -/
theorem SmoothMoves.sent_cases {act : TaskAct} {tick : Nat} {row : Notification} {ok : Bool}
    (h : SmoothMoves env session s₀.tick.now alert site pc act site' pc')
    (hkept : pc.Kept env o s₀ site.db site.log alert) (hsound : pc.Sound s₀.tick.now alert)
    (hrow : .sent tick row ok ∈ site'.log) :
    .sent tick row ok ∈ site.log ∨ ¬ Recorded s₀.db row.key := by
  obtain ⟨events, hlog, -, hsent⟩ := h.log_eq
  rw [hlog] at hrow
  rcases List.mem_append.mp hrow with hrow | hrow
  · exact Or.inl hrow
  · obtain ⟨inst, rfl, -, -, rfl⟩ := (hsent tick row ok).mp hrow
    have hkey : inst.row.key = departureKey alert s₀.tick.now := hsound
    exact Or.inr (hkey ▸ hkept.2.1)

/-- The step lemma of a task: it sees to what it is there for. -/
theorem SmoothMoves.kept {act : TaskAct}
    (h : SmoothMoves env session s₀.tick.now alert site pc act site' pc')
    (hkept : pc.Kept env o s₀ site.db site.log alert) (hsound : pc.Sound s₀.tick.now alert)
    (hanswers : act.Answers o alert)
    (hopen : pc.critical = true → site.db.openOf session = pc.writes)
    (hold : ∀ key, Recorded s₀.db key → Recorded site.db key) :
    pc'.Kept env o s₀ site'.db site'.log alert := by
  have hgrows : ∀ key, Recorded site.db key → Recorded site'.db key :=
    fun _ hkey => h.recorded_mono hopen hkey
  obtain ⟨events, hlog, _, hsent⟩ := h.log_eq
  have hsub : site.log ⊆ site'.log := hlog ▸ List.subset_append_left _ _
  have hattempts : ∀ inst ok, pc = .delivering inst .sending → act = .deliver (.send ok) →
      inst.row.key = departureKey alert s₀.tick.now →
      Attempted site'.log (departureKey alert s₀.tick.now) := by
    intro inst ok hpc hact hkey
    have hmem := (hsent session inst.row ok).mpr ⟨inst, hpc, hact, rfl, rfl⟩
    exact ⟨session, inst.row, ok, hlog ▸ List.mem_append_right _ hmem, hkey⟩
  cases h with
  | starts => trivial
  | unassessable hnone =>
      cases hanswers
      exact Or.inl (hnone _)
  | plans => exact hanswers.symm
  | staysDry hnone =>
      cases hanswers
      apply Or.inl
      rw [Outcomes.warning, show o.planned alert = _ from hkept]
      exact hnone
  | warns => trivial
  | acquires => trivial
  | @inserts stmt createdAt db row hinsert =>
      have hkey : stmt.key = departureKey alert s₀.tick.now := hsound
      obtain ⟨_, hrows, _, _, ⟨rfl, _, _, hfound⟩ | ⟨row, rfl, _, _, _, _, hnew⟩⟩ :=
        Database.insert_cases hinsert
      · rcases hfound with ⟨n, hn, hnkey⟩ | ⟨n, hn, _⟩
        · exact hgrows _ (List.mem_map.mpr ⟨n, hn, hnkey.trans hkey⟩)
        · rw [hopen rfl] at hn
          cases hn
      · intro hrecorded
        obtain ⟨n, hn, hnkey⟩ := List.mem_map.mp (hold _ hrecorded)
        exact hnew n hn (hnkey.trans hkey.symm)
  | skips => exact Or.inr (hgrows _ hkept)
  | @records stmt inst =>
      have hkey := (hsound.2 inst rfl).1
      refine ⟨?_, hkept, fun hne => absurd rfl hne⟩
      have hrows : (site.db.commit session).rows = site.db.rows ++ [inst.row] :=
        Database.rows_commit_insert (hopen rfl)
      refine List.mem_map.mpr ⟨inst.row, ?_, hkey⟩
      exact hrows ▸ List.mem_append_right _ (List.mem_singleton_self _)
  | delivers hdeliver =>
      obtain ⟨hrecorded, hnew, hattempted⟩ := hkept
      refine ⟨hgrows _ hrecorded, hnew, fun _ => ?_⟩
      cases hdeliver with
      | sends => exact hattempts _ true rfl rfl hsound
      | acquires => exact (hattempted (by simp)).mono hsub
      | updates => exact (hattempted (by simp)).mono hsub
  | delivered hdeliver =>
      obtain ⟨hrecorded, hnew, hattempted⟩ := hkept
      refine ⟨hsound, hgrows _ hrecorded, ?_⟩
      cases hdeliver with
      | sendFails => exact hattempts _ false rfl rfl hsound
      | stamps => exact (hattempted (by simp)).mono hsub

end Task

section Tick

variable {env : Env} {session : Nat} {o : Outcomes} {s₀ s s' : TickState} {selected : Prop}

/-- A step before the sweep, given what it does to the rows that wait for a send. -/
theorem Calm.atStage (h : Calm env session o s₀ selected s) (htasks : s.tick.tasks = [])
    {selected' : Prop} {site : Site} {stage : Stage}
    (halerts : site.db.tripAlerts = s.db.tripAlerts)
    (hkeys : site.db.rows.map (·.key) = s.db.rows.map (·.key)) (hlog : s.log ⊆ site.log)
    (hquiet : ∀ row, .deliverRaised session row ∉ site.log) (houtcome : s.tick.outcome = none)
    (hstage : stage ≠ .sweeping ∧ stage ≠ .selectingPending)
    (hcurrent : ∀ inst ∈ stage.instances, inst.loaded = site.loop.rollbacks)
    (hwaiting : ∀ n ∈ stage.waiting, selected' ∧ n ∈ s₀.pending)
    (hretried : selected' → ∀ n ∈ s₀.pending,
      n ∈ stage.waiting ∨ ∃ ok, .sent session n ok ∈ site.log)
    (hsources : ∀ tick row ok, .sent tick row ok ∈ site.log →
      .sent tick row ok ∈ s₀.log ∨ (selected' ∧ row ∈ s₀.pending) ∨ ¬ Recorded s₀.db row.key) :
    Calm env session o s₀ selected' (s.atStage site stage) := by
  have hsame : ∀ key, Recorded site.db key ↔ Recorded s.db key := by
    intro key
    rw [Recorded, hkeys, Recorded]
  constructor
  · exact h.alive
  · exact h.now
  · rw [← h.due]
    simp only [TickState.due, TickState.atStage, halerts]
  · intro heq
    exact absurd heq hstage.2
  · intro _
    exact houtcome
  · intro outcome heq
    cases houtcome.symm.trans heq
  · intro inst hinst
    simp only [Tick.instances, TickState.atStage, htasks, List.flatMap_nil, List.append_nil]
      at hinst
    exact hcurrent inst hinst
  · intro heq
    exact absurd heq hstage.1
  · exact hquiet
  · intro event hmem
    exact hlog (h.log hmem)
  · exact hwaiting
  · exact hretried
  · intro heq
    exact absurd heq hstage.1
  · intro task htask
    rw [show (s.atStage site stage).tick.tasks = s.tick.tasks from rfl, htasks] at htask
    cases htask
  · intro key hkey
    rcases h.rows key ((hsame key).mp hkey) with hkey | ⟨task, htask, _⟩
    · exact Or.inl hkey
    · rw [htasks] at htask
      cases htask
  · intro key hkey
    exact (hsame key).mpr (h.kept key hkey)
  · exact hsources

/-- A send takes its row out of the waiting ones, any other step leaves them. -/
theorem SmoothDelivers.sent_of_waiting {required : Bool} {inst : Instance} {d : Delivery}
    {act : DeliverAct} {site site' : Site} {progress : Progress} {n : Notification}
    (h : SmoothDelivers session required inst site d act site' progress)
    (hn : n ∈ d.waiting inst) :
    n ∈ progress.waiting inst ∨ ∃ ok, .sent session n ok ∈ site'.log := by
  cases h with
  | sends =>
      rw [List.mem_singleton.mp hn]
      exact Or.inr ⟨true, List.mem_append_right _ (List.mem_singleton_self _)⟩
  | sendFails =>
      rw [List.mem_singleton.mp hn]
      exact Or.inr ⟨false, List.mem_append_right _ (List.mem_singleton_self _)⟩
  | _ => cases hn

theorem SmoothDelivers.waiting_subset {required : Bool} {inst : Instance} {d : Delivery}
    {act : DeliverAct} {site site' : Site} {progress : Progress}
    (h : SmoothDelivers session required inst site d act site' progress) :
    progress.waiting inst ⊆ d.waiting inst := by
  intro n hn
  cases h with
  | sends => cases required <;> cases hn
  | _ => cases hn

/-- A smooth step of the delivery in the loop of `redeliver_pending`. -/
theorem Calm.redelivers (horderly : Orderly session s) (h : Calm env session o s₀ selected s)
    {inst : Instance} {d : Delivery} {rest : List Instance} {act : DeliverAct} {site : Site}
    {progress : Progress} {stage : Stage} (hstage : s.tick.stage = .redelivering inst d rest)
    (hact : act.writeFails = false)
    (hdeliver : deliverStep session false inst s.site d act = some (site, progress))
    (hnext : stage ≠ .sweeping ∧ stage ≠ .selectingPending)
    (hinstances : stage.instances ⊆ s.tick.stage.instances)
    (hwaiting : ∀ n, n ∈ stage.waiting ↔ n ∈ progress.waiting inst ++ rest.map (·.row)) :
    Calm env session o s₀ selected (s.atStage site stage) := by
  have htasks := horderly.idle (by simp [hstage])
  have hloaded : ∀ i ∈ s.tick.stage.instances, i.loaded = s.tick.loop.rollbacks :=
    fun i hi => h.current i (List.mem_append_left _ hi)
  have hinst : inst ∈ s.tick.stage.instances := by
    rw [hstage]
    exact List.mem_cons_self
  have hsmooth := deliverStep_smooth hdeliver (hloaded inst hinst).ge hact
  have hopen : d.critical = true → s.site.db.openOf session = d.writes inst := by
    intro _
    have hwrites := horderly.writes
    rw [Tick.writes, if_pos h.alive, hstage, htasks, List.flatMap_nil, List.append_nil] at hwrites
    exact hwrites
  have heffects : Effects (fun _ => True) session s.tick.now s.tick.alerts _ _ :=
    redeliver_effects (rest.map (·.row)) hdeliver
  obtain ⟨events, hlog, hquiet, hsent⟩ := hsmooth.log_eq
  have hadded : ∀ event ∈ site.log, event ∈ s.log ∨ event ∈ events := by
    intro event hmem
    rw [hlog] at hmem
    exact List.mem_append.mp hmem
  have hsub : s.log ⊆ site.log := hlog ▸ List.subset_append_left _ _
  have hbefore : s.tick.stage.waiting = d.waiting inst ++ rest.map (·.row) := by
    rw [hstage]
    rfl
  refine h.atStage htasks heffects.tripAlerts_eq (hsmooth.keys_eq hopen) hsub ?_
    (h.running (by simp [hstage])) hnext ?_ ?_ ?_ ?_
  · intro row hmem
    rcases hadded _ hmem with hmem | hmem
    · exact h.quiet row hmem
    · exact hquiet session row hmem
  · intro i hi
    exact (hloaded i (hinstances hi)).trans hsmooth.rollbacks_eq.symm
  · intro n hn
    apply h.waiting n
    rw [hbefore]
    rcases List.mem_append.mp ((hwaiting n).mp hn) with hn | hn
    · exact List.mem_append_left _ (hsmooth.waiting_subset hn)
    · exact List.mem_append_right _ hn
  · intro hselected n hn
    rcases h.retried hselected n hn with hn | ⟨ok, hmem⟩
    · rw [hbefore] at hn
      rcases List.mem_append.mp hn with hn | hn
      · exact (hsmooth.sent_of_waiting hn).imp_left fun hn =>
          (hwaiting n).mpr (List.mem_append_left _ hn)
      · exact Or.inl ((hwaiting n).mpr (List.mem_append_right _ hn))
    · exact Or.inr ⟨ok, hsub hmem⟩
  · intro tick row ok hmem
    rcases hadded _ hmem with hmem | hmem
    · exact h.sources tick row ok hmem
    · obtain ⟨rfl, _, _, rfl⟩ := (hsent tick row ok).mp hmem
      refine Or.inr (Or.inl (h.waiting inst.row ?_))
      rw [hbefore]
      exact List.mem_append_left _ (List.mem_singleton_self _)

/-- A task that makes a smooth step leaves the tick calm. -/
theorem Calm.setTask (horderly : Orderly session s) (h : Calm env session o s₀ selected s)
    {i : Nat} {task : Task} {act : TaskAct} {site : Site} {pc : Pc}
    (hstage : s.tick.stage = .sweeping) (hi : s.tick.tasks[i]? = some task)
    (hanswers : act.Answers o task.alert) (hact : act.writeFails = false)
    (hstep : taskStep env session s.tick.now s.tick.loaded task.alert s.site task.pc act =
      some (site, pc)) :
    Calm env session o s₀ selected (s.setTask i task.alert site pc) := by
  have hmem := List.mem_of_getElem? hi
  have hopen := horderly.openOf_of_critical h.alive hstage hi
  have hsound := horderly.sound task hmem
  have hinstances : ∀ inst ∈ task.pc.instances, inst ∈ s.tick.instances := fun inst hinst =>
    List.mem_append_right _ (List.mem_flatMap.mpr ⟨task, hmem, hinst⟩)
  have hsmooth := taskStep_smooth hstep (h.loaded hstage).ge
    (fun inst hinst => (h.current inst (hinstances inst hinst)).ge) hact
  have heffects : Effects (fun _ => True) session s.tick.now s.tick.alerts s.face
      (s.setTask i task.alert site pc).face := setTask_effects horderly h.alive hstage hi hstep
  have halerts : site.db.tripAlerts = s.db.tripAlerts := heffects.tripAlerts_eq
  have hrollbacks := hsmooth.rollbacks_eq
  obtain ⟨events, hlog, hquiet, -⟩ := hsmooth.log_eq
  have hsub : s.log ⊆ site.log := hlog ▸ List.subset_append_left _ _
  have hgrows : ∀ key, Recorded s.db key → Recorded site.db key :=
    fun _ hkey => hsmooth.recorded_mono hopen hkey
  have hlt := (List.getElem?_eq_some_iff.mp hi).1
  rw [h.now] at hsmooth hsound
  exact {
    alive := h.alive
    now := h.now
    due := by
      rw [← h.due]
      simp only [TickState.due, TickState.setTask, halerts]
    untouched := by
      intro heq
      cases heq.symm.trans hstage
    running := fun hne => absurd hstage hne
    returned := by
      intro outcome heq
      have hfinished := (h.returned outcome heq).2 task hmem
      rw [taskStep_unfinished hstep] at hfinished
      cases hfinished
    current := by
      intro inst hinst
      rcases List.mem_append.mp hinst with hinst | hinst
      · exact (h.current inst (List.mem_append_left _ hinst)).trans hrollbacks.symm
      · obtain ⟨other, hother, hinst⟩ := List.mem_flatMap.mp hinst
        refine hsmooth.current hi (fun u hu v hv => ?_) other hother inst hinst
        exact h.current v (List.mem_append_right _ (List.mem_flatMap.mpr ⟨u, hu, hv⟩))
    loaded := fun _ => (h.loaded hstage).trans hrollbacks.symm
    quiet := by
      intro row hrow
      have hlast : Event.deliverRaised session row ∈ site.log := hrow
      rw [hlog] at hlast
      rcases List.mem_append.mp hlast with hlast | hlast
      · exact h.quiet row hlast
      · exact hquiet session row hlast
    log := fun event hmem => hsub (h.log hmem)
    waiting := h.waiting
    retried := fun hselected n hn =>
      (h.retried hselected n hn).imp_right (Exists.imp fun ok hok => hsub hok)
    alerts := fun _ => (TickState.setTask_alerts hi site pc).trans (h.alerts hstage)
    tasks := by
      intro other hother
      rcases List.mem_or_eq_of_mem_set hother with hother | rfl
      · exact (h.tasks other hother).mono hgrows hsub
      · exact hsmooth.kept (h.tasks task hmem) hsound hanswers hopen h.kept
    rows := by
      intro key hkey
      rcases hsmooth.recorded_cases hopen hkey with hkey | hholds
      · exact (h.rows key hkey).imp_right (Pool.exists_mem_set hi hsmooth.holds)
      · exact Or.inr ⟨⟨task.alert, pc⟩, List.mem_set hlt _, hholds⟩
    kept := fun key hkey => hgrows key (h.kept key hkey)
    sources := by
      intro tick row ok hrow
      rcases hsmooth.sent_cases (h.tasks task hmem) hsound hrow with hrow | hnew
      · exact h.sources tick row ok hrow
      · exact Or.inr (Or.inr hnew) }

/-- The redelivery pass selects what was pending when the tick started. -/
theorem Calm.selects {selected' : Prop} (horderly : Orderly session s)
    (h : Calm env session o s₀ selected s) (hstage : s.tick.stage = .selectingPending)
    (hnow : selected') (hbefore : selected → selected') :
    Calm env session o s₀ selected' (s.atStage s.site (nextRedelivery
      ((s.db.pending s.tick.now.date maxRedeliveriesPerTick).map
        (⟨·, s.tick.loop.rollbacks⟩)))) := by
  have htasks := horderly.idle (by simp [hstage])
  have hpending : s.db.pending s.tick.now.date maxRedeliveriesPerTick = s₀.pending := by
    rw [h.untouched hstage, h.now, TickState.pending]
  have hface := nextRedelivery_face
    (s₀.pending.map (⟨·, s.tick.loop.rollbacks⟩ : Notification → Instance))
  have hrows : (s₀.pending.map (⟨·, s.tick.loop.rollbacks⟩ : Notification → Instance)).map
      (·.row) = s₀.pending := by
    rw [List.map_map]
    exact List.map_id _
  rw [hrows] at hface
  rw [hpending]
  refine h.atStage htasks rfl rfl (fun _ hmem => hmem) h.quiet (h.running (by simp [hstage]))
    (nextRedelivery_stage _) ?_ ?_ ?_ ?_
  · intro inst hinst
    have hmem : inst ∈ s₀.pending.map
        (⟨·, s.tick.loop.rollbacks⟩ : Notification → Instance) := by
      cases hlist : s₀.pending with
      | nil =>
          rw [hlist] at hinst
          cases hinst
      | cons n rest =>
          rw [hlist] at hinst
          exact hinst
    obtain ⟨n, _, rfl⟩ := List.mem_map.mp hmem
    rfl
  · intro n hn
    rw [hface.1] at hn
    exact ⟨hnow, hn⟩
  · intro _ n hn
    rw [hface.1]
    exact Or.inl hn
  · intro tick row ok hmem
    apply (h.sources tick row ok hmem).imp_right
    intro hrest
    exact hrest.imp_left fun hpicked => ⟨hbefore hpicked.1, hpicked.2⟩

/-- A tick that is done with the selected rows has sent each of them. -/
theorem Calm.sent_of_idle (h : Calm env session o s₀ selected s)
    (hidle : s.tick.stage.waiting = []) (hselected : selected) {n : Notification}
    (hn : n ∈ s₀.pending) : ∃ ok, .sent session n ok ∈ s.log := by
  apply (h.retried hselected n hn).resolve_left
  rw [hidle]
  exact List.not_mem_nil

theorem Calm.selectFails (horderly : Orderly session s) (h : Calm env session o s₀ selected s)
    (hstage : s.tick.stage = .selectingPending) :
    Calm env session o s₀ selected (s.atStage (s.site.rollback session) .selectingDue) := by
  refine h.atStage (horderly.idle (by simp [hstage])) rfl rfl (fun _ hmem => hmem) h.quiet
    (h.running (by simp [hstage])) ⟨by simp, by simp⟩ ?_ ?_ ?_ h.sources
  · intro inst hinst
    cases hinst
  · intro n hn
    cases hn
  · intro hselected n hn
    exact Or.inr (h.sent_of_idle (by rw [hstage]; rfl) hselected hn)

theorem Calm.startsSweep (horderly : Orderly session s) (h : Calm env session o s₀ selected s)
    (hstage : s.tick.stage = .selectingDue) (houtcome : s.tick.outcome = none) :
    Calm env session o s₀ selected s.startSweep := by
  have htasks := horderly.idle (by simp [hstage])
  constructor
  · exact h.alive
  · exact h.now
  · exact h.due
  · intro heq
    cases heq
  · intro hne
    exact absurd rfl hne
  · intro outcome heq
    cases houtcome.symm.trans heq
  · intro inst hinst
    obtain ⟨task, htask, hinst⟩ := List.mem_flatMap.mp hinst
    obtain ⟨alert, _, rfl⟩ := List.mem_map.mp htask
    cases hinst
  · intro _
    rfl
  · exact h.quiet
  · exact h.log
  · intro n hn
    cases hn
  · intro hselected n hn
    exact Or.inr (h.sent_of_idle (by rw [hstage]; rfl) hselected hn)
  · intro _
    rw [← h.due]
    simp [Tick.alerts, TickState.startSweep, TickState.due, Function.comp_def]
  · intro task htask
    obtain ⟨alert, _, rfl⟩ := List.mem_map.mp htask
    trivial
  · intro key hkey
    rcases h.rows key hkey with hkey | ⟨task, htask, _⟩
    · exact Or.inl hkey
    · rw [htasks] at htask
      cases htask
  · exact h.kept
  · exact h.sources

/-- The step lemma of a tick. -/
theorem Calm.step (horderly : Orderly session s) (h : Calm env session o s₀ selected s)
    {act : TickAct} (hfollows : Follows o s act) (hact : act.writeFails = false)
    (hstep : tickStep env session s act = some s') :
    Calm env session o s₀ (selected ∨ act = .selectPending true) s' := by
  have hsame : act ≠ .selectPending true → (selected ∨ act = .selectPending true) = selected := by
    intro hne
    simp [hne]
  obtain ⟨_, hmoves⟩ := tickStep_moves hstep
  cases hmoves with
  | selects hstage => exact h.selects horderly hstage (Or.inr rfl) Or.inl
  | selectFails hstage =>
      rw [hsame (by simp)]
      exact h.selectFails horderly hstage
  | @redelivers inst d d' rest act site hstage hdeliver =>
      rw [hsame (by simp)]
      refine h.redelivers horderly hstage hact hdeliver ⟨by simp, by simp⟩ ?_ fun n => Iff.rfl
      rw [hstage]
      intro _ hmem
      exact hmem
  | @redelivered inst d rest act site ok hstage hdeliver =>
      rw [hsame (by simp)]
      have hface := nextRedelivery_face rest
      refine h.redelivers horderly hstage hact hdeliver (nextRedelivery_stage rest) ?_ ?_
      · rw [hstage]
        cases rest with
        | nil => exact List.nil_subset _
        | cons next rest => exact List.subset_cons_self _ _
      · intro n
        rw [hface.1]
        exact Iff.rfl
  | @redeliveryRaises inst d rest act site hstage hdeliver =>
      have hinst : inst ∈ s.tick.stage.instances := by
        rw [hstage]
        exact List.mem_cons_self
      have hloaded := h.current inst (List.mem_append_left _ hinst)
      exact absurd rfl (deliverStep_smooth hdeliver hloaded.ge hact).not_raised
  | startsSweep hstage houtcome =>
      rw [hsame (by simp)]
      exact h.startsSweep horderly hstage houtcome
  | dueFails => cases hfollows
  | @sweeps i task act site pc hstage hi htask =>
      rw [hsame (by simp)]
      exact h.setTask horderly hstage hi (hfollows.answers hi) hact htask
  | gatherRaises hstage houtcome hraised =>
      obtain ⟨task, htask, hpc⟩ := hraised
      have hkept := h.tasks task htask
      rw [hpc] at hkept
      cases hkept
  | gathers hstage houtcome hfinished =>
      rw [hsame (by simp)]
      exact {
        h with
        running := fun hne => absurd hstage hne
        returned := by
          intro outcome heq
          cases heq
          exact ⟨⟨_, rfl⟩, hfinished⟩ }
  | dies => cases hfollows

/-! ## A write that fails -/

/-- A task raised, so the tick will not return; or a delivery did. -/
def Spoiled (session : Nat) (s : TickState) : Prop :=
  ((∃ task ∈ s.tick.tasks, task.pc = .raised) ∧
    ∀ created, s.tick.outcome ≠ some (.ok created)) ∨
  ∃ row, .deliverRaised session row ∈ s.log

theorem Spoiled.step (horderly : Orderly session s) (h : Spoiled session s) {act : TickAct}
    (hstep : tickStep env session s act = some s') : Spoiled session s' := by
  rcases h with ⟨⟨task, htask, hpc⟩, houtcome⟩ | ⟨row, hrow⟩
  · obtain ⟨_, hmoves⟩ := tickStep_moves hstep
    cases hmoves with
    | startsSweep hstage =>
        rw [horderly.idle (by simp [hstage])] at htask
        cases htask
    | @sweeps i other act site pc hstage hi hother =>
        refine Or.inl ⟨Pool.exists_mem_set hi ?_ ⟨task, htask, hpc⟩, houtcome⟩
        -- a task that raised does not move
        intro hraised
        rw [hraised] at hother
        cases act <;> cases hother
    | dueFails => exact Or.inl ⟨⟨task, htask, hpc⟩, by simp [TickState.finishWith]⟩
    | gatherRaises => exact Or.inl ⟨⟨task, htask, hpc⟩, by simp [TickState.finishWith]⟩
    | gathers hstage _ hfinished =>
        have hfinished := hfinished task htask
        rw [hpc] at hfinished
        cases hfinished
    | _ => exact Or.inl ⟨⟨task, htask, hpc⟩, houtcome⟩
  · have heffects : Effects (fun _ => True) session s.tick.now s.tick.alerts s.face s'.face :=
      tickStep_effects horderly (fun _ _ _ => trivial) hstep
    exact Or.inr ⟨row, heffects.log_subset hrow⟩

/-- A write that fails spoils a tick that was calm so far. -/
theorem Calm.spoils (h : Calm env session o s₀ selected s) {act : TickAct}
    (hact : act.writeFails = true)
    (hstep : tickStep env session s act = some s') : Spoiled session s' := by
  obtain ⟨_, hmoves⟩ := tickStep_moves hstep
  have hinst : ∀ {inst d rest}, s.tick.stage = .redelivering inst d rest →
      inst.loaded ≤ s.site.loop.rollbacks := by
    intro inst d rest hstage
    refine (h.current inst (List.mem_append_left _ ?_)).le
    rw [hstage]
    exact List.mem_cons_self
  cases hmoves with
  | redelivers hstage hdeliver =>
      have hraised := (deliverStep_raises hdeliver (hinst hstage) hact).1
      cases hraised
  | redelivered hstage hdeliver =>
      have hraised := (deliverStep_raises hdeliver (hinst hstage) hact).1
      cases hraised
  | redeliveryRaises hstage hdeliver =>
      exact Or.inr ⟨_, (deliverStep_raises hdeliver (hinst hstage) hact).2⟩
  | @sweeps i task act site pc hstage hi htask =>
      have hmem := List.mem_of_getElem? hi
      have hlt := (List.getElem?_eq_some_iff.mp hi).1
      rcases taskStep_raises htask (h.loaded hstage).le (fun inst hinst => (h.current inst
        (List.mem_append_right _ (List.mem_flatMap.mpr ⟨task, hmem, hinst⟩))).le) hact with
        rfl | ⟨row, hrow⟩
      · refine Or.inl ⟨⟨_, List.mem_set hlt _, rfl⟩, fun created heq => ?_⟩
        -- a tick that has returned has no task left to move
        have hfinished := (h.returned _ heq).2 task hmem
        rw [taskStep_unfinished htask] at hfinished
        cases hfinished
      · exact Or.inr ⟨row, hrow⟩
  | _ => cases hact

/-- The run lemma: a tick stays calm for as long as its writes go through, and the
    first one that fails spoils it for good. -/
theorem exec_calm_or_spoiled {t : TickState} {acts : List TickAct} (horderly : Orderly session s)
    (h : Calm env session o s₀ selected s)
    (hmeets : Run.Meets (tickStep env session) (Follows o) s acts)
    (hexec : Run.exec (tickStep env session) s acts = some t) :
    (WritesGoThrough acts ∧ Orderly session t ∧
      Calm env session o s₀ (selected ∨ .selectPending true ∈ acts) t) ∨
    (¬ WritesGoThrough acts ∧ Spoiled session t) := by
  induction acts generalizing s selected with
  | nil =>
      cases hexec
      simp only [List.not_mem_nil, or_false]
      refine Or.inl ⟨?_, horderly, h⟩
      intro act hact
      cases hact
  | cons act acts ih =>
      obtain ⟨u, hu, hrest⟩ := Run.exec_cons_eq_some.mp hexec
      have horderly' := tickStep_orderly horderly hu
      cases hact : act.writeFails with
      | true =>
          have hspoiled : Orderly session u ∧ Spoiled session u := ⟨horderly', h.spoils hact hu⟩
          have hkeeps : ∀ v a v', (Orderly session v ∧ Spoiled session v) → True →
              tickStep env session v a = some v' → Orderly session v' ∧ Spoiled session v' :=
            fun v a v' hv _ hstep => ⟨tickStep_orderly hv.1 hstep, hv.2.step hv.1 hstep⟩
          have hend := Run.exec_invariant hkeeps hspoiled (Run.meets_true _ _) hrest
          refine Or.inr ⟨fun hgo => ?_, hend.2⟩
          rw [hgo act List.mem_cons_self] at hact
          cases hact
      | false =>
          have hcalm := h.step horderly hmeets.1 hact hu
          have hgo : WritesGoThrough (act :: acts) ↔ WritesGoThrough acts := by
            simp [WritesGoThrough, hact]
          have hselected : (selected ∨ .selectPending true ∈ act :: acts) =
              ((selected ∨ act = .selectPending true) ∨ .selectPending true ∈ acts) := by
            rw [List.mem_cons, or_assoc, eq_comm (a := act)]
          rw [hgo, hselected]
          exact ih horderly' hcalm (hmeets.2 u hu) hrest

/-! ## When a tick is isolated -/

theorem calm_opened (o : Outcomes) {db : Database} {log : List Event} (now : DateTime)
    (leadMinutes : Nat) (hsession : ∀ event ∈ log, event.session ≠ session) :
    Calm env session o ⟨db, log, .opened now leadMinutes⟩ False
      ⟨db, log, .opened now leadMinutes⟩ := by
  constructor
  · rfl
  · rfl
  · rfl
  · intro _
    rfl
  · intro _
    exact rfl
  · simp [Tick.opened]
  · simp [Tick.opened, Tick.instances, Stage.instances]
  · simp [Tick.opened]
  · intro row hrow
    exact hsession _ hrow rfl
  · intro _ hmem
    exact hmem
  · simp [Tick.opened, Stage.waiting]
  · exact False.elim
  · simp [Tick.opened]
  · simp [Tick.opened]
  · intro key hkey
    exact Or.inl hkey
  · intro key hkey
    exact hkey
  · intro tick row ok hmem
    exact Or.inl hmem

/-- What a calm tick has done once it has come to its end. -/
theorem Calm.isolated {acts : List TickAct} (h : Calm env session o s₀ selected s)
    (horderly : Orderly session s) (hselected : selected ↔ .selectPending true ∈ acts)
    (hstranded : NoneStranded env o s₀ acts)
    (hstuck : Run.Stuck (tickStep env session) (Follows o) s) :
    Isolated env session o s₀ acts s := by
  obtain ⟨hstage, houtcome⟩ := stuck_ends horderly h.alive h.running hstuck
  obtain ⟨outcome, heq⟩ := Option.ne_none_iff_exists'.mp houtcome
  obtain ⟨⟨created, rfl⟩, hfinished⟩ := h.returned outcome heq
  have hretries : .selectPending true ∈ acts →
      ∀ n ∈ s₀.pending, ∃ ok, .sent session n ok ∈ s.log := by
    intro hacts n hn
    rcases h.retried (hselected.mpr hacts) n hn with hn | hsent
    · rw [hstage] at hn
      cases hn
    · exact hsent
  refine ⟨⟨created, heq⟩, h.quiet, ?_, hretries⟩
  intro i alert stmt hi hwarning _ _
  rw [← h.alerts hstage, Tick.alerts, List.getElem?_map] at hi
  obtain ⟨task, htask, rfl⟩ := Option.map_eq_some_iff.mp hi
  have hmem := List.mem_of_getElem? htask
  have hkept := h.tasks task hmem
  have hdone := hfinished task hmem
  cases hpc : task.pc with
  | finished result =>
      rw [hpc] at hkept
      cases result with
      | some n => exact ⟨hkept.2.1, hkept.2.2⟩
      | none =>
          rcases hkept with hnone | hrecorded
          · rw [hnone] at hwarning
            cases hwarning
          · -- the departure had its row already: from before the tick, or from another task
            refine ⟨hrecorded, ?_⟩
            rcases h.rows _ hrecorded with hold | ⟨other, hother, hholds⟩
            · obtain ⟨n, hn, hkey⟩ := List.mem_map.mp hold
              have halert : task.alert ∈ s₀.due := by
                rw [← h.alerts hstage]
                exact List.mem_map_of_mem hmem
              rcases hstranded _ halert stmt hwarning n hn hkey with hattempted | ⟨hacts, hpending⟩
              · rw [hkey] at hattempted
                exact hattempted.mono h.log
              · obtain ⟨ok, hsent⟩ := hretries hacts n hpending
                exact ⟨session, n, ok, hsent, hkey⟩
            · have hother_kept := h.tasks other hother
              have hother_done := hfinished other hother
              cases hother_pc : other.pc with
              | finished result =>
                  rw [hother_pc] at hother_kept hholds
                  cases result with
                  | none => cases hholds
                  | some n =>
                      have hkey : n.key = departureKey task.alert s₀.tick.now := hholds
                      rw [← hkey, hother_kept.1]
                      exact hother_kept.2.2
              | _ => simp [hother_pc, Pc.isFinished] at hother_done
  | _ => simp [hpc, Pc.isFinished] at hdone

/-- An isolated tick leaves nothing stranded, since all it sends is new or selected. -/
theorem Calm.noneStranded {acts : List TickAct} (h : Calm env session o s₀ selected s)
    (hkeyed : s₀.db.notifications.WellKeyed Notification.schema)
    (hselected : selected ↔ .selectPending true ∈ acts) (hgo : WritesGoThrough acts)
    (hisolated : Isolated env session o s₀ acts s) : NoneStranded env o s₀ acts := by
  intro alert halert stmt hwarning n hn hkey
  obtain ⟨i, hi⟩ := List.mem_iff_getElem?.mp halert
  obtain ⟨_, tick, row, ok, hsent, hrow⟩ := hisolated.records i alert stmt hi hwarning
    (fun createdAt hmem => by cases hgo _ hmem) (fun hmem => by cases hgo _ hmem)
  have hsame : row.key = n.key := hrow.trans hkey.symm
  rcases h.sources tick row ok hsent with hbefore | ⟨hpicked, hpending⟩ | hnew
  · exact Or.inl ⟨tick, row, ok, hbefore, hsame⟩
  · have hmem := (Database.mem_undelivered.mp (Database.mem_undelivered_of_mem_pending hpending)).1
    have heq : row = n := hkeyed.eq_of_key hmem hn hsame
    exact Or.inr ⟨hselected.mp hpicked, heq ▸ hpending⟩
  · exact absurd (List.mem_map.mpr ⟨n, hn, hsame.symm⟩) hnew

/-- **When a tick is isolated.**  Every run of a tick is finite.  A run that has come
    to its end is isolated exactly if all its writes went through and no departure of
    a due alert with rain was left with an old row that nobody attempted to send. -/
theorem isolated_iff (db : Database) (log : List Event) (now : DateTime) (leadMinutes : Nat)
    (hopen : db.openOf session = []) (hkeyed : db.notifications.WellKeyed Notification.schema)
    (hsession : ∀ event ∈ log, event.session ≠ session) (acts : List TickAct) (t : TickState)
    (hmeets : Run.Meets (tickStep env session) (Follows o) ⟨db, log, .opened now leadMinutes⟩ acts)
    (hexec : Run.exec (tickStep env session) ⟨db, log, .opened now leadMinutes⟩ acts = some t) :
    acts.length ≤ TickState.remaining ⟨db, log, .opened now leadMinutes⟩ ∧
    (Run.Stuck (tickStep env session) (Follows o) t →
      (Isolated env session o ⟨db, log, .opened now leadMinutes⟩ acts t ↔
        WritesGoThrough acts ∧
          NoneStranded env o ⟨db, log, .opened now leadMinutes⟩ acts)) := by
  have horderly : Orderly session ⟨db, log, .opened now leadMinutes⟩ := Tick.opened_orderly hopen
  have hcalm : Calm env session o ⟨db, log, .opened now leadMinutes⟩ False
      ⟨db, log, .opened now leadMinutes⟩ := calm_opened o now leadMinutes hsession
  refine ⟨?_, fun hstuck => ?_⟩
  · have hstep : ∀ s a s', Orderly session s → Follows o s a → tickStep env session s a = some s' →
        Orderly session s' ∧ s'.remaining < s.remaining :=
      fun s a s' h hfollows hstep => ⟨tickStep_orderly h hstep, tickStep_remaining h hfollows hstep⟩
    have hle := Run.length_add_le TickState.remaining hstep horderly hmeets hexec
    omega
  · rcases exec_calm_or_spoiled horderly hcalm hmeets hexec with
      ⟨hgo, horderly', hcalm'⟩ | ⟨hfails, hspoiled⟩
    · have hselected : (False ∨ .selectPending true ∈ acts) ↔ .selectPending true ∈ acts := by simp
      constructor
      · intro hisolated
        exact ⟨hgo, hcalm'.noneStranded hkeyed hselected hgo hisolated⟩
      · rintro ⟨_, hstranded⟩
        exact hcalm'.isolated horderly' hselected hstranded hstuck
    · constructor
      · intro hisolated
        exfalso
        rcases hspoiled with ⟨_, houtcome⟩ | ⟨row, hrow⟩
        · obtain ⟨created, heq⟩ := hisolated.returns
          exact houtcome created heq
        · exact hisolated.delivers row hrow
      · rintro ⟨hgo, _⟩
        exact absurd hgo hfails

/-- Everybody rides at 00:05, through the shower. -/
def rainyOutcomes : Outcomes := ⟨fun _ => .ok [wetRide], fun _ => .ok (some shower)⟩

/-- The alert is due and wet, and its insert is about to be executed. -/
def warningActs : List TickAct :=
  [.selectPending true, .selectDue true, .task 0 .start, .task 0 (.plan (.ok [wetRide])),
    .task 0 (.forecast (.ok (some shower))), .task 0 .acquire]

/-- The insert fails, since its alert has just been deleted. -/
def failingActs : List TickAct := warningActs ++ [.task 0 (.insert false 7), .gather]

/-- A database with one alert and no notifications. -/
def oneAlert : Database := ⟨[tuesdayMorning], ⟨[], [], 0⟩⟩

theorem oneAlert_wellKeyed : oneAlert.notifications.WellKeyed Notification.schema :=
  ⟨List.nodup_nil, List.nodup_nil, by simp [oneAlert, Transactional.Table.pendingRows]⟩

/-- A sweep with an outcome whose tasks have all ended is at its end. -/
theorem stuck_of_ended (hstage : s.tick.stage = .sweeping) (houtcome : s.tick.outcome.isSome = true)
    (htasks : ∀ task ∈ s.tick.tasks, task.pc.remaining = 0) :
    Run.Stuck (tickStep env session) (Follows o) s := by
  intro act hfollows
  cases hstep : tickStep env session s act with
  | none => rfl
  | some s' =>
      obtain ⟨_, hmoves⟩ := tickStep_moves hstep
      cases hmoves.of_sweeping hstage with
      | sweeps hi htask =>
          have hlt := taskStep_remaining htask
          rw [htasks _ (List.mem_of_getElem? hi)] at hlt
          exact absurd hlt (Nat.not_lt_zero _)
      | gatherRaises hnone => simp [hnone] at houtcome
      | gathers hnone => simp [hnone] at houtcome
      | dies => cases hfollows

/-- What a reader of the tick's end sees. -/
def ending (t : TickState) : Bool × Bool :=
  (t.tick.stage = .sweeping && t.tick.outcome.isSome && t.tick.tasks.all (·.pc.remaining = 0),
    t.tick.outcome.any fun outcome => outcome.toBool)

theorem stuck_of_ending (h : (ending s).1 = true) :
    Run.Stuck (tickStep env session) (Follows o) s := by
  simp only [ending, Bool.and_eq_true, decide_eq_true_eq, List.all_eq_true] at h
  exact stuck_of_ended h.1.1 h.1.2 h.2

/-- The second of two alerts cannot be evaluated, and has an older warning to be sent. -/
def troubledOutcomes : Outcomes :=
  ⟨fun alert => if alert.id = 2 then .error .other else .ok [wetRide], fun _ => .ok (some shower)⟩

def unsentWarning : Notification := ⟨0, 2, 1, .bike, "rain", 739768, 5, none⟩

def troubledAlerts : Database :=
  ⟨[tuesdayMorning, { tuesdayMorning with id := 2 }], ⟨[unsentWarning], [], 1⟩⟩

theorem troubledAlerts_wellKeyed :
    troubledAlerts.notifications.WellKeyed Notification.schema :=
  ⟨List.nodup_singleton _, List.nodup_singleton _, by decide⟩

/-- The older warning is not sent, the second evaluation raises, and the first alert's warning is
    recorded, sent and stamped. -/
def troubledActs : List TickAct :=
  [.selectPending true, .redeliver (.send false), .selectDue true, .task 0 .start, .task 1 .start,
    .task 1 (.plan (.error .other)), .task 0 (.plan (.ok [wetRide])),
    .task 0 (.forecast (.ok (some shower))), .task 0 .acquire, .task 0 (.insert true 7),
    .task 0 (.commit true), .task 0 (.deliver (.send true)), .task 0 (.deliver .acquire),
    .task 0 (.deliver (.update true 8)), .task 0 (.deliver (.commit true)), .gather]

theorem isolated_iff_troubled :
    ∃ t, Run.exec (tickStep flatEnv 0) ⟨troubledAlerts, [], .opened mondayNight 15⟩ troubledActs =
        some t ∧
      Isolated flatEnv 0 troubledOutcomes ⟨troubledAlerts, [], .opened mondayNight 15⟩ troubledActs
        t := by
  have hrun : ((Run.exec (tickStep flatEnv 0) ⟨troubledAlerts, [], .opened mondayNight 15⟩
      troubledActs).map ending) = some (true, true) := by decide +kernel
  obtain ⟨t, ht, hending⟩ := Option.map_eq_some_iff.mp hrun
  have hmeets : Run.Meets (tickStep flatEnv 0) (Follows troubledOutcomes)
      ⟨troubledAlerts, [], .opened mondayNight 15⟩ troubledActs := by decide +kernel
  have hiff := (isolated_iff troubledAlerts [] mondayNight 15 rfl troubledAlerts_wellKeyed (by simp)
    troubledActs t hmeets ht).2 (stuck_of_ending (by rw [hending]))
  have hgo : WritesGoThrough troubledActs := by
    simp [WritesGoThrough, troubledActs, TickAct.writeFails, TaskAct.writeFails,
      DeliverAct.writeFails]
  have hstranded : NoneStranded flatEnv troubledOutcomes
      ⟨troubledAlerts, [], .opened mondayNight 15⟩ troubledActs := by
    intro alert _ stmt _ n hn _
    -- the one row there is gets selected
    rw [List.mem_singleton.mp hn]
    exact Or.inr ⟨List.mem_cons_self, by decide +kernel⟩
  exact ⟨t, ht, hiff.mpr ⟨hgo, hstranded⟩⟩

/-- One insert that fails, and `run_due_checks` raises. -/
theorem not_isolated :
    ¬ ∀ (o : Outcomes) (db : Database) (log : List Event) (now : DateTime) (leadMinutes : Nat)
      (acts : List TickAct) (t : TickState),
      db.openOf 0 = [] → db.notifications.WellKeyed Notification.schema →
      (∀ event ∈ log, event.session ≠ 0) →
      Run.Meets (tickStep flatEnv 0) (Follows o) ⟨db, log, .opened now leadMinutes⟩ acts →
      Run.exec (tickStep flatEnv 0) ⟨db, log, .opened now leadMinutes⟩ acts = some t →
      Run.Stuck (tickStep flatEnv 0) (Follows o) t →
      Isolated flatEnv 0 o ⟨db, log, .opened now leadMinutes⟩ acts t := by
  intro hall
  have hrun : ((Run.exec (tickStep flatEnv 0) ⟨oneAlert, [], .opened mondayNight 15⟩
      failingActs).map ending) = some (true, false) := by decide +kernel
  obtain ⟨t, ht, hending⟩ := Option.map_eq_some_iff.mp hrun
  have hmeets : Run.Meets (tickStep flatEnv 0) (Follows rainyOutcomes)
      ⟨oneAlert, [], .opened mondayNight 15⟩ failingActs := by decide +kernel
  have hisolated := hall rainyOutcomes oneAlert [] mondayNight 15 failingActs t rfl
    oneAlert_wellKeyed (by simp) hmeets ht (stuck_of_ending (by rw [hending]))
  obtain ⟨created, heq⟩ := hisolated.returns
  have hraised := congrArg Prod.snd hending
  simp [ending, heq, Except.toBool] at hraised

end Tick

end FietsOfOv
