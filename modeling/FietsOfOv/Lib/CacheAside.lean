import FietsOfOv.Lib.ExpiringStore
import FietsOfOv.Lib.Run

/-!
# Cache-aside requests that interleave

A client that keeps a cache in front of an upstream handles many requests at
once.  Each of them reads the cache, looks at the reply, asks the upstream if
the reply does not settle it, and may write what it got back to the cache.
Between any two of these steps every other request can move, time can pass, and
other programs can write the store under keys of their own.  Every access can
fail in the ways `ExpiringStore` lists.
-/

namespace CacheAside

open ExpiringStore

/-- What a request makes of the cache's reply. -/
inductive Verdict (φ β : Type) where
  | serves (result : β)
  | asks (kept : φ)

/-- The code of a client.  `lookup` and `settle` read the clock when they run; `settle`
    gives the result of the request and what it writes to the cache, if anything. -/
structure Client (ι κ ν φ υ β : Type) where
  key : ι → κ
  lookup : Int → Except Unit (Option ν) → Verdict φ β
  settle : Int → φ → υ → β × Option ν
  ttl : Int

/-- A request, with the moment and the outcome of each step it has taken. -/
structure Request (ι ν φ υ β : Type) where
  subject : ι
  reply : Option (Int × Except Unit (Option ν))
  verdict : Option (Int × Verdict φ β)
  answer : Option (Int × υ)
  landed : Option (Int × WriteOutcome)

structure System (ι κ ν φ υ β : Type) where
  clock : Int
  store : Store κ ν
  requests : List (Request ι ν φ υ β)

/-- A step of one request: the store executes its read, it resumes with the reply, it
    resumes with the upstream's answer, or the store executes its write. -/
inductive Act (ν υ : Type) where
  | read (outcome : ReadOutcome ν)
  | resume
  | answer (value : υ)
  | write (outcome : WriteOutcome)

inductive Event (ι κ ν υ : Type) where
  | elapse (duration : Nat)
  | call (subject : ι)
  | act (i : Nat) (act : Act ν υ)
  /-- Another program writes, replaces or removes an entry. -/
  | foreign (key : κ) (entry : Option (Entry ν))

variable {ι κ ν φ υ β : Type}

def System.initial : System ι κ ν φ υ β := ⟨0, ExpiringStore.empty, []⟩

def Request.called (subject : ι) : Request ι ν φ υ β := ⟨subject, none, none, none, none⟩

section Machine

variable (client : Client ι κ ν φ υ β)

/-- The result of a request and what it writes, once they are settled. -/
def Request.outcome (r : Request ι ν φ υ β) : Option (β × Option ν) :=
  match r.verdict with
  | none => none
  | some (_, .serves result) => some (result, none)
  | some (_, .asks kept) => r.answer.map fun answer => client.settle answer.1 kept answer.2

def Request.result (r : Request ι ν φ υ β) : Option β := (r.outcome client).map (·.1)

def Request.written (r : Request ι ν φ υ β) : Option ν := (r.outcome client).bind (·.2)

/-- A request after one of its steps, if it is the one it waits for. -/
def Request.act (clock : Int) (store : Store κ ν) (r : Request ι ν φ υ β) :
    Act ν υ → Option (Request ι ν φ υ β)
  | .read outcome =>
      match r.reply with
      | none =>
          some { r with reply := some (clock, read store clock (client.key r.subject) outcome) }
      | some _ => none
  | .resume =>
      match r.reply, r.verdict with
      | some (_, reply), none => some { r with verdict := some (clock, client.lookup clock reply) }
      | _, _ => none
  | .answer value =>
      match r.verdict, r.answer with
      | some (_, .asks _), none => some { r with answer := some (clock, value) }
      | _, _ => none
  | .write outcome =>
      match r.written client, r.landed with
      | some _, none => some { r with landed := some (clock, outcome) }
      | _, _ => none

variable [DecidableEq κ]

/-- The store after a step of a request. -/
def Request.stored (clock : Int) (store : Store κ ν) (r : Request ι ν φ υ β) :
    Act ν υ → Store κ ν
  | .write outcome =>
      match r.written client with
      | some value => write store clock client.ttl (client.key r.subject) value outcome
      | none => store
  | _ => store

def System.step (s : System ι κ ν φ υ β) : Event ι κ ν υ → Option (System ι κ ν φ υ β)
  | .elapse duration => some { s with clock := s.clock + duration }
  | .call subject => some { s with requests := s.requests ++ [.called subject] }
  | .act i act =>
      s.requests[i]?.bind fun r =>
        (r.act client s.clock s.store act).map fun r' =>
          { s with
            store := r.stored client s.clock s.store act
            requests := s.requests.set i r' }
  | .foreign key entry => some { s with store := Function.update s.store key entry }

end Machine

/-! ## One step -/

section Step

variable {client : Client ι κ ν φ υ β} {clock : Int} {store : Store κ ν}
  {r r' : Request ι ν φ υ β}

/-- Everything a step of a request can do to it. -/
theorem act_cases {act : Act ν υ} (h : r.act client clock store act = some r') :
    (∃ outcome, act = .read outcome ∧ r.reply = none ∧
      r' = { r with reply := some (clock, read store clock (client.key r.subject) outcome) }) ∨
    (∃ readAt reply, act = .resume ∧ r.reply = some (readAt, reply) ∧ r.verdict = none ∧
      r' = { r with verdict := some (clock, client.lookup clock reply) }) ∨
    (∃ value decidedAt kept, act = .answer value ∧ r.verdict = some (decidedAt, .asks kept) ∧
      r.answer = none ∧ r' = { r with answer := some (clock, value) }) ∨
    (∃ outcome value, act = .write outcome ∧ r.written client = some value ∧ r.landed = none ∧
      r' = { r with landed := some (clock, outcome) }) := by
  cases act with
  | read outcome =>
      simp only [Request.act] at h
      split at h
      · rename_i hreply
        exact Or.inl ⟨outcome, rfl, hreply, (Option.some.inj h).symm⟩
      · cases h
  | resume =>
      simp only [Request.act] at h
      split at h
      · rename_i readAt reply hreply hverdict
        exact Or.inr (Or.inl ⟨readAt, reply, rfl, hreply, hverdict, (Option.some.inj h).symm⟩)
      · cases h
  | answer value =>
      simp only [Request.act] at h
      split at h
      · rename_i decidedAt kept hverdict hanswer
        exact Or.inr (Or.inr (Or.inl
          ⟨value, decidedAt, kept, rfl, hverdict, hanswer, (Option.some.inj h).symm⟩))
      · cases h
  | write outcome =>
      simp only [Request.act] at h
      split at h
      · rename_i value hwritten hlanded
        exact Or.inr (Or.inr (Or.inr
          ⟨outcome, value, rfl, hwritten, hlanded, (Option.some.inj h).symm⟩))
      · cases h

theorem subject_act {act : Act ν υ} (h : r.act client clock store act = some r') :
    r'.subject = r.subject := by
  rcases act_cases h with ⟨_, _, _, rfl⟩ | ⟨_, _, _, _, _, rfl⟩ | ⟨_, _, _, _, _, _, rfl⟩ |
    ⟨_, _, _, _, _, rfl⟩ <;> rfl

/-- A settled request stays settled, with the same outcome. -/
theorem outcome_act {act : Act ν υ} {outcome : β × Option ν}
    (h : r.act client clock store act = some r') (hsettled : r.outcome client = some outcome) :
    r'.outcome client = some outcome := by
  rcases act_cases h with ⟨_, _, _, rfl⟩ | ⟨_, _, _, _, hverdict, rfl⟩ |
    ⟨_, _, _, _, hverdict, hanswer, rfl⟩ | ⟨_, _, _, _, _, rfl⟩
  · exact hsettled
  · simp [Request.outcome, hverdict] at hsettled
  · simp [Request.outcome, hverdict, hanswer] at hsettled
  · exact hsettled

theorem written_act {act : Act ν υ} {value : ν} (h : r.act client clock store act = some r')
    (hwritten : r.written client = some value) : r'.written client = some value := by
  obtain ⟨outcome, hsettled, hvalue⟩ := Option.bind_eq_some_iff.mp hwritten
  rw [Request.written, outcome_act h hsettled]
  exact hvalue

/-- A write lands once. -/
theorem landed_act {act : Act ν υ} {landing : Int × WriteOutcome}
    (h : r.act client clock store act = some r') (hlanded : r.landed = some landing) :
    r'.landed = some landing := by
  rcases act_cases h with ⟨_, _, _, rfl⟩ | ⟨_, _, _, _, _, rfl⟩ | ⟨_, _, _, _, _, _, rfl⟩ |
    ⟨_, _, _, _, hnone, rfl⟩
  · exact hlanded
  · exact hlanded
  · exact hlanded
  · rw [hlanded] at hnone
    cases hnone

/-- What a request was handed before or is handed now. -/
theorem reply_act {clock : Int} {store : Store κ ν} {r r' : Request ι ν φ υ β} {act : Act ν υ}
    (hact : r.act client clock store act = some r') {reply : Int × Except Unit (Option ν)}
    (h : r'.reply = some reply) :
    r.reply = some reply ∨ ∃ outcome, act = .read outcome ∧
      reply = (clock, read store clock (client.key r.subject) outcome) := by
  rcases act_cases hact with ⟨outcome, rfl, _, rfl⟩ | ⟨_, _, _, _, _, rfl⟩ |
    ⟨_, _, _, _, _, _, rfl⟩ | ⟨_, _, _, _, _, rfl⟩
  · exact Or.inr ⟨outcome, rfl, (Option.some.inj h).symm⟩
  · exact Or.inl h
  · exact Or.inl h
  · exact Or.inl h

/-- What a read hands back is an entry that is still kept, or the store made it up. -/
theorem read_eq_some {store : Store κ ν} {clock : Int} {key : κ} {outcome : ReadOutcome ν}
    {value : ν} (h : read store clock key outcome = .ok (some value)) :
    outcome = .garbles value ∨
      ∃ entry, store key = some entry ∧ clock < entry.expires ∧ entry.value = value := by
  cases outcome with
  | answers => exact Or.inr (get_eq_some.mp (Except.ok.inj h))
  | fails => cases h
  | misses => cases h
  | garbles other =>
      cases h
      exact Or.inl rfl

end Step

section Runs

variable {client : Client ι κ ν φ υ β}

/-- The steps of a request come one after another, each on what the one before it found. -/
structure Request.Ordered (client : Client ι κ ν φ υ β) (clock : Int) (r : Request ι ν φ υ β) :
    Prop where
  replied : ∀ readAt reply, r.reply = some (readAt, reply) → readAt ≤ clock
  decided : ∀ decidedAt verdict, r.verdict = some (decidedAt, verdict) → decidedAt ≤ clock ∧
    ∃ readAt reply, r.reply = some (readAt, reply) ∧ readAt ≤ decidedAt ∧
      verdict = client.lookup decidedAt reply
  answered : ∀ answeredAt value, r.answer = some (answeredAt, value) → answeredAt ≤ clock ∧
    ∃ decidedAt kept, r.verdict = some (decidedAt, .asks kept) ∧ decidedAt ≤ answeredAt
  landed : ∀ landedAt outcome, r.landed = some (landedAt, outcome) → landedAt ≤ clock ∧
    ∃ answeredAt value, r.answer = some (answeredAt, value) ∧ answeredAt ≤ landedAt

theorem Request.Ordered.mono {clock clock' : Int} {r : Request ι ν φ υ β}
    (h : r.Ordered client clock) (hle : clock ≤ clock') : r.Ordered client clock' := by
  refine ⟨?_, ?_, ?_, ?_⟩
  · intro readAt reply hreply
    exact Int.le_trans (h.replied readAt reply hreply) hle
  · intro decidedAt verdict hverdict
    obtain ⟨hbefore, hlookup⟩ := h.decided decidedAt verdict hverdict
    exact ⟨Int.le_trans hbefore hle, hlookup⟩
  · intro answeredAt value hanswer
    obtain ⟨hbefore, hasked⟩ := h.answered answeredAt value hanswer
    exact ⟨Int.le_trans hbefore hle, hasked⟩
  · intro landedAt outcome hlanded
    obtain ⟨hbefore, hanswered⟩ := h.landed landedAt outcome hlanded
    exact ⟨Int.le_trans hbefore hle, hanswered⟩

theorem Request.called_ordered (clock : Int) (x : ι) :
    (Request.called x : Request ι ν φ υ β).Ordered client clock :=
  ⟨by simp [Request.called], by simp [Request.called], by simp [Request.called],
    by simp [Request.called]⟩

/-- What is written was settled by an answer of the upstream. -/
theorem Request.answered_of_written {r : Request ι ν φ υ β} {value : ν}
    (h : r.written client = some value) :
    ∃ decidedAt kept answeredAt answer, r.verdict = some (decidedAt, .asks kept) ∧
      r.answer = some (answeredAt, answer) ∧
      (client.settle answeredAt kept answer).2 = some value := by
  obtain ⟨outcome, hsettled, hvalue⟩ := Option.bind_eq_some_iff.mp h
  rw [Request.outcome] at hsettled
  split at hsettled
  · cases hsettled
  · cases hsettled
    cases hvalue
  · rename_i decidedAt kept hverdict
    obtain ⟨⟨answeredAt, answer⟩, hanswer, rfl⟩ := Option.map_eq_some_iff.mp hsettled
    exact ⟨decidedAt, kept, answeredAt, answer, hverdict, hanswer, hvalue⟩

theorem Request.Ordered.act {clock : Int} {store : Store κ ν} {r r' : Request ι ν φ υ β}
    (h : r.Ordered client clock) {act : Act ν υ} (hact : r.act client clock store act = some r') :
    r'.Ordered client clock := by
  rcases act_cases hact with ⟨outcome, _, hnone, rfl⟩ | ⟨readAt, reply, _, hreply, hnone, rfl⟩ |
    ⟨value, decidedAt, kept, _, hverdict, hnone, rfl⟩ | ⟨outcome, value, _, hwritten, _, rfl⟩
  · refine ⟨?_, ?_, h.answered, h.landed⟩
    · intro readAt reply hreply
      cases hreply
      exact Int.le_refl _
    · intro decidedAt verdict hverdict
      obtain ⟨_, _, _, hreply, _⟩ := h.decided decidedAt verdict hverdict
      rw [hnone] at hreply
      cases hreply
  · refine ⟨h.replied, ?_, ?_, h.landed⟩
    · intro decidedAt verdict hverdict
      cases hverdict
      exact ⟨Int.le_refl _, readAt, reply, hreply, h.replied readAt reply hreply, rfl⟩
    · intro answeredAt value hanswer
      obtain ⟨_, _, _, hverdict, _⟩ := h.answered answeredAt value hanswer
      rw [hnone] at hverdict
      cases hverdict
  · refine ⟨h.replied, h.decided, ?_, ?_⟩
    · intro answeredAt value hanswer
      cases hanswer
      exact ⟨Int.le_refl _, decidedAt, kept, hverdict, (h.decided _ _ hverdict).1⟩
    · intro landedAt outcome hlanded
      obtain ⟨_, _, _, hanswer, _⟩ := h.landed landedAt outcome hlanded
      rw [hnone] at hanswer
      cases hanswer
  · refine ⟨h.replied, h.decided, h.answered, ?_⟩
    intro landedAt outcome hlanded
    cases hlanded
    obtain ⟨_, _, answeredAt, answer, _, hanswer, _⟩ := Request.answered_of_written hwritten
    exact ⟨Int.le_refl _, answeredAt, answer, hanswer, (h.answered _ _ hanswer).1⟩

/-- A request that is served from the cache never asks. -/
theorem Request.Ordered.answer_of_serves {clock decidedAt : Int} {r : Request ι ν φ υ β}
    {result : β} (h : r.Ordered client clock)
    (hverdict : r.verdict = some (decidedAt, .serves result)) : r.answer = none := by
  rw [Option.eq_none_iff_forall_ne_some]
  rintro ⟨answeredAt, answer⟩ hanswer
  obtain ⟨_, _, _, hasks, _⟩ := h.answered _ _ hanswer
  cases hverdict.symm.trans hasks

/-! ## Where the entries come from -/

/-- A request for this key wrote this value, and the store executed the write then. -/
def System.Landed (client : Client ι κ ν φ υ β) (s : System ι κ ν φ υ β) (key : κ) (value : ν)
    (landedAt : Int) : Prop :=
  ∃ r ∈ s.requests, client.key r.subject = key ∧ r.written client = some value ∧
    r.landed = some (landedAt, .keeps)

/-- Other programs keep to keys of their own, and the store hands back entries or something
    the client cannot use. -/
def Event.Allowed (client : Client ι κ ν φ υ β) (unusable : ν → Prop) : Event ι κ ν υ → Prop
  | .foreign key _ => ∀ x, client.key x ≠ key
  | .act _ (.read (.garbles value)) => unusable value
  | _ => True

/-- Other programs keep to keys of their own, and every read is answered from the entries. -/
def Event.Up (client : Client ι κ ν φ υ β) : Event ι κ ν υ → Prop
  | .foreign key _ => ∀ x, client.key x ≠ key
  | .act _ (.read outcome) => outcome = .answers
  | _ => True

theorem Event.Up.allowed {unusable : ν → Prop} {e : Event ι κ ν υ}
    (h : e.Up client) : e.Allowed client unusable := by
  unfold Event.Allowed
  split
  · exact h
  · cases h
  · trivial

/-- Every entry under a key of the client landed for that key and is kept for the time to
    live from then on; so did everything a request was handed as an entry. -/
structure System.Sound (client : Client ι κ ν φ υ β) (unusable : ν → Prop)
    (s : System ι κ ν φ υ β) : Prop where
  ordered : ∀ r ∈ s.requests, r.Ordered client s.clock
  entries : ∀ x entry, s.store (client.key x) = some entry → ∃ landedAt, landedAt ≤ s.clock ∧
    s.Landed client (client.key x) entry.value landedAt ∧ entry.expires = landedAt + client.ttl
  replies : ∀ r ∈ s.requests, ∀ readAt value, r.reply = some (readAt, .ok (some value)) →
    unusable value ∨ ∃ landedAt, s.Landed client (client.key r.subject) value landedAt ∧
      landedAt ≤ readAt ∧ readAt < landedAt + client.ttl

theorem System.initial_sound (unusable : ν → Prop) :
    (System.initial : System ι κ ν φ υ β).Sound client unusable :=
  ⟨by simp [System.initial], by simp [System.initial, ExpiringStore.empty],
    by simp [System.initial]⟩

variable [DecidableEq κ] {s s' : System ι κ ν φ υ β} {unusable : ν → Prop}

theorem step_act {i : Nat} {act : Act ν υ} :
    s.step client (.act i act) = some s' ↔
      ∃ r r', s.requests[i]? = some r ∧ r.act client s.clock s.store act = some r' ∧
        s' = { s with store := r.stored client s.clock s.store act
                      requests := s.requests.set i r' } := by
  simp only [System.step, Option.bind_eq_some_iff, Option.map_eq_some_iff]
  constructor
  · rintro ⟨r, hr, r', hact, rfl⟩
    exact ⟨r, r', hr, hact, rfl⟩
  · rintro ⟨r, r', hr, hact, rfl⟩
    exact ⟨r, hr, r', hact, rfl⟩

theorem clock_le_step {e : Event ι κ ν υ} (h : s.step client e = some s') :
    s.clock ≤ s'.clock := by
  cases e with
  | elapse duration =>
      cases h
      exact Int.le_add_of_nonneg_right (Int.natCast_nonneg duration)
  | act i act =>
      obtain ⟨_, _, _, _, rfl⟩ := step_act.mp h
      exact Int.le_refl _
  | _ =>
      cases h
      exact Int.le_refl _

/-- A request after a step was there before with the same subject, has just taken its own
    step, or is the one just called. -/
theorem requests_step {e : Event ι κ ν υ} (h : s.step client e = some s')
    {r' : Request ι ν φ υ β} (hmem : r' ∈ s'.requests) :
    r' ∈ s.requests ∨ (∃ x, r' = .called x) ∨
      ∃ i act r, e = .act i act ∧ r ∈ s.requests ∧ r.act client s.clock s.store act = some r' := by
  cases e with
  | call x =>
      cases h
      rcases List.mem_append.mp hmem with hold | hnew
      · exact Or.inl hold
      · exact Or.inr (Or.inl ⟨x, List.mem_singleton.mp hnew⟩)
  | act i act =>
      obtain ⟨r, _, hr, hact, rfl⟩ := step_act.mp h
      rcases List.mem_or_eq_of_mem_set hmem with hold | rfl
      · exact Or.inl hold
      · exact Or.inr (Or.inr ⟨i, act, r, rfl, List.mem_of_getElem? hr, hact⟩)
  | _ =>
      cases h
      exact Or.inl hmem

/-- Every request is still there after a step, moved by at most one step of its own. -/
theorem exists_request_step {e : Event ι κ ν υ} (h : s.step client e = some s')
    {r : Request ι ν φ υ β} (hmem : r ∈ s.requests) :
    r ∈ s'.requests ∨
      ∃ act, ∃ r' ∈ s'.requests, r.act client s.clock s.store act = some r' := by
  cases e with
  | call x =>
      cases h
      exact Or.inl (List.mem_append_left _ hmem)
  | act i act =>
      obtain ⟨r₀, r', hr₀, hact, rfl⟩ := step_act.mp h
      obtain ⟨j, hj⟩ := List.mem_iff_getElem?.mp hmem
      by_cases hij : i = j
      · subst hij
        cases hr₀.symm.trans hj
        obtain ⟨hlt, _⟩ := List.getElem?_eq_some_iff.mp hj
        exact Or.inr ⟨act, r', List.mem_set hlt r', hact⟩
      · apply Or.inl
        apply List.mem_iff_getElem?.mpr
        exact ⟨j, (List.getElem?_set_ne hij).trans hj⟩
  | _ =>
      cases h
      exact Or.inl hmem

theorem System.Landed.step {key : κ} {value : ν} {landedAt : Int}
    (h : s.Landed client key value landedAt) {e : Event ι κ ν υ}
    (hstep : s.step client e = some s') : s'.Landed client key value landedAt := by
  obtain ⟨r, hmem, hkey, hwritten, hlanded⟩ := h
  rcases exists_request_step hstep hmem with hstays | ⟨act, r', hr', hact⟩
  · exact ⟨r, hstays, hkey, hwritten, hlanded⟩
  · refine ⟨r', hr', ?_, written_act hact hwritten, landed_act hact hlanded⟩
    rw [subject_act hact]
    exact hkey

theorem ordered_step (hs : ∀ r ∈ s.requests, r.Ordered client s.clock) {e : Event ι κ ν υ}
    (hstep : s.step client e = some s') : ∀ r ∈ s'.requests, r.Ordered client s'.clock := by
  intro r' hmem
  have hle : s.clock ≤ s'.clock := clock_le_step hstep
  rcases requests_step hstep hmem with hold | ⟨x, rfl⟩ | ⟨_, _, r, _, hr, hact⟩
  · exact (hs r' hold).mono hle
  · exact Request.called_ordered s'.clock x
  · exact ((hs r hr).act hact).mono hle

/-- An entry after a step of a request was there before, or is its write landing now. -/
theorem stored_cases {clock : Int} {store : Store κ ν} {r r' : Request ι ν φ υ β}
    {act : Act ν υ} (hact : r.act client clock store act = some r') {key : κ} {entry : Entry ν}
    (h : r.stored client clock store act key = some entry) :
    store key = some entry ∨ key = client.key r.subject ∧ r.written client = some entry.value ∧
      entry.expires = clock + client.ttl ∧ r'.landed = some (clock, .keeps) := by
  rcases act_cases hact with ⟨_, rfl, _, _⟩ | ⟨_, _, rfl, _, _, _⟩ | ⟨_, _, _, rfl, _, _, _⟩ |
    ⟨outcome, value, rfl, hwritten, _, rfl⟩
  · exact Or.inl h
  · exact Or.inl h
  · exact Or.inl h
  · simp only [Request.stored, hwritten] at h
    cases outcome with
    | keeps =>
        rcases write_cases h with hold | ⟨rfl, rfl⟩
        · exact Or.inl hold
        · exact Or.inr ⟨rfl, hwritten, rfl, rfl⟩
    | loses => exact Or.inl h

/-- An entry under a key of the client was there before the step, or has just landed. -/
theorem entry_step {e : Event ι κ ν υ} (hok : e.Allowed client unusable)
    (hstep : s.step client e = some s') {x : ι} {entry : Entry ν}
    (h : s'.store (client.key x) = some entry) :
    s.store (client.key x) = some entry ∨
      s'.Landed client (client.key x) entry.value s.clock ∧
        entry.expires = s.clock + client.ttl := by
  cases e with
  | act i act =>
      obtain ⟨r, r', hr, hact, rfl⟩ := step_act.mp hstep
      rcases stored_cases hact h with hold | ⟨hkey, hwritten, hexpires, hlanded⟩
      · exact Or.inl hold
      · refine Or.inr ⟨⟨r', ?_, ?_, written_act hact hwritten, hlanded⟩, hexpires⟩
        · obtain ⟨hlt, _⟩ := List.getElem?_eq_some_iff.mp hr
          exact List.mem_set hlt r'
        · rw [subject_act hact]
          exact hkey.symm
  | foreign key other =>
      cases hstep
      exact Or.inl ((Function.update_of_ne (hok x) other s.store).symm.trans h)
  | _ =>
      cases hstep
      exact Or.inl h

theorem System.Sound.step (hs : s.Sound client unusable) {e : Event ι κ ν υ}
    (hok : e.Allowed client unusable) (hstep : s.step client e = some s') :
    s'.Sound client unusable := by
  refine ⟨ordered_step hs.ordered hstep, ?_, ?_⟩
  · intro x entry hentry
    have hle : s.clock ≤ s'.clock := clock_le_step hstep
    rcases entry_step hok hstep hentry with hold | ⟨hlanded, hexpires⟩
    · obtain ⟨landedAt, hbefore, hlanded, hexpires⟩ := hs.entries x entry hold
      exact ⟨landedAt, Int.le_trans hbefore hle, hlanded.step hstep, hexpires⟩
    · exact ⟨s.clock, hle, hlanded, hexpires⟩
  · intro r' hmem readAt value hreply
    have hold : ∀ r ∈ s.requests, client.key r.subject = client.key r'.subject →
        r.reply = some (readAt, .ok (some value)) → unusable value ∨ ∃ landedAt,
          s'.Landed client (client.key r'.subject) value landedAt ∧
          landedAt ≤ readAt ∧ readAt < landedAt + client.ttl := by
      intro r hr hkey hreply
      rcases hs.replies r hr readAt value hreply with hbad | ⟨landedAt, hlanded, hrest⟩
      · exact Or.inl hbad
      · exact Or.inr ⟨landedAt, hkey ▸ hlanded.step hstep, hrest⟩
    rcases requests_step hstep hmem with hstays | ⟨x, rfl⟩ | ⟨i, act, r, rfl, hr, hact⟩
    · exact hold r' hstays rfl hreply
    · cases hreply
    · have hkey : client.key r.subject = client.key r'.subject := by rw [subject_act hact]
      rcases reply_act hact hreply with hbefore | ⟨outcome, rfl, hnow⟩
      · exact hold r hr hkey hbefore
      · obtain ⟨rfl, hread⟩ := Prod.mk.inj hnow
        rcases read_eq_some hread.symm with rfl | ⟨entry, hentry, hlive, rfl⟩
        · exact Or.inl hok
        · obtain ⟨landedAt, hbefore, hlanded, hexpires⟩ := hs.entries r.subject entry hentry
          refine Or.inr ⟨landedAt, hkey ▸ hlanded.step hstep, hbefore, ?_⟩
          rw [← hexpires]
          exact hlive

/-- Every state of a run is sound, however its requests interleave. -/
theorem sound_run {es : List (Event ι κ ν υ)}
    (hok : ∀ e ∈ es, e.Allowed client unusable)
    (hexec : Run.exec (System.step client) .initial es = some s) : s.Sound client unusable :=
  Run.exec_invariant (P := fun s => s.Sound client unusable)
    (fun _ _ _ hs hok hstep => hs.step hok hstep) (System.initial_sound unusable)
    (Run.meets_of_forall hok _) hexec

/-! ## While an entry is kept -/

/-- Since a write for the key landed, some entry that landed no earlier is kept under it, and
    every request that read within the time to live from then was handed such an entry. -/
structure System.Warm (client : Client ι κ ν φ υ β) (key : κ) (since : Int)
    (s : System ι κ ν φ υ β) : Prop where
  clock : since ≤ s.clock
  entry : ∃ entry landedAt, s.store key = some entry ∧ since + client.ttl ≤ entry.expires ∧
    since ≤ landedAt ∧ s.Landed client key entry.value landedAt
  replies : ∀ r ∈ s.requests, client.key r.subject = key → ∀ readAt reply,
    r.reply = some (readAt, reply) → since < readAt → readAt < since + client.ttl →
    ∃ value landedAt, reply = .ok (some value) ∧ since ≤ landedAt ∧
      s.Landed client key value landedAt

/-- A landing write warms its key. -/
theorem warm_of_write (hs : ∀ r ∈ s.requests, r.Ordered client s.clock) {i : Nat}
    {r : Request ι ν φ υ β} (hr : s.requests[i]? = some r)
    (hstep : s.step client (.act i (.write .keeps)) = some s') :
    s'.Warm client (client.key r.subject) s.clock := by
  have hordered : ∀ r ∈ s'.requests, r.Ordered client s'.clock := ordered_step hs hstep
  obtain ⟨r₀, r', hr₀, hact, rfl⟩ := step_act.mp hstep
  cases hr.symm.trans hr₀
  refine ⟨Int.le_refl _, ?_, ?_⟩
  · rcases act_cases hact with ⟨_, hother, _, _⟩ | ⟨_, _, hother, _, _, _⟩ |
      ⟨_, _, _, hother, _, _, _⟩ | ⟨outcome, value, hwrite, hwritten, _, rfl⟩
    · cases hother
    · cases hother
    · cases hother
    · cases hwrite
      obtain ⟨hlt, _⟩ := List.getElem?_eq_some_iff.mp hr
      refine ⟨⟨value, s.clock + client.ttl⟩, s.clock, ?_, Int.le_refl _, Int.le_refl _, ?_⟩
      · simp [Request.stored, hwritten, write]
      · exact ⟨_, List.mem_set hlt _, rfl, hwritten, rfl⟩
  · intro r hmem _ readAt reply hreply hafter _
    exact absurd ((hordered r hmem).replied readAt reply hreply) (Int.not_le.mpr hafter)

/-- No step of a request removes an entry. -/
theorem stored_ne_none {clock : Int} {store : Store κ ν} {r : Request ι ν φ υ β} {act : Act ν υ}
    {key : κ} (h : store key ≠ none) : r.stored client clock store act key ≠ none := by
  cases act with
  | write outcome =>
      cases hwritten : r.written client with
      | none => simpa only [Request.stored, hwritten] using h
      | some value =>
          simp only [Request.stored, hwritten]
          cases outcome with
          | keeps =>
              by_cases hkey : key = client.key r.subject
              · simp [write, hkey]
              · rw [write, Function.update_of_ne hkey]
                exact h
          | loses => exact h
  | _ => exact h

/-- An entry of the client outlives a step, unless one that has just landed replaces it. -/
theorem exists_entry_step {e : Event ι κ ν υ} (hup : e.Up client)
    (hstep : s.step client e = some s') {x : ι} {entry : Entry ν}
    (h : s.store (client.key x) = some entry) :
    s'.store (client.key x) = some entry ∨ ∃ entry', s'.store (client.key x) = some entry' ∧
      s'.Landed client (client.key x) entry'.value s.clock ∧
      entry'.expires = s.clock + client.ttl := by
  have hsome : s'.store (client.key x) ≠ none := by
    have hne : s.store (client.key x) ≠ none := by simp [h]
    cases e with
    | act i act =>
        obtain ⟨r, _, _, _, rfl⟩ := step_act.mp hstep
        exact stored_ne_none hne
    | foreign other value =>
        cases hstep
        simp only [Function.update_of_ne (hup x)]
        exact hne
    | _ =>
        cases hstep
        exact hne
  obtain ⟨entry', hentry'⟩ := Option.ne_none_iff_exists'.mp hsome
  have hallowed : e.Allowed client (fun _ => False) := hup.allowed
  rcases entry_step hallowed hstep hentry' with hold | hnew
  · cases h.symm.trans hold
    exact Or.inl hentry'
  · exact Or.inr ⟨entry', hentry', hnew⟩

/-- A warm key stays warm, whatever the other requests do. -/
theorem System.Warm.step {x : ι} {since : Int} (hs : s.Warm client (client.key x) since)
    {e : Event ι κ ν υ} (hup : e.Up client) (hstep : s.step client e = some s') :
    s'.Warm client (client.key x) since := by
  obtain ⟨entry, landedAt, hentry, hexpires, hsince, hlanded⟩ := hs.entry
  refine ⟨Int.le_trans hs.clock (clock_le_step hstep), ?_, ?_⟩
  · rcases exists_entry_step hup hstep hentry with hstays | ⟨entry', hnew, hnow, hexpires'⟩
    · exact ⟨entry, landedAt, hstays, hexpires, hsince, hlanded.step hstep⟩
    · refine ⟨entry', s.clock, hnew, ?_, hs.clock, hnow⟩
      rw [hexpires']
      exact Int.add_le_add_right hs.clock _
  · intro r' hmem hkey readAt reply hreply hafter hbefore
    have hold : ∀ r ∈ s.requests, client.key r.subject = client.key x →
        r.reply = some (readAt, reply) → ∃ value landedAt, reply = .ok (some value) ∧
          since ≤ landedAt ∧ s'.Landed client (client.key x) value landedAt := by
      intro r hr hkey hreply
      obtain ⟨value, landedAt, hok, hsince, hlanded⟩ :=
        hs.replies r hr hkey readAt reply hreply hafter hbefore
      exact ⟨value, landedAt, hok, hsince, hlanded.step hstep⟩
    rcases requests_step hstep hmem with hstays | ⟨_, rfl⟩ | ⟨i, act, r, rfl, hr, hact⟩
    · exact hold r' hstays hkey hreply
    · cases hreply
    · rw [subject_act hact] at hkey
      rcases reply_act hact hreply with hthen | ⟨outcome, rfl, hnow⟩
      · exact hold r hr hkey hthen
      · obtain ⟨rfl, rfl⟩ := Prod.mk.inj hnow
        have hlive : s.clock < entry.expires := by omega
        cases show outcome = .answers from hup
        refine ⟨entry.value, landedAt, ?_, hsince, hlanded.step hstep⟩
        rw [hkey, ExpiringStore.read, get_eq_some.mpr ⟨entry, hentry, hlive, rfl⟩]

/-- From a landing write on, every request that reads the key within the time to live is
    handed an entry that landed no earlier. -/
theorem warm_run (hs : ∀ r ∈ s.requests, r.Ordered client s.clock) {i : Nat}
    {r : Request ι ν φ υ β} (hr : s.requests[i]? = some r) {es : List (Event ι κ ν υ)}
    (hup : ∀ e ∈ es, e.Up client)
    (hexec : Run.exec (System.step client) s (.act i (.write .keeps) :: es) = some s') :
    s'.Warm client (client.key r.subject) s.clock := by
  obtain ⟨t, hstep, hrest⟩ := Run.exec_cons_eq_some.mp hexec
  exact Run.exec_invariant (P := fun s' => s'.Warm client (client.key r.subject) s.clock)
    (fun _ _ _ hwarm hup hstep => hwarm.step hup hstep) (warm_of_write hs hr hstep)
    (Run.meets_of_forall hup t) hrest

/-- A run that goes on from a landing write is a run. -/
theorem sound_warm_run {s₀ : System ι κ ν φ υ β} {before after : List (Event ι κ ν υ)} {i : Nat}
    (hallowed : ∀ e ∈ before, e.Allowed client unusable)
    (hbefore : Run.exec (System.step client) .initial before = some s₀)
    (hup : ∀ e ∈ after, e.Up client)
    (hafter : Run.exec (System.step client) s₀ (.act i (.write .keeps) :: after) = some s) :
    s.Sound client unusable := by
  apply sound_run _ (Run.exec_append hbefore hafter)
  intro e he
  rcases List.mem_append.mp he with he | he
  · exact hallowed e he
  · rcases List.mem_cons.mp he with rfl | he
    · trivial
    · exact (hup e he).allowed

end Runs
end CacheAside
