import FietsOfOv.Lib.CacheAside
import FietsOfOv.PlanCache
import FietsOfOv.RainRequests

/-!
# Plan requests that interleave

`gather_candidates_cached` as a coroutine.  `/v1/plan` and `/v1/advice` share its
cache entries, a fan-out to OTP takes seconds, and in the meantime other requests
for the same trip come and go.
-/

namespace FietsOfOv

open CacheAside ExpiringStore

section Client

variable (py : Pydantic) (codec : JsonCodec)

/-- What `gather_candidates_cached` does between its awaits. -/
def planClient : Client Trip String String Unit Fanout
    (Except PlanException (List CachedCandidate)) where
  key := cacheKey
  lookup _ answer :=
    match readCachedCandidates py codec answer with
    | some cached => .serves (.ok cached)
    | none => .asks ()
  settle _ _ fanout :=
    let served := gatherAndStore codec fanout
    (served.answer, served.written)
  ttl := planCacheTtlSeconds * 1000000

abbrev PlanRequest :=
  Request Trip String Unit Fanout (Except PlanException (List CachedCandidate))

abbrev PlanSystem :=
  System Trip String String Unit Fanout (Except PlanException (List CachedCandidate))

abbrev PlanEvent := CacheAside.Event Trip String String Fanout

/-- A text that `_read_cached_candidates` takes for a miss. -/
def UnreadablePlan (raw : String) : Prop := readCachedCandidates py codec (.ok (some raw)) = none

/-- A request for the same trip gathered these candidates, and they landed in the cache. -/
def PlanSystem.GatheredFor (s : PlanSystem) (trip : Trip) (gatheredAt : Int)
    (candidates : List Candidate) (landedAt : Int) : Prop :=
  ∃ r ∈ s.requests, r.subject.Same trip ∧
    (∃ fanout, r.answer = some (gatheredAt, fanout) ∧ gatherCandidates fanout = .ok candidates) ∧
    r.landed = some (landedAt, .keeps) ∧ gatheredAt ≤ landedAt ∧ candidates ≠ []

variable {py codec}

/-- Fidelity: between its awaits the client does what `gatherCandidatesCached` does in a call
    that nothing interrupts. -/
theorem planClient_uninterrupted (now : Int) (answer : Except Unit (Option String))
    (fanout : Fanout) :
    (match (planClient py codec).lookup now answer with
      | .serves result => (result, none)
      | .asks kept => (planClient py codec).settle now kept fanout) =
      ((gatherCandidatesCached py codec answer fanout).answer,
        (gatherCandidatesCached py codec answer fanout).written) := by
  simp only [planClient, gatherCandidatesCached]
  cases readCachedCandidates py codec answer <;> rfl

/-- The rain service writes under other keys, so its writes are foreign ones here. -/
theorem cacheKey_ne_rainKey (trip : Trip) (lat lon : ℚ) : cacheKey trip ≠ rainKey lat lon := by
  intro heq
  have htext := congrArg (fun key : String => key.toList.head?) heq
  simp [cacheKey, rainKey] at htext

/-- What landed is the payload of a non-empty answer gathered for the trip. -/
theorem gathered_of_landed {s : PlanSystem}
    (hs : ∀ r ∈ s.requests, r.Ordered (planClient py codec) s.clock) {trip : Trip} {raw : String}
    {landedAt : Int} (h : s.Landed (planClient py codec) (cacheKey trip) raw landedAt) :
    ∃ gatheredAt candidates, s.GatheredFor trip gatheredAt candidates landedAt ∧
      raw = payload codec candidates := by
  obtain ⟨r, hr, hkey, hwritten, hlanded⟩ := h
  obtain ⟨_, kept, answeredAt, fanout, _, hanswer, hvalue⟩ := Request.answered_of_written hwritten
  obtain ⟨_, answeredAt', _, hanswer', hle⟩ := (hs r hr).landed _ _ hlanded
  cases hanswer.symm.trans hanswer'
  simp only [planClient, gatherAndStore] at hvalue
  cases hgather : gatherCandidates fanout with
  | error e => simp [hgather] at hvalue
  | ok candidates =>
      simp only [hgather, Option.ite_none_left_eq_some, Option.some.injEq] at hvalue
      obtain ⟨hne, rfl⟩ := hvalue
      exact ⟨answeredAt, candidates, ⟨r, hr, cacheKey_same hkey, ⟨fanout, hanswer, hgather⟩,
        hlanded, hle, hne⟩, rfl⟩

/-- What a request was handed is no text it can use, or was gathered for its trip and landed
    within the time to live before the read. -/
theorem gathered_of_reply {s : PlanSystem}
    (hs : s.Sound (planClient py codec) (UnreadablePlan py codec)) {r : PlanRequest}
    (hr : r ∈ s.requests) {readAt : Int} {reply : Except Unit (Option String)}
    (hreply : r.reply = some (readAt, reply)) {cached : List CachedCandidate}
    (hcached : readCachedCandidates py codec reply = some cached) :
    ∃ gatheredAt candidates landedAt, s.GatheredFor r.subject gatheredAt candidates landedAt ∧
      cached = candidates.map Candidate.asCached ∧ landedAt ≤ readAt ∧
      readAt < landedAt + planCacheTtlSeconds * 1000000 := by
  match reply with
  | .error _ => cases hcached
  | .ok none => cases hcached
  | .ok (some raw) =>
      rcases hs.replies r hr readAt raw hreply with hbad | ⟨landedAt, hlanded, hbefore, hlive⟩
      · rw [hbad] at hcached
        cases hcached
      · obtain ⟨gatheredAt, candidates, hgathered, rfl⟩ := gathered_of_landed hs.ordered hlanded
        rw [readCachedCandidates_payload, Option.some.injEq] at hcached
        exact ⟨gatheredAt, candidates, landedAt, hgathered, hcached.symm, hbefore, hlive⟩

/-- The request did not ask OTP: it was handed a non-empty list that was gathered for the same
    trip and landed less than the time to live before the request read the cache. -/
def PlanSystem.FromCache (s : PlanSystem) (r : PlanRequest) (candidates : List Candidate) :
    Prop :=
  r.answer = none ∧ ∃ readAt reply gatheredAt landedAt, r.reply = some (readAt, reply) ∧
    s.GatheredFor r.subject gatheredAt candidates landedAt ∧ landedAt ≤ readAt ∧
    readAt < landedAt + planCacheTtlSeconds * 1000000

/-- How a request may end: as its own fan-out, or with a list from the cache. -/
def PlanSystem.MayEnd (s : PlanSystem) (r : PlanRequest)
    (result : Except PlanException (List CachedCandidate)) : Prop :=
  (∃ answeredAt fanout, r.answer = some (answeredAt, fanout) ∧
    result = (gatherCandidates fanout).map (List.map Candidate.asCached)) ∨
  ∃ candidates, s.FromCache r candidates ∧ result = .ok (candidates.map Candidate.asCached)

theorem mayEnd_of_sound {s : PlanSystem}
    (hs : s.Sound (planClient py codec) (UnreadablePlan py codec)) {r : PlanRequest}
    (hr : r ∈ s.requests) {result : Except PlanException (List CachedCandidate)}
    (hresult : r.result (planClient py codec) = some result) : s.MayEnd r result := by
  obtain ⟨⟨_, written⟩, houtcome, rfl⟩ := Option.map_eq_some_iff.mp hresult
  rw [Request.outcome] at houtcome
  split at houtcome
  · cases houtcome
  · rename_i decidedAt served hverdict
    cases houtcome
    obtain ⟨_, readAt, reply, hreply, _, hlookup⟩ := (hs.ordered r hr).decided _ _ hverdict
    have hnone : r.answer = none := (hs.ordered r hr).answer_of_serves hverdict
    simp only [planClient] at hlookup
    split at hlookup
    · rename_i cached hcached
      cases hlookup
      obtain ⟨gatheredAt, candidates, landedAt, hgathered, rfl, hbefore, hlive⟩ :=
        gathered_of_reply hs hr hreply hcached
      exact Or.inr ⟨candidates, ⟨hnone, readAt, reply, gatheredAt, landedAt, hreply, hgathered,
        hbefore, hlive⟩, rfl⟩
    · cases hlookup
  · rename_i decidedAt kept hverdict
    obtain ⟨⟨answeredAt, fanout⟩, hanswer, hsettle⟩ := Option.map_eq_some_iff.mp houtcome
    have hanswers : (gatherAndStore codec fanout).answer = _ := gatherAndStore_answer fanout
    refine Or.inl ⟨answeredAt, fanout, hanswer, ?_⟩
    rw [← hanswers]
    exact (congrArg Prod.fst hsettle).symm

/-- **Every route served is OTP's, and recent.**  However the requests interleave, a request
    ends as its own fan-out does, or without one with a non-empty list that was gathered for
    the same trip and landed less than the time to live before the request read it. -/
theorem candidates_across_requests (py : Pydantic) (codec : JsonCodec) (es : List PlanEvent)
    (s : PlanSystem)
    (hallowed : ∀ e ∈ es, e.Allowed (planClient py codec) (UnreadablePlan py codec))
    (hexec : Run.exec (System.step (planClient py codec)) .initial es = some s)
    (r : PlanRequest) (hr : r ∈ s.requests) (result : Except PlanException (List CachedCandidate))
    (hresult : r.result (planClient py codec) = some result) : s.MayEnd r result :=
  mayEnd_of_sound (sound_run hallowed hexec) hr hresult

/-- **No second fan-out.**  Once candidates have landed, and while the cache is up, every
    request for the same key that reads the cache within the time to live is served a
    non-empty list that landed no earlier, and OTP is not asked. -/
theorem no_fan_out_while_kept (py : Pydantic) (codec : JsonCodec)
    (before after : List PlanEvent) (s₀ s : PlanSystem) (i : Nat)
    (hallowed : ∀ e ∈ before, e.Allowed (planClient py codec) (UnreadablePlan py codec))
    (hbefore : Run.exec (System.step (planClient py codec)) .initial before = some s₀)
    (hup : ∀ e ∈ after, e.Up (planClient py codec))
    (hafter : Run.exec (System.step (planClient py codec)) s₀
      (.act i (.write .keeps) :: after) = some s)
    (r₀ r : PlanRequest) (hr₀ : s₀.requests[i]? = some r₀) (hr : r ∈ s.requests)
    (hkey : cacheKey r.subject = cacheKey r₀.subject) (readAt decidedAt : Int)
    (reply : Except Unit (Option String)) (hreply : r.reply = some (readAt, reply))
    (hlater : s₀.clock < readAt) (hlive : readAt < s₀.clock + planCacheTtlSeconds * 1000000)
    (verdict : Verdict Unit (Except PlanException (List CachedCandidate)))
    (hverdict : r.verdict = some (decidedAt, verdict)) :
    r.answer = none ∧ ∃ gatheredAt candidates landedAt,
      verdict = .serves (.ok (candidates.map Candidate.asCached)) ∧
      s.GatheredFor r.subject gatheredAt candidates landedAt ∧ s₀.clock ≤ landedAt := by
  have hs : s.Sound (planClient py codec) (UnreadablePlan py codec) :=
    sound_warm_run hallowed hbefore hup hafter
  have hs₀ : s₀.Sound (planClient py codec) (UnreadablePlan py codec) := sound_run hallowed hbefore
  have hwarm : s.Warm (planClient py codec) _ s₀.clock := warm_run hs₀.ordered hr₀ hup hafter
  obtain ⟨raw, landedAt, rfl, hsince, hlanded⟩ := hwarm.replies r hr hkey _ _ hreply hlater hlive
  have hlanded : s.Landed (planClient py codec) (cacheKey r.subject) raw landedAt := by
    rw [hkey]
    exact hlanded
  obtain ⟨gatheredAt, candidates, hgathered, rfl⟩ := gathered_of_landed hs.ordered hlanded
  obtain ⟨_, _, _, hreply', _, hlookup⟩ := (hs.ordered r hr).decided _ _ hverdict
  cases hreply.symm.trans hreply'
  have hserves : verdict = .serves (.ok (candidates.map Candidate.asCached)) := by
    simpa only [planClient, readCachedCandidates_payload] using hlookup
  rw [hserves] at hverdict
  exact ⟨(hs.ordered r hr).answer_of_serves hverdict, gatheredAt, candidates, landedAt, hserves,
    hgathered, hsince⟩

end Client

/-! ### A request that comes in while another one gathers -/

section Overlap

variable (py : Pydantic) (codec : JsonCodec) (trip : Trip) (point : ℚ × ℚ)

def rideFanout : Fanout := ⟨.ok [rideHome], .ok [], .ok [], .ok none⟩

/-- The first read fails, and while OTP is asked a rain forecast is written. -/
def firstGathers : List PlanEvent :=
  [.call trip, .act 0 (.read .fails), .act 0 .resume, .elapse 1000000,
    .foreign (rainKey point.1 point.2) none, .call trip, .elapse 1000000,
    .act 0 (.answer rideFanout)]

/-- The second request is there already, but reads once the ride has landed. -/
def secondReads : List PlanEvent :=
  [.elapse 1000000, .act 1 (.read .answers), .act 1 .resume]

def gathersFirst : PlanRequest :=
  ⟨trip, some (0, .error ()), some (0, .asks ()), some (2000000, rideFanout), none⟩

def readsSecond : PlanRequest :=
  ⟨trip, some (3000000, .ok (some (payload codec [⟨.bike, rideHome⟩]))),
    some (3000000, .serves (.ok [Candidate.asCached ⟨.bike, rideHome⟩])), none, none⟩

def firstGathered : PlanSystem :=
  ⟨2000000, Function.update ExpiringStore.empty (rainKey point.1 point.2) none,
    [gathersFirst trip, .called trip]⟩

def secondServed : PlanSystem :=
  ⟨3000000, write (firstGathered trip point).store 2000000 45000000 (cacheKey trip)
    (payload codec [⟨.bike, rideHome⟩]) .keeps,
    [{ gathersFirst trip with landed := some (2000000, .keeps) }, readsSecond codec trip]⟩

theorem firstGathers_exec : Run.exec (System.step (planClient py codec)) .initial
    (firstGathers trip point) = some (firstGathered trip point) := rfl

theorem secondReads_exec : Run.exec (System.step (planClient py codec))
    (firstGathered trip point) (.act 0 (.write .keeps) :: secondReads) =
      some (secondServed codec trip point) := by
  have hread : (Request.called trip : PlanRequest).act (planClient py codec) 3000000
      (secondServed codec trip point).store (.read .answers) =
        some { readsSecond codec trip with verdict := none } := by
    have hget : get (secondServed codec trip point).store 3000000 (cacheKey trip) =
        some (payload codec [⟨.bike, rideHome⟩]) :=
      get_eq_some.mpr ⟨⟨_, 47000000⟩, Function.update_self _ _ _, by norm_num, rfl⟩
    simp only [Request.act, Request.called, planClient, ExpiringStore.read, hget, readsSecond]
  have hresume : { readsSecond codec trip with verdict := none }.act (planClient py codec) 3000000
      (secondServed codec trip point).store .resume = some (readsSecond codec trip) := by
    simp only [Request.act, readsSecond, planClient, readCachedCandidates_payload, List.map_cons,
      List.map_nil]
  have hwrite : (firstGathered trip point).step (planClient py codec) (.act 0 (.write .keeps)) =
      some { firstGathered trip point with
        store := (secondServed codec trip point).store
        requests := [{ gathersFirst trip with landed := some (2000000, .keeps) }, .called trip] } :=
    rfl
  rw [Run.exec_cons_eq_some]
  refine ⟨_, hwrite, ?_⟩
  rw [secondReads, Run.exec_cons_eq_some]
  refine ⟨_, rfl, ?_⟩
  rw [Run.exec_cons_eq_some]
  refine ⟨_, step_act.mpr ⟨_, _, rfl, hread, rfl⟩, ?_⟩
  rw [Run.exec_cons_eq_some]
  refine ⟨_, step_act.mpr ⟨_, _, rfl, hresume, rfl⟩, ?_⟩
  rfl

end Overlap

theorem candidates_across_requests_second :
    ∃ gatheredAt candidates landedAt, (secondServed rideJson firstRequest.trip (0, 0)).GatheredFor
      firstRequest.trip gatheredAt candidates landedAt ∧
      [Candidate.asCached ⟨.bike, rideHome⟩] = candidates.map Candidate.asCached ∧
      landedAt ≤ 3000000 := by
  have hserved := candidates_across_requests strictPydantic rideJson
    (firstGathers firstRequest.trip (0, 0) ++ .act 0 (.write .keeps) :: secondReads)
    (secondServed rideJson firstRequest.trip (0, 0))
    (by simp [firstGathers, secondReads, CacheAside.Event.Allowed, planClient, cacheKey_ne_rainKey])
    (Run.exec_append (firstGathers_exec _ rideJson firstRequest.trip (0, 0))
      (secondReads_exec _ rideJson firstRequest.trip (0, 0)))
    (readsSecond rideJson firstRequest.trip) (by simp [secondServed])
    (.ok [Candidate.asCached ⟨.bike, rideHome⟩]) rfl
  rcases hserved with ⟨_, _, hanswer, _⟩ | ⟨candidates, ⟨_, readAt, _, gatheredAt, landedAt, hreply,
    hgathered, hbefore, _⟩, hsame⟩
  · cases hanswer
  · cases hreply
    exact ⟨gatheredAt, candidates, landedAt, hgathered, Except.ok.inj hsame, hbefore⟩

theorem no_fan_out_while_kept_second :
    (readsSecond rideJson firstRequest.trip).answer = none ∧
    ∃ gatheredAt candidates landedAt, (secondServed rideJson firstRequest.trip (0, 0)).GatheredFor
      firstRequest.trip gatheredAt candidates landedAt ∧ 2000000 ≤ landedAt := by
  have hquiet := no_fan_out_while_kept strictPydantic rideJson
    (firstGathers firstRequest.trip (0, 0)) secondReads (firstGathered firstRequest.trip (0, 0))
    (secondServed rideJson firstRequest.trip (0, 0)) 0
    (by simp [firstGathers, CacheAside.Event.Allowed, planClient, cacheKey_ne_rainKey])
    (firstGathers_exec _ rideJson firstRequest.trip (0, 0))
    (by simp [secondReads, CacheAside.Event.Up])
    (secondReads_exec _ rideJson firstRequest.trip (0, 0)) (gathersFirst firstRequest.trip)
    (readsSecond rideJson firstRequest.trip) rfl (by simp [secondServed]) rfl 3000000 3000000 _ rfl
    (by decide) (by decide) _ rfl
  obtain ⟨hnone, gatheredAt, candidates, landedAt, _, hgathered, hsince⟩ := hquiet
  exact ⟨hnone, gatheredAt, candidates, landedAt, hgathered, hsince⟩

end FietsOfOv
