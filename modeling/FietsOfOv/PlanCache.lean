import FietsOfOv.Lib.ExpiringStore
import FietsOfOv.Lib.JsonTokens
import FietsOfOv.Lib.TextCodec
import FietsOfOv.Planner
import Mathlib.Data.List.Induction

/-!
# The plan cache

`gather_candidates_cached` of `app/services/planner.py` over the cache of
`app/core/cache.py`: a cached answer skips the fan-out, and only a non-empty answer is
cached.  Moments are microseconds; a call reads the cache when it is asked, and writes it
when its fan-out has answered.
-/

namespace FietsOfOv

open Decimal ExpiringStore

/-- `_PLAN_CACHE_TTL_SECONDS`. -/
def planCacheTtlSeconds : Int := 45

/-- What one call comes to: what it returns or raises, whether it ran the fan-out, and
    the payload it hands to the cache. -/
structure PlanServed where
  answer : Except PlanException (List CachedCandidate)
  fannedOut : Bool
  written : Option String

section Service

variable (py : Pydantic) (codec : JsonCodec)

/-- `gather_candidates_cached` after a cache miss. -/
def gatherAndStore (fanout : Fanout) : PlanServed :=
  match gatherCandidates fanout with
  | .ok candidates =>
      ⟨.ok (candidates.map Candidate.asCached), true,
        if candidates = [] then none else some (payload codec candidates)⟩
  | .error e => ⟨.error e, true, none⟩

/-- `gather_candidates_cached`, given what the cache answers and what OTP would answer. -/
def gatherCandidatesCached (answer : Except Unit (Option String)) (fanout : Fanout) :
    PlanServed :=
  match readCachedCandidates py codec answer with
  | some cached => ⟨.ok cached, false, none⟩
  | none => gatherAndStore codec fanout

/-! ## Runs of the service -/

/-- One call, with the moments it reads and writes the cache at and the outcome of each
    of its accesses. -/
structure PlanCall where
  asked : Int
  answered : Int
  trip : Trip
  read : ReadOutcome String
  fanout : Fanout
  write : WriteOutcome

def PlanCall.key (call : PlanCall) : String := cacheKey call.trip

/-- What a call comes to over a cache. -/
def PlanCall.serve (call : PlanCall) (cache : Store String String) : PlanServed :=
  gatherCandidatesCached py codec (ExpiringStore.read cache call.asked call.key call.read)
    call.fanout

/-- The cache after a call. -/
def PlanCall.step (cache : Store String String) (call : PlanCall) : Store String String :=
  match (call.serve py codec cache).written with
  | some text =>
      ExpiringStore.write cache call.answered (planCacheTtlSeconds * 1000000) call.key text
        call.write
  | none => cache

/-- The cache after a sequence of calls. -/
def planCacheAfter (calls : List PlanCall) : Store String String :=
  calls.foldl (PlanCall.step py codec) ExpiringStore.empty

/-- One of the calls ran the fan-out, and `gather_candidates` returned these candidates. -/
def Gathered (calls : List PlanCall) (call : PlanCall) (candidates : List Candidate) : Prop :=
  ∃ before after, calls = before ++ call :: after ∧
    (call.serve py codec (planCacheAfter py codec before)).fannedOut = true ∧
    gatherCandidates call.fanout = .ok candidates

/-- Every cached text is the payload of a non-empty answer that one of the calls gathered
    for that key, kept for the time to live from the moment of that answer. -/
def PlanPayloads (calls : List PlanCall) (cache : Store String String) : Prop :=
  ∀ key entry, cache key = some entry →
    ∃ call candidates, Gathered py codec calls call candidates ∧ candidates ≠ [] ∧
      call.key = key ∧ entry.value = payload codec candidates ∧
      entry.expires = call.answered + planCacheTtlSeconds * 1000000

/-- The cache answers a read from its own entries, or not at all. -/
def PlanCall.ReadsBack (call : PlanCall) : Prop := ∀ raw, call.read ≠ .garbles raw

variable {py codec}

theorem OptionKind.name_injective : Function.Injective OptionKind.name := by
  intro kind kind' heq
  cases kind <;> cases kind' <;> first | rfl | exact absurd heq (by decide)

/-- A candidate is determined by what comes out of the cache for it. -/
theorem Candidate.asCached_injective : Function.Injective Candidate.asCached := by
  rintro ⟨kind, itinerary⟩ ⟨kind', itinerary'⟩ heq
  simp only [Candidate.asCached, CachedCandidate.mk.injEq, Json.str.injEq] at heq
  rw [OptionKind.name_injective heq.1, heq.2]

/-! ### One call -/

theorem PlanCall.serve_of_hit {cache : Store String String} {call : PlanCall}
    {cached : List CachedCandidate}
    (hcached : readCachedCandidates py codec
      (ExpiringStore.read cache call.asked call.key call.read) = some cached) :
    call.serve py codec cache = ⟨.ok cached, false, none⟩ := by
  rw [PlanCall.serve, gatherCandidatesCached, hcached]

theorem PlanCall.serve_of_miss {cache : Store String String} {call : PlanCall}
    (hcached : readCachedCandidates py codec
      (ExpiringStore.read cache call.asked call.key call.read) = none) :
    call.serve py codec cache = gatherAndStore codec call.fanout := by
  rw [PlanCall.serve, gatherCandidatesCached, hcached]

theorem gatherAndStore_fannedOut (fanout : Fanout) :
    (gatherAndStore codec fanout).fannedOut = true := by
  rw [gatherAndStore]
  split <;> rfl

theorem gatherAndStore_answer (fanout : Fanout) :
    (gatherAndStore codec fanout).answer =
      (gatherCandidates fanout).map (List.map Candidate.asCached) := by
  rw [gatherAndStore]
  cases gatherCandidates fanout <;> rfl

/-- A call writes only a non-empty answer it gathered itself. -/
theorem PlanCall.serve_written {cache : Store String String} {call : PlanCall} {text : String}
    (h : (call.serve py codec cache).written = some text) :
    (call.serve py codec cache).fannedOut = true ∧
      ∃ candidates, gatherCandidates call.fanout = .ok candidates ∧ candidates ≠ [] ∧
        text = payload codec candidates := by
  cases hcached : readCachedCandidates py codec
      (ExpiringStore.read cache call.asked call.key call.read) with
  | some cached =>
      rw [PlanCall.serve_of_hit hcached] at h
      cases h
  | none =>
      rw [PlanCall.serve_of_miss hcached] at h ⊢
      constructor
      · exact gatherAndStore_fannedOut call.fanout
      · rw [gatherAndStore] at h
        cases hgather : gatherCandidates call.fanout with
        | error e => simp [hgather] at h
        | ok candidates =>
            simp only [hgather, Option.ite_none_left_eq_some, Option.some.injEq] at h
            exact ⟨candidates, rfl, h.1, h.2.symm⟩

/-! ### Runs -/

theorem planCacheAfter_concat (calls : List PlanCall) (call : PlanCall) :
    planCacheAfter py codec (calls ++ [call]) =
      call.step py codec (planCacheAfter py codec calls) := by
  simp [planCacheAfter]

theorem Gathered.concat {calls : List PlanCall} {call : PlanCall} {candidates : List Candidate}
    (h : Gathered py codec calls call candidates) (last : PlanCall) :
    Gathered py codec (calls ++ [last]) call candidates := by
  obtain ⟨before, after, rfl, hfanned, hgather⟩ := h
  exact ⟨before, after ++ [last], by simp, hfanned, hgather⟩

/-- A call leaves only payloads in the cache. -/
theorem PlanPayloads.step {calls : List PlanCall}
    (h : PlanPayloads py codec calls (planCacheAfter py codec calls)) (last : PlanCall) :
    PlanPayloads py codec (calls ++ [last])
      (last.step py codec (planCacheAfter py codec calls)) := by
  intro key entry hentry
  have hold : planCacheAfter py codec calls key = some entry →
      ∃ call candidates, Gathered py codec (calls ++ [last]) call candidates ∧ candidates ≠ [] ∧
        call.key = key ∧ entry.value = payload codec candidates ∧
        entry.expires = call.answered + planCacheTtlSeconds * 1000000 := by
    intro hstore
    obtain ⟨call, candidates, hgathered, hrest⟩ := h key entry hstore
    exact ⟨call, candidates, hgathered.concat last, hrest⟩
  cases hwritten : (last.serve py codec (planCacheAfter py codec calls)).written with
  | none =>
      rw [PlanCall.step, hwritten] at hentry
      exact hold hentry
  | some text =>
      rw [PlanCall.step, hwritten] at hentry
      rcases write_cases hentry with hstore | ⟨rfl, rfl⟩
      · exact hold hstore
      · obtain ⟨hfanned, candidates, hgather, hne, rfl⟩ := PlanCall.serve_written hwritten
        exact ⟨last, candidates, ⟨calls, [], rfl, hfanned, hgather⟩, hne, rfl, rfl, rfl⟩

theorem planPayloads_after (calls : List PlanCall) :
    PlanPayloads py codec calls (planCacheAfter py codec calls) := by
  induction calls using List.reverseRecOn with
  | nil =>
      intro key entry hentry
      simp [planCacheAfter, ExpiringStore.empty] at hentry
  | append_singleton calls call ih =>
      rw [planCacheAfter_concat]
      exact ih.step call

/-- What a call finds in the cache, an earlier call gathered for the same trip within the
    time to live. -/
theorem cached_gathered {before : List PlanCall} {call : PlanCall}
    (hclock : (before ++ [call]).Pairwise (·.answered ≤ ·.asked)) (hreads : call.ReadsBack)
    {cached : List CachedCandidate}
    (hcached : readCachedCandidates py codec (ExpiringStore.read (planCacheAfter py codec before)
      call.asked call.key call.read) = some cached) :
    ∃ earlier candidates, Gathered py codec before earlier candidates ∧ candidates ≠ [] ∧
      cached = candidates.map Candidate.asCached ∧ earlier.trip.Same call.trip ∧
      earlier.answered ≤ call.asked ∧
      call.asked - earlier.answered ≤ planCacheTtlSeconds * 1000000 := by
  cases hread : call.read with
  | answers =>
      cases hget : get (planCacheAfter py codec before) call.asked call.key with
      | none => simp [hread, ExpiringStore.read, hget, readCachedCandidates] at hcached
      | some raw =>
          obtain ⟨entry, hentry, hlive, rfl⟩ := get_eq_some.mp hget
          obtain ⟨earlier, candidates, hgathered, hne, hkey, hvalue, hexpires⟩ :=
            planPayloads_after before _ _ hentry
          rw [hread, ExpiringStore.read, hget, hvalue, readCachedCandidates_payload,
            Option.some.injEq] at hcached
          have hmem : earlier ∈ before := by
            obtain ⟨first, after, rfl, -⟩ := hgathered
            simp
          have hle : earlier.answered ≤ call.asked :=
            (List.pairwise_append.mp hclock).2.2 earlier hmem call (by simp)
          exact ⟨earlier, candidates, hgathered, hne, hcached.symm, cacheKey_same hkey, hle,
            by omega⟩
  | fails => simp [hread, ExpiringStore.read, readCachedCandidates] at hcached
  | misses => simp [hread, ExpiringStore.read, readCachedCandidates] at hcached
  | garbles raw => exact absurd hread (hreads raw)

/-- **The plan cache is transparent.**  What is written is read back; over any run, a
    returned list was gathered in this call or within the time to live before it for the
    same trip, and an empty list or an exception is the fan-out's own. -/
theorem plan_cache_transparent (py : Pydantic) (codec : JsonCodec) (before : List PlanCall)
    (call : PlanCall) (hclock : (before ++ [call]).Pairwise (·.answered ≤ ·.asked))
    (hreads : call.ReadsBack) :
    let served := call.serve py codec (planCacheAfter py codec before)
    Function.Injective Candidate.asCached ∧
    (∀ candidates, readCachedCandidates py codec (.ok (some (payload codec candidates))) =
      some (candidates.map Candidate.asCached)) ∧
    (∀ returned, served.answer = .ok returned →
      ∃ candidates, returned = candidates.map Candidate.asCached ∧
        (served.fannedOut = true ∧ gatherCandidates call.fanout = .ok candidates ∨
        ∃ earlier, Gathered py codec before earlier candidates ∧
          earlier.trip.Same call.trip ∧ earlier.answered ≤ call.asked ∧
          call.asked - earlier.answered ≤ planCacheTtlSeconds * 1000000)) ∧
    (served.answer = .ok [] →
      served.fannedOut = true ∧ gatherCandidates call.fanout = .ok []) ∧
    ∀ e, served.answer = .error e ↔
      served.fannedOut = true ∧ gatherCandidates call.fanout = .error e := by
  intro served
  refine ⟨Candidate.asCached_injective, readCachedCandidates_payload py codec, ?_⟩
  cases hcached : readCachedCandidates py codec (ExpiringStore.read
      (planCacheAfter py codec before) call.asked call.key call.read) with
  | some cached =>
      obtain ⟨earlier, candidates, hgathered, hne, rfl, hrest⟩ :=
        cached_gathered hclock hreads hcached
      have hserved : served = ⟨.ok (candidates.map Candidate.asCached), false, none⟩ :=
        PlanCall.serve_of_hit hcached
      rw [hserved]
      refine ⟨?_, ?_, ?_⟩
      · intro returned hreturned
        cases hreturned
        exact ⟨candidates, rfl, Or.inr ⟨earlier, hgathered, hrest⟩⟩
      · intro hempty
        simp [hne] at hempty
      · simp
  | none =>
      have hserved : served = gatherAndStore codec call.fanout := PlanCall.serve_of_miss hcached
      rw [hserved, gatherAndStore_fannedOut, gatherAndStore_answer]
      cases hgather : gatherCandidates call.fanout with
      | ok candidates =>
          refine ⟨?_, ?_, ?_⟩
          · intro returned hreturned
            cases hreturned
            exact ⟨candidates, rfl, Or.inl ⟨rfl, rfl⟩⟩
          · simp [Except.map]
          · simp [Except.map]
      | error e => simp [Except.map]

end Service

/-! ### An outage within the time to live -/

/-- A ride of ten minutes. -/
def rideHome : Itinerary where
  duration := 600
  startTime := 0
  endTime := 600000
  legs := [{ mode := "BICYCLE", startTime := 0, endTime := 600000, duration := 600,
             distance := some 2500, routeShortName := none, routeLongName := none,
             headsign := none, fromName := none, fromLat := none, fromLon := none,
             toName := none, toLat := none, toLon := none, geometry := none, steps := [] }]

/-- A codec for the decoded values. -/
def JsonCodec.ofTextCodec (codec : TextCodec Json) : JsonCodec where
  dumps := codec.encode
  loads := codec.decode
  loads_dumps := codec.decode_encode
  loads_empty := codec.decode_empty

/-- What `json.dumps` makes of the ride. -/
def rideText : String :=
  "[" ++ ("\x7b\"kind\": \"bike\", \"itinerary\": \x7b\"duration\": 600.0, " ++
    "\"start_time\": 0, \"end_time\": 600000, \"legs\": [\x7b\"mode\": \"BICYCLE\", " ++
    "\"start_time\": 0, \"end_time\": 600000, \"duration\": 600.0, \"distance\": 2500.0, " ++
    "\"route_short_name\": null, \"route_long_name\": null, \"headsign\": null, " ++
    "\"from_name\": null, \"from_lat\": null, \"from_lon\": null, \"to_name\": null, " ++
    "\"to_lat\": null, \"to_lon\": null, \"geometry\": null, \"steps\": []\x7d]\x7d\x7d]")

theorem bracket_mem_rideText : '[' ∈ rideText.toList := by
  unfold rideText
  rw [String.toList_append]
  exact List.mem_append_left _ (by decide)

/-- The codec that writes the ride as `json.dumps` does. -/
def rideJson : JsonCodec :=
  .ofTextCodec ((TextCodec.tally Json).spelling (.arr ([⟨.bike, rideHome⟩].map Candidate.dump))
    rideText (TextCodec.ne_empty_of_mem bracket_mem_rideText)
    (TextCodec.tally_decode_eq_none bracket_mem_rideText (by decide)))

theorem payload_rideJson : payload rideJson [⟨.bike, rideHome⟩] = rideText := by
  unfold payload rideJson JsonCodec.ofTextCodec
  dsimp only
  rw [TextCodec.spelling_encode]

/-- A request that misses the cache, and whose bike query finds the ride. -/
def firstRequest : PlanCall where
  asked := 0
  answered := 2000000
  trip := ⟨(5237 / 100, 489 / 100), (5235 / 100, 486 / 100), none⟩
  read := .misses
  fanout := ⟨.ok [rideHome], .ok [], .ok [], .ok none⟩
  write := .keeps

/-- The same trip half a minute later, from a few centimetres away and with OTP down. -/
def secondRequest : PlanCall where
  asked := 32000000
  answered := 33000000
  trip := ⟨(52370004 / 1000000, 4890004 / 1000000), (5235 / 100, 486 / 100), none⟩
  read := .answers
  fanout := ⟨.error (.otpError "down"), .error (.otpError "down"), .error (.otpError "down"),
    .ok none⟩
  write := .keeps

theorem firstRequest_stored (py : Pydantic) (codec : JsonCodec) :
    get (planCacheAfter py codec [firstRequest]) secondRequest.asked secondRequest.key =
      some (payload codec [⟨.bike, rideHome⟩]) := by
  have hlat : formatFixed 4 (52370004 / 1000000) = formatFixed 4 (5237 / 100) :=
    formatFixed_congr (by norm_num) (by decide +kernel)
  have hlon : formatFixed 4 (4890004 / 1000000) = formatFixed 4 (489 / 100) :=
    formatFixed_congr (by norm_num) (by decide +kernel)
  have hkey : secondRequest.key = firstRequest.key := by
    simp only [PlanCall.key, cacheKey, secondRequest, firstRequest, hlat, hlon]
  have hlive : secondRequest.asked < 47000000 := by decide
  rw [hkey, get_eq_some]
  exact ⟨⟨_, 47000000⟩, Function.update_self _ _ _, hlive, rfl⟩

theorem plan_cache_transparent_outage :
    get (planCacheAfter strictPydantic rideJson [firstRequest]) secondRequest.asked
        secondRequest.key = some rideText ∧
      (secondRequest.serve strictPydantic rideJson
        (planCacheAfter strictPydantic rideJson [firstRequest])).answer =
          .ok [Candidate.asCached ⟨.bike, rideHome⟩] := by
  have hstored := firstRequest_stored strictPydantic rideJson
  have htransparent := plan_cache_transparent strictPydantic rideJson [firstRequest]
    secondRequest (by simp [firstRequest, secondRequest]) (fun raw h => by cases h)
  have hread : readCachedCandidates strictPydantic rideJson
      (ExpiringStore.read (planCacheAfter strictPydantic rideJson [firstRequest])
        secondRequest.asked secondRequest.key secondRequest.read) =
        some [Candidate.asCached ⟨.bike, rideHome⟩] := by
    have hanswers : secondRequest.read = .answers := rfl
    rw [hanswers, ExpiringStore.read, hstored]
    exact htransparent.2.1 [⟨.bike, rideHome⟩]
  constructor
  · rw [hstored, payload_rideJson]
  · rw [PlanCall.serve_of_hit hread]

end FietsOfOv
