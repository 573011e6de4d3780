import FietsOfOv.Lib.Binary64
import FietsOfOv.Lib.BoundedDict
import FietsOfOv.Lib.Json
import FietsOfOv.Lib.Run

/-!
# Resolving places

`resolve_place` of `app/services/places.py` over the Nominatim client of
`app/clients/geocoder.py`.  Requests of many users share one client: a name that is not in
its cache waits for Nominatim, and other names are looked up and answered in between.  The
journal of a run says what each call came to, in the order it happened.
-/

namespace FietsOfOv

open Binary64
open Text (asciiLower)

/-! ## Coordinates -/

/-- `(lat, lon)`. -/
abbrev Coords := Double × Double

/-- `math.isfinite`. -/
def isFinite : Double → Bool
  | .finite _ _ => true
  | .infinite _ => false
  | .nan => false

/-- `-bound <= x <= bound`. -/
def atMost (bound : ℚ) : Double → Bool
  | .finite _ magnitude => magnitude ≤ bound
  | .infinite _ => false
  | .nan => false

/-- `_try_parse_latlon`. -/
def tryParseLatlon (value : String) : Option Coords :=
  match Text.split ',' value.toList with
  | [latStr, lonStr] => do
      let lat ← float latStr
      let lon ← float lonStr
      if ¬ (isFinite lat ∧ isFinite lon) then none
      else if ¬ (atMost 90 lat ∧ atMost 180 lon) then none
      else some (lat, lon)
  | _ => none

/-! ## Nominatim's replies -/

/-- What a lookup raises. -/
inductive GeocodeException where
  | geocodeNotFound
  | geocoderError
  | httpError
  | overflowError
deriving DecidableEq

/-- What comes of a request: an `httpx.HTTPError`, or a response whose body may not be JSON. -/
inductive Reply where
  | fails
  | responds (status : Nat) (body : Option Json)

/-- `float(value)` of a decoded value; the three that `geocode` catches are one.  An `int` that
    no double comes near raises, a `float` is what it is. -/
def floatOf : Json → Except GeocodeException Double
  | .int value =>
      match round (value < 0) |(value : ℚ)| with
      | .infinite _ => .error .overflowError
      | x => .ok x
  | .float value => .ok (round (value < 0) |value|)
  | .nonFinite .nan => .ok .nan
  | .nonFinite (.infinity negative) => .ok (.infinite negative)
  | .bool value => .ok (.finite false (if value then 1 else 0))
  | .str text =>
      match float text.toList with
      | some x => .ok x
      | none => .error .geocoderError
  | .null | .arr _ | .obj _ => .error .geocoderError

/-- `results[0]["lat"]` and `results[0]["lon"]`, each through `float`. -/
def topResult : Json → Except GeocodeException Coords
  | .arr (.obj fields :: _) =>
      match Dict.get fields "lat" with
      | none => .error .geocoderError
      | some lat => do
          let lat ← floatOf lat
          match Dict.get fields "lon" with
          | none => .error .geocoderError
          | some lon => do
              let lon ← floatOf lon
              return (lat, lon)
  | _ => .error .geocoderError

/-- `geocode` after the request. -/
def readReply : Reply → Except GeocodeException Coords
  | .fails => .error .httpError
  | .responds status body =>
      if ¬ (200 ≤ status ∧ status ≤ 299) then .error .httpError
      else
        match body with
        | none => .error .geocoderError
        | some results =>
            if ¬ results.truthy then .error .geocodeNotFound else topResult results

/-! ### What escapes -/

/-- An integer no double comes near: `float` raises an `OverflowError` for it. -/
def Huge (value : Json) : Prop := ∃ n : Int, value = .int n ∧ 2 ^ 1024 - 2 ^ 970 ≤ |(n : ℚ)|

theorem floatOf_eq_overflowError {value : Json} :
    floatOf value = .error .overflowError ↔ Huge value := by
  cases value with
  | int n =>
      have hround := @round_eq_infinite_iff (decide (n < 0)) _ (abs_nonneg (n : ℚ))
      have hhuge : Huge (.int n) ↔ (2 : ℚ) ^ 1024 - 2 ^ 970 ≤ |(n : ℚ)| := by
        constructor
        · rintro ⟨_, heq, hle⟩
          cases heq
          exact hle
        · intro hle
          exact ⟨n, rfl, hle⟩
      rw [hhuge, ← hround, floatOf]
      cases round (decide (n < 0)) |(n : ℚ)| <;> simp
  | nonFinite value => cases value <;> simp [floatOf, Huge]
  | str text =>
      rw [floatOf]
      cases float text.toList <;> simp [Huge]
  | null | bool | float | arr | obj => simp [floatOf, Huge]

/-- `float` of the coordinate raises what `geocode` lets through. -/
def Escapes (fields : List (String × Json)) : Prop :=
  ∃ lat, Dict.get fields "lat" = some lat ∧
    (Huge lat ∨ (∃ x, floatOf lat = .ok x) ∧ ∃ lon, Dict.get fields "lon" = some lon ∧ Huge lon)

theorem topResult_eq_overflowError {results : Json} :
    topResult results = .error .overflowError ↔
      ∃ fields rest, results = .arr (.obj fields :: rest) ∧ Escapes fields := by
  unfold topResult
  split
  · rename_i fields rest
    have hshape : (∃ fields' rest', Json.arr (.obj fields :: rest) = .arr (.obj fields' :: rest') ∧
        Escapes fields') ↔ Escapes fields := by
      constructor
      · rintro ⟨_, _, heq, h⟩
        cases heq
        exact h
      · intro h
        exact ⟨_, _, rfl, h⟩
    rw [hshape, Escapes]
    cases hlat : Dict.get fields "lat" with
    | none => simp
    | some lat =>
        simp only [Option.some.injEq, exists_eq_left', ← floatOf_eq_overflowError]
        cases hx : floatOf lat with
        | error e => simp [bind, Except.bind]
        | ok x =>
            cases hlon : Dict.get fields "lon" with
            | none => simp [bind, Except.bind]
            | some lon =>
                cases hy : floatOf lon <;> simp [bind, Except.bind, pure, Except.pure, hy]
  · rename_i hother
    constructor
    · intro h
      cases h
    · rintro ⟨fields, rest, rfl, _⟩
      exact absurd rfl (hother fields rest)

/-- Whatever Nominatim answers, a lookup raises only what its callers map to a status, unless
    the first result has a coordinate that is an integer beyond every double. -/
theorem geocode_escapes_iff (reply : Reply) :
    readReply reply = .error .overflowError ↔
      ∃ status fields rest, reply = .responds status (some (.arr (.obj fields :: rest))) ∧
        200 ≤ status ∧ status ≤ 299 ∧ Escapes fields := by
  cases reply with
  | fails => simp [readReply]
  | responds status body =>
      by_cases hstatus : 200 ≤ status ∧ status ≤ 299
      · simp only [readReply, if_neg (not_not.mpr hstatus)]
        cases body with
        | none => simp
        | some results =>
            by_cases htruthy : results.truthy = true
            · simp only [htruthy, not_true_eq_false, if_false, topResult_eq_overflowError]
              simp [hstatus]
            · simp only [htruthy]
              constructor
              · intro h
                cases h
              · rintro ⟨_, _, _, heq, _⟩
                cases heq
                exact absurd rfl htruthy
      · simp only [readReply, if_pos hstatus]
        constructor
        · intro h
          cases h
        · rintro ⟨_, _, _, heq, hlow, hhigh, _⟩
          cases heq
          exact absurd ⟨hlow, hhigh⟩ hstatus

/-! ## The shared client -/

/-- `_CACHE_MAX_ENTRIES`. -/
def cacheMaxEntries : Nat := 512

/-- What a call of `resolve_place` does: it reads coordinates, finds the name in the cache or
    requests it, and a request is answered later. -/
inductive PlaceEntry where
  | parsed (value : String) (coords : Coords)
  | hit (query : String) (coords : Coords)
  | requested (query : String)
  | answered (query : String) (result : Except GeocodeException Coords)
deriving DecidableEq

/-- The client's cache, the queries it waits for, and the journal. -/
structure GeocoderClient where
  cache : List (String × Coords)
  pending : List String
  journal : List PlaceEntry

/-- A call, the reply to one of the requests, or the end of a request's caller. -/
inductive PlaceEvent where
  | resolve (value : String)
  | respond (place : Nat) (reply : Reply)
  | cancel (place : Nat)

def GeocoderClient.start : GeocoderClient := ⟨[], [], []⟩

section Lookups

-- Python's `str.lower`
variable (lower : String → String)

/-- The key of a query: stripped and in lower case. -/
def geocodeKey (query : String) : String := lower (String.ofList (Text.strip query.toList))

/-- `geocode` up to its request. -/
def GeocoderClient.lookup (client : GeocoderClient) (query : String) : GeocoderClient :=
  match Dict.get client.cache (geocodeKey lower query) with
  | some coords => { client with journal := client.journal ++ [.hit query coords] }
  | none =>
      { client with
        pending := client.pending ++ [query]
        journal := client.journal ++ [.requested query] }

/-- `geocode` from the reply on. -/
def GeocoderClient.answer (client : GeocoderClient) (query : String) (reply : Reply) :
    GeocoderClient :=
  match readReply reply with
  | .ok coords =>
      { client with
        cache := BoundedDict.put cacheMaxEntries client.cache (geocodeKey lower query) coords
        journal := client.journal ++ [.answered query (.ok coords)] }
  | .error e => { client with journal := client.journal ++ [.answered query (.error e)] }

/-- `resolve_place`. -/
def GeocoderClient.resolve (client : GeocoderClient) (value : String) : GeocoderClient :=
  match tryParseLatlon value with
  | some coords => { client with journal := client.journal ++ [.parsed value coords] }
  | none => client.lookup lower value

def GeocoderClient.step (client : GeocoderClient) : PlaceEvent → Option GeocoderClient
  | .resolve value => some (client.resolve lower value)
  | .respond place reply =>
      client.pending[place]?.map fun query =>
        { client with pending := client.pending.eraseIdx place }.answer lower query reply
  | .cancel place =>
      client.pending[place]?.map fun _ =>
        { client with pending := client.pending.eraseIdx place }

/-! ## What a journal says -/

/-- The names Nominatim has found, with their coordinates. -/
def stored (journal : List PlaceEntry) : List (String × Coords) :=
  journal.filterMap fun
    | .answered query (.ok coords) => some (geocodeKey lower query, coords)
    | _ => none

/-- What is remembered of a name: its coordinates in the last reply that found it, if the
    name is one of the last 512 to be newly stored. -/
def remembered (journal : List PlaceEntry) (query : String) : Option Coords :=
  BoundedDict.recalled cacheMaxEntries (stored lower journal) (geocodeKey lower query)

/-- What an entry means after the journal before it. -/
def PlaceEntry.Sound (past : List PlaceEntry) : PlaceEntry → Prop
  | .parsed value coords => tryParseLatlon value = some coords
  | .hit query coords => tryParseLatlon query = none ∧ remembered lower past query = some coords
  | .requested query => tryParseLatlon query = none ∧ remembered lower past query = none
  | .answered query result => .requested query ∈ past ∧ ∃ reply, readReply reply = result

/-- Every entry of a journal means what it says after the entries before it. -/
def JournalSound (journal : List PlaceEntry) : Prop :=
  ∀ past entry future, journal = past ++ entry :: future → entry.Sound lower past

/-- The invariant of the client: the cache is what the journal makes it. -/
structure GeocoderClient.Faithful (client : GeocoderClient) : Prop where
  cache : client.cache = BoundedDict.replay cacheMaxEntries (stored lower client.journal)
  pending : ∀ query ∈ client.pending, .requested query ∈ client.journal
  sound : JournalSound lower client.journal

variable {lower} {client client' : GeocoderClient} {event : PlaceEvent} {journal : List PlaceEntry}
  {entry : PlaceEntry} {query : String}

theorem stored_concat :
    stored lower (journal ++ [entry]) = stored lower journal ++ stored lower [entry] :=
  List.filterMap_append

theorem JournalSound.concat (h : JournalSound lower journal) (hentry : entry.Sound lower journal) :
    JournalSound lower (journal ++ [entry]) := by
  intro past next future heq
  rcases List.append_eq_append_iff.mp heq with ⟨rest, hpast, hrest⟩ | ⟨rest, hpast, hrest⟩
  · cases rest with
    | nil =>
        rw [List.append_nil] at hpast
        cases hrest
        rw [hpast]
        exact hentry
    | cons e rest => simp at hrest
  · cases rest with
    | nil =>
        rw [List.append_nil] at hpast
        cases hrest
        rw [← hpast]
        exact hentry
    | cons e rest =>
        cases hrest
        exact h past next rest hpast

/-- The cache finds what is remembered. -/
theorem GeocoderClient.Faithful.get_cache (h : client.Faithful lower) (query : String) :
    Dict.get client.cache (geocodeKey lower query) = remembered lower client.journal query := by
  rw [h.cache, BoundedDict.get_replay]
  rfl

/-- An entry that stores nothing and takes a query that has been requested, if any. -/
theorem GeocoderClient.Faithful.note {pending : List String} (h : client.Faithful lower)
    (hstored : stored lower [entry] = []) (hentry : entry.Sound lower client.journal)
    (hpending : ∀ query ∈ pending, query ∈ client.pending ∨ entry = .requested query) :
    { client with pending, journal := client.journal ++ [entry] }.Faithful lower where
  cache := by rw [stored_concat, hstored, List.append_nil, h.cache]
  pending := by
    intro query hquery
    rw [List.mem_append, List.mem_singleton]
    rcases hpending query hquery with hold | rfl
    · exact Or.inl (h.pending query hold)
    · exact Or.inr rfl
  sound := h.sound.concat hentry

theorem GeocoderClient.Faithful.eraseIdx (h : client.Faithful lower) (place : Nat) :
    { client with pending := client.pending.eraseIdx place }.Faithful lower where
  cache := h.cache
  pending query hquery := h.pending query (List.mem_of_mem_eraseIdx hquery)
  sound := h.sound

theorem GeocoderClient.Faithful.resolve (h : client.Faithful lower) (value : String) :
    (client.resolve lower value).Faithful lower := by
  unfold GeocoderClient.resolve GeocoderClient.lookup
  cases hparse : tryParseLatlon value with
  | some coords => exact h.note rfl hparse fun query hquery => Or.inl hquery
  | none =>
      have hget := h.get_cache value
      cases hcached : Dict.get client.cache (geocodeKey lower value) with
      | some coords =>
          rw [hcached] at hget
          exact h.note rfl ⟨hparse, hget.symm⟩ fun query hquery => Or.inl hquery
      | none =>
          rw [hcached] at hget
          refine h.note rfl ⟨hparse, hget.symm⟩ fun query hquery => ?_
          rw [List.mem_append, List.mem_singleton] at hquery
          rcases hquery with hquery | rfl
          · exact Or.inl hquery
          · exact Or.inr rfl

theorem GeocoderClient.Faithful.answer (h : client.Faithful lower)
    (hquery : .requested query ∈ client.journal) (reply : Reply) :
    (client.answer lower query reply).Faithful lower := by
  unfold GeocoderClient.answer
  cases hreply : readReply reply with
  | error e => exact h.note rfl ⟨hquery, reply, hreply⟩ fun query hquery => Or.inl hquery
  | ok coords =>
      refine ⟨?_, fun q hq => List.mem_append_left _ (h.pending q hq), ?_⟩
      · change BoundedDict.put _ client.cache _ coords = _
        rw [stored_concat, h.cache]
        exact (BoundedDict.replay_concat _ (geocodeKey lower query, coords)).symm
      · exact h.sound.concat ⟨hquery, reply, hreply⟩

theorem faithful_step (h : client.Faithful lower) (hstep : client.step lower event = some client') :
    client'.Faithful lower := by
  cases event with
  | resolve value =>
      cases hstep
      exact h.resolve value
  | respond place reply =>
      obtain ⟨query, hquery, rfl⟩ := Option.map_eq_some_iff.mp hstep
      exact (h.eraseIdx place).answer (h.pending query (List.mem_of_getElem? hquery)) reply
  | cancel place =>
      obtain ⟨_, _, rfl⟩ := Option.map_eq_some_iff.mp hstep
      exact h.eraseIdx place

theorem faithful_start : GeocoderClient.start.Faithful lower where
  cache := rfl
  pending query hquery := by cases hquery
  sound past entry future heq := by simp [GeocoderClient.start] at heq

theorem faithful_of_exec {events : List PlaceEvent}
    (hexec : Run.exec (GeocoderClient.step lower) .start events = some client) :
    client.Faithful lower :=
  Run.exec_invariant (fun _ _ _ h _ hstep => faithful_step h hstep) faithful_start
    (Run.meets_true _ _) hexec

/-- However lookups and replies interleave, the cache stays bounded, each call finds in it
    exactly what is remembered of the name, and only a name that is neither remembered nor
    coordinates is requested. -/
theorem places_recalled {events : List PlaceEvent}
    (hexec : Run.exec (GeocoderClient.step lower) .start events = some client) :
    client.cache.length ≤ cacheMaxEntries ∧ Dict.Unique client.cache ∧
      JournalSound lower client.journal := by
  have hfaithful := faithful_of_exec hexec
  refine ⟨?_, ?_, hfaithful.sound⟩
  · rw [hfaithful.cache]
    exact BoundedDict.length_replay_le _ _
  · rw [hfaithful.cache]
    exact BoundedDict.unique_replay _ _

/-- A name that Nominatim has found is not requested again before more than 512 different
    names have been found. -/
theorem found_not_requested {events : List PlaceEvent}
    (hexec : Run.exec (GeocoderClient.step lower) .start events = some client) :
    ∀ past query future, client.journal = past ++ .requested query :: future →
      geocodeKey lower query ∉ (stored lower past).map (·.1) ∨
        cacheMaxEntries < ((stored lower past).map (·.1)).dedup.length := by
  intro past query future hjournal
  by_cases hfound : geocodeKey lower query ∈ (stored lower past).map (·.1)
  · right
    apply BoundedDict.capacity_lt_of_forgotten hfound
    exact BoundedDict.recalled_eq_none.mp ((faithful_of_exec hexec).sound past _ future hjournal).2
  · exact Or.inl hfound

end Lookups

/-! ### A name looked up twice -/

def foundAt (lat lon : String) : Reply :=
  .responds 200 (some (.arr [.obj [("lat", .str lat), ("lon", .str lon)]]))

/-- Two users ask for one name before the first reply, and a third after it. -/
def askedThrice : List PlaceEvent :=
  [.resolve "Dam", .resolve " Dam ", .respond 0 (foundAt "52.5" "4.75"), .resolve "DAM ",
    .respond 0 (foundAt "52.25" "4.75"), .resolve "52.5, 4.75"]

theorem askedThrice_runs :
    (Run.exec (GeocoderClient.step asciiLower) .start askedThrice).isSome = true := by
  decide +kernel

def askedClient : GeocoderClient :=
  (Run.exec (GeocoderClient.step asciiLower) .start askedThrice).get askedThrice_runs

theorem askedThrice_exec :
    Run.exec (GeocoderClient.step asciiLower) .start askedThrice = some askedClient :=
  (Option.some_get askedThrice_runs).symm

theorem places_recalled_thrice :
    askedClient.cache.length ≤ cacheMaxEntries ∧ Dict.Unique askedClient.cache ∧
      JournalSound asciiLower askedClient.journal :=
  places_recalled askedThrice_exec

theorem found_not_requested_thrice : ∃ past future,
    askedClient.journal = past ++ .requested " Dam " :: future ∧
      (geocodeKey asciiLower " Dam " ∉ (stored asciiLower past).map (·.1) ∨
        cacheMaxEntries < ((stored asciiLower past).map (·.1)).dedup.length) := by
  have hrequested : PlaceEntry.requested " Dam " ∈ askedClient.journal := by decide +kernel
  obtain ⟨past, future, hjournal⟩ := List.append_of_mem hrequested
  exact ⟨past, future, hjournal, found_not_requested askedThrice_exec past _ future hjournal⟩

end FietsOfOv
