import FietsOfOv.Itinerary
import FietsOfOv.Lib.ExpiringStore
import FietsOfOv.Lib.TextCodec
import Mathlib.Data.List.Induction
import Mathlib.Data.Rat.Encodable
import Mathlib.Logic.Equiv.List

/-!
# The rain service

`app/services/rain.py` over the cache of `app/core/cache.py`: a fresh cached
forecast is served without a network call, otherwise Buienradar is asked, and
when it fails the last cached forecast is served for as long as the cache keeps
it.  Moments are microseconds, the two limits of the service are seconds.
-/

namespace FietsOfOv

open Decimal ExpiringStore

structure RainConfig where
  freshSeconds : Int
  retentionSeconds : Int

/-- The two exceptions `get_forecast` catches. -/
inductive UpstreamError where
  | httpError
  | valueError
deriving DecidableEq

/-- JSON and pydantic: the text of an envelope, and what reading a text back gives
    (`none` where decoding, validation or the timestamp raises). -/
structure EnvelopeCodec where
  encode : Int → RainForecast → String
  decode : String → Option (Int × RainForecast)
  encode_ne_empty : ∀ fetchedAt forecast, encode fetchedAt forecast ≠ ""
  decode_encode : ∀ fetchedAt forecast,
    decode (encode fetchedAt forecast) = some (fetchedAt, forecast)

/-- The cache key of `get_forecast`. -/
def rainKey (lat lon : ℚ) : String :=
  "rain:" ++ formatFixed 2 lat ++ "," ++ formatFixed 2 lon

/-- The coordinates are the same once rounded to two decimals. -/
structure SamePoint (point other : ℚ × ℚ) : Prop where
  lat : roundTo 2 point.1 = roundTo 2 other.1
  lon : roundTo 2 point.2 = roundTo 2 other.2

/-- One key belongs to one point, up to the rounding of its coordinates. -/
theorem samePoint_of_rainKey_eq {point other : ℚ × ℚ}
    (heq : rainKey point.1 point.2 = rainKey other.1 other.2) : SamePoint point other := by
  have htext := congrArg String.toList heq
  have hcomma : ",".toList = [','] := rfl
  simp only [rainKey, String.toList_append, hcomma, List.append_assoc, List.cons_append,
    List.nil_append] at htext
  obtain ⟨hlat, hrest⟩ := formatFixed_sep_inj (by decide) (by decide)
    (List.append_cancel_left htext)
  exact ⟨hlat, roundTo_eq_of_formatFixed_eq (by decide) (String.toList_inj.mp hrest)⟩

/-- What one call of `get_forecast` does: its result, how often it asks Buienradar,
    and the envelope it hands to the cache. -/
structure Served where
  forecast : Option RainForecast
  calls : Nat
  written : Option String
deriving DecidableEq

section Service

variable (config : RainConfig) (codec : EnvelopeCodec)

/-- `_read_cache`: the cached forecast with its age, or `none`. -/
def readCache (now : Int) (answer : Except Unit (Option String)) : Option (RainForecast × Int) :=
  match answer with
  | .error _ => none
  | .ok none => none
  | .ok (some raw) =>
      if raw = "" then none
      else (codec.decode raw).map fun envelope => (envelope.2, now - envelope.1)

/-- The part of `get_forecast` after the fresh-hit check. -/
def refetch (now : Int) (cached : Option (RainForecast × Int))
    (upstream : Except UpstreamError RainForecast) : Served :=
  match upstream with
  | .ok forecast => ⟨some forecast, 1, some (codec.encode now forecast)⟩
  | .error _ => ⟨cached.map (·.1), 1, none⟩

/-- `get_forecast`, given what the cache answers and what Buienradar would answer. -/
def getForecast (now : Int) (answer : Except Unit (Option String))
    (upstream : Except UpstreamError RainForecast) : Served :=
  match readCache codec now answer with
  | some (forecast, age) =>
      if age < config.freshSeconds * 1000000 then ⟨some forecast, 0, none⟩
      else refetch codec now (some (forecast, age)) upstream
  | none => refetch codec now none upstream

/-! ## Runs of the service -/

/-- One call, with the clock it reads and the outcome of each of its accesses. -/
structure RainCall where
  now : Int
  lat : ℚ
  lon : ℚ
  read : ReadOutcome String
  upstream : Except UpstreamError RainForecast
  write : WriteOutcome

/-- A forecast Buienradar returned. -/
structure Fetch where
  key : String
  fetchedAt : Int
  forecast : RainForecast
deriving DecidableEq

/-- The cache, and every forecast Buienradar returned so far. -/
structure RainState where
  store : Store String String
  fetched : List Fetch

def RainState.initial : RainState := ⟨ExpiringStore.empty, []⟩

def RainCall.key (call : RainCall) : String := rainKey call.lat call.lon

def RainCall.point (call : RainCall) : ℚ × ℚ := (call.lat, call.lon)

/-- What a call serves in a state. -/
def RainState.serve (s : RainState) (call : RainCall) : Served :=
  getForecast config codec call.now (read s.store call.now call.key call.read) call.upstream

def RainState.step (s : RainState) (call : RainCall) : RainState where
  store :=
    match (s.serve config codec call).written with
    | some envelope =>
        write s.store call.now (config.retentionSeconds * 1000000) call.key envelope call.write
    | none => s.store
  fetched :=
    match (s.serve config codec call).calls, call.upstream with
    | 1, .ok forecast => s.fetched ++ [⟨call.key, call.now, forecast⟩]
    | _, _ => s.fetched

def RainState.run (calls : List RainCall) : RainState :=
  calls.foldl (RainState.step config codec) .initial

/-- The cache answers the call's read with an envelope this code wrote. -/
def Readable (s : RainState) (call : RainCall) (fetchedAt : Int) (forecast : RainForecast) : Prop :=
  call.read = .answers ∧
    get s.store call.now call.key = some (codec.encode fetchedAt forecast)

/-- What the cache hands back in place of an entry is not a valid envelope. -/
def RainCall.Garbles (call : RainCall) : Prop :=
  ∀ raw, call.read = .garbles raw → codec.decode raw = none

/-- Every stored text is an envelope of a forecast Buienradar returned for that
    key, kept for the retention time from the moment it was fetched. -/
def RainState.Envelopes (s : RainState) : Prop :=
  ∀ key entry, s.store key = some entry →
    ∃ fetchedAt forecast, entry.value = codec.encode fetchedAt forecast ∧
      entry.expires = fetchedAt + config.retentionSeconds * 1000000 ∧
      ⟨key, fetchedAt, forecast⟩ ∈ s.fetched

variable {config codec}

/-- A forecast that `get_forecast` returns is the one just fetched, or the cached one. -/
theorem refetch_forecast {now : Int} {cached : Option (RainForecast × Int)}
    {upstream : Except UpstreamError RainForecast} {forecast : RainForecast}
    (h : (refetch codec now cached upstream).forecast = some forecast) :
    upstream = .ok forecast ∨ ∃ age, cached = some (forecast, age) := by
  cases upstream with
  | ok fetched =>
      simp only [refetch, Option.some.injEq] at h
      exact Or.inl (by rw [h])
  | error e =>
      simp only [refetch, Option.map_eq_some_iff] at h
      obtain ⟨⟨_, age⟩, hcached, rfl⟩ := h
      exact Or.inr ⟨age, hcached⟩

theorem refetch_calls (now : Int) (cached : Option (RainForecast × Int))
    (upstream : Except UpstreamError RainForecast) :
    (refetch codec now cached upstream).calls = 1 := by
  cases upstream <;> rfl

/-- What `_read_cache` finds for a call. -/
def RainState.cached (codec : EnvelopeCodec) (s : RainState) (call : RainCall) :
    Option (RainForecast × Int) :=
  readCache codec call.now (read s.store call.now call.key call.read)

theorem serve_of_fresh {s : RainState} {call : RainCall} {forecast : RainForecast} {age : Int}
    (hcached : s.cached codec call = some (forecast, age))
    (hfresh : age < config.freshSeconds * 1000000) :
    s.serve config codec call = ⟨some forecast, 0, none⟩ := by
  rw [RainState.cached] at hcached
  simp [RainState.serve, getForecast, hcached, hfresh]

theorem serve_of_not_fresh {s : RainState} {call : RainCall}
    (hstale : ∀ forecast age, s.cached codec call = some (forecast, age) →
      ¬ age < config.freshSeconds * 1000000) :
    s.serve config codec call = refetch codec call.now (s.cached codec call) call.upstream := by
  cases hcached : s.cached codec call with
  | none =>
      rw [RainState.cached] at hcached
      simp [RainState.serve, getForecast, hcached]
  | some hit =>
      have hnot := hstale hit.1 hit.2 hcached
      rw [RainState.cached] at hcached
      simp [RainState.serve, getForecast, hcached, hnot]

/-- A call writes only what Buienradar just returned. -/
theorem serve_written {s : RainState} {call : RainCall} {envelope : String}
    (h : (s.serve config codec call).written = some envelope) :
    ∃ forecast, call.upstream = .ok forecast ∧ envelope = codec.encode call.now forecast ∧
      (s.serve config codec call).calls = 1 := by
  by_cases hfresh : ∃ forecast age, s.cached codec call = some (forecast, age) ∧
      age < config.freshSeconds * 1000000
  · obtain ⟨forecast, age, hcached, hlt⟩ := hfresh
    rw [serve_of_fresh hcached hlt] at h
    cases h
  · rw [serve_of_not_fresh (by simpa using hfresh)] at h ⊢
    cases hup : call.upstream with
    | ok forecast =>
        simp only [refetch, hup, Option.some.injEq] at h
        exact ⟨forecast, rfl, h.symm, rfl⟩
    | error e => simp [refetch, hup] at h

/-- A call adds at most what Buienradar returned in it. -/
theorem fetched_step (s : RainState) (call : RainCall) :
    (s.step config codec call).fetched = s.fetched ∨
      ∃ forecast, call.upstream = .ok forecast ∧
        (s.step config codec call).fetched = s.fetched ++ [⟨call.key, call.now, forecast⟩] := by
  simp only [RainState.step]
  split
  · rename_i forecast _ hup
    exact Or.inr ⟨forecast, hup, rfl⟩
  · exact Or.inl rfl

theorem mem_fetched_step {s : RainState} {call : RainCall} {fetch : Fetch}
    (h : fetch ∈ s.fetched) : fetch ∈ (s.step config codec call).fetched := by
  have hcases : (s.step config codec call).fetched = s.fetched ∨ _ := fetched_step s call
  rcases hcases with heq | ⟨_, _, heq⟩
  · exact heq ▸ h
  · exact heq ▸ List.mem_append_left _ h

theorem Envelopes.step {s : RainState} (h : s.Envelopes config codec) (call : RainCall) :
    (s.step config codec call).Envelopes config codec := by
  intro key entry hentry
  have hold : s.store key = some entry → ∃ fetchedAt forecast,
      entry.value = codec.encode fetchedAt forecast ∧
      entry.expires = fetchedAt + config.retentionSeconds * 1000000 ∧
      ⟨key, fetchedAt, forecast⟩ ∈ (s.step config codec call).fetched := by
    intro hstore
    obtain ⟨fetchedAt, forecast, hvalue, hexpires, hmem⟩ := h key entry hstore
    exact ⟨fetchedAt, forecast, hvalue, hexpires, mem_fetched_step hmem⟩
  cases hwritten : (s.serve config codec call).written with
  | none =>
      simp only [RainState.step, hwritten] at hentry
      exact hold hentry
  | some envelope =>
      simp only [RainState.step, hwritten] at hentry
      rcases write_cases hentry with hstore | ⟨rfl, rfl⟩
      · exact hold hstore
      · obtain ⟨forecast, hup, rfl, hcalls⟩ := serve_written hwritten
        exact ⟨call.now, forecast, rfl, rfl, by simp [RainState.step, hcalls, hup]⟩

theorem run_concat (calls : List RainCall) (call : RainCall) :
    RainState.run config codec (calls ++ [call]) =
      (RainState.run config codec calls).step config codec call := by
  simp [RainState.run]

theorem envelopes_run (calls : List RainCall) :
    (RainState.run config codec calls).Envelopes config codec := by
  induction calls using List.reverseRecOn with
  | nil =>
      intro key entry hentry
      simp [RainState.run, RainState.initial, ExpiringStore.empty] at hentry
  | append_singleton calls call ih =>
      rw [run_concat]
      exact Envelopes.step ih call

/-- Every fetched forecast was returned by Buienradar in one of the calls. -/
theorem fetched_run {calls : List RainCall} {fetch : Fetch}
    (h : fetch ∈ (RainState.run config codec calls).fetched) :
    ∃ call ∈ calls, call.upstream = .ok fetch.forecast ∧ call.key = fetch.key ∧
      call.now = fetch.fetchedAt := by
  induction calls using List.reverseRecOn with
  | nil => simp [RainState.run, RainState.initial] at h
  | append_singleton calls call ih =>
      rw [run_concat] at h
      have hold : fetch ∈ (RainState.run config codec calls).fetched →
          ∃ call' ∈ calls ++ [call], call'.upstream = .ok fetch.forecast ∧
            call'.key = fetch.key ∧ call'.now = fetch.fetchedAt := by
        intro hmem
        obtain ⟨call', hcall', hrest⟩ := ih hmem
        exact ⟨call', List.mem_append_left _ hcall', hrest⟩
      rcases fetched_step (RainState.run config codec calls) call with heq | ⟨forecast, hup, heq⟩
      · exact hold (heq ▸ h)
      · rw [heq, List.mem_append, List.mem_singleton] at h
        rcases h with h | rfl
        · exact hold h
        · exact ⟨call, by simp, hup, rfl, rfl⟩

/-- `_read_cache` finds exactly the entries of this code that the cache answers with. -/
theorem cached_eq_some_iff {s : RainState} (henv : s.Envelopes config codec) {call : RainCall}
    (hgarbles : call.Garbles codec) {forecast : RainForecast} {age : Int} :
    s.cached codec call = some (forecast, age) ↔
      ∃ fetchedAt, Readable codec s call fetchedAt forecast ∧ age = call.now - fetchedAt := by
  have hreadable : ∀ fetchedAt forecast', Readable codec s call fetchedAt forecast' →
      s.cached codec call = some (forecast', call.now - fetchedAt) := by
    rintro fetchedAt forecast' ⟨hread, hget⟩
    simp [RainState.cached, hread, ExpiringStore.read, hget, readCache, codec.encode_ne_empty,
      codec.decode_encode]
  constructor
  · intro hcached
    cases hread : call.read with
    | answers =>
        cases hget : get s.store call.now call.key with
        | none => simp [RainState.cached, hread, ExpiringStore.read, hget, readCache] at hcached
        | some raw =>
            obtain ⟨entry, hentry, _, hvalue⟩ := get_eq_some.mp hget
            obtain ⟨fetchedAt, forecast', henc, _, _⟩ := henv _ _ hentry
            have hfound : Readable codec s call fetchedAt forecast' :=
              ⟨hread, by rw [hget, ← hvalue, henc]⟩
            rw [hreadable _ _ hfound, Option.some.injEq, Prod.mk.injEq] at hcached
            obtain ⟨rfl, rfl⟩ := hcached
            exact ⟨fetchedAt, hfound, rfl⟩
    | fails => simp [RainState.cached, hread, ExpiringStore.read, readCache] at hcached
    | misses => simp [RainState.cached, hread, ExpiringStore.read, readCache] at hcached
    | garbles raw =>
        simp [RainState.cached, hread, ExpiringStore.read, readCache, hgarbles raw hread] at hcached
  · rintro ⟨fetchedAt, hfound, rfl⟩
    exact hreadable _ _ hfound

/-- What the cache answers with, Buienradar returned for the same point within the
    retention time. -/
theorem Readable.fetched {before : List RainCall} {call : RainCall} {fetchedAt : Int}
    {forecast : RainForecast}
    (hclock : (before ++ [call]).Pairwise (·.now ≤ ·.now))
    (h : Readable codec (RainState.run config codec before) call fetchedAt forecast) :
    ∃ earlier ∈ before, earlier.upstream = .ok forecast ∧ SamePoint earlier.point call.point ∧
      ⟨earlier.key, earlier.now, forecast⟩ ∈ (RainState.run config codec before).fetched ∧
      earlier.now ≤ call.now ∧ call.now - earlier.now ≤ config.retentionSeconds * 1000000 := by
  obtain ⟨entry, hentry, hlive, hvalue⟩ := get_eq_some.mp h.2
  obtain ⟨fetchedAt', forecast', henc, hexpires, hmem⟩ := envelopes_run before _ _ hentry
  have hsame : some (fetchedAt', forecast') = some (fetchedAt, forecast) := by
    rw [← codec.decode_encode, ← henc, hvalue, codec.decode_encode]
  cases hsame
  obtain ⟨earlier, hearlier, hup, hkey, hnow⟩ := fetched_run hmem
  simp only at hup hkey hnow
  have hle := (List.pairwise_append.mp hclock).2.2 earlier hearlier call (by simp)
  exact ⟨earlier, hearlier, hup, samePoint_of_rainKey_eq hkey,
    by rw [hkey, hnow]; exact hmem, hle, by omega⟩

/-- A fresh entry that the cache answers with is served without a call. -/
theorem Readable.serve_fresh {s : RainState} {call : RainCall} {fetchedAt : Int}
    {forecast : RainForecast} (henv : s.Envelopes config codec) (hgarbles : call.Garbles codec)
    (h : Readable codec s call fetchedAt forecast)
    (hfresh : call.now - fetchedAt < config.freshSeconds * 1000000) :
    s.serve config codec call = ⟨some forecast, 0, none⟩ :=
  serve_of_fresh ((cached_eq_some_iff henv hgarbles).mpr ⟨fetchedAt, h, rfl⟩) hfresh

/-- With no fresh entry to answer with, the call goes to Buienradar. -/
theorem serve_of_none_fresh {s : RainState} {call : RainCall}
    (henv : s.Envelopes config codec) (hgarbles : call.Garbles codec)
    (hstale : ∀ fetchedAt forecast, Readable codec s call fetchedAt forecast →
      ¬ call.now - fetchedAt < config.freshSeconds * 1000000) :
    s.serve config codec call = refetch codec call.now (s.cached codec call) call.upstream := by
  apply serve_of_not_fresh
  intro forecast age hage
  obtain ⟨fetchedAt, hfound, rfl⟩ := (cached_eq_some_iff henv hgarbles).mp hage
  exact hstale fetchedAt forecast hfound

/-- **The rain service's contract.**  Over any run, whatever fails: a returned
    forecast is Buienradar's, from this call or for the same point from the retention time before;
    a fresh entry is served without a call; otherwise there is one call, and its
    forecast, else the cached one, else nothing is returned. -/
theorem getForecast_contract (config : RainConfig) (codec : EnvelopeCodec)
    (before : List RainCall) (call : RainCall)
    (hclock : (before ++ [call]).Pairwise (·.now ≤ ·.now)) (hgarbles : call.Garbles codec) :
    let s := RainState.run config codec before
    let served := s.serve config codec call
    (∀ forecast, served.forecast = some forecast →
      call.upstream = .ok forecast ∧ served.calls = 1 ∨
      ∃ earlier ∈ before, earlier.upstream = .ok forecast ∧ SamePoint earlier.point call.point ∧
        ⟨earlier.key, earlier.now, forecast⟩ ∈ s.fetched ∧ earlier.now ≤ call.now ∧
        call.now - earlier.now ≤ config.retentionSeconds * 1000000) ∧
    (∀ fetchedAt forecast, Readable codec s call fetchedAt forecast →
      call.now - fetchedAt < config.freshSeconds * 1000000 →
      served.forecast = some forecast ∧ served.calls = 0) ∧
    ((∀ fetchedAt forecast, Readable codec s call fetchedAt forecast →
        ¬ call.now - fetchedAt < config.freshSeconds * 1000000) →
      served.calls = 1 ∧
      (∀ forecast, call.upstream = .ok forecast → served.forecast = some forecast) ∧
      ∀ e, call.upstream = .error e →
        (∀ fetchedAt forecast, Readable codec s call fetchedAt forecast →
          served.forecast = some forecast) ∧
        (served.forecast = none ↔ ¬ ∃ fetchedAt forecast, Readable codec s call fetchedAt forecast))
    := by
  intro s served
  have henv : s.Envelopes config codec := envelopes_run before
  have hcached {forecast : RainForecast} {age : Int} :
      s.cached codec call = some (forecast, age) ↔
        ∃ fetchedAt, Readable codec s call fetchedAt forecast ∧ age = call.now - fetchedAt :=
    cached_eq_some_iff henv hgarbles
  refine ⟨?_, fun fetchedAt forecast hfound hlt => ?_, fun hnone => ?_⟩
  · intro forecast hserved
    by_cases hhit : ∃ fetchedAt forecast', Readable codec s call fetchedAt forecast' ∧
        call.now - fetchedAt < config.freshSeconds * 1000000
    · obtain ⟨fetchedAt, forecast', hfound, hlt⟩ := hhit
      have hserve : served = ⟨some forecast', 0, none⟩ := hfound.serve_fresh henv hgarbles hlt
      rw [hserve, Option.some.injEq] at hserved
      exact Or.inr (hserved ▸ hfound.fetched hclock)
    · have hserve : served = _ := serve_of_none_fresh henv hgarbles (by simpa using hhit)
      rw [hserve] at hserved ⊢
      rcases refetch_forecast hserved with hup | ⟨age, hage⟩
      · exact Or.inl ⟨hup, refetch_calls _ _ _⟩
      · obtain ⟨fetchedAt, hfound, _⟩ := hcached.mp hage
        exact Or.inr (hfound.fetched hclock)
  · rw [show served = _ from hfound.serve_fresh henv hgarbles hlt]
    exact ⟨rfl, rfl⟩
  · rw [show served = _ from serve_of_none_fresh henv hgarbles hnone]
    refine ⟨refetch_calls _ _ _, fun forecast hup => by rw [hup]; rfl, fun e hup => ?_⟩
    simp only [hup, refetch, Option.map_eq_none_iff]
    refine ⟨fun fetchedAt forecast hfound => ?_, ?_⟩
    · rw [hcached.mpr ⟨fetchedAt, hfound, rfl⟩]
      rfl
    · rw [Option.eq_none_iff_forall_ne_some]
      constructor
      · rintro hmiss ⟨fetchedAt, forecast, hfound⟩
        exact hmiss _ (hcached.mpr ⟨fetchedAt, hfound, rfl⟩)
      · rintro hunreadable ⟨forecast, age⟩ hage
        obtain ⟨fetchedAt, hfound, _⟩ := hcached.mp hage
        exact hunreadable ⟨fetchedAt, forecast, hfound⟩

end Service

/-! ### A run with an outage -/

instance : Encodable WallClock.Time :=
  Encodable.ofLeftInjection WallClock.Time.micros
    (fun n => if h : n < WallClock.microsPerDay then some ⟨n, h⟩ else none)
    (fun t => dif_pos t.lt_day)

instance : Encodable RainSlot :=
  Encodable.ofLeftInverse (fun s => (s.time, s.intensity, s.mmPerH))
    (fun p => ⟨p.1, p.2.1, p.2.2⟩) fun _ => rfl

instance : Encodable RainForecast :=
  Encodable.ofLeftInverse RainForecast.slots RainForecast.mk fun _ => rfl

def drizzle : RainForecast := ⟨[⟨⟨50400000000, by decide⟩, 77, 1 / 10⟩]⟩

/-- A codec for envelopes. -/
def EnvelopeCodec.ofTextCodec (codec : TextCodec (Int × RainForecast)) : EnvelopeCodec where
  encode fetchedAt forecast := codec.encode (fetchedAt, forecast)
  decode := codec.decode
  encode_ne_empty fetchedAt forecast := codec.encode_ne_empty (fetchedAt, forecast)
  decode_encode fetchedAt forecast := codec.decode_encode (fetchedAt, forecast)

/-- What `json.dumps` makes of the drizzle, fetched within a second of the epoch. -/
def drizzleText (second : String) : String :=
  "\x7b\"fetched_at\": \"1970-01-01T00:00:0" ++ second ++ "+00:00\", " ++
    "\"forecast\": \x7b\"slots\": [\x7b\"time\": \"14:00:00\", \"intensity\": 77, " ++
    "\"mm_per_h\": 0.1\x7d]\x7d\x7d"

theorem bracket_mem_drizzleText (second : String) : '[' ∈ (drizzleText second).toList := by
  unfold drizzleText
  rw [String.toList_append, String.toList_append]
  exact List.mem_append_left _ (List.mem_append_right _ (by decide))

theorem drizzleText_injective : Function.Injective drizzleText := by
  intro second second' h
  unfold drizzleText at h
  rwa [String.append_left_inj, String.append_left_inj, String.append_left_inj,
    String.append_right_inj] at h

theorem drizzleText_free (second : String) :
    (TextCodec.tally (Int × RainForecast)).decode (drizzleText second) = none :=
  TextCodec.tally_decode_eq_none (bracket_mem_drizzleText second) (by decide)

/-- The codec that writes the drizzle as `json.dumps` does. -/
def drizzleCodec : EnvelopeCodec :=
  have hempty (second : String) : drizzleText second ≠ "" :=
    TextCodec.ne_empty_of_mem (bracket_mem_drizzleText second)
  have hother : drizzleText "1" ≠ drizzleText "0" := drizzleText_injective.ne (by decide)
  .ofTextCodec (((TextCodec.tally (Int × RainForecast)).spelling (0, drizzle) (drizzleText "0")
    (hempty "0") (drizzleText_free "0")).spelling (1000000, drizzle) (drizzleText "1") (hempty "1")
      ((TextCodec.spelling_decode_of_ne hother).trans (drizzleText_free "1")))

/-- The cache misses and Buienradar answers with the drizzle. -/
def firstCall : RainCall :=
  ⟨0, 523791 / 10000, 49003 / 10000, .misses, .ok drizzle, .keeps⟩

/-- Ten minutes later Buienradar is down. -/
def outageCall : RainCall :=
  ⟨600000000, 523791 / 10000, 49003 / 10000, .answers, .error .httpError, .keeps⟩

/-- The forecast of the first call is served stale during the outage. -/
theorem getForecast_contract_outage :
    ((RainState.run ⟨300, 2700⟩ drizzleCodec [firstCall]).serve ⟨300, 2700⟩ drizzleCodec
      outageCall).forecast = some drizzle := by
  have hstored : get (RainState.run ⟨300, 2700⟩ drizzleCodec [firstCall]).store outageCall.now
      outageCall.key = some (drizzleCodec.encode 0 drizzle) := by
    have hkey : outageCall.key = firstCall.key := rfl
    rw [hkey, get_eq_some]
    exact ⟨⟨_, 2700000000⟩, Function.update_self _ _ _, by decide, rfl⟩
  have hcontract := getForecast_contract ⟨300, 2700⟩ drizzleCodec [firstCall] outageCall
    (by simp [firstCall, outageCall]) (fun raw h => by cases h)
  refine ((hcontract.2.2 fun fetchedAt forecast hfound => ?_).2.2 .httpError rfl).1 0 drizzle
    ⟨rfl, hstored⟩
  have hsame := Option.some.inj (hstored.symm.trans hfound.2)
  have hdecoded := drizzleCodec.decode_encode 0 drizzle
  rw [hsame, drizzleCodec.decode_encode, Option.some.injEq, Prod.mk.injEq] at hdecoded
  rw [hdecoded.1]
  decide

end FietsOfOv
