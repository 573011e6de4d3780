import FietsOfOv.Lib.CacheAside
import FietsOfOv.Rain

/-!
# Rain requests that interleave

`get_forecast` is a coroutine: at each of its awaits the service goes on with the
other requests, those for the same cache key among them, and the worker process
shares the cache.  Two requests can so both find nothing and both ask
Buienradar, and the older of two forecasts can be the last one written.
-/

namespace FietsOfOv

open CacheAside ExpiringStore

section Client

variable (config : RainConfig) (codec : EnvelopeCodec)

/-- What `get_forecast` does between its awaits, for a latitude and a longitude. -/
def rainClient : Client (ℚ × ℚ) String String (Option (RainForecast × Int))
    (Except UpstreamError RainForecast) (Option RainForecast) where
  key point := rainKey point.1 point.2
  lookup now answer :=
    match readCache codec now answer with
    | some (forecast, age) =>
        if age < config.freshSeconds * 1000000 then .serves (some forecast)
        else .asks (some (forecast, age))
    | none => .asks none
  settle now cached upstream :=
    let served := refetch codec now cached upstream
    (served.forecast, served.written)
  ttl := config.retentionSeconds * 1000000

abbrev RainRequest :=
  Request (ℚ × ℚ) String (Option (RainForecast × Int)) (Except UpstreamError RainForecast)
    (Option RainForecast)

abbrev RainSystem :=
  System (ℚ × ℚ) String String (Option (RainForecast × Int)) (Except UpstreamError RainForecast)
    (Option RainForecast)

abbrev RainEvent := CacheAside.Event (ℚ × ℚ) String String (Except UpstreamError RainForecast)

/-- A text that `_read_cache` takes for a miss. -/
def Unreadable (raw : String) : Prop := ∀ now, readCache codec now (.ok (some raw)) = none

/-- A request for the key of this point fetched the forecast, and its envelope landed in the
    cache. -/
def RainSystem.Fetched (s : RainSystem) (point : ℚ × ℚ) (fetchedAt : Int)
    (forecast : RainForecast) (landedAt : Int) : Prop :=
  ∃ r ∈ s.requests, rainKey r.subject.1 r.subject.2 = rainKey point.1 point.2 ∧
    SamePoint r.subject point ∧ r.answer = some (fetchedAt, .ok forecast) ∧
    r.landed = some (landedAt, .keeps) ∧ fetchedAt ≤ landedAt

variable {config codec}

theorem readCache_encode (now fetchedAt : Int) (forecast : RainForecast) :
    readCache codec now (.ok (some (codec.encode fetchedAt forecast))) =
      some (forecast, now - fetchedAt) := by
  simp [readCache, codec.encode_ne_empty, codec.decode_encode]

/-- Fidelity: between its awaits the client does what `getForecast` does in a call that nothing
    interrupts. -/
theorem rainClient_uninterrupted (now : Int) (answer : Except Unit (Option String))
    (upstream : Except UpstreamError RainForecast) :
    (match (rainClient config codec).lookup now answer with
      | .serves forecast => (forecast, none)
      | .asks cached => (rainClient config codec).settle now cached upstream) =
      ((getForecast config codec now answer upstream).forecast,
        (getForecast config codec now answer upstream).written) := by
  simp only [rainClient, getForecast]
  cases readCache codec now answer with
  | none => rfl
  | some hit =>
      by_cases hfresh : hit.2 < config.freshSeconds * 1000000
      · simp [hfresh]
      · simp [hfresh]

/-- What landed is the envelope of a forecast that was fetched for the key. -/
theorem fetched_of_landed {s : RainSystem}
    (hs : ∀ r ∈ s.requests, r.Ordered (rainClient config codec) s.clock) {point : ℚ × ℚ}
    {raw : String} {landedAt : Int}
    (h : s.Landed (rainClient config codec) (rainKey point.1 point.2) raw landedAt) :
    ∃ fetchedAt forecast, s.Fetched point fetchedAt forecast landedAt ∧
      raw = codec.encode fetchedAt forecast := by
  obtain ⟨r, hr, hkey, hwritten, hlanded⟩ := h
  obtain ⟨_, kept, answeredAt, answer, _, hanswer, hvalue⟩ := Request.answered_of_written hwritten
  obtain ⟨_, answeredAt', _, hanswer', hle⟩ := (hs r hr).landed _ _ hlanded
  cases hanswer.symm.trans hanswer'
  cases answer with
  | error e => simp [rainClient, refetch] at hvalue
  | ok forecast =>
      refine ⟨answeredAt, forecast, ⟨r, hr, hkey, samePoint_of_rainKey_eq hkey, hanswer, hlanded,
        hle⟩, ?_⟩
      simpa [rainClient, refetch] using hvalue.symm

theorem lookup_eq_serves {now : Int} {answer : Except Unit (Option String)}
    {result : Option RainForecast}
    (h : (rainClient config codec).lookup now answer = .serves result) :
    ∃ forecast age, readCache codec now answer = some (forecast, age) ∧
      age < config.freshSeconds * 1000000 ∧ result = some forecast := by
  simp only [rainClient] at h
  split at h
  · rename_i forecast age hcached
    split at h
    · rename_i hfresh
      cases h
      exact ⟨forecast, age, hcached, hfresh, rfl⟩
    · cases h
  · cases h

theorem lookup_eq_asks {now : Int} {answer : Except Unit (Option String)}
    {kept : Option (RainForecast × Int)}
    (h : (rainClient config codec).lookup now answer = .asks kept) :
    readCache codec now answer = kept ∧
      ∀ forecast age, kept = some (forecast, age) → config.freshSeconds * 1000000 ≤ age := by
  simp only [rainClient] at h
  split at h
  · rename_i forecast age hcached
    split at h
    · cases h
    · rename_i hstale
      cases h
      refine ⟨hcached, ?_⟩
      intro forecast' age' hkept
      cases hkept
      exact Int.not_lt.mp hstale
  · rename_i hcached
    cases h
    exact ⟨hcached, by simp⟩

/-- What `_read_cache` finds for a request was fetched for its key and landed within the
    retention time before the read. -/
theorem fetched_of_readCache {s : RainSystem}
    (hs : s.Sound (rainClient config codec) (Unreadable codec)) {r : RainRequest}
    (hr : r ∈ s.requests) {readAt now : Int} {reply : Except Unit (Option String)}
    (hreply : r.reply = some (readAt, reply)) {forecast : RainForecast} {age : Int}
    (hcached : readCache codec now reply = some (forecast, age)) :
    ∃ fetchedAt landedAt, s.Fetched r.subject fetchedAt forecast landedAt ∧
      age = now - fetchedAt ∧ landedAt ≤ readAt ∧
      readAt < landedAt + config.retentionSeconds * 1000000 := by
  match reply with
  | .error _ => cases hcached
  | .ok none => cases hcached
  | .ok (some raw) =>
      rcases hs.replies r hr readAt raw hreply with hbad | ⟨landedAt, hlanded, hbefore, hlive⟩
      · rw [hbad now] at hcached
        cases hcached
      · obtain ⟨fetchedAt, forecast', hfetched, rfl⟩ := fetched_of_landed hs.ordered hlanded
        rw [readCache_encode] at hcached
        cases hcached
        exact ⟨fetchedAt, landedAt, hfetched, rfl, hbefore, hlive⟩

/-- The request was handed a forecast that was fetched for its key and landed less than the
    retention time before it read the cache.  It was served a fresh one without asking, and an
    older one only because Buienradar failed. -/
def RainSystem.FromCache (config : RainConfig) (s : RainSystem) (r : RainRequest)
    (forecast : RainForecast) : Prop :=
  ∃ readAt reply decidedAt verdict fetchedAt landedAt,
    r.reply = some (readAt, reply) ∧ r.verdict = some (decidedAt, verdict) ∧
    s.Fetched r.subject fetchedAt forecast landedAt ∧
    landedAt ≤ readAt ∧ readAt < landedAt + config.retentionSeconds * 1000000 ∧
    readAt ≤ decidedAt ∧
    (verdict = .serves (some forecast) ∧
        decidedAt - fetchedAt < config.freshSeconds * 1000000 ∨
      config.freshSeconds * 1000000 ≤ decidedAt - fetchedAt ∧
        ∃ answeredAt e, r.answer = some (answeredAt, .error e))

/-- What a request may return: the forecast it fetched, one from the cache, or nothing, and
    that only if Buienradar failed and the cache had handed it nothing it could use. -/
def RainSystem.MayReturn (config : RainConfig) (codec : EnvelopeCodec) (s : RainSystem)
    (r : RainRequest) : Option RainForecast → Prop
  | some forecast =>
      (∃ answeredAt, r.answer = some (answeredAt, .ok forecast)) ∨ s.FromCache config r forecast
  | none =>
      (∃ answeredAt e, r.answer = some (answeredAt, .error e)) ∧
      ∀ readAt raw, r.reply = some (readAt, .ok (some raw)) → Unreadable codec raw

theorem mayReturn_of_sound {s : RainSystem}
    (hs : s.Sound (rainClient config codec) (Unreadable codec)) {r : RainRequest}
    (hr : r ∈ s.requests) {result : Option RainForecast}
    (hresult : r.result (rainClient config codec) = some result) :
    s.MayReturn config codec r result := by
  obtain ⟨⟨_, written⟩, houtcome, rfl⟩ := Option.map_eq_some_iff.mp hresult
  rw [Request.outcome] at houtcome
  split at houtcome
  · cases houtcome
  · -- A fresh hit.
    rename_i decidedAt served hverdict
    cases houtcome
    obtain ⟨_, readAt, reply, hreply, hle, hlookup⟩ := (hs.ordered r hr).decided _ _ hverdict
    obtain ⟨forecast, age, hcached, hfresh, rfl⟩ := lookup_eq_serves hlookup.symm
    obtain ⟨fetchedAt, landedAt, hfetched, rfl, hbefore, hlive⟩ :=
      fetched_of_readCache hs hr hreply hcached
    exact Or.inr ⟨readAt, reply, decidedAt, _, fetchedAt, landedAt, hreply, hverdict, hfetched,
      hbefore, hlive, hle, Or.inl ⟨rfl, hfresh⟩⟩
  · rename_i decidedAt kept hverdict
    obtain ⟨⟨answeredAt, upstream⟩, hanswer, hsettle⟩ := Option.map_eq_some_iff.mp houtcome
    obtain ⟨_, readAt, reply, hreply, hle, hlookup⟩ := (hs.ordered r hr).decided _ _ hverdict
    obtain ⟨hcached, hstale⟩ := lookup_eq_asks hlookup.symm
    cases upstream with
    | ok forecast =>
        cases hsettle
        exact Or.inl ⟨answeredAt, hanswer⟩
    | error e =>
        -- The cached forecast, if there is one.
        cases hsettle
        cases kept with
        | some hit =>
            obtain ⟨fetchedAt, landedAt, hfetched, hage, hbefore, hlive⟩ :=
              fetched_of_readCache hs hr hreply hcached
            refine Or.inr ⟨readAt, reply, decidedAt, _, fetchedAt, landedAt, hreply, hverdict,
              hfetched, hbefore, hlive, hle, Or.inr ⟨?_, answeredAt, e, hanswer⟩⟩
            rw [← hage]
            exact hstale hit.1 hit.2 rfl
        | none =>
            refine ⟨⟨answeredAt, e, hanswer⟩, ?_⟩
            intro readAt' raw hraw
            rcases hs.replies r hr readAt' raw hraw with hbad | ⟨_, hlanded, _⟩
            · exact hbad
            · obtain ⟨_, _, _, rfl⟩ := fetched_of_landed hs.ordered hlanded
              cases hreply.symm.trans hraw
              rw [readCache_encode] at hcached
              cases hcached

/-- **Every forecast served is Buienradar's, and recent.**  However the requests interleave,
    a request returns the forecast it fetched itself, or one that was fetched for its key and
    landed in the cache less than the retention time before the request read it: a fresh one
    without asking, an older one only because Buienradar failed.  A request returns nothing
    only when Buienradar failed and the cache had handed it nothing it could use. -/
theorem forecast_across_requests (config : RainConfig) (codec : EnvelopeCodec)
    (es : List RainEvent) (s : RainSystem)
    (hallowed : ∀ e ∈ es, e.Allowed (rainClient config codec) (Unreadable codec))
    (hexec : Run.exec (System.step (rainClient config codec)) .initial es = some s)
    (r : RainRequest) (hr : r ∈ s.requests) (result : Option RainForecast)
    (hresult : r.result (rainClient config codec) = some result) :
    s.MayReturn config codec r result :=
  mayReturn_of_sound (sound_run hallowed hexec) hr hresult

/-- **No stampede.**  Once a forecast has landed, and while the cache is up and writes land
    within `lag` of their fetch, no request for the key that reads the cache later asks
    Buienradar again until the fresh time less `lag` is over, and none comes away empty for
    the whole retention time, even if Buienradar is down. -/
theorem no_fetch_while_fresh (config : RainConfig) (codec : EnvelopeCodec)
    (before after : List RainEvent) (s₀ s : RainSystem) (i : Nat) (lag : Int)
    (hallowed : ∀ e ∈ before, e.Allowed (rainClient config codec) (Unreadable codec))
    (hbefore : Run.exec (System.step (rainClient config codec)) .initial before = some s₀)
    (hup : ∀ e ∈ after, e.Up (rainClient config codec))
    (hafter : Run.exec (System.step (rainClient config codec)) s₀
      (.act i (.write .keeps) :: after) = some s)
    (hlag : ∀ point fetchedAt forecast landedAt, s.Fetched point fetchedAt forecast landedAt →
      landedAt ≤ fetchedAt + lag)
    (r₀ r : RainRequest) (hr₀ : s₀.requests[i]? = some r₀) (hr : r ∈ s.requests)
    (hkey : rainKey r.subject.1 r.subject.2 = rainKey r₀.subject.1 r₀.subject.2)
    (readAt : Int) (reply : Except Unit (Option String)) (hreply : r.reply = some (readAt, reply))
    (hlater : s₀.clock < readAt)
    (hlive : readAt < s₀.clock + config.retentionSeconds * 1000000) :
    (∀ decidedAt verdict, r.verdict = some (decidedAt, verdict) →
      decidedAt < s₀.clock + config.freshSeconds * 1000000 - lag →
      ∃ forecast, verdict = .serves (some forecast)) ∧
    r.result (rainClient config codec) ≠ some none := by
  have hs₀ : s₀.Sound (rainClient config codec) (Unreadable codec) := sound_run hallowed hbefore
  have hs : s.Sound (rainClient config codec) (Unreadable codec) :=
    sound_warm_run hallowed hbefore hup hafter
  have hwarm : s.Warm (rainClient config codec) _ s₀.clock :=
    warm_run hs₀.ordered hr₀ hup hafter
  obtain ⟨raw, landedAt, rfl, hsince, hlanded⟩ := hwarm.replies r hr hkey _ _ hreply hlater hlive
  obtain ⟨fetchedAt, forecast, hfetched, rfl⟩ := fetched_of_landed hs.ordered hlanded
  have hcached {decidedAt : Int} {verdict : Verdict (Option (RainForecast × Int)) _}
      (hverdict : r.verdict = some (decidedAt, verdict)) :
      verdict = (rainClient config codec).lookup decidedAt
        (.ok (some (codec.encode fetchedAt forecast))) := by
    obtain ⟨_, _, _, hreply', _, hlookup⟩ := (hs.ordered r hr).decided _ _ hverdict
    cases hreply.symm.trans hreply'
    exact hlookup
  constructor
  · intro decidedAt verdict hverdict hearly
    have hle : landedAt ≤ fetchedAt + lag := hlag _ _ _ _ hfetched
    have hfresh : decidedAt - fetchedAt < config.freshSeconds * 1000000 := by omega
    refine ⟨forecast, ?_⟩
    rw [hcached hverdict]
    simp only [rainClient, readCache_encode, if_pos hfresh]
  · intro hnone
    obtain ⟨⟨_, written⟩, houtcome, rfl⟩ := Option.map_eq_some_iff.mp hnone
    rw [Request.outcome] at houtcome
    split at houtcome
    · cases houtcome
    · rename_i decidedAt served hverdict
      cases houtcome
      obtain ⟨_, _, _, _, habsurd⟩ := lookup_eq_serves (hcached hverdict).symm
      cases habsurd
    · rename_i decidedAt kept hverdict
      obtain ⟨⟨answeredAt, upstream⟩, _, hsettle⟩ := Option.map_eq_some_iff.mp houtcome
      obtain ⟨hkept, _⟩ := lookup_eq_asks (hcached hverdict).symm
      rw [readCache_encode] at hkept
      cases hkept
      cases upstream with
      | ok fetched => cases hsettle
      | error e => cases hsettle

end Client

/-! ### Three overlapping requests -/

section Overlap

variable (codec : EnvelopeCodec) (point : ℚ × ℚ)

/-- Two requests miss the cache and both ask; the first one gets the drizzle. -/
def bothAsk : List RainEvent :=
  [.call point, .call point, .act 0 (.read .answers), .act 1 (.read .answers),
    .act 0 .resume, .act 1 .resume, .elapse 1000000, .act 0 (.answer (.ok drizzle)),
    .elapse 1000000, .act 1 (.answer (.error .httpError))]

/-- After its forecast has landed, a third request reads the cache. -/
def thirdReads : List RainEvent :=
  [.elapse 1000000, .call point, .act 2 (.read .answers), .act 2 .resume]

def asksFirst : RainRequest :=
  ⟨point, some (0, .ok none), some (0, .asks none), some (1000000, .ok drizzle), none⟩

def asksSecond : RainRequest :=
  ⟨point, some (0, .ok none), some (0, .asks none), some (2000000, .error .httpError), none⟩

def readsThird : RainRequest :=
  ⟨point, some (3000000, .ok (some (codec.encode 1000000 drizzle))),
    some (3000000, .serves (some drizzle)), none, none⟩

def bothAsked : RainSystem := ⟨2000000, ExpiringStore.empty, [asksFirst point, asksSecond point]⟩

def thirdServed : RainSystem :=
  ⟨3000000, write ExpiringStore.empty 2000000 7200000000 (rainKey point.1 point.2)
    (codec.encode 1000000 drizzle) .keeps,
    [{ asksFirst point with landed := some (2000000, .keeps) }, asksSecond point,
      readsThird codec point]⟩

theorem bothAsk_exec : Run.exec (System.step (rainClient ⟨300, 7200⟩ codec)) .initial
    (bothAsk point) = some (bothAsked point) := rfl

theorem thirdReads_exec : Run.exec (System.step (rainClient ⟨300, 7200⟩ codec)) (bothAsked point)
    (.act 0 (.write .keeps) :: thirdReads point) = some (thirdServed codec point) := by
  have hread : (Request.called point : RainRequest).act (rainClient ⟨300, 7200⟩ codec)
      3000000 (thirdServed codec point).store (.read .answers) =
        some { readsThird codec point with verdict := none } := by
    have hget : get (thirdServed codec point).store 3000000 (rainKey point.1 point.2) =
        some (codec.encode 1000000 drizzle) :=
      get_eq_some.mpr ⟨⟨_, 7202000000⟩, Function.update_self _ _ _, by norm_num, rfl⟩
    simp only [Request.act, Request.called, rainClient, ExpiringStore.read, hget, readsThird]
  have hresume : { readsThird codec point with verdict := none }.act
      (rainClient ⟨300, 7200⟩ codec) 3000000 (thirdServed codec point).store .resume =
        some (readsThird codec point) := by
    have hfresh : (3000000 : Int) - 1000000 < 300 * 1000000 := by decide
    simp only [Request.act, readsThird, rainClient, readCache_encode, if_pos hfresh]
  have hwrite : (bothAsked point).step (rainClient ⟨300, 7200⟩ codec) (.act 0 (.write .keeps)) =
      some { bothAsked point with
        store := (thirdServed codec point).store
        requests :=
          [{ asksFirst point with landed := some (2000000, .keeps) }, asksSecond point] } := rfl
  rw [Run.exec_cons_eq_some]
  refine ⟨_, hwrite, ?_⟩
  rw [thirdReads, Run.exec_cons_eq_some]
  refine ⟨_, rfl, ?_⟩
  rw [Run.exec_cons_eq_some]
  refine ⟨_, rfl, ?_⟩
  rw [Run.exec_cons_eq_some]
  refine ⟨_, step_act.mpr ⟨_, _, rfl, hread, rfl⟩, ?_⟩
  rw [Run.exec_cons_eq_some]
  refine ⟨_, step_act.mpr ⟨_, _, rfl, hresume, rfl⟩, ?_⟩
  rfl

end Overlap

def centraal : ℚ × ℚ := (523791 / 10000, 49003 / 10000)

theorem forecast_across_requests_third :
    ∃ fetchedAt landedAt, (thirdServed drizzleCodec centraal).Fetched centraal
      fetchedAt drizzle landedAt ∧
      landedAt ≤ 3000000 ∧ 3000000 - fetchedAt < 300000000 := by
  have hserved := forecast_across_requests ⟨300, 7200⟩ drizzleCodec
    (bothAsk centraal ++ .act 0 (.write .keeps) :: thirdReads centraal)
    (thirdServed drizzleCodec centraal) (by simp [bothAsk, thirdReads, CacheAside.Event.Allowed])
    (Run.exec_append (bothAsk_exec drizzleCodec centraal) (thirdReads_exec drizzleCodec centraal))
    (readsThird drizzleCodec centraal) (by simp [thirdServed]) (some drizzle) rfl
  rcases hserved with ⟨_, hanswer⟩ | ⟨readAt, _, decidedAt, _, fetchedAt, landedAt, hreply,
    hverdict, hfetched, hbefore, _, _, ⟨_, hfresh⟩ | ⟨_, _, _, hanswer⟩⟩
  · cases hanswer
  · cases hreply
    cases hverdict
    exact ⟨fetchedAt, landedAt, hfetched, hbefore, hfresh⟩
  · cases hanswer

theorem no_fetch_while_fresh_third :
    (∃ forecast, (readsThird drizzleCodec centraal).verdict =
      some (3000000, .serves (some forecast))) ∧
    (readsThird drizzleCodec centraal).result (rainClient ⟨300, 7200⟩ drizzleCodec) ≠
      some none := by
  have hquiet := no_fetch_while_fresh ⟨300, 7200⟩ drizzleCodec (bothAsk centraal)
    (thirdReads centraal) (bothAsked centraal) (thirdServed drizzleCodec centraal) 0 1000000
    (by simp [bothAsk, CacheAside.Event.Allowed]) (bothAsk_exec drizzleCodec centraal)
    (by simp [thirdReads, CacheAside.Event.Up]) (thirdReads_exec drizzleCodec centraal)
    (by
      rintro point fetchedAt forecast landedAt ⟨r, hr, _, _, hanswer, hlanded, _⟩
      simp only [thirdServed, List.mem_cons, List.not_mem_nil, or_false] at hr
      rcases hr with rfl | rfl | rfl
      · cases hanswer
        cases hlanded
        norm_num
      · cases hlanded
      · cases hlanded)
    (asksFirst centraal) (readsThird drizzleCodec centraal) rfl (by simp [thirdServed]) rfl
    3000000 _ rfl (by decide) (by decide)
  obtain ⟨forecast, hforecast⟩ := hquiet.1 3000000 _ rfl (by decide)
  exact ⟨⟨forecast, by rw [← hforecast]; rfl⟩, hquiet.2⟩

end FietsOfOv
