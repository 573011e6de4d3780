import FietsOfOv.Lib.Loop
import FietsOfOv.Lib.PowTen
import FietsOfOv.Lib.Text
import FietsOfOv.Rain

/-!
# The rain feed

`app/clients/buienradar.py`: the text of the feed becomes a list of slots, and
what it cannot read raises.  `RainService.get_forecast` catches two exceptions
of the client, and those are not all it can raise.
-/

namespace FietsOfOv

open WallClock Decimal Text

/-- What `get_rain_forecast` can raise. -/
inductive ClientError where
  | httpError
  | valueError
  | overflowError
deriving DecidableEq

/-- The largest intensity code whose rain rate is within the range of a double. -/
def maxCode : Int := 9973

/-- `_intensity_to_mm_per_h`; `10 ** x` raises where the result exceeds the range of a double. -/
def intensityToMmPerH (code : Int) : Except ClientError ℚ :=
  if code ≤ 0 then .ok 0
  else if maxCode < code then .error .overflowError
  else .ok (roundedPowTen (code - 109))

/-- `time(hour=hour, minute=minute)`; `none` is the documented `ValueError` (for an hour or a
    minute beyond a C `int` it is an `OverflowError`). -/
def timeOf (hour minute : Int) : Option Time :=
  if 0 ≤ hour ∧ hour < 24 ∧ 0 ≤ minute ∧ minute < 60 then
    some (Time.ofMicros ((hour * 60 + minute) * 60000000))
  else none

/-- The code and the time of a line; `none` where splitting, `int` or `time` raises a
    `ValueError`. -/
def readLine (line : List Char) : Option (Int × Time) := do
  let (rawIntensity, rawTime) ← splitOnce '|' line
  let code ← int rawIntensity
  let (rawHour, rawMinute) ← splitOnce ':' rawTime
  let hour ← int rawHour
  let minute ← int rawMinute
  let time ← timeOf hour minute
  return (code, time)

/-- The slot of a line. -/
def parseLine (line : List Char) : Except ClientError RainSlot :=
  match readLine line with
  | none => .error .valueError
  | some (code, time) => do
      let mmPerH ← intensityToMmPerH code
      return { time := time, intensity := code, mmPerH := mmPerH }

/-- The lines of a text that are not blank, stripped. -/
def textLines (text : String) : List (List Char) :=
  ((splitlines text.toList).map strip).filter (· ≠ [])

/-- `_parse_raintext`. -/
def parseRaintext (text : String) : Except ClientError (List RainSlot) := do
  let slots ← (textLines text).mapM parseLine
  if slots = [] then throw .valueError else return slots

/-- What the request to Buienradar comes to. -/
inductive Response where
  /-- The request failed, or its status is not 2xx. -/
  | failed
  | body (text : String)

/-- `BuienradarClient.get_rain_forecast`. -/
def getRainForecast : Response → Except ClientError RainForecast
  | .failed => .error .httpError
  | .body text => do
      let slots ← parseRaintext text
      return { slots := slots }

/-- The exceptions that `get_forecast` catches. -/
def ClientError.caught : ClientError → Option UpstreamError
  | .httpError => some .httpError
  | .valueError => some .valueError
  | .overflowError => none

/-- `RainService.get_forecast` on what the client returns or raises. -/
def getForecastFrom (config : RainConfig) (codec : EnvelopeCodec) (now : Int)
    (answer : Except Unit (Option String)) (response : Response) : Except ClientError Served :=
  match readCache codec now answer with
  | some (forecast, age) =>
      if age < config.freshSeconds * 1000000 then .ok ⟨some forecast, 0, none⟩
      else refetchFrom codec now (some (forecast, age)) (getRainForecast response)
  | none => refetchFrom codec now none (getRainForecast response)
where
  /-- The `try` around the request. -/
  refetchFrom (codec : EnvelopeCodec) (now : Int) (cached : Option (RainForecast × Int))
      (fetched : Except ClientError RainForecast) : Except ClientError Served :=
    match fetched with
    | .ok forecast => .ok (refetch codec now cached (.ok forecast))
    | .error e =>
        match e.caught with
        | some upstream => .ok (refetch codec now cached (.error upstream))
        | none => .error e

/-! ## What a text comes to -/

/-- The line can be read, and its rain rate is out of range. -/
def Overflows (line : List Char) : Prop :=
  ∃ code time, readLine line = some (code, time) ∧ maxCode < code

/-- The line can be read, and its rain rate is within range. -/
def Reads (line : List Char) : Prop :=
  ∃ code time, readLine line = some (code, time) ∧ code ≤ maxCode

/-- No line whose rain rate is out of range comes before the first line that cannot
    be read. -/
def NoEarlyOverflow (text : String) : Prop :=
  ∀ before line after, textLines text = before ++ line :: after → (∀ l ∈ before, Reads l) →
    ¬ Overflows line

/-- `maxCode` is the last code whose rain rate, before rounding, a double can hold. -/
theorem maxCode_lt_iff (code : Int) :
    maxCode < code ↔ (doubleLimit : ℝ) ≤ (10 : ℝ) ^ (((code : ℝ) - 109) / 32) := by
  have hpower := doubleLimit_le_powTen_iff (code - 109)
  push_cast at hpower
  rw [hpower, maxCode]
  omega

theorem intensityToMmPerH_ok {code : Int} (h : code ≤ maxCode) :
    ∃ mmPerH, intensityToMmPerH code = .ok mmPerH := by
  unfold intensityToMmPerH
  split
  · exact ⟨_, rfl⟩
  · rw [if_neg (not_lt.mpr h)]
    exact ⟨_, rfl⟩

theorem intensityToMmPerH_error {code : Int} {e : ClientError} :
    intensityToMmPerH code = .error e ↔ maxCode < code ∧ e = .overflowError := by
  unfold intensityToMmPerH
  split
  · simp only [reduceCtorEq, maxCode, false_iff]
    omega
  · split
    · rename_i hover
      simp [hover, eq_comm]
    · rename_i hover
      simp [hover]

theorem parseLine_ok_iff {line : List Char} : (∃ slot, parseLine line = .ok slot) ↔ Reads line := by
  unfold parseLine Reads
  cases hread : readLine line with
  | none => simp
  | some p =>
      obtain ⟨code, time⟩ := p
      simp only [Loop.bind_eq_ok, Option.some.injEq, Prod.mk.injEq]
      constructor
      · rintro ⟨slot, mmPerH, hmm, _⟩
        refine ⟨code, time, ⟨rfl, rfl⟩, ?_⟩
        by_contra hover
        rw [intensityToMmPerH_error.mpr ⟨not_le.mp hover, rfl⟩] at hmm
        cases hmm
      · rintro ⟨_, _, ⟨rfl, rfl⟩, hle⟩
        obtain ⟨mmPerH, hmm⟩ := intensityToMmPerH_ok hle
        exact ⟨_, mmPerH, hmm, rfl⟩

/-- A line raises a `ValueError` or an `OverflowError`. -/
theorem parseLine_error_iff {line : List Char} {e : ClientError} :
    parseLine line = .error e ↔
      readLine line = none ∧ e = .valueError ∨ Overflows line ∧ e = .overflowError := by
  unfold parseLine Overflows
  cases hread : readLine line with
  | none => simp [eq_comm]
  | some p =>
      obtain ⟨code, time⟩ := p
      simp only [Loop.bind_eq_error, intensityToMmPerH_error, Option.some.injEq, Prod.mk.injEq,
        reduceCtorEq, false_and, false_or]
      constructor
      · rintro (⟨hover, rfl⟩ | ⟨_, _, hpure⟩)
        · exact ⟨⟨code, time, ⟨rfl, rfl⟩, hover⟩, rfl⟩
        · cases hpure
      · rintro ⟨⟨_, _, ⟨rfl, rfl⟩, hover⟩, rfl⟩
        exact Or.inl ⟨hover, rfl⟩

/-- An `OverflowError` comes from the first line that cannot be turned into a slot. -/
theorem parseRaintext_error_iff {text : String} {e : ClientError} (he : e ≠ .valueError) :
    parseRaintext text = .error e ↔ e = .overflowError ∧ ¬ NoEarlyOverflow text := by
  have hloop : parseRaintext text = .error e ↔ (textLines text).mapM parseLine = .error e := by
    rw [parseRaintext, Loop.bind_eq_error]
    constructor
    · rintro (herror | ⟨slots, _, hend⟩)
      · exact herror
      · split at hend
        · cases hend
          exact absurd rfl he
        · cases hend
    · exact Or.inl
  rw [hloop, Loop.mapM_eq_error]
  simp only [parseLine_error_iff, parseLine_ok_iff, he, and_false, false_or, NoEarlyOverflow]
  push Not
  constructor
  · rintro ⟨before, line, after, heq, hbefore, hover, rfl⟩
    exact ⟨rfl, before, line, after, heq, hbefore, hover⟩
  · rintro ⟨rfl, before, line, after, heq, hbefore, hover⟩
    exact ⟨before, line, after, heq, hbefore, hover, rfl⟩

/-- What a text is turned into is never empty. -/
theorem parseRaintext_ne_nil {text : String} {slots : List RainSlot}
    (h : parseRaintext text = .ok slots) : slots ≠ [] := by
  obtain ⟨slots', _, hend⟩ := Loop.bind_eq_ok.mp h
  split at hend
  · cases hend
  · cases hend
    assumption

/-- `get_forecast` raises exactly what the client raises and it does not catch, and
    only where it asks the client. -/
theorem getForecastFrom_error_iff {config : RainConfig} {codec : EnvelopeCodec} {now : Int}
    {answer : Except Unit (Option String)} {response : Response} {e : ClientError} :
    getForecastFrom config codec now answer response = .error e ↔
      getRainForecast response = .error e ∧ e.caught = none ∧
        ∀ forecast age, readCache codec now answer = some (forecast, age) →
          ¬ age < config.freshSeconds * 1000000 := by
  have hrefetch : ∀ cached,
      getForecastFrom.refetchFrom codec now cached (getRainForecast response) = .error e ↔
         getRainForecast response = .error e ∧ e.caught = none := by
    intro cached
    unfold getForecastFrom.refetchFrom
    cases getRainForecast response with
    | ok forecast => simp
    | error e' => cases e' <;> cases e <;> simp [ClientError.caught]
  unfold getForecastFrom
  cases hcached : readCache codec now answer with
  | none => simp [hrefetch]
  | some hit =>
      obtain ⟨forecast, age⟩ := hit
      by_cases hfresh : age < config.freshSeconds * 1000000
      · simp [hfresh]
      · simp [hfresh, not_lt.mp hfresh, hrefetch]

/-- The parser has slots or a `ValueError` to answer, unless a rate overflows first. -/
theorem parseRaintext_closed_iff (text : String) :
    ((∃ slots, parseRaintext text = .ok slots ∧ slots ≠ []) ∨
      parseRaintext text = .error .valueError) ↔ NoEarlyOverflow text := by
  constructor
  · rintro (⟨slots, hslots, _⟩ | hvalue)
    · by_contra hover
      rw [(parseRaintext_error_iff (by decide)).mpr ⟨rfl, hover⟩] at hslots
      cases hslots
    · by_contra hover
      rw [(parseRaintext_error_iff (by decide)).mpr ⟨rfl, hover⟩] at hvalue
      cases hvalue
  · intro hnone
    cases hparse : parseRaintext text with
    | ok slots => exact Or.inl ⟨slots, rfl, parseRaintext_ne_nil hparse⟩
    | error e =>
        by_cases he : e = .valueError
        · exact Or.inr (by rw [he])
        · exact absurd hnone ((parseRaintext_error_iff he).mp hparse).2

/-- What is no `ValueError` passes through the client. -/
theorem getRainForecast_error_iff {text : String} {e : ClientError} (he : e ≠ .valueError) :
    getRainForecast (.body text) = .error e ↔ e = .overflowError ∧ ¬ NoEarlyOverflow text := by
  rw [← parseRaintext_error_iff he]
  constructor
  · intro herror
    rcases Loop.bind_eq_error.mp herror with hparse | ⟨_, _, hpure⟩
    · exact hparse
    · cases hpure
  · intro hparse
    exact Loop.bind_eq_error.mpr (Or.inl hparse)

/-- The service answers whatever its cache holds, unless a rate overflows first. -/
theorem getForecastFrom_serves_iff (config : RainConfig) (codec : EnvelopeCodec) (text : String) :
    (∀ now answer, ∃ served,
      getForecastFrom config codec now answer (.body text) = .ok served) ↔
      NoEarlyOverflow text := by
  constructor
  · intro hserves
    by_contra hover
    obtain ⟨served, hserved⟩ := hserves 0 (.ok none)
    have hraised : getForecastFrom config codec 0 (.ok none) (.body text) =
        .error .overflowError := by
      rw [getForecastFrom_error_iff]
      exact ⟨(getRainForecast_error_iff (by decide)).mpr ⟨rfl, hover⟩, rfl, by simp [readCache]⟩
    rw [hraised] at hserved
    cases hserved
  · intro hnone now answer
    cases hserved : getForecastFrom config codec now answer (.body text) with
    | ok served => exact ⟨served, rfl⟩
    | error e =>
        obtain ⟨herror, hcaught, _⟩ := getForecastFrom_error_iff.mp hserved
        have he : e ≠ .valueError := by
          rintro rfl
          cases hcaught
        exact absurd hnone ((getRainForecast_error_iff he).mp herror).2

/-- **A garbled feed degrades unless a rain rate overflows.**  A text is turned into
    slots or raises a `ValueError`, and `get_forecast` never raises, exactly when no
    line that can be read has a rate out of range before the first line that cannot. -/
theorem raintext_degrades_iff (config : RainConfig) (codec : EnvelopeCodec) (text : String) :
    (((∃ slots, parseRaintext text = .ok slots ∧ slots ≠ []) ∨
        parseRaintext text = .error .valueError) ↔ NoEarlyOverflow text) ∧
    ((∀ now answer, ∃ served,
        getForecastFrom config codec now answer (.body text) = .ok served) ↔
      NoEarlyOverflow text) := by
  constructor
  · exact parseRaintext_closed_iff text
  · exact getForecastFrom_serves_iff config codec text

/-- One line with the code 9974 crashes the parser and the service. -/
theorem raintext_overflows :
    ¬ ∀ (text : String),
      ((∃ slots, parseRaintext text = .ok slots ∧ slots ≠ []) ∨
        parseRaintext text = .error .valueError) ∧
      ∀ (config : RainConfig) (codec : EnvelopeCodec) (now : Int)
        (answer : Except Unit (Option String)), ∃ served,
          getForecastFrom config codec now answer (.body text) = .ok served := by
  intro hall
  have hparse : parseRaintext "9974|16:05" = .error .overflowError := by decide +kernel
  rcases (hall "9974|16:05").1 with ⟨slots, hslots, _⟩ | hvalue
  · rw [hparse] at hslots
    cases hslots
  · rw [hparse] at hvalue
    cases hvalue

end FietsOfOv
