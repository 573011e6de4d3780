import FietsOfOv.Advice
import FietsOfOv.Buienradar
import FietsOfOv.Lib.Lines
import FietsOfOv.MoreRain

/-!
# What the rain feed says

`_parse_raintext` reads `iii|HH:MM` lines back into the readings they show, and
the rain rate it gives a code grows with the code.  Both meet in the ranking: a
feed with higher codes makes no way to travel cheaper.
-/

namespace FietsOfOv

open WallClock Decimal Text

/-- One line of the feed: an intensity code with a rain rate within range, and a time. -/
@[ext] structure Reading where
  code : Nat
  hour : Fin 24
  minute : Fin 60
  inRange : (code : Int) ≤ maxCode

/-- A number in plain digits, with any number of leading zeros. -/
structure Numeral (text : List Char) (n : Nat) : Prop where
  ne_nil : text ≠ []
  digits : ∀ c ∈ text, c.isDigit
  length_le : text.length ≤ maxStrDigits
  value : Nat.ofDigitChars 10 text 0 = n

/-- A line that shows a reading. -/
def Reading.Shown (r : Reading) (line : List Char) : Prop :=
  ∃ code hour minute, Numeral code r.code ∧ Numeral hour r.hour ∧ Numeral minute r.minute ∧
    line = code ++ '|' :: (hour ++ ':' :: minute)

def Reading.time (r : Reading) : Time :=
  Time.ofMicros (((r.hour : Nat) * 60 + (r.minute : Nat) : Nat) * 60000000)

/-- The slot of a reading; the code zero is dry. -/
def Reading.slot (r : Reading) : RainSlot where
  time := r.time
  intensity := r.code
  mmPerH := if r.code = 0 then 0 else roundedPowTen (r.code - 109)

/-- A text that shows these readings, one a line, whatever ends its lines, however they are
    indented and wherever blank lines stand. -/
def FeedText (text : String) (readings : List Reading) : Prop :=
  ∃ rows, Rows text.toList rows ∧ List.Forall₂ Reading.Shown readings rows

/-! ## Reading the feed back -/

theorem Numeral.int_eq {text : List Char} {n : Nat} (h : Numeral text n) :
    int text = some (n : Int) := by
  rw [int_of_isDigit h.ne_nil h.digits, if_pos h.length_le, h.value]

theorem Numeral.not_mem {text : List Char} {n : Nat} (h : Numeral text n) {sep : Char}
    (hsep : sep.isDigit = false) : sep ∉ text := by
  intro hmem
  rw [h.digits sep hmem] at hsep
  cases hsep

theorem isSpace_of_isDigit {c : Char} (hc : c.isDigit) : isSpace c = false := by
  obtain ⟨hlo, hhi⟩ := toNat_of_isDigit hc
  simp only [isSpace, decide_eq_false_iff_not]
  omega

theorem splitOnce_append {sep : Char} {text : List Char} (hsep : sep ∉ text) (rest : List Char) :
    splitOnce sep (text ++ sep :: rest) = some (text, rest) := by
  induction text with
  | nil => simp [splitOnce]
  | cons c text ih =>
      rw [List.mem_cons, not_or] at hsep
      obtain ⟨hne, hsep⟩ := hsep
      rw [List.cons_append, splitOnce, if_neg (Ne.symm hne), ih hsep]
      rfl

theorem Reading.Shown.visible {r : Reading} {line : List Char} (h : r.Shown line) :
    Visible line := by
  obtain ⟨code, hour, minute, hcode, hhour, hminute, rfl⟩ := h
  refine ⟨by simp, ?_⟩
  intro c hc
  simp only [List.mem_append, List.mem_cons] at hc
  rcases hc with hc | rfl | hc | rfl | hc
  · exact isSpace_of_isDigit (hcode.digits c hc)
  · decide
  · exact isSpace_of_isDigit (hhour.digits c hc)
  · decide
  · exact isSpace_of_isDigit (hminute.digits c hc)

theorem timeOf_reading (r : Reading) :
    timeOf ((r.hour : Nat) : Int) ((r.minute : Nat) : Int) = some r.time := by
  have hhour := r.hour.isLt
  have hminute := r.minute.isLt
  rw [timeOf, if_pos (by omega), Reading.time]
  push_cast
  rfl

theorem readLine_shown {r : Reading} {line : List Char} (h : r.Shown line) :
    readLine line = some ((r.code : Int), r.time) := by
  obtain ⟨code, hour, minute, hcode, hhour, hminute, rfl⟩ := h
  have hbar : splitOnce '|' (code ++ '|' :: (hour ++ ':' :: minute)) =
      some (code, hour ++ ':' :: minute) := splitOnce_append (hcode.not_mem (by decide)) _
  have hcolon : splitOnce ':' (hour ++ ':' :: minute) = some (hour, minute) :=
    splitOnce_append (hhour.not_mem (by decide)) _
  simp [readLine, hbar, hcolon, hcode.int_eq, hhour.int_eq, hminute.int_eq, timeOf_reading]

theorem intensityToMmPerH_reading (r : Reading) :
    intensityToMmPerH r.code = .ok r.slot.mmPerH := by
  have hrange := r.inRange
  rw [intensityToMmPerH, Reading.slot]
  by_cases hzero : r.code = 0
  · simp [hzero]
  · rw [if_neg (by omega), if_neg (by omega), if_neg hzero]

theorem parseLine_shown {r : Reading} {line : List Char} (h : r.Shown line) :
    parseLine line = .ok r.slot := by
  rw [parseLine, readLine_shown h]
  simp only [intensityToMmPerH_reading]
  rfl

/-- Different readings come to different slots. -/
theorem Reading.slot_injective : Function.Injective Reading.slot := by
  intro r r' heq
  have hcode : (r.code : Int) = r'.code := congrArg RainSlot.intensity heq
  have htime : (r.time.micros : Int) = r'.time.micros := by
    rw [show r.time = r'.time from congrArg RainSlot.time heq]
  simp only [Reading.time, Time.micros_ofMicros] at htime
  have hhour := r.hour.isLt
  have hhour' := r'.hour.isLt
  have hminute := r.minute.isLt
  have hminute' := r'.minute.isLt
  ext
  · exact_mod_cast hcode
  · omega
  · omega

/-- **The feed is read back.**  A text that shows readings one a line is turned into their
    slots, in order, or is refused if it shows none; and what is turned into slots tells which
    readings the text shows. -/
theorem feed_read_back (text : String) (readings : List Reading) (h : FeedText text readings) :
    (parseRaintext text =
      if readings = [] then .error .valueError else .ok (readings.map Reading.slot)) ∧
    ∀ text' readings', FeedText text' readings' →
      (parseRaintext text = parseRaintext text' ↔ readings = readings') := by
  have hparse : ∀ text readings, FeedText text readings → parseRaintext text =
      if readings = [] then .error .valueError else .ok (readings.map Reading.slot) := by
    rintro text readings ⟨rows, hrows, hshown⟩
    have hlines : textLines text = rows := contents_of_rows hrows
    have hslots : rows.mapM parseLine = .ok (readings.map Reading.slot) := by
      rw [Loop.mapM_eq_ok, List.forall₂_map_right_iff]
      exact hshown.flip.imp fun _ _ hline => parseLine_shown hline
    have hnil : readings.map Reading.slot = [] ↔ readings = [] := List.map_eq_nil_iff
    rw [parseRaintext, hlines, hslots]
    change (if readings.map Reading.slot = [] then Except.error ClientError.valueError
      else .ok (readings.map Reading.slot)) = _
    simp only [hnil]
  refine ⟨hparse text readings h, ?_⟩
  intro text' readings' h'
  rw [hparse text readings h, hparse text' readings' h']
  constructor
  · intro heq
    by_cases hempty : readings = []
    · by_cases hempty' : readings' = []
      · rw [hempty, hempty']
      · rw [if_pos hempty, if_neg hempty'] at heq
        cases heq
    · by_cases hempty' : readings' = []
      · rw [if_neg hempty, if_pos hempty'] at heq
        cases heq
      · rw [if_neg hempty, if_neg hempty'] at heq
        exact List.map_injective_iff.mpr Reading.slot_injective (Except.ok.inj heq)
  · rintro rfl
    rfl

/-! ## Higher codes -/

theorem floorRoot_mono (k : Nat) {n n' : Nat} (hle : n ≤ n') : floorRoot k n ≤ floorRoot k n' :=
  le_floorRoot.mpr (le_trans (le_floorRoot.mp (le_refl _)) hle)

theorem roundedPowTen_mono {e e' : Int} (hle : e ≤ e') : roundedPowTen e ≤ roundedPowTen e' := by
  have hpow : 2 ^ 32 * 10 ^ (e + 128).toNat ≤ 2 ^ 32 * 10 ^ (e' + 128).toNat := by
    have hexponent : (e + 128).toNat ≤ (e' + 128).toNat := by omega
    gcongr
    · decide
  have hroot : floorRoot 5 (2 ^ 32 * 10 ^ (e + 128).toNat) ≤
      floorRoot 5 (2 ^ 32 * 10 ^ (e' + 128).toNat) := floorRoot_mono 5 hpow
  unfold roundedPowTen
  gcongr

theorem roundedPowTen_pos (e : Int) : 0 < roundedPowTen e := by
  have hroot : 2 ≤ floorRoot 5 (2 ^ 32 * 10 ^ (e + 128).toNat) := by
    rw [le_floorRoot]
    exact Nat.le_mul_of_pos_right _ (by positivity)
  have hhalf : 0 < (floorRoot 5 (2 ^ 32 * 10 ^ (e + 128).toNat) + 1) / 2 := by omega
  unfold roundedPowTen
  positivity

/-- The rain rate grows with the code, from zero on. -/
theorem intensityToMmPerH_mono {code code' : Int} {rate rate' : ℚ} (hle : code ≤ code')
    (h : intensityToMmPerH code = .ok rate) (h' : intensityToMmPerH code' = .ok rate') :
    0 ≤ rate ∧ rate ≤ rate' := by
  have hrate : ∀ {code : Int} {rate : ℚ}, intensityToMmPerH code = .ok rate →
      rate = if code ≤ 0 then 0 else roundedPowTen (code - 109) := by
    intro code rate h
    unfold intensityToMmPerH at h
    split at h
    · rename_i hdry
      rw [if_pos hdry]
      exact (Except.ok.inj h).symm
    · rename_i hwet
      split at h
      · cases h
      · rw [if_neg hwet]
        exact (Except.ok.inj h).symm
  rw [hrate h, hrate h']
  by_cases hdry : code ≤ 0
  · rw [if_pos hdry]
    refine ⟨le_refl 0, ?_⟩
    split
    · exact le_refl 0
    · exact (roundedPowTen_pos _).le
  · rw [if_neg hdry, if_neg (by omega)]
    exact ⟨(roundedPowTen_pos _).le, roundedPowTen_mono (by omega)⟩

/-- Every slot has the rain rate of its code. -/
theorem rate_of_parseRaintext {text : String} {slots : List RainSlot}
    (h : parseRaintext text = .ok slots) :
    ∀ s ∈ slots, intensityToMmPerH s.intensity = .ok s.mmPerH := by
  obtain ⟨slots', hslots, hend⟩ := Loop.bind_eq_ok.mp h
  have hsame : slots' = slots := by
    split at hend
    · cases hend
    · exact Except.ok.inj hend
  subst hsame
  have hline : ∀ {line : List Char} {s : RainSlot}, parseLine line = .ok s →
      intensityToMmPerH s.intensity = .ok s.mmPerH := by
    intro line s hparse
    unfold parseLine at hparse
    split at hparse
    · cases hparse
    · obtain ⟨rate, hrate, hslot⟩ := Loop.bind_eq_ok.mp hparse
      cases hslot
      exact hrate
  have hlines := (Loop.mapM_eq_ok.mp hslots).flip.imp fun s line hparse =>
    show intensityToMmPerH s.intensity = .ok s.mmPerH ∧ True from ⟨hline hparse, trivial⟩
  exact ((List.forall₂_and_left _ _).mp hlines).1

/-- At each time the one feed shows, the other shows at least its code, and maybe more times. -/
def HigherCodes (slots more : List RainSlot) : Prop :=
  ∃ raised : List RainSlot,
    List.Forall₂ (fun s t => s.time = t.time ∧ s.intensity ≤ t.intensity) slots raised ∧
    raised.Subperm more

theorem HigherCodes.raised {text text' : String} {slots more : List RainSlot}
    (h : HigherCodes slots more) (hparse : parseRaintext text = .ok slots)
    (hparse' : parseRaintext text' = .ok more) : Raised slots more := by
  obtain ⟨raised, hraised, hadded⟩ := h
  have hrates : ∀ s ∈ slots, intensityToMmPerH s.intensity = .ok s.mmPerH :=
    rate_of_parseRaintext hparse
  have hrates' : ∀ t ∈ raised, intensityToMmPerH t.intensity = .ok t.mmPerH := by
    intro t ht
    exact rate_of_parseRaintext hparse' t (hadded.subset ht)
  refine ⟨raised, ?_, hadded⟩
  clear hparse hparse' hadded
  induction hraised with
  | nil => exact .nil
  | cons hhead _ ih =>
      rw [List.forall_mem_cons] at hrates hrates'
      refine .cons ⟨hhead.1, ?_⟩ (ih hrates.2 hrates'.2)
      exact (intensityToMmPerH_mono hhead.2 hrates.1 hrates'.1).2

/-- The peak of a raised forecast is no lower. -/
theorem peakMmPerH_raised {slots more : List RainSlot} (h : Raised slots more)
    (hnonneg : ∀ t ∈ more, 0 ≤ t.mmPerH) : peakMmPerH slots ≤ peakMmPerH more := by
  by_cases hslots : slots = []
  · by_cases hmore : more = []
    · rw [hslots, hmore]
    · obtain ⟨⟨t, ht, hpeak⟩, _⟩ := peakMmPerH_spec hmore
      rw [hslots, ← hpeak]
      exact hnonneg t ht
  · obtain ⟨⟨s, hs, hpeak⟩, _⟩ := peakMmPerH_spec hslots
    obtain ⟨t, ht, hle⟩ := h.exists_le hs
    have hmore : more ≠ [] := List.ne_nil_of_mem ht
    rw [← hpeak]
    exact hle.trans ((peakMmPerH_spec hmore).2 t ht)

/-- **Higher codes, dearer trips.**  Of two texts of the feed that can be read, let the second
    show every time of the first with at least its code, and any others.  Then no kind of trip
    has a cheaper winner under the second, and the banner of no itinerary shows less rain. -/
theorem higher_codes_cost_more (env : Env) (candidates : List Candidate) (weights : Weights)
    (threshold : ℚ) (text text' : String) (slots more : List RainSlot)
    (hparse : parseRaintext text = .ok slots) (hparse' : parseRaintext text' = .ok more)
    (hhigher : HigherCodes slots more) (hweights : weights.Graded)
    (hdur : ∀ c ∈ candidates, ∀ leg ∈ c.itinerary.legs, 0 ≤ leg.duration) :
    (∀ k, Option.Rel (fun s s' => s.cost ≤ s'.cost)
      ((rank env candidates (some ⟨slots⟩) weights threshold).find? (·.kind = k))
      ((rank env candidates (some ⟨more⟩) weights threshold).find? (·.kind = k))) ∧
    ∀ itinerary : Itinerary, ∃ expected expected' : Bool, ∃ peak peak' : ℚ,
      rainSummary env itinerary (some ⟨slots⟩) threshold = (some expected, some peak) ∧
      rainSummary env itinerary (some ⟨more⟩) threshold = (some expected', some peak') ∧
      peak ≤ peak' ∧ (expected = true → expected' = true) := by
  have hraised : Raised slots more := hhigher.raised hparse hparse'
  constructor
  · intro k
    apply rank_cost_mono
    intro c hc
    exact score_cost_mono (rainExposure_mono hweights hraised (hdur c hc))
  · intro itinerary
    have hwindow : Raised (windowSlots env itinerary ⟨slots⟩)
        (windowSlots env itinerary ⟨more⟩) := by
      apply hraised.filter
      intro s t htime _ hs
      rw [← htime]
      exact hs
    have hnonneg : ∀ t ∈ windowSlots env itinerary ⟨more⟩, 0 ≤ t.mmPerH := by
      intro t ht
      have hrate := rate_of_parseRaintext hparse' t (List.mem_of_mem_filter ht)
      exact (intensityToMmPerH_mono (le_refl _) hrate hrate).1
    refine ⟨_, _, _, _, rfl, rfl, roundTo_mono 4 (peakMmPerH_raised hwindow hnonneg), ?_⟩
    intro hexpected
    obtain ⟨s, hs, hwet⟩ := List.any_eq_true.mp hexpected
    obtain ⟨t, ht, hle⟩ := hwindow.exists_le hs
    apply List.any_eq_true.mpr
    exact ⟨t, ht, decide_eq_true ((of_decide_eq_true hwet).trans hle)⟩

/-! ### A drizzle at four, and a night that gets wetter -/

def fivePastFour : Reading := ⟨77, 16, 5, by decide⟩

def tenPastFour : Reading := ⟨0, 16, 10, by decide⟩

/-- A blank line, indentation and three kinds of line ends. -/
theorem feedText_drizzle :
    FeedText "077|16:05\r\n\n  0|16:10 \r" [fivePastFour, tenPastFour] := by
  have hnumeral : ∀ text : String, text.toList ≠ [] → text.toList.all Char.isDigit = true →
      text.toList.length ≤ maxStrDigits →
      Numeral text.toList (Nat.ofDigitChars 10 text.toList 0) := by
    intro text hne hdigits hlength
    exact ⟨hne, List.all_eq_true.mp hdigits, hlength, rfl⟩
  have hfive : fivePastFour.Shown "077|16:05".toList :=
    ⟨_, _, _, hnumeral "077" (by decide) (by decide) (by decide),
      hnumeral "16" (by decide) (by decide) (by decide),
      hnumeral "05" (by decide) (by decide) (by decide), by decide⟩
  have hten : tenPastFour.Shown "0|16:10".toList :=
    ⟨_, _, _, hnumeral "0" (by decide) (by decide) (by decide),
      hnumeral "16" (by decide) (by decide) (by decide),
      hnumeral "10" (by decide) (by decide) (by decide), by decide⟩
  have hblank : Blank [] := by simp [Blank]
  have hspace : ∀ n, Blank (List.replicate n ' ') := by
    intro n c hc
    rw [List.eq_of_mem_replicate hc]
    decide
  have hrows : Rows (([] ++ "077|16:05".toList ++ []) ++ (['\r', '\n'] ++ ([] ++ (['\n'] ++
      ((List.replicate 2 ' ' ++ "0|16:10".toList ++ List.replicate 1 ' ') ++ (['\r'] ++ []))))))
      ["077|16:05".toList, "0|16:10".toList] :=
    .row hblank hfive.visible hblank (Or.inl rfl)
      (.blank hblank (Or.inr ⟨'\n', by decide, rfl⟩)
        (.row (hspace 2) hten.visible (hspace 1) (Or.inr ⟨'\r', by decide, rfl⟩) (.stop hblank)))
  exact ⟨_, hrows, .cons hfive (.cons hten .nil)⟩

theorem feed_read_back_drizzle :
    parseRaintext "077|16:05\r\n\n  0|16:10 \r" = .ok [fivePastFour.slot, tenPastFour.slot] :=
  (feed_read_back _ _ feedText_drizzle).1

theorem higher_codes_cost_more_midnight :
    ∃ slots more, parseRaintext "077|00:00" = .ok slots ∧
      parseRaintext "0|00:00\n141|00:00" = .ok more ∧
      Option.Rel (fun s s' => s.cost ≤ s'.cost)
        ((rank flatEnv [midnightRide] (some ⟨slots⟩)).find?
          (·.kind = .bike))
        ((rank flatEnv [midnightRide] (some ⟨more⟩)).find?
          (·.kind = .bike)) := by
  have hlight : parseRaintext "077|00:00" = .ok [⟨midnight, 77, 1 / 10⟩] := by decide +kernel
  have hheavy : parseRaintext "0|00:00\n141|00:00" =
      .ok [⟨midnight, 0, 0⟩, ⟨midnight, 141, 10⟩] := by decide +kernel
  have hhigher : HigherCodes [⟨midnight, 77, 1 / 10⟩]
      [⟨midnight, 0, 0⟩, ⟨midnight, 141, 10⟩] :=
    ⟨[⟨midnight, 141, 10⟩], .cons ⟨rfl, by decide⟩ .nil,
      (List.sublist_cons_self _ _).subperm⟩
  refine ⟨_, _, hlight, hheavy, ?_⟩
  exact (higher_codes_cost_more flatEnv [midnightRide] defaultWeights
    defaultRainThresholdMmH _ _ _ _ hlight hheavy hhigher defaultWeights_graded
    (by simp [midnightRide])).1 .bike

end FietsOfOv
