import FietsOfOv.Endpoints
import FietsOfOv.PlanCache

/-!
# What a cached text is taken for

`_read_cached_candidates` drops a text that is no JSON, or whose entries do not
validate.  An empty container has no entries that could fail, and neither an entry's
kind nor the size of its numbers is looked at, so none of these counts as corrupt.
-/

namespace FietsOfOv

section Reading

variable {py : Pydantic} {codec : JsonCodec} {text : String} {value entry : Json}
  {cached : List CachedCandidate}

/-- An iteration over the value has nothing to go through. -/
def EmptyContainer (value : Json) : Prop := value = .arr [] ∨ value = .obj [] ∨ value = .str ""

/-- The entry has a kind, and an itinerary that validates. -/
def EntryReads (py : Pydantic) (entry : Json) : Prop :=
  entry.has "kind" = true ∧ entry.has "itinerary" = true ∧
    ∃ itinerary, Itinerary.validate py (entry.field "itinerary") = .ok itinerary

/-- The entry's kind is not the one its itinerary is of. -/
def Mislabelled (py : Pydantic) (entry : Json) : Prop :=
  ∀ itinerary kind, Itinerary.validate py (entry.field "itinerary") = .ok itinerary →
    classifyKind itinerary = some kind → entry.field "kind" ≠ .str kind.name

theorem parseEntry_eq_ok {c : CachedCandidate} :
    parseEntry py entry = .ok c ↔ entry.has "kind" = true ∧ c.kind = entry.field "kind" ∧
      entry.has "itinerary" = true ∧
      Itinerary.validate py (entry.field "itinerary") = .ok c.itinerary := by
  obtain ⟨kind, itinerary⟩ := c
  unfold parseEntry
  simp only [Loop.bind_eq_ok, Json.index_eq_ok, pure, Except.pure, Except.ok.injEq,
    CachedCandidate.mk.injEq]
  constructor
  · rintro ⟨_, ⟨hkind, rfl⟩, _, ⟨hitinerary, rfl⟩, _, hvalid, rfl, rfl⟩
    exact ⟨hkind, rfl, hitinerary, hvalid⟩
  · rintro ⟨hkind, rfl, hitinerary, hvalid⟩
    exact ⟨_, ⟨hkind, rfl⟩, _, ⟨hitinerary, rfl⟩, _, hvalid, rfl, rfl⟩

theorem exists_parseEntry : (∃ c, parseEntry py entry = .ok c) ↔ EntryReads py entry := by
  simp only [parseEntry_eq_ok, EntryReads]
  constructor
  · rintro ⟨c, hkind, _, hitinerary, hvalid⟩
    exact ⟨hkind, hitinerary, c.itinerary, hvalid⟩
  · rintro ⟨hkind, hitinerary, itinerary, hvalid⟩
    exact ⟨⟨_, itinerary⟩, hkind, rfl, hitinerary, hvalid⟩

/-- A text has no entries to look into. -/
theorem not_parseEntry_str (string : String) : ¬ ∃ c, parseEntry py (.str string) = .ok c := by
  rw [exists_parseEntry]
  rintro ⟨hkind, _⟩
  cases hkind

theorem mapM_strings (strings : List String) :
    (strings.map Json.str).mapM (parseEntry py) = .ok cached ↔ strings = [] ∧ cached = [] := by
  rw [Loop.mapM_eq_ok]
  cases strings with
  | nil => simp
  | cons string strings =>
      simp only [List.map_cons, List.forall₂_cons_left_iff, reduceCtorEq, false_and, iff_false]
      rintro ⟨c, rest, hc, _⟩
      exact not_parseEntry_str string ⟨c, hc⟩

/-- The texts that are read: empty containers, and lists of entries that read. -/
theorem parseCandidates_eq_ok :
    parseCandidates py value = .ok cached ↔
      EmptyContainer value ∧ cached = [] ∨
      ∃ entries, value = .arr entries ∧ entries ≠ [] ∧
        List.Forall₂ (fun entry c => parseEntry py entry = .ok c) entries cached := by
  unfold parseCandidates EmptyContainer
  rw [Loop.bind_eq_ok]
  cases value with
  | null | bool | int | float | nonFinite => simp [Json.elements]
  | str string =>
      have hitems : (Json.str string).elements =
          .ok ((string.toList.map String.singleton).map .str) := by
        simp [Json.elements, Function.comp_def]
      simp only [hitems, Except.ok.injEq, exists_eq_left', mapM_strings, List.map_eq_nil_iff,
        String.toList_eq_nil_iff, Json.str.injEq, reduceCtorEq, false_or, false_and, exists_false,
        or_false]
  | obj fields =>
      have hitems : (Json.obj fields).elements = .ok ((fields.map (·.1)).map .str) := by
        simp [Json.elements, Function.comp_def]
      simp only [hitems, Except.ok.injEq, exists_eq_left', mapM_strings, List.map_eq_nil_iff,
        Json.obj.injEq, reduceCtorEq, false_or, false_and, exists_false, or_false]
  | arr items =>
      have hitems : (Json.arr items).elements = .ok items := rfl
      simp only [hitems, Except.ok.injEq, exists_eq_left', Loop.mapM_eq_ok, Json.arr.injEq,
        reduceCtorEq, or_false]
      cases items with
      | nil => simp
      | cons item items => simp

theorem readCachedCandidates_eq_some :
    readCachedCandidates py codec (.ok (some text)) = some cached ↔
      ∃ value, codec.loads text = some value ∧ parseCandidates py value = .ok cached := by
  simp only [readCachedCandidates]
  by_cases hempty : text = ""
  · simp [hempty, codec.loads_empty]
  · simp only [if_neg hempty, Option.bind_eq_some_iff]
    refine exists_congr fun value => and_congr_right fun _ => ?_
    cases parseCandidates py value <;> simp [Except.toOption]

/-- Candidates whose kinds are those of their itineraries are candidates of the model. -/
theorem exists_candidates :
    (∃ candidates : List Candidate, cached = candidates.map Candidate.asCached ∧
      ∀ c ∈ candidates, classifyKind c.itinerary = some c.kind) ↔
    ∀ c ∈ cached, ∃ kind, classifyKind c.itinerary = some kind ∧ c.kind = .str kind.name := by
  constructor
  · rintro ⟨candidates, rfl, hkinds⟩ c hc
    obtain ⟨candidate, hmem, rfl⟩ := List.mem_map.mp hc
    exact ⟨candidate.kind, hkinds candidate hmem, rfl⟩
  · intro hkinds
    induction cached with
    | nil => exact ⟨[], rfl, by simp⟩
    | cons c cached ih =>
        obtain ⟨candidates, rfl, hcandidates⟩ := ih fun d hd => hkinds d (List.mem_cons_of_mem c hd)
        obtain ⟨kind, hkind, hname⟩ := hkinds c List.mem_cons_self
        refine ⟨⟨kind, c.itinerary⟩ :: candidates, ?_, ?_⟩
        · rw [List.map_cons, Candidate.asCached, ← hname]
        · intro d hd
          rcases List.mem_cons.mp hd with rfl | hd
          · exact hkind
          · exact hcandidates d hd

/-- Entries that read come to candidates of the model exactly if none is mislabelled. -/
theorem labelled_iff {entries : List Json}
    (hread : List.Forall₂ (fun entry c => parseEntry py entry = .ok c) entries cached) :
    (∀ c ∈ cached, ∃ kind, classifyKind c.itinerary = some kind ∧ c.kind = .str kind.name) ↔
      ∀ entry ∈ entries, ¬ Mislabelled py entry := by
  induction hread with
  | nil => simp
  | @cons entry c entries cached hentry _ ih =>
      obtain ⟨_, hkind, _, hvalid⟩ := parseEntry_eq_ok.mp hentry
      have hlabel : (∃ kind, classifyKind c.itinerary = some kind ∧ c.kind = .str kind.name) ↔
          ¬ Mislabelled py entry := by
        simp only [Mislabelled, hvalid, Except.ok.injEq, hkind]
        push Not
        simp
      simp only [List.forall_mem_cons, hlabel, ih]

end Reading

/-! ## What makes a text an answer -/

/-- The same pydantic, which also takes these values for a NaN or an infinity.  No number
    stands for those here, so they are read as any. -/
def Pydantic.accepting (py : Pydantic) (nonFinite : Json → Bool) : Pydantic where
  str := py.str
  int := py.int
  float value := (py.float value).or (if nonFinite value then some 0 else none)
  str_str := py.str_str
  int_int := py.int_int
  float_float value := by rw [py.float_float, Option.some_or]

section Trust

variable (py : Pydantic) (nonFinite : Json → Bool) (codec : JsonCodec) (env : Env)
  (rain : Option RainForecast)

/-- The text is read as these candidates, without a NaN or an infinity. -/
structure ReadsAs (text : String) (candidates : List Candidate) : Prop where
  nonempty : candidates ≠ []
  read : readCachedCandidates (py.accepting nonFinite) codec (.ok (some text)) =
    some (candidates.map Candidate.asCached)
  finite : readCachedCandidates py codec (.ok (some text)) =
    some (candidates.map Candidate.asCached)
  kinds : ∀ c ∈ candidates, classifyKind c.itinerary = some c.kind

end Trust

section Proof

variable {py : Pydantic} {nonFinite : Json → Bool} {codec : JsonCodec} {env : Env}
  {rain : Option RainForecast} {text : String} {value : Json} {entries : List Json}
  {cached : List CachedCandidate}

theorem emptyContainer_reads (hempty : EmptyContainer value)
    (hvalue : codec.loads text = some value) :
    readCachedCandidates py codec (.ok (some text)) = some [] :=
  readCachedCandidates_eq_some.mpr ⟨value, hvalue, parseCandidates_eq_ok.mpr (.inl ⟨hempty, rfl⟩)⟩

/-- What is read as candidates of the model is no empty container, and none of its entries is
    mislabelled. -/
theorem ReadsAs.sound {candidates : List Candidate}
    (h : ReadsAs py nonFinite codec text candidates) (hvalue : codec.loads text = some value) :
    ¬ EmptyContainer value ∧
      parseCandidates py value = .ok (candidates.map Candidate.asCached) ∧
      ∀ entries, value = .arr entries → ∀ entry ∈ entries, ¬ Mislabelled py entry := by
  obtain ⟨value', hvalue', hparse⟩ := readCachedCandidates_eq_some.mp h.finite
  cases hvalue.symm.trans hvalue'
  have hnotEmpty : ¬ EmptyContainer value := by
    intro hempty
    have hnil := h.finite.symm.trans (emptyContainer_reads hempty hvalue)
    exact h.nonempty (List.map_eq_nil_iff.mp (Option.some.inj hnil))
  refine ⟨hnotEmpty, hparse, ?_⟩
  rintro entries rfl
  rcases parseCandidates_eq_ok.mp hparse with ⟨hempty, _⟩ | ⟨entries', heq, _, hcached⟩
  · exact absurd hempty hnotEmpty
  · cases heq
    exact (labelled_iff hcached).mp (exists_candidates.mp ⟨candidates, rfl, h.kinds⟩)

end Proof

end FietsOfOv
