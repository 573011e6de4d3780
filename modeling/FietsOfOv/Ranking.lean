import FietsOfOv.Lib.Best
import FietsOfOv.Scoring
import Mathlib.Data.Prod.Lex
import Mathlib.Data.String.Basic

/-!
# What `rank` keeps

Of each kind, `rank` keeps the first of the cheapest candidates among those that
depart within the cap after the kind's earliest one, with the minutes waited for
them priced in.  The earliest candidate itself always competes, so a kind that
occurs is never lost.
-/

namespace FietsOfOv

open Decimal

variable {env : Env} {candidates : List Candidate} {rain : Option RainForecast}
  {weights : Weights} {threshold : ℚ}

/-- The candidate departs within the cap after its kind's earliest one. -/
def competes (weights : Weights) (candidates : List Candidate) (c : Candidate) : Bool :=
  delayMin (earliestMs candidates) c ≤ weights.maxDepartWaitMin

/-- The candidate's score among these candidates. -/
def priced (env : Env) (candidates : List Candidate) (rain : Option RainForecast)
    (weights : Weights) (threshold : ℚ) (c : Candidate) : ScoredCandidate :=
  adjustedScore env c (delayMin (earliestMs candidates) c) rain weights threshold

@[simp] theorem priced_kind (c : Candidate) :
    (priced env candidates rain weights threshold c).kind = c.kind := by
  unfold priced adjustedScore
  split <;> rfl

@[simp] theorem priced_itinerary (c : Candidate) :
    (priced env candidates rain weights threshold c).itinerary = c.itinerary := by
  unfold priced adjustedScore
  split <;> rfl

/-! ## The earliest departure of a kind -/

theorem get_earliestMs (candidates : List Candidate) (k : OptionKind) :
    match Dict.get (earliestMs candidates) k with
    | none => ∀ c ∈ candidates, c.kind ≠ k
    | some start => (∃ c ∈ candidates, c.kind = k ∧ c.itinerary.startTime = start) ∧
        ∀ c ∈ candidates, c.kind = k → start ≤ c.itinerary.startTime := by
  induction candidates using List.reverseRecOn with
  | nil =>
      intro c hc
      cases hc
  | append_singleton candidates c ih =>
      simp only [earliestMs, List.foldl_append, List.foldl_cons, List.foldl_nil, Dict.get_set]
      rw [← earliestMs]
      by_cases hk : c.kind = k
      · subst hk
        simp only [if_true]
        cases hget : Dict.get (earliestMs candidates) c.kind with
        | none =>
            rw [hget] at ih
            refine ⟨⟨c, by simp, rfl, rfl⟩, fun other hother hkind => ?_⟩
            rcases List.mem_append.mp hother with hother | hother
            · exact absurd hkind (ih other hother)
            · rw [List.mem_singleton.mp hother]
        | some prior =>
            rw [hget] at ih
            obtain ⟨⟨first, hfirst, hkind, hstart⟩, hle⟩ := ih
            refine ⟨?_, fun other hother hkind' => ?_⟩
            · rcases min_choice prior c.itinerary.startTime with hmin | hmin
              · exact ⟨first, List.mem_append_left _ hfirst, hkind, hstart.trans hmin.symm⟩
              · exact ⟨c, by simp, rfl, hmin.symm⟩
            · rcases List.mem_append.mp hother with hother | hother
              · exact (min_le_left _ _).trans (hle other hother hkind')
              · rw [List.mem_singleton.mp hother]
                exact min_le_right _ _
      · simp only [hk, if_false]
        split
        · rename_i hget
          rw [hget] at ih
          intro other hother
          rcases List.mem_append.mp hother with hother | hother
          · exact ih other hother
          · rw [List.mem_singleton.mp hother]
            exact hk
        · rename_i start hget
          rw [hget] at ih
          obtain ⟨⟨first, hfirst, hrest⟩, hle⟩ := ih
          refine ⟨⟨first, List.mem_append_left _ hfirst, hrest⟩, fun other hother hkind => ?_⟩
          rcases List.mem_append.mp hother with hother | hother
          · exact hle other hother hkind
          · rw [List.mem_singleton.mp hother] at hkind
            exact absurd hkind hk

/-- Delays are counted from the kind's earliest candidate. -/
theorem exists_earliest {k : OptionKind} (hk : ∃ c ∈ candidates, c.kind = k) :
    ∃ first ∈ candidates, first.kind = k ∧
      (∀ c ∈ candidates, c.kind = k → first.itinerary.startTime ≤ c.itinerary.startTime) ∧
      ∀ c : Candidate, c.kind = k → delayMin (earliestMs candidates) c =
        (c.itinerary.startTime - first.itinerary.startTime : ℚ) / 60000 := by
  have hspec := get_earliestMs candidates k
  obtain ⟨c, hc, hkind⟩ := hk
  cases hget : Dict.get (earliestMs candidates) k with
  | none =>
      rw [hget] at hspec
      exact absurd hkind (hspec c hc)
  | some start =>
      rw [hget] at hspec
      obtain ⟨⟨first, hfirst, hfirst_kind, rfl⟩, hle⟩ := hspec
      refine ⟨first, hfirst, hfirst_kind, hle, fun c hkind => ?_⟩
      rw [delayMin, hkind, hget, Option.getD_some]

/-! ## The winner of a kind -/

theorem bestPerKind_eq :
    bestPerKind env candidates rain weights threshold =
      ((candidates.filter (competes weights candidates)).map
        (priced env candidates rain weights threshold)).foldl (Best.keep (·.kind) (·.cost)) [] := by
  rw [List.foldl_map, List.foldl_filter]
  simp only [bestPerKind]
  congr 1
  funext best c
  by_cases hlate : weights.maxDepartWaitMin < delayMin (earliestMs candidates) c
  · simp [competes, hlate]
  · simp only [competes, hlate, not_lt.mp hlate, decide_true, if_true, if_false, Best.keep, priced]
    generalize Dict.get best (ScoredCandidate.kind _) = current
    cases current with
    | none => rfl
    | some current => congr

/-- Of each kind, `rank` lists what its loop kept. -/
theorem find?_rank (k : OptionKind) :
    (rank env candidates rain weights threshold).find? (·.kind = k) =
      Dict.get (bestPerKind env candidates rain weights threshold) k := by
  obtain ⟨hunique, hkeys⟩ : Dict.Unique (bestPerKind env candidates rain weights threshold) ∧
      ∀ p ∈ bestPerKind env candidates rain weights threshold, p.2.kind = p.1 := by
    rw [bestPerKind_eq]
    exact Best.foldl_keep_unique _
  have hmem : ∀ s, s ∈ rank env candidates rain weights threshold ↔
      ∃ p ∈ bestPerKind env candidates rain weights threshold, p.2 = s := by
    intro s
    rw [rank, (List.perm_insertionSort _ _).mem_iff, List.mem_map]
  have hget : ∀ s ∈ rank env candidates rain weights threshold,
      Dict.get (bestPerKind env candidates rain weights threshold) s.kind = some s := by
    intro s hs
    obtain ⟨p, hp, rfl⟩ := (hmem s).mp hs
    rw [hkeys p hp]
    exact hunique.get_of_mem hp
  cases hfind : (rank env candidates rain weights threshold).find? (·.kind = k) with
  | some s =>
      have hkind : s.kind = k := by simpa using List.find?_some hfind
      rw [← hkind]
      exact (hget s (List.mem_of_find?_eq_some hfind)).symm
  | none =>
      cases hbest : Dict.get (bestPerKind env candidates rain weights threshold) k with
      | none => rfl
      | some s =>
          have hp := Dict.mem_of_get hbest
          have hkind : s.kind = k := hkeys _ hp
          have hnone := List.find?_eq_none.mp hfind s ((hmem s).mpr ⟨_, hp, rfl⟩)
          simp [hkind] at hnone

/-- The candidates of a kind within the departure cap. -/
def competitors (weights : Weights) (candidates : List Candidate) (k : OptionKind) :
    List Candidate :=
  candidates.filter fun c => c.kind = k ∧ competes weights candidates c = true

theorem mem_competitors {k : OptionKind} {c : Candidate} :
    c ∈ competitors weights candidates k ↔
      c ∈ candidates ∧ c.kind = k ∧ competes weights candidates c = true := by
  simp [competitors]

/-- `rank` lists a kind exactly if a candidate of it competes, and then the first of
    the cheapest competitors. -/
theorem find?_rank_spec (env : Env) (candidates : List Candidate) (rain : Option RainForecast)
    (weights : Weights) (threshold : ℚ) (k : OptionKind) :
    match (rank env candidates rain weights threshold).find? (·.kind = k) with
    | none => competitors weights candidates k = []
    | some s => ∃ c, s = priced env candidates rain weights threshold c ∧
        Best.FirstCheapest (fun c => (priced env candidates rain weights threshold c).cost)
          (competitors weights candidates k) c := by
  have hlist : ((candidates.filter (competes weights candidates)).map
      (priced env candidates rain weights threshold)).filter (·.kind = k) =
      (competitors weights candidates k).map (priced env candidates rain weights threshold) := by
    rw [List.filter_map, List.filter_filter, competitors]
    congr 1
    apply List.filter_congr
    intro c _
    simp
  have hkept : Best.Kept (·.cost)
      ((competitors weights candidates k).map (priced env candidates rain weights threshold))
      ((rank env candidates rain weights threshold).find? (·.kind = k)) := by
    rw [find?_rank, bestPerKind_eq, ← hlist]
    exact Best.get_foldl_keep _ k
  cases hfind : (rank env candidates rain weights threshold).find? (·.kind = k) with
  | none =>
      rw [hfind] at hkept
      exact List.map_eq_nil_iff.mp hkept
  | some s =>
      rw [hfind] at hkept
      exact Best.FirstCheapest.of_map hkept

/-- The winner of a kind that occurs: a candidate of that kind within the cap, and
    none of those within the cap costs less. -/
theorem exists_winner {k : OptionKind} (hk : ∃ c ∈ candidates, c.kind = k)
    (hcap : 0 ≤ weights.maxDepartWaitMin) :
    ∃ c ∈ candidates, c.kind = k ∧ competes weights candidates c = true ∧
      (rank env candidates rain weights threshold).find? (·.kind = k) =
        some (priced env candidates rain weights threshold c) ∧
      ∀ other ∈ candidates, other.kind = k → competes weights candidates other = true →
        (priced env candidates rain weights threshold c).cost ≤
          (priced env candidates rain weights threshold other).cost := by
  obtain ⟨first, hfirst, hfirst_kind, _, hdelay⟩ := exists_earliest hk
  have hcompetes : competes weights candidates first = true := by
    simp [competes, hdelay first hfirst_kind, hcap]
  have hspec := find?_rank_spec env candidates rain weights threshold k
  cases hfind : (rank env candidates rain weights threshold).find? (·.kind = k) with
  | none =>
      rw [hfind] at hspec
      have hmem := mem_competitors.mpr ⟨hfirst, hfirst_kind, hcompetes⟩
      rw [show competitors weights candidates k = [] from hspec] at hmem
      cases hmem
  | some winner =>
      rw [hfind] at hspec
      obtain ⟨c, rfl, hcheapest⟩ := hspec
      obtain ⟨hc, hkind, hok⟩ := mem_competitors.mp hcheapest.mem
      refine ⟨c, hc, hkind, hok, rfl, ?_⟩
      intro other hother hkind' hok'
      exact hcheapest.le (mem_competitors.mpr ⟨hother, hkind', hok'⟩)

/-! ## The specification of `rank` -/

/-- A candidate's cost among those of its kind, of which the first departs at `earliest`:
    the score plus what the minutes waited for it cost, rounded. -/
def adjustedCost (env : Env) (rain : Option RainForecast) (weights : Weights) (threshold : ℚ)
    (earliest : Int) (c : Candidate) : ℚ :=
  roundTo 4 ((score env c rain weights threshold).cost +
    (c.itinerary.startTime - earliest : ℚ) / 60000 * weights.departDelayFactor)

/-- The candidates of a kind that depart within the cap after `earliest`. -/
def withinCap (candidates : List Candidate) (weights : Weights) (k : OptionKind)
    (earliest : Int) : List Candidate :=
  candidates.filter fun c => c.kind = k ∧
    (c.itinerary.startTime - earliest : ℚ) / 60000 ≤ weights.maxDepartWaitMin

/-- What a ranking of the candidates has to be: one entry for each kind that occurs,
    the first of the cheapest within the cap, sorted. -/
structure RankSpec (env : Env) (candidates : List Candidate) (rain : Option RainForecast)
    (weights : Weights) (threshold : ℚ) (ranking : List ScoredCandidate) : Prop where
  one_per_kind : (ranking.map (·.kind)).Nodup
  kind_occurs : ∀ k, (∃ s ∈ ranking, s.kind = k) ↔ ∃ c ∈ candidates, c.kind = k
  first_cheapest : ∀ s ∈ ranking, ∃ earliest c,
    IsLeast {start | ∃ c ∈ candidates, c.kind = s.kind ∧ c.itinerary.startTime = start} earliest ∧
    Best.FirstCheapest (adjustedCost env rain weights threshold earliest)
      (withinCap candidates weights s.kind earliest) c ∧
    s.itinerary = c.itinerary ∧
    s.cost = adjustedCost env rain weights threshold earliest c ∧
    s.rainMinutes = (score env c rain weights threshold).rainMinutes
  sorted : ranking.Pairwise comesFirst

theorem bestPerKind_unique (env : Env) (candidates : List Candidate) (rain : Option RainForecast)
    (weights : Weights) (threshold : ℚ) :
    Dict.Unique (bestPerKind env candidates rain weights threshold) ∧
      ∀ p ∈ bestPerKind env candidates rain weights threshold, p.2.kind = p.1 := by
  rw [bestPerKind_eq]
  exact Best.foldl_keep_unique _

theorem rank_nodup_kind :
    ((rank env candidates rain weights threshold).map (·.kind)).Nodup := by
  obtain ⟨hunique, hkeys⟩ := bestPerKind_unique env candidates rain weights threshold
  have hkinds : ((bestPerKind env candidates rain weights threshold).map (·.2)).map (·.kind) =
      (bestPerKind env candidates rain weights threshold).map (·.1) := by
    rw [List.map_map]
    exact List.map_congr_left hkeys
  have hperm := (List.perm_insertionSort comesFirst
    ((bestPerKind env candidates rain weights threshold).map (·.2))).map (·.kind)
  rw [hkinds] at hperm
  exact hperm.nodup_iff.mpr hunique

/-- The entry of a kind is the one the search for the kind finds. -/
theorem find?_rank_of_mem {s : ScoredCandidate}
    (hs : s ∈ rank env candidates rain weights threshold) :
    (rank env candidates rain weights threshold).find? (·.kind = s.kind) = some s := by
  cases hfind : (rank env candidates rain weights threshold).find? (·.kind = s.kind) with
  | none =>
      have hnone := List.find?_eq_none.mp hfind s hs
      simp at hnone
  | some t =>
      have hkind : t.kind = s.kind := by simpa using List.find?_some hfind
      have ht := List.mem_of_find?_eq_some hfind
      have heq := List.inj_on_of_nodup_map rank_nodup_kind ht hs hkind
      rw [heq]

/-- The sort key as a point of the lexicographic order. -/
def sortKey (s : ScoredCandidate) : ℚ ×ₗ ℚ ×ₗ String :=
  toLex (s.cost, toLex (s.itinerary.duration, s.kind.name))

theorem comesFirst_iff {s t : ScoredCandidate} : comesFirst s t ↔ sortKey s ≤ sortKey t := by
  simp only [comesFirst, sortKey, Prod.Lex.toLex_le_toLex]

/-- An entry of the ranking is the first of the cheapest competitors of its kind. -/
theorem exists_cheapest_of_mem_rank {s : ScoredCandidate}
    (hs : s ∈ rank env candidates rain weights threshold) :
    ∃ c, s = priced env candidates rain weights threshold c ∧
      Best.FirstCheapest (fun c => (priced env candidates rain weights threshold c).cost)
        (competitors weights candidates s.kind) c := by
  have hspec := find?_rank_spec env candidates rain weights threshold s.kind
  rw [find?_rank_of_mem hs] at hspec
  exact hspec

theorem rank_sorted : (rank env candidates rain weights threshold).Pairwise comesFirst := by
  have htotal : Std.Total comesFirst :=
    ⟨fun s t => by simpa only [comesFirst_iff] using le_total (sortKey s) (sortKey t)⟩
  have htrans : IsTrans ScoredCandidate comesFirst :=
    ⟨fun s t u => by simpa only [comesFirst_iff] using le_trans (a := sortKey s)⟩
  exact List.pairwise_insertionSort comesFirst _

/-- With the kind's earliest departure known, the cap and the price of the wait are
    those of the specification. -/
theorem competitors_eq_withinCap {k : OptionKind} {earliest : Int}
    (hdelay : ∀ c : Candidate, c.kind = k → delayMin (earliestMs candidates) c =
      (c.itinerary.startTime - earliest : ℚ) / 60000) :
    competitors weights candidates k = withinCap candidates weights k earliest := by
  unfold competitors withinCap competes
  apply List.filter_congr
  intro c _
  by_cases hkind : c.kind = k
  · simp [hkind, hdelay c hkind]
  · simp [hkind]

theorem priced_cost {c : Candidate} {earliest : Int}
    (hdelay : delayMin (earliestMs candidates) c =
      (c.itinerary.startTime - earliest : ℚ) / 60000) :
    (priced env candidates rain weights threshold c).cost =
      adjustedCost env rain weights threshold earliest c := by
  unfold priced adjustedScore adjustedCost
  rw [← hdelay]
  split
  · rfl
  · rename_i hzero
    rw [not_not.mp hzero]
    simp [score]

theorem priced_rainMinutes (c : Candidate) :
    (priced env candidates rain weights threshold c).rainMinutes =
      (score env c rain weights threshold).rainMinutes := by
  unfold priced adjustedScore
  split <;> rfl

/-- **`rank` meets its specification**, for every list of candidates and every weights
    whose departure cap is not negative. -/
theorem rank_meets_spec (env : Env) (candidates : List Candidate) (rain : Option RainForecast)
    (weights : Weights) (threshold : ℚ) (hcap : 0 ≤ weights.maxDepartWaitMin) :
    RankSpec env candidates rain weights threshold
      (rank env candidates rain weights threshold) where
  one_per_kind := rank_nodup_kind
  kind_occurs k := by
    constructor
    · rintro ⟨s, hs, rfl⟩
      obtain ⟨c, rfl, hcheapest⟩ := exists_cheapest_of_mem_rank hs
      exact ⟨c, (mem_competitors.mp hcheapest.mem).1, by simp⟩
    · intro hk
      obtain ⟨c, _, hkind, _, hfind, _⟩ := @exists_winner env _ rain _ threshold k hk hcap
      exact ⟨_, List.mem_of_find?_eq_some hfind, by simpa using hkind⟩
  first_cheapest s hs := by
    obtain ⟨c, rfl, hcheapest⟩ := exists_cheapest_of_mem_rank hs
    obtain ⟨hc, hkind, _⟩ := mem_competitors.mp hcheapest.mem
    obtain ⟨first, hfirst, hfirst_kind, hle, hdelay⟩ := exists_earliest ⟨c, hc, hkind⟩
    refine ⟨first.itinerary.startTime, c, ⟨⟨first, hfirst, hfirst_kind, rfl⟩, ?_⟩, ?_,
      priced_itinerary c, priced_cost (hdelay c hkind), priced_rainMinutes c⟩
    · rintro start ⟨other, hother, hother_kind, rfl⟩
      exact hle other hother hother_kind
    · rw [competitors_eq_withinCap hdelay] at hcheapest
      refine hcheapest.congr ?_
      intro other hother
      have hother_kind := (List.mem_filter.mp hother).2
      exact priced_cost (hdelay other (of_decide_eq_true hother_kind).1)
  sorted := rank_sorted

/-- Two rides, the second leaving ten minutes later, and a tram. -/
def twoRidesAndATram : List Candidate :=
  [⟨.bike, ⟨1200, 0, 1200000, []⟩⟩, ⟨.bike, ⟨600, 600000, 1200000, []⟩⟩,
    ⟨.transit, ⟨900, 0, 900000, []⟩⟩]

theorem rank_meets_spec_twoRidesAndATram :
    RankSpec flatEnv twoRidesAndATram none defaultWeights
      defaultRainThresholdMmH (rank flatEnv twoRidesAndATram none) :=
  rank_meets_spec _ _ _ _ _ (by decide)

end FietsOfOv
