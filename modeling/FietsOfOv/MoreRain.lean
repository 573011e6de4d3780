import FietsOfOv.Ranking
import Mathlib.Data.List.Perm.Subperm

/-!
# More rain never makes anything cheaper

Two forecasts are compared of which the second has some slots raised and further
slots added.  The wet slots of a leg, their number, their peak, the band the peak
falls into and so the leg's cost only grow, and the rounding and the choice per kind
keep the order.
-/

namespace FietsOfOv

open Decimal

variable {env : Env} {rain more : RainForecast} {weights : Weights} {threshold : ℚ}

/-- The rain is raised in some slots, and slots are added anywhere. -/
def Raised (slots more : List RainSlot) : Prop :=
  ∃ raised : List RainSlot,
    List.Forall₂ (fun s t => s.time = t.time ∧ s.mmPerH ≤ t.mmPerH) slots raised ∧
    raised.Subperm more

/-- What wets a window still wets it, and nothing drops out. -/
theorem Raised.filter {slots more : List RainSlot} (h : Raised slots more) {p : RainSlot → Bool}
    (hp : ∀ s t : RainSlot, s.time = t.time → s.mmPerH ≤ t.mmPerH → p s = true → p t = true) :
    Raised (slots.filter p) (more.filter p) := by
  obtain ⟨raised, hraised, hadded⟩ := h
  suffices hkeep : Raised (slots.filter p) (raised.filter p) by
    obtain ⟨kept, hkept, hsub⟩ := hkeep
    exact ⟨kept, hkept, hsub.trans (hadded.filter p)⟩
  clear hadded
  induction hraised with
  | nil => exact ⟨[], .nil, List.Subperm.refl _⟩
  | @cons s t slots raised hst _ ih =>
      obtain ⟨kept, hkept, hsub⟩ := ih
      by_cases hs : p s = true
      · refine ⟨t :: kept, ?_, ?_⟩
        · rw [List.filter_cons_of_pos hs]
          exact .cons hst hkept
        · rw [List.filter_cons_of_pos (hp s t hst.1 hst.2 hs)]
          exact (List.subperm_cons t).mpr hsub
      · refine ⟨kept, ?_, hsub.trans ((List.sublist_cons_self t raised).filter p).subperm⟩
        rw [List.filter_cons_of_neg hs]
        exact hkept

theorem Raised.length_le {slots more : List RainSlot} (h : Raised slots more) :
    slots.length ≤ more.length := by
  obtain ⟨raised, hraised, hadded⟩ := h
  rw [hraised.length_eq]
  exact hadded.length_le

theorem Raised.exists_le {slots more : List RainSlot} (h : Raised slots more) {s : RainSlot}
    (hs : s ∈ slots) : ∃ t ∈ more, s.mmPerH ≤ t.mmPerH := by
  obtain ⟨raised, hraised, hadded⟩ := h
  suffices hraise : ∃ t ∈ raised, s.mmPerH ≤ t.mmPerH by
    obtain ⟨t, ht, hle⟩ := hraise
    exact ⟨t, hadded.subset ht, hle⟩
  clear hadded
  induction hraised with
  | nil => cases hs
  | @cons s' t slots raised hst _ ih =>
      rcases List.mem_cons.mp hs with rfl | hs
      · exact ⟨t, List.mem_cons_self, hst.2⟩
      · obtain ⟨u, hu, hle⟩ := ih hs
        exact ⟨u, List.mem_cons_of_mem t hu, hle⟩

/-- The band penalties in order, the heavy one last. -/
def Weights.penalties (weights : Weights) : List ℚ :=
  weights.rainBands.map (·.2) ++ [weights.heavyPenalty]

structure Weights.Graded (weights : Weights) : Prop where
  nonneg : ∀ penalty ∈ weights.penalties, 0 ≤ penalty
  ordered : weights.penalties.Pairwise (· ≤ ·)

theorem defaultWeights_graded : defaultWeights.Graded where
  nonneg := by decide +kernel
  ordered := by decide +kernel

/-! ## The penalty of a peak -/

theorem rainPenalty_mem (peak : ℚ) (weights : Weights) :
    rainPenalty peak weights ∈ weights.penalties := by
  unfold rainPenalty Weights.penalties
  split
  · rename_i band hband
    exact List.mem_append_left _ (List.mem_map_of_mem (List.mem_of_find?_eq_some hband))
  · exact List.mem_append_right _ (List.mem_singleton.mpr rfl)

/-- A higher peak falls into the same band or a later one. -/
theorem rainPenalty_mono (hweights : weights.Graded) {peak peak' : ℚ} (hle : peak ≤ peak') :
    rainPenalty peak weights ≤ rainPenalty peak' weights := by
  have hordered := hweights.ordered
  unfold rainPenalty
  unfold Weights.penalties at hordered
  generalize weights.rainBands = bands at hordered
  induction bands with
  | nil => exact le_refl _
  | cons band bands ih =>
      simp only [List.map_cons, List.cons_append, List.pairwise_cons] at hordered
      obtain ⟨hfirst, hrest⟩ := hordered
      by_cases hband' : peak' < band.1
      · simp [hband', lt_of_le_of_lt hle hband']
      · by_cases hband : peak < band.1
        · simp only [List.find?_cons, hband, hband', decide_true, decide_false]
          apply hfirst
          split
          · rename_i later hlater
            exact List.mem_append_left _ (List.mem_map_of_mem (List.mem_of_find?_eq_some hlater))
          · exact List.mem_append_right _ (List.mem_singleton.mpr rfl)
        · simpa only [List.find?_cons, hband, hband', decide_false] using ih hrest

/-! ## The rain on one leg -/

theorem peakMmPerH_spec {slots : List RainSlot} (hne : slots ≠ []) :
    (∃ s ∈ slots, s.mmPerH = peakMmPerH slots) ∧ ∀ s ∈ slots, s.mmPerH ≤ peakMmPerH slots := by
  have hmax : (slots.map (·.mmPerH)).max? = some (peakMmPerH slots) := by
    cases slots with
    | nil => exact absurd rfl hne
    | cons s slots => rw [List.map_cons, List.max?_cons', List.foldl_map, peakMmPerH]
  obtain ⟨hmem, hle⟩ := List.max?_eq_some_iff.mp hmax
  constructor
  · exact List.mem_map.mp hmem
  · intro s hs
    exact hle _ (List.mem_map_of_mem hs)

/-- The forecast slots that wet a leg. -/
def wetSlots (env : Env) (leg : Leg) (rain : RainForecast) (threshold : ℚ) : List RainSlot :=
  rain.slots.filter fun s =>
    inTimeWindow s.time (localTime env leg.startTime) (localTime env leg.endTime) ∧
      threshold ≤ s.mmPerH

theorem legRain_of_dry {leg : Leg} (hdry : wetSlots env leg rain threshold = []) :
    legRain env leg rain threshold = (0, 0) := if_pos hdry

theorem legRain_of_wet {leg : Leg} (hwet : wetSlots env leg rain threshold ≠ []) :
    legRain env leg rain threshold =
      (min (leg.duration / 60) (5 * (wetSlots env leg rain threshold).length),
        peakMmPerH (wetSlots env leg rain threshold)) := if_neg hwet

/-- What the rain on a leg adds to the cost, outside of shelter. -/
def legCost (env : Env) (leg : Leg) (rain : RainForecast) (weights : Weights) (threshold : ℚ) : ℚ :=
  (legRain env leg rain threshold).1 * rainPenalty (legRain env leg rain threshold).2 weights

theorem wetSlots_raised (env : Env) (threshold : ℚ) (hmore : Raised rain.slots more.slots)
    (leg : Leg) :
    Raised (wetSlots env leg rain threshold) (wetSlots env leg more threshold) := by
  refine hmore.filter ?_
  intro s t htime hle hs
  obtain ⟨hin, hwet⟩ := of_decide_eq_true hs
  rw [htime] at hin
  exact decide_eq_true ⟨hin, hwet.trans hle⟩

theorem exposed_nonneg {leg : Leg} (hdur : 0 ≤ leg.duration) :
    0 ≤ (legRain env leg rain threshold).1 := by
  by_cases hwet : wetSlots env leg rain threshold = []
  · rw [legRain_of_dry hwet]
  · rw [legRain_of_wet hwet]
    exact le_min (by positivity) (by positivity)

theorem legCost_nonneg (hweights : weights.Graded) {leg : Leg} (hdur : 0 ≤ leg.duration) :
    0 ≤ legCost env leg rain weights threshold :=
  mul_nonneg (exposed_nonneg hdur) (hweights.nonneg _ (rainPenalty_mem _ _))

theorem legCost_mono (hweights : weights.Graded) (hmore : Raised rain.slots more.slots) {leg : Leg}
    (hdur : 0 ≤ leg.duration) :
    legCost env leg rain weights threshold ≤ legCost env leg more weights threshold := by
  by_cases hwet : wetSlots env leg rain threshold = []
  · calc
      legCost env leg rain weights threshold = 0 := by simp [legCost, legRain_of_dry hwet]
      _ ≤ legCost env leg more weights threshold := legCost_nonneg hweights hdur
  · have hraised := wetSlots_raised env threshold hmore leg
    have hlength : ((wetSlots env leg rain threshold).length : ℚ) ≤
        (wetSlots env leg more threshold).length := by
      exact_mod_cast hraised.length_le
    have hwet' : wetSlots env leg more threshold ≠ [] := by
      rw [← List.length_pos_iff]
      exact lt_of_lt_of_le (List.length_pos_iff.mpr hwet) hraised.length_le
    have hexposed : (legRain env leg rain threshold).1 ≤ (legRain env leg more threshold).1 := by
      rw [legRain_of_wet hwet, legRain_of_wet hwet']
      exact min_le_min_left _ (mul_le_mul_of_nonneg_left hlength (by norm_num))
    have hpeak : (legRain env leg rain threshold).2 ≤ (legRain env leg more threshold).2 := by
      rw [legRain_of_wet hwet, legRain_of_wet hwet']
      obtain ⟨s, hs, heq⟩ := (peakMmPerH_spec hwet).1
      obtain ⟨t, ht, hle⟩ := hraised.exists_le hs
      calc
        peakMmPerH (wetSlots env leg rain threshold) = s.mmPerH := heq.symm
        _ ≤ t.mmPerH := hle
        _ ≤ peakMmPerH (wetSlots env leg more threshold) := (peakMmPerH_spec hwet').2 t ht
    exact mul_le_mul hexposed (rainPenalty_mono hweights hpeak)
      (hweights.nonneg _ (rainPenalty_mem _ _)) (exposed_nonneg hdur)

/-! ## The score of a candidate -/

theorem rainExposure_mono (hweights : weights.Graded) (hmore : Raised rain.slots more.slots)
    {legs : List Leg} (hdur : ∀ leg ∈ legs, 0 ≤ leg.duration) :
    (rainExposure env legs rain weights threshold).2 ≤
      (rainExposure env legs more weights threshold).2 := by
  unfold rainExposure
  refine List.foldl_rel (r := fun total total' : ℚ × ℚ => total.2 ≤ total'.2) (le_refl _) ?_
  intro leg hleg total total' htotal
  split
  · exact add_le_add htotal (legCost_mono hweights hmore (hdur leg hleg))
  · exact htotal

/-- Legs that no slot wets, and sheltered ones, expose nobody. -/
theorem rainExposure_eq_zero {legs : List Leg}
    (hdry : ∀ leg ∈ legs, leg.mode ∈ exposedModes → wetSlots env leg rain threshold = []) :
    rainExposure env legs rain weights threshold = (0, 0) := by
  unfold rainExposure
  refine List.foldlRecOn legs _ (motive := fun total => total = (0, 0)) rfl ?_
  intro total htotal leg hleg
  by_cases hmode : leg.mode ∈ exposedModes
  · simp [hmode, legRain_of_dry (hdry leg hleg hmode), htotal]
  · simp [hmode, htotal]

/-- The exposed minutes of the legs and what they cost, nothing without a forecast. -/
def rainPart (env : Env) (legs : List Leg) (rain : Option RainForecast) (weights : Weights)
    (threshold : ℚ) : ℚ × ℚ :=
  match rain with
  | some rain => rainExposure env legs rain weights threshold
  | none => (0, 0)

theorem score_congr {c : Candidate} {rain rain' : Option RainForecast}
    (heq : rainPart env c.itinerary.legs rain weights threshold =
      rainPart env c.itinerary.legs rain' weights threshold) :
    score env c rain weights threshold = score env c rain' weights threshold := by
  cases rain with
  | none =>
      cases rain' with
      | none => rfl
      | some rain' =>
          have hzero : rainExposure env c.itinerary.legs rain' weights threshold = (0, 0) :=
            heq.symm
          simp only [score, hzero]
  | some rain =>
      have hexposure : rainExposure env c.itinerary.legs rain weights threshold =
        rainPart env c.itinerary.legs rain' weights threshold := heq
      cases rain' with
      | none => simp only [score, hexposure, rainPart]
      | some rain' => simp only [score, hexposure, rainPart]

theorem score_cost_mono {c : Candidate} {rain rain' : Option RainForecast}
    (hle : (rainPart env c.itinerary.legs rain weights threshold).2 ≤
      (rainPart env c.itinerary.legs rain' weights threshold).2) :
    (score env c rain weights threshold).cost ≤ (score env c rain' weights threshold).cost := by
  cases rain <;> cases rain' <;> simp only [rainPart] at hle <;> simp only [score] <;>
    apply roundTo_mono <;> linarith

theorem priced_cost_mono {candidates : List Candidate} {c : Candidate}
    {rain rain' : Option RainForecast}
    (hle : (score env c rain weights threshold).cost ≤
      (score env c rain' weights threshold).cost) :
    (priced env candidates rain weights threshold c).cost ≤
      (priced env candidates rain' weights threshold c).cost := by
  unfold priced adjustedScore
  split
  · apply roundTo_mono
    linarith
  · exact hle

/-! ## The winners -/

/-- If no candidate gets cheaper, no kind's winner does. -/
theorem rank_cost_mono {candidates : List Candidate} {rain rain' : Option RainForecast}
    (hle : ∀ c ∈ candidates, (score env c rain weights threshold).cost ≤
      (score env c rain' weights threshold).cost) (k : OptionKind) :
    Option.Rel (fun s s' => s.cost ≤ s'.cost)
      ((rank env candidates rain weights threshold).find? (·.kind = k))
      ((rank env candidates rain' weights threshold).find? (·.kind = k)) := by
  have hspec := find?_rank_spec env candidates rain weights threshold k
  have hspec' := find?_rank_spec env candidates rain' weights threshold k
  cases hfind : (rank env candidates rain weights threshold).find? (·.kind = k) with
  | none =>
      rw [hfind] at hspec
      cases hfind' : (rank env candidates rain' weights threshold).find? (·.kind = k) with
      | none => exact .none
      | some s' =>
          rw [hfind'] at hspec'
          obtain ⟨c, _, hcheapest⟩ := hspec'
          have hmem := hcheapest.mem
          rw [show competitors weights candidates k = [] from hspec] at hmem
          cases hmem
  | some s =>
      rw [hfind] at hspec
      obtain ⟨c, rfl, hcheapest⟩ := hspec
      cases hfind' : (rank env candidates rain' weights threshold).find? (·.kind = k) with
      | none =>
          rw [hfind'] at hspec'
          have hmem := hcheapest.mem
          rw [show competitors weights candidates k = [] from hspec'] at hmem
          cases hmem
      | some s' =>
          rw [hfind'] at hspec'
          obtain ⟨c', rfl, hcheapest'⟩ := hspec'
          refine .some ?_
          -- the winner under the second forecast competed under the first one as well
          calc
            (priced env candidates rain weights threshold c).cost ≤
                (priced env candidates rain weights threshold c').cost :=
              hcheapest.le hcheapest'.mem
            _ ≤ (priced env candidates rain' weights threshold c').cost :=
              priced_cost_mono (hle c' (mem_competitors.mp hcheapest'.mem).1)

/-! ## The scores of one candidate -/

theorem score_eq_of_sheltered {c : Candidate} {rain more : RainForecast}
    (hsheltered : ∀ leg ∈ c.itinerary.legs, leg.mode ∉ ["WALK", "BICYCLE"]) :
    score env c (some rain) weights threshold = score env c (some more) weights threshold := by
  have hzero : ∀ rain : RainForecast,
      rainPart env c.itinerary.legs (some rain) weights threshold = (0, 0) := by
    intro rain
    apply rainExposure_eq_zero
    intro leg hleg hmode
    have := hsheltered leg hleg
    simp only [exposedModes, List.mem_cons, List.not_mem_nil, or_false] at hmode this
    tauto
  exact score_congr ((hzero rain).trans (hzero more).symm)

theorem score_none_eq_of_dry {c : Candidate} {dry : RainForecast}
    (hdry : ∀ s ∈ dry.slots, s.mmPerH < threshold) :
    score env c none weights threshold = score env c (some dry) weights threshold := by
  apply score_congr
  apply Eq.symm
  apply rainExposure_eq_zero
  intro leg _ _
  apply List.filter_eq_nil_iff.mpr
  intro s hs hwet
  exact absurd (of_decide_eq_true hwet).2 (not_le.mpr (hdry s hs))

/-- Any forecast adds slots to an empty one. -/
theorem score_none_le {c : Candidate} (hweights : weights.Graded)
    (hdur : ∀ leg ∈ c.itinerary.legs, 0 ≤ leg.duration) (rain : RainForecast) :
    (score env c none weights threshold).cost ≤
      (score env c (some rain) weights threshold).cost := by
  apply score_cost_mono
  have hempty : Raised (RainForecast.mk []).slots rain.slots :=
    ⟨[], .nil, List.nil_sublist _ |>.subperm⟩
  have hmono := @rainExposure_mono env _ _ _ threshold hweights hempty _ hdur
  rwa [rainExposure_eq_zero (fun _ _ _ => rfl)] at hmono

/-- **More rain never makes anything cheaper.**  Under graded weights, such as the
    default ones, raising and adding slots lowers no winner's cost, leaves a sheltered
    candidate's score as it is, and no forecast at all scores as a dry one, which is the
    least any forecast gives. -/
theorem more_rain_costs_more :
    defaultWeights.Graded ∧
    ∀ (env : Env) (candidates : List Candidate) (weights : Weights) (threshold : ℚ),
      weights.Graded →
      (∀ c ∈ candidates, ∀ leg ∈ c.itinerary.legs, 0 ≤ leg.duration) →
      (∀ rain more : RainForecast, Raised rain.slots more.slots →
        ∀ k, Option.Rel (fun s s' => s.cost ≤ s'.cost)
          ((rank env candidates (some rain) weights threshold).find? (·.kind = k))
          ((rank env candidates (some more) weights threshold).find? (·.kind = k))) ∧
      ∀ c ∈ candidates,
        ((∀ leg ∈ c.itinerary.legs, leg.mode ∉ ["WALK", "BICYCLE"]) → ∀ rain more : RainForecast,
          score env c (some rain) weights threshold = score env c (some more) weights threshold) ∧
        (∀ dry : RainForecast, (∀ s ∈ dry.slots, s.mmPerH < threshold) →
          score env c none weights threshold = score env c (some dry) weights threshold) ∧
        ∀ rain : RainForecast, (score env c none weights threshold).cost ≤
          (score env c (some rain) weights threshold).cost := by
  refine ⟨defaultWeights_graded, ?_⟩
  intro env candidates weights threshold hweights hdur
  refine ⟨?_, ?_⟩
  · intro rain more hmore k
    apply rank_cost_mono
    intro c hc
    exact score_cost_mono (rainExposure_mono hweights hmore (hdur c hc))
  · intro c hc
    exact ⟨fun hsheltered _ _ => score_eq_of_sheltered hsheltered,
      fun _ hdry => score_none_eq_of_dry hdry, fun rain => score_none_le hweights (hdur c hc) rain⟩

/-- A ride of ten minutes from midnight. -/
def midnightRide : Candidate :=
  ⟨.bike, ⟨600, 0, 600000,
    [{ mode := "BICYCLE", startTime := 0, endTime := 600000, duration := 600 }]⟩⟩

def midnight : WallClock.Time := ⟨0, by decide⟩

/-- Light rain at midnight, and the same slot raised behind a dry one. -/
def lightRain : RainForecast := ⟨[⟨midnight, 77, 1 / 10⟩]⟩

def downpour : RainForecast := ⟨[⟨midnight, 0, 0⟩, ⟨midnight, 141, 10⟩]⟩

theorem more_rain_costs_more_midnightRide :
    Option.Rel (fun s s' => s.cost ≤ s'.cost)
      ((rank flatEnv [midnightRide] (some lightRain)).find?
        (·.kind = .bike))
      ((rank flatEnv [midnightRide] (some downpour)).find?
        (·.kind = .bike)) := by
  have hraised : Raised lightRain.slots downpour.slots :=
    ⟨[⟨midnight, 141, 10⟩], .cons ⟨rfl, by decide +kernel⟩ .nil,
      (List.sublist_cons_self _ _).subperm⟩
  have hdur : ∀ c ∈ [midnightRide], ∀ leg ∈ c.itinerary.legs, 0 ≤ leg.duration := by
    decide +kernel
  exact (more_rain_costs_more.2 _ [midnightRide] defaultWeights defaultRainThresholdMmH
    defaultWeights_graded hdur).1 lightRain downpour hraised .bike

end FietsOfOv
