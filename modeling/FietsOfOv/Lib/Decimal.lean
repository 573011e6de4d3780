import FietsOfOv.Lib.Text
import Mathlib.Data.Rat.Floor
import Mathlib.Algebra.Group.Int.Even
import Mathlib.Data.Nat.Log
import Mathlib.Tactic.Linarith
import Mathlib.Tactic.Positivity

/-!
# Python's decimal rounding and number formats

`round` and the float formats `.2f` and `g`, read over exact rationals: ties
round to the even neighbour, and a negative number keeps its sign even where
the digits shown are all zero.
-/

namespace Decimal

/-- `round(x)`. -/
def roundHalfEven (x : ℚ) : Int :=
  let below := ⌊x⌋
  let rest := x - below
  if rest < 1 / 2 then below
  else if 1 / 2 < rest then below + 1
  else if below % 2 = 0 then below
  else below + 1

/-- `round(x, digits)`. -/
def roundTo (digits : Nat) (x : ℚ) : ℚ := roundHalfEven (x * 10 ^ digits) / 10 ^ digits

/-! ## Rounding to a nearest neighbour -/

theorem abs_roundHalfEven_sub_le (x : ℚ) : |(roundHalfEven x : ℚ) - x| ≤ 1 / 2 := by
  have hbelow := Int.floor_le x
  have habove := Int.lt_floor_add_one x
  simp only [roundHalfEven, abs_le]
  split_ifs with hlow hhigh
  · constructor <;> linarith
  · push_cast
    constructor <;> linarith
  · constructor <;> linarith
  · push_cast
    constructor <;> linarith

theorem abs_roundTo_sub_le (digits : Nat) (x : ℚ) :
    |roundTo digits x - x| ≤ 1 / 2 / 10 ^ digits := by
  have hscale : (0 : ℚ) < 10 ^ digits := by positivity
  have hnear := abs_roundHalfEven_sub_le (x * 10 ^ digits)
  have hsub : roundTo digits x - x =
      (roundHalfEven (x * 10 ^ digits) - x * 10 ^ digits) / 10 ^ digits := by
    rw [roundTo]
    field_simp
  rw [hsub, abs_div, abs_of_pos hscale]
  gcongr

/-- A rounded total differs from the total of the rounded terms by their roundings. -/
theorem abs_roundTo_sum_sub_le (digits : Nat) (xs : List ℚ) :
    |roundTo digits xs.sum - (xs.map (roundTo digits)).sum| ≤
      (xs.length + 1) * (1 / 2 / 10 ^ digits) := by
  have hterms : |xs.sum - (xs.map (roundTo digits)).sum| ≤ xs.length * (1 / 2 / 10 ^ digits) := by
    induction xs with
    | nil => simp
    | cons x xs ih =>
        have hx := abs_roundTo_sub_le digits x
        rw [abs_le] at hx ih ⊢
        rw [List.map_cons, List.sum_cons, List.sum_cons, List.length_cons]
        push_cast
        constructor <;> linarith [hx.1, hx.2, ih.1, ih.2]
  have htotal := abs_roundTo_sub_le digits xs.sum
  rw [abs_le] at hterms htotal ⊢
  constructor <;> linarith [hterms.1, hterms.2, htotal.1, htotal.2]

/-- A tie goes to the even neighbour. -/
theorem roundHalfEven_tie {x : ℚ} (htie : |(roundHalfEven x : ℚ) - x| = 1 / 2) :
    Even (roundHalfEven x) := by
  have hbelow := Int.floor_le x
  have habove := Int.lt_floor_add_one x
  simp only [roundHalfEven] at htie ⊢
  split_ifs at htie ⊢ with hlow hhigh heven
  · rw [abs_of_nonpos (by linarith)] at htie
    linarith
  · push_cast at htie
    rw [abs_of_pos (by linarith)] at htie
    linarith
  · exact Int.even_iff.mpr heven
  · rw [Int.even_iff]
    omega

/-- Two integers within half a unit of one point are half a unit off it, a unit apart. -/
theorem halfway_of_lt {x : ℚ} {m n : Int} (hm : |(m : ℚ) - x| ≤ 1 / 2) (hn : |(n : ℚ) - x| ≤ 1 / 2)
    (hlt : m < n) : |(m : ℚ) - x| = 1 / 2 ∧ |(n : ℚ) - x| = 1 / 2 ∧ n = m + 1 := by
  have hstep : (m : ℚ) + 1 ≤ n := by exact_mod_cast Int.add_one_le_of_lt hlt
  have hm' := abs_le.mp hm
  have hn' := abs_le.mp hn
  refine ⟨?_, ?_, ?_⟩
  · rw [abs_of_nonpos (by linarith)]
    linarith
  · rw [abs_of_nonneg (by linarith)]
    linarith
  · have hcast : (n : ℚ) = m + 1 := by linarith
    exact_mod_cast hcast

/-- The neighbour within half a unit, and the even one of two. -/
theorem roundHalfEven_unique {x : ℚ} {n : Int} (hnear : |(n : ℚ) - x| ≤ 1 / 2)
    (htie : |(n : ℚ) - x| = 1 / 2 → Even n) : n = roundHalfEven x := by
  have hround := abs_roundHalfEven_sub_le x
  by_contra hne
  -- a unit apart, so both are half a unit off and even
  rcases lt_or_gt_of_ne hne with hlt | hlt
  · obtain ⟨hhalf, hhalf', hstep⟩ := halfway_of_lt hnear hround hlt
    have heven := Int.even_iff.mp (htie hhalf)
    have heven' := Int.even_iff.mp (roundHalfEven_tie hhalf')
    omega
  · obtain ⟨hhalf, hhalf', hstep⟩ := halfway_of_lt hround hnear hlt
    have heven := Int.even_iff.mp (roundHalfEven_tie hhalf)
    have heven' := Int.even_iff.mp (htie hhalf')
    omega

theorem roundHalfEven_neg (x : ℚ) : roundHalfEven (-x) = -roundHalfEven x := by
  have hflip : |((-roundHalfEven x : Int) : ℚ) - -x| = |(roundHalfEven x : ℚ) - x| := by
    rw [← abs_neg]
    congr 1
    push_cast
    ring
  apply Eq.symm
  apply roundHalfEven_unique
  · rw [hflip]
    exact abs_roundHalfEven_sub_le x
  · intro htie
    rw [hflip] at htie
    exact (roundHalfEven_tie htie).neg

@[simp] theorem roundHalfEven_intCast (n : Int) : roundHalfEven n = n := by
  simp [roundHalfEven]

theorem roundHalfEven_mono {x y : ℚ} (hle : x ≤ y) : roundHalfEven x ≤ roundHalfEven y := by
  apply le_of_not_gt
  intro hgt
  -- the two results differ by a whole unit, so both sit half a unit off and `x = y`
  have hstep : (roundHalfEven y : ℚ) + 1 ≤ roundHalfEven x := by
    exact_mod_cast Int.add_one_le_of_lt hgt
  have hx := (abs_le.mp (abs_roundHalfEven_sub_le x)).2
  have hy := (abs_le.mp (abs_roundHalfEven_sub_le y)).1
  have heq : x = y := by linarith
  rw [heq] at hgt
  exact lt_irrefl _ hgt

theorem roundTo_mono (digits : Nat) {x y : ℚ} (hle : x ≤ y) :
    roundTo digits x ≤ roundTo digits y := by
  have hscaled : x * 10 ^ digits ≤ y * 10 ^ digits :=
    mul_le_mul_of_nonneg_right hle (by positivity)
  have hround : (roundHalfEven (x * 10 ^ digits) : ℚ) ≤ roundHalfEven (y * 10 ^ digits) := by
    exact_mod_cast roundHalfEven_mono hscaled
  exact div_le_div_of_nonneg_right hround (by positivity)

@[simp] theorem roundTo_roundTo (digits : Nat) (x : ℚ) :
    roundTo digits (roundTo digits x) = roundTo digits x := by
  have hscale : (10 : ℚ) ^ digits ≠ 0 := by positivity
  simp only [roundTo, div_mul_cancel₀ _ hscale, roundHalfEven_intCast]

/-! ## Number formats -/

def zeroPad (width n : Nat) : String :=
  String.ofList (List.replicate (width - (toString n).length) '0') ++ toString n

def minus (x : ℚ) : String := if x < 0 then "-" else ""

/-- `f"{x:.<digits>f}"`. -/
def formatFixed (digits : Nat) (x : ℚ) : String :=
  let n := (roundHalfEven (|x| * 10 ^ digits)).toNat
  minus x ++ toString (n / 10 ^ digits) ++
    if digits = 0 then "" else "." ++ zeroPad digits (n % 10 ^ digits)

/-- The `e` with `10 ^ e ≤ a < 10 ^ (e + 1)`, for a positive `a`. -/
def exponent (a : ℚ) : Int :=
  if 1 ≤ a then Nat.log 10 ⌊a⌋.toNat else -(Nat.clog 10 ⌈1 / a⌉.toNat : Int)

/-- The fraction part of a `g` format: trailing zeros and a bare point are dropped. -/
def fraction (width n : Nat) : String :=
  let digits := ((zeroPad width n).toList.reverse.dropWhile (· == '0')).reverse
  if digits = [] then "" else "." ++ String.ofList digits

/-- `f"{x:g}"`: six significant digits, scientific below `1e-4` and from `1e6` on. -/
def formatG (x : ℚ) : String :=
  if x = 0 then "0"
  else
    let guess := exponent |x|
    let digits := (roundHalfEven (|x| * (10 : ℚ) ^ (5 - guess))).toNat
    -- rounding up to the next power of ten moves the exponent
    let m := if digits = 1000000 then 100000 else digits
    let e := if digits = 1000000 then guess + 1 else guess
    minus x ++
      if -4 ≤ e ∧ e < 6 then
        let places := (5 - e).toNat
        toString (m / 10 ^ places) ++
          if places = 0 then "" else fraction places (m % 10 ^ places)
      else
        toString (m / 100000) ++ fraction 5 (m % 100000) ++
          (if e < 0 then "e-" else "e+") ++ zeroPad 2 e.natAbs

/-! ## Reading a number back -/

theorem isDigit_of_mem_zeroPad {width n : Nat} {c : Char} (hc : c ∈ (zeroPad width n).toList) :
    c.isDigit = true := by
  rw [zeroPad, String.toList_append, String.toList_ofList, Nat.toString_eq_repr, Nat.toList_repr,
    List.mem_append] at hc
  rcases hc with hc | hc
  · rw [List.eq_of_mem_replicate hc]
    decide
  · exact Nat.isDigit_of_mem_toDigits (by decide) (by decide) hc

/-- The digits are the number's. -/
theorem ofDigitChars_zeroPad (width n : Nat) :
    Nat.ofDigitChars 10 (zeroPad width n).toList 0 = n := by
  rw [zeroPad, String.toList_append, String.toList_ofList, Nat.toString_eq_repr, Nat.toList_repr,
    Nat.ofDigitChars_append, Nat.ofDigitChars_replicate_zero, Nat.mul_zero,
    Nat.ofDigitChars_ten_toDigits]

/-- A number in front of what is no digit can be read back. -/
theorem zeroPad_append_inj {width width' n n' : Nat} {rest rest' : List Char}
    (hrest : Text.Stops Char.isDigit rest) (hrest' : Text.Stops Char.isDigit rest')
    (heq : (zeroPad width n).toList ++ rest = (zeroPad width' n').toList ++ rest') :
    n = n' ∧ rest = rest' := by
  obtain ⟨hdigits, hrest⟩ := Text.append_inj_of_stops (fun _ => isDigit_of_mem_zeroPad)
    (fun _ => isDigit_of_mem_zeroPad) hrest hrest' heq
  refine ⟨?_, hrest⟩
  rw [← ofDigitChars_zeroPad width n, hdigits, ofDigitChars_zeroPad]

theorem roundHalfEven_nonneg {x : ℚ} (hx : 0 ≤ x) : 0 ≤ roundHalfEven x := by
  have hmono := roundHalfEven_mono hx
  rwa [← Int.cast_zero, roundHalfEven_intCast] at hmono

/-- The digits a fixed format shows, as one number. -/
def fixedDigits (digits : Nat) (x : ℚ) : Nat := (roundHalfEven (|x| * 10 ^ digits)).toNat

/-- A fixed format shows the sign and the rounded digits, nothing else. -/
theorem formatFixed_congr {digits : Nat} {x y : ℚ} (hsign : x < 0 ↔ y < 0)
    (hdigits : fixedDigits digits x = fixedDigits digits y) :
    formatFixed digits x = formatFixed digits y := by
  unfold fixedDigits at hdigits
  simp only [formatFixed, minus, hsign, hdigits]

theorem toList_formatFixed {digits : Nat} (hdigits : digits ≠ 0) (x : ℚ) :
    (formatFixed digits x).toList = (if x < 0 then ['-'] else []) ++
      ((zeroPad 0 (fixedDigits digits x / 10 ^ digits)).toList ++
        '.' :: (zeroPad digits (fixedDigits digits x % 10 ^ digits)).toList) := by
  have hminus : (minus x).toList = if x < 0 then ['-'] else [] := by
    unfold minus
    split <;> rfl
  simp [formatFixed, fixedDigits, hdigits, hminus, zeroPad]

/-- A fixed format uses digits, a point and a dash. -/
theorem mem_formatFixed {digits : Nat} (hdigits : digits ≠ 0) {x : ℚ} {c : Char}
    (hc : c ∈ (formatFixed digits x).toList) : c.isDigit = true ∨ c = '.' ∨ c = '-' := by
  rw [toList_formatFixed hdigits, List.mem_append, List.mem_append, List.mem_cons] at hc
  rcases hc with hc | hc | hc | hc
  · split at hc
    · exact Or.inr (Or.inr (List.mem_singleton.mp hc))
    · cases hc
  · exact Or.inl (isDigit_of_mem_zeroPad hc)
  · exact Or.inr (Or.inl hc)
  · exact Or.inl (isDigit_of_mem_zeroPad hc)

theorem roundTo_eq_fixedDigits (digits : Nat) (x : ℚ) :
    roundTo digits x =
      (if x < 0 then -(fixedDigits digits x : ℚ) else fixedDigits digits x) / 10 ^ digits := by
  have hnonneg : 0 ≤ roundHalfEven (|x| * 10 ^ digits) := roundHalfEven_nonneg (by positivity)
  have hcast : (fixedDigits digits x : ℚ) = roundHalfEven (|x| * 10 ^ digits) := by
    rw [fixedDigits, ← Int.cast_natCast, Int.toNat_of_nonneg hnonneg]
  rw [hcast, roundTo]
  split
  · rename_i hneg
    rw [abs_of_neg hneg, neg_mul, roundHalfEven_neg]
    push_cast
    rw [neg_neg]
  · rename_i hpos
    rw [abs_of_nonneg (not_lt.mp hpos)]

/-- What follows the sign begins with a digit, so the sign can be read off. -/
theorem sign_append_inj {x y : ℚ} {n n' : Nat} {rest rest' : List Char}
    (heq : (if x < 0 then ['-'] else []) ++ ((zeroPad 0 n).toList ++ '.' :: rest) =
      (if y < 0 then ['-'] else []) ++ ((zeroPad 0 n').toList ++ '.' :: rest')) :
    (x < 0 ↔ y < 0) ∧
      (zeroPad 0 n).toList ++ '.' :: rest = (zeroPad 0 n').toList ++ '.' :: rest' := by
  have hdigits : ∀ (n : Nat) (rest : List Char),
      Text.Stops (· == '-') ((zeroPad 0 n).toList ++ '.' :: rest) := by
    intro n rest
    cases hdigits : (zeroPad 0 n).toList with
    | nil => simp
    | cons c cs =>
        have hdigit : c.isDigit = true := isDigit_of_mem_zeroPad (hdigits ▸ List.mem_cons_self)
        rw [List.cons_append, Text.stops_cons, beq_eq_false_iff_ne]
        rintro rfl
        cases hdigit
  have hdash : ∀ z : ℚ, ∀ c ∈ (if z < 0 then ['-'] else []), (c == '-') = true := by
    intro z c hc
    split at hc <;> simp_all
  obtain ⟨hsign, hrest⟩ := Text.append_inj_of_stops (hdash x) (hdash y) (hdigits _ _)
    (hdigits _ _) heq
  refine ⟨?_, hrest⟩
  by_cases hx : x < 0 <;> by_cases hy : y < 0 <;> simp only [hx, hy, if_true, if_false] at hsign ⊢
  · cases hsign
  · cases hsign

/-- A text of a fixed format belongs to one rounded number. -/
theorem roundTo_eq_of_formatFixed_eq {digits : Nat} (hdigits : digits ≠ 0) {x y : ℚ}
    (heq : formatFixed digits x = formatFixed digits y) : roundTo digits x = roundTo digits y := by
  have htext := congrArg String.toList heq
  rw [toList_formatFixed hdigits, toList_formatFixed hdigits] at htext
  have hdot : ∀ rest : List Char, Text.Stops Char.isDigit ('.' :: rest) := fun rest => by
    rw [Text.stops_cons]
    decide
  obtain ⟨hsign, hdigits'⟩ := sign_append_inj htext
  obtain ⟨hwhole, hrest⟩ := zeroPad_append_inj (hdot _) (hdot _) hdigits'
  rw [List.cons.injEq] at hrest
  obtain ⟨hfraction, -⟩ := zeroPad_append_inj (Text.stops_nil _) (Text.stops_nil _)
    (congrArg (· ++ []) hrest.2)
  have hsame : fixedDigits digits x = fixedDigits digits y := by
    rw [← Nat.div_add_mod (fixedDigits digits x) (10 ^ digits), hwhole, hfraction, Nat.div_add_mod]
  rw [roundTo_eq_fixedDigits, roundTo_eq_fixedDigits, hsame]
  simp only [hsign]

/-- A character that no fixed format uses. -/
def IsSeparator (sep : Char) : Prop := sep.isDigit = false ∧ sep ≠ '.' ∧ sep ≠ '-'

instance (sep : Char) : Decidable (IsSeparator sep) := inferInstanceAs (Decidable (_ ∧ _))

theorem ne_sep_of_mem_formatFixed {digits : Nat} (hdigits : digits ≠ 0) {sep : Char}
    (hsep : IsSeparator sep) (x : ℚ) :
    ∀ c ∈ (formatFixed digits x).toList, (c != sep) = true := by
  intro c hc
  rw [bne_iff_ne]
  rintro rfl
  obtain ⟨hnone, hdot, hdash⟩ := hsep
  rcases mem_formatFixed hdigits hc with hdigit | hsame | hsame
  · rw [hnone] at hdigit
    cases hdigit
  · exact hdot hsame
  · exact hdash hsame

/-- A number is read off a text up to the separator behind it. -/
theorem formatFixed_sep_inj {digits : Nat} (hdigits : digits ≠ 0) {sep : Char}
    (hsep : IsSeparator sep) {x y : ℚ} {rest rest' : List Char}
    (heq : (formatFixed digits x).toList ++ sep :: rest =
      (formatFixed digits y).toList ++ sep :: rest') :
    roundTo digits x = roundTo digits y ∧ rest = rest' := by
  obtain ⟨htext, hrest⟩ := Text.append_inj_of_stops (ne_sep_of_mem_formatFixed hdigits hsep x)
    (ne_sep_of_mem_formatFixed hdigits hsep y) (by simp) (by simp) heq
  exact ⟨roundTo_eq_of_formatFixed_eq hdigits (String.toList_inj.mp htext),
    (List.cons.inj hrest).2⟩

end Decimal
