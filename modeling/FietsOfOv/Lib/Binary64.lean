import FietsOfOv.Lib.Decimal

/-!
# Python's `float` of a text

Binary64 numbers by their sign and magnitude, and the literals that `float` reads.
-/

namespace Binary64

open Decimal

inductive Double where
  | finite (negative : Bool) (magnitude : ℚ)
  | infinite (negative : Bool)
  | nan
deriving DecidableEq

/-- The number, if it is one. -/
def Double.value : Double → Option ℚ
  | .finite negative magnitude => some (if negative then -magnitude else magnitude)
  | .infinite _ => none
  | .nan => none

/-- The `e` with `2 ^ e ≤ x < 2 ^ (e + 1)`, for a positive `x`. -/
def exponent (x : ℚ) : Int :=
  if 1 ≤ x then Nat.log 2 ⌊x⌋.toNat else -(Nat.clog 2 ⌈1 / x⌉.toNat : Int)

/-- The double next to a magnitude. -/
def round (negative : Bool) (x : ℚ) : Double :=
  if x = 0 then .finite negative 0
  else
    let unit : ℚ := 2 ^ max (exponent x - 52) (-1074)
    let rounded := Decimal.roundHalfEven (x / unit) * unit
    if 2 ^ 1024 ≤ rounded then .infinite negative else .finite negative rounded

/-! ## Literals -/

/-- A sign, which may be missing, and what follows it. -/
def signed : List Char → Bool × List Char
  | '-' :: rest => (true, rest)
  | '+' :: rest => (false, rest)
  | rest => (false, rest)

def optionalDigits (text : List Char) : Option (List Nat) :=
  if text = [] then some [] else Text.digits text

/-- The digits before an exponent, and how many of them stand after the point. -/
def significand (text : List Char) : Option (List Nat × Nat) :=
  match Text.splitOnce '.' text with
  | none => (Text.digits text).map fun digits => (digits, 0)
  | some (whole, fraction) => do
      let whole ← optionalDigits whole
      let fraction ← optionalDigits fraction
      if whole = [] ∧ fraction = [] then none else some (whole ++ fraction, fraction.length)

def ofDigits (digits : List Nat) : Nat := digits.foldl (fun n d => 10 * n + d) 0

/-- An exponent behind its `e`. -/
def scale (text : List Char) : Option Int :=
  let (negative, rest) := signed text
  (Text.digits rest).map fun digits =>
    if negative then -(ofDigits digits : Int) else ofDigits digits

def decimal (negative : Bool) (text : List Char) : Option Double :=
  match Text.splitOnce 'e' text with
  | none => do
      let (digits, places) ← significand text
      return round negative (ofDigits digits * (10 : ℚ) ^ (-(places : Int)))
  | some (text, scaling) => do
      let (digits, places) ← significand text
      let e ← scale scaling
      return round negative (ofDigits digits * (10 : ℚ) ^ (e - places))

/-- `float(text)`; `none` is the `ValueError`.  `Char.toLower` lowers ASCII letters, and the
    names of the special values have no others. -/
def float (text : List Char) : Option Double :=
  let (negative, rest) := signed (Text.stripWhile Text.isIntSpace text)
  let rest := rest.map Char.toLower
  if rest = "nan".toList then some .nan
  else if rest = "inf".toList ∨ rest = "infinity".toList then some (.infinite negative)
  else decimal negative rest

example : (float " 52.5 ".toList, float "-1_0e-1".toList, float "1e400".toList,
    float "+Infinity".toList, float "abc".toList, float ".".toList) =
    (some (.finite false (105 / 2)), some (.finite true 1), some (.infinite false),
      some (.infinite false), none, none) := by decide +kernel

/-! ## Overflow -/

theorem exponent_le {x : ℚ} (hx : 0 < x) : (2 : ℚ) ^ exponent x ≤ x := by
  unfold exponent
  by_cases hone : 1 ≤ x
  · have hfloor : 0 < ⌊x⌋ := Int.floor_pos.mpr hone
    have hlog : 2 ^ Nat.log 2 ⌊x⌋.toNat ≤ ⌊x⌋.toNat := Nat.pow_log_le_self 2 (by omega)
    have hcast : ((⌊x⌋.toNat : ℤ) : ℚ) = ⌊x⌋ := by rw [Int.toNat_of_nonneg hfloor.le]
    rw [if_pos hone, zpow_natCast]
    calc (2 : ℚ) ^ Nat.log 2 ⌊x⌋.toNat ≤ (⌊x⌋.toNat : ℚ) := by exact_mod_cast hlog
      _ = ⌊x⌋ := by exact_mod_cast hcast
      _ ≤ x := Int.floor_le x
  · have hceil : 0 < ⌈1 / x⌉ := Int.ceil_pos.mpr (by positivity)
    have hclog : ⌈1 / x⌉.toNat ≤ 2 ^ Nat.clog 2 ⌈1 / x⌉.toNat := Nat.le_pow_clog (by decide) _
    have hcast : ((⌈1 / x⌉.toNat : ℤ) : ℚ) = ⌈1 / x⌉ := by rw [Int.toNat_of_nonneg hceil.le]
    have hinv : x⁻¹ ≤ (2 : ℚ) ^ Nat.clog 2 ⌈1 / x⌉.toNat := by
      rw [← one_div]
      calc 1 / x ≤ ⌈1 / x⌉ := Int.le_ceil _
        _ = (⌈1 / x⌉.toNat : ℚ) := by exact_mod_cast hcast.symm
        _ ≤ _ := by exact_mod_cast hclog
    rw [if_neg hone, zpow_neg, zpow_natCast]
    rwa [inv_le_comm₀ hx (by positivity)] at hinv

theorem lt_exponent {x : ℚ} (hx : 1 ≤ x) : x < (2 : ℚ) ^ (exponent x + 1) := by
  have hfloor : 0 < ⌊x⌋ := Int.floor_pos.mpr hx
  have hlog : ⌊x⌋.toNat + 1 ≤ 2 ^ (Nat.log 2 ⌊x⌋.toNat + 1) :=
    Nat.lt_pow_succ_log_self (by decide) _
  have hcast : ((⌊x⌋.toNat : ℤ) : ℚ) = ⌊x⌋ := by rw [Int.toNat_of_nonneg hfloor.le]
  have hpow : (2 : ℚ) ^ (exponent x + 1) = 2 ^ (Nat.log 2 ⌊x⌋.toNat + 1) := by
    rw [exponent, if_pos hx]
    norm_cast
  rw [hpow]
  calc x < ⌊x⌋ + 1 := Int.lt_floor_add_one x
    _ = (⌊x⌋.toNat : ℚ) + 1 := by rw [← hcast, Int.cast_natCast]
    _ ≤ 2 ^ (Nat.log 2 ⌊x⌋.toNat + 1) := by exact_mod_cast hlog

/-- The distance of the doubles around a magnitude. -/
def unitOf (x : ℚ) : ℚ := 2 ^ max (exponent x - 52) (-1074)

theorem unitOf_pos (x : ℚ) : 0 < unitOf x := by
  unfold unitOf
  exact zpow_pos (by norm_num) _

/-- A magnitude rounds to an infinity from halfway between the largest double and `2 ^ 1024` on. -/
theorem overflows_iff {x : ℚ} (hx : 0 < x) :
    2 ^ 1024 ≤ roundHalfEven (x / unitOf x) * unitOf x ↔ (2 : ℚ) ^ 1024 - 2 ^ 970 ≤ x := by
  have hunit := unitOf_pos x
  have hnear := abs_le.mp (abs_roundHalfEven_sub_le (x / unitOf x))
  have hscale : x / unitOf x * unitOf x = x := div_mul_cancel₀ x hunit.ne'
  have htop : (2 : ℚ) ^ 1024 = 2 ^ 54 * 2 ^ 970 := by rw [← pow_add]
  have hlast_unit : (2 : ℚ) ^ 971 = 2 * 2 ^ 970 := by rw [← pow_succ']
  have hhalf : (0 : ℚ) < 2 ^ 970 := by positivity
  rw [htop]
  rcases lt_trichotomy (exponent x) 1023 with hsmall | hlast | hlarge
  · -- neither side holds below `2 ^ 1023`
    have hle : unitOf x ≤ 2 ^ 970 := by
      rw [← zpow_natCast]
      exact zpow_le_zpow_right₀ (by norm_num) (max_le (by push_cast; omega) (by norm_num))
    have hlt : x < 2 ^ 53 * 2 ^ 970 := by
      rw [← pow_add, ← zpow_natCast]
      by_cases hone : 1 ≤ x
      · exact (lt_exponent hone).trans_le (zpow_le_zpow_right₀ (by norm_num) (by push_cast; omega))
      · exact (not_le.mp hone).trans_le (one_le_zpow₀ (by norm_num) (by norm_num))
    have hround : roundHalfEven (x / unitOf x) * unitOf x ≤ x + unitOf x / 2 := by
      calc roundHalfEven (x / unitOf x) * unitOf x ≤ (x / unitOf x + 1 / 2) * unitOf x := by
            gcongr
            linarith [hnear.2]
        _ = x + unitOf x / 2 := by rw [add_mul, hscale]; ring
    generalize (2 : ℚ) ^ 970 = half at *
    constructor
    · intro h
      linarith
    · intro h
      linarith
  · -- the last unit below `2 ^ 1024`
    have hunit_eq : unitOf x = 2 * 2 ^ 970 := by
      rw [← hlast_unit, unitOf, hlast, ← zpow_natCast]
      norm_num
    have hcount : (2 : ℚ) ^ 54 * 2 ^ 970 ≤ roundHalfEven (x / unitOf x) * unitOf x ↔
        2 ^ 53 ≤ roundHalfEven (x / unitOf x) := by
      have hdouble : (2 : ℚ) ^ 54 * 2 ^ 970 = 2 ^ 53 * unitOf x := by
        rw [hunit_eq]
        generalize (2 : ℚ) ^ 970 = half
        ring
      rw [hdouble, mul_le_mul_iff_left₀ hunit]
      exact ⟨fun h => by exact_mod_cast h, fun h => by exact_mod_cast h⟩
    rw [hcount]
    constructor
    · intro h
      have hcast : (2 : ℚ) ^ 53 ≤ roundHalfEven (x / unitOf x) := by exact_mod_cast h
      have hlow : (2 : ℚ) ^ 53 - 1 / 2 ≤ x / unitOf x := by linarith [hnear.2]
      rw [le_div_iff₀ hunit, hunit_eq] at hlow
      generalize (2 : ℚ) ^ 970 = half at *
      linarith
    · intro h
      have htie : roundHalfEven (2 ^ 53 - 1 / 2) = 2 ^ 53 := by decide +kernel
      rw [← htie]
      apply roundHalfEven_mono
      rw [le_div_iff₀ hunit, hunit_eq]
      generalize (2 : ℚ) ^ 970 = half at *
      linarith
  · -- both sides hold from `2 ^ 1024` on
    have hunit_eq : unitOf x = 2 ^ (exponent x - 52) := by
      rw [unitOf, max_eq_left (by omega)]
    have hpow : (2 : ℚ) ^ 52 * unitOf x = 2 ^ exponent x := by
      rw [hunit_eq, ← zpow_natCast, ← zpow_add₀ (by norm_num)]
      norm_num
    have hle := exponent_le hx
    have hbig : (2 : ℚ) ^ 54 * 2 ^ 970 ≤ 2 ^ exponent x := by
      rw [← pow_add, ← zpow_natCast]
      exact zpow_le_zpow_right₀ (by norm_num) (by push_cast; omega)
    have hwhole : ((2 ^ 52 : Int) : ℚ) ≤ x / unitOf x := by
      rw [le_div_iff₀ hunit]
      push_cast
      linarith
    have hround := roundHalfEven_mono hwhole
    rw [roundHalfEven_intCast] at hround
    have hcast : (2 : ℚ) ^ 52 ≤ roundHalfEven (x / unitOf x) := by exact_mod_cast hround
    have hprod : (2 : ℚ) ^ 52 * unitOf x ≤ roundHalfEven (x / unitOf x) * unitOf x := by gcongr
    rw [hpow] at hprod
    generalize (2 : ℚ) ^ 970 = half at *
    constructor
    · intro _
      linarith
    · intro _
      linarith

/-- The only numbers `float` has no finite double for. -/
theorem round_eq_infinite_iff {negative : Bool} {x : ℚ} (hx : 0 ≤ x) :
    (∃ sign, round negative x = .infinite sign) ↔ (2 : ℚ) ^ 1024 - 2 ^ 970 ≤ x := by
  rcases hx.eq_or_lt with rfl | hx
  · have hpos : (0 : ℚ) < 2 ^ 1024 - 2 ^ 970 := by
      rw [show (2 : ℚ) ^ 1024 = 2 ^ 54 * 2 ^ 970 by rw [← pow_add]]
      have hhalf : (0 : ℚ) < 2 ^ 970 := by positivity
      generalize (2 : ℚ) ^ 970 = half at *
      linarith
    constructor
    · rintro ⟨sign, hsign⟩
      rw [round, if_pos rfl] at hsign
      cases hsign
    · intro h
      exact absurd h (not_le.mpr hpos)
  · rw [← overflows_iff hx, round, if_neg hx.ne']
    change (∃ sign, (if 2 ^ 1024 ≤ roundHalfEven (x / unitOf x) * unitOf x then _ else _) = _) ↔ _
    split
    · rename_i h
      exact ⟨fun _ => h, fun _ => ⟨negative, rfl⟩⟩
    · rename_i h
      constructor
      · rintro ⟨sign, hsign⟩
        cases hsign
      · exact fun h' => absurd h' h

end Binary64
