import FietsOfOv.Lib.Json
import Mathlib.Data.Rat.Encodable
import Mathlib.Logic.Equiv.List

/-!
# A prefix code for JSON values

A value is written as a sequence of numbers, outermost constructor first, with the
number of its parts before them; reading takes a value off the front and leaves the
rest.  So the values are countable.
-/

namespace Json

def charCodes (text : String) : List Nat := text.toList.map Char.toNat

def ofCharCodes (codes : List Nat) : String := String.ofList (codes.map Char.ofNat)

theorem ofCharCodes_charCodes (text : String) : ofCharCodes (charCodes text) = text := by
  simp [ofCharCodes, charCodes, Function.comp_def, Char.ofNat_toNat]

def NonFinite.code : NonFinite → Nat
  | .nan => 0
  | .infinity negative => negative.toNat + 1

def NonFinite.ofCode : Nat → NonFinite
  | 0 => .nan
  | code + 1 => .infinity (code = 1)

@[simp] theorem NonFinite.ofCode_code (value : NonFinite) : ofCode value.code = value := by
  rcases value with _ | negative
  · rfl
  · cases negative <;> rfl

mutual

def tokens : Json → List Nat
  | .null => [0]
  | .bool value => [1, value.toNat]
  | .int value => [2, Encodable.encode value]
  | .float value => [3, Encodable.encode value]
  | .nonFinite value => [4, value.code]
  | .str value => [5, Encodable.encode (charCodes value)]
  | .arr items => 6 :: items.length :: itemTokens items
  | .obj fields => 7 :: fields.length :: fieldTokens fields

def itemTokens : List Json → List Nat
  | [] => []
  | item :: items => item.tokens ++ itemTokens items

def fieldTokens : List (String × Json) → List Nat
  | [] => []
  | (key, value) :: fields =>
      Encodable.encode (charCodes key) :: (value.tokens ++ fieldTokens fields)

end

mutual

/-- The value at the front, and what follows it. -/
def readValue : Nat → List Nat → Option (Json × List Nat)
  | 0, _ => none
  | _ + 1, 0 :: rest => some (.null, rest)
  | _ + 1, 1 :: value :: rest => some (.bool (value = 1), rest)
  | _ + 1, 2 :: value :: rest => (Encodable.decode value).map fun n => (.int n, rest)
  | _ + 1, 3 :: value :: rest => (Encodable.decode value).map fun q => (.float q, rest)
  | _ + 1, 4 :: value :: rest => some (.nonFinite (.ofCode value), rest)
  | _ + 1, 5 :: value :: rest =>
      (Encodable.decode value).map fun codes => (.str (ofCharCodes codes), rest)
  | fuel + 1, 6 :: n :: rest => (readItems fuel n rest).map fun read => (.arr read.1, read.2)
  | fuel + 1, 7 :: n :: rest => (readFields fuel n rest).map fun read => (.obj read.1, read.2)
  | _ + 1, _ => none

def readItems : Nat → Nat → List Nat → Option (List Json × List Nat)
  | _, 0, rest => some ([], rest)
  | 0, _ + 1, _ => none
  | fuel + 1, n + 1, rest => do
      let (item, rest) ← readValue fuel rest
      let (items, rest) ← readItems fuel n rest
      return (item :: items, rest)

def readFields : Nat → Nat → List Nat → Option (List (String × Json) × List Nat)
  | _, 0, rest => some ([], rest)
  | fuel + 1, n + 1, key :: rest => do
      let codes ← Encodable.decode key
      let (value, rest) ← readValue fuel rest
      let (fields, rest) ← readFields fuel n rest
      return ((ofCharCodes codes, value) :: fields, rest)
  | _, _ + 1, _ => none

end

theorem length_tokens_pos (value : Json) : 0 < value.tokens.length := by
  cases value <;> simp [tokens]

mutual

/-- With fuel for twice its length, a value is read off the front of any sequence. -/
theorem readValue_tokens : ∀ (value : Json) (fuel : Nat) (rest : List Nat),
    2 * value.tokens.length ≤ fuel → readValue fuel (value.tokens ++ rest) = some (value, rest)
  | .null, fuel + 1, rest, _ => by simp [tokens, readValue]
  | .bool value, fuel + 1, rest, _ => by cases value <;> simp [tokens, readValue]
  | .int value, fuel + 1, rest, _ => by
      simp only [tokens, List.cons_append, List.nil_append, readValue, Encodable.encodek,
        Option.map_some]
  | .float value, fuel + 1, rest, _ => by simp [tokens, readValue]
  | .nonFinite value, fuel + 1, rest, _ => by simp [tokens, readValue]
  | .str value, fuel + 1, rest, _ => by simp [tokens, readValue, ofCharCodes_charCodes]
  | .arr items, fuel + 1, rest, hfuel => by
      have hitems := readItems_tokens items fuel rest (by simp [tokens] at hfuel; omega)
      simp [tokens, readValue, hitems]
  | .obj fields, fuel + 1, rest, hfuel => by
      have hfields := readFields_tokens fields fuel rest (by simp [tokens] at hfuel; omega)
      simp [tokens, readValue, hfields]
  | value, 0, rest, hfuel => by
      have hpos := length_tokens_pos value
      omega

theorem readItems_tokens : ∀ (items : List Json) (fuel : Nat) (rest : List Nat),
    2 * (itemTokens items).length + 1 ≤ fuel →
      readItems fuel items.length (itemTokens items ++ rest) = some (items, rest)
  | [], fuel, rest, _ => by simp [itemTokens, readItems]
  | item :: items, fuel + 1, rest, hfuel => by
      have hpos := length_tokens_pos item
      simp only [itemTokens, List.length_append] at hfuel
      have hitem := readValue_tokens item fuel (itemTokens items ++ rest) (by omega)
      have hitems := readItems_tokens items fuel rest (by omega)
      simp [itemTokens, readItems, List.append_assoc, hitem, hitems]
  | item :: items, 0, rest, hfuel => by omega

theorem readFields_tokens : ∀ (fields : List (String × Json)) (fuel : Nat) (rest : List Nat),
    2 * (fieldTokens fields).length + 1 ≤ fuel →
      readFields fuel fields.length (fieldTokens fields ++ rest) = some (fields, rest)
  | [], fuel, rest, _ => by simp [fieldTokens, readFields]
  | (key, value) :: fields, fuel + 1, rest, hfuel => by
      have hpos := length_tokens_pos value
      simp only [fieldTokens, List.length_append, List.length_cons] at hfuel
      have hvalue := readValue_tokens value fuel (fieldTokens fields ++ rest) (by omega)
      have hfields := readFields_tokens fields fuel rest (by omega)
      simp [fieldTokens, readFields, List.append_assoc, hvalue, hfields, ofCharCodes_charCodes]
  | (key, value) :: fields, 0, rest, hfuel => by omega

end

/-- Every value has a number. -/
instance : Encodable Json :=
  Encodable.ofLeftInjection tokens
    (fun sequence => (readValue (2 * sequence.length) sequence).map (·.1)) fun value => by
      have hread : readValue (2 * value.tokens.length) value.tokens = some (value, []) := by
        simpa using readValue_tokens value _ [] le_rfl
      rw [hread, Option.map_some]

instance : DecidableEq Json := Encodable.decidableEqOfEncodable Json

end Json
