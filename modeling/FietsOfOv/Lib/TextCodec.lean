import Mathlib.Logic.Encodable.Basic
import Mathlib.Tactic.Common

/-!
# Codecs between values and texts

A codec writes every value as a text and reads the value back off it.  Any countable type
has one, in tally marks, and any codec can be given a text of one's own for a value, as long
as the text was none of its own.
-/

/-- A way to write every value as a text that is not empty, and to read it back. -/
structure TextCodec (α : Type) where
  encode : α → String
  decode : String → Option α
  encode_ne_empty : ∀ a, encode a ≠ ""
  decode_empty : decode "" = none
  decode_encode : ∀ a, decode (encode a) = some a

namespace TextCodec

variable {α : Type}

/-- Every value as its number in tally marks. -/
def tally (α : Type) [Encodable α] : TextCodec α where
  encode a := String.ofList (List.replicate (Encodable.encode a + 1) '|')
  decode text :=
    if text.toList ≠ [] ∧ text.toList.all (· = '|') then Encodable.decode (text.toList.length - 1)
    else none
  encode_ne_empty a h := by
    have hlength := congrArg String.length h
    simp at hlength
  decode_empty := rfl
  decode_encode a := by simp

theorem ne_empty_of_mem {text : String} {c : Char} (hc : c ∈ text.toList) : text ≠ "" := by
  rintro rfl
  cases hc

/-- A text with another character is no tally. -/
theorem tally_decode_eq_none [Encodable α] {text : String} {c : Char} (hc : c ∈ text.toList)
    (hmark : c ≠ '|') : (tally α).decode text = none := by
  have hother : ¬ (text.toList ≠ [] ∧ text.toList.all (· = '|') = true) := by
    rintro ⟨_, hall⟩
    exact hmark (of_decide_eq_true (List.all_eq_true.mp hall c hc))
  exact if_neg hother

/-- One value has this text, and the others are written as before. -/
def spelling [DecidableEq α] (codec : TextCodec α) (value : α) (text : String)
    (hempty : text ≠ "") (hfree : codec.decode text = none) : TextCodec α where
  encode a := if a = value then text else codec.encode a
  decode raw := if raw = text then some value else codec.decode raw
  encode_ne_empty a := by
    split
    · exact hempty
    · exact codec.encode_ne_empty a
  decode_empty := by rw [if_neg hempty.symm, codec.decode_empty]
  decode_encode a := by
    by_cases ha : a = value
    · rw [if_pos ha, if_pos rfl, ha]
    · have hother : codec.encode a ≠ text := by
        intro h
        rw [← h, codec.decode_encode] at hfree
        cases hfree
      rw [if_neg ha, if_neg hother, codec.decode_encode]

variable [DecidableEq α] {codec : TextCodec α} {value : α} {text : String} {hempty : text ≠ ""}
  {hfree : codec.decode text = none}

theorem spelling_encode : (codec.spelling value text hempty hfree).encode value = text :=
  if_pos rfl

theorem spelling_decode_of_ne {raw : String} (hraw : raw ≠ text) :
    (codec.spelling value text hempty hfree).decode raw = codec.decode raw :=
  if_neg hraw

end TextCodec
