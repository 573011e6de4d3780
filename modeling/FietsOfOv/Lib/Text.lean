import Mathlib.Tactic.Common

/-!
# Python's text and integer parsing

`str.splitlines`, `str.strip`, `str.split` and `int`, over the characters of a
text.  `int` reads every Unicode decimal digit, allows single underscores
between digits, and refuses more than 4300 digits.
-/

namespace Text

/-- `str.isspace` of one character. -/
def isSpace (c : Char) : Bool :=
  let n := c.toNat
  9 ≤ n ∧ n ≤ 13 ∨ 28 ≤ n ∧ n ≤ 32 ∨ n = 0x85 ∨ n = 0xa0 ∨ n = 0x1680 ∨
    0x2000 ≤ n ∧ n ≤ 0x200a ∨ n = 0x2028 ∨ n = 0x2029 ∨ n = 0x202f ∨ n = 0x205f ∨ n = 0x3000

/-- Whether `str.splitlines` ends a line at the character. -/
def isLineBreak (c : Char) : Bool :=
  let n := c.toNat
  10 ≤ n ∧ n ≤ 13 ∨ 28 ≤ n ∧ n ≤ 30 ∨ n = 0x85 ∨ n = 0x2028 ∨ n = 0x2029

def stripWhile (p : Char → Bool) (text : List Char) : List Char :=
  ((text.dropWhile p).reverse.dropWhile p).reverse

/-- `str.lower` on ASCII text. -/
def asciiLower (text : String) : String := String.ofList (text.toList.map Char.toLower)

/-- `text.strip()`. -/
def strip (text : List Char) : List Char := stripWhile isSpace text

/-- The lines of a text whose first line starts with `line`. -/
def linesFrom (line : List Char) : List Char → List (List Char)
  | [] => if line = [] then [] else [line]
  | '\r' :: '\n' :: rest => line :: linesFrom [] rest
  | c :: rest => if isLineBreak c then line :: linesFrom [] rest else linesFrom (line ++ [c]) rest

/-- `text.splitlines()`. -/
def splitlines (text : List Char) : List (List Char) := linesFrom [] text

/-- `text.split(sep, 1)`, if that has two parts. -/
def splitOnce (sep : Char) : List Char → Option (List Char × List Char)
  | [] => none
  | c :: rest =>
      if c = sep then some ([], rest) else (splitOnce sep rest).map fun p => (c :: p.1, p.2)

/-- `text.split(sep)`. -/
def split (sep : Char) : List Char → List (List Char)
  | [] => [[]]
  | c :: rest =>
      if c = sep then [] :: split sep rest
      else match split sep rest with
        | [] => [[c]]
        | part :: parts => (c :: part) :: parts

/-! ## `int` -/

/-- The zeros of the Unicode decimal digits; nine more digits follow each. -/
def digitZeros : List Nat :=
  [0x30, 0x660, 0x6f0, 0x7c0, 0x966, 0x9e6, 0xa66, 0xae6, 0xb66, 0xbe6, 0xc66, 0xce6, 0xd66, 0xde6,
   0xe50, 0xed0, 0xf20, 0x1040, 0x1090, 0x17e0, 0x1810, 0x1946, 0x19d0, 0x1a80, 0x1a90, 0x1b50,
   0x1bb0, 0x1c40, 0x1c50, 0xa620, 0xa8d0, 0xa900, 0xa9d0, 0xa9f0, 0xaa50, 0xabf0, 0xff10, 0x104a0,
   0x10d30, 0x11066, 0x110f0, 0x11136, 0x111d0, 0x112f0, 0x11450, 0x114d0, 0x11650, 0x116c0,
   0x11730, 0x118e0, 0x11950, 0x11c50, 0x11d50, 0x11da0, 0x11f50, 0x16a60, 0x16ac0, 0x16b50,
   0x1d7ce, 0x1d7d8, 0x1d7e2, 0x1d7ec, 0x1d7f6, 0x1e140, 0x1e2f0, 0x1e4f0, 0x1e950, 0x1fbf0]

def decimalDigit (c : Char) : Option Nat :=
  (digitZeros.find? fun first => first ≤ c.toNat ∧ c.toNat < first + 10).map (c.toNat - ·)

/-- The digits of a number, without the single underscores between them. -/
def digits : List Char → Option (List Nat)
  | [] => none
  | [c] => (decimalDigit c).map ([·])
  | c :: '_' :: rest => (decimalDigit c).bind fun d => (digits rest).map (d :: ·)
  | c :: rest => (decimalDigit c).bind fun d => (digits rest).map (d :: ·)

/-- `sys.int_info.default_max_str_digits`. -/
def maxStrDigits : Nat := 4300

def natural (text : List Char) : Option Nat :=
  (digits text).bind fun ds =>
    if maxStrDigits < ds.length then none else some (ds.foldl (fun n d => 10 * n + d) 0)

/-- The whitespace that `int` skips; the four separators `\x1c` to `\x1f` are not part of it. -/
def isIntSpace (c : Char) : Bool := isSpace c && !(28 ≤ c.toNat && c.toNat ≤ 31)

/-- `int(text)`; `none` is the `ValueError`. -/
def int (text : List Char) : Option Int :=
  match stripWhile isIntSpace text with
  | '-' :: rest => (natural rest).map fun n => -(n : Int)
  | '+' :: rest => (natural rest).map fun n => (n : Int)
  | rest => (natural rest).map fun n => (n : Int)

example : (int " +1_007 ".toList, int "+ 5".toList, int "1__0".toList) =
    (some 1007, none, none) := by
  decide

/-! ### Numbers in plain digits -/

theorem toNat_of_isDigit {c : Char} (hc : c.isDigit) : 48 ≤ c.toNat ∧ c.toNat < 58 := by
  have hbounds := Char.isDigit_iff_toNat.mp hc
  simp only [Char.reduceToNat] at hbounds
  omega

theorem decimalDigit_of_isDigit {c : Char} (hc : c.isDigit) :
    decimalDigit c = some (c.toNat - 48) := by
  obtain ⟨hlo, hhi⟩ := toNat_of_isDigit hc
  rw [decimalDigit, digitZeros, List.find?_cons_of_pos (by simp; omega)]
  rfl

theorem digits_of_isDigit {text : List Char} (hne : text ≠ []) (hdigits : ∀ c ∈ text, c.isDigit) :
    digits text = some (text.map (·.toNat - 48)) := by
  induction text with
  | nil => exact absurd rfl hne
  | cons c rest ih =>
      rw [List.forall_mem_cons] at hdigits
      have hc := decimalDigit_of_isDigit hdigits.1
      cases rest with
      | nil => rw [digits, hc]; rfl
      | cons c' rest =>
          have hrest := ih (List.cons_ne_nil _ _) hdigits.2
          have hunderscore : c' ≠ '_' := by
            rintro rfl
            exact absurd (hdigits.2 '_' List.mem_cons_self) (by decide)
          rw [digits, hc, hrest]
          · rfl
          · exact List.cons_ne_nil _ _
          · intro rest' heq
            exact hunderscore (List.cons.inj heq).1

theorem isIntSpace_of_isDigit {c : Char} (hc : c.isDigit) : isIntSpace c = false := by
  obtain ⟨hlo, hhi⟩ := toNat_of_isDigit hc
  simp only [isIntSpace, isSpace, Bool.and_eq_false_iff, decide_eq_false_iff_not]
  left
  omega

theorem stripWhile_of_forall {p : Char → Bool} {text : List Char}
    (htext : ∀ c ∈ text, p c = false) : stripWhile p text = text := by
  have hdrop : ∀ {cs : List Char}, (∀ c ∈ cs, p c = false) → cs.dropWhile p = cs := by
    intro cs hcs
    cases cs with
    | nil => rfl
    | cons c cs => rw [List.dropWhile_cons_of_neg (by simp [hcs c List.mem_cons_self])]
  rw [stripWhile, hdrop htext, hdrop (by simpa using htext), List.reverse_reverse]

/-- A number in plain digits, if it is not too long to be read. -/
theorem int_of_isDigit {text : List Char} (hne : text ≠ []) (hdigits : ∀ c ∈ text, c.isDigit) :
    int text =
      if text.length ≤ maxStrDigits then some (Nat.ofDigitChars 10 text 0 : Int) else none := by
  have hsign : ∀ {c : Char}, c.isDigit = false → ∀ rest, text = c :: rest → False := by
    rintro c hc rest rfl
    rw [hdigits c List.mem_cons_self] at hc
    cases hc
  rw [int, stripWhile_of_forall fun c hc => isIntSpace_of_isDigit (hdigits c hc)]
  split
  · exact absurd rfl (hsign (by decide) _)
  · exact absurd rfl (hsign (by decide) _)
  · rw [natural, digits_of_isDigit hne hdigits, Option.bind_some, List.length_map, List.foldl_map,
      Nat.ofDigitChars_eq_foldl]
    by_cases hlength : text.length ≤ maxStrDigits
    · rw [if_pos hlength, if_neg (by omega)]
      rfl
    · rw [if_neg hlength, if_pos (by omega)]
      rfl

/-! ## Reading a text back -/

/-- The text does not begin with a character of the class. -/
def Stops (p : Char → Bool) (text : List Char) : Prop := ∀ c ∈ text.head?, p c = false

@[simp] theorem stops_nil (p : Char → Bool) : Stops p [] := by simp [Stops]

@[simp] theorem stops_cons (p : Char → Bool) (c : Char) (text : List Char) :
    Stops p (c :: text) ↔ p c = false := by simp [Stops]

/-- A block of characters of one class ends where the class does. -/
theorem append_inj_of_stops {p : Char → Bool} {block block' rest rest' : List Char}
    (hblock : ∀ c ∈ block, p c = true) (hblock' : ∀ c ∈ block', p c = true)
    (hrest : Stops p rest) (hrest' : Stops p rest') (heq : block ++ rest = block' ++ rest') :
    block = block' ∧ rest = rest' := by
  induction block generalizing block' with
  | nil =>
      cases block' with
      | nil => exact ⟨rfl, heq⟩
      | cons c block' =>
          rw [List.nil_append, List.cons_append] at heq
          rw [heq, stops_cons, hblock' c List.mem_cons_self] at hrest
          cases hrest
  | cons c block ih =>
      cases block' with
      | nil =>
          rw [List.nil_append, List.cons_append] at heq
          rw [← heq, stops_cons, hblock c List.mem_cons_self] at hrest'
          cases hrest'
      | cons c' block' =>
          rw [List.cons_append, List.cons_append, List.cons.injEq] at heq
          obtain ⟨rfl, heq⟩ := heq
          obtain ⟨rfl, rfl⟩ := ih (fun d hd => hblock d (List.mem_cons_of_mem _ hd))
            (fun d hd => hblock' d (List.mem_cons_of_mem _ hd)) heq
          exact ⟨rfl, rfl⟩

end Text
