import FietsOfOv.Lib.Decimal

/-!
# ISO 8601 texts of moments

`datetime.isoformat`: microseconds are shown only where there are any, and the offset
from UTC only where the moment has one.  Two moments with one text are the same.
-/

namespace IsoFormat

open Decimal Text

/-- The fields of a `datetime`, the offset from UTC in microseconds. -/
structure Moment where
  year : Nat
  month : Nat
  day : Nat
  hour : Nat
  minute : Nat
  second : Nat
  microsecond : Nat
  offset : Option Int
deriving DecidableEq

def microText (microsecond : Nat) : String :=
  if microsecond = 0 then "" else "." ++ zeroPad 6 microsecond

/-- The seconds of an offset, in microseconds. -/
def offsetSeconds (rest : Nat) : String :=
  if rest = 0 then "" else ":" ++ zeroPad 2 (rest / 1000000) ++ microText (rest % 1000000)

def offsetText (offset : Int) : String :=
  (if offset < 0 then "-" else "+") ++ zeroPad 2 (offset.natAbs / 3600000000) ++ ":" ++
    zeroPad 2 (offset.natAbs / 60000000 % 60) ++ offsetSeconds (offset.natAbs % 60000000)

def offsetPart : Option Int → String
  | none => ""
  | some offset => offsetText offset

/-- `moment.isoformat()`. -/
def isoformat (moment : Moment) : String :=
  zeroPad 4 moment.year ++ "-" ++ zeroPad 2 moment.month ++ "-" ++ zeroPad 2 moment.day ++ "T" ++
    zeroPad 2 moment.hour ++ ":" ++ zeroPad 2 moment.minute ++ ":" ++ zeroPad 2 moment.second ++
    microText moment.microsecond ++ offsetPart moment.offset

/-! ## Reading a text back -/

/-- What may follow the microseconds: the end, or a sign. -/
def AtOffset (rest : List Char) : Prop := Stops Char.isDigit rest ∧ Stops (· == '.') rest

theorem stops_microText {microsecond : Nat} {rest : List Char} (h : AtOffset rest) :
    Stops Char.isDigit ((microText microsecond).toList ++ rest) := by
  unfold microText
  split
  · exact h.1
  · rw [String.toList_append, List.append_assoc]
    exact (stops_cons _ _ _).mpr (by decide)

theorem microText_inj {m m' : Nat} {rest rest' : List Char} (h : AtOffset rest)
    (h' : AtOffset rest')
    (heq : (microText m).toList ++ rest = (microText m').toList ++ rest') :
    m = m' ∧ rest = rest' := by
  have htext : ∀ n : Nat, n ≠ 0 → (microText n).toList = '.' :: (zeroPad 6 n).toList := by
    intro n hn
    rw [microText, if_neg hn, String.toList_append]
    rfl
  have hzero : (microText 0).toList = [] := rfl
  by_cases hm : m = 0
  · by_cases hm' : m' = 0
    · subst hm hm'
      exact ⟨rfl, heq⟩
    · rw [hm, hzero, htext m' hm', List.nil_append, List.cons_append] at heq
      rw [heq] at h
      exact absurd ((stops_cons _ _ _).mp h.2) (by decide)
  · by_cases hm' : m' = 0
    · rw [hm', hzero, htext m hm, List.nil_append, List.cons_append] at heq
      rw [← heq] at h'
      exact absurd ((stops_cons _ _ _).mp h'.2) (by decide)
    · rw [htext m hm, htext m' hm', List.cons_append, List.cons_append, List.cons.injEq] at heq
      exact zeroPad_append_inj h.1 h'.1 heq.2

theorem atOffset_nil : AtOffset [] := ⟨stops_nil _, stops_nil _⟩

theorem offsetSeconds_cases (rest : Nat) :
    rest = 0 ∧ (offsetSeconds rest).toList = [] ∨
      rest ≠ 0 ∧ (offsetSeconds rest).toList =
        ':' :: ((zeroPad 2 (rest / 1000000)).toList ++ (microText (rest % 1000000)).toList) := by
  unfold offsetSeconds
  split
  · exact Or.inl ⟨‹_›, rfl⟩
  · refine Or.inr ⟨‹_›, ?_⟩
    have hcolon : ":".toList = [':'] := rfl
    rw [String.toList_append, String.toList_append, List.append_assoc, hcolon,
      List.singleton_append]

theorem stops_offsetSeconds (rest : Nat) : Stops Char.isDigit (offsetSeconds rest).toList := by
  rcases offsetSeconds_cases rest with ⟨_, htext⟩ | ⟨_, htext⟩
  · rw [htext]
    exact stops_nil _
  · rw [htext, stops_cons]
    decide

theorem offsetSeconds_inj {r r' : Nat}
    (heq : (offsetSeconds r).toList = (offsetSeconds r').toList) :
    r = r' := by
  rcases offsetSeconds_cases r with ⟨hr, htext⟩ | ⟨hr, htext⟩ <;>
    rcases offsetSeconds_cases r' with ⟨hr', htext'⟩ | ⟨hr', htext'⟩ <;> rw [htext, htext'] at heq
  · rw [hr, hr']
  · cases heq
  · cases heq
  · have hmicro : ∀ n : Nat, Stops Char.isDigit (microText n).toList := by
      intro n
      simpa using @stops_microText n [] atOffset_nil
    obtain ⟨hsecond, hrest⟩ := zeroPad_append_inj (hmicro _) (hmicro _) (List.cons.inj heq).2
    obtain ⟨hmicro, -⟩ := microText_inj atOffset_nil atOffset_nil (congrArg (· ++ []) hrest)
    omega

theorem offsetText_inj {o o' : Int} (heq : (offsetText o).toList = (offsetText o').toList) :
    o = o' := by
  have htext : ∀ o : Int, (offsetText o).toList = (if o < 0 then '-' else '+') ::
      ((zeroPad 2 (o.natAbs / 3600000000)).toList ++ ':' ::
        ((zeroPad 2 (o.natAbs / 60000000 % 60)).toList ++
          (offsetSeconds (o.natAbs % 60000000)).toList)) := by
    intro o
    have hsign : (if o < 0 then "-" else "+").toList = [if o < 0 then '-' else '+'] := by
      split <;> rfl
    have hcolon : ":".toList = [':'] := rfl
    simp only [offsetText, String.toList_append, hsign, hcolon, List.append_assoc,
      List.cons_append, List.nil_append]
  rw [htext, htext, List.cons.injEq] at heq
  obtain ⟨hsign, heq⟩ := heq
  have hcolon : ∀ rest : List Char, Stops Char.isDigit (':' :: rest) := fun rest =>
    (stops_cons _ _ _).mpr (by decide)
  obtain ⟨hhour, heq⟩ := zeroPad_append_inj (hcolon _) (hcolon _) heq
  obtain ⟨hminute, heq⟩ := zeroPad_append_inj (stops_offsetSeconds _) (stops_offsetSeconds _)
    (List.cons.inj heq).2
  have hsecond := offsetSeconds_inj heq
  have hneg : o < 0 ↔ o' < 0 := by
    by_cases ho : o < 0 <;> by_cases ho' : o' < 0 <;> simp [ho, ho'] at hsign ⊢
  omega

/-- An offset begins with a sign. -/
theorem offsetText_head (o : Int) :
    ∃ sign rest, (offsetText o).toList = sign :: rest ∧ (sign = '-' ∨ sign = '+') := by
  unfold offsetText
  simp only [String.toList_append, List.append_assoc]
  split
  · exact ⟨'-', _, rfl, Or.inl rfl⟩
  · exact ⟨'+', _, rfl, Or.inr rfl⟩

theorem atOffset_offsetPart (offset : Option Int) : AtOffset (offsetPart offset).toList := by
  cases offset with
  | none => exact atOffset_nil
  | some o =>
      obtain ⟨sign, rest, htext, hsign⟩ := offsetText_head o
      rw [offsetPart, htext, AtOffset, stops_cons, stops_cons]
      rcases hsign with rfl | rfl
      · decide
      · decide

theorem offsetPart_inj {offset offset' : Option Int}
    (heq : (offsetPart offset).toList = (offsetPart offset').toList) : offset = offset' := by
  cases offset with
  | none =>
      cases offset' with
      | none => rfl
      | some o' =>
          obtain ⟨sign, rest, htext, _⟩ := offsetText_head o'
          rw [offsetPart, offsetPart, htext] at heq
          cases heq
  | some o =>
      cases offset' with
      | none =>
          obtain ⟨sign, rest, htext, _⟩ := offsetText_head o
          rw [offsetPart, offsetPart, htext] at heq
          cases heq
      | some o' => rw [offsetText_inj heq]

theorem toList_isoformat (m : Moment) : (isoformat m).toList =
    (zeroPad 4 m.year).toList ++ '-' :: ((zeroPad 2 m.month).toList ++
      '-' :: ((zeroPad 2 m.day).toList ++ 'T' :: ((zeroPad 2 m.hour).toList ++
        ':' :: ((zeroPad 2 m.minute).toList ++ ':' :: ((zeroPad 2 m.second).toList ++
          ((microText m.microsecond).toList ++ (offsetPart m.offset).toList)))))) := by
  have hcolon : ":".toList = [':'] := rfl
  have hdash : "-".toList = ['-'] := rfl
  have hT : "T".toList = ['T'] := rfl
  simp only [isoformat, String.toList_append, hcolon, hdash, hT, List.append_assoc,
    List.cons_append, List.nil_append]

/-- A moment can be read off its text. -/
theorem isoformat_injective : Function.Injective isoformat := by
  intro moment moment' heq
  have hstop : ∀ c ∈ ['-', 'T', ':'], ∀ rest : List Char, Stops Char.isDigit (c :: rest) := by
    intro c hc rest
    rw [stops_cons]
    simp only [List.mem_cons, List.not_mem_nil, or_false] at hc
    rcases hc with rfl | rfl | rfl <;> rfl
  have heq' := congrArg String.toList heq
  rw [toList_isoformat, toList_isoformat] at heq'
  obtain ⟨hyear, heq'⟩ := zeroPad_append_inj (hstop _ (by decide) _) (hstop _ (by decide) _) heq'
  obtain ⟨hmonth, heq'⟩ := zeroPad_append_inj (hstop _ (by decide) _) (hstop _ (by decide) _)
    (List.cons.inj heq').2
  obtain ⟨hday, heq'⟩ := zeroPad_append_inj (hstop _ (by decide) _) (hstop _ (by decide) _)
    (List.cons.inj heq').2
  obtain ⟨hhour, heq'⟩ := zeroPad_append_inj (hstop _ (by decide) _) (hstop _ (by decide) _)
    (List.cons.inj heq').2
  obtain ⟨hminute, heq'⟩ := zeroPad_append_inj (hstop _ (by decide) _) (hstop _ (by decide) _)
    (List.cons.inj heq').2
  obtain ⟨hsecond, heq'⟩ := zeroPad_append_inj (stops_microText (atOffset_offsetPart _))
    (stops_microText (atOffset_offsetPart _)) (List.cons.inj heq').2
  obtain ⟨hmicro, heq'⟩ := microText_inj (atOffset_offsetPart _) (atOffset_offsetPart _) heq'
  have hoffset := offsetPart_inj heq'
  cases moment
  cases moment'
  simp_all

end IsoFormat
