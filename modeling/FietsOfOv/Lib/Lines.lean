import FietsOfOv.Lib.Text

/-!
# Texts of one row a line

The lines of a text that are not blank, stripped, are its rows, whatever ends the
lines, however they are indented and wherever blank lines stand.
-/

namespace Text

/-- The lines of a text that are not blank, stripped. -/
def contents (text : List Char) : List (List Char) :=
  ((splitlines text).map strip).filter (· ≠ [])

/-- Spaces within a line. -/
def Blank (pad : List Char) : Prop := ∀ c ∈ pad, isSpace c = true ∧ isLineBreak c = false

def Visible (row : List Char) : Prop := row ≠ [] ∧ ∀ c ∈ row, isSpace c = false

/-- One of the line ends of `str.splitlines`. -/
def LineEnd (ending : List Char) : Prop :=
  ending = ['\r', '\n'] ∨ ∃ c, isLineBreak c = true ∧ ending = [c]

/-- A text that shows these rows one a line, in this order. -/
inductive Rows : List Char → List (List Char) → Prop where
  | stop {pad : List Char} (hpad : Blank pad) : Rows pad []
  | last {before row after : List Char} (hbefore : Blank before) (hrow : Visible row)
      (hafter : Blank after) : Rows (before ++ row ++ after) [row]
  | blank {pad ending rest : List Char} {rows : List (List Char)} (hpad : Blank pad)
      (hending : LineEnd ending) (hrest : Rows rest rows) : Rows (pad ++ (ending ++ rest)) rows
  | row {before row after ending rest : List Char} {rows : List (List Char)}
      (hbefore : Blank before) (hrow : Visible row) (hafter : Blank after)
      (hending : LineEnd ending) (hrest : Rows rest rows) :
      Rows (before ++ row ++ after ++ (ending ++ rest)) (row :: rows)

/-- A line break is a space. -/
theorem isSpace_of_isLineBreak {c : Char} (h : isLineBreak c = true) : isSpace c = true := by
  simp only [isLineBreak, isSpace, decide_eq_true_eq] at h ⊢
  omega

theorem Visible.not_isLineBreak {row : List Char} (h : Visible row) :
    ∀ c ∈ row, isLineBreak c = false := by
  intro c hc
  by_contra hbreak
  have hspace : isSpace c = true := isSpace_of_isLineBreak (by simpa using hbreak)
  rw [h.2 c hc] at hspace
  cases hspace

/-- Stripping takes off what is padded with. -/
theorem stripWhile_padded {p : Char → Bool} {before core after : List Char}
    (hbefore : ∀ c ∈ before, p c = true) (hcore : ∀ c ∈ core, p c = false)
    (hafter : ∀ c ∈ after, p c = true) : stripWhile p (before ++ core ++ after) = core := by
  have hall : ∀ {cs : List Char}, (∀ c ∈ cs, p c = true) → cs.dropWhile p = [] := by
    intro cs hcs
    have hdrop : (cs ++ []).dropWhile p = [].dropWhile p := List.dropWhile_append_of_pos hcs
    rwa [List.append_nil] at hdrop
  rw [List.append_assoc, stripWhile, List.dropWhile_append_of_pos hbefore]
  cases core with
  | nil =>
      rw [List.nil_append, hall hafter]
      rfl
  | cons c core =>
      have hc : ¬ p c = true := by simp [hcore c List.mem_cons_self]
      rw [List.cons_append, List.dropWhile_cons_of_neg hc, ← List.cons_append, List.reverse_append,
        List.dropWhile_append_of_pos (by simpa using hafter)]
      have hreversed : ∀ d ∈ (c :: core).reverse, p d = false := by
        intro d hd
        exact hcore d (List.mem_reverse.mp hd)
      cases hrev : (c :: core).reverse with
      | nil => simp at hrev
      | cons d rest =>
          have hd : ¬ p d = true := by simp [hreversed d (hrev ▸ List.mem_cons_self)]
          rw [List.dropWhile_cons_of_neg hd, ← hrev, List.reverse_reverse]

theorem strip_blank {pad : List Char} (hpad : Blank pad) : strip pad = [] := by
  have hstrip : stripWhile isSpace (pad ++ [] ++ []) = [] :=
    stripWhile_padded (fun c hc => (hpad c hc).1) (by simp) (by simp)
  rwa [List.append_nil, List.append_nil] at hstrip

theorem strip_row {before row after : List Char} (hbefore : Blank before) (hrow : Visible row)
    (hafter : Blank after) : strip (before ++ row ++ after) = row :=
  stripWhile_padded (fun c hc => (hbefore c hc).1) hrow.2 (fun c hc => (hafter c hc).1)

/-- Up to a line break, everything belongs to the line. -/
theorem linesFrom_append {line : List Char} (hline : ∀ c ∈ line, isLineBreak c = false)
    (start rest : List Char) : linesFrom start (line ++ rest) = linesFrom (start ++ line) rest := by
  induction line generalizing start with
  | nil => simp
  | cons c line ih =>
      rw [List.forall_mem_cons] at hline
      obtain ⟨hc, hline⟩ := hline
      rw [List.cons_append, linesFrom, if_neg (by simp [hc]), ih hline]
      · simp
      · rintro rest' rfl
        exact absurd hc (by decide)

/-- A line with its end in front adds its own content, whatever the end. -/
theorem contents_line {line ending : List Char} (hline : ∀ c ∈ line, isLineBreak c = false)
    (hending : LineEnd ending) (rest : List Char) :
    contents (line ++ (ending ++ rest)) = ([strip line].filter (· ≠ [])) ++ contents rest := by
  have hcut : ∀ tail, splitlines (line ++ (ending ++ rest)) = line :: splitlines tail →
      contents tail = contents rest →
      contents (line ++ (ending ++ rest)) =
        ([strip line].filter (· ≠ [])) ++ contents rest := by
    intro tail hsplit hsame
    rw [← hsame, contents, hsplit, List.map_cons, ← List.singleton_append, List.filter_append]
    rfl
  rw [splitlines, linesFrom_append hline, List.nil_append] at hcut
  rcases hending with rfl | ⟨c, hc, rfl⟩
  · exact hcut rest rfl rfl
  · by_cases hpair : c = '\r' ∧ ∃ tail, rest = '\n' :: tail
    · -- The break and the one after it are read as a single one, and an empty line is lost.
      obtain ⟨rfl, tail, rfl⟩ := hpair
      refine hcut tail rfl ?_
      have hempty : splitlines ('\n' :: tail) = [] :: splitlines tail := by
        rw [splitlines, linesFrom, if_pos (by decide)]
        · rfl
        · rintro rest' h
          cases h
      rw [contents, contents, hempty]
      rfl
    · refine hcut rest ?_ rfl
      rw [List.singleton_append, linesFrom, if_pos hc]
      · rfl
      · rintro rest' rfl rfl
        exact hpair ⟨rfl, rest', rfl⟩

/-- Without a line break, a text is one line. -/
theorem contents_last {line : List Char} (hline : ∀ c ∈ line, isLineBreak c = false) :
    contents line = [strip line].filter (· ≠ []) := by
  have hlines : splitlines line = if line = [] then [] else [line] := by
    have happend : linesFrom [] (line ++ []) = linesFrom ([] ++ line) [] :=
      linesFrom_append hline [] []
    simpa [splitlines, linesFrom] using happend
  rw [contents, hlines]
  by_cases hempty : line = []
  · subst hempty
    rfl
  · rw [if_neg hempty]
    rfl

/-- **The rows that a text shows are its contents.** -/
theorem contents_of_rows {text : List Char} {rows : List (List Char)} (h : Rows text rows) :
    contents text = rows := by
  have hpadded : ∀ {before row after : List Char}, Blank before → Visible row → Blank after →
      ∀ c ∈ before ++ row ++ after, isLineBreak c = false := by
    intro before row after hbefore hrow hafter c hc
    rcases List.mem_append.mp hc with hc | hc
    · rcases List.mem_append.mp hc with hc | hc
      · exact (hbefore c hc).2
      · exact hrow.not_isLineBreak c hc
    · exact (hafter c hc).2
  induction h with
  | stop hpad =>
      rw [contents_last fun c hc => (hpad c hc).2, strip_blank hpad]
      rfl
  | last hbefore hrow hafter =>
      rw [contents_last (hpadded hbefore hrow hafter), strip_row hbefore hrow hafter]
      simp [hrow.1]
  | blank hpad hending _ ih =>
      rw [contents_line (fun c hc => (hpad c hc).2) hending, strip_blank hpad, ih]
      rfl
  | row hbefore hrow hafter hending _ ih =>
      rw [contents_line (hpadded hbefore hrow hafter) hending, strip_row hbefore hrow hafter, ih]
      simp [hrow.1]

end Text
