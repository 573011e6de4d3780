import FietsOfOv.Lib.Csv
import FietsOfOv.Lib.Loop

/-!
# The text of comma-separated files

What Python's `csv` reads and writes in its default dialect: the state machine of the reader
over the lines of a file, the minimal quoting of the writer, and that the one reads back what
the other writes.
-/

namespace Csv

def isNewline (c : Char) : Bool := c = '\n' ∨ c = '\r'

/-- The characters of a file opened with `newline=""`, line by line: `none` marks the end of
    each line that iterating over the file gives. -/
def marked : List Char → List (Option Char)
  | [] => []
  | '\r' :: '\n' :: rest => some '\r' :: some '\n' :: none :: marked rest
  | c :: rest =>
      if isNewline c then some c :: none :: marked rest
      else if rest = [] then [some c, none]
      else some c :: marked rest

/-- What a file opened without `newline` gives: every line ends with a line feed. -/
def universal : List Char → List Char
  | [] => []
  | '\r' :: '\n' :: rest => '\n' :: universal rest
  | c :: rest => (if c = '\r' then '\n' else c) :: universal rest

/-! ## The reader -/

inductive ReaderState where
  | startRecord
  | startField
  | inField
  | inQuotedField
  | quoteInQuotedField
  | eatCrnl
deriving DecidableEq

/-- `_csv.Error` -/
inductive CsvError where
  | fieldLimit
  | newlineInField
deriving DecidableEq

/-- The reader within a record: the field it is in, and the fields before. -/
structure Reader where
  state : ReaderState
  field : List Char
  fields : List String

/-- The reader before a record. -/
def Reader.reset : Reader := ⟨.startRecord, [], []⟩

/-- `parse_save_field` -/
def Reader.save (r : Reader) (state : ReaderState) : Reader :=
  ⟨state, [], r.fields ++ [String.ofList r.field]⟩

section Reading

-- `csv.field_size_limit()`
variable (limit : Nat)

/-- `parse_add_char` -/
def Reader.add (r : Reader) (c : Char) (state : ReaderState) : Except CsvError Reader :=
  if r.field.length < limit then .ok ⟨state, r.field ++ [c], r.fields⟩ else .error .fieldLimit

/-- The first character of a field. -/
def Reader.beginField (r : Reader) (c : Char) : Except CsvError Reader :=
  if isNewline c then .ok (r.save .eatCrnl)
  else if c = '"' then .ok { r with state := .inQuotedField }
  else if c = ',' then .ok (r.save .startField)
  else r.add limit c .inField

/-- `parse_process_char` -/
def Reader.process (r : Reader) (next : Option Char) : Except CsvError Reader :=
  match r.state, next with
  | .startRecord, none => .ok r
  | .startRecord, some c =>
      if isNewline c then .ok { r with state := .eatCrnl } else r.beginField limit c
  | .startField, none => .ok (r.save .startRecord)
  | .startField, some c => r.beginField limit c
  | .inField, none => .ok (r.save .startRecord)
  | .inField, some c =>
      if isNewline c then .ok (r.save .eatCrnl)
      else if c = ',' then .ok (r.save .startField)
      else r.add limit c .inField
  | .inQuotedField, none => .ok r
  | .inQuotedField, some c =>
      if c = '"' then .ok { r with state := .quoteInQuotedField } else r.add limit c .inQuotedField
  | .quoteInQuotedField, none => .ok (r.save .startRecord)
  | .quoteInQuotedField, some c =>
      if c = '"' then r.add limit c .inQuotedField
      else if c = ',' then .ok (r.save .startField)
      else if isNewline c then .ok (r.save .eatCrnl)
      else r.add limit c .inField
  | .eatCrnl, none => .ok { r with state := .startRecord }
  | .eatCrnl, some c => if isNewline c then .ok r else .error .newlineInField

/-- The records that are left to read.  A record ends with the line in which it is complete;
    the last one may lack the quote that closes it. -/
def recordsFrom (r : Reader) : List (Option Char) → Except CsvError (List (List String))
  | [] =>
      .ok (if r.field ≠ [] ∨ r.state = .inQuotedField then [(r.save .startRecord).fields] else [])
  | next :: rest => do
      let r' ← r.process limit next
      if next = none ∧ r'.state = .startRecord then
        return r'.fields :: (← recordsFrom .reset rest)
      else recordsFrom r' rest

/-- The records of a text. -/
def records (text : List Char) : Except CsvError (List (List String)) :=
  recordsFrom limit .reset (marked text)

end Reading

/-! ## The writer -/

/-- Whether the writer puts a field with the character within quotes. -/
def needsQuotes (c : Char) : Bool := c = ',' ∨ c = '"' ∨ isNewline c

/-- A field within quotes, which are doubled inside. -/
def escaped (field : List Char) : List Char :=
  field.flatMap fun c => if c = '"' then ['"', '"'] else [c]

def quoted (field : List Char) : List Char := '"' :: (escaped field ++ ['"'])

/-- `join_append` -/
def writeField (field : List Char) : List Char :=
  if field.any needsQuotes then quoted field else field

/-- The fields of a record, with a comma between any two. -/
def joined : List (List Char) → List Char
  | [] => []
  | [text] => text
  | text :: texts => text ++ ',' :: joined texts

/-- `writerow`; a record that would be an empty line is its one field in quotes. -/
def writeRecord : List String → List Char
  | [""] => quoted [] ++ ['\r', '\n']
  | fields => joined (fields.map fun field => writeField field.toList) ++ ['\r', '\n']

def writeRecords (rows : List (List String)) : List Char := rows.flatMap writeRecord

/-! ## Fields that are read -/

/-- The reader after a record with these fields and what follows. -/
def consRecord (fields : List String) (rest : Except CsvError (List (List String))) :
    Except CsvError (List (List String)) := (fields :: ·) <$> rest

section Reads

variable {limit : Nat} {r r' : Reader} {c : Char} {text rest field : List Char}
  {fields : List String} {events : List (Option Char)}

theorem marked_of_not_newline (hc : isNewline c = false) (hrest : rest ≠ []) :
    marked (c :: rest) = some c :: marked rest := by
  have hreturn : c ≠ '\r' := by
    rintro rfl
    cases hc
  rw [marked]
  · rw [if_neg (by simp [hc]), if_neg hrest]
  · intro rest' hr
    exact absurd hr hreturn

theorem recordsFrom_some (r' : Reader) (h : r.process limit (some c) = .ok r') :
    recordsFrom limit r (some c :: events) = recordsFrom limit r' events := by
  rw [recordsFrom, h]
  rfl

theorem Reader.add_of_lt (h : r.field.length < limit) (state : ReaderState) :
    r.add limit c state = .ok ⟨state, r.field ++ [c], r.fields⟩ := if_pos h

/-- A mark says nothing within quotes. -/
theorem recordsFrom_none (h : r.state = .inQuotedField) :
    recordsFrom limit r (none :: events) = recordsFrom limit r events := by
  have hprocess : r.process limit none = .ok r := by
    unfold Reader.process
    rw [h]
  rw [recordsFrom, hprocess]
  simp [h, bind, Except.bind]

/-- Within quotes a character other than a quote is taken as it is, line ends included. -/
theorem recordsFrom_quoted_char (hc : c ≠ '"') (hrest : rest ≠ []) (hlt : field.length < limit) :
    recordsFrom limit ⟨.inQuotedField, field, fields⟩ (marked (c :: rest)) =
      recordsFrom limit ⟨.inQuotedField, field ++ [c], fields⟩ (marked rest) := by
  have hprocess : (Reader.mk .inQuotedField field fields).process limit (some c) =
      .ok ⟨.inQuotedField, field ++ [c], fields⟩ := by
    simp only [Reader.process, if_neg hc]
    exact Reader.add_of_lt hlt _
  rw [marked.eq_def]
  split
  · rename_i heq
    cases heq
  · rename_i rest' heq
    cases heq
    rw [recordsFrom_some _ hprocess]
    rfl
  · rename_i heq
    cases heq
    split
    · rw [recordsFrom_some _ hprocess, recordsFrom_none rfl]
    · rw [recordsFrom_some _ hprocess]

/-- What is written within quotes is read as the field. -/
theorem recordsFrom_escaped (field : List Char) (hlimit : (field ++ text).length ≤ limit) :
    recordsFrom limit ⟨.inQuotedField, field, fields⟩ (marked (escaped text ++ '"' :: rest)) =
      recordsFrom limit ⟨.inQuotedField, field ++ text, fields⟩ (marked ('"' :: rest)) := by
  induction text generalizing field with
  | nil => rw [escaped, List.flatMap_nil, List.nil_append, List.append_nil]
  | cons c text ih =>
      have hlt : field.length < limit := by
        rw [List.length_append, List.length_cons] at hlimit
        omega
      have hsplit : field ++ c :: text = field ++ [c] ++ text := by simp
      have htail : escaped text ++ '"' :: rest ≠ [] := by simp
      rw [hsplit] at hlimit ⊢
      rw [← ih _ hlimit, escaped, List.flatMap_cons, List.append_assoc]
      by_cases hc : c = '"'
      · subst hc
        change recordsFrom limit _ (marked ('"' :: '"' :: (escaped text ++ '"' :: rest))) = _
        rw [marked_of_not_newline (by decide) (by simp), marked_of_not_newline (by decide) htail,
          recordsFrom_some ⟨.quoteInQuotedField, field, fields⟩ rfl]
        exact recordsFrom_some _ (Reader.add_of_lt hlt _)
      · rw [if_neg hc]
        exact recordsFrom_quoted_char hc htail hlt

/-- A field without a character that needs quotes is read as it stands. -/
theorem recordsFrom_plain (htext : text.any needsQuotes = false) (hrest : rest ≠ [])
    (hlimit : (field ++ text).length ≤ limit) :
    recordsFrom limit ⟨.inField, field, fields⟩ (marked (text ++ rest)) =
      recordsFrom limit ⟨.inField, field ++ text, fields⟩ (marked rest) := by
  induction text generalizing field with
  | nil => rw [List.nil_append, List.append_nil]
  | cons c text ih =>
      have hlt : field.length < limit := by
        rw [List.length_append, List.length_cons] at hlimit
        omega
      have hsplit : field ++ c :: text = field ++ [c] ++ text := by simp
      rw [List.any_cons, Bool.or_eq_false_iff] at htext
      rw [hsplit] at hlimit ⊢
      rw [← ih htext.2 hlimit, List.cons_append]
      simp only [needsQuotes, decide_eq_false_iff_not, not_or, Bool.not_eq_true] at htext
      obtain ⟨⟨hcomma, -, hnewline⟩, -⟩ := htext
      rw [marked_of_not_newline hnewline (by simp [hrest])]
      apply recordsFrom_some _
      simp only [Reader.process, hnewline, Bool.false_eq_true, if_false, if_neg hcomma]
      exact Reader.add_of_lt hlt _

/-- The reader has the whole field, and waits for what ends it. -/
structure Reader.Holds (r : Reader) (field : List Char) (fields : List String) : Prop where
  field : r.field = field
  fields : r.fields = fields
  state : r.state = .startField ∨ r.state = .inField ∨ r.state = .quoteInQuotedField

/-- The text stands for the field: with nothing in it that needs quotes, or within quotes. -/
def FieldText (text field : List Char) : Prop :=
  (text = field ∧ field.any needsQuotes = false) ∨ text = quoted field

theorem exists_holds (fields : List String) (htext : FieldText text field) (hrest : rest ≠ [])
    (hlimit : field.length ≤ limit) :
    ∃ r : Reader, r.Holds field fields ∧
      recordsFrom limit ⟨.startField, [], fields⟩ (marked (text ++ rest)) =
        recordsFrom limit r (marked rest) := by
  rcases htext with ⟨rfl, hplain⟩ | rfl
  · cases text with
    | nil => exact ⟨⟨.startField, [], fields⟩, ⟨rfl, rfl, Or.inl rfl⟩, rfl⟩
    | cons c text =>
        refine ⟨⟨.inField, c :: text, fields⟩, ⟨rfl, rfl, Or.inr (Or.inl rfl)⟩, ?_⟩
        rw [List.any_cons, Bool.or_eq_false_iff] at hplain
        rw [← List.singleton_append, ← recordsFrom_plain hplain.2 hrest hlimit,
          List.singleton_append, List.cons_append]
        simp only [needsQuotes, decide_eq_false_iff_not, not_or, Bool.not_eq_true] at hplain
        obtain ⟨⟨hcomma, hquote, hnewline⟩, -⟩ := hplain
        rw [marked_of_not_newline hnewline (by simp [hrest])]
        apply recordsFrom_some _
        simp only [Reader.process, Reader.beginField, hnewline, Bool.false_eq_true, if_false,
          if_neg hcomma, if_neg hquote]
        exact Reader.add_of_lt (Nat.lt_of_lt_of_le (Nat.succ_pos _) hlimit) _
  · refine ⟨⟨.quoteInQuotedField, field, fields⟩, ⟨rfl, rfl, Or.inr (Or.inr rfl)⟩, ?_⟩
    rw [quoted, List.cons_append, List.append_assoc, List.singleton_append,
      marked_of_not_newline (by decide) (by simp),
      recordsFrom_some ⟨.inQuotedField, [], fields⟩ rfl,
      recordsFrom_escaped [] hlimit, List.nil_append,
      marked_of_not_newline (by decide) hrest]
    exact recordsFrom_some _ rfl

theorem Reader.Holds.process_comma (h : r.Holds field fields) :
    r.process limit (some ',') = .ok ⟨.startField, [], fields ++ [String.ofList field]⟩ := by
  obtain ⟨rfl, rfl, hstate⟩ := h
  unfold Reader.process
  rcases hstate with hstate | hstate | hstate <;> rw [hstate] <;> rfl

theorem Reader.Holds.process_newline (h : r.Holds field fields) (hc : isNewline c) :
    r.process limit (some c) = .ok ⟨.eatCrnl, [], fields ++ [String.ofList field]⟩ := by
  have hne : c ≠ '"' ∧ c ≠ ',' := by
    constructor
    · rintro rfl
      cases hc
    · rintro rfl
      cases hc
  obtain ⟨rfl, rfl, hstate⟩ := h
  unfold Reader.process
  rcases hstate with hstate | hstate | hstate <;> rw [hstate] <;>
    simp [Reader.beginField, hc, hne, Reader.save]

/-! ## Records that are read -/

/-- The two line ends. -/
def LineEnd (eol : List Char) : Prop := eol = ['\r', '\n'] ∨ eol = ['\n']

/-- A record in which nothing is open any more ends with its line. -/
theorem recordsFrom_lineEnd {eol : List Char} (heol : LineEnd eol)
    (h : ∀ c, isNewline c → r.process limit (some c) = .ok ⟨.eatCrnl, [], fields⟩) :
    recordsFrom limit r (marked (eol ++ rest)) =
      consRecord fields (recordsFrom limit .reset (marked rest)) := by
  have hmark : recordsFrom limit ⟨.eatCrnl, [], fields⟩ (none :: marked rest) =
      consRecord fields (recordsFrom limit .reset (marked rest)) := by
    rw [recordsFrom]
    cases recordsFrom limit .reset (marked rest) <;> rfl
  rcases heol with rfl | rfl
  · change recordsFrom limit r (some '\r' :: some '\n' :: none :: marked rest) = _
    rw [recordsFrom_some _ (h '\r' rfl), recordsFrom_some ⟨.eatCrnl, [], fields⟩ rfl, hmark]
  · change recordsFrom limit r (some '\n' :: none :: marked rest) = _
    rw [recordsFrom_some _ (h '\n' rfl), hmark]

theorem recordsFrom_joined {texts : List (List Char)} {record : List String} {eol : List Char}
    (heol : LineEnd eol) (hne : record ≠ [])
    (htexts : List.Forall₂ (fun text field => FieldText text field.toList) texts record)
    (hlimit : ∀ field ∈ record, field.length ≤ limit) (fields : List String) (rest : List Char) :
    recordsFrom limit ⟨.startField, [], fields⟩ (marked (joined texts ++ (eol ++ rest))) =
      consRecord (fields ++ record) (recordsFrom limit .reset (marked rest)) := by
  have heol_ne : eol ++ rest ≠ [] := by
    rcases heol with rfl | rfl <;> simp
  induction htexts generalizing fields with
  | nil => exact absurd rfl hne
  | @cons text field texts record htext htexts ih =>
      rw [List.forall_mem_cons] at hlimit
      cases htexts with
      | nil =>
          obtain ⟨r, hholds, heq⟩ := exists_holds fields htext heol_ne hlimit.1
          rw [joined, heq, recordsFrom_lineEnd heol fun c hc => hholds.process_newline hc,
            String.ofList_toList]
      | @cons text' field' texts record htext' htexts =>
          have htail : joined (text' :: texts) ++ (eol ++ rest) ≠ [] :=
            List.append_ne_nil_of_right_ne_nil _ heol_ne
          obtain ⟨r, hholds, heq⟩ := exists_holds fields htext (List.cons_ne_nil ',' _) hlimit.1
          have hrest := ih (List.cons_ne_nil _ _) hlimit.2 (fields ++ [field])
          rw [List.append_assoc fields, List.singleton_append] at hrest
          rw [← hrest, joined, List.append_assoc, List.cons_append, heq,
            marked_of_not_newline (by decide) htail, recordsFrom_some _ hholds.process_comma,
            String.ofList_toList]
          exact List.cons_ne_nil _ _

/-- The text stands for the record: its fields with commas between them, and not an empty line
    for a record that has a field. -/
def RecordText (text : List Char) (record : List String) : Prop :=
  ∃ texts, List.Forall₂ (fun text field => FieldText text field.toList) texts record ∧
    text = joined texts ∧ (record ≠ [] → text ≠ [])

theorem FieldText.not_newline (h : FieldText (c :: text) field) : isNewline c = false := by
  rcases h with ⟨rfl, hplain⟩ | heq
  · rw [List.any_cons, Bool.or_eq_false_iff] at hplain
    simp only [needsQuotes, decide_eq_false_iff_not, not_or, Bool.not_eq_true] at hplain
    exact hplain.1.2.2
  · rw [quoted, List.cons.injEq] at heq
    rw [heq.1]
    rfl

theorem joined_not_newline {texts : List (List Char)} {record : List String}
    (htexts : List.Forall₂ (fun text field => FieldText text field.toList) texts record)
    (heq : joined texts = c :: text) : isNewline c = false := by
  cases htexts with
  | nil => cases heq
  | @cons first field texts record hfirst htexts =>
      cases first with
      | nil =>
          cases texts with
          | nil => cases heq
          | cons =>
              cases heq
              rfl
      | cons d first =>
          have hd : d = c := by
            cases texts with
            | nil => exact (List.cons.inj heq).1
            | cons => exact (List.cons.inj heq).1
          rw [← hd]
          exact hfirst.not_newline

theorem recordsFrom_reset (hc : isNewline c = false) :
    recordsFrom limit .reset (some c :: events) =
      recordsFrom limit ⟨.startField, [], []⟩ (some c :: events) := by
  have hprocess : Reader.reset.process limit (some c) =
      (Reader.mk .startField [] []).process limit (some c) := by
    simp only [Reader.reset, Reader.process, hc, Bool.false_eq_true, if_false]
    rfl
  rw [recordsFrom, hprocess, recordsFrom]

/-- A record is read from its text, and the next one from what follows. -/
theorem recordsFrom_record {record : List String} {eol : List Char}
    (htext : RecordText text record) (heol : LineEnd eol)
    (hlimit : ∀ field ∈ record, field.length ≤ limit) :
    recordsFrom limit .reset (marked (text ++ (eol ++ rest))) =
      consRecord record (recordsFrom limit .reset (marked rest)) := by
  obtain ⟨texts, htexts, rfl, hnonempty⟩ := htext
  by_cases hrecord : record = []
  · subst hrecord
    cases htexts
    apply recordsFrom_lineEnd heol
    intro c hc
    simp only [Reader.reset, Reader.process, hc, if_true]
  · obtain ⟨c, text, heq⟩ := List.exists_cons_of_ne_nil (hnonempty hrecord)
    have hc := joined_not_newline htexts heq
    have heol_ne : eol ++ rest ≠ [] := by
      rcases heol with rfl | rfl <;> simp
    have hmarked : marked (joined texts ++ (eol ++ rest)) =
        some c :: marked (text ++ (eol ++ rest)) := by
      rw [heq, List.cons_append]
      exact marked_of_not_newline hc (List.append_ne_nil_of_right_ne_nil _ heol_ne)
    have hread := recordsFrom_joined heol hrecord htexts hlimit [] rest
    rw [hmarked] at hread ⊢
    rw [recordsFrom_reset hc, hread, List.nil_append]

/-- The text stands for the records, each on lines of its own. -/
inductive FileText : List Char → List (List String) → Prop
  | nil : FileText [] []
  | cons {text eol rest : List Char} {record : List String} {rows : List (List String)} :
      RecordText text record → LineEnd eol → FileText rest rows →
        FileText (text ++ (eol ++ rest)) (record :: rows)

/-- **The reader reads every text that stands for records**, as long as no field is too long
    for it. -/
theorem FileText.records_eq {rows : List (List String)} (h : FileText text rows)
    (hlimit : ∀ record ∈ rows, ∀ field ∈ record, field.length ≤ limit) :
    records limit text = .ok rows := by
  rw [records]
  induction h with
  | nil => rfl
  | cons hrecord heol _ ih =>
      rw [List.forall_mem_cons] at hlimit
      rw [recordsFrom_record hrecord heol hlimit.1, ih hlimit.2]
      rfl

/-- Without its first character the text stands for another record. -/
theorem RecordText.tail {record : List String} (h : RecordText (c :: text) record)
    (hcomma : c ≠ ',')
    (hquote : c ≠ '"') (hlimit : ∀ field ∈ record, field.length ≤ limit) :
    ∃ record', record' ≠ record ∧ RecordText text record' ∧
      ∀ field ∈ record', field.length ≤ limit := by
  obtain ⟨texts, htexts, heq, -⟩ := h
  cases htexts with
  | nil => cases heq
  | @cons first field texts fields hfirst htexts =>
      rw [List.forall_mem_cons] at hlimit
      cases first with
      | nil =>
          cases texts with
          | nil => cases heq
          | cons => exact absurd (List.cons.inj heq).1 hcomma
      | cons d first =>
          obtain ⟨rfl, htext⟩ : c = d ∧ text = joined (first :: texts) := by
            cases texts with
            | nil => exact List.cons.inj heq
            | cons => exact List.cons.inj heq
          have hplain : field.toList = c :: first ∧ first.any needsQuotes = false := by
            rcases hfirst with ⟨hfield, hplain⟩ | hquoted
            · rw [← hfield, List.any_cons, Bool.or_eq_false_iff] at hplain
              exact ⟨hfield.symm, hplain.2⟩
            · exact absurd (List.cons.inj hquoted).1 hquote
          obtain ⟨hfield, hplain⟩ := hplain
          by_cases hblank : text = []
          · subst hblank
            refine ⟨[], (List.cons_ne_nil _ _).symm, ⟨[], .nil, rfl, ?_⟩, by simp⟩
            exact fun h => absurd rfl h
          · refine ⟨String.ofList first :: fields, ?_, ⟨first :: texts, .cons ?_ htexts, htext,
              fun _ => hblank⟩, ?_⟩
            · intro hsame
              have hlist := congrArg String.toList (List.cons.inj hsame).1
              rw [String.toList_ofList, hfield] at hlist
              exact absurd (congrArg List.length hlist) (by simp)
            · rw [String.toList_ofList]
              exact Or.inl ⟨rfl, hplain⟩
            · rw [List.forall_mem_cons, String.length_ofList]
              refine ⟨?_, hlimit.2⟩
              have hlength := hlimit.1
              rw [← String.length_toList, hfield, List.length_cons] at hlength
              exact Nat.le_of_succ_le hlength

/-! ## What the writer writes -/

theorem fieldText_writeField (field : List Char) : FieldText (writeField field) field := by
  rw [writeField]
  split
  · exact Or.inr rfl
  · rename_i hplain
    exact Or.inl ⟨rfl, Bool.not_eq_true _ ▸ hplain⟩

theorem joined_eq_nil {texts : List (List Char)} (h : joined texts = []) :
    texts = [] ∨ texts = [[]] := by
  cases texts with
  | nil => exact Or.inl rfl
  | cons text texts =>
      cases texts with
      | nil => exact Or.inr (by rw [← h, joined])
      | cons text' texts => simp [joined] at h

theorem writeRecord_eq (record : List String) :
    ∃ text, RecordText text record ∧ writeRecord record = text ++ ['\r', '\n'] := by
  have hwritten : List.Forall₂ (fun text (field : String) => FieldText text field.toList)
      (record.map fun field => writeField field.toList) record := by
    rw [List.forall₂_map_left_iff]
    exact List.forall₂_same.mpr fun field _ => fieldText_writeField field.toList
  rw [writeRecord.eq_def]
  split
  · exact ⟨quoted [], ⟨[quoted []], .cons (Or.inr rfl) .nil, rfl, by simp [quoted]⟩, rfl⟩
  · rename_i hempty
    refine ⟨_, ⟨_, hwritten, rfl, fun hrecord hnil => ?_⟩, rfl⟩
    rcases joined_eq_nil hnil with hnone | hone
    · exact hrecord (List.map_eq_nil_iff.mp hnone)
    · obtain ⟨field, rfl, hfield⟩ := List.map_eq_singleton_iff.mp hone
      have hfield_nil : field.toList = [] := by
        rw [writeField] at hfield
        split at hfield
        · cases hfield
        · exact hfield
      exact hempty (by rw [← String.ofList_toList (s := field), hfield_nil])

theorem fileText_writeRecords (rows : List (List String)) : FileText (writeRecords rows) rows := by
  induction rows with
  | nil => exact .nil
  | cons record rows ih =>
      obtain ⟨text, htext, hwritten⟩ := writeRecord_eq record
      rw [writeRecords, List.flatMap_cons, hwritten, List.append_assoc]
      exact .cons htext (Or.inl rfl) ih

/-- **What was written is read back.** -/
theorem records_writeRecords {rows : List (List String)}
    (hlimit : ∀ record ∈ rows, ∀ field ∈ record, field.length ≤ limit) :
    records limit (writeRecords rows) = .ok rows :=
  (fileText_writeRecords rows).records_eq hlimit

/-! ## Line ends made line feeds -/

theorem universal_cons (hc : c ≠ '\r') : universal (c :: rest) = c :: universal rest := by
  rw [universal, if_neg hc]
  intro rest' hr
  exact absurd hr hc

theorem universal_eq_nil : universal text = [] ↔ text = [] := by
  constructor
  · intro h
    unfold universal at h
    split at h
    · rfl
    · cases h
    · cases h
  · rintro rfl
    rfl

/-- The field that is read where line ends are made line feeds. -/
def lined (field : String) : String := String.ofList (universal field.toList)

theorem universal_of_not_mem (htext : '\r' ∉ text) : universal text = text := by
  induction text with
  | nil => rfl
  | cons c text ih =>
      rw [List.mem_cons, not_or] at htext
      rw [universal_cons (Ne.symm htext.1), ih htext.2]

theorem lined_of_not_mem {field : String} (hfield : '\r' ∉ field.toList) : lined field = field := by
  rw [lined, universal_of_not_mem hfield, String.ofList_toList]

theorem universal_plain (hplain : text.any needsQuotes = false) :
    universal (text ++ rest) = text ++ universal rest := by
  induction text with
  | nil => rfl
  | cons c text ih =>
      rw [List.any_cons, Bool.or_eq_false_iff] at hplain
      have hc : c ≠ '\r' := by
        rintro rfl
        exact absurd hplain.1 (by decide)
      rw [List.cons_append, universal_cons hc, ih hplain.2, List.cons_append]

theorem universal_escaped (field rest : List Char) :
    universal (escaped field ++ '"' :: rest) =
      escaped (universal field) ++ '"' :: universal rest := by
  induction field using universal.induct with
  | case1 => exact universal_cons (by decide)
  | case2 field ih =>
      change '\n' :: universal (escaped field ++ '"' :: rest) = _
      rw [ih]
      rfl
  | case3 c field hpair ih =>
      by_cases hquote : c = '"'
      · subst hquote
        change universal ('"' :: '"' :: (escaped field ++ '"' :: rest)) = _
        rw [universal_cons (by decide), universal_cons (by decide), ih,
          universal_cons (by decide)]
        rfl
      · have hescaped : escaped (c :: field) = c :: escaped field := by
          simp [escaped, hquote]
        rw [hescaped, List.cons_append]
        by_cases hc : c = '\r'
        · subst hc
          have htail : ∀ tail, escaped field ++ '"' :: rest = '\n' :: tail → False := by
            intro tail htail
            cases field with
            | nil => cases htail
            | cons d field =>
                by_cases hd : d = '"'
                · subst hd
                  cases htail
                · simp only [escaped, List.flatMap_cons, if_neg hd,
                    List.cons_append, List.cons.injEq] at htail
                  exact hpair field rfl (by rw [htail.1])
          rw [universal, ih, universal]
          · rfl
          · exact hpair
          · exact fun tail _ => htail tail
        · rw [universal_cons hc, ih, universal_cons hc]
          simp [escaped, hquote]

theorem FieldText.universal (h : FieldText text field) :
    ∃ text', FieldText text' (Csv.universal field) ∧
      ∀ rest, Csv.universal (text ++ rest) = text' ++ Csv.universal rest := by
  rcases h with ⟨rfl, hplain⟩ | rfl
  · have hsame : Csv.universal text = text := by
      have hend := @universal_plain text [] hplain
      rwa [List.append_nil, Csv.universal, List.append_nil] at hend
    refine ⟨text, Or.inl ⟨hsame.symm, hsame.symm ▸ hplain⟩, fun rest => universal_plain hplain⟩
  · refine ⟨quoted (Csv.universal field), Or.inr rfl, fun rest => ?_⟩
    simp only [quoted, List.cons_append, List.append_assoc]
    rw [universal_cons (by decide), universal_escaped]
    rfl

theorem exists_universal_joined {texts : List (List Char)} {record : List String}
    (htexts : List.Forall₂ (fun text field => FieldText text field.toList) texts record) :
    ∃ texts', List.Forall₂ (fun text field => FieldText text field.toList) texts'
        (record.map lined) ∧
      ∀ rest, universal (joined texts ++ rest) = joined texts' ++ universal rest := by
  induction htexts with
  | nil => exact ⟨[], .nil, fun _ => rfl⟩
  | @cons text field texts record htext htexts ih =>
      obtain ⟨text', htext', heq⟩ := htext.universal
      obtain ⟨texts', htexts', hrest⟩ := ih
      have hfield : FieldText text' (lined field).toList := by
        rw [lined, String.toList_ofList]
        exact htext'
      refine ⟨text' :: texts', .cons hfield htexts', fun rest => ?_⟩
      cases htexts with
      | nil =>
          cases htexts'
          exact heq rest
      | cons =>
          cases htexts' with
          | cons =>
              simp only [joined, List.append_assoc, List.cons_append] at hrest ⊢
              rw [heq, universal_cons (by decide), hrest]

theorem RecordText.universal {record : List String} (h : RecordText text record) :
    ∃ text', RecordText text' (record.map lined) ∧
      ∀ rest, Csv.universal (text ++ rest) = text' ++ Csv.universal rest := by
  obtain ⟨texts, htexts, rfl, hnonempty⟩ := h
  obtain ⟨texts', htexts', heq⟩ := exists_universal_joined htexts
  refine ⟨joined texts', ⟨texts', htexts', rfl, fun hrecord hnil => ?_⟩, heq⟩
  have hend := heq []
  rw [List.append_nil, hnil, Csv.universal, List.append_nil, universal_eq_nil] at hend
  exact hnonempty (fun hrecord' => hrecord (by rw [hrecord', List.map_nil])) hend

theorem FileText.universal {rows : List (List String)} (h : FileText text rows) :
    FileText (Csv.universal text) (rows.map (·.map lined)) := by
  induction h with
  | nil => exact .nil
  | cons hrecord heol _ ih =>
      obtain ⟨text', htext', heq⟩ := hrecord.universal
      rw [heq]
      rcases heol with rfl | rfl
      · exact .cons htext' (Or.inr rfl) ih
      · exact .cons htext' (Or.inr rfl) ih

theorem length_universal_le (text : List Char) : (universal text).length ≤ text.length := by
  induction text using universal.induct with
  | case1 => exact Nat.le_refl _
  | case2 rest ih =>
      rw [universal, List.length_cons, List.length_cons, List.length_cons]
      omega
  | case3 c rest hpair ih =>
      rw [universal, List.length_cons, List.length_cons]
      · omega
      · exact hpair

/-- **What was written is read back where line ends are made line feeds**, with its own line
    ends made line feeds too. -/
theorem records_universal {rows : List (List String)}
    (hlimit : ∀ record ∈ rows, ∀ field ∈ record, field.length ≤ limit) :
    records limit (universal (writeRecords rows)) = .ok (rows.map (·.map lined)) := by
  apply (fileText_writeRecords rows).universal.records_eq
  intro lines hlines line hline
  obtain ⟨record, hrecord, rfl⟩ := List.mem_map.mp hlines
  obtain ⟨field, hfield, rfl⟩ := List.mem_map.mp hline
  have hlength := length_universal_le field.toList
  rw [lined, String.length_ofList]
  exact Nat.le_trans hlength (hlimit record hrecord field hfield)

/-! ## No field is longer than the limit -/

/-- What the reader holds is not too long. -/
structure Reader.Bounded (limit : Nat) (r : Reader) : Prop where
  field : r.field.length ≤ limit
  fields : ∀ field ∈ r.fields, field.length ≤ limit

theorem Reader.Bounded.state (h : r.Bounded limit) (state : ReaderState) :
    Reader.Bounded limit { r with state := state } := ⟨h.field, h.fields⟩

theorem Reader.Bounded.save (h : r.Bounded limit) (state : ReaderState) :
    (r.save state).Bounded limit := by
  refine ⟨Nat.zero_le _, fun field hfield => ?_⟩
  rcases List.mem_append.mp hfield with hfield | hfield
  · exact h.fields field hfield
  · rw [List.mem_singleton.mp hfield, String.length_ofList]
    exact h.field

theorem Reader.Bounded.add (h : r.Bounded limit) {state : ReaderState}
    (hadd : r.add limit c state = .ok r') : r'.Bounded limit := by
  rw [Reader.add] at hadd
  split at hadd
  · rename_i hlt
    cases hadd
    refine ⟨?_, h.fields⟩
    rw [List.length_append, List.length_singleton]
    exact hlt
  · cases hadd

theorem Reader.Bounded.beginField (h : r.Bounded limit) (hbegin : r.beginField limit c = .ok r') :
    r'.Bounded limit := by
  rw [Reader.beginField] at hbegin
  split at hbegin
  · cases hbegin
    exact h.save _
  · split at hbegin
    · cases hbegin
      exact h.state _
    · split at hbegin
      · cases hbegin
        exact h.save _
      · exact h.add hbegin

theorem Reader.Bounded.process (h : r.Bounded limit) {next : Option Char}
    (hprocess : r.process limit next = .ok r') : r'.Bounded limit := by
  unfold Reader.process at hprocess
  split at hprocess
  · cases hprocess
    exact h
  · split at hprocess
    · cases hprocess
      exact h.state _
    · exact h.beginField hprocess
  · cases hprocess
    exact h.save _
  · exact h.beginField hprocess
  · cases hprocess
    exact h.save _
  · split at hprocess
    · cases hprocess
      exact h.save _
    · split at hprocess
      · cases hprocess
        exact h.save _
      · exact h.add hprocess
  · cases hprocess
    exact h
  · split at hprocess
    · cases hprocess
      exact h.state _
    · exact h.add hprocess
  · cases hprocess
    exact h.save _
  · split at hprocess
    · exact h.add hprocess
    · split at hprocess
      · cases hprocess
        exact h.save _
      · split at hprocess
        · cases hprocess
          exact h.save _
        · exact h.add hprocess
  · cases hprocess
    exact h.state _
  · split at hprocess
    · cases hprocess
      exact h
    · cases hprocess

theorem Reader.Bounded.recordsFrom (h : r.Bounded limit) {rows : List (List String)}
    (hread : Csv.recordsFrom limit r events = .ok rows) :
    ∀ record ∈ rows, ∀ field ∈ record, field.length ≤ limit := by
  induction events generalizing r rows with
  | nil =>
      rw [Csv.recordsFrom, Except.ok.injEq] at hread
      subst hread
      split
      · intro record hrecord
        rw [List.mem_singleton.mp hrecord]
        exact (h.save .startRecord).fields
      · intro record hrecord
        cases hrecord
  | cons next events ih =>
      rw [Csv.recordsFrom, Loop.bind_eq_ok] at hread
      obtain ⟨r', hprocess, hread⟩ := hread
      split at hread
      · obtain ⟨rest, hrest, hrows⟩ := Loop.bind_eq_ok.mp hread
        cases hrows
        rw [List.forall_mem_cons]
        exact ⟨(h.process hprocess).fields, ih ⟨Nat.zero_le _, by simp [Reader.reset]⟩ hrest⟩
      · exact ih (h.process hprocess) hread

/-- A field that was read is short enough to be read again. -/
theorem length_le_of_records {rows : List (List String)} (h : records limit text = .ok rows) :
    ∀ record ∈ rows, ∀ field ∈ record, field.length ≤ limit := by
  have hreset : Reader.reset.Bounded limit := ⟨Nat.zero_le _, by simp [Reader.reset]⟩
  exact hreset.recordsFrom h

/-- A cell with a comma, a quote and a line end, and a row that is one empty cell. -/
example : records 100 (writeRecords [["a,\"b\"", "", "c\r\nd"], [""], []]) =
    .ok [["a,\"b\"", "", "c\r\nd"], [""], []] := by
  decide +kernel

end Reads

end Csv
