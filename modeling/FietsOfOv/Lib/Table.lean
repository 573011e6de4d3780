import Mathlib.Data.List.Perm.Basic
import Mathlib.Data.List.Nodup
import Mathlib.Tactic.Common

/-!
# A table with a unique key and open transactions

A relational table as several sessions see it at isolation level READ
COMMITTED.  The committed rows are what every query reads.  A session's own
inserts and updates wait in `uncommitted`, tagged with the session, until it
commits or rolls back.  `insertOnConflictDoNothing` is the Postgres statement:
it waits (`none`) while another open transaction holds a row with the same key,
skips when the key is taken, and inserts otherwise.  Row numbers come from a
sequence that never hands a number out twice, skipped inserts included.
-/

namespace Transactional

/-- What a table needs of its rows: a surrogate number, a unique key, and
    changes that touch neither. -/
structure Schema (ρ κ χ : Type) where
  ident : ρ → Nat
  key : ρ → κ
  patch : χ → ρ → ρ
  ident_patch : ∀ c r, ident (patch c r) = ident r
  key_patch : ∀ c r, key (patch c r) = key r

inductive Write (ρ χ : Type) where
  | insert (row : ρ)
  | update (id : Nat) (change : χ)

structure Table (ρ χ : Type) where
  rows : List ρ
  uncommitted : List (Nat × Write ρ χ)
  nextId : Nat

variable {ρ κ χ : Type} (S : Schema ρ κ χ)

def Write.row? : Write ρ χ → Option ρ
  | .insert row => some row
  | .update _ _ => none

namespace Table

/-- The writes of one session's open transaction, oldest first. -/
def openOf (t : Table ρ χ) (session : Nat) : List (Write ρ χ) :=
  (t.uncommitted.filter (·.1 == session)).map (·.2)

/-- The rows of all open transactions. -/
def pendingRows (t : Table ρ χ) : List ρ := t.uncommitted.filterMap (·.2.row?)

/-- `UPDATE … WHERE id = …`; it may match no row. -/
def update (t : Table ρ χ) (session id : Nat) (change : χ) : Table ρ χ :=
  { t with uncommitted := t.uncommitted ++ [(session, .update id change)] }

def applyWrite (rows : List ρ) : Write ρ χ → List ρ
  | .insert row => rows ++ [row]
  | .update id change => rows.map fun r => if S.ident r = id then S.patch change r else r

def commit (t : Table ρ χ) (session : Nat) : Table ρ χ :=
  { t with
    rows := (t.openOf session).foldl (applyWrite S) t.rows
    uncommitted := t.uncommitted.filter (·.1 != session) }

def rollback (t : Table ρ χ) (session : Nat) : Table ρ χ :=
  { t with uncommitted := t.uncommitted.filter (·.1 != session) }

/-- A committed `DELETE … WHERE p`. -/
def delete (t : Table ρ χ) (p : ρ → Bool) : Table ρ χ :=
  { t with rows := t.rows.filter (!p ·) }

/-! ## What one session's statement leaves to the others -/

@[simp] theorem openOf_update (t : Table ρ χ) (session other id : Nat) (change : χ) :
    (t.update session id change).openOf other =
      t.openOf other ++ if session = other then [.update id change] else [] := by
  by_cases h : session = other <;> simp [openOf, update, h]

@[simp] theorem openOf_rollback_self (t : Table ρ χ) (session : Nat) :
    (t.rollback session).openOf session = [] := by
  simp [openOf, rollback, List.filter_filter]

/-- A session with nothing open rolls nothing back. -/
theorem rollback_eq_self {t : Table ρ χ} {session : Nat} (h : t.openOf session = []) :
    t.rollback session = t := by
  rw [openOf, List.map_eq_nil_iff, List.filter_eq_nil_iff] at h
  rw [rollback, List.filter_eq_self.mpr]
  intro w hw
  simpa using h w hw

theorem openOf_rollback_other (t : Table ρ χ) {session other : Nat} (h : session ≠ other) :
    (t.rollback session).openOf other = t.openOf other := by
  simp only [openOf, rollback, List.filter_filter]
  congr 1
  apply List.filter_congr
  intro w _
  by_cases hw : w.1 = other
  · simp [hw, Ne.symm h]
  · simp [hw]

@[simp] theorem openOf_commit_self (t : Table ρ χ) (session : Nat) :
    (t.commit S session).openOf session = [] :=
  openOf_rollback_self t session

theorem openOf_commit_other (t : Table ρ χ) {session other : Nat} (h : session ≠ other) :
    (t.commit S session).openOf other = t.openOf other :=
  openOf_rollback_other t h

theorem mem_rows_delete {t : Table ρ χ} {p : ρ → Bool} {r : ρ} :
    r ∈ (t.delete p).rows ↔ r ∈ t.rows ∧ p r = false := by
  simp [delete]

/-! ## The three transactions a session can commit: nothing, one row, one change -/

theorem rows_commit_nil {t : Table ρ χ} {session : Nat} (h : t.openOf session = []) :
    (t.commit S session).rows = t.rows := by
  simp [commit, h]

theorem rows_commit_insert {t : Table ρ χ} {session : Nat} {row : ρ}
    (h : t.openOf session = [.insert row]) :
    (t.commit S session).rows = t.rows ++ [row] := by
  simp [commit, h, applyWrite]

theorem rows_commit_update {t : Table ρ χ} {session id : Nat} {change : χ}
    (h : t.openOf session = [.update id change]) :
    (t.commit S session).rows =
      t.rows.map fun r => if S.ident r = id then S.patch change r else r := by
  simp [commit, h, applyWrite]

/-- Where numbers are unique, an update changes the one row that has its number. -/
theorem update_rows_split {rows : List ρ} (change : χ) (hidents : (rows.map S.ident).Nodup)
    {row : ρ} (hrow : row ∈ rows) :
    ∃ before after, rows = before ++ row :: after ∧
      (rows.map fun r => if S.ident r = S.ident row then S.patch change r else r) =
        before ++ S.patch change row :: after := by
  obtain ⟨before, after, rfl⟩ := List.append_of_mem hrow
  rw [List.map_append, List.map_cons, List.nodup_append, List.nodup_cons] at hidents
  obtain ⟨_, ⟨hafter, _⟩, hbefore⟩ := hidents
  refine ⟨before, after, rfl, ?_⟩
  have hsame : ∀ part : List ρ, (∀ r ∈ part, S.ident r ≠ S.ident row) →
      (part.map fun r => if S.ident r = S.ident row then S.patch change r else r) = part := by
    intro part hpart
    refine (List.map_congr_left fun r hr => ?_).trans (List.map_id part)
    rw [if_neg (hpart r hr), id]
  rw [List.map_append, List.map_cons, if_pos rfl, hsame before, hsame after]
  · intro r hr heq
    exact hafter (heq ▸ List.mem_map_of_mem hr)
  · intro r hr
    exact hbefore _ (List.mem_map_of_mem hr) _ List.mem_cons_self

/-! ## The insert -/

section Insert

variable [DecidableEq κ]

/-- Another session holds an uncommitted row with this key. -/
def blocked (t : Table ρ χ) (session : Nat) (key : κ) : Bool :=
  t.uncommitted.any fun w => w.1 != session && w.2.row?.any (S.key · = key)

/-- The key is taken by a committed row or by one of the session itself. -/
def taken (t : Table ρ χ) (session : Nat) (key : κ) : Bool :=
  t.rows.any (S.key · = key) ||
    t.uncommitted.any fun w => w.1 == session && w.2.row?.any (S.key · = key)

/-- `INSERT … ON CONFLICT DO NOTHING … RETURNING`, given the new row as a function
    of its number. -/
def insertOnConflictDoNothing (t : Table ρ χ) (session : Nat) (row : Nat → ρ) :
    Option (Table ρ χ × Option ρ) :=
  let new := row t.nextId
  if t.blocked S session (S.key new) then none
  else if t.taken S session (S.key new) then some ({ t with nextId := t.nextId + 1 }, none)
  else some ({ t with
    uncommitted := t.uncommitted ++ [(session, .insert new)]
    nextId := t.nextId + 1 }, some new)

/-- What an insert that went through did. -/
theorem insert_cases {t t' : Table ρ χ} {session : Nat} {row : Nat → ρ} {result : Option ρ}
    (h : t.insertOnConflictDoNothing S session row = some (t', result)) :
    (result = none ∧ t' = { t with nextId := t.nextId + 1 } ∧
      t.taken S session (S.key (row t.nextId)) = true) ∨
    (result = some (row t.nextId) ∧
      t' = { t with
        uncommitted := t.uncommitted ++ [(session, .insert (row t.nextId))]
        nextId := t.nextId + 1 } ∧
      t.blocked S session (S.key (row t.nextId)) = false ∧
      t.taken S session (S.key (row t.nextId)) = false) := by
  simp only [insertOnConflictDoNothing] at h
  split at h
  · cases h
  · rename_i hblocked
    split at h
    · rename_i htaken
      cases h
      exact Or.inl ⟨rfl, rfl, htaken⟩
    · rename_i htaken
      cases h
      exact Or.inr ⟨rfl, rfl, by simpa using hblocked, by simpa using htaken⟩

theorem blocked_eq_true {t : Table ρ χ} {session : Nat} {key : κ} :
    t.blocked S session key = true ↔
      ∃ other row, (other, Write.insert row) ∈ t.uncommitted ∧ other ≠ session ∧
        S.key row = key := by
  simp only [blocked, List.any_eq_true, Bool.and_eq_true, bne_iff_ne, Option.any_eq_true]
  constructor
  · rintro ⟨⟨other, w⟩, hmem, hne, row, hrow, hkey⟩
    cases w with
    | insert r =>
        cases hrow
        exact ⟨other, _, hmem, hne, by simpa using hkey⟩
    | update id change => cases hrow
  · rintro ⟨other, row, hmem, hne, hkey⟩
    exact ⟨(other, .insert row), hmem, hne, row, rfl, by simpa using hkey⟩

theorem taken_eq_true {t : Table ρ χ} {session : Nat} {key : κ} :
    t.taken S session key = true ↔
      (∃ r ∈ t.rows, S.key r = key) ∨
        ∃ row, (session, Write.insert row) ∈ t.uncommitted ∧ S.key row = key := by
  simp only [taken, Bool.or_eq_true, List.any_eq_true, Bool.and_eq_true, beq_iff_eq,
    Option.any_eq_true, decide_eq_true_eq]
  refine or_congr Iff.rfl ⟨?_, ?_⟩
  · rintro ⟨⟨other, w⟩, hmem, hself, row, hrow, hkey⟩
    cases w with
    | insert r =>
        cases hrow
        cases hself
        exact ⟨_, hmem, hkey⟩
    | update id change => cases hrow
  · rintro ⟨row, hmem, hkey⟩
    exact ⟨(session, .insert row), hmem, rfl, row, rfl, hkey⟩

end Insert

theorem openOf_insert (t : Table ρ χ) (session other : Nat) (row : ρ) (n : Nat) :
    Table.openOf { t with uncommitted := t.uncommitted ++ [(session, .insert row)], nextId := n }
      other = t.openOf other ++ if session = other then [.insert row] else [] := by
  by_cases h : session = other <;> simp [openOf, h]

theorem mem_openOf {t : Table ρ χ} {session : Nat} {w : Write ρ χ} :
    w ∈ t.openOf session ↔ (session, w) ∈ t.uncommitted := by
  simp [openOf]

/-- The insert of a key that nobody holds. -/
theorem insert_new [DecidableEq κ] {t : Table ρ χ} {session : Nat} {row : Nat → ρ}
    (hrows : ∀ r ∈ t.rows, S.key r ≠ S.key (row t.nextId)) (hopen : t.openOf session = [])
    (hblocked : t.blocked S session (S.key (row t.nextId)) = false) :
    ∃ t', t.insertOnConflictDoNothing S session row = some (t', some (row t.nextId)) ∧
      t'.rows = t.rows ∧ t'.openOf session = [.insert (row t.nextId)] := by
  have htaken : t.taken S session (S.key (row t.nextId)) = false := by
    rw [Bool.eq_false_iff]
    intro htrue
    rcases (taken_eq_true S).mp htrue with ⟨r, hr, hkey⟩ | ⟨r, hr, hkey⟩
    · exact hrows r hr hkey
    · have hmem := mem_openOf.mpr hr
      rw [hopen] at hmem
      cases hmem
  refine ⟨{ t with
    uncommitted := t.uncommitted ++ [(session, .insert (row t.nextId))]
    nextId := t.nextId + 1 }, ?_, rfl, ?_⟩
  · simp only [insertOnConflictDoNothing, hblocked, htaken, Bool.false_eq_true, if_false]
  · rw [openOf_insert, hopen, if_pos rfl, List.nil_append]

/-- An insert goes through unless another session holds the key. -/
theorem insert_isSome [DecidableEq κ] {t : Table ρ χ} {session : Nat} {row : Nat → ρ}
    (hblocked : t.blocked S session (S.key (row t.nextId)) = false) :
    ∃ t' result, t.insertOnConflictDoNothing S session row = some (t', result) := by
  simp only [insertOnConflictDoNothing, hblocked, Bool.false_eq_true, if_false]
  split
  · exact ⟨_, _, rfl⟩
  · exact ⟨_, _, rfl⟩

/-- What blocks a session is what the other sessions have open. -/
theorem blocked_congr [DecidableEq κ] {t t' : Table ρ χ} {session : Nat} (key : κ)
    (h : ∀ other, session ≠ other → t'.openOf other = t.openOf other) :
    t'.blocked S session key = t.blocked S session key := by
  rw [Bool.eq_iff_iff, blocked_eq_true, blocked_eq_true]
  refine exists_congr fun other => exists_congr fun row => ?_
  rw [← mem_openOf, ← mem_openOf]
  constructor
  · rintro ⟨hmem, hne, hkey⟩
    exact ⟨h other hne.symm ▸ hmem, hne, hkey⟩
  · rintro ⟨hmem, hne, hkey⟩
    exact ⟨(h other hne.symm).symm ▸ hmem, hne, hkey⟩

theorem mem_pendingRows {t : Table ρ χ} {r : ρ} :
    r ∈ t.pendingRows ↔ ∃ session, (session, Write.insert r) ∈ t.uncommitted := by
  simp only [pendingRows, List.mem_filterMap]
  constructor
  · rintro ⟨⟨session, w⟩, hmem, hrow⟩
    cases w with
    | insert row =>
        cases hrow
        exact ⟨session, hmem⟩
    | update id change => cases hrow
  · rintro ⟨session, hmem⟩
    exact ⟨(session, .insert r), hmem, rfl⟩

/-! ## Keys and numbers stay unique -/

/-- No two rows, committed or open, share a key or a number, and the sequence
    is past every number handed out. -/
structure WellKeyed (t : Table ρ χ) : Prop where
  keys : ((t.rows ++ t.pendingRows).map S.key).Nodup
  idents : ((t.rows ++ t.pendingRows).map S.ident).Nodup
  below : ∀ r ∈ t.rows ++ t.pendingRows, S.ident r < t.nextId

variable {S}

theorem WellKeyed.eq_of_key {t : Table ρ χ} (h : t.WellKeyed S) {r r' : ρ} (hr : r ∈ t.rows)
    (hr' : r' ∈ t.rows) (hkey : S.key r = S.key r') : r = r' :=
  List.inj_on_of_nodup_map h.keys (List.mem_append_left _ hr) (List.mem_append_left _ hr') hkey

theorem WellKeyed.eq_of_ident {t : Table ρ χ} (h : t.WellKeyed S) {r r' : ρ} (hr : r ∈ t.rows)
    (hr' : r' ∈ t.rows) (hident : S.ident r = S.ident r') : r = r' :=
  List.inj_on_of_nodup_map h.idents (List.mem_append_left _ hr) (List.mem_append_left _ hr')
    hident

/-- `WHERE key = …` finds the one row that has the key. -/
theorem WellKeyed.filter_key [DecidableEq κ] {t : Table ρ χ} (h : t.WellKeyed S) {r : ρ}
    (hr : r ∈ t.rows) : t.rows.filter (S.key · = S.key r) = [r] := by
  have hnodup : (t.rows.map S.key).Nodup := by
    have hkeys := h.keys
    rw [List.map_append] at hkeys
    exact hkeys.of_append_left
  obtain ⟨before, after, heq⟩ := List.append_of_mem hr
  rw [heq, List.map_append, List.map_cons, List.nodup_append, List.nodup_cons] at hnodup
  obtain ⟨-, ⟨hafter, -⟩, hbefore⟩ := hnodup
  have hnone : ∀ part : List ρ, (∀ r' ∈ part, S.key r' ≠ S.key r) →
      part.filter (S.key · = S.key r) = [] := by
    intro part hpart
    rw [List.filter_eq_nil_iff]
    intro r' hr'
    rw [decide_eq_true_eq]
    exact hpart r' hr'
  rw [heq, List.filter_append, List.filter_cons_of_pos (by simp), hnone before, hnone after,
    List.nil_append]
  · intro r' hr' hkey
    exact hafter (hkey ▸ List.mem_map_of_mem hr')
  · intro r' hr' hkey
    exact hbefore _ (List.mem_map_of_mem hr') _ List.mem_cons_self hkey

theorem WellKeyed.of_sublist {t t' : Table ρ χ} (h : t.WellKeyed S)
    (hrows : t'.rows.Sublist t.rows) (hpending : t'.pendingRows.Sublist t.pendingRows)
    (hnext : t'.nextId = t.nextId) : t'.WellKeyed S where
  keys := h.keys.sublist ((hrows.append hpending).map _)
  idents := h.idents.sublist ((hrows.append hpending).map _)
  below r hr := hnext ▸ h.below r ((hrows.append hpending).subset hr)

theorem WellKeyed.rollback {t : Table ρ χ} (h : t.WellKeyed S) (session : Nat) :
    (t.rollback session).WellKeyed S :=
  h.of_sublist (List.Sublist.refl _) (List.filter_sublist.filterMap _) rfl

theorem WellKeyed.delete {t : Table ρ χ} (h : t.WellKeyed S) (p : ρ → Bool) :
    (t.delete p).WellKeyed S :=
  h.of_sublist List.filter_sublist (List.Sublist.refl _) rfl

theorem WellKeyed.update {t : Table ρ χ} (h : t.WellKeyed S) (session id : Nat) (change : χ) :
    (t.update session id change).WellKeyed S := by
  have hpending : (t.update session id change).pendingRows = t.pendingRows := by
    simp [pendingRows, Table.update, Write.row?]
  exact ⟨by rw [hpending]; exact h.keys, by rw [hpending]; exact h.idents,
    by rw [hpending]; exact h.below⟩

/-- A change of the rows that `applyWrite` makes shows in any projection that
    patches leave alone as the inserted rows appended. -/
theorem map_foldl_applyWrite {β : Type} (f : ρ → β) (hpatch : ∀ c r, f (S.patch c r) = f r)
    (writes : List (Write ρ χ)) (rows : List ρ) :
    (writes.foldl (applyWrite S) rows).map f =
      rows.map f ++ (writes.filterMap Write.row?).map f := by
  induction writes generalizing rows with
  | nil => simp
  | cons w writes ih =>
      rw [List.foldl_cons, ih]
      cases w with
      | insert row => simp [applyWrite, Write.row?]
      | update id change =>
          have hmap : (applyWrite S rows (.update id change)).map f = rows.map f := by
            simp only [applyWrite, List.map_map]
            apply List.map_congr_left
            intro r _
            by_cases hr : S.ident r = id <;> simp [hr, hpatch]
          rw [hmap]
          rfl

/-- A commit takes the session's rows out of the open ones. -/
theorem pendingRows_commit_perm (t : Table ρ χ) (session : Nat) :
    ((t.openOf session).filterMap Write.row? ++ (t.commit S session).pendingRows).Perm
      t.pendingRows := by
  have hown : (t.openOf session).filterMap Write.row? =
      (t.uncommitted.filter (·.1 == session)).filterMap (·.2.row?) := by
    simp [openOf, List.filterMap_map]
  rw [hown]
  simp only [pendingRows, commit, ← List.filterMap_append]
  exact (List.filter_append_perm (·.1 == session) t.uncommitted).filterMap _

theorem map_commit_perm {β : Type} (f : ρ → β) (hpatch : ∀ c r, f (S.patch c r) = f r)
    (t : Table ρ χ) (session : Nat) :
    (((t.commit S session).rows ++ (t.commit S session).pendingRows).map f).Perm
      ((t.rows ++ t.pendingRows).map f) := by
  have hrows : (t.commit S session).rows.map f =
      t.rows.map f ++ ((t.openOf session).filterMap Write.row?).map f :=
    map_foldl_applyWrite f hpatch _ _
  rw [List.map_append, List.map_append, hrows, List.append_assoc, ← List.map_append]
  exact ((pendingRows_commit_perm t session).map f).append_left _

theorem WellKeyed.commit {t : Table ρ χ} (h : t.WellKeyed S) (session : Nat) :
    (t.commit S session).WellKeyed S where
  keys := (map_commit_perm S.key S.key_patch t session).nodup_iff.mpr h.keys
  idents := (map_commit_perm S.ident S.ident_patch t session).nodup_iff.mpr h.idents
  below r hr := by
    have hmem := (map_commit_perm S.ident S.ident_patch t session).subset
      (List.mem_map_of_mem (f := S.ident) hr)
    obtain ⟨r', hr', hident⟩ := List.mem_map.mp hmem
    exact hident ▸ h.below r' hr'

theorem WellKeyed.insert [DecidableEq κ] {t t' : Table ρ χ} (h : t.WellKeyed S) {session : Nat}
    {row : Nat → ρ} {result : Option ρ} (hident : ∀ n, S.ident (row n) = n)
    (hinsert : t.insertOnConflictDoNothing S session row = some (t', result)) :
    t'.WellKeyed S := by
  rcases insert_cases S hinsert with ⟨_, rfl, _⟩ | ⟨_, rfl, hblocked, htaken⟩
  · exact ⟨h.keys, h.idents, fun r hr => Nat.lt_succ_of_lt (h.below r hr)⟩
  · have hperm : (t.rows ++ Table.pendingRows { t with
        uncommitted := t.uncommitted ++ [(session, Write.insert (row t.nextId))]
        nextId := t.nextId + 1 }).Perm (row t.nextId :: (t.rows ++ t.pendingRows)) := by
      simp only [pendingRows, List.filterMap_append, List.filterMap_cons, Write.row?,
        List.filterMap_nil, ← List.append_assoc]
      exact List.perm_append_singleton _ _
    -- the key is nowhere: not committed, not in the own transaction, not in another one
    have hfresh : ∀ r ∈ t.rows ++ t.pendingRows, S.key r ≠ S.key (row t.nextId) := by
      intro r hr hkey
      rcases List.mem_append.mp hr with hr | hr
      · have htrue : t.taken S session (S.key (row t.nextId)) = true :=
          (taken_eq_true S).mpr (Or.inl ⟨r, hr, hkey⟩)
        simp [htrue] at htaken
      · obtain ⟨other, hother⟩ := mem_pendingRows.mp hr
        by_cases hself : other = session
        · subst hself
          have htrue := (taken_eq_true S).mpr (Or.inr ⟨r, hother, hkey⟩)
          simp [htrue] at htaken
        · have htrue := (blocked_eq_true S).mpr ⟨other, r, hother, hself, hkey⟩
          simp [htrue] at hblocked
    refine ⟨(hperm.map _).nodup_iff.mpr ?_, (hperm.map _).nodup_iff.mpr ?_, fun r hr => ?_⟩
    · rw [List.map_cons, List.nodup_cons]
      refine ⟨fun hmem => ?_, h.keys⟩
      obtain ⟨r, hr, hkey⟩ := List.mem_map.mp hmem
      exact hfresh r hr hkey
    · rw [List.map_cons, List.nodup_cons]
      refine ⟨fun hmem => ?_, h.idents⟩
      obtain ⟨r, hr, heq⟩ := List.mem_map.mp hmem
      have := h.below r hr
      rw [heq, hident] at this
      exact Nat.lt_irrefl _ this
    · rcases List.mem_cons.mp (hperm.subset hr) with rfl | hr
      · rw [hident]
        exact Nat.lt_succ_self _
      · exact Nat.lt_succ_of_lt (h.below r hr)

end Table

end Transactional
