import Mathlib.Data.List.Sort
import Mathlib.Tactic.Common

/-!
# A table of rows with serial numbers and owners

The rows of all owners stand in one table, and every row gets a number above all those
handed out before.  A query names an owner, or a number and an owner.
-/

namespace OwnedRows

structure Table (ρ : Type) where
  rows : List ρ
  /-- The last number handed out. -/
  lastId : Nat

variable {ρ κ : Type} [DecidableEq κ] (ident : ρ → Nat) (owner : ρ → κ)

/-- `WHERE owner = …`. -/
def rowsOf (rows : List ρ) (k : κ) : List ρ := rows.filter (owner · = k)

/-- `WHERE owner = … ORDER BY id DESC`. -/
def newestFirst (rows : List ρ) (k : κ) : List ρ :=
  (rowsOf owner rows k).insertionSort fun r r' => ident r' ≤ ident r

/-- `WHERE id = … AND owner = …`. -/
def matching (rows : List ρ) (id : Nat) (k : κ) : List ρ :=
  rows.filter fun r => ident r = id ∧ owner r = k

/-- `DELETE … WHERE id = …`. -/
def remove (rows : List ρ) (id : Nat) : List ρ := rows.filter (ident · ≠ id)

/-- Rows stand in the order of their numbers, and no number is still to be handed out. -/
structure Serial (t : Table ρ) : Prop where
  ascending : t.rows.Pairwise (ident · < ident ·)
  handedOut : ∀ r ∈ t.rows, ident r ≤ t.lastId

variable {ident owner} {t : Table ρ} {rows : List ρ} {row : ρ} {k k' : κ} {id : Nat}

@[simp] theorem mem_rowsOf : row ∈ rowsOf owner rows k ↔ row ∈ rows ∧ owner row = k := by
  simp [rowsOf]

@[simp] theorem mem_matching :
    row ∈ matching ident owner rows id k ↔ row ∈ rows ∧ ident row = id ∧ owner row = k := by
  simp [matching]

theorem rowsOf_append_own (hown : owner row = k) :
    rowsOf owner (rows ++ [row]) k = rowsOf owner rows k ++ [row] := by
  simp [rowsOf, hown]

theorem rowsOf_append_other (hother : owner row ≠ k) :
    rowsOf owner (rows ++ [row]) k = rowsOf owner rows k := by
  simp [rowsOf, hother]

theorem rowsOf_remove :
    rowsOf owner (remove ident rows id) k = remove ident (rowsOf owner rows k) id :=
  List.filter_comm _ _ rows

namespace Serial

theorem insert (h : Serial ident t) (hnew : t.lastId < ident row) :
    Serial ident ⟨t.rows ++ [row], ident row⟩ where
  ascending := by
    rw [List.pairwise_append]
    refine ⟨h.ascending, List.pairwise_singleton _ _, ?_⟩
    intro r hr r' hr'
    rw [List.mem_singleton.mp hr']
    exact lt_of_le_of_lt (h.handedOut r hr) hnew
  handedOut := by
    intro r hr
    rcases List.mem_append.mp hr with hr | hr
    · exact le_of_lt (lt_of_le_of_lt (h.handedOut r hr) hnew)
    · rw [List.mem_singleton.mp hr]

theorem remove (h : Serial ident t) (id : Nat) :
    Serial ident ⟨OwnedRows.remove ident t.rows id, t.lastId⟩ where
  ascending := h.ascending.filter _
  handedOut := fun r hr => h.handedOut r (List.mem_of_mem_filter hr)

/-- A number names at most one row. -/
theorem eq_of_ident (h : Serial ident t) {r r' : ρ} (hr : r ∈ t.rows) (hr' : r' ∈ t.rows)
    (heq : ident r = ident r') : r = r' := by
  have hnodup : (t.rows.map ident).Nodup :=
    List.pairwise_map.mpr (h.ascending.imp fun hlt => ne_of_lt hlt)
  exact List.inj_on_of_nodup_map hnodup hr hr' heq

theorem matching_eq_singleton (h : Serial ident t) (hrow : row ∈ t.rows) (hid : ident row = id)
    (hown : owner row = k) : matching ident owner t.rows id k = [row] := by
  have hmem : row ∈ matching ident owner t.rows id k := mem_matching.mpr ⟨hrow, hid, hown⟩
  have hall : ∀ r ∈ matching ident owner t.rows id k, r = row := by
    intro r hr
    obtain ⟨hr, hrid, -⟩ := mem_matching.mp hr
    exact h.eq_of_ident hr hrow (hrid.trans hid.symm)
  have hnodup : (matching ident owner t.rows id k).Nodup := by
    refine List.Pairwise.filter _ (h.ascending.imp ?_)
    rintro r r' hlt rfl
    exact lt_irrefl _ hlt
  exact List.perm_singleton.mp
    ((List.perm_ext_iff_of_nodup hnodup (List.nodup_singleton row)).mpr fun r =>
      ⟨fun hr => List.mem_singleton.mpr (hall r hr), fun hr => List.mem_singleton.mp hr ▸ hmem⟩)

/-- Removing a row of one owner takes nothing from another. -/
theorem rowsOf_remove_other (h : Serial ident t) (hrow : row ∈ rowsOf owner t.rows k)
    (hother : k' ≠ k) :
    rowsOf owner (OwnedRows.remove ident t.rows (ident row)) k' = rowsOf owner t.rows k' := by
  obtain ⟨hmem, hown⟩ := mem_rowsOf.mp hrow
  rw [rowsOf_remove, OwnedRows.remove, List.filter_eq_self]
  intro r hr
  obtain ⟨hr, hrown⟩ := mem_rowsOf.mp hr
  rw [decide_eq_true_eq]
  intro heq
  have hsame : r = row := h.eq_of_ident hr hmem heq
  exact hother (hrown.symm.trans (hsame ▸ hown))

/-- Newest first is last number first. -/
theorem newestFirst_eq (h : Serial ident t) (k : κ) :
    newestFirst ident owner t.rows k = (rowsOf owner t.rows k).reverse := by
  have hascending : (rowsOf owner t.rows k).Pairwise (ident · < ident ·) := h.ascending.filter _
  have hperm : (newestFirst ident owner t.rows k).Perm (rowsOf owner t.rows k).reverse :=
    (List.perm_insertionSort _ _).trans (List.reverse_perm _).symm
  have hsorted : (newestFirst ident owner t.rows k).Pairwise fun r r' => ident r' ≤ ident r :=
    List.pairwise_insertionSort _ _
  have hreversed : (rowsOf owner t.rows k).reverse.Pairwise fun r r' => ident r' ≤ ident r :=
    List.pairwise_reverse.mpr (hascending.imp le_of_lt)
  refine List.Perm.eq_of_pairwise ?_ hsorted hreversed hperm
  intro r r' hr hr' hle hge
  have hmem : ∀ {x}, x ∈ (rowsOf owner t.rows k).reverse → x ∈ t.rows := by
    intro x hx
    exact (mem_rowsOf.mp (List.mem_reverse.mp hx)).1
  exact h.eq_of_ident (hmem (hperm.mem_iff.mp hr)) (hmem hr') (le_antisymm hge hle)

end Serial

end OwnedRows
