import Mathlib.Data.List.Basic

/-!
# Splitting a list at a separator

The pieces between the separators, and the pieces that are not empty.
-/

namespace Support

variable {α : Type*} [DecidableEq α] {sep : α} {xs piece : List α}

/-- No piece contains the separator, and all its elements come from the list. -/
theorem of_mem_splitOn (h : piece ∈ xs.splitOn sep) : sep ∉ piece ∧ piece ⊆ xs := by
  induction xs generalizing piece with
  | nil =>
    obtain rfl : piece = [] := by simpa using h
    simp
  | cons x xs ih =>
    rw [List.splitOn_cons_eq_if_modifyHead] at h
    split at h
    · rcases List.mem_cons.mp h with rfl | h
      · simp
      · exact ⟨(ih h).1, List.subset_cons_of_subset x (ih h).2⟩
    · rename_i hx
      have hne : sep ≠ x := by
        rintro rfl
        simp at hx
      obtain ⟨head, pieces, hsplit⟩ := List.exists_cons_of_ne_nil (List.splitOn_ne_nil sep xs)
      rw [hsplit] at h ih
      rcases List.mem_cons.mp h with rfl | h
      · obtain ⟨hsep, hsub⟩ := ih (List.mem_cons_self : head ∈ head :: pieces)
        exact ⟨by simp [hne, hsep], List.cons_subset_cons x hsub⟩
      · obtain ⟨hsep, hsub⟩ := ih (List.mem_cons_of_mem _ h)
        exact ⟨hsep, List.subset_cons_of_subset x hsub⟩

/-- When every line ends with the separator, the pieces are the lines and an empty rest. -/
theorem splitOn_lines {lines : List (List α)} (h : ∀ line ∈ lines, sep ∉ line) :
    ((lines.map fun line => line ++ [sep]).flatten).splitOn sep = lines ++ [[]] := by
  induction lines with
  | nil => rfl
  | cons line lines ih =>
    rw [List.map_cons, List.flatten_cons, List.append_assoc, List.singleton_append,
      List.splitOn_append_cons_self_of_not_mem (h line (by simp)),
      ih fun l hl => h l (by simp [hl]), List.cons_append]

theorem length_le_count_lines (lines : List (List α)) (sep : α) :
    lines.length ≤ (lines.map fun line => line ++ [sep]).flatten.count sep := by
  induction lines with
  | nil => simp
  | cons line lines ih =>
    simp only [List.map_cons, List.flatten_cons, List.length_cons, List.count_append,
      List.count_singleton_self]
    omega

/-- There is one separator for each line exactly when no line contains it. -/
theorem count_lines_eq_length_iff {lines : List (List α)} :
    (lines.map fun line => line ++ [sep]).flatten.count sep = lines.length ↔
      ∀ line ∈ lines, sep ∉ line := by
  induction lines with
  | nil => simp
  | cons line lines ih =>
    have hle := length_le_count_lines lines sep
    rw [List.forall_mem_cons, ← ih, ← List.count_eq_zero]
    simp only [List.map_cons, List.flatten_cons, List.length_cons, List.count_append,
      List.count_singleton_self]
    omega

/-- The pieces that are not empty. -/
def splitNoEmpty (sep : α) (xs : List α) : List (List α) :=
  (xs.splitOn sep).filter fun piece => !piece.isEmpty

theorem of_mem_splitNoEmpty (h : piece ∈ splitNoEmpty sep xs) :
    piece ≠ [] ∧ sep ∉ piece ∧ piece ⊆ xs := by
  obtain ⟨hmem, hne⟩ := List.mem_filter.mp h
  exact ⟨by simpa using hne, of_mem_splitOn hmem⟩

/-- Lines that are not empty are read back. -/
theorem splitNoEmpty_lines {lines : List (List α)} (h : ∀ line ∈ lines, line ≠ [] ∧ sep ∉ line) :
    splitNoEmpty sep (lines.map fun line => line ++ [sep]).flatten = lines := by
  have hkept : lines.filter (fun line => !line.isEmpty) = lines :=
    List.filter_eq_self.mpr fun line hline => by simpa using (h line hline).1
  rw [splitNoEmpty, splitOn_lines fun line hline => (h line hline).2, List.filter_append, hkept]
  simp

/-- A separator in front changes nothing. -/
theorem splitNoEmpty_cons_sep (sep : α) (xs : List α) :
    splitNoEmpty sep (sep :: xs) = splitNoEmpty sep xs := by
  simp [splitNoEmpty, List.splitOn_cons_eq_if_modifyHead]

/-! ### Separators of a kind -/

section Words

variable {β : Type*} {p : β → Bool} {ys gap rest : List β}

/-- The pieces between the elements of a kind that are not empty. -/
def words (p : β → Bool) (ys : List β) : List (List β) :=
  (ys.splitOnP p).filter fun piece => !piece.isEmpty

/-- Without a separator the list is one word. -/
theorem words_of_forall (hne : ys ≠ []) (h : ∀ x ∈ ys, p x = false) : words p ys = [ys] := by
  rw [words, List.splitOnP_eq_singleton h]
  simp [hne]

/-- Separators in front change nothing. -/
theorem words_separators_append (hgap : ∀ x ∈ gap, p x = true) :
    words p (gap ++ rest) = words p rest := by
  induction gap with
  | nil => rfl
  | cons x gap ih =>
    have hx : p x = true := hgap x (by simp)
    have hrest := ih fun y hy => hgap y (by simp [hy])
    rw [← hrest, List.cons_append, words, List.splitOnP_cons_eq_if_modifyHead, if_pos hx]
    rfl

/-- A word ends at the first separator. -/
theorem words_append (hne : ys ≠ []) (h : ∀ x ∈ ys, p x = false) (hgap : gap ≠ [])
    (hseps : ∀ x ∈ gap, p x = true) : words p (ys ++ (gap ++ rest)) = ys :: words p rest := by
  obtain ⟨x, gap, rfl⟩ := List.exists_cons_of_ne_nil hgap
  have hrest : words p (gap ++ rest) = words p rest :=
    words_separators_append fun y hy => hseps y (by simp [hy])
  rw [← hrest, List.cons_append, words,
    List.splitOnP_append_cons_of_forall_mem h x (hseps x (by simp))]
  simp [words, hne]

end Words

end Support
