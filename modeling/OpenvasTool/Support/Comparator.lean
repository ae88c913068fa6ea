import Mathlib.Data.List.DropRight
import Mathlib.Data.List.Perm.Basic
import Mathlib.Data.List.Pairwise
import Mathlib.Tactic.Linarith

/-!
# Lists ordered by a three-way comparison

A comparison function returns a negative, zero or positive number. Insertion
puts a new element behind the last one that is not greater. The insertion and
search rules only use the signs of the comparisons with one fixed element.
-/

namespace Support

variable {α : Type*}

/-- A three-way comparison that is antisymmetric in sign and transitive. -/
structure Comparison (cmp : α → α → ℤ) : Prop where
  swap : ∀ a b, cmp b a = -cmp a b
  trans : ∀ {a b c}, cmp a b ≤ 0 → cmp b c ≤ 0 → cmp a c ≤ 0

namespace Comparison

variable {cmp : α → α → ℤ}

/-- A comparison of keys is a comparison of the elements that carry them. -/
theorem comap {β : Type*} (h : Comparison cmp) (f : β → α) :
    Comparison fun a b => cmp (f a) (f b) :=
  ⟨fun a b => h.swap (f a) (f b), fun hab hbc => h.trans hab hbc⟩

theorem lt_of_lt_of_le (h : Comparison cmp) {a b c : α} (hab : cmp a b < 0) (hbc : cmp b c ≤ 0) :
    cmp a c < 0 := by
  by_contra hac
  have hca : cmp c a ≤ 0 := by have := h.swap a c; omega
  have hba : cmp b a ≤ 0 := h.trans hbc hca
  have := h.swap a b
  omega

theorem lt_of_le_of_lt (h : Comparison cmp) {a b c : α} (hab : cmp a b ≤ 0) (hbc : cmp b c < 0) :
    cmp a c < 0 := by
  by_contra hac
  have hca : cmp c a ≤ 0 := by have := h.swap a c; omega
  have hcb : cmp c b ≤ 0 := h.trans hca hab
  have := h.swap b c
  omega

end Comparison

/-- Nondecreasing lists. -/
def Ascending (cmp : α → α → ℤ) (xs : List α) : Prop := xs.Pairwise fun a b => cmp a b ≤ 0

/-- Strictly increasing lists. -/
def StrictAscending (cmp : α → α → ℤ) (xs : List α) : Prop := xs.Pairwise fun a b => cmp a b < 0

theorem StrictAscending.ascending {cmp : α → α → ℤ} {xs : List α} (h : StrictAscending cmp xs) :
    Ascending cmp xs := List.Pairwise.imp le_of_lt h

/-- Along the list the sign of `f` only increases, and `f` vanishes at most once. -/
def Separated (f : α → ℤ) (xs : List α) : Prop := xs.Pairwise fun a b => 0 ≤ f a → 0 < f b

theorem StrictAscending.separated {cmp : α → α → ℤ} (h : Comparison cmp) {xs : List α}
    (hxs : StrictAscending cmp xs) (key : α) : Separated (fun a => cmp a key) xs := by
  refine List.Pairwise.imp (fun {a b} hab ha => ?_) hxs
  by_contra hb
  exact absurd (h.lt_of_lt_of_le hab (not_lt.mp hb)) (not_lt.mpr ha)

/-- Distinct elements of a strictly ascending list differ. -/
theorem StrictAscending.ne_zero {cmp : α → α → ℤ} (h : Comparison cmp) {xs : List α}
    (hxs : StrictAscending cmp xs) {a b : α} (ha : a ∈ xs) (hb : b ∈ xs) (hne : a ≠ b) :
    cmp a b ≠ 0 := by
  have hsymm : Std.Symm fun a b => cmp a b ≠ 0 :=
    ⟨fun a b hab hba => hab (by have := h.swap a b; omega)⟩
  exact (List.Pairwise.imp (fun {a b} (hab : cmp a b < 0) => hab.ne) hxs).forall ha hb hne

/-! ### Insertion behind the last element that is not greater -/

/-- Insert `x`, where `f` compares the elements of the list with `x`. -/
def insertLast (f : α → ℤ) (x : α) (xs : List α) : List α :=
  xs.rdropWhile (fun y => decide (0 < f y)) ++ x :: xs.rtakeWhile (fun y => decide (0 < f y))

theorem insertLast_perm (f : α → ℤ) (x : α) (xs : List α) :
    (insertLast f x xs).Perm (x :: xs) := by
  unfold insertLast
  refine List.perm_middle.trans ?_
  rw [List.rdropWhile_append_rtakeWhile]

@[simp] theorem mem_insertLast {f : α → ℤ} {x y : α} {xs : List α} :
    y ∈ insertLast f x xs ↔ y = x ∨ y ∈ xs := by
  rw [(insertLast_perm f x xs).mem_iff, List.mem_cons]

@[simp] theorem length_insertLast {f : α → ℤ} {x : α} {xs : List α} :
    (insertLast f x xs).length = xs.length + 1 := by
  rw [(insertLast_perm f x xs).length_eq, List.length_cons]

theorem nodup_insertLast {f : α → ℤ} {x : α} {xs : List α} :
    (insertLast f x xs).Nodup ↔ x ∉ xs ∧ xs.Nodup := by
  rw [(insertLast_perm f x xs).nodup_iff, List.nodup_cons]

/-- Removing a new element again. -/
theorem erase_insertLast [DecidableEq α] {f : α → ℤ} {x : α} {xs : List α} (h : x ∉ xs) :
    (insertLast f x xs).erase x = xs := by
  have hsplit := List.rdropWhile_append_rtakeWhile (p := fun y => decide (0 < f y)) (l := xs)
  have hfront : x ∉ xs.rdropWhile fun y => decide (0 < f y) := fun hmem =>
    h (hsplit ▸ List.mem_append_left _ hmem)
  unfold insertLast
  rw [List.erase_append_right _ hfront, List.erase_cons_head, hsplit]

theorem insertLast_congr {f g : α → ℤ} {x : α} {xs : List α} (h : ∀ y ∈ xs, f y = g y) :
    insertLast f x xs = insertLast g x xs := by
  induction xs using List.reverseRecOn with
  | nil => rfl
  | append_singleton xs y ih =>
    have hy : f y = g y := h y (by simp)
    have ih' := ih fun z hz => h z (by simp [hz])
    unfold insertLast at ih' ⊢
    by_cases hpos : 0 < g y
    · rw [List.rdropWhile_concat_pos _ _ _ (by simpa [hy] using hpos),
        List.rtakeWhile_concat_pos _ _ _ (by simpa [hy] using hpos),
        List.rdropWhile_concat_pos _ _ _ (by simpa using hpos),
        List.rtakeWhile_concat_pos _ _ _ (by simpa using hpos)]
      simpa using congrArg (· ++ [y]) ih'
    · rw [List.rdropWhile_concat_neg _ _ _ (by simpa [hy] using hpos),
        List.rtakeWhile_concat_neg _ _ _ (by simpa [hy] using hpos),
        List.rdropWhile_concat_neg _ _ _ (by simpa using hpos),
        List.rtakeWhile_concat_neg _ _ _ (by simpa using hpos)]

/-- An element that is not less than any other goes to the end. -/
theorem insertLast_eq_append {f : α → ℤ} {x : α} {xs : List α} (h : ∀ y ∈ xs, f y ≤ 0) :
    insertLast f x xs = xs ++ [x] := by
  unfold insertLast
  rcases List.eq_nil_or_concat xs with rfl | ⟨ys, y, rfl⟩
  · rfl
  · have hy : ¬ 0 < f y := not_lt.mpr (h y (by simp))
    rw [List.concat_eq_append, List.rdropWhile_concat_neg _ _ _ (by simpa using hy),
      List.rtakeWhile_concat_neg _ _ _ (by simpa using hy)]

/-- In an ascending list everything in front of the insertion point is not greater. -/
theorem Ascending.le_of_mem_rdropWhile {cmp : α → α → ℤ} (h : Comparison cmp) {x : α}
    {xs : List α} (hxs : Ascending cmp xs) {y : α}
    (hy : y ∈ xs.rdropWhile fun y => decide (0 < cmp y x)) : cmp y x ≤ 0 := by
  rcases List.eq_nil_or_concat (xs.rdropWhile fun y => decide (0 < cmp y x)) with hnil | ⟨ys, z, hz⟩
  · simp [hnil] at hy
  · rw [List.concat_eq_append] at hz
    have hne : xs.rdropWhile (fun y => decide (0 < cmp y x)) ≠ [] := by simp [hz]
    have hlast := List.rdropWhile_last_not (fun y => decide (0 < cmp y x)) xs hne
    have hzx : cmp z x ≤ 0 := by simpa [hz] using hlast
    have hsub := hxs.sublist (List.rdropWhile_prefix (fun y => decide (0 < cmp y x)) xs).sublist
    rw [hz] at hy hsub
    rcases List.mem_append.mp hy with hmem | hmem
    · exact h.trans ((List.pairwise_append.mp hsub).2.2 y hmem z (by simp)) hzx
    · rwa [List.mem_singleton.mp hmem]

/-- Insertion keeps a list ascending. -/
theorem Ascending.insertLast {cmp : α → α → ℤ} (h : Comparison cmp) {x : α} {xs : List α}
    (hxs : Ascending cmp xs) : Ascending cmp (insertLast (fun y => cmp y x) x xs) := by
  have hsplit := List.rdropWhile_append_rtakeWhile (p := fun y => decide (0 < cmp y x)) (l := xs)
  have hpair := hxs
  unfold Ascending at hpair
  rw [← hsplit, List.pairwise_append] at hpair
  refine List.pairwise_append.mpr ⟨hpair.1, List.pairwise_cons.mpr ⟨?_, hpair.2.1⟩, ?_⟩
  · intro y hy
    have hpos : 0 < cmp y x := by simpa using List.mem_rtakeWhile_imp hy
    have := h.swap y x
    omega
  · intro y hy z hz
    rcases List.mem_cons.mp hz with rfl | hz
    · exact hxs.le_of_mem_rdropWhile h hy
    · exact hpair.2.2 y hy z hz

/-- Insertion of an element with a new key keeps a list strictly ascending. -/
theorem StrictAscending.insertLast {cmp : α → α → ℤ} (h : Comparison cmp) {x : α} {xs : List α}
    (hxs : StrictAscending cmp xs) (hnew : ∀ y ∈ xs, cmp y x ≠ 0) :
    StrictAscending cmp (insertLast (fun y => cmp y x) x xs) := by
  have hsplit := List.rdropWhile_append_rtakeWhile (p := fun y => decide (0 < cmp y x)) (l := xs)
  have hpair := hxs
  unfold StrictAscending at hpair
  rw [← hsplit, List.pairwise_append] at hpair
  refine List.pairwise_append.mpr ⟨hpair.1, List.pairwise_cons.mpr ⟨?_, hpair.2.1⟩, ?_⟩
  · intro y hy
    have hpos : 0 < cmp y x := by simpa using List.mem_rtakeWhile_imp hy
    have := h.swap y x
    omega
  · intro y hy z hz
    rcases List.mem_cons.mp hz with rfl | hz
    · have hle := hxs.ascending.le_of_mem_rdropWhile h hy
      have hmem : y ∈ xs := (List.rdropWhile_prefix _ xs).subset hy
      exact lt_of_le_of_ne hle (hnew y hmem)
    · exact hpair.2.2 y hy z hz

/-! ### Stable sorting -/

/-- `ys` has the elements of `xs` in ascending order, those with equal keys in the order of `xs`. -/
structure StablySorted (cmp : α → α → ℤ) (xs ys : List α) : Prop where
  perm : ys.Perm xs
  ascending : Ascending cmp ys
  stable : ∀ a, ys.filter (fun y => cmp y a == 0) = xs.filter fun x => cmp x a == 0

namespace StablySorted

variable {cmp : α → α → ℤ}

theorem nil : StablySorted cmp [] [] := ⟨List.Perm.refl _, List.Pairwise.nil, fun _ => rfl⟩

/-- Insertion of the next element keeps the order stable. -/
theorem insertLast (h : Comparison cmp) {xs ys : List α} (hsorted : StablySorted cmp xs ys) (x : α) :
    StablySorted cmp (xs ++ [x]) (Support.insertLast (fun y => cmp y x) x ys) := by
  refine ⟨?_, hsorted.ascending.insertLast h, fun a => ?_⟩
  · refine (insertLast_perm _ _ _).trans ((hsorted.perm.cons x).trans ?_)
    exact (List.perm_append_singleton x xs).symm
  set front := ys.rdropWhile fun y => decide (0 < cmp y x) with hfront
  set back := ys.rtakeWhile fun y => decide (0 < cmp y x) with hback
  have hsplit : ys = front ++ back :=
    (List.rdropWhile_append_rtakeWhile (p := fun y => decide (0 < cmp y x)) (l := ys)).symm
  have hinsert : Support.insertLast (fun y => cmp y x) x ys = front ++ x :: back := rfl
  rw [hinsert, List.filter_append xs, ← hsorted.stable a, hsplit]
  by_cases ha : cmp x a = 0
  · -- what is behind the new element is greater, so it has another key
    have hgreater : back.filter (fun y => cmp y a == 0) = [] := by
      refine List.filter_eq_nil_iff.mpr fun y hy heq => ?_
      have hpos : 0 < cmp y x := by simpa using List.mem_rtakeWhile_imp hy
      have hya : cmp y a ≤ 0 := (beq_iff_eq.mp heq).le
      have hax : cmp a x ≤ 0 := by have := h.swap x a; omega
      have := h.trans hya hax
      omega
    rw [List.filter_append, List.filter_append, List.filter_cons_of_pos (by simpa using ha), hgreater,
      List.append_nil, List.filter_cons_of_pos (by simpa using ha), List.filter_nil]
  · rw [List.filter_append, List.filter_append, List.filter_cons_of_neg (by simpa using ha),
      List.filter_cons_of_neg (by simpa using ha), List.filter_nil, List.append_nil]

end StablySorted

end Support
