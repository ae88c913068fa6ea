import Mathlib.Data.Int.Order.Basic
import OpenvasTool.Support.Comparator

/-!
# Stable sorting with a sign comparison

The containers look at the signs of a comparison only. So a comparison function
whose signs form a total preorder behaves like its sign, and a list that was kept
stably sorted stays so under insertion, deletion and a change of one key.
-/

namespace Support

variable {α : Type*} {cmp : α → α → ℤ}

/-- A comparison function whose signs form a total preorder. -/
structure PreorderComparison (cmp : α → α → ℤ) : Prop where
  swap : ∀ a b, cmp a b ≤ 0 ↔ 0 ≤ cmp b a
  trans : ∀ {a b c}, cmp a b ≤ 0 → cmp b c ≤ 0 → cmp a c ≤ 0

namespace PreorderComparison

theorem comap {β : Type*} (h : PreorderComparison cmp) (f : β → α) :
    PreorderComparison fun a b => cmp (f a) (f b) :=
  ⟨fun a b => h.swap (f a) (f b), fun hab hbc => h.trans hab hbc⟩

/-- The sign of the comparison is antisymmetric. -/
theorem sign (h : PreorderComparison cmp) : Comparison fun a b => (cmp a b).sign := by
  refine ⟨fun a b => ?_, fun hab hbc => ?_⟩
  · have hab := h.swap a b
    have hba := h.swap b a
    rcases lt_trichotomy (cmp a b) 0 with hlt | heq | hgt
    · rw [Int.sign_eq_neg_one_of_neg hlt, Int.sign_eq_one_of_pos (by omega)]
      rfl
    · rw [heq, show cmp b a = 0 by omega]
      rfl
    · rw [Int.sign_eq_one_of_pos hgt, Int.sign_eq_neg_one_of_neg (by omega)]
  · rw [Int.sign_nonpos_iff] at hab hbc ⊢
    exact h.trans hab hbc

theorem refl (h : PreorderComparison cmp) (a : α) : cmp a a = 0 := by
  have := h.swap a a
  omega

/-- Elements with equal keys compare alike with everything. -/
theorem eq_zero_trans (h : PreorderComparison cmp) {a b c : α} (hab : cmp a b = 0) :
    cmp a c = 0 ↔ cmp b c = 0 := by
  have hba : cmp b a ≤ 0 := (h.swap b a).mpr hab.ge
  have hswap := h.swap a c
  have hswap' := h.swap b c
  have hto : ∀ {x y : α}, cmp x y ≤ 0 → cmp x c = 0 → cmp y x ≤ 0 → cmp y c = 0 := by
    intro x y hxy hxc hyx
    have hle : cmp y c ≤ 0 := h.trans hyx hxc.le
    have hcx : cmp c x ≤ 0 := (h.swap c x).mpr hxc.ge
    have hcy : cmp c y ≤ 0 := h.trans hcx hxy
    have hge : 0 ≤ cmp y c := (h.swap c y).mp hcy
    omega
  constructor
  · exact fun hac => hto hab.le hac hba
  · exact fun hbc => hto hba hbc hab.le

end PreorderComparison

theorem insertLast_sign (f : α → ℤ) (x : α) (xs : List α) :
    insertLast (fun y => (f y).sign) x xs = insertLast f x xs := by
  unfold insertLast
  simp only [Int.sign_pos_iff]

theorem stablySorted_sign {xs ys : List α} :
    StablySorted (fun a b => (cmp a b).sign) xs ys ↔ StablySorted cmp xs ys := by
  have hzero : ∀ a b, ((cmp a b).sign == 0) = (cmp a b == 0) := by
    intro a b
    rw [Bool.eq_iff_iff, beq_iff_eq, beq_iff_eq, Int.sign_eq_zero_iff_zero]
  constructor
  · rintro ⟨hperm, hasc, hstable⟩
    simp only [Ascending, Int.sign_nonpos_iff] at hasc
    simp only [hzero] at hstable
    exact ⟨hperm, hasc, hstable⟩
  · rintro ⟨hperm, hasc, hstable⟩
    refine ⟨hperm, ?_, fun a => ?_⟩
    · simpa only [Ascending, Int.sign_nonpos_iff] using hasc
    · simpa only [hzero] using hstable a

/-- The first element with a property is removed by its value. -/
theorem eraseP_eq_erase [DecidableEq α] {p : α → Bool} {x : α} {xs : List α}
    (hfind : xs.find? p = some x) : xs.eraseP p = xs.erase x := by
  obtain ⟨hx, as, bs, rfl, has⟩ := List.find?_eq_some_iff_append.mp hfind
  have hfront : x ∉ as := fun hmem => by simpa [hx] using has x hmem
  have hnone : ∀ a ∈ as, ¬ p a = true := by
    intro a ha
    simpa using has a ha
  rw [List.erase_append_right _ hfront, List.erase_cons_head, List.eraseP_append_right _ hnone,
    List.eraseP_cons_of_pos hx]

namespace StablySorted

variable {xs ys : List α}

/-- Insertion of the next element keeps the order stable. -/
theorem insert (h : PreorderComparison cmp) (hs : StablySorted cmp xs ys) (x : α) :
    StablySorted cmp (xs ++ [x]) (Support.insertLast (fun y => cmp y x) x ys) := by
  have hsign := (stablySorted_sign.mpr hs).insertLast h.sign x
  rw [insertLast_sign fun y => cmp y x] at hsign
  exact stablySorted_sign.mp hsign

/-- Removing an element from both lists keeps the order stable. -/
theorem erase [DecidableEq α] (hs : StablySorted cmp xs ys) (x : α) :
    StablySorted cmp (xs.erase x) (ys.erase x) := by
  refine ⟨hs.perm.erase x, List.Pairwise.sublist List.erase_sublist hs.ascending, fun a => ?_⟩
  rw [← List.erase_filter, ← List.erase_filter, hs.stable a]

/-- Removing the first element with a key keeps the order stable. -/
theorem eraseFirst [DecidableEq α] (hs : StablySorted cmp xs ys) {key x : α}
    (hx : ys.find? (fun y => cmp y key == 0) = some x) :
    StablySorted cmp (xs.erase x) (ys.eraseP fun y => cmp y key == 0) := by
  rw [eraseP_eq_erase hx]
  exact hs.erase x

/-- Only the comparisons between the elements of the list matter. -/
theorem congr {cmp' : α → α → ℤ} (h' : PreorderComparison cmp') (hs : StablySorted cmp xs ys)
    (heq : ∀ a ∈ xs, ∀ b ∈ xs, cmp a b = cmp' a b) : StablySorted cmp' xs ys := by
  have hys : ∀ a ∈ ys, ∀ b ∈ ys, cmp a b = cmp' a b := fun a ha b hb =>
    heq a (hs.perm.subset ha) b (hs.perm.subset hb)
  refine ⟨hs.perm, ?_, fun a => ?_⟩
  · refine List.Pairwise.imp_of_mem (fun {a b} ha hb hab => ?_) hs.ascending
    rwa [← hys a ha b hb]
  · by_cases hclass : ∃ b ∈ xs, cmp' b a = 0
    · -- the elements with the key of `a` are those with the key of an element of the list
      obtain ⟨b, hb, hba⟩ := hclass
      have hab : cmp' a b = 0 := by
        have := h'.swap a b
        have := h'.swap b a
        omega
      have hkey : ∀ y, cmp' y a = 0 ↔ cmp' y b = 0 := by
        intro y
        have hya := h'.swap y a
        have hay := h'.swap a y
        have hyb := h'.swap y b
        have hby := h'.swap b y
        have hclass := h'.eq_zero_trans (c := y) hab
        omega
      have hfilter : ∀ zs : List α, (∀ z ∈ zs, z ∈ xs) →
          zs.filter (fun y => cmp' y a == 0) = zs.filter fun y => cmp y b == 0 := by
        intro zs hzs
        apply List.filter_congr
        intro z hz
        rw [Bool.eq_iff_iff, beq_iff_eq, beq_iff_eq, hkey z, heq z (hzs z hz) b hb]
      rw [hfilter ys fun z hz => hs.perm.subset hz, hfilter xs fun z hz => hz, hs.stable b]
    · have hempty : ∀ zs : List α, (∀ z ∈ zs, z ∈ xs) → zs.filter (fun y => cmp' y a == 0) = [] := by
        intro zs hzs
        apply List.filter_eq_nil_iff.mpr
        intro z hz hza
        exact hclass ⟨z, hzs z hz, beq_iff_eq.mp hza⟩
      rw [hempty ys fun z hz => hs.perm.subset hz, hempty xs fun z hz => hz]

end StablySorted

/-! ### The earliest least element -/

/-- The element is the earliest one of those with the least key. -/
def EarliestLeast (cmp : α → α → ℤ) (xs : List α) (x : α) : Prop :=
  ∃ as bs, xs = as ++ x :: bs ∧ (∀ y ∈ as, cmp x y < 0) ∧ ∀ y ∈ bs, cmp x y ≤ 0

/-- A stably sorted list begins with the earliest least element. -/
theorem StablySorted.head (h : PreorderComparison cmp) {xs ys : List α} {x : α}
    (hs : StablySorted cmp xs (x :: ys)) : EarliestLeast cmp xs x := by
  have hxx : (cmp x x == 0) = true := by simp [h.refl x]
  have hleast : ∀ y ∈ xs, cmp x y ≤ 0 := by
    intro y hy
    rcases List.mem_cons.mp (hs.perm.mem_iff.mpr hy) with rfl | hmem
    · exact (h.refl y).le
    · exact (List.pairwise_cons.mp hs.ascending).1 y hmem
  have hfilter := hs.stable x
  rw [List.filter_cons_of_pos (p := fun y => cmp y x == 0) hxx] at hfilter
  obtain ⟨as, bs, rfl, has, -, -⟩ := List.filter_eq_cons_iff.mp hfilter.symm
  refine ⟨as, bs, rfl, fun y hy => ?_, fun y hy => hleast y (by simp [hy])⟩
  have hle := hleast y (by simp [hy])
  have hne : cmp y x ≠ 0 := fun heq => has y hy (beq_iff_eq.mpr heq)
  have := h.swap y x
  have := h.swap x y
  omega

end Support
