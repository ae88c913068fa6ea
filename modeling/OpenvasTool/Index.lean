import OpenvasTool.LList

/-!
# Two indexes of the same items

A list set ordered by name and a list queue ordered by time that hold the same
items. The items are addresses, and the comparisons are made on the records
`val` that they point to; a lookup compares the records with a key.
-/

namespace OpenvasTool

open Support

variable {α β : Type*} {cmp : β → β → ℤ} {val : α → β} {s : ListSet α} {q : ListQueue α}

/-- Set and queue hold the same items, and the records of distinct items differ in the name. -/
structure SameItems (cmp : β → β → ℤ) (val : α → β) (s : ListSet α) (q : ListQueue α) :
    Prop where
  set : s.Valid
  que : q.Valid
  que_iff : ∀ x, x ∈ q.items ↔ x ∈ s.data
  sorted : StrictAscending (fun x y => cmp (val x) (val y)) s.data

namespace SameItems

theorem init : SameItems cmp val ListSet.initListSet ListQueue.initListQue where
  set := ListSet.valid_initListSet
  que := ListQueue.valid_initListQue
  que_iff := by simp [ListQueue.initListQue, ListSet.initListSet]
  sorted := by simp [ListSet.initListSet, StrictAscending]

theorem separated (h : SameItems cmp val s q) (hcmp : Comparison cmp) (key : β) :
    Separated (fun x => cmp (val x) key) s.data := by
  refine List.Pairwise.imp (fun {x y} hxy hx => ?_) h.sorted
  by_contra hy
  exact absurd (hcmp.lt_of_lt_of_le hxy (not_lt.mp hy)) (not_lt.mpr hx)

/-- Items of the set with the same name are the same. -/
theorem eq_of_zero (h : SameItems cmp val s q) (hcmp : Comparison cmp) {x y : α}
    (hx : x ∈ s.data) (hy : y ∈ s.data) (hzero : cmp (val x) (val y) = 0) : x = y := by
  by_contra hne
  exact h.sorted.ne_zero (hcmp.comap val) hx hy hne hzero

/-- The lookup finds exactly the item whose record has the name of the key. -/
theorem search_eq_some (h : SameItems cmp val s q) (hcmp : Comparison cmp) {key : β} {x : α} :
    s.searchListSet (fun y => cmp (val y) key) = some x ↔
      x ∈ s.data ∧ cmp (val x) key = 0 :=
  h.set.searchListSet_eq_some (h.separated hcmp key)

theorem search_eq_none (h : SameItems cmp val s q) (hcmp : Comparison cmp) {key : β} :
    s.searchListSet (fun y => cmp (val y) key) = none ↔ ∀ x ∈ s.data, cmp (val x) key ≠ 0 :=
  h.set.searchListSet_eq_none (h.separated hcmp key)

/-- Only the names matter. -/
theorem congr {val' : α → β} (h : SameItems cmp val s q)
    (hval : ∀ x ∈ s.data, ∀ y ∈ s.data, cmp (val' x) (val' y) = cmp (val x) (val y)) :
    SameItems cmp val' s q where
  set := h.set
  que := h.que
  que_iff := h.que_iff
  sorted := List.Pairwise.imp_of_mem (fun {x y} hx hy hlt => (hval x hx y hy).trans_lt hlt) h.sorted

/-- A new item with a new name goes into both indexes. -/
theorem add (h : SameItems cmp val s q) (hcmp : Comparison cmp) {alloc : Bool} {x : α}
    (time : α → ℤ) {s' : ListSet α} (hnew : x ∉ s.data)
    (hname : ∀ y ∈ s.data, cmp (val y) (val x) ≠ 0)
    (hset : s.addToSet alloc (fun y => cmp (val y) (val x)) x = some s') :
    SameItems cmp val s' (q.pushBack time x) ∧
      ∀ y, y ∈ s'.data ↔ y = x ∨ y ∈ s.data := by
  obtain ⟨hvalid, hdata⟩ := h.set.addToSet hnew hset
  have hmem : ∀ y, y ∈ s'.data ↔ y = x ∨ y ∈ s.data := by
    intro y
    rw [hdata, mem_insertLast]
  refine ⟨⟨hvalid, h.que.pushBack fun hq => hnew ((h.que_iff x).mp hq), ?_, ?_⟩, hmem⟩
  · intro y
    rw [hmem, ListQueue.mem_pushBack, h.que_iff]
  · have hsorted := h.sorted.insertLast (hcmp.comap val) (x := x) hname
    rwa [hdata]

variable [DecidableEq α]

/-- Deletion with the key of a stored item removes this item from both indexes. -/
theorem delete (h : SameItems cmp val s q) (hcmp : Comparison cmp) {x : α}
    (hx : x ∈ s.data) :
    ∃ s', s.delFromSet (fun y => cmp (val y) (val x)) = some (x, s') ∧
      SameItems cmp val s' (q.delItem x) ∧ ∀ y, y ∈ s'.data ↔ y ≠ x ∧ y ∈ s.data := by
  have hself : cmp (val x) (val x) = 0 := by have := hcmp.swap (val x) (val x); omega
  have hmem : ∀ y, y ∈ s.data.erase x ↔ y ≠ x ∧ y ∈ s.data :=
    fun y => h.set.nodup.mem_erase_iff
  refine ⟨_, h.set.delFromSet_of_mem (h.separated hcmp (val x)) hx hself, ⟨h.set.erase hx,
    h.que.delItem, fun y => ?_, h.sorted.sublist List.erase_sublist⟩, hmem⟩
  rw [hmem, ← h.que_iff]
  exact h.que.mem_delItem

end SameItems

end OpenvasTool
