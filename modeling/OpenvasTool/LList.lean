import OpenvasTool.Support.Comparator

/-!
# List queues and list sets

The containers of `llist.c`: a doubly linked queue and a growing sorted array,
both ordered by a comparison and both with a counter of their own. An operation
compares the stored elements with one fixed item or key, so it takes that
comparison as a function of the stored element.
-/

namespace OpenvasTool

open Support

variable {α : Type*}

/-- `struct ListQueue`: the linked items and the counter `m_cnt`. -/
structure ListQueue (α : Type*) where
  items : List α
  cnt : ℤ
  deriving DecidableEq, Repr

namespace ListQueue

/-- `initListQue` and `resetListQue`. -/
def initListQue : ListQueue α := ⟨[], 0⟩

/-- `push_back`: from the tail, skip the items that are greater than the new one. -/
def pushBack (cmp : α → ℤ) (item : α) (root : ListQueue α) : ListQueue α :=
  ⟨insertLast cmp item root.items, root.cnt + 1⟩

/-- `get_head`. -/
def getHead (root : ListQueue α) : Option α := root.items.head?

/-- `del_item`: an item that is not linked is left alone. -/
def delItem [DecidableEq α] (item : α) (root : ListQueue α) : ListQueue α :=
  if item ∈ root.items then ⟨root.items.erase item, root.cnt - 1⟩ else root

/-- `reque_list`. -/
def requeList [DecidableEq α] (cmp : α → ℤ) (item : α) (root : ListQueue α) : ListQueue α :=
  if item ∈ root.items then (root.delItem item).pushBack cmp item else root

/-- The counter agrees with the linked items, and no item is linked twice. -/
structure Valid (root : ListQueue α) : Prop where
  nodup : root.items.Nodup
  cnt_eq : root.cnt = root.items.length

theorem valid_initListQue : (initListQue : ListQueue α).Valid := ⟨by simp [initListQue], rfl⟩

@[simp] theorem mem_pushBack {cmp : α → ℤ} {item x : α} {root : ListQueue α} :
    x ∈ (root.pushBack cmp item).items ↔ x = item ∨ x ∈ root.items := mem_insertLast

theorem Valid.pushBack {cmp : α → ℤ} {item : α} {root : ListQueue α} (h : root.Valid)
    (hnew : item ∉ root.items) : (root.pushBack cmp item).Valid := by
  refine ⟨nodup_insertLast.mpr ⟨hnew, h.nodup⟩, ?_⟩
  simp [ListQueue.pushBack, h.cnt_eq]

theorem Valid.mem_delItem [DecidableEq α] {item x : α} {root : ListQueue α} (h : root.Valid) :
    x ∈ (root.delItem item).items ↔ x ≠ item ∧ x ∈ root.items := by
  unfold ListQueue.delItem
  split
  · exact h.nodup.mem_erase_iff
  · rename_i hmem
    constructor
    · intro hx
      exact ⟨fun heq => hmem (heq ▸ hx), hx⟩
    · exact And.right

theorem Valid.delItem [DecidableEq α] {item : α} {root : ListQueue α} (h : root.Valid) :
    (root.delItem item).Valid := by
  unfold ListQueue.delItem
  split
  · rename_i hmem
    refine ⟨h.nodup.erase item, ?_⟩
    have hpos : 0 < root.items.length := List.length_pos_of_mem hmem
    have hcnt := h.cnt_eq
    simp only [List.length_erase_of_mem hmem]
    omega
  · exact h

/-- Deleting a new item again. -/
theorem delItem_pushBack [DecidableEq α] {cmp : α → ℤ} {item : α} {root : ListQueue α}
    (h : item ∉ root.items) : (root.pushBack cmp item).delItem item = root := by
  have hmem : item ∈ (root.pushBack cmp item).items := mem_pushBack.mpr (Or.inl rfl)
  rw [ListQueue.delItem, if_pos hmem]
  simp only [ListQueue.pushBack, erase_insertLast h, Int.add_sub_cancel]

theorem Valid.mem_requeList [DecidableEq α] {cmp : α → ℤ} {item x : α} {root : ListQueue α} (h : root.Valid) :
    x ∈ (root.requeList cmp item).items ↔ x ∈ root.items := by
  unfold ListQueue.requeList
  split
  · rename_i hmem
    rw [mem_pushBack, h.mem_delItem]
    constructor
    · rintro (rfl | hx)
      · exact hmem
      · exact hx.2
    · intro hx
      by_cases heq : x = item
      · exact Or.inl heq
      · exact Or.inr ⟨heq, hx⟩
  · rfl

theorem Valid.requeList [DecidableEq α] {cmp : α → ℤ} {item : α} {root : ListQueue α} (h : root.Valid) :
    (root.requeList cmp item).Valid := by
  unfold ListQueue.requeList
  split
  · exact h.delItem.pushBack fun hmem => (h.mem_delItem.mp hmem).1 rfl
  · exact h

end ListQueue

/-- `DEF_LIST_ARRAY_SIZE`. -/
def defListArraySize : ℕ := 100

/-- `struct ListSet`: the used part of the array `m_data`, with `m_capacity` and `m_size`. -/
structure ListSet (α : Type*) where
  capacity : ℕ
  size : ℕ
  data : List α
  deriving DecidableEq, Repr

namespace ListSet

/-- `initListSet` after a successful allocation. -/
def initListSet : ListSet α := ⟨defListArraySize, 0, []⟩

/-- `binarySearch` in the range `[low, high)`; the fuel bounds the recursion depth. -/
def binarySearch (arr : List α) (cmp : α → ℤ) : ℕ → ℕ → ℕ → Option α
  | 0, _, _ => none
  | fuel + 1, low, high =>
      if low < high then
        let mid := (low + high) / 2
        match arr[mid]? with
        | none => none
        | some x =>
            if cmp x < 0 then binarySearch arr cmp fuel (mid + 1) high
            else if 0 < cmp x then binarySearch arr cmp fuel low mid
            else some x
      else none

/-- `searchListSet`: the range shrinks at every call, so `m_size + 1` calls suffice. -/
def searchListSet (cmp : α → ℤ) (listset : ListSet α) : Option α :=
  if 0 < listset.size then
    binarySearch listset.data cmp (listset.size + 1) 0 listset.size
  else none

/-- `growArray`; `alloc` is the outcome of `realloc`. -/
def growArray (alloc : Bool) (listset : ListSet α) : Option (ListSet α) :=
  if listset.size = listset.capacity then
    if alloc then some { listset with capacity := listset.capacity + defListArraySize } else none
  else some listset

/-- `addToSet`: shift the greater elements up and put the item behind the others. -/
def addToSet (alloc : Bool) (cmp : α → ℤ) (item : α) (listset : ListSet α) :
    Option (ListSet α) :=
  (listset.growArray alloc).map fun s =>
    { s with data := insertLast cmp item s.data, size := s.size + 1 }

/-- The loop of `delFromSet`: the first element that is not less than the key decides. -/
def delLoop (cmp : α → ℤ) : List α → Option (α × List α)
  | [] => none
  | x :: xs =>
      if cmp x < 0 then (delLoop cmp xs).map fun r => (r.1, x :: r.2)
      else if cmp x = 0 then some (x, xs)
      else none

/-- `delFromSet`: the deleted element and the remaining set. -/
def delFromSet (cmp : α → ℤ) (listset : ListSet α) : Option (α × ListSet α) :=
  (delLoop cmp listset.data).map fun r =>
    (r.1, { listset with data := r.2, size := listset.size - 1 })

/-- The counter agrees with the array, and there is room for the elements. -/
structure Valid (listset : ListSet α) : Prop where
  nodup : listset.data.Nodup
  size_eq : listset.size = listset.data.length
  size_le : listset.size ≤ listset.capacity

theorem valid_initListSet : (initListSet : ListSet α).Valid :=
  ⟨by simp [initListSet], rfl, Nat.zero_le _⟩

/-! ### Binary search -/

theorem binarySearch_mem {arr : List α} {cmp : α → ℤ} {fuel low high : ℕ} {x : α}
    (h : binarySearch arr cmp fuel low high = some x) : x ∈ arr ∧ cmp x = 0 := by
  induction fuel generalizing low high with
  | zero => simp [binarySearch] at h
  | succ fuel ih =>
    simp only [binarySearch] at h
    split at h
    · split at h
      · simp at h
      · rename_i y hy
        split at h
        · exact ih h
        · split at h
          · exact ih h
          · obtain rfl : y = x := by simpa using h
            exact ⟨List.mem_of_getElem? hy, by omega⟩
    · simp at h

/-- Binary search finds the zero of a separated comparison wherever it lies in the range. -/
theorem binarySearch_complete {arr : List α} {cmp : α → ℤ} (hsep : Separated cmp arr)
    {fuel low high k : ℕ} (hlow : low ≤ k) (hhigh : k < high) (hlen : high ≤ arr.length)
    (hfuel : high - low < fuel) {x : α} (hk : arr[k]? = some x) (hx : cmp x = 0) :
    binarySearch arr cmp fuel low high = some x := by
  induction fuel generalizing low high with
  | zero => omega
  | succ fuel ih =>
    have hmid : (low + high) / 2 < arr.length := by omega
    have hpair := List.pairwise_iff_getElem.mp hsep
    obtain ⟨hklt, hkx⟩ := List.getElem?_eq_some_iff.mp hk
    simp only [binarySearch, if_pos (show low < high by omega), List.getElem?_eq_getElem hmid]
    rcases lt_trichotomy ((low + high) / 2) k with hlt | heq | hgt
    · -- the middle element is in front of the zero, hence negative
      have hneg : cmp arr[(low + high) / 2] < 0 := by
        by_contra hge
        have := hpair _ _ hmid hklt hlt (not_lt.mp hge)
        rw [hkx] at this
        omega
      rw [if_pos hneg]
      exact ih (by omega) hhigh hlen (by omega)
    · subst heq
      simp [hkx, hx]
    · -- the middle element is behind the zero, hence positive
      have hpos : 0 < cmp arr[(low + high) / 2] :=
        hpair _ _ hklt hmid hgt (by rw [hkx, hx])
      rw [if_neg (by omega), if_pos hpos]
      exact ih hlow hgt (by omega) (by omega)

/-- The search finds exactly the element that compares equal to the key. -/
theorem Valid.searchListSet_eq_some {cmp : α → ℤ} {listset : ListSet α} (h : listset.Valid)
    (hsep : Separated cmp listset.data) {x : α} :
    listset.searchListSet cmp = some x ↔ x ∈ listset.data ∧ cmp x = 0 := by
  unfold searchListSet
  constructor
  · split
    · exact binarySearch_mem
    · simp
  · rintro ⟨hmem, hx⟩
    obtain ⟨k, hk⟩ := List.mem_iff_getElem?.mp hmem
    have hklt : k < listset.data.length := (List.getElem?_eq_some_iff.mp hk).1
    have hsize := h.size_eq
    rw [if_pos (by omega)]
    exact binarySearch_complete hsep (Nat.zero_le k) (by omega) (by omega) (by omega) hk hx

theorem Valid.searchListSet_eq_none {cmp : α → ℤ} {listset : ListSet α} (h : listset.Valid)
    (hsep : Separated cmp listset.data) :
    listset.searchListSet cmp = none ↔ ∀ x ∈ listset.data, cmp x ≠ 0 := by
  rw [Option.eq_none_iff_forall_ne_some]
  constructor
  · intro hnone x hmem hx
    exact hnone x ((h.searchListSet_eq_some hsep).mpr ⟨hmem, hx⟩)
  · intro hne x hsome
    obtain ⟨hmem, hx⟩ := (h.searchListSet_eq_some hsep).mp hsome
    exact hne x hmem hx

/-! ### Insertion and deletion -/

theorem Valid.growArray {alloc : Bool} {listset s : ListSet α} (h : listset.Valid)
    (hs : listset.growArray alloc = some s) :
    s.size = listset.size ∧ s.data = listset.data ∧ s.size < s.capacity := by
  unfold ListSet.growArray at hs
  have hle := h.size_le
  split at hs
  · split at hs
    · obtain rfl := Option.some.inj hs
      exact ⟨rfl, rfl, by simp only [defListArraySize]; omega⟩
    · simp at hs
  · obtain rfl := Option.some.inj hs
    exact ⟨rfl, rfl, by omega⟩

theorem addToSet_isSome {alloc : Bool} {cmp : α → ℤ} {item : α} {listset : ListSet α}
    (h : alloc = true ∨ listset.size < listset.capacity) :
    (listset.addToSet alloc cmp item).isSome := by
  unfold addToSet ListSet.growArray
  rcases h with rfl | hlt
  · split <;> simp
  · rw [if_neg (by omega)]
    simp

theorem Valid.addToSet {alloc : Bool} {cmp : α → ℤ} {item : α} {listset s : ListSet α}
    (h : listset.Valid) (hnew : item ∉ listset.data)
    (hs : listset.addToSet alloc cmp item = some s) :
    s.Valid ∧ s.data = insertLast cmp item listset.data := by
  obtain ⟨g, hg, rfl⟩ := Option.map_eq_some_iff.mp hs
  obtain ⟨hsize, hdata, hcap⟩ := h.growArray hg
  refine ⟨⟨?_, ?_, hcap⟩, by simp [hdata]⟩
  · simpa [hdata] using nodup_insertLast.mpr ⟨hnew, h.nodup⟩
  · simp [hdata, hsize, h.size_eq]

/-- In a separated list the loop removes exactly the element that compares equal. -/
theorem delLoop_of_mem [DecidableEq α] {cmp : α → ℤ} {xs : List α} (hnodup : xs.Nodup)
    (hsep : Separated cmp xs) {x : α} (hmem : x ∈ xs) (hx : cmp x = 0) :
    delLoop cmp xs = some (x, xs.erase x) := by
  induction xs with
  | nil => simp at hmem
  | cons y ys ih =>
    obtain ⟨hy, hys⟩ := List.pairwise_cons.mp hsep
    simp only [delLoop]
    rcases List.mem_cons.mp hmem with rfl | hmem
    · simp [hx]
    · have hne : y ≠ x := by
        rintro rfl
        exact (List.nodup_cons.mp hnodup).1 hmem
      have hneg : cmp y < 0 := by
        by_contra hge
        have := hy x hmem (not_lt.mp hge)
        omega
      rw [if_pos hneg, ih (List.nodup_cons.mp hnodup).2 hys hmem,
        List.erase_cons_tail (by simpa using hne)]
      rfl

theorem Valid.delFromSet_of_mem [DecidableEq α] {cmp : α → ℤ} {listset : ListSet α} (h : listset.Valid)
    (hsep : Separated cmp listset.data) {x : α} (hmem : x ∈ listset.data) (hx : cmp x = 0) :
    listset.delFromSet cmp =
      some (x, { listset with data := listset.data.erase x, size := listset.size - 1 }) := by
  simp [delFromSet, delLoop_of_mem h.nodup hsep hmem hx]

theorem Valid.erase [DecidableEq α] {listset : ListSet α} (h : listset.Valid) {x : α} (hmem : x ∈ listset.data) :
    ({ listset with data := listset.data.erase x, size := listset.size - 1 } : ListSet α).Valid := by
  have hsize := h.size_eq
  have hle := h.size_le
  refine ⟨h.nodup.erase x, ?_, ?_⟩
  · simp only [List.length_erase_of_mem hmem]
    omega
  · simp only
    omega

end ListSet

end OpenvasTool
