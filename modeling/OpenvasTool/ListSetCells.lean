import OpenvasTool.LList
import OpenvasTool.Support.StableSort

/-!
# The cells of a list set

The functions of a list set on the memory of its array. They read and write only
cells of the array, and they do to the elements what the operations on lists do.
So a set keeps its elements stably sorted in every run, whichever allocations fail.
Size, capacity and the middle of a search are integers here; the `int`s of the
source do not wrap below 2^30 items.
-/

namespace OpenvasTool

open Support

variable {α : Type*}

/-- `struct ListSet` with the cells that `m_data` points to. A cell that is `NULL` or was not
written yet holds nothing. -/
structure SetCells (α : Type*) where
  data : List (Option α)
  capacity : ℕ
  size : ℕ
  deriving DecidableEq, Repr

namespace SetCells

/-- The element in a cell of the array. -/
def read (data : List (Option α)) (n : ℕ) : Option α := data[n]?.join

/-- Write a cell; there is no result outside of the array. -/
def write (data : List (Option α)) (n : ℕ) (val : Option α) : Option (List (Option α)) :=
  if n < data.length then some (data.set n val) else none

/-- `initListSet` after a successful allocation. -/
def initListSet : SetCells α :=
  ⟨List.replicate defListArraySize none, defListArraySize, 0⟩

/-- `binarySearch` in the range `[low, high)`; the fuel bounds the recursion depth. There is no
result when the fuel runs out or a cell cannot be read. -/
def binarySearch (arr : List (Option α)) (cmp : α → ℤ) : ℕ → ℕ → ℕ → Option (Option α)
  | 0, _, _ => none
  | fuel + 1, low, high =>
      if low < high then do
        let mid := (low + high) / 2
        let x ← read arr mid
        if cmp x < 0 then binarySearch arr cmp fuel (mid + 1) high
        else if 0 < cmp x then binarySearch arr cmp fuel low mid
        else some (some x)
      else some none

/-- `searchListSet`. -/
def searchListSet (cmp : α → ℤ) (listset : SetCells α) : Option (Option α) :=
  if 0 < listset.size then
    binarySearch listset.data cmp (listset.size + 1) 0 listset.size
  else some none

/-- `growArray`; `alloc` is the outcome of `realloc`. -/
def growArray (alloc : Bool) (listset : SetCells α) : ℤ × SetCells α :=
  if listset.size = listset.capacity then
    if alloc then
      (0, { listset with
        data := listset.data ++ List.replicate defListArraySize none
        capacity := listset.capacity + defListArraySize })
    else (-1, listset)
  else (0, listset)

/-- The loop of `addToSet`, where `n` elements are in front of the gap. -/
def shiftLoop (cmp : α → ℤ) : ℕ → List (Option α) → Option (ℕ × List (Option α))
  | 0, data => some (0, data)
  | n + 1, data => do
      let x ← read data n
      if 0 < cmp x then
        let data ← write data (n + 1) (some x)
        shiftLoop cmp n data
      else some (n + 1, data)

/-- `addToSet`. -/
def addToSet (alloc : Bool) (cmp : α → ℤ) (item : α) (listset : SetCells α) :
    Option (ℤ × SetCells α) :=
  match listset.growArray alloc with
  | (0, grown) => do
      let (n, data) ← shiftLoop cmp grown.size grown.data
      let data ← write data n (some item)
      some (0, { grown with data := data, size := grown.size + 1 })
  | (ret, grown) => some (ret, grown)

/-- The search of `delFromSet` from index `n` on, with `left` elements to go. -/
def findLoop (cmp : α → ℤ) (data : List (Option α)) : ℕ → ℕ → Option (Option (ℕ × α))
  | 0, _ => some none
  | left + 1, n => do
      let curr ← read data n
      if cmp curr < 0 then findLoop cmp data left (n + 1)
      else if cmp curr = 0 then some (some (n, curr))
      else some none

/-- The inner loop of `delFromSet`: `left` elements behind index `n` move down. -/
def closeLoop : ℕ → ℕ → List (Option α) → Option (List (Option α))
  | 0, n, data => write data n none
  | left + 1, n, data => do
      let x ← read data (n + 1)
      let data ← write data n (some x)
      closeLoop left (n + 1) data

/-- `delFromSet`: the deleted element, if there is one. -/
def delFromSet (cmp : α → ℤ) (listset : SetCells α) : Option (Option α × SetCells α) := do
  match ← findLoop cmp listset.data listset.size 0 with
  | none => some (none, listset)
  | some (n, curr) =>
      let data ← closeLoop (listset.size - (n + 1)) n listset.data
      some (some curr, { listset with data := data, size := listset.size - 1 })

/-! ### Cells and elements -/

/-- The cells in use hold these elements, in an array of `m_capacity` cells. -/
structure Holds (listset : SetCells α) (xs : List α) : Prop where
  allocated : listset.data.length = listset.capacity
  used : ∃ rest, listset.data = xs.map some ++ rest
  size_eq : listset.size = xs.length

namespace Holds

variable {listset : SetCells α} {xs : List α}

theorem size_le (h : listset.Holds xs) : listset.size ≤ listset.capacity := by
  obtain ⟨rest, hdata⟩ := h.used
  rw [← h.allocated, h.size_eq, hdata]
  simp

end Holds

theorem holds_initListSet : (initListSet : SetCells α).Holds [] :=
  ⟨by simp [initListSet], ⟨_, rfl⟩, rfl⟩

theorem read_append {xs : List α} {x : α} {rest : List (Option α)} {n : ℕ} (hn : n = xs.length) :
    read (xs.map some ++ some x :: rest) n = some x := by
  subst hn
  simp [read]

theorem write_append {xs : List α} {c : Option α} {rest : List (Option α)} {n : ℕ}
    (hn : n = xs.length) (val : Option α) :
    write (xs.map some ++ c :: rest) n val = some (xs.map some ++ val :: rest) := by
  subst hn
  rw [write, if_pos (by simp)]
  simp

theorem read_used {xs : List α} {rest : List (Option α)} {n : ℕ} (hn : n < xs.length) :
    read (xs.map some ++ rest) n = some xs[n] := by
  simp [read, List.getElem?_append_left, hn]

/-! ### The loops -/

/-- The search on the cells finds what the search on the elements finds. -/
theorem binarySearch_eq {xs : List α} {rest : List (Option α)} (cmp : α → ℤ) {fuel low high : ℕ}
    (hhigh : high ≤ xs.length) (hfuel : high - low < fuel) :
    binarySearch (xs.map some ++ rest) cmp fuel low high =
      some (ListSet.binarySearch xs cmp fuel low high) := by
  induction fuel generalizing low high with
  | zero => omega
  | succ fuel ih =>
    simp only [binarySearch, ListSet.binarySearch]
    split
    · have hmid : (low + high) / 2 < xs.length := by omega
      rw [read_used hmid, List.getElem?_eq_getElem hmid]
      simp only [Option.bind_eq_bind, Option.bind_some]
      split
      · exact ih hhigh (by omega)
      · split
        · exact ih (by omega) (by omega)
        · rfl
    · rfl

/-- The greater elements move up by one cell, and leave a gap in front of them. -/
theorem shiftLoop_eq (cmp : α → ℤ) (xs : List α) (gap : Option α) (rest : List (Option α)) :
    ∃ gap', shiftLoop cmp xs.length (xs.map some ++ gap :: rest) =
      some ((xs.rdropWhile fun y => decide (0 < cmp y)).length,
        (xs.rdropWhile fun y => decide (0 < cmp y)).map some ++
          gap' :: ((xs.rtakeWhile fun y => decide (0 < cmp y)).map some ++ rest)) := by
  induction xs using List.reverseRecOn generalizing gap rest with
  | nil => exact ⟨gap, rfl⟩
  | append_singleton xs x ih =>
    have hlen : (xs ++ [x]).length = xs.length + 1 := by simp
    have hcells : (xs ++ [x]).map some ++ gap :: rest =
        xs.map some ++ some x :: gap :: rest := by simp
    rw [hlen, hcells]
    simp only [shiftLoop, read_append rfl, Option.bind_eq_bind, Option.bind_some]
    by_cases hpos : 0 < cmp x
    · have hwrite : write (xs.map some ++ some x :: gap :: rest) (xs.length + 1) (some x) =
          some (xs.map some ++ some x :: some x :: rest) := by
        have hfront : xs.map some ++ some x :: gap :: rest =
            (xs ++ [x]).map some ++ gap :: rest := hcells.symm
        rw [hfront, write_append hlen.symm]
        simp
      rw [if_pos hpos, hwrite, Option.bind_some]
      obtain ⟨gap', hloop⟩ := ih (some x) (some x :: rest)
      refine ⟨gap', ?_⟩
      rw [hloop, List.rdropWhile_concat_pos _ _ _ (by simpa using hpos),
        List.rtakeWhile_concat_pos _ _ _ (by simpa using hpos)]
      simp
    · refine ⟨gap, ?_⟩
      rw [if_neg hpos, List.rdropWhile_concat_neg _ _ _ (by simpa using hpos),
        List.rtakeWhile_concat_neg _ _ _ (by simpa using hpos)]
      simp

/-- The elements behind an index move down by one cell, and the last cell becomes `NULL`. -/
theorem closeLoop_eq (as : List α) (x : α) (bs : List α) (rest : List (Option α)) :
    closeLoop bs.length as.length (as.map some ++ some x :: (bs.map some ++ rest)) =
      some ((as ++ bs).map some ++ none :: rest) := by
  induction bs generalizing as x with
  | nil =>
    rw [List.length_nil, closeLoop, write_append rfl]
    simp
  | cons b bs ih =>
    have hread : read (as.map some ++ some x :: ((b :: bs).map some ++ rest)) (as.length + 1) =
        some b := by
      have hcells : as.map some ++ some x :: ((b :: bs).map some ++ rest) =
          (as ++ [x]).map some ++ some b :: (bs.map some ++ rest) := by simp
      rw [hcells, read_append (by simp)]
    have hcells : as.map some ++ some b :: ((b :: bs).map some ++ rest) =
        (as ++ [b]).map some ++ some b :: (bs.map some ++ rest) := by simp
    have hlen : as.length + 1 = (as ++ [b]).length := by simp
    simp only [List.length_cons, closeLoop, hread, Option.bind_eq_bind, Option.bind_some,
      write_append (rfl : as.length = as.length)]
    rw [hcells, hlen, ih]
    simp

/-- The loop stops where the deletion on lists decides. -/
theorem findLoop_eq (cmp : α → ℤ) (as bs : List α) (rest : List (Option α)) :
    (ListSet.delLoop cmp bs = none ∧
        findLoop cmp (as.map some ++ (bs.map some ++ rest)) bs.length as.length = some none) ∨
      ∃ cs x ds, bs = cs ++ x :: ds ∧ ListSet.delLoop cmp bs = some (x, cs ++ ds) ∧
        findLoop cmp (as.map some ++ (bs.map some ++ rest)) bs.length as.length =
          some (some ((as ++ cs).length, x)) := by
  induction bs generalizing as with
  | nil => exact Or.inl ⟨rfl, rfl⟩
  | cons b bs ih =>
    have hread : read (as.map some ++ ((b :: bs).map some ++ rest)) as.length = some b :=
      read_append rfl
    simp only [List.length_cons, findLoop, hread, Option.bind_eq_bind, Option.bind_some,
      ListSet.delLoop]
    by_cases hneg : cmp b < 0
    · have hcells : as.map some ++ ((b :: bs).map some ++ rest) =
          (as ++ [b]).map some ++ (bs.map some ++ rest) := by simp
      have hlen : as.length + 1 = (as ++ [b]).length := by simp
      rw [if_pos hneg, if_pos hneg, hcells, hlen]
      rcases ih (as ++ [b]) with ⟨hnone, hfind⟩ | ⟨cs, x, ds, rfl, hdel, hfind⟩
      · exact Or.inl ⟨by rw [hnone]; rfl, hfind⟩
      · refine Or.inr ⟨b :: cs, x, ds, rfl, by rw [hdel]; rfl, ?_⟩
        rw [hfind]
        simp
    · rw [if_neg hneg, if_neg hneg]
      by_cases hzero : cmp b = 0
      · rw [if_pos hzero, if_pos hzero]
        exact Or.inr ⟨[], b, bs, rfl, rfl, by simp⟩
      · rw [if_neg hzero, if_neg hzero]
        exact Or.inl ⟨rfl, rfl⟩

/-! ### The operations -/

namespace Holds

variable {listset : SetCells α} {xs : List α}

theorem searchListSet (h : listset.Holds xs) (cmp : α → ℤ) :
    listset.searchListSet cmp =
      some (ListSet.searchListSet cmp ⟨listset.capacity, listset.size, xs⟩) := by
  obtain ⟨rest, hdata⟩ := h.used
  unfold SetCells.searchListSet ListSet.searchListSet
  split
  · rw [hdata, binarySearch_eq cmp h.size_eq.le (by omega)]
  · rfl

theorem growArray (h : listset.Holds xs) {alloc : Bool} {grown : SetCells α}
    (hgrow : listset.growArray alloc = (0, grown)) :
    grown.Holds xs ∧ grown.size < grown.capacity := by
  have hle := h.size_le
  obtain ⟨rest, hdata⟩ := h.used
  unfold SetCells.growArray at hgrow
  split at hgrow
  · split at hgrow
    · obtain rfl := (Prod.mk.inj hgrow).2
      refine ⟨⟨?_, ⟨rest ++ List.replicate defListArraySize none, ?_⟩, h.size_eq⟩, ?_⟩
      · simp [h.allocated]
      · simp [hdata]
      · simp only [defListArraySize]
        omega
    · simp at hgrow
  · obtain rfl := (Prod.mk.inj hgrow).2
    exact ⟨h, by omega⟩

/-- An item is added, or the array is full and could not grow. -/
theorem addToSet (h : listset.Holds xs) (alloc : Bool) (cmp : α → ℤ) (item : α) :
    (∃ listset', listset.addToSet alloc cmp item = some (0, listset') ∧
        listset'.Holds (insertLast cmp item xs)) ∨
      (listset.addToSet alloc cmp item = some (-1, listset) ∧ alloc = false ∧
        listset.size = listset.capacity) := by
  by_cases hfail : listset.size = listset.capacity ∧ alloc = false
  · right
    refine ⟨?_, hfail.2, hfail.1⟩
    simp [SetCells.addToSet, SetCells.growArray, hfail]
  · left
    have hgrow : (listset.growArray alloc).1 = 0 := by
      unfold SetCells.growArray
      split
      · rename_i hfull
        rw [if_pos]
        simpa [hfull] using hfail
      · rfl
    obtain ⟨grown, hgrow⟩ : ∃ grown, listset.growArray alloc = (0, grown) := ⟨_, Prod.ext hgrow rfl⟩
    obtain ⟨hgrown, hroom⟩ := h.growArray hgrow
    obtain ⟨rest, hdata⟩ := hgrown.used
    obtain ⟨gap, rest, rfl⟩ : ∃ gap rest', rest = gap :: rest' := by
      apply List.exists_cons_of_ne_nil
      rintro rfl
      have hlen := hgrown.allocated
      have hsize := hgrown.size_eq
      rw [hdata, List.append_nil, List.length_map] at hlen
      omega
    obtain ⟨gap', hloop⟩ := shiftLoop_eq cmp xs gap rest
    rw [← hdata, ← hgrown.size_eq] at hloop
    have hcells : insertLast cmp item xs = (xs.rdropWhile fun y => decide (0 < cmp y)) ++
        item :: xs.rtakeWhile fun y => decide (0 < cmp y) := rfl
    simp only [SetCells.addToSet, hgrow, hloop, Option.bind_eq_bind, Option.bind_some,
      write_append rfl]
    refine ⟨_, rfl, ?_, ⟨rest, ?_⟩, ?_⟩
    · have hlen := hgrown.allocated
      rw [hdata] at hlen
      have hsplit := congrArg List.length
        (List.rdropWhile_append_rtakeWhile (p := fun y => decide (0 < cmp y)) (l := xs))
      simp only [List.length_append, List.length_map, List.length_cons] at hlen hsplit ⊢
      omega
    · simp [hcells]
    · simp [hgrown.size_eq]

/-- The first element that is not less than the key is deleted, or nothing changes. -/
theorem delFromSet (h : listset.Holds xs) (cmp : α → ℤ) :
    (ListSet.delLoop cmp xs = none ∧ listset.delFromSet cmp = some (none, listset)) ∨
      ∃ x xs' listset', ListSet.delLoop cmp xs = some (x, xs') ∧
        listset.delFromSet cmp = some (some x, listset') ∧ listset'.Holds xs' := by
  obtain ⟨rest, hdata⟩ := h.used
  have hfind := findLoop_eq cmp [] xs rest
  rw [List.map_nil, List.nil_append, List.length_nil, ← hdata, ← h.size_eq] at hfind
  rcases hfind with ⟨hnone, hfind⟩ | ⟨cs, x, ds, rfl, hdel, hfind⟩
  · exact Or.inl ⟨hnone, by simp [SetCells.delFromSet, hfind]⟩
  · have hleft : listset.size - (cs.length + 1) = ds.length := by
      have hsize := h.size_eq
      rw [List.length_append, List.length_cons] at hsize
      omega
    have hcells : listset.data = cs.map some ++ some x :: (ds.map some ++ rest) := by simp [hdata]
    refine Or.inr ⟨x, cs ++ ds,
      ⟨(cs ++ ds).map some ++ none :: rest, listset.capacity, listset.size - 1⟩, hdel, ?_,
      ?_, ⟨none :: rest, rfl⟩, ?_⟩
    · have hclose := closeLoop_eq cs x ds rest
      rw [← hleft, ← hcells] at hclose
      rw [List.nil_append] at hfind
      simp only [SetCells.delFromSet, hfind, hclose, Option.bind_eq_bind, Option.bind_some]
    · have hlen := h.allocated
      rw [hdata] at hlen
      simp only [List.length_append, List.length_map, List.length_cons] at hlen ⊢
      omega
    · have hsize := h.size_eq
      simp only [List.length_append, List.length_cons] at hsize ⊢
      omega

end Holds

end SetCells

/-! ### Ascending lists -/

namespace ListSet

/-- Along the list the signs of a comparison with one key only increase. -/
def Rising (f : α → ℤ) (xs : List α) : Prop :=
  xs.Pairwise fun a b => (f b < 0 → f a < 0) ∧ (0 < f a → 0 < f b)

theorem rising_of_ascending {cmp : α → α → ℤ} (h : PreorderComparison cmp) {xs : List α}
    (hxs : Ascending cmp xs) (key : α) : Rising (fun y => cmp y key) xs := by
  refine List.Pairwise.imp (fun {a b} hab => ⟨fun hb => ?_, fun ha => ?_⟩) hxs
  · -- otherwise the key is not greater than `a`, hence not greater than `b`
    by_contra hge
    have hka : cmp key a ≤ 0 := (h.swap key a).mpr (not_lt.mp hge)
    exact absurd ((h.swap key b).mp (h.trans hka hab)) (not_le.mpr hb)
  · by_contra hle
    exact absurd (h.trans hab (not_lt.mp hle)) (not_le.mpr ha)

/-- Binary search finds a zero in its range if there is one. -/
theorem binarySearch_isSome {arr : List α} {cmp : α → ℤ} (hrise : Rising cmp arr)
    {fuel low high k : ℕ} (hlow : low ≤ k) (hhigh : k < high) (hlen : high ≤ arr.length)
    (hfuel : high - low < fuel) {x : α} (hk : arr[k]? = some x) (hx : cmp x = 0) :
    (binarySearch arr cmp fuel low high).isSome := by
  induction fuel generalizing low high with
  | zero => omega
  | succ fuel ih =>
    have hmid : (low + high) / 2 < arr.length := by omega
    have hpair := List.pairwise_iff_getElem.mp hrise
    obtain ⟨hklt, hkx⟩ := List.getElem?_eq_some_iff.mp hk
    simp only [binarySearch, if_pos (show low < high by omega), List.getElem?_eq_getElem hmid]
    by_cases hneg : cmp arr[(low + high) / 2] < 0
    · rw [if_pos hneg]
      have hlt : (low + high) / 2 < k := by
        rcases lt_trichotomy ((low + high) / 2) k with hlt | heq | hgt
        · exact hlt
        · subst heq
          rw [hkx, hx] at hneg
          omega
        · have := (hpair _ _ hklt hmid hgt).1 hneg
          rw [hkx, hx] at this
          omega
      exact ih (by omega) hhigh hlen (by omega)
    · rw [if_neg hneg]
      by_cases hpos : 0 < cmp arr[(low + high) / 2]
      · rw [if_pos hpos]
        have hgt : k < (low + high) / 2 := by
          rcases lt_trichotomy ((low + high) / 2) k with hlt | heq | hgt
          · have := (hpair _ _ hmid hklt hlt).2 hpos
            rw [hkx, hx] at this
            omega
          · subst heq
            rw [hkx, hx] at hpos
            omega
          · exact hgt
        exact ih hlow hgt (by omega) (by omega)
      · rw [if_neg hpos]
        rfl

/-- In an ascending list the loop removes the first element with the key. -/
theorem delLoop_eq {f : α → ℤ} {xs : List α} (hrise : Rising f xs) :
    delLoop f xs = (xs.find? fun y => f y == 0).map fun x => (x, xs.eraseP fun y => f y == 0) := by
  induction xs with
  | nil => rfl
  | cons x xs ih =>
    obtain ⟨hx, hxs⟩ := List.pairwise_cons.mp hrise
    simp only [delLoop]
    rcases lt_trichotomy (f x) 0 with hneg | hzero | hpos
    · have hne : (f x == 0) = false := by simpa using hneg.ne
      rw [if_pos hneg, ih hxs, List.find?_cons_of_neg (by simp [hne]),
        List.eraseP_cons_of_neg (by simp [hne]), Option.map_map]
      rfl
    · have heq : (f x == 0) = true := by simpa using hzero
      rw [if_neg (by omega), if_pos hzero, List.find?_cons_of_pos (by simp [heq]),
        List.eraseP_cons_of_pos (by simp [heq])]
      rfl
    · -- everything behind this element is greater than the key, too
      have hnone : (x :: xs).find? (fun y => f y == 0) = none := by
        apply List.find?_eq_none.mpr
        intro y hy
        have hy : 0 < f y := by
          rcases List.mem_cons.mp hy with rfl | hmem
          · exact hpos
          · exact (hx y hmem).2 hpos
        simpa using hy.ne'
      rw [if_neg (by omega), if_neg (by omega), hnone]
      rfl

end ListSet

/-! ### Runs -/

/-- A call on a list set; `alloc` is the outcome of a `realloc` in it. -/
inductive SetCall (α : Type*) where
  | addToSet (item : α) (alloc : Bool)
  | delFromSet (key : α)

section Runs

/-- A call on the set, with the items that were added and not deleted yet in the order of their
insertion. -/
def setStep [DecidableEq α] (cmp : α → α → ℤ) (s : SetCells α × List α) : SetCall α → Option (SetCells α × List α)
  | .addToSet item alloc => do
      let (ret, listset) ← s.1.addToSet alloc (fun y => cmp y item) item
      some (listset, if ret = 0 then s.2 ++ [item] else s.2)
  | .delFromSet key => do
      let (val, listset) ← s.1.delFromSet fun y => cmp y key
      some (listset, match val with
        | none => s.2
        | some x => s.2.erase x)

/-- The calls on a new set. -/
def setRun [DecidableEq α] (cmp : α → α → ℤ) (calls : List (SetCall α)) : Option (SetCells α × List α) :=
  calls.foldlM (setStep cmp) (SetCells.initListSet, [])

/-- The elements in use are the live items, stably sorted. -/
structure SetCells.Sorted (cmp : α → α → ℤ) (listset : SetCells α) (live xs : List α) : Prop where
  allocated : listset.data.length = listset.capacity
  size_le : listset.size ≤ listset.capacity
  used : listset.data.take listset.size = xs.map some
  sorted : StablySorted cmp live xs

/-- What the next call of each function does to a set with these elements. -/
structure SetCells.Answers [DecidableEq α] (cmp : α → α → ℤ) (listset : SetCells α) (live xs : List α) : Prop where
  search : ∀ key, ∃ val, listset.searchListSet (fun y => cmp y key) = some val ∧
    (∀ x, val = some x → x ∈ live ∧ cmp x key = 0) ∧ (val = none → ∀ x ∈ live, cmp x key ≠ 0)
  delete : ∀ key, ∃ val listset', listset.delFromSet (fun y => cmp y key) = some (val, listset') ∧
    val = (xs.find? fun y => cmp y key == 0) ∧ (val = none → listset' = listset) ∧
    ∀ x, val = some x → listset'.Sorted cmp (live.erase x) (xs.eraseP fun y => cmp y key == 0)
  add : ∀ item alloc, ∃ ret listset',
    listset.addToSet alloc (fun y => cmp y item) item = some (ret, listset') ∧
    (ret = 0 → ∃ ys, listset'.Sorted cmp (live ++ [item]) ys) ∧
    (ret ≠ 0 → listset' = listset ∧ alloc = false ∧ listset.size = listset.capacity)

variable {cmp : α → α → ℤ} {listset : SetCells α} {live xs : List α}

theorem SetCells.Holds.sorted (h : listset.Holds xs) (hs : StablySorted cmp live xs) :
    listset.Sorted cmp live xs := by
  obtain ⟨rest, hdata⟩ := h.used
  refine ⟨h.allocated, h.size_le, ?_, hs⟩
  rw [hdata, h.size_eq, ← List.length_map some, List.take_left]

/-- The next call of each function answers as on the sorted list of the live items. -/
theorem SetCells.Holds.answers [DecidableEq α] (hcmp : PreorderComparison cmp) (h : listset.Holds xs)
    (hs : StablySorted cmp live xs) : listset.Answers cmp live xs := by
  have hrise := fun key => ListSet.rising_of_ascending hcmp hs.ascending key
  refine ⟨fun key => ?_, fun key => ?_, fun item alloc => ?_⟩
  · refine ⟨_, h.searchListSet _, fun x hx => ?_, fun hnone x hmem hx => ?_⟩
    · unfold ListSet.searchListSet at hx
      split at hx
      · obtain ⟨hmem, hzero⟩ := ListSet.binarySearch_mem hx
        exact ⟨hs.perm.subset hmem, hzero⟩
      · simp at hx
    · -- the item lies somewhere in the array
      obtain ⟨k, hk⟩ := List.mem_iff_getElem?.mp (hs.perm.mem_iff.mpr hmem)
      have hklt : k < xs.length := (List.getElem?_eq_some_iff.mp hk).1
      have hsize := h.size_eq
      unfold ListSet.searchListSet at hnone
      rw [if_pos (show 0 < listset.size by omega)] at hnone
      have hfound := ListSet.binarySearch_isSome (hrise key) (Nat.zero_le k)
        (show k < listset.size by omega) hsize.le (Nat.lt_succ_self _) hk hx
      rw [Nat.sub_zero] at hfound
      exact absurd hnone (Option.isSome_iff_ne_none.mp hfound)
  · have hloop := ListSet.delLoop_eq (hrise key)
    rcases h.delFromSet fun y => cmp y key with ⟨hnone, hdel⟩ | ⟨x, xs', listset', hsome, hdel, hholds⟩
    · rw [hnone, eq_comm, Option.map_eq_none_iff] at hloop
      exact ⟨none, listset, hdel, hloop.symm, fun _ => rfl, by simp⟩
    · rw [hsome, eq_comm, Option.map_eq_some_iff] at hloop
      obtain ⟨y, hfind, hpair⟩ := hloop
      obtain ⟨rfl, rfl⟩ := Prod.mk.inj hpair
      refine ⟨some y, listset', hdel, hfind.symm, by simp, fun z hz => ?_⟩
      obtain rfl := Option.some.inj hz
      exact hholds.sorted (hs.eraseFirst hfind)
  · rcases h.addToSet alloc (fun y => cmp y item) item with
      ⟨listset', hadd, hholds⟩ | ⟨hadd, halloc, hfull⟩
    · exact ⟨0, listset', hadd, fun _ => ⟨_, hholds.sorted (hs.insert hcmp item)⟩, by simp⟩
    · exact ⟨-1, listset, hadd, by simp, fun _ => ⟨rfl, halloc, hfull⟩⟩

/-- One call keeps the elements stably sorted. -/
theorem SetCells.Holds.setStep [DecidableEq α] (hcmp : PreorderComparison cmp) (h : listset.Holds xs)
    (hs : StablySorted cmp live xs) (call : SetCall α) :
    ∃ listset' live' xs', OpenvasTool.setStep cmp (listset, live) call = some (listset', live') ∧
      listset'.Holds xs' ∧ StablySorted cmp live' xs' := by
  cases call with
  | addToSet item alloc =>
    rcases h.addToSet alloc (fun y => cmp y item) item with
      ⟨listset', hadd, hholds⟩ | ⟨hadd, _, _⟩
    · exact ⟨listset', live ++ [item], _, by simp [OpenvasTool.setStep, hadd], hholds,
        hs.insert hcmp item⟩
    · exact ⟨listset, live, xs, by simp [OpenvasTool.setStep, hadd], h, hs⟩
  | delFromSet key =>
    have hloop := ListSet.delLoop_eq (ListSet.rising_of_ascending hcmp hs.ascending key)
    rcases h.delFromSet fun y => cmp y key with ⟨_, hdel⟩ | ⟨x, xs', listset', hsome, hdel, hholds⟩
    · exact ⟨listset, live, xs, by simp [OpenvasTool.setStep, hdel], h, hs⟩
    · rw [hsome, eq_comm, Option.map_eq_some_iff] at hloop
      obtain ⟨y, hfind, hpair⟩ := hloop
      obtain ⟨rfl, rfl⟩ := Prod.mk.inj hpair
      exact ⟨listset', live.erase y, _, by simp [OpenvasTool.setStep, hdel], hholds,
        hs.eraseFirst hfind⟩

/-- **A list set is a sorted multiset with exact search**, after all calls and for every outcome of
the allocations; no call reads or writes outside of its array. -/
theorem setRun_sorted [DecidableEq α] (hcmp : PreorderComparison cmp) (calls : List (SetCall α)) :
    ∃ listset live xs, setRun cmp calls = some (listset, live) ∧
      listset.Sorted cmp live xs ∧ listset.Answers cmp live xs := by
  have hrun : ∀ (calls : List (SetCall α)) (listset : SetCells α) (live xs : List α),
      listset.Holds xs → StablySorted cmp live xs →
      ∃ listset' live' xs', calls.foldlM (setStep cmp) (listset, live) = some (listset', live') ∧
        listset'.Holds xs' ∧ StablySorted cmp live' xs' := by
    intro calls
    induction calls with
    | nil => exact fun listset live xs h hs => ⟨listset, live, xs, rfl, h, hs⟩
    | cons call calls ih =>
      intro listset live xs h hs
      obtain ⟨listset', live', xs', hstep, h', hs'⟩ := h.setStep hcmp hs call
      rw [List.foldlM_cons, hstep]
      exact ih listset' live' xs' h' hs'
  obtain ⟨listset, live, xs, hrun, h, hs⟩ :=
    hrun calls _ _ _ SetCells.holds_initListSet StablySorted.nil
  exact ⟨listset, live, xs, hrun, h.sorted hs, h.answers hcmp hs⟩

/-- Items with equal tens, one of them added twice and one deleted by its key. -/
theorem setRun_sorted_tens : ∃ listset live xs,
    setRun (fun a b : ℤ => a / 10 - b / 10) [.addToSet 31 true, .addToSet 12 true,
      .addToSet 35 false, .addToSet 31 true, .delFromSet 30] = some (listset, live) ∧
      listset.Sorted (fun a b : ℤ => a / 10 - b / 10) live xs ∧
      listset.Answers (fun a b : ℤ => a / 10 - b / 10) live xs :=
  setRun_sorted ⟨fun a b => by omega, fun hab hbc => by omega⟩ _

end Runs

end OpenvasTool
