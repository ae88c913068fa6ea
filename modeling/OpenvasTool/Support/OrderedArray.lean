import Mathlib.Data.List.Nodup

/-!
# Arrays with insertion order

Finite maps that list their keys in the order in which they were first set, as the
arrays of a scripting language do.
-/

namespace Support

/-- A finite map whose entries stand in the order in which their keys were first set. -/
structure OrderedArray (κ α : Type*) where
  entries : List (κ × α)
  nodup : (entries.map Prod.fst).Nodup

namespace OrderedArray

variable {κ α : Type*}

/-- The array without entries. -/
def empty : OrderedArray κ α := ⟨[], List.nodup_nil⟩

/-- The keys in the order in which they were first set. -/
def keys (a : OrderedArray κ α) : List κ := a.entries.map Prod.fst

variable [DecidableEq κ]

/-- The value of a key. -/
def get? (a : OrderedArray κ α) (k : κ) : Option α := a.entries.lookup k

/-- An entry is replaced where it stands, a new one is appended. -/
def setEntries (k : κ) (v : α) : List (κ × α) → List (κ × α)
  | [] => [(k, v)]
  | e :: es => if e.1 = k then (k, v) :: es else e :: setEntries k v es

theorem setEntries_of_notMem {k : κ} {v : α} {es : List (κ × α)} (h : k ∉ es.map Prod.fst) :
    setEntries k v es = es ++ [(k, v)] := by
  induction es with
  | nil => rfl
  | cons e es ih =>
    simp only [List.map_cons, List.mem_cons, not_or] at h
    rw [setEntries, if_neg (Ne.symm h.1), ih h.2, List.cons_append]

theorem map_fst_setEntries_of_mem {k : κ} {v : α} {es : List (κ × α)} (h : k ∈ es.map Prod.fst) :
    (setEntries k v es).map Prod.fst = es.map Prod.fst := by
  induction es with
  | nil => simp at h
  | cons e es ih =>
    rw [setEntries]
    split
    · rename_i heq
      simp [heq]
    · rename_i hne
      have hes : k ∈ es.map Prod.fst := by
        simpa [Ne.symm hne] using h
      rw [List.map_cons, List.map_cons, ih hes]

theorem lookup_setEntries (k j : κ) (v : α) (es : List (κ × α)) :
    (setEntries k v es).lookup j = if j = k then some v else es.lookup j := by
  induction es with
  | nil =>
    by_cases hj : j = k
    · simp [setEntries, hj]
    · have hbeq : (j == k) = false := by simpa using hj
      simp [setEntries, List.lookup_cons, hbeq, hj]
  | cons e es ih =>
    rw [setEntries]
    by_cases he : e.1 = k
    · rw [if_pos he, List.lookup_cons, List.lookup_cons, he]
      by_cases hj : j = k
      · simp [hj]
      · have hbeq : (j == k) = false := by simpa using hj
        simp [hbeq, hj]
    · rw [if_neg he, List.lookup_cons, List.lookup_cons, ih]
      by_cases hj : j = k
      · have hbeq : (k == e.1) = false := by simpa using Ne.symm he
        simp [hj, hbeq]
      · simp [hj]

/-- `a[k] = v`. -/
def set (a : OrderedArray κ α) (k : κ) (v : α) : OrderedArray κ α where
  entries := setEntries k v a.entries
  nodup := by
    by_cases hk : k ∈ a.entries.map Prod.fst
    · rw [map_fst_setEntries_of_mem hk]
      exact a.nodup
    · rw [setEntries_of_notMem hk, List.map_append]
      exact a.nodup.append (List.nodup_singleton k) (by simpa using hk)

@[simp] theorem get?_empty (k : κ) : (empty : OrderedArray κ α).get? k = none := rfl

/-- Setting a key changes the value of this key only. -/
@[simp] theorem get?_set (a : OrderedArray κ α) (k j : κ) (v : α) :
    (a.set k v).get? j = if j = k then some v else a.get? j :=
  lookup_setEntries k j v a.entries

/-- A new key comes last. -/
theorem entries_set_of_notMem {a : OrderedArray κ α} {k : κ} {v : α} (h : k ∉ a.keys) :
    (a.set k v).entries = a.entries ++ [(k, v)] := setEntries_of_notMem h

theorem keys_set_of_notMem {a : OrderedArray κ α} {k : κ} {v : α} (h : k ∉ a.keys) :
    (a.set k v).keys = a.keys ++ [k] := by
  rw [keys, entries_set_of_notMem h, List.map_append]
  rfl

theorem keys_set_of_mem {a : OrderedArray κ α} {k : κ} {v : α} (h : k ∈ a.keys) :
    (a.set k v).keys = a.keys := map_fst_setEntries_of_mem h

/-- Entries with new and distinct keys are listed in the order in which they were set. -/
theorem entries_foldl_set {xs : List (κ × α)} {a : OrderedArray κ α}
    (hnodup : (xs.map Prod.fst).Nodup) (hnew : ∀ x ∈ xs, x.1 ∉ a.keys) :
    (xs.foldl (fun a x => a.set x.1 x.2) a).entries = a.entries ++ xs := by
  induction xs generalizing a with
  | nil => simp
  | cons x xs ih =>
    rw [List.map_cons, List.nodup_cons] at hnodup
    have hx : x.1 ∉ a.keys := hnew x (by simp)
    have hrest : ∀ y ∈ xs, y.1 ∉ (a.set x.1 x.2).keys := by
      intro y hy
      rw [keys_set_of_notMem hx, List.mem_append, List.mem_singleton, not_or]
      refine ⟨hnew y (by simp [hy]), fun heq => ?_⟩
      exact hnodup.1 (heq ▸ List.mem_map_of_mem hy)
    rw [List.foldl_cons, ih hnodup.2 hrest, entries_set_of_notMem hx]
    simp

/-- The same for entries that are computed on the way, from the empty array. -/
theorem entries_foldl_set_map {ι : Type*} {f : ι → κ × α} {xs : List ι}
    (hnodup : ((xs.map f).map Prod.fst).Nodup) :
    (xs.foldl (fun a x => a.set (f x).1 (f x).2) empty).entries = xs.map f := by
  have hentries := entries_foldl_set (a := empty) hnodup fun x _ hx => by simp [keys, empty] at hx
  rw [List.foldl_map] at hentries
  exact hentries

theorem mem_setEntries {k : κ} {v : α} {e : κ × α} {es : List (κ × α)}
    (h : e ∈ setEntries k v es) : e = (k, v) ∨ e ∈ es := by
  induction es with
  | nil => exact Or.inl (List.mem_singleton.mp h)
  | cons d es ih =>
    rw [setEntries] at h
    split at h
    · exact (List.mem_cons.mp h).imp_right fun he => List.mem_cons_of_mem d he
    · rcases List.mem_cons.mp h with rfl | h
      · exact Or.inr List.mem_cons_self
      · exact (ih h).imp_right fun he => List.mem_cons_of_mem d he

/-- Every entry was there before or was set. -/
theorem mem_entries_foldl_set {xs : List (κ × α)} {a : OrderedArray κ α} {e : κ × α}
    (h : e ∈ (xs.foldl (fun a x => a.set x.1 x.2) a).entries) : e ∈ a.entries ∨ e ∈ xs := by
  induction xs generalizing a with
  | nil => exact Or.inl h
  | cons x xs ih =>
    rcases ih h with h | h
    · rcases mem_setEntries h with rfl | h
      · exact Or.inr List.mem_cons_self
      · exact Or.inl h
    · exact Or.inr (List.mem_cons_of_mem x h)

/-- A key has at most one value, that of its entry. -/
theorem get?_eq_some_iff {a : OrderedArray κ α} {k : κ} {v : α} :
    a.get? k = some v ↔ (k, v) ∈ a.entries := by
  obtain ⟨entries, hnodup⟩ := a
  rw [get?]
  induction entries with
  | nil => simp
  | cons e es ih =>
    rw [List.map_cons, List.nodup_cons] at hnodup
    rw [List.lookup_cons, List.mem_cons]
    by_cases he : k = e.1
    · subst he
      have hnot : (e.1, v) ∉ es := fun hmem =>
        hnodup.1 (List.mem_map.mpr ⟨(e.1, v), hmem, rfl⟩)
      simp [hnot, Prod.ext_iff, eq_comm]
    · have hbeq : (k == e.1) = false := by simpa using he
      simp only [hbeq, ih hnodup.2]
      simp [Prod.ext_iff, he]

/-- Each setting adds at most one entry, and all settings together add as many only when their keys
are new and distinct. -/
theorem length_entries_foldl_set (xs : List (κ × α)) (a : OrderedArray κ α) :
    (xs.foldl (fun a x => a.set x.1 x.2) a).entries.length ≤ a.entries.length + xs.length ∧
      ((xs.foldl (fun a x => a.set x.1 x.2) a).entries.length = a.entries.length + xs.length →
        (xs.map Prod.fst).Nodup ∧ ∀ x ∈ xs, x.1 ∉ a.keys) := by
  induction xs generalizing a with
  | nil => simp
  | cons x xs ih =>
    obtain ⟨hle, hnew⟩ := ih (a.set x.1 x.2)
    rw [List.foldl_cons, List.length_cons]
    by_cases hx : x.1 ∈ a.keys
    · have hlen : (a.set x.1 x.2).entries.length = a.entries.length := by
        have hkeys := congrArg List.length (keys_set_of_mem (v := x.2) hx)
        simpa [keys] using hkeys
      exact ⟨by omega, fun heq => by omega⟩
    · have hlen : (a.set x.1 x.2).entries.length = a.entries.length + 1 := by
        rw [entries_set_of_notMem hx, List.length_append, List.length_singleton]
      refine ⟨by omega, fun heq => ?_⟩
      obtain ⟨hnodup, hkeys⟩ := hnew (by omega)
      rw [keys_set_of_notMem hx] at hkeys
      simp only [List.mem_append, List.mem_singleton, not_or] at hkeys
      refine ⟨List.nodup_cons.mpr ⟨fun hmem => ?_, hnodup⟩, ?_⟩
      · obtain ⟨y, hy, heq⟩ := List.mem_map.mp hmem
        exact (hkeys y hy).2 heq
      · intro y hy
        rcases List.mem_cons.mp hy with rfl | hy
        · exact hx
        · exact (hkeys y hy).1

end OrderedArray

end Support
