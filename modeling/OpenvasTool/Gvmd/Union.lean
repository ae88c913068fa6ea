import OpenvasTool.Gvmd.Configs
import Mathlib.Data.Finset.Card

/-!
# The selection of a config made of several configs

What `select_config_nvts` answers for the rows of a selector, and for the rows of
several selectors put together. The new config never selects an NVT that no listed
config selects. It misses one when the family grows by the rows of one config and
another config excludes the NVT, or when the family no longer grows.
-/

namespace OpenvasTool.Gvmd

open Posix

/-! ### What rows select -/

/-- There is a row that includes everything. -/
def IncludesAll (rs : List NvtSelector) : Prop := ∃ r ∈ rs, r.type = .all ∧ r.exclude = false

/-- There is a row of this sense for the family as a whole. -/
def NamesFamily (rs : List NvtSelector) (exclude : Bool) (family : Text) : Prop :=
  ∃ r ∈ rs, r.type = .family ∧ r.exclude = exclude ∧ r.familyOrNvt = some family

/-- There is a row of this sense for the NVT. -/
def NamesNvt (rs : List NvtSelector) (exclude : Bool) (n : Nvt) : Prop :=
  ∃ r ∈ rs, r.type = .nvt ∧ r.exclude = exclude ∧ r.familyOrNvt = some n.oid

/-- The families that are included as a whole. -/
def wholeFamilies (rs : List NvtSelector) : List Text :=
  ((rs.filter fun r => r.type = .family ∧ r.exclude = false).filterMap
    NvtSelector.familyOrNvt).dedup

/-- The family grows: all of its NVTs are selected, except those that are excluded. -/
def GrowsIn (nvts : List Nvt) (rs : List NvtSelector) (family : Text) : Prop :=
  (IncludesAll rs ∧ (wholeFamilies rs).length < familyCount nvts ∧ ¬NamesFamily rs true family) ∨
    (¬IncludesAll rs ∧ NamesFamily rs false family)

instance (nvts : List Nvt) (rs : List NvtSelector) (family : Text) :
    Decidable (GrowsIn nvts rs family) :=
  inferInstanceAs (Decidable (((∃ r ∈ rs, r.type = .all ∧ r.exclude = false) ∧ _ ∧
    ¬(∃ r ∈ rs, r.type = .family ∧ r.exclude = true ∧ r.familyOrNvt = some family)) ∨
      (¬(∃ r ∈ rs, r.type = .all ∧ r.exclude = false) ∧
        ∃ r ∈ rs, r.type = .family ∧ r.exclude = false ∧ r.familyOrNvt = some family)))

/-- An NVT of the family is selected. -/
def Selects (nvts : List Nvt) (rs : List NvtSelector) (family : Text) (n : Nvt) : Prop :=
  (GrowsIn nvts rs family ∧ ¬NamesNvt rs true n) ∨
    (¬GrowsIn nvts rs family ∧ NamesNvt rs false n)

/-- A row for an NVT has the family of the NVT. -/
def RightFamilies (nvts : List Nvt) (rs : List NvtSelector) : Prop :=
  ∀ r ∈ rs, r.type = .nvt → ∀ n ∈ nvts, r.familyOrNvt = some n.oid → r.family = n.family

/-- No NVT is both included and excluded. -/
def Consistent (rs : List NvtSelector) : Prop := ∀ n, NamesNvt rs false n → ¬NamesNvt rs true n

section Queries

variable {nvts : List Nvt} {rows rs : List NvtSelector} {selector family : Text} {n : Nvt}

theorem mem_familyNvts : n ∈ familyNvts nvts family ↔ n ∈ nvts ∧ n.family = some family := by
  simp [familyNvts]

theorem mem_joined {named : List NvtSelector} : n ∈ joined nvts family named ↔
    n ∈ familyNvts nvts family ∧ ∃ r ∈ named, r.familyOrNvt = some n.oid := by
  unfold joined
  rw [List.mem_flatMap]
  constructor
  · rintro ⟨m, hm, hn⟩
    obtain ⟨r, hr, rfl⟩ := List.mem_map.mp hn
    obtain ⟨hr, hnamed⟩ := List.mem_filter.mp hr
    exact ⟨hm, r, hr, of_decide_eq_true hnamed⟩
  · rintro ⟨hn, r, hr, hnamed⟩
    exact ⟨n, hn, List.mem_map.mpr ⟨r, List.mem_filter.mpr ⟨hr, decide_eq_true hnamed⟩, rfl⟩⟩

/-- The rows of the selector. -/
theorem mem_rowsOf {type : SelectorType} {exclude : Bool} {r : NvtSelector}
    (hrs : rs = rows.filter fun r => r.name = selector) :
    r ∈ rowsOf rows selector type exclude ↔ r ∈ rs ∧ r.type = type ∧ r.exclude = exclude := by
  subst hrs
  simp [rowsOf, and_assoc]

theorem nvtSelectorFamiliesGrowing_iff (hrs : rs = rows.filter fun r => r.name = selector) :
    nvtSelectorFamiliesGrowing rows selector = true ↔ IncludesAll rs := by
  unfold nvtSelectorFamiliesGrowing IncludesAll
  rw [Bool.not_eq_true', List.isEmpty_eq_false_iff_exists_mem]
  exact exists_congr fun r => mem_rowsOf hrs

theorem familyRows_isEmpty_iff {exclude : Bool}
    (hrs : rs = rows.filter fun r => r.name = selector) :
    (familyRows rows selector exclude family).isEmpty = true ↔ ¬NamesFamily rs exclude family := by
  unfold familyRows NamesFamily
  rw [List.isEmpty_iff, List.filter_eq_nil_iff]
  constructor
  · rintro hnone ⟨r, hr, htype, hexclude, hfamily⟩
    exact hnone r ((mem_rowsOf hrs).mpr ⟨hr, htype, hexclude⟩) (decide_eq_true hfamily)
  · intro hnone r hr hfamily
    obtain ⟨hr, htype, hexclude⟩ := (mem_rowsOf hrs).mp hr
    exact hnone ⟨r, hr, htype, hexclude, of_decide_eq_true hfamily⟩

theorem includedFamilyCount_eq (hrs : rs = rows.filter fun r => r.name = selector) :
    includedFamilyCount rows selector = (wholeFamilies rs).length := by
  subst hrs
  have hrows : rowsOf rows selector .family false =
      (rows.filter fun r => r.name = selector).filter
        fun r => r.type = .family ∧ r.exclude = false := by
    unfold rowsOf
    rw [List.filter_filter]
    refine List.filter_congr fun r _ => ?_
    by_cases h : r.name = selector <;> simp [h]
  rw [includedFamilyCount, wholeFamilies, hrows]

/-- The join with the rows for NVTs of the family. -/
theorem mem_joined_nvtRows {exclude : Bool} (hrs : rs = rows.filter fun r => r.name = selector)
    (hright : RightFamilies nvts rs) :
    n ∈ joined nvts family (nvtRows rows selector exclude family) ↔
      n ∈ familyNvts nvts family ∧ NamesNvt rs exclude n := by
  rw [mem_joined]
  refine and_congr_right fun hn => ?_
  obtain ⟨hmem, hfamily⟩ := mem_familyNvts.mp hn
  constructor
  · rintro ⟨r, hr, hnamed⟩
    obtain ⟨hr, htype, hexclude⟩ := (mem_rowsOf hrs).mp (List.mem_of_mem_filter hr)
    exact ⟨r, hr, htype, hexclude, hnamed⟩
  · rintro ⟨r, hr, htype, hexclude, hnamed⟩
    refine ⟨r, List.mem_filter.mpr ⟨(mem_rowsOf hrs).mpr ⟨hr, htype, hexclude⟩, ?_⟩, hnamed⟩
    exact decide_eq_true ((hright r hr htype n hmem hnamed).trans hfamily)

/-- The join with all rows for NVTs. -/
theorem mem_joined_rowsOf {exclude : Bool} (hrs : rs = rows.filter fun r => r.name = selector) :
    n ∈ joined nvts family (rowsOf rows selector .nvt exclude) ↔
      n ∈ familyNvts nvts family ∧ NamesNvt rs exclude n := by
  rw [mem_joined]
  refine and_congr_right fun _ => exists_congr fun r => ?_
  rw [mem_rowsOf hrs]
  simp only [and_assoc]

theorem mem_allButExcluded (hrs : rs = rows.filter fun r => r.name = selector)
    (hright : RightFamilies nvts rs) :
    n ∈ allButExcluded nvts rows selector family ↔
      n ∈ familyNvts nvts family ∧ ¬NamesNvt rs true n := by
  unfold allButExcluded
  rw [List.mem_filter]
  refine and_congr_right fun hn => ?_
  rw [decide_eq_true_eq, mem_joined_nvtRows hrs hright, not_and]
  exact ⟨fun h => h hn, fun h _ => h⟩

/-- A selector that only has the row for everything excludes nothing. -/
theorem only_includesAll (hlen : rs.length = 1) (hall : IncludesAll rs) :
    (∀ family, ¬NamesFamily rs true family) ∧ ∀ n, ¬NamesNvt rs true n := by
  obtain ⟨r, rfl⟩ := List.length_eq_one_iff.mp hlen
  obtain ⟨r', hr', htype, -⟩ := hall
  obtain rfl := List.mem_singleton.mp hr'
  constructor
  · rintro family ⟨r, hr, hfamily, -⟩
    obtain rfl := List.mem_singleton.mp hr
    simp [htype] at hfamily
  · rintro n ⟨r, hr, hnvt, -⟩
    obtain rfl := List.mem_singleton.mp hr
    simp [htype] at hnvt

/-- The query of a config whose cached flags are those of its selector. -/
theorem selectNvts_cases (hrs : rs = rows.filter fun r => r.name = selector)
    {selected : List Nvt} (hselected : selected = selectNvts nvts rows selector
      (nvtSelectorNvtsGrowing2 nvts rows selector (nvtSelectorFamiliesGrowing rows selector))
      (nvtSelectorFamiliesGrowing rows selector) family) :
    (GrowsIn nvts rs family ∧ (selected = allButExcluded nvts rows selector family ∨
        selected = familyNvts nvts family ∧ ∀ n, ¬NamesNvt rs true n)) ∨
      (¬GrowsIn nvts rs family ∧
        (selected = joined nvts family (nvtRows rows selector false family) ∨
          selected = joined nvts family (rowsOf rows selector .nvt false))) := by
  subst hselected
  unfold selectNvts nvtSelectorNvtsGrowing2
  have hexcluded : (familyRows rows selector true family).isEmpty = true ↔
      ¬NamesFamily rs true family := familyRows_isEmpty_iff hrs
  have hincluded : (familyRows rows selector false family).isEmpty = true ↔
      ¬NamesFamily rs false family := familyRows_isEmpty_iff hrs
  by_cases hall : IncludesAll rs
  · rw [(nvtSelectorFamiliesGrowing_iff hrs).mpr hall, if_pos rfl, if_pos rfl,
      includedFamilyCount_eq hrs]
    by_cases hgrow : (wholeFamilies rs).length < familyCount nvts
    · have hpos : (0 : ℤ) < (familyCount nvts : ℤ) - ((wholeFamilies rs).length : ℤ) := by omega
      rw [if_pos (decide_eq_true hpos), ← hrs]
      have hgrows : GrowsIn nvts rs family ↔ ¬NamesFamily rs true family := by
        simp [GrowsIn, hall, hgrow]
      split
      · rename_i hlen
        obtain ⟨hfamily, hnvt⟩ := only_includesAll hlen hall
        exact Or.inl ⟨hgrows.mpr (hfamily family), Or.inr ⟨rfl, hnvt⟩⟩
      · split
        · rename_i hempty
          exact Or.inl ⟨hgrows.mpr (hexcluded.mp hempty), Or.inl rfl⟩
        · rename_i hempty
          exact Or.inr ⟨fun hin => hempty (hexcluded.mpr (hgrows.mp hin)), Or.inl rfl⟩
    · have hpos : ¬(0 : ℤ) < (familyCount nvts : ℤ) - ((wholeFamilies rs).length : ℤ) := by omega
      rw [if_neg (by simpa using hpos)]
      exact Or.inr ⟨by simp [GrowsIn, hall, hgrow], Or.inr rfl⟩
  · have hfalse : nvtSelectorFamiliesGrowing rows selector = false := by
      rw [← Bool.not_eq_true]
      exact mt (nvtSelectorFamiliesGrowing_iff hrs).mp hall
    have hgrows : GrowsIn nvts rs family ↔ NamesFamily rs false family := by
      simp [GrowsIn, hall]
    simp only [hfalse, Bool.false_eq_true, if_false]
    split
    · split
      · rename_i hempty
        exact Or.inr ⟨fun hin => hincluded.mp hempty (hgrows.mp hin), Or.inl rfl⟩
      · rename_i hempty
        exact Or.inl ⟨hgrows.mpr (not_not.mp (mt hincluded.mpr hempty)), Or.inl rfl⟩
    · rename_i hempty
      refine Or.inr ⟨fun hin => ?_, Or.inr rfl⟩
      obtain ⟨r, hr, htype, hexclude, -⟩ := hgrows.mp hin
      have hmem := (mem_rowsOf hrs).mpr ⟨hr, htype, hexclude⟩
      simp only [Bool.not_eq_true', Bool.not_eq_false, List.isEmpty_iff] at hempty
      simp [hempty] at hmem

theorem mem_selectNvts (hrs : rs = rows.filter fun r => r.name = selector)
    (hright : RightFamilies nvts rs) :
    n ∈ selectNvts nvts rows selector (nvtSelectorNvtsGrowing2 nvts rows selector
        (nvtSelectorFamiliesGrowing rows selector)) (nvtSelectorFamiliesGrowing rows selector) family ↔
      n ∈ familyNvts nvts family ∧ Selects nvts rs family n := by
  unfold Selects
  rcases selectNvts_cases hrs rfl with
    ⟨hgrow, heq | ⟨heq, hnone⟩⟩ | ⟨hgrow, heq | heq⟩
  · rw [heq, mem_allButExcluded hrs hright]
    simp [hgrow]
  · rw [heq]
    simp [hgrow, hnone]
  · rw [heq, mem_joined_nvtRows hrs hright]
    simp [hgrow]
  · rw [heq, mem_joined_rowsOf hrs]
    simp [hgrow]

/-- The join lists an NVT once for each row that names it. -/
theorem count_joined (hnodup : nvts.Nodup) (hn : n ∈ familyNvts nvts family)
    (named : List NvtSelector) : (joined nvts family named).count n =
      (named.filter fun r => r.familyOrNvt = some n.oid).length := by
  have hreplicate : ∀ l : List Nvt, (l.flatMap fun m =>
      (named.filter fun r => r.familyOrNvt = some m.oid).map fun _ => m).count n =
        l.count n * (named.filter fun r => r.familyOrNvt = some n.oid).length := by
    intro l
    induction l with
    | nil => simp
    | cons m l ih =>
      rw [List.flatMap_cons, List.count_append, ih, List.map_const', List.count_replicate,
        List.count_cons]
      by_cases hm : m = n
      · subst hm
        simp [Nat.add_mul, Nat.add_comm]
      · simp [hm]
  have hone : (familyNvts nvts family).count n = 1 :=
    List.count_eq_one_of_mem (hnodup.filter _) hn
  rw [joined, hreplicate, hone, one_mul]

/-- The rows that include the NVT. -/
def includeRows (rs : List NvtSelector) (n : Nvt) : List NvtSelector :=
  rs.filter fun r => r.type = .nvt ∧ r.exclude = false ∧ r.familyOrNvt = some n.oid

/-- In a family that grows an NVT is listed once, in others once for each row that includes it. -/
theorem count_selectNvts (hrs : rs = rows.filter fun r => r.name = selector)
    (hright : RightFamilies nvts rs) (hnodup : nvts.Nodup)
    {selected : List Nvt} (hselected : selected = selectNvts nvts rows selector
      (nvtSelectorNvtsGrowing2 nvts rows selector (nvtSelectorFamiliesGrowing rows selector))
      (nvtSelectorFamiliesGrowing rows selector) family) :
    (GrowsIn nvts rs family → selected.Nodup) ∧
      (¬GrowsIn nvts rs family → ∀ n ∈ familyNvts nvts family,
        selected.count n = (includeRows rs n).length) := by
  refine ⟨fun hin => ?_, fun hnot n hn => ?_⟩
  · rcases selectNvts_cases hrs hselected with ⟨-, rfl | ⟨rfl, -⟩⟩ | ⟨hgrow, -⟩
    · exact (hnodup.filter _).filter _
    · exact hnodup.filter _
    · exact absurd hin hgrow
  · rcases selectNvts_cases hrs hselected with ⟨hgrow, -⟩ | ⟨-, rfl | rfl⟩
    · exact absurd hgrow hnot
    · rw [count_joined hnodup hn, nvtRows, rowsOf, includeRows, hrs,
        List.filter_filter, List.filter_filter, List.filter_filter]
      refine congrArg List.length (List.filter_congr fun r hr => ?_)
      by_cases hname : r.name = selector
      · by_cases hnvt : r.type = .nvt
        · by_cases hnamed : r.familyOrNvt = some n.oid
          · have hfamily : r.family = some family :=
              (hright r (by rw [hrs]; simp [hr, hname]) hnvt n (mem_familyNvts.mp hn).1
                hnamed).trans (mem_familyNvts.mp hn).2
            simp [hname, hnvt, hnamed, hfamily]
          · simp [hnamed]
        · simp [hnvt]
      · simp [hname]
    · rw [count_joined hnodup hn, rowsOf, includeRows, hrs, List.filter_filter,
        List.filter_filter]
      refine congrArg List.length (List.filter_congr fun r _ => ?_)
      by_cases hname : r.name = selector
      · by_cases hnvt : r.type = .nvt
        · simp [hname, hnvt, Bool.and_comm]
        · simp [hnvt]
      · simp [hname]

/-! ### How many NVTs are counted -/

/-- Every row for an NVT names one that is there. -/
def KnownNvts (nvts : List Nvt) (rs : List NvtSelector) : Prop :=
  ∀ r ∈ rs, r.type = .nvt → ∃ n ∈ nvts, r.familyOrNvt = some n.oid

/-- The rows that exclude an NVT of the family. -/
def excludeRows (rs : List NvtSelector) (family : Text) : List NvtSelector :=
  rs.filter fun r => r.type = .nvt ∧ r.exclude = true ∧ r.family = some family

/-- How many rows exclude an NVT of the family that an earlier row excludes. -/
def repeatedExcludes (rs : List NvtSelector) (family : Text) : ℕ :=
  (excludeRows rs family).length -
    ((excludeRows rs family).map NvtSelector.familyOrNvt).dedup.length

/-- The join has one NVT for each row that names one of them. -/
theorem length_joined (hoids : (nvts.map Nvt.oid).Nodup) (named : List NvtSelector) :
    (joined nvts family named).length =
      named.countP fun r => r.familyOrNvt ∈ (familyNvts nvts family).map fun n => some n.oid := by
  have hlist : ∀ l : List Nvt, (l.map Nvt.oid).Nodup → (l.flatMap fun m =>
      (named.filter fun r => r.familyOrNvt = some m.oid).map fun _ => m).length =
        named.countP fun r => r.familyOrNvt ∈ l.map fun n => some n.oid := by
    intro l hl
    induction l with
    | nil => simp
    | cons m l ih =>
      rw [List.map_cons, List.nodup_cons] at hl
      have hsplit : ∀ named : List NvtSelector,
          (named.countP fun r => r.familyOrNvt ∈ (m :: l).map fun n => some n.oid) =
            (named.filter fun r => r.familyOrNvt = some m.oid).length +
              named.countP fun r => r.familyOrNvt ∈ l.map fun n => some n.oid := by
        intro named
        induction named with
        | nil => rfl
        | cons r named ih =>
          rw [List.countP_cons, ih, List.countP_cons, List.filter_cons]
          by_cases hm : r.familyOrNvt = some m.oid
          · have hnot : r.familyOrNvt ∉ l.map fun n => some n.oid := by
              rw [hm]
              intro hmem
              obtain ⟨n, hn, heq⟩ := List.mem_map.mp hmem
              exact hl.1 (List.mem_map.mpr ⟨n, hn, Option.some.inj heq⟩)
            simp only [List.map_cons, List.mem_cons, hm, true_or, decide_true, if_true,
              List.length_cons]
            rw [← hm, if_neg (by simpa using hnot)]
            omega
          · simp only [List.map_cons, List.mem_cons, hm, false_or, decide_false, if_false,
              Bool.false_eq_true]
            omega
      rw [List.flatMap_cons, List.length_append, List.length_map, ih hl.2, hsplit]
  exact hlist _ (hoids.sublist (List.filter_sublist.map _))

/-- The rows for NVTs of the family, as the selector has them. -/
theorem nvtRows_eq {exclude : Bool} (hrs : rs = rows.filter fun r => r.name = selector) :
    nvtRows rows selector exclude family =
      rs.filter fun r => r.type = .nvt ∧ r.exclude = exclude ∧ r.family = some family := by
  subst hrs
  rw [nvtRows, rowsOf, List.filter_filter, List.filter_filter]
  refine List.filter_congr fun r _ => ?_
  by_cases hname : r.name = selector
  · by_cases hfamily : r.family = some family <;> simp [hname, hfamily]
  · simp [hname]

/-- A row for an NVT has the family exactly when it names an NVT of the family. -/
theorem names_familyNvts_iff (hright : RightFamilies nvts rs) (hknown : KnownNvts nvts rs)
    {r : NvtSelector} (hr : r ∈ rs) (htype : r.type = .nvt) :
    (r.familyOrNvt ∈ (familyNvts nvts family).map fun n => some n.oid) ↔
      r.family = some family := by
  constructor
  · intro hmem
    obtain ⟨n, hn, hnamed⟩ := List.mem_map.mp hmem
    obtain ⟨hn, hfamily⟩ := mem_familyNvts.mp hn
    exact (hright r hr htype n hn hnamed.symm).trans hfamily
  · intro hfamily
    obtain ⟨n, hn, hnamed⟩ := hknown r hr htype
    have hof : n ∈ familyNvts nvts family :=
      mem_familyNvts.mpr ⟨hn, (hright r hr htype n hn hnamed).symm.trans hfamily⟩
    exact List.mem_map.mpr ⟨n, hof, hnamed.symm⟩

/-- The NVTs that the rows exclude are counted once each. -/
theorem length_allButExcluded (hrs : rs = rows.filter fun r => r.name = selector)
    (hright : RightFamilies nvts rs) (hknown : KnownNvts nvts rs)
    (hoids : (nvts.map Nvt.oid).Nodup) :
    (allButExcluded nvts rows selector family).length +
        ((excludeRows rs family).map NvtSelector.familyOrNvt).dedup.length =
      (familyNvts nvts family).length := by
  have hexcluded : ((familyNvts nvts family).filter fun n =>
      n ∈ joined nvts family (nvtRows rows selector true family)).length =
        ((excludeRows rs family).map NvtSelector.familyOrNvt).dedup.length := by
    rw [← List.length_map fun n : Nvt => some n.oid]
    refine List.Perm.length_eq ((List.perm_ext_iff_of_nodup ?_ (List.nodup_dedup _)).mpr fun o => ?_)
    · have hsub : ((familyNvts nvts family).filter fun n =>
          n ∈ joined nvts family (nvtRows rows selector true family)).Sublist nvts :=
        List.filter_sublist.trans List.filter_sublist
      have hnodup := (hoids.sublist (hsub.map Nvt.oid)).map (Option.some_injective Text)
      rwa [List.map_map] at hnodup
    · rw [List.mem_dedup, List.mem_map, List.mem_map]
      constructor
      · rintro ⟨n, hn, rfl⟩
        obtain ⟨-, hn⟩ := List.mem_filter.mp hn
        obtain ⟨hn, r, hr, hnamed⟩ := mem_joined.mp (of_decide_eq_true hn)
        rw [nvtRows_eq hrs] at hr
        exact ⟨r, hr, hnamed⟩
      · rintro ⟨r, hr, rfl⟩
        obtain ⟨hmem, hkind⟩ := List.mem_filter.mp hr
        obtain ⟨htype, -, hfamily⟩ := of_decide_eq_true hkind
        obtain ⟨n, hn, hnamed⟩ := List.mem_map.mp
          ((names_familyNvts_iff hright hknown hmem htype).mpr hfamily)
        refine ⟨n, List.mem_filter.mpr ⟨hn, decide_eq_true ?_⟩, hnamed⟩
        exact mem_joined.mpr ⟨hn, r, (nvtRows_eq hrs).symm ▸ hr, hnamed.symm⟩
  have hsplit := List.length_eq_length_filter_add (l := familyNvts nvts family)
    fun n => decide (n ∈ joined nvts family (nvtRows rows selector true family))
  rw [hexcluded] at hsplit
  unfold allButExcluded
  simp only [decide_not]
  omega

/-- What `nvt_selector_nvt_count` counts in a family and what the query lists there: an NVT that
several rows exclude is subtracted once for each of them. -/
theorem nvtSelectorNvtCountIn_eq (hrs : rs = rows.filter fun r => r.name = selector)
    (hright : RightFamilies nvts rs) (hknown : KnownNvts nvts rs)
    (hoids : (nvts.map Nvt.oid).Nodup)
    (hlt : IncludesAll rs → (wholeFamilies rs).length < familyCount nvts)
    {selected : List Nvt} (hselected : selected = selectNvts nvts rows selector
      (nvtSelectorNvtsGrowing2 nvts rows selector (nvtSelectorFamiliesGrowing rows selector))
      (nvtSelectorFamiliesGrowing rows selector) family) :
    nvtSelectorNvtCountIn nvts rows selector family (nvtSelectorFamilyGrowing rows selector family
        (nvtSelectorFamiliesGrowing rows selector)) =
      selected.length -
        if GrowsIn nvts rs family then (repeatedExcludes rs family : ℤ) else 0 := by
  have hgrows : nvtSelectorFamilyGrowing rows selector family
      (nvtSelectorFamiliesGrowing rows selector) = true ↔ GrowsIn nvts rs family := by
    unfold nvtSelectorFamilyGrowing GrowsIn
    by_cases hall : IncludesAll rs
    · rw [(nvtSelectorFamiliesGrowing_iff hrs).mpr hall, if_pos rfl, familyRows_isEmpty_iff hrs]
      simp [hall, hlt hall]
    · rw [if_neg (mt (nvtSelectorFamiliesGrowing_iff hrs).mp hall), Bool.not_eq_true',
        ← Bool.not_eq_true, familyRows_isEmpty_iff hrs]
      simp [hall]
  have hdedup : ((excludeRows rs family).map NvtSelector.familyOrNvt).dedup.length ≤
      (excludeRows rs family).length := by
    have hle := (List.dedup_sublist ((excludeRows rs family).map NvtSelector.familyOrNvt)).length_le
    rwa [List.length_map] at hle
  have hlength : (allButExcluded nvts rows selector family).length +
      ((excludeRows rs family).map NvtSelector.familyOrNvt).dedup.length =
        (familyNvts nvts family).length := length_allButExcluded hrs hright hknown hoids
  have hrows : (nvtRows rows selector true family).length = (excludeRows rs family).length :=
    congrArg List.length (nvtRows_eq hrs)
  unfold nvtSelectorNvtCountIn
  rcases selectNvts_cases hrs hselected with ⟨hgrow, hcase⟩ | ⟨hgrow, hcase⟩
  · rw [if_pos (hgrows.mpr hgrow), if_pos hgrow, hrows]
    unfold repeatedExcludes
    rcases hcase with rfl | ⟨rfl, hnone⟩
    · omega
    · have hnil : excludeRows rs family = [] := by
        refine List.filter_eq_nil_iff.mpr fun r hr hkind => ?_
        obtain ⟨htype, hexclude, -⟩ := of_decide_eq_true hkind
        obtain ⟨n, -, hnamed⟩ := hknown r hr htype
        exact hnone n ⟨r, hr, htype, hexclude, hnamed⟩
      simp [hnil]
  · rw [if_neg (mt hgrows.mp hgrow), if_neg hgrow, sub_zero]
    rcases hcase with rfl | rfl
    · rw [length_joined hoids, List.countP_eq_length.mpr]
      intro r hr
      rw [nvtRows_eq hrs] at hr
      obtain ⟨hmem, hkind⟩ := List.mem_filter.mp hr
      obtain ⟨htype, -, hfamily⟩ := of_decide_eq_true hkind
      exact decide_eq_true ((names_familyNvts_iff hright hknown hmem htype).mpr hfamily)
    · rw [length_joined hoids, nvtRows, ← List.countP_eq_length_filter]
      refine congrArg Nat.cast (List.countP_congr fun r hr => ?_)
      obtain ⟨hmem, htype, -⟩ := (mem_rowsOf hrs).mp hr
      rw [decide_eq_true_eq, decide_eq_true_eq, names_familyNvts_iff hright hknown hmem htype]

end Queries

/-! ### Rows put together -/

section Parts

variable {nvts : List Nvt} {parts : List (List NvtSelector)} {family : Text} {n : Nvt}

/-- A row of the parts together is a row of one of them. -/
theorem exists_mem_flatten {P : NvtSelector → Prop} :
    (∃ r ∈ parts.flatten, P r) ↔ ∃ rs ∈ parts, ∃ r ∈ rs, P r := by
  simp only [List.mem_flatten]
  constructor
  · rintro ⟨r, ⟨rs, hrs, hr⟩, h⟩
    exact ⟨rs, hrs, r, hr, h⟩
  · rintro ⟨rs, hrs, r, hr, h⟩
    exact ⟨r, ⟨rs, hrs, hr⟩, h⟩

theorem includesAll_flatten : IncludesAll parts.flatten ↔ ∃ rs ∈ parts, IncludesAll rs :=
  exists_mem_flatten

theorem namesFamily_flatten {exclude : Bool} :
    NamesFamily parts.flatten exclude family ↔ ∃ rs ∈ parts, NamesFamily rs exclude family :=
  exists_mem_flatten

theorem namesNvt_flatten {exclude : Bool} :
    NamesNvt parts.flatten exclude n ↔ ∃ rs ∈ parts, NamesNvt rs exclude n :=
  exists_mem_flatten

/-- More rows include more families. -/
theorem length_wholeFamilies_le {rs : List NvtSelector} (hrs : rs ∈ parts) :
    (wholeFamilies rs).length ≤ (wholeFamilies parts.flatten).length := by
  unfold wholeFamilies
  rw [← List.card_toFinset, ← List.card_toFinset]
  refine Finset.card_le_card fun f hf => ?_
  rw [List.mem_toFinset, List.mem_filterMap] at hf ⊢
  obtain ⟨r, hr, hfamily⟩ := hf
  obtain ⟨hr, hkind⟩ := List.mem_filter.mp hr
  exact ⟨r, List.mem_filter.mpr ⟨List.mem_flatten.mpr ⟨rs, hrs, hr⟩, hkind⟩, hfamily⟩

/-- An NVT that a row includes is selected. -/
theorem selects_of_included {rs : List NvtSelector} (hcons : Consistent rs)
    (hn : NamesNvt rs false n) : Selects nvts rs family n := by
  by_cases hgrow : GrowsIn nvts rs family
  · exact Or.inl ⟨hgrow, hcons n hn⟩
  · exact Or.inr ⟨hgrow, hn⟩

/-- **Nothing is added**: what all rows together select, the rows of one part select. -/
theorem selects_part (hcons : ∀ rs ∈ parts, Consistent rs)
    (h : Selects nvts parts.flatten family n) : ∃ rs ∈ parts, Selects nvts rs family n := by
  rcases h with ⟨hgrow, hnot⟩ | ⟨-, hincluded⟩
  · have hpart : ∀ rs ∈ parts, ¬NamesNvt rs true n := fun rs hrs hname =>
      hnot (namesNvt_flatten.mpr ⟨rs, hrs, hname⟩)
    rcases hgrow with ⟨hall, hlt, hfamily⟩ | ⟨hall, hfamily⟩
    · -- the family grows in the part that includes everything
      obtain ⟨rs, hrs, hincludes⟩ := includesAll_flatten.mp hall
      refine ⟨rs, hrs, Or.inl ⟨Or.inl ⟨hincludes, ?_, fun hname => ?_⟩, hpart rs hrs⟩⟩
      · exact (length_wholeFamilies_le hrs).trans_lt hlt
      · exact hfamily (namesFamily_flatten.mpr ⟨rs, hrs, hname⟩)
    · obtain ⟨rs, hrs, hname⟩ := namesFamily_flatten.mp hfamily
      refine ⟨rs, hrs, Or.inl ⟨Or.inr ⟨fun hincludes => ?_, hname⟩, hpart rs hrs⟩⟩
      exact hall (includesAll_flatten.mpr ⟨rs, hrs, hincludes⟩)
  · obtain ⟨rs, hrs, hname⟩ := namesNvt_flatten.mp hincluded
    exact ⟨rs, hrs, selects_of_included (hcons rs hrs) hname⟩

end Parts

/-! The new name of a copied row does not matter. -/

section Renamed

variable {nvts : List Nvt} {rs : List NvtSelector} {name : Text}

theorem includesAll_renamed :
    IncludesAll (rs.map fun r => { r with name := name }) ↔ IncludesAll rs := by
  simp [IncludesAll]

theorem wholeFamilies_renamed :
    wholeFamilies (rs.map fun r => { r with name := name }) = wholeFamilies rs := by
  unfold wholeFamilies
  rw [List.filter_map, List.filterMap_map]
  rfl

theorem growsIn_renamed {family : Text} :
    GrowsIn nvts (rs.map fun r => { r with name := name }) family ↔ GrowsIn nvts rs family := by
  have hfamily (exclude : Bool) : NamesFamily (rs.map fun r => { r with name := name }) exclude
      family ↔ NamesFamily rs exclude family := by
    simp [NamesFamily]
  unfold GrowsIn
  rw [includesAll_renamed, hfamily, hfamily, wholeFamilies_renamed]

theorem namesNvt_renamed {exclude : Bool} {n : Nvt} :
    NamesNvt (rs.map fun r => { r with name := name }) exclude n ↔ NamesNvt rs exclude n := by
  simp [NamesNvt]

theorem rightFamilies_renamed :
    RightFamilies nvts (rs.map fun r => { r with name := name }) ↔ RightFamilies nvts rs := by
  simp [RightFamilies]

theorem knownNvts_renamed :
    KnownNvts nvts (rs.map fun r => { r with name := name }) ↔ KnownNvts nvts rs := by
  simp [KnownNvts]

theorem length_includeRows_renamed {n : Nvt} :
    (includeRows (rs.map fun r => { r with name := name }) n).length = (includeRows rs n).length := by
  rw [includeRows, List.filter_map, List.length_map]
  rfl

theorem repeatedExcludes_renamed {family : Text} :
    repeatedExcludes (rs.map fun r => { r with name := name }) family =
      repeatedExcludes rs family := by
  have hrows : excludeRows (rs.map fun r => { r with name := name }) family =
      (excludeRows rs family).map fun r => { r with name := name } := by
    rw [excludeRows, List.filter_map]
    rfl
  have hnamed : (excludeRows (rs.map fun r => { r with name := name }) family).map
      NvtSelector.familyOrNvt = (excludeRows rs family).map NvtSelector.familyOrNvt := by
    rw [hrows, List.map_map]
    rfl
  rw [repeatedExcludes, hnamed, hrows, List.length_map]
  rfl

end Renamed

/-! ### The tables after a call -/

namespace Database

variable (db : Database)

/-- The query of `select_config_nvts`; a config always has a selector. -/
def selectConfigNvts (config : ℕ) (family : Text) : List Nvt :=
  match db.configs.find? fun c => c.id = config with
  | none => []
  | some c =>
      match c.nvtSelector with
      | none => []
      | some selector =>
          selectNvts db.nvts db.nvtSelectors selector (c.nvtsGrowing.getD false)
            (c.familiesGrowing.getD false) family

/-- The cached flags of a config are those of its selector. -/
structure Cached (c : Config) (selector : Text) : Prop where
  nvtSelector : c.nvtSelector = some selector
  familiesGrowing : c.familiesGrowing = some (nvtSelectorFamiliesGrowing db.nvtSelectors selector)
  nvtsGrowing : c.nvtsGrowing = some (nvtSelectorNvtsGrowing2 db.nvts db.nvtSelectors selector
    (nvtSelectorFamiliesGrowing db.nvtSelectors selector))

/-- A config that can be listed: a classic one, of which the cached flags are right, and the rows
for NVTs have the families of the NVTs and do not contradict each other. -/
structure Classic (uuid : Text) : Prop where
  cached : ∀ c, db.configOf uuid = some c → ∃ selector, db.Cached c selector
  families : RightFamilies db.nvts (db.selectorsOf uuid)
  consistent : Consistent (db.selectorsOf uuid)

variable {db}

theorem find?_id {c : Config} (hc : c ∈ db.configs) :
    (db.configs.find? fun c' => c'.id = c.id) = some c := by
  cases hfind : db.configs.find? fun c' => c'.id = c.id with
  | none => simpa using List.find?_eq_none.mp hfind c hc
  | some c' =>
    have hid : c'.id = c.id := by simpa using List.find?_some hfind
    rw [List.inj_on_of_nodup_map db.config_ids (List.mem_of_find?_eq_some hfind) hc hid]

/-- What a config selects, by the rows of its selector. -/
theorem mem_selectConfigNvts {c : Config} {selector family : Text} {n : Nvt}
    {rs : List NvtSelector} (hc : c ∈ db.configs) (hcached : db.Cached c selector)
    (hrs : rs = db.nvtSelectors.filter fun r => r.name = selector)
    (hright : RightFamilies db.nvts rs) :
    n ∈ db.selectConfigNvts c.id family ↔
      n ∈ familyNvts db.nvts family ∧ Selects db.nvts rs family n := by
  rw [← mem_selectNvts hrs hright, selectConfigNvts, find?_id hc]
  simp only [hcached.nvtSelector, hcached.familiesGrowing, hcached.nvtsGrowing, Option.getD_some]

/-- A listed config selects by its rows. -/
theorem mem_selectConfigNvts_classic {uuid family : Text} (h : db.Classic uuid) {c : Config}
    (hof : db.configOf uuid = some c) {n : Nvt} :
    n ∈ db.selectConfigNvts c.id family ↔
      n ∈ familyNvts db.nvts family ∧ Selects db.nvts (db.selectorsOf uuid) family n := by
  obtain ⟨selector, hcached⟩ := h.cached c hof
  refine mem_selectConfigNvts (List.mem_of_find?_eq_some hof) hcached ?_ h.families
  unfold selectorsOf
  refine List.filter_congr fun r _ => ?_
  rw [hof, Option.bind_some, hcached.nvtSelector]
  simp [eq_comm]

end Database

section Copy

variable {session : Session} {db db' : Database} {newId : ℕ} {selectorUuid : Text}

/-- The loop appends the selector rows of the listed configs under the new name. -/
theorem foldlM_copyConfigRows_selectors {uuids : List Text}
    (hnew : ∀ uuid ∈ uuids, (db.configOf uuid).bind Config.nvtSelector ≠ some selectorUuid)
    (h : uuids.foldlM (copyConfigRows newId selectorUuid) db = some db') :
    db'.nvtSelectors = db.nvtSelectors ++
      (uuids.flatMap db.selectorsOf).map fun r => { r with name := selectorUuid } := by
  induction uuids generalizing db with
  | nil =>
    obtain rfl := Option.some.inj h
    simp
  | cons uuid uuids ih =>
    rw [List.foldlM_cons] at h
    obtain ⟨mid, hround, hrest⟩ := Option.bind_eq_some_iff.mp h
    obtain ⟨-, -, hconfigs, hselectors, -⟩ := copyConfigRows_eq_some hround
    have hconfigOf (u : Text) : mid.configOf u = db.configOf u := by
      unfold Database.configOf
      rw [hconfigs]
    have hof : ∀ u ∈ uuids, mid.selectorsOf u = db.selectorsOf u := by
      intro u hu
      unfold Database.selectorsOf
      rw [hselectors, List.filter_append, hconfigOf, List.append_right_eq_self,
        List.filter_eq_nil_iff]
      intro r hr
      obtain ⟨r', -, rfl⟩ := List.mem_map.mp hr
      simpa using hnew u (List.mem_cons_of_mem _ hu)
    rw [ih (fun u hu => hconfigOf u ▸ hnew u (List.mem_cons_of_mem _ hu)) hrest, hselectors,
      List.flatMap_congr hof, List.flatMap_cons, List.map_append, List.append_assoc]

/-- The caches of a classic config that belongs to the user are refreshed. -/
theorem updateConfigCaches_new {row : Config} {selector : Text}
    (hrow : (db.configs.filter fun c => decide (c.id = newId) && session.owns db c.owner) = [row])
    (htype : row.type = 0) (hselector : row.nvtSelector = some selector)
    (h : updateConfigCaches session newId db = some db') :
    ∃ c ∈ db'.configs, c.id = row.id ∧ db'.Cached c selector ∧
      c.nvtCount = some (nvtSelectorNvtCount db'.nvts db'.nvtSelectors selector
        (nvtSelectorFamiliesGrowing db'.nvtSelectors selector)) := by
  unfold updateConfigCaches at h
  rw [hrow, List.foldlM_cons] at h
  obtain ⟨mid, hround, hrest⟩ := Option.bind_eq_some_iff.mp h
  obtain rfl : mid = db' := Option.some.inj hrest
  unfold updateConfigCache at hround
  rw [if_neg (by simp [htype]), hselector, Option.map_some] at hround
  obtain rfl := Option.some.inj hround
  have hmem : row ∈ db.configs := List.mem_of_mem_filter (hrow ▸ List.mem_singleton_self row)
  refine ⟨_, List.mem_map_of_mem hmem, ?_, ?_, ?_⟩
  · rw [if_pos rfl]
  · rw [if_pos rfl]
    exact ⟨hselector, rfl, rfl⟩
  · rw [if_pos rfl]
    rfl

end Copy

/-- The selector rows of the listed configs. -/
def Database.listedRows (db : Database) (uuids : List Text) : List NvtSelector :=
  uuids.flatMap db.selectorsOf

/-- The new config after a call that returns 0. -/
theorem multiCopyConfig_selectors {session : Session} {configUuid selectorUuid : Option Text}
    {name comment usageType multiConfigId : Option Text} {db db' : Database} {new : ℕ}
    (huser : (db.userId session.uuid).isSome)
    (hfresh : ∀ selector, selectorUuid = some selector →
      (∀ r ∈ db.nvtSelectors, r.name ≠ selector) ∧
      ∀ c ∈ db.configs, c.nvtSelector ≠ some selector)
    (h : multiCopyConfig session configUuid selectorUuid name comment usageType multiConfigId db =
      some (.ok new, db')) :
    db'.nvts = db.nvts ∧ ∃ c ∈ db'.configs, c.id = new ∧ ∃ selector, db'.Cached c selector ∧
      c.nvtCount = some (nvtSelectorNvtCount db'.nvts db'.nvtSelectors selector
        (nvtSelectorFamiliesGrowing db'.nvtSelectors selector)) ∧
      (db'.nvtSelectors.filter fun r => r.name = selector) =
        (db.listedRows (gStrsplit (multiConfigId.getD []))).map
          fun r => { r with name := selector } := by
  obtain ⟨_, selector, row, inserted, copied, -, rfl, -, howner, hselector, htype, hnew, hvalid,
    hinsert, hcopy, hcache⟩ := multiCopyConfig_ok h
  obtain ⟨hnoRow, hnoConfig⟩ := hfresh selector rfl
  have hlisted := validateMultiConfigParam_listed hvalid
  obtain ⟨-, husers, hnvts, hselectors, -, hconfigs⟩ := Database.insertConfig_eq_some hinsert
  obtain ⟨husers', hnvts', hconfigs'⟩ := foldlM_copyConfigRows_frame hcopy
  obtain ⟨-, hnvts'', hselectors'', -⟩ := updateConfigCaches_frame hcache
  have hof : ∀ uuid ∈ gStrsplit (multiConfigId.getD []),
      inserted.configOf uuid = db.configOf uuid ∧
        inserted.selectorsOf uuid = db.selectorsOf uuid := by
    intro uuid huuid
    obtain ⟨c, -, -, hc⟩ := hlisted uuid huuid
    have hfound := (Database.configOf_insertConfig hinsert hc).1
    unfold Database.selectorsOf
    rw [hselectors, hfound, hc]
    exact ⟨rfl, rfl⟩
  have hrows := foldlM_copyConfigRows_selectors (fun uuid huuid => by
    obtain ⟨c, hmem, -, hc⟩ := hlisted uuid huuid
    rw [(hof uuid huuid).1, hc]
    exact hnoConfig c hmem) hcopy
  rw [hselectors, List.flatMap_congr fun uuid huuid => (hof uuid huuid).2] at hrows
  -- of the configs only the new one has its id, and it belongs to the user
  have hold : ∀ c ∈ db.configs, c.id ≠ new := fun c hc => hnew ▸ (db.config_id_lt c hc).ne
  have hrow : (copied.configs.filter fun c =>
      decide (c.id = new) && session.owns copied c.owner) = [{ row with id := new }] := by
    rw [hconfigs', hconfigs, ← hnew, List.filter_append,
      List.filter_eq_nil_iff.mpr (by
        intro c hc
        simp [hold c hc]), List.nil_append]
    have howns : session.owns copied row.owner = true := by
      have huserId : copied.userId session.uuid = db.userId session.uuid := by
        unfold Database.userId
        rw [husers', husers]
      simp [Session.owns, huserId, howner, huser]
    simp [howns]
  obtain ⟨c, hc, hid, hcached, hcount⟩ := updateConfigCaches_new hrow htype hselector hcache
  refine ⟨hnvts''.trans (hnvts'.trans hnvts), c, hc, hid, selector, hcached, hcount, ?_⟩
  rw [hselectors'', hrows, List.filter_append, List.filter_eq_nil_iff.mpr (by
    intro r hr
    simpa using hnoRow r hr), List.nil_append]
  refine List.filter_eq_self.mpr fun r hr => ?_
  obtain ⟨r', -, rfl⟩ := List.mem_map.mp hr
  simp

/-! ### The union -/

/-- The rows of the other listed configs keep the NVT out: the family grows and a row excludes the
NVT, or the family does not grow and no row includes it. -/
def Overridden (nvts : List Nvt) (rs : List NvtSelector) (family : Text) (n : Nvt) : Prop :=
  (GrowsIn nvts rs family ∧ NamesNvt rs true n) ∨
    (¬GrowsIn nvts rs family ∧ ¬NamesNvt rs false n)

theorem not_selects_iff {nvts : List Nvt} {rs : List NvtSelector} {family : Text} {n : Nvt} :
    ¬Selects nvts rs family n ↔ Overridden nvts rs family n := by
  unfold Selects Overridden
  tauto

/-- One of the listed configs selects the NVT. -/
def Database.ListedSelects (db : Database) (uuids : List Text) (family : Text) (n : Nvt) : Prop :=
  ∃ uuid ∈ uuids, ∃ c, db.configOf uuid = some c ∧ n ∈ db.selectConfigNvts c.id family

/-! Two groups: one includes an NVT, the other its family except for this NVT. -/

section Sample

def ftpFamily : Text := "FTP".toList
def anonymousNvt : Nvt := ⟨"1.3.6.1.4.1.25623.1.0.900600".toList, some ftpFamily⟩
def bannerNvt : Nvt := ⟨"1.3.6.1.4.1.25623.1.0.10092".toList, some ftpFamily⟩

def sampleGroups : Database where
  users := [⟨1, "admin".toList⟩]
  nvts := [anonymousNvt, bannerNvt]
  nvtSelectors :=
    [⟨baseUuid, false, .nvt, some anonymousNvt.oid, some ftpFamily⟩,
      ⟨fullUuid, false, .family, some ftpFamily, some ftpFamily⟩,
      ⟨fullUuid, true, .nvt, some anonymousNvt.oid, some ftpFamily⟩]
  configs :=
    [sampleConfig 1 baseUuid "Base".toList,
      { sampleConfig 2 fullUuid "Full and fast".toList with nvtsGrowing := some true }]
  configPreferences := []
  nextConfig := 3
  nvt_oids := by decide +kernel
  config_ids := by decide
  config_uuids := by decide +kernel
  config_id_lt := by decide
  preference_configs := by decide

/-- The answer of a call on the sample groups. -/
def sampleUnion (uuids : Text) : Option (Except ℤ ℕ × Database) :=
  multiCopyConfig superSession (some mergedUuid) (some mergedSelector) (some "Both".toList) none
    (some "scan".toList) (some uuids) sampleGroups

theorem sampleGroups_fresh (selector : Text) (h : some mergedSelector = some selector) :
    (∀ r ∈ sampleGroups.nvtSelectors, r.name ≠ selector) ∧
      ∀ c ∈ sampleGroups.configs, c.nvtSelector ≠ some selector := by
  obtain rfl := Option.some.inj h
  decide +kernel

theorem sampleGroups_base : sampleGroups.Classic baseUuid where
  cached := by
    intro c hc
    have hof : sampleGroups.configOf baseUuid = some (sampleConfig 1 baseUuid "Base".toList) := by
      decide +kernel
    obtain rfl := Option.some.inj (hof.symm.trans hc)
    exact ⟨baseUuid, rfl, by decide +kernel, by decide +kernel⟩
  families := by
    unfold RightFamilies
    decide +kernel
  consistent := by
    have hrows : ∀ r ∈ sampleGroups.selectorsOf baseUuid, r.exclude = false := by decide +kernel
    rintro n - ⟨r, hr, -, hexclude, -⟩
    rw [hrows r hr] at hexclude
    cases hexclude

theorem sampleGroups_full : sampleGroups.Classic fullUuid where
  cached := by
    intro c hc
    have hof : sampleGroups.configOf fullUuid =
        some { sampleConfig 2 fullUuid "Full and fast".toList with nvtsGrowing := some true } := by
      decide +kernel
    obtain rfl := Option.some.inj (hof.symm.trans hc)
    exact ⟨fullUuid, rfl, by decide +kernel, by decide +kernel⟩
  families := by
    unfold RightFamilies
    decide +kernel
  consistent := by
    have hrows : ∀ r ∈ sampleGroups.selectorsOf fullUuid, r.type = .nvt → r.exclude = true := by
      decide +kernel
    rintro n ⟨r, hr, htype, hexclude, -⟩ -
    rw [hrows r hr htype] at hexclude
    cases hexclude

end Sample

/-- **The new config selects nothing that no listed config selects**, and of what they select it
misses exactly what the rows of the listed configs override. -/
theorem multiCopyConfig_union {session : Session} {configUuid selectorUuid : Option Text}
    {name comment usageType multiConfigId : Option Text} {db db' : Database} {new : ℕ}
    (huser : (db.userId session.uuid).isSome)
    (hfresh : ∀ selector, selectorUuid = some selector →
      (∀ r ∈ db.nvtSelectors, r.name ≠ selector) ∧
      ∀ c ∈ db.configs, c.nvtSelector ≠ some selector)
    (hclassic : ∀ uuid ∈ gStrsplit (multiConfigId.getD []), db.Classic uuid)
    (h : multiCopyConfig session configUuid selectorUuid name comment usageType multiConfigId db =
      some (.ok new, db')) (family : Text) (n : Nvt) :
    n ∈ db'.selectConfigNvts new family ↔
      db.ListedSelects (gStrsplit (multiConfigId.getD [])) family n ∧
        ¬Overridden db.nvts (db.listedRows (gStrsplit (multiConfigId.getD []))) family n := by
  obtain ⟨hnvts, c, hc, rfl, selector, hcached, -, hrows⟩ :=
    multiCopyConfig_selectors huser hfresh h
  obtain ⟨_, _, _, _, _, -, -, -, -, -, -, -, hvalid, -⟩ := multiCopyConfig_ok h
  have hlisted := validateMultiConfigParam_listed hvalid
  set uuids := gStrsplit (multiConfigId.getD []) with huuids
  have hflatten : db.listedRows uuids = (uuids.map db.selectorsOf).flatten := rfl
  have hright : RightFamilies db.nvts (db.listedRows uuids) := by
    intro r hr
    obtain ⟨uuid, huuid, hr⟩ := List.mem_flatMap.mp hr
    exact (hclassic uuid huuid).families r hr
  have hcons : ∀ rs ∈ uuids.map db.selectorsOf, Consistent rs := by
    intro rs hrs
    obtain ⟨uuid, huuid, rfl⟩ := List.mem_map.mp hrs
    exact (hclassic uuid huuid).consistent
  rw [Database.mem_selectConfigNvts hc hcached hrows.symm
    (hnvts ▸ rightFamilies_renamed.mpr hright), hnvts, ← not_selects_iff, not_not]
  have hrenamed : Selects db.nvts ((db.listedRows uuids).map fun r => { r with name := selector })
      family n ↔ Selects db.nvts (db.listedRows uuids) family n := by
    unfold Selects
    rw [growsIn_renamed, namesNvt_renamed, namesNvt_renamed]
  rw [hrenamed]
  constructor
  · rintro ⟨hn, hselects⟩
    refine ⟨?_, hselects⟩
    obtain ⟨rs, hrs, hpart⟩ := selects_part hcons (hflatten ▸ hselects)
    obtain ⟨uuid, huuid, rfl⟩ := List.mem_map.mp hrs
    obtain ⟨old, -, -, hof⟩ := hlisted uuid huuid
    exact ⟨uuid, huuid, old, hof,
      (Database.mem_selectConfigNvts_classic (hclassic uuid huuid) hof).mpr ⟨hn, hpart⟩⟩
  · rintro ⟨⟨uuid, huuid, old, hof, hn⟩, hselects⟩
    exact ⟨((Database.mem_selectConfigNvts_classic (hclassic uuid huuid) hof).mp hn).1, hselects⟩

theorem multiCopyConfig_union_two :
    ∃ db', sampleUnion (baseUuid ++ [','] ++ fullUuid) = some (.ok 3, db') ∧
      (anonymousNvt ∈ db'.selectConfigNvts 3 ftpFamily ↔
        sampleGroups.ListedSelects (gStrsplit (baseUuid ++ [','] ++ fullUuid)) ftpFamily
            anonymousNvt ∧
          ¬Overridden sampleGroups.nvts
            (sampleGroups.listedRows (gStrsplit (baseUuid ++ [','] ++ fullUuid))) ftpFamily
            anonymousNvt) := by
  have hcall : (sampleUnion (baseUuid ++ [','] ++ fullUuid)).map (fun r => r.1.toOption) =
      some (some 3) := by decide +kernel
  have hlist : gStrsplit (baseUuid ++ [','] ++ fullUuid) = [baseUuid, fullUuid] := by
    decide +kernel
  obtain ⟨db', hanswer⟩ := exists_of_map_toOption hcall
  refine ⟨db', hanswer, multiCopyConfig_union (by decide +kernel) sampleGroups_fresh ?_ hanswer
    ftpFamily anonymousNvt⟩
  intro uuid huuid
  have huuid : uuid ∈ [baseUuid, fullUuid] := hlist ▸ huuid
  rcases List.mem_pair.mp huuid with rfl | rfl
  · exact sampleGroups_base
  · exact sampleGroups_full

/-- **What the new config lists more than once, and what its cached count misses.** A family that
grows lists an NVT once, another family lists it once for each row that includes it, and an NVT that
several rows of a growing family exclude is subtracted once for each of them. -/
theorem multiCopyConfig_counts {session : Session} {configUuid selectorUuid : Option Text}
    {name comment usageType multiConfigId : Option Text} {db db' : Database} {new : ℕ}
    (huser : (db.userId session.uuid).isSome)
    (hfresh : ∀ selector, selectorUuid = some selector →
      (∀ r ∈ db.nvtSelectors, r.name ≠ selector) ∧
      ∀ c ∈ db.configs, c.nvtSelector ≠ some selector)
    (hright : RightFamilies db.nvts (db.listedRows (gStrsplit (multiConfigId.getD []))))
    (hknown : KnownNvts db.nvts (db.listedRows (gStrsplit (multiConfigId.getD []))))
    (hlt : IncludesAll (db.listedRows (gStrsplit (multiConfigId.getD []))) →
      (wholeFamilies (db.listedRows (gStrsplit (multiConfigId.getD [])))).length <
        familyCount db.nvts)
    (h : multiCopyConfig session configUuid selectorUuid name comment usageType multiConfigId db =
      some (.ok new, db')) :
    let rs := db.listedRows (gStrsplit (multiConfigId.getD []))
    (∀ family, GrowsIn db.nvts rs family → (db'.selectConfigNvts new family).Nodup) ∧
    (∀ family, ¬GrowsIn db.nvts rs family → ∀ n ∈ familyNvts db.nvts family,
      (db'.selectConfigNvts new family).count n = (includeRows rs n).length) ∧
    ∃ c ∈ db'.configs, c.id = new ∧ c.nvtCount = some (((families db.nvts).map fun family =>
      ((db'.selectConfigNvts new family).length : ℤ) -
        if GrowsIn db.nvts rs family then (repeatedExcludes rs family : ℤ) else 0).sum) := by
  obtain ⟨hnvts, c, hc, rfl, selector, hcached, hcount, hrows⟩ :=
    multiCopyConfig_selectors huser hfresh h
  intro rs
  have hselected (family : Text) : db'.selectConfigNvts c.id family =
      selectNvts db'.nvts db'.nvtSelectors selector (nvtSelectorNvtsGrowing2 db'.nvts
        db'.nvtSelectors selector (nvtSelectorFamiliesGrowing db'.nvtSelectors selector))
        (nvtSelectorFamiliesGrowing db'.nvtSelectors selector) family := by
    rw [Database.selectConfigNvts, Database.find?_id hc]
    simp only [hcached.nvtSelector, hcached.familiesGrowing, hcached.nvtsGrowing, Option.getD_some]
  have hright' : RightFamilies db'.nvts (rs.map fun r => { r with name := selector }) :=
    hnvts ▸ rightFamilies_renamed.mpr hright
  have hknown' : KnownNvts db'.nvts (rs.map fun r => { r with name := selector }) :=
    hnvts ▸ knownNvts_renamed.mpr hknown
  have hgrows (family : Text) : GrowsIn db'.nvts (rs.map fun r => { r with name := selector })
      family ↔ GrowsIn db.nvts rs family := by
    rw [growsIn_renamed, hnvts]
  have hnodup : db'.nvts.Nodup := db'.nvt_oids.of_map
  have hcounts (family : Text) := count_selectNvts hrows.symm hright' hnodup (hselected family)
  refine ⟨fun family hgrow => ?_, fun family hgrow n hn => ?_, c, hc, rfl, ?_⟩
  · exact (hcounts family).1 ((hgrows family).mpr hgrow)
  · rw [(hcounts family).2 (mt (hgrows family).mp hgrow) n (hnvts.symm ▸ hn),
      length_includeRows_renamed]
  · have hlt' : IncludesAll (rs.map fun r => { r with name := selector }) →
        (wholeFamilies (rs.map fun r => { r with name := selector })).length <
          familyCount db'.nvts := by
      rw [includesAll_renamed, wholeFamilies_renamed, hnvts]
      exact hlt
    rw [hcount, nvtSelectorNvtCount, ← hnvts]
    refine congrArg (fun counts => some (List.sum counts)) (List.map_congr_left fun family _ => ?_)
    rw [nvtSelectorNvtCountIn_eq hrows.symm hright' hknown' db'.nvt_oids hlt' (hselected family),
      repeatedExcludes_renamed]
    by_cases hgrow : GrowsIn db'.nvts rs family
    · rw [if_pos (growsIn_renamed.mpr hgrow), if_pos hgrow]
    · rw [if_neg (mt growsIn_renamed.mp hgrow), if_neg hgrow]

/-- A group that is listed twice has its NVT twice. -/
theorem multiCopyConfig_counts_twice :
    ∃ db', sampleUnion (baseUuid ++ [','] ++ baseUuid) = some (.ok 3, db') ∧
      (db'.selectConfigNvts 3 ftpFamily).count anonymousNvt = 2 := by
  have hcall : (sampleUnion (baseUuid ++ [','] ++ baseUuid)).map (fun r => r.1.toOption) =
      some (some 3) := by decide +kernel
  obtain ⟨db', hanswer⟩ := exists_of_map_toOption hcall
  have hright : RightFamilies sampleGroups.nvts
      (sampleGroups.listedRows (gStrsplit (baseUuid ++ [','] ++ baseUuid))) := by
    unfold RightFamilies
    decide +kernel
  have hknown : KnownNvts sampleGroups.nvts
      (sampleGroups.listedRows (gStrsplit (baseUuid ++ [','] ++ baseUuid))) := by
    unfold KnownNvts
    decide +kernel
  have hnone : ∀ r ∈ sampleGroups.listedRows (gStrsplit (baseUuid ++ [','] ++ baseUuid)),
      r.type = .nvt := by decide +kernel
  have hcounts := fun hright hknown hlt => multiCopyConfig_counts (by decide +kernel)
    sampleGroups_fresh hright hknown hlt hanswer
  obtain ⟨-, hcount, -⟩ := hcounts hright hknown fun ⟨r, hr, hall, _⟩ => by
    simp [hnone r hr] at hall
  refine ⟨db', hanswer, (hcount ftpFamily ?_ anonymousNvt (by decide +kernel)).trans ?_⟩
  · decide +kernel
  · decide +kernel

end OpenvasTool.Gvmd
