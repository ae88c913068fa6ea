import Mathlib.Algebra.Order.Ring.Int
import Mathlib.Data.List.Dedup
import OpenvasTool.Posix.Regex

/-!
# NVT selectors

The tables `nvts` and `nvt_selectors` of the manager, and the queries that give
meaning to a selector: which of its families and NVTs grow, how many NVTs it
selects, and which ones. A query whose order depends on columns that are left out
answers in the order of the table.
-/

namespace OpenvasTool.Gvmd

open Posix

/-- A row of `nvts`. -/
structure Nvt where
  oid : Text
  family : Option Text
  deriving DecidableEq, Repr

/-- `NVT_SELECTOR_TYPE_ALL`, `NVT_SELECTOR_TYPE_FAMILY` and `NVT_SELECTOR_TYPE_NVT`. -/
inductive SelectorType
  | all
  | family
  | nvt
  deriving DecidableEq, Repr

/-- A row of `nvt_selectors`. -/
structure NvtSelector where
  name : Text
  exclude : Bool
  type : SelectorType
  familyOrNvt : Option Text
  family : Option Text
  deriving DecidableEq, Repr

/-- The family that no config counts. -/
def credentialsFamily : Text := "Credentials".toList

/-- The distinct families of the NVTs, as `init_family_iterator` without a selector lists them. -/
def families (nvts : List Nvt) : List Text :=
  ((nvts.filterMap Nvt.family).filter (· ≠ credentialsFamily)).dedup

/-- `family_count`. -/
def familyCount (nvts : List Nvt) : ℕ := (families nvts).length

section Selector

variable (nvts : List Nvt) (rows : List NvtSelector)

/-- The rows of one selector, type and sense. -/
def rowsOf (selector : Text) (type : SelectorType) (exclude : Bool) : List NvtSelector :=
  rows.filter fun r => r.name = selector ∧ r.type = type ∧ r.exclude = exclude

/-- The rows of one selector and sense that name a family as a whole. -/
def familyRows (selector : Text) (exclude : Bool) (family : Text) : List NvtSelector :=
  (rowsOf rows selector .family exclude).filter fun r => r.familyOrNvt = some family

/-- `nvt_selector_families_growing`. -/
def nvtSelectorFamiliesGrowing (selector : Text) : Bool := !(rowsOf rows selector .all false).isEmpty

/-- The query `SELECT COUNT(distinct family_or_nvt)` over the family includes. -/
def includedFamilyCount (selector : Text) : ℕ :=
  ((rowsOf rows selector .family false).filterMap NvtSelector.familyOrNvt).dedup.length

/-- `nvt_selector_family_count`. -/
def nvtSelectorFamilyCount (selector : Text) (familiesGrowing : Bool) : ℤ :=
  if familiesGrowing then familyCount nvts - includedFamilyCount rows selector
  else
    ((rowsOf rows selector .family false ++ rowsOf rows selector .nvt false).filterMap
      NvtSelector.family).dedup.length

/-- `nvt_selector_nvts_growing_2`. -/
def nvtSelectorNvtsGrowing2 (selector : Text) (familiesGrowing : Bool) : Bool :=
  if familiesGrowing then decide (0 < (familyCount nvts : ℤ) - includedFamilyCount rows selector)
  else !(rowsOf rows selector .family false).isEmpty

/-- `nvt_selector_family_growing`. -/
def nvtSelectorFamilyGrowing (selector family : Text) (all : Bool) : Bool :=
  if all then (familyRows rows selector true family).isEmpty
  else !(familyRows rows selector false family).isEmpty

/-- The rows of one selector and sense that name an NVT of a family. -/
def nvtRows (selector : Text) (exclude : Bool) (family : Text) : List NvtSelector :=
  (rowsOf rows selector .nvt exclude).filter fun r => r.family = some family

/-- The NVTs of a family. -/
def familyNvts (family : Text) : List Nvt := nvts.filter fun n => n.family = some family

/-- `nvt_selector_nvt_count` for one family. -/
def nvtSelectorNvtCountIn (selector family : Text) (growing : Bool) : ℤ :=
  if growing then (familyNvts nvts family).length - (nvtRows rows selector true family).length
  else (nvtRows rows selector false family).length

/-- `nvt_selector_nvt_count` for all families. -/
def nvtSelectorNvtCount (selector : Text) (growing : Bool) : ℤ :=
  ((families nvts).map fun family =>
    nvtSelectorNvtCountIn nvts rows selector family
      (nvtSelectorFamilyGrowing rows selector family growing)).sum

/-- The join of the NVTs of a family with selector rows that name them. -/
def joined (family : Text) (named : List NvtSelector) : List Nvt :=
  (familyNvts nvts family).flatMap fun n =>
    (named.filter fun r => r.familyOrNvt = some n.oid).map fun _ => n

/-- The NVTs of a family except those that an exclude names. -/
def allButExcluded (selector family : Text) : List Nvt :=
  (familyNvts nvts family).filter fun n => n ∉ joined nvts family (nvtRows rows selector true family)

/-- The query of `select_config_nvts`, by the growth flags of the config. -/
def selectNvts (selector : Text) (nvtsGrowing familiesGrowing : Bool) (family : Text) : List Nvt :=
  if nvtsGrowing then
    if familiesGrowing then
      if (rows.filter fun r => r.name = selector).length = 1 then familyNvts nvts family
      else if (familyRows rows selector true family).isEmpty then
        allButExcluded nvts rows selector family
      else joined nvts family (nvtRows rows selector false family)
    else if (familyRows rows selector false family).isEmpty then
      joined nvts family (nvtRows rows selector false family)
    else allButExcluded nvts rows selector family
  else joined nvts family (rowsOf rows selector .nvt false)

end Selector

end OpenvasTool.Gvmd
