import OpenvasTool.Hydra.Uuid
import OpenvasTool.Php.Catalogue
import OpenvasTool.Php.ConfigText
import OpenvasTool.Php.Records

/-!
# Scan configs for the groups of the catalogue

`write_nvt_config` writes one XML file for every group of vulnerabilities, and
`read_gvm_task_group` reads the groups back from these files (`vuln_parse.php`). The texts
are pasted into the document as they are.
-/

namespace OpenvasTool

open Posix Posix.Regex Support

/-! ### Grouping -/

/-- An item of the catalogue with the oid of its script. -/
structure OidNvt where
  nvt : NvtItem
  oid : Text

/-- A group of the group table. -/
structure GroupInfo where
  name : Text
  desc : Text

/-- The items of a group by their ids. -/
abbrev GroupNvts := OrderedArray PhpKey OidNvt

/-- A value as a key. -/
def PhpKey.ofValue : PhpValue → PhpKey
  | .int n => .int n
  | .str s => .ofText s

/-- `$group_nvt_data[$group_id]['nvts'][$nvt_id] = $nvt`; the array under `nvts` stands for the array
of the group. -/
def addToGroup (groups : OrderedArray PhpKey GroupNvts) (item : OidNvt) :
    OrderedArray PhpKey GroupNvts :=
  let group := PhpKey.ofValue item.nvt.group
  groups.set group (((groups.get? group).getD .empty).set (.ofText item.nvt.id) item)

/-- `divide_nvt_by_group`. -/
def divideNvtByGroup (items : List OidNvt) : OrderedArray PhpKey GroupNvts :=
  items.foldl addToGroup .empty

/-- `add_group_with_nvts`; an array of a group is never empty. -/
def addGroupWithNvts (groupNvts : OrderedArray PhpKey GroupNvts)
    (groups : OrderedArray PhpKey GroupInfo) :
    OrderedArray PhpKey (GroupInfo × Option GroupNvts) :=
  groups.entries.foldl (fun new e => new.set e.1 (e.2, groupNvts.get? e.1)) .empty

/-! ### Writing the files -/

/-- `sprintf("%08d-0000-0000-0000-000000000000", $group_id)`; the id has no sign. -/
def policyIndex : PhpKey → Text
  | .int n => padded 10 8 n ++ "-0000-0000-0000-000000000000".toList
  | .str s => padded 10 8 (leadingDigits s) ++ "-0000-0000-0000-000000000000".toList

/-- The name of the file of a group. -/
def policyFile (group : PhpKey) : Text :=
  "policy_".toList ++ policyIndex group ++ ".xml".toList

/-- The oids of a group, in the order of its array. -/
def nvtOids (nvts : Option GroupNvts) : List Text :=
  ((nvts.map fun nvts => nvts.entries).getD []).map fun e => e.2.oid

/-- `write_nvt_config`: the files by their names. A file that cannot be opened is skipped. -/
def writeNvtConfig (fopen : Text → Bool)
    (data : OrderedArray PhpKey (GroupInfo × Option GroupNvts)) : OrderedArray Text Text :=
  data.entries.foldl (fun files e =>
    if fopen (policyFile e.1) then
      files.set (policyFile e.1)
        (configText (policyIndex e.1) e.2.1.name e.2.1.desc (nvtOids e.2.2))
    else files) .empty

/-! ### Reading the files -/

/-- What is read from a file. -/
structure PolicyItem where
  configId : Text
  groupId : Text
  groupName : Text
  deriving DecidableEq

/-- `/<config id=\"(...)\">/`; the inner group is the first eight characters of the outer one. -/
def configIdPattern : Pattern :=
  ⟨false, [.plain (lit "<config id=\"".toList), .group lowerUuid, .plain (lit "\">".toList)],
    false, false⟩

/-- `/<name>(.*)<\/name>/`: the greedy match is the longest one. -/
def configNamePattern : Pattern :=
  ⟨false, [.plain (lit "<name>".toList), .group anyText, .plain (lit "</name>".toList)],
    false, false⟩

/-- The group of `/0*(.*)/`. -/
def dropZeros (s : Text) : Text := (s.dropWhile (· == '0')).takeWhile (· != '\n')

/-- `read_gvm_config_file` on the content of a file. -/
def readGvmConfigFile (content : Text) : Option PolicyItem :=
  ((configIdPattern.regexec content).bind List.head?).map fun configId =>
    { configId := configId
      groupId := dropZeros (configId.take 8)
      groupName := ((configNamePattern.regexec content).bind List.head?).getD [] }

/-- The names of the files that are read; `$` also matches in front of a last line break. -/
def policyFileRegex : Regex :=
  seqs [lit "policy_".toList, lowerUuid, ncls (· == '\n'), lit "xml".toList, opt (chr '\n')]

/-- The entry for all vulnerabilities. -/
def allNvtsItem : PolicyItem where
  configId := "daba56c8-73ec-11df-a475-002264764cea".toList
  groupId := "0".toList
  groupName := ['所', '有', '漏', '洞']

/-- One step of the loop of `read_gvm_task_group`. -/
def readPolicyFile (files : OrderedArray Text Text) (data : OrderedArray Text PolicyItem)
    (file : Text) : OrderedArray Text PolicyItem :=
  if policyFileRegex.accepts file then
    match (files.get? file).bind readGvmConfigFile with
    | some item => data.set item.configId item
    | none => data
  else data

/-- `read_gvm_task_group`; `listing` is what `readdir` returns. A config id is never a number. -/
def readGvmTaskGroup (files : OrderedArray Text Text) (listing : List Text) :
    OrderedArray Text PolicyItem :=
  (listing.foldl (readPolicyFile files) .empty).set allNvtsItem.configId allNvtsItem

/-! ### What the files say -/

/-- A group table: distinct ids from 1 to 99999999, and texts on one line. -/
structure GroupTable where
  groups : List (ℕ × GroupInfo)
  nodup : (groups.map Prod.fst).Nodup
  range : ∀ g ∈ groups, 1 ≤ g.1 ∧ g.1 ≤ 99999999
  lines : ∀ g ∈ groups, SingleLine g.2.name ∧ SingleLine g.2.desc

/-- The table as an array. -/
def GroupTable.array (t : GroupTable) : OrderedArray PhpKey GroupInfo where
  entries := t.groups.map fun g => (.int g.1, g.2)
  nodup := by
    rw [List.map_map, show Prod.fst ∘ (fun g : ℕ × GroupInfo => (PhpKey.int g.1, g.2)) =
      PhpKey.int ∘ Prod.fst from rfl, ← List.map_map]
    exact t.nodup.map fun _ _ h => PhpKey.int.inj h

/-- The number that the group of an item denotes. -/
def groupNumber : PhpValue → Option ℕ
  | .int n => some n
  | .str s => if s ≠ [] ∧ s.all Char.isDigit then some (leadingDigits s) else none

/-- The items of a group. -/
def itemsOf (items : List OidNvt) (group : ℕ) : List OidNvt :=
  items.filter fun item => groupNumber item.nvt.group = some group

/-- There is one file for each group, and it describes the group and its items. -/
def FilesDescribe (t : GroupTable) (items : List OidNvt) (files : OrderedArray Text Text) : Prop :=
  List.Forall₂ (fun g f => f.1 = policyFile (.int g.1) ∧
    Describes f.2 g.2.name g.2.desc ((itemsOf items g.1).map OidNvt.oid)) t.groups files.entries

/-- The groups are read back under their config ids, and nothing else but the entry for all
vulnerabilities. -/
def ReadsBack (t : GroupTable) (data : OrderedArray Text PolicyItem) : Prop :=
  ∀ key item, data.get? key = some item ↔
    item = allNvtsItem ∧ key = allNvtsItem.configId ∨
      ∃ g ∈ t.groups, key = policyIndex (.int g.1) ∧
        item = ⟨policyIndex (.int g.1), decimal g.1, g.2.name⟩

/-- The condition under which the config of a group is faithful: its texts stand for themselves in a
document, its items have distinct ids and name the group without leading zeros. -/
structure FaithfulGroup (items : List OidNvt) (g : ℕ × GroupInfo) : Prop where
  name : Xml.PlainText g.2.name
  desc : Xml.PlainText g.2.desc
  ids : ((itemsOf items g.1).map fun item => item.nvt.id).Nodup
  group : ∀ item ∈ itemsOf items g.1, PhpKey.ofValue item.nvt.group = .int g.1

/-- The files for a group table and the items of a catalogue. -/
def policyFiles (fopen : Text → Bool) (t : GroupTable) (items : List OidNvt) :
    OrderedArray Text Text :=
  writeNvtConfig fopen (addGroupWithNvts (divideNvtByGroup items) t.array)

/-! ### The items of a group -/

section Grouping

variable {items : List OidNvt} {n : ℕ}

/-- The items that land in the array of a group are those with its key, set in their order. -/
theorem foldl_addToGroup (items : List OidNvt) (groups : OrderedArray PhpKey GroupNvts)
    (k : PhpKey) :
    ((items.foldl addToGroup groups).get? k).getD .empty =
      ((items.filter fun i => PhpKey.ofValue i.nvt.group = k).map fun i =>
        (PhpKey.ofText i.nvt.id, i)).foldl (fun a x => a.set x.1 x.2)
          ((groups.get? k).getD .empty) := by
  induction items generalizing groups with
  | nil => rfl
  | cons item items ih =>
    rw [List.foldl_cons, ih, addToGroup, OrderedArray.get?_set]
    by_cases hk : PhpKey.ofValue item.nvt.group = k
    · subst hk
      rw [if_pos rfl, List.filter_cons_of_pos (by simp)]
      rfl
    · rw [if_neg (Ne.symm hk), List.filter_cons_of_neg (by simpa using hk)]

/-- A value whose key is a number denotes this number. -/
theorem groupNumber_of_ofValue {v : PhpValue} (h : PhpKey.ofValue v = .int n) :
    groupNumber v = some n := by
  cases v with
  | int m =>
    obtain rfl : m = n := PhpKey.int.inj h
    rfl
  | str s =>
    rw [PhpKey.ofValue, PhpKey.ofText] at h
    split at h
    · rename_i hs
      obtain rfl := PhpKey.int.inj h
      have hne : s ≠ [] := by
        rw [← hs.1, decimal_natCast]
        exact Nat.toDigits_ne_nil
      have hdigits : s.all Char.isDigit = true := List.all_eq_true.mpr fun c hc => by
        rw [← hs.1, decimal_natCast] at hc
        exact Nat.isDigit_of_mem_toDigits (by decide) (by decide) hc
      rw [groupNumber, if_pos ⟨hne, hdigits⟩]
    · simp at h

theorem nvtOids_eq (nvts : Option GroupNvts) :
    nvtOids nvts = (nvts.getD .empty).entries.map fun e => e.2.oid := by
  cases nvts <;> rfl

/-- Exactly the items of the group are selected when their ids are distinct and each of them names
the group by its key; otherwise some are missing. -/
theorem nvtOids_perm_iff :
    (nvtOids ((divideNvtByGroup items).get? (.int n))).Perm ((itemsOf items n).map OidNvt.oid) ↔
      ((itemsOf items n).map fun item => item.nvt.id).Nodup ∧
        ∀ item ∈ itemsOf items n, PhpKey.ofValue item.nvt.group = .int n := by
  let landed := items.filter fun i => PhpKey.ofValue i.nvt.group = .int n
  let pairs := landed.map fun i => (PhpKey.ofText i.nvt.id, i)
  let array : GroupNvts := pairs.foldl (fun a x => a.set x.1 x.2) .empty
  have hoids : nvtOids ((divideNvtByGroup items).get? (.int n)) =
      array.entries.map fun e => e.2.oid := by
    have harray := foldl_addToGroup items .empty (.int n)
    rw [OrderedArray.get?_empty, Option.getD_none] at harray
    rw [nvtOids_eq, divideNvtByGroup, harray]
  have hlanded : landed = (itemsOf items n).filter fun i => PhpKey.ofValue i.nvt.group = .int n := by
    rw [itemsOf, List.filter_filter]
    refine List.filter_congr fun i _ => ?_
    by_cases hi : PhpKey.ofValue i.nvt.group = .int n
    · simp [hi, groupNumber_of_ofValue hi]
    · simp [hi]
  obtain ⟨hle, hnew⟩ : array.entries.length ≤ 0 + pairs.length ∧
      (array.entries.length = 0 + pairs.length → (pairs.map Prod.fst).Nodup ∧ _) :=
    OrderedArray.length_entries_foldl_set pairs .empty
  have hkeys : pairs.map Prod.fst = (landed.map fun i => i.nvt.id).map PhpKey.ofText := by
    rw [List.map_map, List.map_map]
    rfl
  rw [hoids]
  constructor
  · intro hperm
    have hlen := hperm.length_eq
    rw [List.length_map, List.length_map] at hlen
    have hpairs : pairs.length = landed.length := List.length_map _
    have hsub : landed.length ≤ (itemsOf items n).length := hlanded ▸ List.length_filter_le _ _
    have hall : landed.length = (itemsOf items n).length := by omega
    have hnodup := (hnew (by omega)).1
    rw [hlanded, List.length_filter_eq_length_iff] at hall
    have heq : landed = itemsOf items n := hlanded.trans (List.filter_eq_self.mpr hall)
    rw [hkeys, heq] at hnodup
    exact ⟨hnodup.of_map, fun i hi => by simpa using hall i hi⟩
  · rintro ⟨hnodup, hgroup⟩
    have hall : landed = itemsOf items n := by
      rw [hlanded, List.filter_eq_self]
      exact fun i hi => by simpa using hgroup i hi
    have hdistinct : (pairs.map Prod.fst).Nodup := by
      rw [hkeys, hall]
      exact hnodup.map PhpKey.ofText_injective
    have hentries : array.entries = pairs :=
      OrderedArray.entries_foldl_set hdistinct fun x _ hx => by simp [OrderedArray.keys,
        OrderedArray.empty] at hx
    rw [hentries, List.map_map, ← hall]
    exact List.Perm.refl _

/-- Only oids of the items are selected. -/
theorem mem_nvtOids {k : PhpKey} {oid : Text}
    (h : oid ∈ nvtOids ((divideNvtByGroup items).get? k)) : ∃ item ∈ items, item.oid = oid := by
  have harray := foldl_addToGroup items .empty k
  rw [OrderedArray.get?_empty, Option.getD_none] at harray
  rw [nvtOids_eq, divideNvtByGroup, harray] at h
  obtain ⟨e, he, rfl⟩ := List.mem_map.mp h
  rcases OrderedArray.mem_entries_foldl_set he with he | he
  · simp [OrderedArray.empty] at he
  · obtain ⟨item, hitem, rfl⟩ := List.mem_map.mp he
    exact ⟨item, (List.mem_filter.mp hitem).1, rfl⟩

end Grouping

/-! ### Ids and file names -/

section Ids

variable {m n : ℕ}

theorem head?_toDigits_ne (h : 0 < n) : (Nat.toDigits 10 n).head? ≠ some '0' := by
  induction n using Nat.strongRecOn with
  | ind n ih =>
    rw [Nat.toDigits_eq_if (by decide)]
    split
    · rename_i hlt
      rw [List.head?_cons, ne_eq, Option.some.injEq]
      interval_cases n <;> decide
    · rename_i hge
      have hne : Nat.toDigits 10 (n / 10) ≠ [] := Nat.toDigits_ne_nil
      rw [List.head?_append_of_ne_nil _ hne]
      exact ih (n / 10) (Nat.div_lt_self h (by decide)) (Nat.div_pos (by omega) (by decide))

/-- The zeros in front of a number are removed, those inside and at its end are kept. -/
theorem dropZeros_padded (h : 0 < n) (width : ℕ) : dropZeros (padded 10 width n) = decimal n := by
  have hdrop : (Nat.toDigits 10 n).dropWhile (· == '0') = Nat.toDigits 10 n := by
    have hhead := head?_toDigits_ne h
    cases hdigits : Nat.toDigits 10 n with
    | nil => rfl
    | cons c digits =>
      rw [hdigits, List.head?_cons, ne_eq, Option.some.injEq] at hhead
      exact List.dropWhile_cons_of_neg (by simpa using hhead)
  have hzeros : ∀ c ∈ List.replicate (width - (Nat.toDigits 10 n).length) '0',
      (c == '0') = true := fun c hc => by simp [List.eq_of_mem_replicate hc]
  rw [dropZeros, padded, List.dropWhile_append_of_pos hzeros, hdrop, decimal_natCast,
    List.takeWhile_eq_self_iff]
  intro c hc
  have hdigit : c.isDigit = true := Nat.isDigit_of_mem_toDigits (by decide) (by decide) hc
  rw [bne_iff_ne]
  rintro rfl
  exact absurd hdigit (by decide)

theorem take_policyIndex (h : n ≤ 99999999) :
    (policyIndex (.int n)).take 8 = padded 10 8 n := by
  have hlen : (padded 10 8 n).length = 8 := length_padded (by decide) (by decide) (by omega)
  rw [policyIndex, List.take_left' hlen]

/-- The id is padded to a config id and read back from it. -/
theorem groupId_policyIndex (h : 1 ≤ n) (hle : n ≤ 99999999) :
    dropZeros ((policyIndex (.int n)).take 8) = decimal n := by
  rw [take_policyIndex hle, dropZeros_padded h]

theorem policyIndex_injective (hm : 1 ≤ m) (hm' : m ≤ 99999999) (hn : 1 ≤ n) (hn' : n ≤ 99999999)
    (h : policyIndex (.int m) = policyIndex (.int n)) : m = n := by
  have hdecimal : decimal m = decimal n := by
    rw [← groupId_policyIndex hm hm', ← groupId_policyIndex hn hn', h]
  rw [decimal_natCast, decimal_natCast] at hdecimal
  rw [← leadingDigits_toDigits m, hdecimal, leadingDigits_toDigits]

theorem isDigit_of_mem_padded {width : ℕ} {c : Char} (hc : c ∈ padded 10 width n) :
    c.isDigit = true := by
  rcases List.mem_append.mp hc with hzero | hdigit
  · rw [List.eq_of_mem_replicate hzero]
    decide
  · exact Nat.isDigit_of_mem_toDigits (by decide) (by decide) hdigit

theorem policyIndex_mem_lowerUuid (h : n ≤ 99999999) :
    policyIndex (.int n) ∈ lowerUuid.lang := by
  have hlen : (padded 10 8 n).length = 8 := length_padded (by decide) (by decide) (by omega)
  have hfirst : padded 10 8 n ∈ (times lowerHexDigit 8).lang :=
    mem_lang_times_cls hlen fun c hc => by simp [isDigit_of_mem_padded hc]
  have hrest : "-0000-0000-0000-000000000000".toList ∈ (seqs [chr '-', times lowerHexDigit 4,
      chr '-', times lowerHexDigit 4, chr '-', times lowerHexDigit 4, chr '-',
      times lowerHexDigit 12]).lang := accepts_iff.mp (by decide +kernel)
  exact mem_lang_seq.mpr ⟨_, hfirst, _, hrest, rfl⟩

theorem isQuotable_policyIndex : (policyIndex (.int n)).all Xml.isQuotable = true := by
  rw [policyIndex, List.all_append, Bool.and_eq_true]
  refine ⟨List.all_eq_true.mpr fun c hc => ?_, by decide⟩
  have hdigit := isDigit_of_mem_padded hc
  have hne : ∀ d : Char, d.isDigit = false → c ≠ d := by
    rintro d hd rfl
    simp [hdigit] at hd
  have hspace : Xml.isSpace c = false := by
    simp only [Xml.isSpace, Bool.or_eq_false_iff, beq_eq_false_iff_ne]
    exact ⟨⟨⟨hne ' ' rfl, hne '\t' rfl⟩, hne '\n' rfl⟩, hne '\r' rfl⟩
  simp [Xml.isQuotable, (isPlain_of_isDigit hdigit).1, hne '\x22' rfl, hspace]

theorem policyIndex_ne_allNvts (h : n ≤ 99999999) :
    policyIndex (.int n) ≠ allNvtsItem.configId := by
  intro heq
  have htake := take_policyIndex h
  rw [heq] at htake
  have hmem : 'd' ∈ padded 10 8 n := htake ▸ (by decide)
  exact absurd (isDigit_of_mem_padded hmem) (by decide)

/-- The file of a group is among the files that are read. -/
theorem policyFileRegex_policyFile (h : n ≤ 99999999) :
    policyFileRegex.accepts (policyFile (.int n)) = true := by
  rw [accepts_iff]
  have hprefix : "policy_".toList ∈ (lit "policy_".toList).lang := mem_lang_lit.mpr rfl
  have hend : ".xml".toList ∈ (seqs [ncls (· == '\n'), lit "xml".toList, opt (chr '\n')]).lang :=
    accepts_iff.mp (by decide +kernel)
  have hrest := mem_lang_seq.mpr ⟨_, policyIndex_mem_lowerUuid h, _, hend, rfl⟩
  unfold policyFile
  rw [List.append_assoc]
  exact mem_lang_seq.mpr ⟨_, hprefix, _, hrest, rfl⟩

theorem policyFile_injective (hm : 1 ≤ m) (hm' : m ≤ 99999999) (hn : 1 ≤ n) (hn' : n ≤ 99999999)
    (h : policyFile (.int m) = policyFile (.int n)) : m = n := by
  unfold policyFile at h
  exact policyIndex_injective hm hm' hn hn'
    (List.append_cancel_left (List.append_cancel_right h))

end Ids

/-! ### Reading one file -/

section File

variable {index name desc : Text} {oids : List Text} {caps : List Text} {prev : Option Char}
  {s u : Text}

theorem quote_notMem_lowerUuid {w : Text} (hw : w ∈ lowerUuid.lang) : '\x22' ∉ w := by
  have hhex : lowerHexDigit.Over (· ≠ '\x22') := by
    rintro c hc rfl
    exact absurd hc (by decide)
  have hdash : (chr '-').Over (· ≠ '\x22') := over_chr (by decide)
  have hover : lowerUuid.Over (· ≠ '\x22') :=
    ⟨hhex, hdash, hhex, hdash, hhex, hdash, hhex, hdash, hhex⟩
  exact fun hmem => hover.all_mem hw _ hmem rfl

/-- The config id is read at the start of the file. -/
theorem configIdPattern_configText (hindex : index ∈ lowerUuid.lang) :
    configIdPattern.regexec (configText index name desc oids) = some [index] := by
  obtain ⟨rest, htext⟩ : ∃ rest, configText index name desc oids =
      "<config id=\"".toList ++ (index ++ '\x22' :: '>' :: rest) := by
    unfold configText
    simp only [List.append_assoc]
    exact ⟨_, rfl⟩
  rw [htext]
  refine Pattern.search_of_here (Pattern.here_eq_some (u := rest) ?_ fun caps' u' h => ?_)
  · rw [Pattern.mem_matchesAt]
    exact ⟨by simp [configIdPattern], ⟨_, mem_lang_lit.mpr rfl, _, rfl, index, hindex, _, [], rfl, rfl,
      "\">".toList, mem_lang_lit.mpr rfl, rest, rfl, rfl, rfl⟩, by simp [configIdPattern]⟩
  · obtain ⟨-, hparts, -⟩ := Pattern.mem_matchesAt.mp h
    obtain ⟨w, hw, t, heq, w', hw', t', rest', rfl, rfl, w'', hw'', t'', rfl, rfl, rfl⟩ := hparts
    rw [mem_lang_lit] at hw hw''
    subst hw hw''
    have hcut := List.append_cancel_left heq
    obtain ⟨rfl, -⟩ := append_delim_inj (quote_notMem_lowerUuid hindex)
      (quote_notMem_lowerUuid hw') hcut
    rfl

/-- The name stands between the tags of its line, whatever it contains. -/
theorem configNamePattern_here (hname : '\n' ∉ name) (rest : Text) (prev : Option Char) :
    configNamePattern.here prev ("<name>".toList ++ (name ++ ("</name>".toList ++ '\n' :: rest))) =
      some [name] := by
  refine Pattern.here_eq_some_of_longest (u := '\n' :: rest) ?_ fun caps' u' h => ?_
  · rw [Pattern.mem_matchesAt]
    exact ⟨by simp [configNamePattern], ⟨_, mem_lang_lit.mpr rfl, _, rfl, name, mem_anyText hname, _,
      [], rfl, rfl, _, mem_lang_lit.mpr rfl, _, rfl, rfl, rfl⟩, by simp [configNamePattern]⟩
  · obtain ⟨-, hparts, -⟩ := Pattern.mem_matchesAt.mp h
    obtain ⟨w, hw, t, heq, w', hw', t', rest', rfl, rfl, w'', hw'', t'', rfl, rfl, rfl⟩ := hparts
    rw [mem_lang_lit] at hw hw''
    subst hw hw''
    have hcut := List.append_cancel_left heq
    have hline : '\n' ∉ w' ++ "</name>".toList := by
      rw [List.mem_append, not_or]
      exact ⟨fun hmem => over_anyText.all_mem hw' _ hmem rfl, by decide⟩
    rw [← List.append_assoc, ← List.append_assoc] at hcut
    rcases List.append_eq_append_iff.mp hcut with ⟨k, hlong, hk⟩ | ⟨k, hshort, hu⟩
    · -- the match cannot go on behind the line
      cases k with
      | nil =>
        rw [List.append_nil] at hlong
        rw [List.nil_append] at hk
        exact ⟨by rw [hk], fun _ => by rw [List.append_cancel_right hlong]⟩
      | cons c k =>
        obtain rfl := (List.cons.inj hk).1
        exact absurd (hlong ▸ by simp) hline
    · rw [hu, List.length_append]
      refine ⟨by omega, fun hlen => ?_⟩
      obtain rfl : k = [] := List.length_eq_zero_iff.mp (by omega)
      rw [List.append_nil] at hshort
      rw [List.append_cancel_right hshort]

/-- In front of the name there is no other start tag of a name. -/
theorem configNamePattern_search {before : Text} (hbefore : '<' ∉ before) (hname : '\n' ∉ name)
    (rest : Text) (prev : Option Char) :
    configNamePattern.search prev
      (before ++ ("<name>".toList ++ (name ++ ("</name>".toList ++ '\n' :: rest)))) =
        some [name] := by
  induction before generalizing prev with
  | nil => exact Pattern.search_of_here (configNamePattern_here hname rest prev)
  | cons c before ih =>
    simp only [List.mem_cons, not_or] at hbefore
    rw [List.cons_append, Pattern.search_cons, ih hbefore.2]
    rw [Pattern.here_eq_none]
    intro caps u h
    obtain ⟨-, hparts, -⟩ := Pattern.mem_matchesAt.mp h
    obtain ⟨w, hw, t, heq, -⟩ := hparts
    rw [mem_lang_lit] at hw
    subst hw
    exact hbefore.1 (List.cons.inj heq).1.symm

theorem configNamePattern_configText (hq : '<' ∉ index) (hname : '\n' ∉ name) :
    configNamePattern.regexec (configText index name desc oids) = some [name] := by
  obtain ⟨rest, htext⟩ : ∃ rest, configText index name desc oids =
      '<' :: (("config id=\"".toList ++ (index ++ "\">\n  ".toList)) ++
        ("<name>".toList ++ (name ++ ("</name>".toList ++ '\n' :: rest)))) := by
    unfold configText
    simp only [String.reduceToList, List.cons_append, List.nil_append, List.append_assoc]
    exact ⟨_, rfl⟩
  have hbefore : '<' ∉ "config id=\"".toList ++ (index ++ "\">\n  ".toList) := by
    rw [List.mem_append, List.mem_append, not_or, not_or]
    exact ⟨by decide, hq, by decide⟩
  rw [htext, Pattern.regexec, Pattern.search_cons]
  · exact configNamePattern_search hbefore hname rest _
  · rw [Pattern.here_eq_none]
    intro caps u h
    obtain ⟨-, hparts, -⟩ := Pattern.mem_matchesAt.mp h
    obtain ⟨w, hw, t, heq, -⟩ := hparts
    rw [mem_lang_lit] at hw
    subst hw
    exact absurd (List.cons.inj (List.cons.inj heq).2).1 (by decide)

/-- A written file is read back whatever its name and its description contain. -/
theorem readGvmConfigFile_configText (hindex : index ∈ lowerUuid.lang) (hq : '<' ∉ index)
    (hname : '\n' ∉ name) :
    readGvmConfigFile (configText index name desc oids) =
      some ⟨index, dropZeros (index.take 8), name⟩ := by
  rw [readGvmConfigFile, configIdPattern_configText hindex, configNamePattern_configText hq
    hname]
  rfl

end File

/-! ### All files -/

section Files

variable {t : GroupTable} {items : List OidNvt} {fopen : Text → Bool}

/-- The item that is read from the file of a group. -/
def policyItem (g : ℕ × GroupInfo) : PolicyItem :=
  ⟨policyIndex (.int g.1), decimal g.1, g.2.name⟩

/-- The file of a group. -/
def groupFile (items : List OidNvt) (g : ℕ × GroupInfo) : Text × Text :=
  (policyFile (.int g.1), configText (policyIndex (.int g.1)) g.2.name g.2.desc
    (nvtOids ((divideNvtByGroup items).get? (.int g.1))))

theorem GroupTable.nodup_files (t : GroupTable) (items : List OidNvt) :
    ((t.groups.map (groupFile items)).map Prod.fst).Nodup := by
  rw [List.map_map]
  refine (List.Nodup.of_map Prod.fst t.nodup).map_on fun g hg g' hg' heq => ?_
  have hid : g.1 = g'.1 := policyFile_injective (t.range g hg).1 (t.range g hg).2
    (t.range g' hg').1 (t.range g' hg').2 heq
  exact List.inj_on_of_nodup_map t.nodup hg hg' hid

/-- When every file can be opened, there is one for each group, in the order of the table. -/
theorem policyFiles_entries (items : List OidNvt)
    (hopen : ∀ g ∈ t.groups, fopen (policyFile (.int g.1)) = true) :
    (policyFiles fopen t items).entries = t.groups.map (groupFile items) := by
  have hadd : (addGroupWithNvts (divideNvtByGroup items) t.array).entries =
      t.array.entries.map fun e => (e.1, (e.2, (divideNvtByGroup items).get? e.1)) := by
    refine OrderedArray.entries_foldl_set_map (f := fun e : PhpKey × GroupInfo =>
      (e.1, (e.2, (divideNvtByGroup items).get? e.1))) ?_
    rw [List.map_map]
    exact t.array.nodup
  have hfold : ∀ files : OrderedArray Text Text, ∀ g ∈ t.groups,
      (if fopen (policyFile (.int g.1)) then
        files.set (groupFile items g).1 (groupFile items g).2 else files) =
          files.set (groupFile items g).1 (groupFile items g).2 := fun files g hg =>
    if_pos (hopen g hg)
  rw [policyFiles, writeNvtConfig, hadd, GroupTable.array, List.map_map, List.foldl_map]
  refine (congrArg OrderedArray.entries (List.foldl_ext _ _ _ hfold)).trans ?_
  exact OrderedArray.entries_foldl_set_map (t.nodup_files items)

/-- What the loop of `read_gvm_task_group` reads for a name. -/
def policyItemOf (files : OrderedArray Text Text) (file : Text) : Option PolicyItem :=
  if policyFileRegex.accepts file then (files.get? file).bind readGvmConfigFile else none

theorem foldl_readPolicyFile (files : OrderedArray Text Text) (listing : List Text)
    (data : OrderedArray Text PolicyItem) :
    listing.foldl (readPolicyFile files) data =
      ((listing.filterMap (policyItemOf files)).map fun item => (item.configId, item)).foldl
        (fun data x => data.set x.1 x.2) data := by
  induction listing generalizing data with
  | nil => rfl
  | cons file listing ih =>
    have hstep : readPolicyFile files data file =
        match policyItemOf files file with
        | some item => data.set item.configId item
        | none => data := by
      rw [readPolicyFile, policyItemOf]
      split <;> rfl
    rw [List.foldl_cons, ih, hstep]
    cases hitem : policyItemOf files file with
    | none => rw [List.filterMap_cons_none hitem]
    | some item => rw [List.filterMap_cons_some hitem, List.map_cons, List.foldl_cons]

/-- The file of a group is read as its item. -/
theorem policyItemOf_groupFile (items : List OidNvt)
    (hopen : ∀ g ∈ t.groups, fopen (policyFile (.int g.1)) = true) {g : ℕ × GroupInfo}
    (hg : g ∈ t.groups) :
    policyItemOf (policyFiles fopen t items) (policyFile (.int g.1)) = some (policyItem g) := by
  obtain ⟨hone, hle⟩ := t.range g hg
  have hget : (policyFiles fopen t items).get? (policyFile (.int g.1)) =
      some (groupFile items g).2 := by
    rw [OrderedArray.get?_eq_some_iff, policyFiles_entries items hopen]
    exact List.mem_map_of_mem hg
  have hlt : '<' ∉ policyIndex (.int g.1) := fun hmem =>
    absurd (List.all_eq_true.mp isQuotable_policyIndex _ hmem) (by decide)
  rw [policyItemOf, if_pos (policyFileRegex_policyFile hle), hget, Option.bind_some]
  unfold groupFile policyItem
  rw [readGvmConfigFile_configText (policyIndex_mem_lowerUuid hle) hlt (t.lines g hg).1.1,
    groupId_policyIndex hone hle]

theorem policyItemOf_dots (files : OrderedArray Text Text) :
    policyItemOf files ".".toList = none ∧ policyItemOf files "..".toList = none := by
  have hdot : policyFileRegex.accepts ".".toList = false := by decide +kernel
  have hdots : policyFileRegex.accepts "..".toList = false := by decide +kernel
  constructor
  · rw [policyItemOf, hdot, if_neg (by simp)]
  · rw [policyItemOf, hdots, if_neg (by simp)]

/-- The items that are read are those of the groups. -/
theorem filterMap_policyItemOf (items : List OidNvt)
    (hopen : ∀ g ∈ t.groups, fopen (policyFile (.int g.1)) = true) {listing : List Text}
    (hlisting : listing.Perm (".".toList :: "..".toList :: (policyFiles fopen t items).keys)) :
    (listing.filterMap (policyItemOf (policyFiles fopen t items))).Perm
      (t.groups.map policyItem) := by
  have hkeys : (policyFiles fopen t items).keys = t.groups.map fun g => policyFile (.int g.1) := by
    rw [OrderedArray.keys, policyFiles_entries items hopen, List.map_map]
    rfl
  obtain ⟨hdot, hdots⟩ := policyItemOf_dots (policyFiles fopen t items)
  refine (hlisting.filterMap _).trans (List.Perm.of_eq ?_)
  rw [List.filterMap_cons_none hdot, List.filterMap_cons_none hdots, hkeys, List.filterMap_map]
  refine List.filterMap_eq_map_iff_forall_eq_some.mpr fun g hg => ?_
  rw [Function.comp_apply]
  exact policyItemOf_groupFile items hopen hg

theorem GroupTable.nodup_configIds (t : GroupTable) :
    ((t.groups.map policyItem).map fun item => item.configId).Nodup := by
  have hids : (t.groups.map fun g => policyIndex (.int g.1)).Nodup := by
    refine (List.Nodup.of_map Prod.fst t.nodup).map_on fun g hg g' hg' heq => ?_
    have hid : g.1 = g'.1 := policyIndex_injective (t.range g hg).1 (t.range g hg).2
      (t.range g' hg').1 (t.range g' hg').2 heq
    exact List.inj_on_of_nodup_map t.nodup hg hg' hid
  rw [List.map_map]
  exact hids

/-- The groups are read back, whatever the order in which the directory is listed. -/
theorem readsBack_policyFiles (hopen : ∀ g ∈ t.groups, fopen (policyFile (.int g.1)) = true)
    {listing : List Text}
    (hlisting : listing.Perm (".".toList :: "..".toList :: (policyFiles fopen t items).keys)) :
    ReadsBack t (readGvmTaskGroup (policyFiles fopen t items) listing) := by
  have hread := filterMap_policyItemOf items hopen hlisting
  have hdata : (listing.foldl (readPolicyFile (policyFiles fopen t items)) .empty).entries =
      (listing.filterMap (policyItemOf (policyFiles fopen t items))).map fun item =>
        (item.configId, item) := by
    rw [foldl_readPolicyFile, List.foldl_map]
    refine OrderedArray.entries_foldl_set_map (f := fun item : PolicyItem => (item.configId, item)) ?_
    rw [List.map_map]
    exact ((hread.map fun item => item.configId).nodup_iff).mpr t.nodup_configIds
  intro key item
  rw [readGvmTaskGroup, OrderedArray.get?_set]
  by_cases hkey : key = allNvtsItem.configId
  · subst hkey
    rw [if_pos rfl]
    constructor
    · exact fun h => Or.inl ⟨(Option.some.inj h).symm, rfl⟩
    · rintro (⟨rfl, -⟩ | ⟨g, hg, hid, -⟩)
      · rfl
      · exact absurd hid.symm (policyIndex_ne_allNvts (t.range g hg).2)
  · rw [if_neg hkey, OrderedArray.get?_eq_some_iff, hdata, List.mem_map]
    constructor
    · rintro ⟨i, hi, heq⟩
      obtain ⟨g, hg, rfl⟩ := List.mem_map.mp (hread.mem_iff.mp hi)
      obtain ⟨rfl, rfl⟩ := Prod.mk.inj heq
      exact Or.inr ⟨g, hg, rfl, rfl⟩
    · rintro (⟨-, heq⟩ | ⟨g, hg, rfl, rfl⟩)
      · exact absurd heq hkey
      · exact ⟨policyItem g, hread.mem_iff.mpr (List.mem_map_of_mem hg), rfl⟩

/-- The files describe the groups and their items, and the groups are read back from them, exactly
when the texts of every group stand for themselves and its items have distinct ids and name the
group by its key. -/
theorem policyFiles_faithful_iff (hoids : ∀ item ∈ items, IsOid item.oid)
    (hopen : ∀ g ∈ t.groups, fopen (policyFile (.int g.1)) = true) {listing : List Text}
    (hlisting : listing.Perm (".".toList :: "..".toList :: (policyFiles fopen t items).keys)) :
    FilesDescribe t items (policyFiles fopen t items) ∧
        ReadsBack t (readGvmTaskGroup (policyFiles fopen t items) listing) ↔
      ∀ g ∈ t.groups, FaithfulGroup items g := by
  have hgroup : ∀ g ∈ t.groups,
      Describes (groupFile items g).2 g.2.name g.2.desc ((itemsOf items g.1).map OidNvt.oid) ↔
        FaithfulGroup items g := by
    intro g hg
    have hselected : ∀ oid ∈ nvtOids ((divideNvtByGroup items).get? (.int g.1)), IsOid oid := by
      intro oid hoid
      obtain ⟨item, hitem, rfl⟩ := mem_nvtOids hoid
      exact hoids item hitem
    rw [groupFile, describes_configText_iff isQuotable_policyIndex (t.lines g hg).1 (t.lines g hg).2
      hselected, nvtOids_perm_iff]
    exact ⟨fun ⟨hname, hdesc, hids, hkeys⟩ => ⟨hname, hdesc, hids, hkeys⟩,
      fun h => ⟨h.name, h.desc, h.ids, h.group⟩⟩
  rw [and_iff_left (readsBack_policyFiles hopen hlisting), FilesDescribe,
    policyFiles_entries items hopen, List.forall₂_map_right_iff, List.forall₂_same]
  exact forall₂_congr fun g hg => by
    rw [← hgroup g hg]
    exact and_iff_right rfl

end Files

/-- An item of group 30, whose file has the given id and oid. -/
def sampleOidNvt (id oid : String) : OidNvt where
  nvt :=
    { id := id.toList, group := .str "30".toList, level := .str "7".toList, name := "Scan".toList,
      comment := [], affect := [], cve := [], cnvd := [], cnnvd := [], naslPath := "a.nasl".toList,
      reference := [], bugtraq := [], grade := ['高'], referenceNumber := [] }
  oid := oid.toList

def sampleOidNvts : List OidNvt :=
  [sampleOidNvt "100000001" "1.3.6.1.4.1.25623.1.0.10",
    sampleOidNvt "100000002" "1.3.6.1.4.1.25623.1.0.11"]

/-- A table of two groups, the second one without items. -/
def sampleGroups : GroupTable where
  groups := [(30, ⟨"Web".toList, "Servers (all)".toList⟩), (4, ⟨"Mail".toList, []⟩)]
  nodup := by decide
  range := by decide
  lines := by decide

theorem policyFiles_faithful_sample :
    FilesDescribe sampleGroups sampleOidNvts (policyFiles (fun _ => true) sampleGroups sampleOidNvts) ∧
      ReadsBack sampleGroups (readGvmTaskGroup
        (policyFiles (fun _ => true) sampleGroups sampleOidNvts)
        (".".toList :: "..".toList ::
          (policyFiles (fun _ => true) sampleGroups sampleOidNvts).keys)) := by
  have hall : ∀ item ∈ sampleOidNvts, item.oid.all (fun c => c.isDigit || c == '.') = true := by
    decide
  have hoids : ∀ item ∈ sampleOidNvts, IsOid item.oid := fun item hitem c hc => by
    simpa using List.all_eq_true.mp (hall item hitem) c hc
  refine (policyFiles_faithful_iff hoids (fun _ _ => rfl) (List.Perm.refl _)).mpr ?_
  intro g hg
  rcases List.mem_pair.mp hg with rfl | rfl
  · exact ⟨by decide, by decide, by decide, by decide⟩
  · exact ⟨by decide, by decide, by decide, by decide⟩

/-- An ampersand in a name does not stand for itself. -/
example : ¬Xml.PlainText "R&D".toList := by decide

end OpenvasTool
