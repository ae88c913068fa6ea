import OpenvasTool.Posix.CString
import OpenvasTool.Posix.Preg
import OpenvasTool.Support.OrderedArray
import Mathlib.Data.Bool.AllAny

/-!
# The vulnerability catalogue

`read_nvt_file` (`vuln_parse.php`) cuts the catalogue at its lines `end` and looks up
every field of a record with a pattern of its own.
-/

namespace OpenvasTool

open Posix Support

/-! ### Values of the script -/

/-- A number that stands in the script, or a text. -/
inductive PhpValue where
  | int (n : ℕ) : PhpValue
  | str (s : Text) : PhpValue
  deriving DecidableEq

/-- A key of an array. -/
inductive PhpKey where
  | int (n : ℕ) : PhpKey
  | str (s : Text) : PhpKey
  deriving DecidableEq

/-- A text without sign as a key: the number that it denotes in decimal notation, if it does. -/
def PhpKey.ofText (s : Text) : PhpKey :=
  if decimal (leadingDigits s) = s ∧ leadingDigits s < 2 ^ 63 then .int (leadingDigits s)
  else .str s

theorem PhpKey.ofText_injective : Function.Injective PhpKey.ofText := by
  intro s t h
  unfold PhpKey.ofText at h
  split at h
  · rename_i hs
    split at h
    · rename_i ht
      have hvalue : leadingDigits s = leadingDigits t := PhpKey.int.inj h
      rw [← hs.1, ← ht.1, hvalue]
    · simp at h
  · split at h
    · simp at h
    · exact PhpKey.str.inj h

/-- The characters that `trim` removes. -/
def isTrimmed (c : Char) : Bool := ['\x00', '\t', '\n', '\x0b', '\r', ' '].contains c

/-- `trim`. -/
def trim (s : Text) : Text := (s.dropWhile isTrimmed).rdropWhile isTrimmed

/-- A text as a condition: empty texts and `"0"` count as false. -/
def truthy (s : Text) : Bool := s != [] && s != ['0']

/-! ### Reading the catalogue -/

/-- An item of the catalogue. -/
structure NvtItem where
  id : Text
  group : PhpValue
  level : PhpValue
  name : Text
  comment : Text
  affect : Text
  cve : Text
  cnvd : Text
  cnnvd : Text
  naslPath : Text
  reference : Text
  bugtraq : Text
  grade : Text
  referenceNumber : Text

/-- The trimmed group of `/(\b|^)key\s?=(.*)/`. -/
def pregText (key content : Text) : Option Text :=
  (Preg.search key Preg.restOfLine none content).map trim

/-- The grade of a level; `less` is the comparison of a value with a number. -/
def gradeOf (less : PhpValue → ℕ → Bool) (level : PhpValue) : Text :=
  if less level 3 then ['低'] else if less level 6 then ['中'] else ['高']

/-- One step of building `$reference_number`. -/
def appendNumber (numbers number : Text) : Text :=
  if truthy number then
    if truthy numbers then numbers ++ ',' :: number else numbers ++ number
  else numbers

/-- The group of an item, 0 by default. -/
def readGroup (content : Text) : PhpValue :=
  match Preg.search "group".toList (Preg.digits 1) none content with
  | some digits => .str digits
  | none => .int 0

/-- The level of an item, 100 by default. -/
def readLevel (content : Text) : PhpValue :=
  match pregText "level".toList content with
  | some level => .str level
  | none => .int 100

/-- The item of one record; a record without id is skipped. -/
def readNvt (less : PhpValue → ℕ → Bool) (content : Text) : Option NvtItem :=
  match Preg.search "id".toList (Preg.digits 8) none content with
  | none => none
  | some id =>
      let group := readGroup content
      let level := readLevel content
      let name := (pregText "name".toList content).getD []
      let comment := (pregText "comment".toList content).getD []
      let affect := (pregText "affect".toList content).getD []
      let cve := (pregText "CVE".toList content).getD []
      let cnvd := (pregText "CNVD".toList content).getD []
      let cnnvd := (pregText "CNNVD".toList content).getD []
      let naslPath := (pregText "sourde_path".toList content).getD []
      let reference := (pregText "reference".toList content).getD []
      let bugtraq := (pregText "Bugtraq".toList content).getD []
      some
        { id := id
          group := group
          level := level
          name := name
          comment := comment
          affect := affect
          cve := cve
          cnvd := cnvd
          cnnvd := cnnvd
          naslPath := naslPath
          reference := reference
          -- the source assigns the reference here
          bugtraq := reference
          grade := gradeOf less level
          -- the first number is appended to the empty text without a test
          referenceNumber := [cve, cnvd, cnnvd, bugtraq].foldl appendNumber [] }

/-- `/\n\s?end\s*\n/`. -/
def endMark : Text → Option Text
  | [] => none
  | c :: s =>
      if c = '\n' ∧ "end".toList <+: Preg.optSpace s then
        Preg.skipBlankLines ((Preg.optSpace s).drop 3)
      else none

/-- `read_nvt_file`; `none` is a path that is not a file. -/
def readNvtFile (less : PhpValue → ℕ → Bool) : Option Text → OrderedArray PhpKey NvtItem
  | none => .empty
  | some ctx =>
      (Preg.split endMark ctx.length ctx).foldl (fun data content =>
        match readNvt less content with
        | some item => data.set (.ofText item.id) item
        | none => data) .empty

/-! ### Catalogues -/

/-- The keys of a record. -/
def catalogueKeys : List Text :=
  ["id", "group", "level", "name", "comment", "affect", "CVE", "CNVD", "CNNVD", "sourde_path",
    "reference", "Bugtraq"].map String.toList

/-- The keys of the numbers under which a vulnerability is known elsewhere. -/
def numberKeys : List Text := ["CVE", "CNVD", "CNNVD", "Bugtraq"].map String.toList

/-- A record: lines `key = value`, one of them for the id. -/
structure NvtRecord where
  fields : List (Text × Text)
  id : Text
  readable : Preg.Readable catalogueKeys fields
  single : ∀ key ∈ catalogueKeys, (fields.map Prod.fst).count key ≤ 1
  idLine : fields.lookup "id".toList = some id
  idDigits : ∀ c ∈ id, c.isDigit = true
  idLength : 8 ≤ id.length

/-- Records separated by lines `end`, and what stands behind the last one. -/
def catalogueText (recs : List NvtRecord) (ending : Text) : Text :=
  "\nend\n".toList.intercalate (recs.map fun r => Preg.block r.fields) ++ ending

/-- The last record may end with a line break, and with a line `end` of its own. -/
def catalogueEndings : List Text := ["", "\n", "\nend", "\nend\n"].map String.toList

namespace NvtRecord

/-- The trimmed value on the record's own line of a key. -/
def text? (r : NvtRecord) (key : Text) : Option Text := (r.fields.lookup key).map trim

/-- The same, empty when there is no such line. -/
def text (r : NvtRecord) (key : Text) : Text := (r.text? key).getD []

/-- The item has the values of the record, and the defaults where it has none. -/
structure ReadAs (r : NvtRecord) (item : NvtItem) : Prop where
  id : item.id = r.id
  group : item.group = (r.text? "group".toList).elim (.int 0) .str
  level : item.level = (r.text? "level".toList).elim (.int 100) .str
  name : item.name = r.text "name".toList
  comment : item.comment = r.text "comment".toList
  affect : item.affect = r.text "affect".toList
  cve : item.cve = r.text "CVE".toList
  cnvd : item.cnvd = r.text "CNVD".toList
  cnnvd : item.cnnvd = r.text "CNNVD".toList
  naslPath : item.naslPath = r.text "sourde_path".toList
  reference : item.reference = r.text "reference".toList
  bugtraq : item.bugtraq = r.text "Bugtraq".toList
  referenceNumber : item.referenceNumber =
    [','].intercalate ((numberKeys.map r.text).filter (· ≠ []))

/-- The condition under which the record is read as it stands: its group is a number right behind
the blank, the number of Bugtraq is the reference, and no number is the text `0`. -/
structure ReadExactly (r : NvtRecord) : Prop where
  group : ∀ v, r.fields.lookup "group".toList = some v →
    v.head?.any Char.isDigit = true ∧ ∀ c ∈ trim v, c.isDigit = true
  bugtraq : r.text "Bugtraq".toList = r.text "reference".toList
  numbers : ∀ key ∈ numberKeys, r.text key ≠ ['0']

end NvtRecord

/-- One item for each record, under its id. -/
def FieldByField (recs : List NvtRecord) (data : OrderedArray PhpKey NvtItem) : Prop :=
  List.Forall₂ (fun r e => e.1 = PhpKey.ofText r.id ∧ r.ReadAs e.2) recs data.entries

/-! ### Trimming -/

theorem trim_cons_blank (v : Text) : trim (' ' :: v) = trim v := by
  rw [trim, trim, List.dropWhile_cons_of_pos (by decide)]

/-- A text is its trimmed part and trimmed characters around it. -/
theorem mem_of_trim {v : Text} {c : Char} (hc : c ∈ v) : isTrimmed c = true ∨ c ∈ trim v := by
  rw [← List.takeWhile_append_dropWhile (p := isTrimmed) (l := v), List.mem_append] at hc
  rcases hc with hc | hc
  · exact Or.inl (List.mem_takeWhile_imp hc)
  · rw [← List.rdropWhile_append_rtakeWhile (p := isTrimmed) (l := v.dropWhile isTrimmed),
      List.mem_append] at hc
    rcases hc with hc | hc
    · exact Or.inr hc
    · exact Or.inl (List.mem_rtakeWhile_imp hc)

theorem not_isDigit_of_isTrimmed {c : Char} (h : isTrimmed c = true) : c.isDigit = false := by
  simp only [isTrimmed, List.contains_eq_mem, decide_eq_true_eq, List.mem_cons, List.not_mem_nil,
    or_false] at h
  rcases h with rfl | rfl | rfl | rfl | rfl | rfl <;> decide

/-- The digits at the start of a value are its trimmed text exactly when it is a number that starts
there. -/
theorem takeWhile_isDigit_eq_trim {v : Text} (hfirst : v.head?.any Char.isDigit = true)
    (hdigits : ∀ c ∈ trim v, c.isDigit = true) : v.takeWhile Char.isDigit = trim v := by
  have hdrop : v.dropWhile isTrimmed = v := by
    cases v with
    | nil => rfl
    | cons c v =>
      have hc : c.isDigit = true := by simpa using hfirst
      apply List.dropWhile_cons_of_neg
      intro htrim
      simp [not_isDigit_of_isTrimmed htrim] at hc
  have hsplit : v = trim v ++ v.rtakeWhile isTrimmed := by
    rw [trim, hdrop, List.rdropWhile_append_rtakeWhile]
  have hrest : (v.rtakeWhile isTrimmed).takeWhile Char.isDigit = [] := by
    rw [List.takeWhile_eq_nil_iff]
    intro hlen hdigit
    have hmem := List.mem_rtakeWhile_imp (List.getElem_mem hlen)
    simp [not_isDigit_of_isTrimmed hmem] at hdigit
  conv_lhs => rw [hsplit]
  rw [List.takeWhile_append_of_pos hdigits, hrest, List.append_nil]

/-! ### The numbers -/

/-- What the kept texts and their commas take. -/
def joinedLength (xs : List Text) : ℕ := (xs.map fun x => x.length + 1).sum

theorem length_intercalate_comma (xs : List Text) :
    ([','].intercalate xs).length = joinedLength xs - 1 := by
  induction xs with
  | nil => rfl
  | cons x xs ih =>
    cases xs with
    | nil => simp [joinedLength]
    | cons y ys =>
      have hcons : [','].intercalate (x :: y :: ys) = x ++ ',' :: [','].intercalate (y :: ys) := by
        simp
      rw [hcons, List.length_append, List.length_cons, ih]
      simp only [joinedLength, List.map_cons, List.sum_cons]
      omega

theorem intercalate_comma_concat {xs : List Text} (hne : xs ≠ []) (x : Text) :
    [','].intercalate (xs ++ [x]) = [','].intercalate xs ++ ',' :: x := by
  induction xs with
  | nil => exact absurd rfl hne
  | cons y xs ih =>
    cases xs with
    | nil => simp
    | cons z zs =>
      have hih := ih (by simp)
      simp only [List.cons_append, List.intercalate_cons_cons] at hih ⊢
      rw [hih]
      simp

theorem truthy_iff {s : Text} : truthy s = true ↔ s ≠ [] ∧ s ≠ ['0'] := by
  simp [truthy]

theorem truthy_intercalate {xs : List Text} (hne : xs ≠ []) (h : ∀ x ∈ xs, truthy x = true) :
    truthy ([','].intercalate xs) = true := by
  obtain ⟨x, xs, rfl⟩ := List.exists_cons_of_ne_nil hne
  have hx := truthy_iff.mp (h x (by simp))
  cases xs with
  | nil => simpa [truthy_iff] using hx
  | cons y ys =>
    obtain ⟨c, x, rfl⟩ := List.exists_cons_of_ne_nil hx.1
    rw [truthy_iff]
    constructor
    · simp
    · intro heq
      have hlen := congrArg List.length heq
      simp at hlen

/-- The numbers are joined, those that count as false left out. -/
theorem foldl_appendNumber {numbers : List Text} {xs : List Text}
    (h : ∀ x ∈ xs, truthy x = true) :
    numbers.foldl appendNumber ([','].intercalate xs) =
      [','].intercalate (xs ++ numbers.filter fun x => truthy x) := by
  induction numbers generalizing xs with
  | nil => simp
  | cons number numbers ih =>
    rw [List.foldl_cons]
    by_cases hnumber : truthy number = true
    · have hstep : appendNumber ([','].intercalate xs) number =
          [','].intercalate (xs ++ [number]) := by
        rw [appendNumber, if_pos hnumber]
        by_cases hxs : xs = []
        · subst hxs
          simp [truthy]
        · rw [if_pos (truthy_intercalate hxs h), intercalate_comma_concat hxs]
      have hall : ∀ x ∈ xs ++ [number], truthy x = true := by
        intro x hx
        rcases List.mem_append.mp hx with hx | hx
        · exact h x hx
        · exact List.mem_singleton.mp hx ▸ hnumber
      rw [hstep, ih hall, List.filter_cons_of_pos (by simpa using hnumber)]
      simp
    · rw [appendNumber, if_neg hnumber, ih h, List.filter_cons_of_neg (by simpa using hnumber)]

theorem joinedLength_filter (numbers : List Text) :
    joinedLength (numbers.filter (· ≠ [])) =
      joinedLength (numbers.filter fun x => truthy x) + 2 * numbers.count ['0'] := by
  induction numbers with
  | nil => rfl
  | cons number numbers ih =>
    by_cases hnil : number = []
    · subst hnil
      simpa [truthy] using ih
    · by_cases hzero : number = ['0']
      · subst hzero
        rw [List.filter_cons_of_pos (by simp), List.filter_cons_of_neg (by decide),
          List.count_cons_self]
        simp only [joinedLength, List.map_cons, List.sum_cons, List.length_singleton] at ih ⊢
        omega
      · have htruthy : truthy number = true := truthy_iff.mpr ⟨hnil, hzero⟩
        rw [List.filter_cons_of_pos (by simpa using hnil),
          List.filter_cons_of_pos (by simpa using htruthy), List.count_cons_of_ne hzero]
        simp only [joinedLength, List.map_cons, List.sum_cons] at ih ⊢
        omega

/-- All numbers that are not empty are joined exactly when none of them is the text `0`. -/
theorem foldl_appendNumber_eq_iff (numbers : List Text) :
    numbers.foldl appendNumber [] = [','].intercalate (numbers.filter (· ≠ [])) ↔
      ['0'] ∉ numbers := by
  have hfold : numbers.foldl appendNumber ([','].intercalate []) =
      [','].intercalate ([] ++ numbers.filter fun x => truthy x) := foldl_appendNumber (by simp)
  rw [List.intercalate_nil, List.nil_append] at hfold
  rw [hfold]
  constructor
  · intro heq hmem
    have hlen := congrArg List.length heq
    rw [length_intercalate_comma, length_intercalate_comma, joinedLength_filter] at hlen
    have hpos := List.count_pos_iff.mpr hmem
    omega
  · intro hfree
    have hfilter : numbers.filter (fun x => truthy x) = numbers.filter (· ≠ []) := by
      apply List.filter_congr
      intro x hx
      have hne : x ≠ ['0'] := fun heq => hfree (heq ▸ hx)
      rw [Bool.eq_iff_iff, truthy_iff, decide_eq_true_eq]
      exact ⟨And.left, fun hnil => ⟨hnil, hne⟩⟩
    rw [hfilter]

/-! ### One record -/

section Record

variable (r : NvtRecord) {key s : Text}

/-- What follows the lines of a record in its piece of the catalogue. -/
def RecordEnd (s : Text) : Prop := Preg.LineEnd s ∧ '=' ∉ s

theorem isKey_of_mem_catalogueKeys {key : Text} (h : key ∈ catalogueKeys) : Preg.IsKey key :=
  List.all_iff_forall_prop.mp (by decide) key h

theorem NvtRecord.fields_ne_nil : r.fields ≠ [] := by
  intro h
  have hid := r.idLine
  simp [h] at hid

/-- A field is the trimmed value on its own line. -/
theorem pregText_block (hkey : key ∈ catalogueKeys) (hs : RecordEnd s) :
    pregText key (Preg.block r.fields ++ s) = r.text? key := by
  have hword := isKey_of_mem_catalogueKeys hkey
  rw [pregText, Preg.search_block hword r.fields_ne_nil, NvtRecord.text?]
  cases hlookup : r.fields.lookup key with
  | none =>
    rw [Preg.search_lines_none r.readable hkey hword hlookup hs.1, Preg.search_eq_none hs.2]
  | some v =>
    obtain ⟨front, back, hfields, -⟩ := List.lookup_eq_some_iff.mp hlookup
    have hv : '\n' ∉ v := r.readable.line (key, v) (by simp [hfields])
    rw [Preg.search_lines_some r.readable hkey hword hlookup
      (fun rest hrest => Preg.restOfLine_value hv hrest) hs.1]
    simp [trim_cons_blank]

theorem search_id (hs : RecordEnd s) :
    Preg.search "id".toList (Preg.digits 8) none (Preg.block r.fields ++ s) = some r.id := by
  have hmem : "id".toList ∈ catalogueKeys := by decide
  have hword := isKey_of_mem_catalogueKeys hmem
  have hall : r.id.takeWhile Char.isDigit = r.id := List.takeWhile_eq_self_iff.mpr r.idDigits
  rw [Preg.search_block hword r.fields_ne_nil]
  apply Preg.search_lines_some r.readable hmem hword r.idLine _ hs.1
  intro rest hrest
  rw [Preg.digits_value 8 hrest, hall, if_pos r.idLength]

/-- The group is the trimmed value of its line exactly when this is a number right behind the
blank. -/
theorem search_group_iff (hs : RecordEnd s) {v : Text}
    (hlookup : r.fields.lookup "group".toList = some v) :
    Preg.search "group".toList (Preg.digits 1) none (Preg.block r.fields ++ s) = some (trim v) ↔
      v.head?.any Char.isDigit = true ∧ ∀ c ∈ trim v, c.isDigit = true := by
  have hmem : "group".toList ∈ catalogueKeys := by decide
  have hword := isKey_of_mem_catalogueKeys hmem
  rw [Preg.search_block hword r.fields_ne_nil]
  constructor
  · intro hfound
    obtain ⟨u, hu⟩ := Preg.exists_of_search hfound
    obtain ⟨hlen, hdigits⟩ := Preg.isDigit_of_digits hu
    refine ⟨?_, hdigits⟩
    -- otherwise the search fails on the line, and there is no other line for it
    by_contra hfirst
    have hnone : v.takeWhile Char.isDigit = [] := by
      cases v with
      | nil => rfl
      | cons c v => exact List.takeWhile_cons_of_neg (by simpa using hfirst)
    have hfree : Preg.mentions "group".toList v = false := by
      apply Preg.mentions_eq_false
      intro hmem
      rcases mem_of_trim hmem with htrim | htrim
      · exact absurd htrim (by decide)
      · exact absurd (hdigits _ htrim) (by decide)
    rw [Preg.search_lines_failed r.readable hmem hword (r.single _ hmem) hlookup
      (fun rest hrest => by rw [Preg.digits_value 1 hrest, hnone]; rfl) hfree hs.1,
      Preg.search_eq_none hs.2] at hfound
    simp at hfound
  · rintro ⟨hfirst, hdigits⟩
    have htake := takeWhile_isDigit_eq_trim hfirst hdigits
    have hlen : 1 ≤ (v.takeWhile Char.isDigit).length := by
      cases v with
      | nil => simp at hfirst
      | cons c v =>
        rw [List.takeWhile_cons_of_pos (by simpa using hfirst)]
        simp
    apply Preg.search_lines_some r.readable hmem hword hlookup _ hs.1
    intro rest hrest
    rw [Preg.digits_value 1 hrest, if_pos hlen, htake]

theorem readGroup_block_iff (hs : RecordEnd s) :
    readGroup (Preg.block r.fields ++ s) = (r.text? "group".toList).elim (.int 0) .str ↔
      ∀ v, r.fields.lookup "group".toList = some v →
        v.head?.any Char.isDigit = true ∧ ∀ c ∈ trim v, c.isDigit = true := by
  rw [readGroup, NvtRecord.text?]
  cases hlookup : r.fields.lookup "group".toList with
  | none =>
    have hmem : "group".toList ∈ catalogueKeys := by decide
    have hword := isKey_of_mem_catalogueKeys hmem
    rw [Preg.search_block hword r.fields_ne_nil,
      Preg.search_lines_none r.readable hmem hword hlookup hs.1, Preg.search_eq_none hs.2]
    simp
  | some v =>
    have hiff := search_group_iff r hs hlookup
    simp only [Option.map_some, Option.elim_some, Option.some.injEq, forall_eq']
    rw [← hiff]
    cases Preg.search "group".toList (Preg.digits 1) none (Preg.block r.fields ++ s) with
    | none => simp
    | some digits => simp

theorem readLevel_block (hs : RecordEnd s) :
    readLevel (Preg.block r.fields ++ s) = (r.text? "level".toList).elim (.int 100) .str := by
  rw [readLevel, pregText_block r (by decide) hs]
  cases r.text? "level".toList <;> rfl

/-- Every record gives an item, and the item has the values of the record exactly under its
condition. -/
theorem readNvt_block (less : PhpValue → ℕ → Bool) (hs : RecordEnd s) :
    ∃ item, readNvt less (Preg.block r.fields ++ s) = some item ∧ item.id = r.id ∧
      (r.ReadAs item ↔ r.ReadExactly) := by
  have htext : ∀ key ∈ catalogueKeys,
      (pregText key (Preg.block r.fields ++ s)).getD [] = r.text key := by
    intro key hkey
    rw [pregText_block r hkey hs]
    rfl
  have hnumbers := foldl_appendNumber_eq_iff (numberKeys.map r.text)
  refine ⟨_, by rw [readNvt, search_id r hs], rfl, ?_⟩
  rw [htext _ (by decide), htext _ (by decide), htext _ (by decide), htext _ (by decide),
    htext _ (by decide), htext _ (by decide), htext _ (by decide), htext _ (by decide),
    htext _ (by decide)]
  constructor
  · intro h
    refine ⟨(readGroup_block_iff r hs).mp h.group, h.bugtraq.symm, fun key hkey heq => ?_⟩
    exact hnumbers.mp h.referenceNumber (heq ▸ List.mem_map_of_mem hkey)
  · intro h
    refine ⟨rfl, (readGroup_block_iff r hs).mpr h.group, readLevel_block r hs, rfl, rfl, rfl, rfl,
      rfl, rfl, rfl, rfl, h.bugtraq.symm, hnumbers.mpr fun hmem => ?_⟩
    obtain ⟨key, hkey, heq⟩ := List.mem_map.mp hmem
    exact h.numbers key hkey heq

end Record

/-! ### Cutting the catalogue -/

theorem endMark_of_ne {c : Char} (hc : c ≠ '\n') (s : Text) : endMark (c :: s) = none := by
  simp [endMark, hc]

theorem optSpace_of_isWord {s : Text} (h : s.head?.any Preg.isWord = true) :
    Preg.optSpace s = s := by
  cases s with
  | nil => rfl
  | cons c s =>
    have hspace := Preg.isSpace_of_isWord (c := c) (by simpa using h)
    simp [Preg.optSpace, hspace]

/-- A line `key = value` is not a line `end`. -/
theorem endMark_assignment {f : Text × Text} (hf : Preg.IsKey f.1) (s : Text) :
    endMark ('\n' :: (Preg.assignment f ++ s)) = none := by
  have hshape : Preg.assignment f ++ s = f.1 ++ ' ' :: '=' :: ' ' :: (f.2 ++ s) := by
    simp [Preg.assignment]
  rw [endMark, optSpace_of_isWord (Preg.head?_assignment hf s), hshape]
  split
  · rename_i hend
    rcases List.prefix_or_prefix_of_prefix hend.2 (List.prefix_append f.1 _) with
      ⟨r, hr⟩ | ⟨r, hr⟩
    · have hdrop : (f.1 ++ ' ' :: '=' :: ' ' :: (f.2 ++ s)).drop 3 =
          r ++ ' ' :: '=' :: ' ' :: (f.2 ++ s) := by
        rw [← hr]
        rfl
      have htake : (r ++ ' ' :: '=' :: ' ' :: (f.2 ++ s)).takeWhile Preg.isSpace = [] ∨
          (r ++ ' ' :: '=' :: ' ' :: (f.2 ++ s)).takeWhile Preg.isSpace = [' '] := by
        cases r with
        | nil => exact Or.inr rfl
        | cons c r =>
          have hc : Preg.isWord c = true := hf.word_of_mem (by simp [← hr])
          left
          rw [List.cons_append, List.takeWhile_cons_of_neg (by simp [Preg.isSpace_of_isWord hc])]
      rw [hdrop, Preg.skipBlankLines]
      rcases htake with h | h <;> rw [h] <;> rfl
    · have hrest := hend.2
      rw [← hr, List.prefix_append_right_inj] at hrest
      cases r with
      | nil =>
        rw [List.append_nil] at hr
        rw [hr]
        rfl
      | cons c r =>
        have hc : c = ' ' := (List.cons_prefix_cons.mp hrest).1
        have hmem : ' ' ∈ "end".toList := by
          rw [← hr, hc]
          simp
        exact absurd hmem (by decide)
  · rfl

theorem findMark_lines {fields : List (Text × Text)} (hkeys : ∀ f ∈ fields, Preg.IsKey f.1)
    (hvalues : ∀ f ∈ fields, '\n' ∉ f.2) (s : Text) :
    Preg.findMark endMark (Preg.lines fields ++ s) =
      (Preg.findMark endMark s).map fun p => (Preg.lines fields ++ p.1, p.2) := by
  induction fields with
  | nil => simp [Preg.lines]
  | cons f fields ih =>
    have hf := hkeys f (by simp)
    have hline : '\n' ∉ Preg.assignment f := by
      have hkey := hf.not_mem (c := '\n') (by decide)
      have hvalue := hvalues f (by simp)
      simp [Preg.assignment, hkey, hvalue]
    rw [Preg.lines_cons, Preg.findMark_cons (endMark_assignment hf _),
      Preg.findMark_line (fun c u hc => endMark_of_ne hc u) hline,
      ih (fun g hg => hkeys g (by simp [hg])) (fun g hg => hvalues g (by simp [hg])),
      Option.map_map, Option.map_map]
    congr 1
    funext p
    simp [Preg.lines]

/-- The catalogue is not cut inside a record. -/
theorem findMark_block (r : NvtRecord) (s : Text) :
    Preg.findMark endMark (Preg.block r.fields ++ s) =
      (Preg.findMark endMark s).map fun p => (Preg.block r.fields ++ p.1, p.2) := by
  obtain ⟨f, fields, hfields⟩ := List.exists_cons_of_ne_nil r.fields_ne_nil
  have hkeys : ∀ g ∈ f :: fields, Preg.IsKey g.1 := hfields ▸ r.readable.key
  have hvalues : ∀ g ∈ f :: fields, '\n' ∉ g.2 := hfields ▸ r.readable.line
  have hline : '\n' ∉ Preg.assignment f := by
    have hkey := (hkeys f (by simp)).not_mem (c := '\n') (by decide)
    have hvalue := hvalues f (by simp)
    simp [Preg.assignment, hkey, hvalue]
  rw [hfields, Preg.block_cons, List.append_assoc,
    Preg.findMark_line (fun c u hc => endMark_of_ne hc u) hline,
    findMark_lines (fun g hg => hkeys g (by simp [hg])) (fun g hg => hvalues g (by simp [hg])),
    Option.map_map]
  congr 1
  funext p
  simp

/-- A line `end` in front of a word, or of nothing, is a mark. -/
theorem findMark_end {s : Text} (hs : s.head?.all (fun c => !Preg.isSpace c) = true) :
    Preg.findMark endMark ("\nend\n".toList ++ s) = some ([], s) := by
  apply Preg.findMark_of_mark
  have htake : s.takeWhile Preg.isSpace = [] := by
    cases s with
    | nil => rfl
    | cons c s => exact List.takeWhile_cons_of_neg (by simpa using hs)
  have hdrop : s.dropWhile Preg.isSpace = s := by
    cases s with
    | nil => rfl
    | cons c s => exact List.dropWhile_cons_of_neg (by simpa using hs)
  have hskip : Preg.skipBlankLines ('\n' :: s) = some s := by
    rw [Preg.skipBlankLines, List.takeWhile_cons_of_pos (by decide), htake,
      List.dropWhile_cons_of_pos (by decide), hdrop]
    rfl
  have hshape : "\nend\n".toList ++ s = '\n' :: ("end".toList ++ '\n' :: s) := rfl
  rw [hshape, endMark, optSpace_of_isWord rfl, if_pos ⟨rfl, List.prefix_append _ _⟩]
  exact hskip

theorem head?_block (r : NvtRecord) (s : Text) :
    (Preg.block r.fields ++ s).head?.any Preg.isWord = true := by
  obtain ⟨f, fields, hfields⟩ := List.exists_cons_of_ne_nil r.fields_ne_nil
  rw [hfields, Preg.block_cons, List.append_assoc]
  exact Preg.head?_assignment (r.readable.key f (by simp [hfields])) _

theorem catalogueText_cons_cons (r r' : NvtRecord) (recs : List NvtRecord) (ending : Text) :
    catalogueText (r :: r' :: recs) ending =
      Preg.block r.fields ++ ("\nend\n".toList ++ catalogueText (r' :: recs) ending) := by
  simp [catalogueText]

theorem catalogueText_singleton (r : NvtRecord) (ending : Text) :
    catalogueText [r] ending = Preg.block r.fields ++ ending := by
  simp [catalogueText]

/-- Behind the last record there is at most one more mark, at the very end. -/
theorem findMark_ending {ending : Text} (h : ending ∈ catalogueEndings) :
    Preg.findMark endMark ending = none ∧ RecordEnd ending ∨ ending = "\nend\n".toList := by
  simp only [catalogueEndings, List.map_cons, List.map_nil, List.mem_cons, List.not_mem_nil,
    or_false] at h
  rcases h with rfl | rfl | rfl | rfl
  · exact Or.inl ⟨by decide, Preg.LineEnd.nil, by decide⟩
  · exact Or.inl ⟨by decide, Or.inr ⟨[], rfl, by decide⟩, by decide⟩
  · exact Or.inl ⟨by decide, Or.inr ⟨"end".toList, rfl, by decide⟩, by decide⟩
  · exact Or.inr rfl

/-- The pieces of a catalogue are its records; what else there is has no equals sign. -/
theorem split_catalogueText {ending : Text} (hending : ending ∈ catalogueEndings)
    (recs : List NvtRecord) {n : ℕ} (hn : recs.length ≤ n) :
    ∃ pieces rest, Preg.split endMark n (catalogueText recs ending) = pieces ++ rest ∧
      List.Forall₂ (fun r piece => ∃ s, RecordEnd s ∧ piece = Preg.block r.fields ++ s)
        recs pieces ∧
      ∀ piece ∈ rest, '=' ∉ piece := by
  induction recs generalizing n with
  | nil =>
    refine ⟨[], _, rfl, .nil, ?_⟩
    rw [show catalogueText [] ending = ending by simp [catalogueText]]
    rcases findMark_ending hending with ⟨hnone, hend⟩ | rfl
    · cases n <;> simpa [Preg.split, hnone] using hend.2
    · have hnil : ∀ m, Preg.split endMark m [] = [[]] := by
        intro m
        cases m <;> rfl
      cases n with
      | zero => simp [Preg.split]
      | succ n =>
        have hmark := findMark_end (s := []) rfl
        rw [List.append_nil] at hmark
        rw [Preg.split, hmark]
        show ∀ piece ∈ [] :: Preg.split endMark n [], '=' ∉ piece
        simp [hnil]
  | cons r recs ih =>
    obtain ⟨n, rfl⟩ : ∃ m, n = m + 1 := ⟨n - 1, by simp at hn; omega⟩
    have hplain : RecordEnd [] := ⟨Preg.LineEnd.nil, by simp⟩
    cases recs with
    | nil =>
      rw [catalogueText_singleton, Preg.split, findMark_block]
      rcases findMark_ending hending with ⟨hnone, hend⟩ | rfl
      · rw [hnone]
        exact ⟨[_], [], rfl, .cons ⟨ending, hend, rfl⟩ .nil, by simp⟩
      · have hmark := findMark_end (s := []) rfl
        rw [List.append_nil] at hmark
        rw [hmark]
        have hnil : Preg.split endMark n [] = [[]] := by cases n <;> rfl
        refine ⟨[Preg.block r.fields], [[]], ?_, .cons ⟨[], hplain, by simp⟩ .nil, by simp⟩
        simp [hnil]
    | cons r' recs =>
      have hhead : (catalogueText (r' :: recs) ending).head?.all (fun c => !Preg.isSpace c) =
          true := by
        have hword : (catalogueText (r' :: recs) ending).head?.any Preg.isWord = true := by
          cases recs with
          | nil => rw [catalogueText_singleton]; exact head?_block r' _
          | cons r'' recs => rw [catalogueText_cons_cons]; exact head?_block r' _
        cases hc : (catalogueText (r' :: recs) ending).head? with
        | none => rfl
        | some c =>
          rw [hc] at hword
          simp [Preg.isSpace_of_isWord (c := c) (by simpa using hword)]
      obtain ⟨pieces, rest, hsplit, hpieces, hrest⟩ := ih (n := n) (by simpa using hn)
      refine ⟨Preg.block r.fields :: pieces, rest, ?_, .cons ⟨[], hplain, by simp⟩ hpieces, hrest⟩
      rw [catalogueText_cons_cons, Preg.split, findMark_block, findMark_end hhead]
      simp [hsplit]

theorem length_le_catalogueText (recs : List NvtRecord) (ending : Text) :
    recs.length ≤ (catalogueText recs ending).length := by
  induction recs with
  | nil => simp
  | cons r recs ih =>
    cases recs with
    | nil =>
      rw [catalogueText_singleton]
      cases htext : Preg.block r.fields ++ ending with
      | nil =>
        have hword := head?_block r ending
        simp [htext] at hword
      | cons c text => simp
    | cons r' recs =>
      rw [catalogueText_cons_cons, List.length_append, List.length_append]
      have hmark : "\nend\n".toList.length = 5 := rfl
      simp only [List.length_cons] at ih ⊢
      omega

/-! ### The items -/

theorem readNvt_eq_none (less : PhpValue → ℕ → Bool) {content : Text} (h : '=' ∉ content) :
    readNvt less content = none := by
  rw [readNvt, Preg.search_eq_none h]

theorem foldl_readNvt (less : PhpValue → ℕ → Bool) (contents : List Text)
    (data : OrderedArray PhpKey NvtItem) :
    (contents.foldl (fun data content =>
      match readNvt less content with
      | some item => data.set (.ofText item.id) item
      | none => data) data) =
        ((contents.filterMap (readNvt less)).map fun item => (PhpKey.ofText item.id, item)).foldl
          (fun data e => data.set e.1 e.2) data := by
  induction contents generalizing data with
  | nil => rfl
  | cons content contents ih =>
    rw [List.foldl_cons, ih, List.filterMap_cons]
    cases readNvt less content <;> rfl

/-- The items of the pieces are those of the records. -/
theorem forall₂_items (less : PhpValue → ℕ → Bool) {recs : List NvtRecord} {pieces : List Text}
    (h : List.Forall₂ (fun r piece => ∃ s, RecordEnd s ∧ piece = Preg.block r.fields ++ s)
      recs pieces) :
    List.Forall₂ (fun r item => item.id = r.id ∧ (r.ReadAs item ↔ r.ReadExactly)) recs
      (pieces.filterMap (readNvt less)) := by
  induction h with
  | nil => exact .nil
  | @cons r piece recs pieces hpiece _ ih =>
    obtain ⟨s, hs, rfl⟩ := hpiece
    obtain ⟨item, hitem, hid, hiff⟩ := readNvt_block r less hs
    rw [List.filterMap_cons_some hitem]
    exact .cons ⟨hid, hiff⟩ ih

theorem map_id_items {recs : List NvtRecord} {items : List NvtItem}
    (h : List.Forall₂ (fun r item => item.id = r.id ∧ (r.ReadAs item ↔ r.ReadExactly))
      recs items) : items.map NvtItem.id = recs.map NvtRecord.id := by
  induction h with
  | nil => rfl
  | cons hhead _ ih => rw [List.map_cons, List.map_cons, hhead.1, ih]

/-- A catalogue gives one item for each record, under its id and in its order. -/
theorem readNvtFile_items (less : PhpValue → ℕ → Bool) {recs : List NvtRecord}
    (hids : (recs.map NvtRecord.id).Nodup) {ending : Text} (hending : ending ∈ catalogueEndings) :
    ∃ items, (readNvtFile less (some (catalogueText recs ending))).entries =
        items.map (fun item => (PhpKey.ofText item.id, item)) ∧
      List.Forall₂ (fun r item => item.id = r.id ∧ (r.ReadAs item ↔ r.ReadExactly)) recs items := by
  obtain ⟨pieces, rest, hsplit, hpieces, hrest⟩ :=
    split_catalogueText hending recs (length_le_catalogueText recs ending)
  have hitems := forall₂_items less hpieces
  have hnone : rest.filterMap (readNvt less) = [] :=
    List.filterMap_eq_nil_iff.mpr fun piece hpiece => readNvt_eq_none less (hrest piece hpiece)
  refine ⟨pieces.filterMap (readNvt less), ?_, hitems⟩
  rw [readNvtFile, foldl_readNvt, hsplit, List.filterMap_append, hnone, List.append_nil,
    OrderedArray.entries_foldl_set]
  · rfl
  · rw [List.map_map, show Prod.fst ∘ (fun item : NvtItem => (PhpKey.ofText item.id, item)) =
      PhpKey.ofText ∘ NvtItem.id from rfl, ← List.map_map, map_id_items hitems]
    exact hids.map PhpKey.ofText_injective
  · exact fun _ _ => List.not_mem_nil

/-- **The catalogue is read field by field.** A catalogue of records with distinct ids gives one item
for each record, under its id, with the trimmed values of the record's own lines, exactly when every
record has the number of Bugtraq as its reference, a plain number as its group and no number `0`. -/
theorem readNvtFile_fieldByField_iff (less : PhpValue → ℕ → Bool) {recs : List NvtRecord}
    (hids : (recs.map NvtRecord.id).Nodup) {ending : Text} (hending : ending ∈ catalogueEndings) :
    FieldByField recs (readNvtFile less (some (catalogueText recs ending))) ↔
      ∀ r ∈ recs, r.ReadExactly := by
  obtain ⟨items, hentries, hitems⟩ := readNvtFile_items less hids hending
  rw [FieldByField, hentries]
  clear hentries hids
  induction hitems with
  | nil => simp
  | cons hhead _ ih =>
    rw [List.map_cons, List.forall₂_cons, ih, List.forall_mem_cons, hhead.1, hhead.2]
    simp

/-- Comparison of a value with a number, for numbers without sign. -/
def sampleLess : PhpValue → ℕ → Bool
  | .int m, n => m < n
  | .str s, n => leadingDigits s < n

/-- Two references and a number. -/
def sampleNvtFields (bugtraq : String) : List (Text × Text) :=
  [("id", "100000001"), ("group", "3"), ("name", " Weak password "), ("CVE", "CVE-2016-0001"),
    ("solution", "see vendor"), ("reference", "http://a"), ("Bugtraq", bugtraq)].map fun f =>
      (f.1.toList, f.2.toList)

/-- A record whose number of Bugtraq is its reference. -/
def sampleNvt : NvtRecord where
  fields := sampleNvtFields "http://a"
  id := "100000001".toList
  readable := ⟨by decide, by decide, by decide +kernel⟩
  single := by decide
  idLine := by decide
  idDigits := List.all_iff_forall_prop.mp (by decide)
  idLength := by decide

/-- A record with a number of its own. -/
def sampleBugtraqNvt : NvtRecord where
  fields := sampleNvtFields "91234"
  id := "100000001".toList
  readable := ⟨by decide, by decide, by decide +kernel⟩
  single := by decide
  idLine := by decide
  idDigits := List.all_iff_forall_prop.mp (by decide)
  idLength := by decide

theorem readNvtFile_fieldByField_sample :
    FieldByField [sampleNvt]
      (readNvtFile sampleLess (some (catalogueText [sampleNvt] "\nend\n".toList))) := by
  refine (readNvtFile_fieldByField_iff sampleLess (by simp) (by decide)).mpr ?_
  intro r hr
  obtain rfl := List.mem_singleton.mp hr
  refine ⟨fun v hv => ?_, by decide, by decide⟩
  obtain rfl : "3".toList = v := Option.some.inj hv
  exact ⟨by decide, List.all_iff_forall_prop.mp (by decide)⟩

/-- The number of Bugtraq is overwritten by the reference. -/
theorem not_fieldByField_bugtraq :
    ¬∀ (less : PhpValue → ℕ → Bool) (recs : List NvtRecord) (ending : Text),
      (recs.map NvtRecord.id).Nodup → ending ∈ catalogueEndings →
        FieldByField recs (readNvtFile less (some (catalogueText recs ending))) := by
  intro h
  have hread := h sampleLess [sampleBugtraqNvt] [] (by simp) (by decide)
  have hbugtraq : (readNvtFile sampleLess (some (catalogueText [sampleBugtraqNvt] []))).entries.map
      (fun e => e.2.bugtraq) = ["http://a".toList] := by decide +kernel
  rw [FieldByField, List.forall₂_cons_left_iff] at hread
  obtain ⟨e, rest, ⟨-, hitem⟩, -, hentries⟩ := hread
  rw [hentries, List.map_cons, hitem.bugtraq] at hbugtraq
  have hown : sampleBugtraqNvt.text "Bugtraq".toList = "91234".toList := by decide
  rw [hown] at hbugtraq
  exact absurd (List.cons.inj hbugtraq).1 (by decide)

end OpenvasTool
