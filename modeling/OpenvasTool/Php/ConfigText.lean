import OpenvasTool.Support.XmlReader
import Mathlib.Data.List.Chain

/-!
# The text of a scan config

`write_nvt_config` of `vuln_parse.php` pastes the name and the description of a group
into an XML document as they are. A reader finds them there exactly when they stand
for themselves.
-/

namespace OpenvasTool

open Posix Xml

/-! ### The text -/

/-- The lines for one selected script. -/
def selectorLines (oid : Text) : Text :=
  "    <nvt_selector>\n      <include>1</include>\n      <type>2</type>\n".toList ++
    "      <family_or_nvt>".toList ++ oid ++ "</family_or_nvt>\n    </nvt_selector>\n".toList

/-- The text of a file. -/
def configText (index name desc : Text) (oids : List Text) : Text :=
  "<config id=\"".toList ++ index ++ "\">\n".toList ++ "  <name>".toList ++ name ++
    "</name>\n".toList ++ "  <comment>".toList ++ desc ++ "</comment>\n".toList ++
    "  <type>0</type>\n  <usage_type>scan</usage_type>\n".toList ++
    "  <preferences>\n  </preferences>\n  <nvt_selectors>\n".toList ++
    oids.flatMap selectorLines ++ "  </nvt_selectors>\n</config>\n".toList

/-! ### What the text says -/

/-- The text of the first child element with this name. -/
def childText (name : Text) (node : Xml.Node) : Option Text :=
  (node.children.find? (Xml.Node.isElement name)).map Xml.Node.directText

/-- The oid of a selector that includes one script. -/
def includedOid (selector : Xml.Node) : Option Text :=
  if childText "include".toList selector = some "1".toList ∧
      childText "type".toList selector = some "2".toList then
    childText "family_or_nvt".toList selector
  else none

/-- The oids that the selectors of a config include. -/
def includeSelectors (root : Xml.Node) : List Text :=
  (root.select ["config".toList, "nvt_selectors".toList, "nvt_selector".toList]).filterMap
    includedOid

/-- The text is a well-formed document with this name and comment that selects exactly these oids. -/
def Describes (text name desc : Text) (oids : List Text) : Prop :=
  ∃ root, document text = some root ∧ childText "name".toList root = some name ∧
    childText "comment".toList root = some desc ∧ (includeSelectors root).Perm oids

/-! ### The parts of the text -/

/-- What follows the comment. -/
def settings (oids : List Text) : Text :=
  "\n  <type>0</type>\n  <usage_type>scan</usage_type>\n".toList ++
    "  <preferences>\n  </preferences>\n  <nvt_selectors>\n".toList ++
    oids.flatMap selectorLines ++ "  </nvt_selectors>\n</config>\n".toList

/-- An oid consists of digits and dots. -/
def IsOid (oid : Text) : Prop := ∀ c ∈ oid, c.isDigit = true ∨ c = '.'

theorem configText_eq (index name desc : Text) (oids : List Text) :
    configText index name desc oids =
      '<' :: ("config".toList ++ ' ' :: ("id".toList ++ '=' :: '"' :: (index ++ '"' :: '>' ::
        ("\n  ".toList ++ withElement "name".toList name ("\n  ".toList ++
          withElement "comment".toList desc (settings oids)))))) := by
  unfold configText settings withElement
  simp only [String.reduceToList, List.cons_append, List.nil_append, List.append_assoc]

/-- A selector, with the line break in front of it and without the one behind it. -/
theorem selectorLines_eq (oid s : Text) :
    '\n' :: (selectorLines oid ++ s) =
      "\n    ".toList ++ withElement "nvt_selector".toList
        ("\n      ".toList ++ withElement "include".toList "1".toList
          ("\n      ".toList ++ withElement "type".toList "2".toList
            ("\n      ".toList ++ withElement "family_or_nvt".toList oid "\n    ".toList)))
        ('\n' :: s) := by
  unfold selectorLines withElement
  simp only [String.reduceToList, List.cons_append, List.nil_append, List.append_assoc]

theorem settings_eq (oids : List Text) :
    settings oids =
      "\n  ".toList ++ withElement "type".toList "0".toList
        ("\n  ".toList ++ withElement "usage_type".toList "scan".toList
          ("\n  ".toList ++ withElement "preferences".toList "\n  ".toList
            ("\n  ".toList ++ withElement "nvt_selectors".toList
              ('\n' :: (oids.flatMap selectorLines ++ "  ".toList)) "\n</config>\n".toList))) := by
  unfold settings withElement
  simp only [String.reduceToList, List.cons_append, List.nil_append, List.append_assoc]

/-! ### Reading the text -/

theorem isPlain_of_isDigit {c : Char} (h : c.isDigit = true) : isPlain c = true ∧ c ≠ ']' := by
  have hne : ∀ d : Char, d.isDigit = false → c ≠ d := by
    rintro d hd rfl
    simp [h] at hd
  have hrange : 48 ≤ c.toNat ∧ c.toNat ≤ 57 := by
    simp only [Char.isDigit, Bool.and_eq_true, decide_eq_true_eq] at h
    exact ⟨UInt32.le_iff_toNat_le.mp h.1, UInt32.le_iff_toNat_le.mp h.2⟩
  have hchar : isXmlChar c = true := by
    have hmiddle : (0x20 ≤ c.toNat && c.toNat ≤ 0xD7FF) = true := by
      simp only [Bool.and_eq_true, decide_eq_true_eq]
      omega
    simp [isXmlChar, hmiddle]
  refine ⟨?_, hne ']' rfl⟩
  simp only [isPlain, hchar, Bool.true_and, Bool.and_eq_true, bne_iff_ne]
  exact ⟨hne '<' rfl, hne '&' rfl⟩

theorem IsOid.plainText {oid : Text} (h : IsOid oid) : PlainText oid :=
  plainText_of_forall fun c hc => by
    rcases h c hc with hdigit | rfl
    · exact isPlain_of_isDigit hdigit
    · decide

/-- The element of a selector. -/
def selectorNode (oid : Text) : Xml.Node :=
  .element "nvt_selector".toList []
    (consChars "\n      ".toList (.element "include".toList [] (consChars "1".toList []) ::
      consChars "\n      ".toList (.element "type".toList [] (consChars "2".toList []) ::
        consChars "\n      ".toList (.element "family_or_nvt".toList [] (consChars oid []) ::
          consChars "\n    ".toList []))))

theorem includedOid_selectorNode (oid : Text) : includedOid (selectorNode oid) = some oid := by
  have hoid : Xml.Node.directText (.element "family_or_nvt".toList [] (consChars oid [])) = oid := by
    rw [Xml.Node.directText]
    exact (contentText_consChars oid []).trans (List.append_nil oid)
  have hchildren : childText "include".toList (selectorNode oid) = some "1".toList ∧
      childText "type".toList (selectorNode oid) = some "2".toList ∧
      childText "family_or_nvt".toList (selectorNode oid) = some oid := by
    exact ⟨rfl, rfl, congrArg some hoid⟩
  rw [includedOid, if_pos ⟨hchildren.1, hchildren.2.1⟩, hchildren.2.2]

theorem reads_selector {oid s rest : Text} {ns : List Xml.Node} (h : IsOid oid)
    (hs : Reads ('\n' :: s) ns rest) :
    Reads ('\n' :: (selectorLines oid ++ s))
      (consChars "\n    ".toList (selectorNode oid :: ns)) rest := by
  rw [selectorLines_eq]
  refine Reads.chars (by decide) rfl (Reads.element (by decide) ?_ hs)
  rw [List.append_assoc, withElement_append, List.append_assoc, withElement_append,
    List.append_assoc, withElement_append]
  refine Reads.chars (by decide) rfl (Reads.textElement (by decide) (by decide) ?_)
  refine Reads.chars (by decide) rfl (Reads.textElement (by decide) (by decide) ?_)
  refine Reads.chars (by decide) rfl (Reads.textElement (by decide) h.plainText ?_)
  exact Reads.chars (by decide) rfl (Reads.stop _)

theorem reads_selectors {oids : List Text} (h : ∀ oid ∈ oids, IsOid oid) (s : Text) :
    ∃ ns, Reads ('\n' :: (oids.flatMap selectorLines ++ ("  ".toList ++ ("</".toList ++ s)))) ns
        ("</".toList ++ s) ∧
      (ns.flatMap (Xml.Node.select ["nvt_selector".toList])).filterMap includedOid = oids := by
  induction oids with
  | nil =>
    refine ⟨consChars "\n  ".toList [], ?_, rfl⟩
    exact Reads.chars (u := "\n  ".toList) (by decide) rfl (Reads.stop s)
  | cons oid oids ih =>
    obtain ⟨ns, hread, hoids⟩ := ih fun o ho => h o (by simp [ho])
    refine ⟨consChars "\n    ".toList (selectorNode oid :: ns), ?_, ?_⟩
    · rw [List.flatMap_cons, List.append_assoc]
      exact reads_selector (h oid (by simp)) hread
    · rw [flatMap_select_consChars, List.flatMap_cons]
      have hselect : (selectorNode oid).select ["nvt_selector".toList] = [selectorNode oid] := rfl
      rw [hselect, List.singleton_append, List.filterMap_cons, includedOid_selectorNode, hoids]

/-- The settings end with the root, and their selectors are the given oids. -/
theorem reads_settings {oids : List Text} (h : ∀ oid ∈ oids, IsOid oid) :
    ∃ ns, Reads (settings oids) ns "</config>\n".toList ∧
      (ns.flatMap (Xml.Node.select ["nvt_selectors".toList, "nvt_selector".toList])).filterMap
        includedOid = oids := by
  obtain ⟨cs, hcs, hoids⟩ := reads_selectors h ("nvt_selectors".toList ++ '>' :: "\n</config>\n".toList)
  have hend : Reads "\n</config>\n".toList (consChars "\n".toList []) "</config>\n".toList :=
    Reads.chars (u := "\n".toList) (by decide) rfl (Reads.stop "config>\n".toList)
  refine ⟨consChars "\n  ".toList (.element "type".toList [] (consChars "0".toList []) ::
    consChars "\n  ".toList (.element "usage_type".toList [] (consChars "scan".toList []) ::
      consChars "\n  ".toList (.element "preferences".toList [] (consChars "\n  ".toList []) ::
        consChars "\n  ".toList (.element "nvt_selectors".toList [] cs ::
          consChars "\n".toList [])))), ?_, ?_⟩
  · rw [settings_eq]
    refine Reads.chars (by decide) rfl (Reads.textElement (by decide) (by decide) ?_)
    refine Reads.chars (by decide) rfl (Reads.textElement (by decide) (by decide) ?_)
    refine Reads.chars (by decide) rfl (Reads.textElement (by decide) (by decide) ?_)
    refine Reads.chars (by decide) rfl (Reads.element (by decide) ?_ hend)
    rw [List.cons_append, List.append_assoc]
    exact hcs
  · simp only [flatMap_select_consChars]
    rw [flatMap_select_cons_of_ne (by decide), flatMap_select_consChars,
      flatMap_select_cons_of_ne (by decide), flatMap_select_consChars,
      flatMap_select_cons_of_ne (by decide), flatMap_select_consChars, List.flatMap_cons]
    have hselect : (Xml.Node.element "nvt_selectors".toList [] cs).select
        ["nvt_selectors".toList, "nvt_selector".toList] =
          cs.flatMap (Xml.Node.select ["nvt_selector".toList]) := rfl
    rw [hselect, flatMap_select_consChars, List.flatMap_nil, List.append_nil, hoids]

section Document

variable {index name desc : Text} {oids : List Text}

/-- A text on one line. -/
def SingleLine (s : Text) : Prop := '\n' ∉ s ∧ '\r' ∉ s

instance (s : Text) : Decidable (SingleLine s) := inferInstanceAs (Decidable (_ ∧ _))

theorem carriageReturn_notMem_settings (hoids : ∀ oid ∈ oids, IsOid oid) :
    '\r' ∉ settings oids := by
  have hselectors : '\r' ∉ oids.flatMap selectorLines := by
    intro hmem
    obtain ⟨oid, hoid, hmem⟩ := List.mem_flatMap.mp hmem
    have hline : '\r' ∉ oid := fun h => by
      rcases hoids oid hoid _ h with h | h <;> revert h <;> decide
    unfold selectorLines at hmem
    simp [hline] at hmem
  unfold settings
  simp [hselectors]

theorem carriageReturn_notMem_configText (hindex : index.all isQuotable = true)
    (hname : SingleLine name) (hdesc : SingleLine desc) (hoids : ∀ oid ∈ oids, IsOid oid) :
    '\r' ∉ configText index name desc oids := by
  have hquot : '\r' ∉ index := fun h => absurd (List.all_eq_true.mp hindex _ h) (by decide)
  rw [configText_eq]
  unfold withElement
  simp [hquot, hname.2, hdesc.2, carriageReturn_notMem_settings hoids]

/-- Texts that stand for themselves are read as they were written. -/
theorem document_configText (hindex : index.all isQuotable = true) (hname : SingleLine name)
    (hdesc : SingleLine desc) (hoids : ∀ oid ∈ oids, IsOid oid) (hn : PlainText name)
    (hd : PlainText desc) :
    ∃ root, document (configText index name desc oids) = some root ∧
      childText "name".toList root = some name ∧ childText "comment".toList root = some desc ∧
      includeSelectors root = oids := by
  have hr := carriageReturn_notMem_configText hindex hname hdesc hoids
  obtain ⟨ns, hns, hselect⟩ := reads_settings hoids
  have htext : ∀ tag text, Xml.Node.directText (.element tag [] (consChars text [])) = text :=
    fun tag text => (contentText_consChars text []).trans (List.append_nil text)
  rw [configText_eq] at hr ⊢
  refine ⟨_, document_of_reads hr (piece_startTag_attr (by decide) (by decide) hindex _)
    (Reads.chars (by decide) rfl (Reads.textElement (by decide) hn
      (Reads.chars (by decide) rfl (Reads.textElement (by decide) hd hns)))) (t := ['\n'])
    (by decide), ?_, ?_, ?_⟩
  · exact congrArg some (htext _ name)
  · exact congrArg some (htext _ desc)
  · rw [← hselect]
    refine congrArg (List.filterMap includedOid) ?_
    rw [Xml.Node.select, if_pos (by simp [Xml.Node.isElement]), if_neg (by decide)]
    rw [Xml.Node.children, flatMap_select_consChars, flatMap_select_cons_of_ne (by decide),
      flatMap_select_consChars, flatMap_select_cons_of_ne (by decide)]

/-! ### What a faithful text contains -/

/-- No letter m stands next to another one, and none stands at the end. -/
def NoDoubleM (s : Text) : Prop :=
  s.IsChain (fun a b => ¬(a = 'm' ∧ b = 'm')) ∧ s.getLast? ≠ some 'm'

instance (s : Text) : Decidable (NoDoubleM s) := inferInstanceAs (Decidable (_ ∧ _))

theorem NoDoubleM.append {s t : Text} (hs : NoDoubleM s) (ht : NoDoubleM t) :
    NoDoubleM (s ++ t) := by
  refine ⟨List.isChain_append.mpr ⟨hs.1, ht.1, ?_⟩, ?_⟩
  · rintro x hx y - ⟨rfl, -⟩
    exact hs.2 hx
  · cases t with
    | nil => simpa using hs.2
    | cons c t =>
      rw [List.getLast?_append_of_ne_nil s (List.cons_ne_nil c t)]
      exact ht.2

theorem noDoubleM_of_notMem {s : Text} (h : 'm' ∉ s) : NoDoubleM s := by
  refine ⟨?_, fun hlast => h (List.mem_of_getLast? hlast)⟩
  induction s with
  | nil => exact List.isChain_nil
  | cons c s ih =>
    simp only [List.mem_cons, not_or] at h
    rw [List.isChain_cons]
    exact ⟨fun y _ heq => h.1 heq.1.symm, ih h.2⟩

theorem noDoubleM_settings (hoids : ∀ oid ∈ oids, IsOid oid) : NoDoubleM (settings oids) := by
  have hselectors : NoDoubleM (oids.flatMap selectorLines) := by
    induction oids with
    | nil => decide
    | cons oid oids ih =>
      have hoid : 'm' ∉ oid := fun h => by
        rcases hoids oid (by simp) _ h with h | h <;> revert h <;> decide
      rw [List.flatMap_cons]
      refine NoDoubleM.append ?_ (ih fun o ho => hoids o (by simp [ho]))
      exact (((NoDoubleM.append (by decide +kernel) (by decide +kernel)).append
        (noDoubleM_of_notMem hoid)).append (by decide +kernel))
  exact ((NoDoubleM.append (by decide +kernel) (by decide +kernel)).append hselectors).append
    (by decide +kernel)

/-- The settings mention no comment. -/
theorem comment_not_infix_settings (hoids : ∀ oid ∈ oids, IsOid oid) {mark : Text}
    (hmark : "comm".toList <:+: mark) : ¬mark <:+: settings oids := by
  intro hin
  obtain ⟨before, rest, heq⟩ := hmark.trans hin
  have hchain := (noDoubleM_settings hoids).1
  rw [← heq] at hchain
  exact absurd hchain.left_of_append.right_of_append (by decide)

/-- The text from the end tag of the comment on. -/
def commentEnd (oids : List Text) : Text :=
  "</".toList ++ ("comment".toList ++ '>' :: settings oids)

/-- The text from the end tag of the name on. -/
def nameEnd (desc : Text) (oids : List Text) : Text :=
  "</".toList ++ ("name".toList ++ '>' :: ("\n  ".toList ++
    withElement "comment".toList desc (settings oids)))

theorem nameEnd_eq (desc : Text) (oids : List Text) :
    nameEnd desc oids = "</name>\n  <comment>".toList ++ (desc ++ commentEnd oids) := by
  unfold nameEnd commentEnd withElement
  simp only [String.reduceToList, List.cons_append, List.nil_append]

theorem commentEnd_eq (oids : List Text) :
    commentEnd oids = "</comment>".toList ++ settings oids := by
  unfold commentEnd
  simp only [String.reduceToList, List.cons_append, List.nil_append]

/-- The last end tag of a comment is the one that was written for the description. -/
theorem commentEnd_length_le (hoids : ∀ oid ∈ oids, IsOid oid) {before t : Text}
    (ht : t <:+ before ++ commentEnd oids) (hmark : "</comment".toList <+: t) :
    (commentEnd oids).length ≤ t.length := by
  rw [commentEnd_eq] at ht ⊢
  exact length_le_of_mark (comment_not_infix_settings hoids (by decide)) (by decide) ht hmark

/-- The last empty comment is the one that was written for an empty description. -/
theorem emptyComment_length_le (hoids : ∀ oid ∈ oids, IsOid oid) {before t : Text}
    (ht : t <:+ before ++ nameEnd [] oids) (hmark : "<comment".toList <+: t) :
    (commentEnd oids).length + 9 ≤ t.length := by
  have hsplit : before ++ nameEnd [] oids =
      (before ++ "</name>\n  ".toList) ++ ("<comment></comment>".toList ++ settings oids) := by
    rw [nameEnd_eq, commentEnd_eq, List.append_assoc]
    simp only [String.reduceToList, List.cons_append, List.nil_append]
  rw [hsplit] at ht
  have hle := length_le_of_mark (comment_not_infix_settings hoids (by decide)) (by decide) ht hmark
  rw [List.length_append] at hle
  rw [commentEnd_eq, List.length_append]
  have hlong : "<comment></comment>".toList.length = "</comment>".toList.length + 9 := rfl
  omega

/-- A comment that is found behind the name leaves room for the description and its end tag. -/
theorem comment_length_le (hoids : ∀ oid ∈ oids, IsOid oid) {n : ℕ} {before s rest : Text}
    {ns : List Xml.Node} (hs : s <:+ before ++ nameEnd desc oids)
    (h : nodes n s = some (ns, rest))
    (hcomment : (ns.find? (Xml.Node.isElement "comment".toList)).map Xml.Node.directText =
      some desc) :
    desc.length + (commentEnd oids).length + 9 ≤ s.length := by
  obtain ⟨node, hfind, htext⟩ := Option.map_eq_some_iff.mp hcomment
  obtain ⟨attrs, children, rfl, hread⟩ := nodes_find h hfind
  have htext : contentText children = desc := htext
  rcases hread with ⟨rfl, t, ht, hmark⟩ | ⟨m, t, after, hread, ht, hlen, hmark⟩
  · obtain rfl : desc = [] := htext.symm
    have hlast := emptyComment_length_le hoids (ht.trans hs) hmark
    have hlong := ht.length_le
    rw [List.length_nil]
    omega
  · obtain ⟨hafter, -, htake, -⟩ := nodes_takes hread
    rw [htext] at htake
    rw [nameEnd_eq, ← List.append_assoc, ← List.append_assoc] at hs
    have hlast := commentEnd_length_le hoids ((hafter.trans ht).trans hs) hmark
    have hseven : "comment".toList.length = 7 := rfl
    omega

/-- The text of the name is read up to its own end tag. -/
theorem eq_nameEnd (hoids : ∀ oid ∈ oids, IsOid oid) {m n : ℕ} {inner after rest : Text}
    {cs ns : List Xml.Node}
    (hread : nodes m (name ++ nameEnd desc oids) = some (cs, inner))
    (hname : contentText cs = name) (htag : endTag "name".toList inner = some after)
    (hrest : nodes n after = some (ns, rest))
    (hcomment : (ns.find? (Xml.Node.isElement "comment".toList)).map Xml.Node.directText =
      some desc) :
    inner = nameEnd desc oids := by
  obtain ⟨hinner, -, htake, -⟩ := nodes_takes hread
  obtain ⟨hmark, hafter, hlen⟩ := endTag_eq_some htag
  have hroom := comment_length_le hoids (hafter.trans hinner) hrest hcomment
  have hfour : "name".toList.length = 4 := rfl
  have hlong : (nameEnd desc oids).length = desc.length + (commentEnd oids).length + 19 := by
    rw [nameEnd_eq, List.length_append, List.length_append]
    have hopen : "</name>\n  <comment>".toList.length = 19 := rfl
    omega
  rw [hname, List.length_append] at htake
  have hsuffix : inner <:+ nameEnd desc oids :=
    List.suffix_of_suffix_length_le hinner (List.suffix_append name _) (by omega)
  -- at most three characters in front of the comment are left over, and a tag starts at the first
  have hdrop := List.suffix_iff_eq_drop.mp hsuffix
  obtain ⟨k, hk, hle⟩ : ∃ k, (nameEnd desc oids).length - inner.length = k ∧ k ≤ 3 :=
    ⟨_, rfl, by omega⟩
  rw [hk, nameEnd_eq] at hdrop
  rw [nameEnd_eq]
  interval_cases k
  · exact hdrop
  all_goals
    rw [hdrop] at hmark
    exact absurd (List.cons_prefix_cons.mp hmark).1 (by decide)

/-- A document that reads as the name and the description contains them as plain text. -/
theorem plainText_of_describes (hindex : index.all isQuotable = true) (hname : SingleLine name)
    (hdesc : SingleLine desc) (hoids : ∀ oid ∈ oids, IsOid oid) {root : Xml.Node}
    (hdoc : document (configText index name desc oids) = some root)
    (hn : childText "name".toList root = some name)
    (hd : childText "comment".toList root = some desc) : PlainText name ∧ PlainText desc := by
  have hr := carriageReturn_notMem_configText hindex hname hdesc hoids
  rw [configText_eq] at hr hdoc
  rw [document_eq hr (piece_startTag_attr (by decide) (by decide) hindex _)] at hdoc
  obtain ⟨⟨ns, tail⟩, hnodes, hdoc⟩ := Option.bind_eq_some_iff.mp hdoc
  obtain ⟨end₁, -, hdoc⟩ := Option.bind_eq_some_iff.mp hdoc
  obtain rfl := documentEnd_eq_some hdoc
  obtain ⟨n₁, ns₁, hnodes₁, rfl⟩ := nodes_chars_eq_some (by decide) rfl hnodes
  obtain ⟨n₂, cs, inner, after, ns₂, hread, htag, hrest, rfl⟩ :=
    nodes_withElement_eq_some (by decide) hnodes₁
  have hcs : contentText cs = name := Option.some.inj hn
  have hfind : (ns₂.find? (Xml.Node.isElement "comment".toList)).map Xml.Node.directText =
      some desc := hd
  obtain rfl := eq_nameEnd hoids hread hcs htag hrest hfind
  have hplain := (nodes_takes hread).2.2.2 (by rw [hcs]; exact List.length_append.symm)
  rw [hcs] at hplain
  refine ⟨hplain.2, ?_⟩
  obtain rfl : "\n  ".toList ++ withElement "comment".toList desc (settings oids) = after :=
    Option.some.inj ((endTag_self "name".toList _).symm.trans htag)
  obtain ⟨n₃, ns₃, hnodes₃, rfl⟩ := nodes_chars_eq_some (by decide) rfl hrest
  obtain ⟨n₄, ds, inner', after', ns₄, hread', htag', -, rfl⟩ :=
    nodes_withElement_eq_some (by decide) hnodes₃
  have hds : contentText ds = desc := Option.some.inj hfind
  obtain ⟨hinner, -, htake, hplain'⟩ := nodes_takes hread'
  have hend := commentEnd_length_le hoids hinner (endTag_eq_some htag').1
  rw [hds] at htake hplain'
  rw [List.length_append] at htake hplain'
  have heq : desc.length + inner'.length = desc.length + (commentEnd oids).length :=
    le_antisymm htake (by omega)
  exact (hplain' heq).2

/-- The text describes a group and its oids exactly when the texts of the group stand for
themselves. -/
theorem describes_configText_iff (hindex : index.all isQuotable = true) (hname : SingleLine name)
    (hdesc : SingleLine desc) (hoids : ∀ oid ∈ oids, IsOid oid) {expected : List Text} :
    Describes (configText index name desc oids) name desc expected ↔
      PlainText name ∧ PlainText desc ∧ oids.Perm expected := by
  constructor
  · rintro ⟨root, hdoc, hn, hd, hperm⟩
    obtain ⟨hplain, hplain'⟩ := plainText_of_describes hindex hname hdesc hoids hdoc hn hd
    obtain ⟨root', hdoc', -, -, hselect⟩ :=
      document_configText hindex hname hdesc hoids hplain hplain'
    obtain rfl : root = root' := Option.some.inj (hdoc.symm.trans hdoc')
    exact ⟨hplain, hplain', hselect ▸ hperm⟩
  · rintro ⟨hplain, hplain', hperm⟩
    obtain ⟨root, hdoc, hn, hd, hselect⟩ :=
      document_configText hindex hname hdesc hoids hplain hplain'
    exact ⟨root, hdoc, hn, hd, hselect ▸ hperm⟩

end Document

end OpenvasTool
