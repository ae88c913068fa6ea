import OpenvasTool.Posix.CString
import OpenvasTool.Support.Xml
import Mathlib.Data.List.Infix

/-!
# Reading XML documents

A reader for documents without XML declaration and document type: elements with
attributes, character data, references, CDATA sections, comments and processing
instructions. The content of an element is read piece by piece, and no piece gives more
characters than it takes; only plain characters give as many.
-/

namespace Xml

open Posix

/-! ### Characters and names -/

/-- The characters of a document. -/
def isXmlChar (c : Char) : Bool :=
  c == '\t' || c == '\n' || c == '\r' || (0x20 ≤ c.toNat && c.toNat ≤ 0xD7FF) ||
    (0xE000 ≤ c.toNat && c.toNat ≤ 0xFFFD) || 0x10000 ≤ c.toNat

/-- White space. -/
def isSpace (c : Char) : Bool := c == ' ' || c == '\t' || c == '\n' || c == '\r'

def inRanges (ranges : List (ℕ × ℕ)) (c : Char) : Bool :=
  ranges.any fun r => r.1 ≤ c.toNat && c.toNat ≤ r.2

/-- The characters that start a name. -/
def isNameStart (c : Char) : Bool :=
  inRanges [(0x3A, 0x3A), (0x41, 0x5A), (0x5F, 0x5F), (0x61, 0x7A), (0xC0, 0xD6), (0xD8, 0xF6),
    (0xF8, 0x2FF), (0x370, 0x37D), (0x37F, 0x1FFF), (0x200C, 0x200D), (0x2070, 0x218F),
    (0x2C00, 0x2FEF), (0x3001, 0xD7FF), (0xF900, 0xFDCF), (0xFDF0, 0xFFFD), (0x10000, 0xEFFFF)] c

/-- The characters of a name. -/
def isNameChar (c : Char) : Bool :=
  isNameStart c ||
    inRanges [(0x2D, 0x2E), (0x30, 0x39), (0xB7, 0xB7), (0x300, 0x36F), (0x203F, 0x2040)] c

/-- A name at the start of a text, and what follows it. -/
def takeName : Text → Option (Text × Text)
  | [] => none
  | c :: s =>
      if isNameStart c then some (c :: s.takeWhile isNameChar, s.dropWhile isNameChar) else none

/-- Line ends are read as a line feed. -/
def lineEnds : Text → Text
  | [] => []
  | c :: s =>
      if c = '\r' then
        if s.head? = some '\n' then lineEnds s else '\n' :: lineEnds s
      else c :: lineEnds s

/-! ### References -/

/-- The value of a digit. -/
def digitValue (c : Char) : Option ℕ :=
  if c.isDigit then some (c.toNat - 48)
  else if 'a' ≤ c ∧ c ≤ 'f' then some (c.toNat - 87)
  else if 'A' ≤ c ∧ c ≤ 'F' then some (c.toNat - 55)
  else none

/-- A number in this base. -/
def number (base : ℕ) (digits : Text) : Option ℕ :=
  if digits = [] then none
  else digits.foldlM (fun n c =>
    (digitValue c).bind fun d => if d < base then some (base * n + d) else none) 0

/-- The character with this code. -/
def charOfCode (n : ℕ) : Option Char :=
  if n.isValidChar ∧ isXmlChar (Char.ofNat n) then some (Char.ofNat n) else none

/-- The character that a reference stands for. -/
def entity : Text → Option Char
  | '#' :: 'x' :: digits => (number 16 digits).bind charOfCode
  | '#' :: digits => (number 10 digits).bind charOfCode
  | name =>
      [("lt".toList, '<'), ("gt".toList, '>'), ("amp".toList, '&'), ("apos".toList, '\''),
        ("quot".toList, '"')].lookup name

/-- A reference, behind its ampersand. -/
def reference (s : Text) : Option (Char × Text) :=
  (strstr [';'] s).bind fun m => (entity m.1).map fun c => (c, m.2.drop 1)

/-! ### Tags -/

/-- The value of an attribute. -/
def attText : ℕ → Text → Option Text
  | 0, _ => none
  | _ + 1, [] => some []
  | n + 1, c :: s =>
      if c = '<' then none
      else if c = '&' then
        (reference s).bind fun r => (attText n r.2).map fun t => r.1 :: t
      else if isXmlChar c then
        (attText n s).map fun t => (if isSpace c then ' ' else c) :: t
      else none

/-- The equals sign of an attribute. -/
def equals (s : Text) : Option Text :=
  match s.dropWhile isSpace with
  | '=' :: t => some (t.dropWhile isSpace)
  | _ => none

/-- A value in quotes. -/
def quoted : Text → Option (Text × Text)
  | [] => none
  | q :: s =>
      if q = '"' ∨ q = '\'' then
        (strstr [q] s).bind fun m =>
          (attText (m.1.length + 1) m.1).map fun value => (value, m.2.drop 1)
      else none

/-- The attributes of a tag, up to its end. -/
def attributes : ℕ → Text → Option (List (Text × Text) × Text)
  | 0, _ => none
  | n + 1, s =>
      let t := s.dropWhile isSpace
      if t.head? = some '>' ∨ "/>".toList <+: t then some ([], t)
      else if t.length = s.length then none
      else
        (takeName t).bind fun name => (equals name.2).bind fun u => (quoted u).bind fun value =>
          (attributes n value.2).bind fun r =>
            if r.1.any fun a => a.1 == name.1 then none
            else some ((name.1, value.1) :: r.1, r.2)

/-- The end tag of an element. -/
def endTag (name s : Text) : Option Text :=
  if "</".toList ++ name <+: s then
    match (s.drop (name.length + 2)).dropWhile isSpace with
    | '>' :: rest => some rest
    | _ => none
  else none

/-! ### Pieces -/

/-- What content consists of. `stop` is its end: the text is read, or an end tag follows. -/
inductive Piece where
  | stop : Piece
  | skip : Piece
  | chars (t : Text) : Piece
  | empty (name : Text) (attrs : List (Text × Text)) : Piece
  | opening (name : Text) (attrs : List (Text × Text)) : Piece

/-- A comment, behind `<!--`. -/
def comment (s : Text) : Option (Piece × Text) :=
  (strstr "--".toList s).bind fun m =>
    if "-->".toList <+: m.2 ∧ m.1.all isXmlChar then some (.skip, m.2.drop 3) else none

/-- A CDATA section, behind `<![CDATA[`. -/
def cdata (s : Text) : Option (Piece × Text) :=
  (strstr "]]>".toList s).bind fun m =>
    if m.1.all isXmlChar then some (.chars m.1, m.2.drop 3) else none

/-- A processing instruction, behind `<?`. -/
def instruction (s : Text) : Option (Piece × Text) :=
  (takeName s).bind fun target =>
    if target.1.map Char.toLower = "xml".toList then none
    else
      (strstr "?>".toList target.2).bind fun m =>
        if m.1.head?.all isSpace ∧ m.1.all isXmlChar then some (.skip, m.2.drop 2) else none

/-- A start tag or the tag of an empty element, behind `<`. -/
def tag (s : Text) : Option (Piece × Text) :=
  (takeName s).bind fun name =>
    (attributes (name.2.length + 1) name.2).bind fun r =>
      if "/>".toList <+: r.2 then some (.empty name.1 r.1, r.2.drop 2)
      else if r.2.head? = some '>' then some (.opening name.1 r.1, r.2.drop 1)
      else none

/-- The first piece of a text. -/
def piece : Text → Option (Piece × Text)
  | [] => some (.stop, [])
  | c :: s =>
      if c = '<' then
        if s.head? = some '/' then some (.stop, c :: s)
        else if "!--".toList <+: s then comment (s.drop 3)
        else if "![CDATA[".toList <+: s then cdata (s.drop 8)
        else if s.head? = some '?' then instruction (s.drop 1)
        else tag s
      else if c = '&' then (reference s).map fun r => (.chars [r.1], r.2)
      else if "]]>".toList <+: c :: s then none
      else if isXmlChar c then some (.chars [c], s)
      else none

/-- Characters in front of nodes. -/
def consChars (t : Text) : List Node → List Node
  | .text u :: ns => .text (t ++ u) :: ns
  | ns => if t = [] then ns else .text t :: ns

/-- The nodes at the start of a text, and what follows them; the fuel bounds the depth and the
number of pieces, the length of the text suffices. -/
def nodes : ℕ → Text → Option (List Node × Text)
  | 0, _ => none
  | n + 1, s =>
      match piece s with
      | none => none
      | some (.stop, _) => some ([], s)
      | some (.skip, rest) => nodes n rest
      | some (.chars t, rest) => (nodes n rest).map fun r => (consChars t r.1, r.2)
      | some (.empty name attrs, rest) =>
          (nodes n rest).map fun r => (.element name attrs [] :: r.1, r.2)
      | some (.opening name attrs, rest) =>
          (nodes n rest).bind fun inner => (endTag name inner.2).bind fun after =>
            (nodes n after).map fun r => (.element name attrs inner.1 :: r.1, r.2)

/-- White space, comments and processing instructions around the root. -/
def misc : ℕ → Text → Option Text
  | 0, _ => none
  | n + 1, s =>
      let t := s.dropWhile isSpace
      match piece t with
      | some (.skip, rest) => misc n rest
      | _ => some t

/-- The end of a document, behind its root. -/
def documentEnd (root : Node) (s : Text) : Option Node :=
  (misc (s.length + 1) s).bind fun rest => if rest = [] then some root else none

/-- A document, with its line ends read; `none` when the text is not well-formed. -/
def root (s : Text) : Option Node :=
  (misc (s.length + 1) s).bind fun s =>
    match piece s with
    | some (.empty name attrs, rest) => documentEnd (.element name attrs []) rest
    | some (.opening name attrs, rest) =>
        (nodes (rest.length + 1) rest).bind fun inner => (endTag name inner.2).bind fun after =>
          documentEnd (.element name attrs inner.1) after
    | _ => none

/-- A well-formed document. -/
def document (s : Text) : Option Node := root (lineEnds s)

/-! ### What the pieces take -/

/-- A character that stands for itself. -/
def isPlain (c : Char) : Bool := isXmlChar c && c != '<' && c != '&'

section Pieces

variable {s rest name : Text}

theorem suffix_of_strstr {needle before : Text} (h : strstr needle s = some (before, rest)) :
    rest <:+ s := by
  obtain ⟨rfl, -⟩ := strstr_eq_some h
  exact List.suffix_append before rest

theorem takeName_eq_some (h : takeName s = some (name, rest)) :
    s = name ++ rest ∧ name ≠ [] := by
  cases s with
  | nil => simp [takeName] at h
  | cons c s =>
    rw [takeName] at h
    split at h
    · simp only [Option.some.injEq, Prod.mk.injEq] at h
      obtain ⟨rfl, rfl⟩ := h
      exact ⟨by simp, by simp⟩
    · simp at h

theorem reference_suffix {c : Char} (h : reference s = some (c, rest)) :
    rest <:+ s ∧ rest.length < s.length := by
  obtain ⟨⟨before, after⟩, hfound, hc⟩ := Option.bind_eq_some_iff.mp h
  obtain ⟨d, _, hd⟩ := Option.map_eq_some_iff.mp hc
  obtain rfl : after.drop 1 = rest := congrArg Prod.snd hd
  obtain ⟨-, t, rfl, rfl⟩ := strstr_char_some hfound
  refine ⟨(List.drop_suffix 1 _).trans (List.suffix_append before _), ?_⟩
  simp
  omega

theorem equals_suffix (h : equals s = some rest) : rest <:+ s := by
  have hsuffix := List.dropWhile_suffix isSpace (l := s)
  unfold equals at h
  split at h
  · rename_i t heq
    obtain rfl := Option.some.inj h
    rw [heq] at hsuffix
    exact ((List.dropWhile_suffix isSpace).trans (List.suffix_cons '=' t)).trans hsuffix
  · simp at h

theorem quoted_suffix {value : Text} (h : quoted s = some (value, rest)) : rest <:+ s := by
  cases s with
  | nil => simp [quoted] at h
  | cons q s =>
    rw [quoted] at h
    split at h
    · obtain ⟨⟨raw, after⟩, hfound, hvalue⟩ := Option.bind_eq_some_iff.mp h
      obtain ⟨v, _, hv⟩ := Option.map_eq_some_iff.mp hvalue
      obtain rfl : after.drop 1 = rest := congrArg Prod.snd hv
      exact ((List.drop_suffix 1 after).trans (suffix_of_strstr hfound)).trans
        (List.suffix_cons q s)
    · simp at h

theorem attributes_suffix {n : ℕ} {attrs : List (Text × Text)}
    (h : attributes n s = some (attrs, rest)) : rest <:+ s := by
  induction n generalizing s attrs with
  | zero => simp [attributes] at h
  | succ n ih =>
    have hspace := List.dropWhile_suffix isSpace (l := s)
    simp only [attributes] at h
    split at h
    · simp only [Option.some.injEq, Prod.mk.injEq] at h
      exact h.2 ▸ hspace
    · split at h
      · simp at h
      · obtain ⟨⟨name, u⟩, hname, h⟩ := Option.bind_eq_some_iff.mp h
        obtain ⟨v, hequals, h⟩ := Option.bind_eq_some_iff.mp h
        obtain ⟨⟨value, w⟩, hquoted, h⟩ := Option.bind_eq_some_iff.mp h
        obtain ⟨⟨as, r⟩, hattrs, h⟩ := Option.bind_eq_some_iff.mp h
        split at h
        · simp at h
        · simp only [Option.some.injEq, Prod.mk.injEq] at h
          obtain ⟨-, rfl⟩ := h
          have hu : u <:+ s.dropWhile isSpace := by
            rw [(takeName_eq_some hname).1]
            exact List.suffix_append name u
          exact ((((ih hattrs).trans (quoted_suffix hquoted)).trans (equals_suffix hequals)).trans
            hu).trans hspace

theorem endTag_eq_some (h : endTag name s = some rest) :
    "</".toList ++ name <+: s ∧ rest <:+ s ∧ rest.length + name.length + 3 ≤ s.length := by
  unfold endTag at h
  split at h
  · rename_i hpre
    have hsuffix := List.dropWhile_suffix isSpace (l := s.drop (name.length + 2))
    split at h
    · rename_i t heq
      obtain rfl := Option.some.inj h
      rw [heq] at hsuffix
      have hlen := hsuffix.length_le
      have hprefixLen := hpre.length_le
      simp only [List.length_append, List.length_drop, List.length_cons] at hlen hprefixLen
      have htwo : "</".toList.length = 2 := rfl
      refine ⟨hpre, ?_, by omega⟩
      exact (List.suffix_cons '>' t).trans (hsuffix.trans (List.drop_suffix _ s))
    · simp at h
  · simp at h

/-- A tag takes at least its name, an angle bracket on both sides included. -/
theorem tag_eq_some {p : Piece} (h : tag s = some (p, rest)) :
    ∃ name attrs, (p = .empty name attrs ∨ p = .opening name attrs) ∧ name <+: s ∧
      rest <:+ s ∧ rest.length + name.length + 1 ≤ s.length := by
  obtain ⟨⟨name, t⟩, hname, h⟩ := Option.bind_eq_some_iff.mp h
  obtain ⟨⟨attrs, u⟩, hattrs, h⟩ := Option.bind_eq_some_iff.mp h
  have hs := (takeName_eq_some hname).1
  have hu := attributes_suffix hattrs
  have hlen : u.length ≤ t.length := hu.length_le
  have hdrop : ∀ k, u.drop k <:+ s := fun k => by
    rw [hs]
    exact ((List.drop_suffix k u).trans hu).trans (List.suffix_append name t)
  have hlong : s.length = name.length + t.length := by rw [hs, List.length_append]
  have hpre : name <+: s := hs ▸ List.prefix_append name t
  refine ⟨name, attrs, ?_⟩
  split at h
  · rename_i hempty
    simp only [Option.some.injEq, Prod.mk.injEq] at h
    obtain ⟨rfl, rfl⟩ := h
    have htwo : 2 ≤ u.length := hempty.length_le
    refine ⟨Or.inl rfl, hpre, hdrop 2, ?_⟩
    rw [List.length_drop]
    omega
  · split at h
    · rename_i hend
      simp only [Option.some.injEq, Prod.mk.injEq] at h
      obtain ⟨rfl, rfl⟩ := h
      have hone : 1 ≤ u.length := by
        cases u with
        | nil => simp at hend
        | cons c u => simp
      refine ⟨Or.inr rfl, hpre, hdrop 1, ?_⟩
      rw [List.length_drop]
      omega
    · simp at h

theorem comment_eq_some {p : Piece} (h : comment s = some (p, rest)) : p = .skip ∧ rest <:+ s := by
  obtain ⟨⟨before, after⟩, hfound, h⟩ := Option.bind_eq_some_iff.mp h
  split at h
  · simp only [Option.some.injEq, Prod.mk.injEq] at h
    obtain ⟨rfl, rfl⟩ := h
    exact ⟨rfl, (List.drop_suffix 3 after).trans (suffix_of_strstr hfound)⟩
  · simp at h

theorem cdata_eq_some {p : Piece} (h : cdata s = some (p, rest)) :
    ∃ t, p = .chars t ∧ rest <:+ s ∧ t.length + rest.length ≤ s.length := by
  obtain ⟨⟨before, after⟩, hfound, h⟩ := Option.bind_eq_some_iff.mp h
  split at h
  · simp only [Option.some.injEq, Prod.mk.injEq] at h
    obtain ⟨rfl, rfl⟩ := h
    have hdrop := (List.drop_suffix 3 after).length_le
    obtain ⟨rfl, -⟩ := strstr_eq_some hfound
    refine ⟨before, rfl, (List.drop_suffix 3 after).trans (List.suffix_append before after), ?_⟩
    rw [List.length_append]
    omega
  · simp at h

theorem instruction_eq_some {p : Piece} (h : instruction s = some (p, rest)) :
    p = .skip ∧ rest <:+ s := by
  obtain ⟨⟨target, t⟩, hname, h⟩ := Option.bind_eq_some_iff.mp h
  have ht : t <:+ s := by
    rw [(takeName_eq_some hname).1]
    exact List.suffix_append target t
  split at h
  · simp at h
  · obtain ⟨⟨before, after⟩, hfound, h⟩ := Option.bind_eq_some_iff.mp h
    split at h
    · simp only [Option.some.injEq, Prod.mk.injEq] at h
      obtain ⟨rfl, rfl⟩ := h
      exact ⟨rfl, ((List.drop_suffix 2 after).trans (suffix_of_strstr hfound)).trans ht⟩
    · simp at h

/-- What a piece takes of a text: a single plain character takes as much as it gives, everything else
takes more. -/
def Takes (s rest : Text) : Piece → Prop
  | .stop => rest = s ∧ (s = [] ∨ "</".toList <+: s)
  | .skip => rest.length < s.length
  | .chars t =>
      (∃ c, isPlain c = true ∧ t = [c] ∧ s = c :: rest ∧ ¬"]]>".toList <+: s) ∨
        t.length + rest.length < s.length
  | .empty name _ => rest.length + name.length + 2 ≤ s.length ∧ '<' :: name <+: s
  | .opening name _ => rest.length + name.length + 2 ≤ s.length ∧ '<' :: name <+: s

theorem piece_takes {p : Piece} (h : piece s = some (p, rest)) : rest <:+ s ∧ Takes s rest p := by
  cases s with
  | nil =>
    simp only [piece, Option.some.injEq, Prod.mk.injEq] at h
    obtain ⟨rfl, rfl⟩ := h
    exact ⟨List.suffix_rfl, rfl, Or.inl rfl⟩
  | cons c s =>
    have hcons : s <:+ c :: s := List.suffix_cons c s
    have hdrop : ∀ k, s.drop k <:+ c :: s := fun k => (List.drop_suffix k s).trans hcons
    have hshort : ∀ {t : Text}, t <:+ s → t.length < (c :: s).length := fun ht =>
      Nat.lt_succ_of_le ht.length_le
    rw [piece] at h
    split at h
    · rename_i hc
      subst hc
      split at h
      · rename_i hslash
        simp only [Option.some.injEq, Prod.mk.injEq] at h
        obtain ⟨rfl, rfl⟩ := h
        obtain ⟨t, rfl⟩ := List.head?_eq_some_iff.mp hslash
        exact ⟨List.suffix_rfl, rfl, Or.inr ⟨t, rfl⟩⟩
      split at h
      · obtain ⟨rfl, hsuffix⟩ := comment_eq_some h
        exact ⟨hsuffix.trans (hdrop 3), hshort (hsuffix.trans (List.drop_suffix 3 s))⟩
      split at h
      · obtain ⟨t, rfl, hsuffix, hlen⟩ := cdata_eq_some h
        refine ⟨hsuffix.trans (hdrop 8), Or.inr ?_⟩
        rw [List.length_drop] at hlen
        rw [List.length_cons]
        omega
      split at h
      · obtain ⟨rfl, hsuffix⟩ := instruction_eq_some h
        exact ⟨hsuffix.trans (hdrop 1), hshort (hsuffix.trans (List.drop_suffix 1 s))⟩
      · obtain ⟨name, attrs, hp, hname, hsuffix, hlen⟩ := tag_eq_some h
        have htakes : rest.length + name.length + 2 ≤ ('<' :: s).length ∧ '<' :: name <+: '<' :: s :=
          ⟨by simp only [List.length_cons]; omega, List.cons_prefix_cons.mpr ⟨rfl, hname⟩⟩
        refine ⟨hsuffix.trans hcons, ?_⟩
        rcases hp with rfl | rfl
        · exact htakes
        · exact htakes
    · rename_i hlt
      split at h
      · obtain ⟨⟨d, t⟩, hfound, hd⟩ := Option.map_eq_some_iff.mp h
        simp only [Prod.mk.injEq] at hd
        obtain ⟨rfl, rfl⟩ := hd
        obtain ⟨hsuffix, hlen⟩ := reference_suffix hfound
        refine ⟨hsuffix.trans hcons, Or.inr ?_⟩
        simp only [List.length_cons, List.length_nil]
        omega
      · rename_i hamp
        split at h
        · simp at h
        · rename_i hend
          split at h
          · rename_i hchar
            simp only [Option.some.injEq, Prod.mk.injEq] at h
            obtain ⟨rfl, rfl⟩ := h
            exact ⟨hcons, Or.inl ⟨c, by simp [isPlain, hchar, hlt, hamp], rfl, rfl, hend⟩⟩
          · simp at h

end Pieces

/-! ### What content gives -/

/-- The characters directly in the content. -/
def contentText (ns : List Node) : Text :=
  ns.flatMap fun
    | .text content => content
    | .element _ _ _ => []

/-- A text that stands for itself. -/
def PlainText (u : Text) : Prop := u.all isPlain = true ∧ ¬"]]>".toList <:+: u

instance (u : Text) : Decidable (PlainText u) := inferInstanceAs (Decidable (_ ∧ ¬_))

section Content

variable {n : ℕ} {s rest name : Text} {ns : List Node}

theorem contentText_consChars (t : Text) (ns : List Node) :
    contentText (consChars t ns) = t ++ contentText ns := by
  cases ns with
  | nil => by_cases ht : t = [] <;> simp [consChars, contentText, ht]
  | cons node ns =>
    cases node with
    | text u => simp [consChars, contentText]
    | element _ _ _ => by_cases ht : t = [] <;> simp [consChars, contentText, ht]

theorem find?_consChars (t : Text) (ns : List Node) :
    (consChars t ns).find? (Node.isElement name) = ns.find? (Node.isElement name) := by
  cases ns with
  | nil => by_cases ht : t = [] <;> simp [consChars, Node.isElement, ht]
  | cons node ns =>
    cases node with
    | text u => simp [consChars, Node.isElement]
    | element _ _ _ => by_cases ht : t = [] <;> simp [consChars, Node.isElement, ht]

/-- The content gives at most as many characters as it takes, and as many only when it is plain. -/
theorem nodes_takes (h : nodes n s = some (ns, rest)) :
    rest <:+ s ∧ (rest = [] ∨ "</".toList <+: rest) ∧
      (contentText ns).length + rest.length ≤ s.length ∧
      ((contentText ns).length + rest.length = s.length →
        s = contentText ns ++ rest ∧ PlainText (contentText ns)) := by
  induction n generalizing s ns rest with
  | zero => simp [nodes] at h
  | succ n ih =>
    rw [nodes] at h
    cases hpiece : piece s with
    | none => simp [hpiece] at h
    | some r =>
      obtain ⟨p, after⟩ := r
      obtain ⟨hsuffix, htakes⟩ := piece_takes hpiece
      simp only [hpiece] at h
      cases p with
      | stop =>
        simp only [Option.some.injEq, Prod.mk.injEq] at h
        obtain ⟨rfl, rfl⟩ := h
        exact ⟨List.suffix_rfl, htakes.2, by simp [contentText],
          fun _ => ⟨by simp [contentText], by simp [PlainText, contentText]⟩⟩
      | skip =>
        obtain ⟨hrest, hstop, hlen, -⟩ := ih h
        have hless : after.length < s.length := htakes
        exact ⟨hrest.trans hsuffix, hstop, by omega, fun heq => by omega⟩
      | chars t =>
        obtain ⟨⟨ns, tail⟩, hnodes, heq⟩ := Option.map_eq_some_iff.mp h
        simp only [Prod.mk.injEq] at heq
        obtain ⟨rfl, rfl⟩ := heq
        obtain ⟨hrest, hstop, hlen, hplain⟩ := ih hnodes
        rw [contentText_consChars, List.length_append]
        refine ⟨hrest.trans hsuffix, hstop, ?_⟩
        rcases htakes with ⟨c, hc, rfl, rfl, hend⟩ | hless
        · simp only [List.length_cons, List.length_nil]
          refine ⟨by omega, fun heq => ?_⟩
          obtain ⟨hafter, hall, hin⟩ := hplain (by omega)
          refine ⟨by rw [List.append_assoc, ← hafter]; rfl, ?_, ?_⟩
          · simp [hc, hall]
          · intro hbad
            rcases List.infix_cons_iff.mp hbad with hpre | hbad
            · rw [hafter] at hend
              exact hend (hpre.trans (List.prefix_append (c :: contentText ns) tail))
            · exact hin hbad
        · exact ⟨by omega, fun heq => by omega⟩
      | empty tagName attrs =>
        obtain ⟨⟨ns, tail⟩, hnodes, heq⟩ := Option.map_eq_some_iff.mp h
        simp only [Prod.mk.injEq] at heq
        obtain ⟨rfl, rfl⟩ := heq
        obtain ⟨hrest, hstop, hlen, -⟩ := ih hnodes
        have hless := htakes.1
        have htext : contentText (.element tagName attrs [] :: ns) = contentText ns := rfl
        rw [htext]
        exact ⟨hrest.trans hsuffix, hstop, by omega, fun heq => by omega⟩
      | opening tagName attrs =>
        obtain ⟨⟨cs, inner⟩, hinner, h⟩ := Option.bind_eq_some_iff.mp h
        obtain ⟨behind, htag, h⟩ := Option.bind_eq_some_iff.mp h
        obtain ⟨⟨ns, tail⟩, hnodes, heq⟩ := Option.map_eq_some_iff.mp h
        simp only [Prod.mk.injEq] at heq
        obtain ⟨rfl, rfl⟩ := heq
        obtain ⟨hinnerSuffix, -, -, -⟩ := ih hinner
        obtain ⟨-, hbehind, -⟩ := endTag_eq_some htag
        obtain ⟨hrest, hstop, hlen, -⟩ := ih hnodes
        have hless := htakes.1
        have hall := hbehind.trans hinnerSuffix
        have hshort := hall.length_le
        have htext : contentText (.element tagName attrs cs :: ns) = contentText ns := rfl
        rw [htext]
        exact ⟨(hrest.trans hall).trans hsuffix, hstop, by omega, fun heq => by omega⟩

/-- An element of the content was read from its tag, and its own content ended at its end tag. -/
theorem nodes_find {node : Node} (h : nodes n s = some (ns, rest))
    (hfind : ns.find? (Node.isElement name) = some node) :
    ∃ attrs children, node = .element name attrs children ∧
      (children = [] ∧ (∃ t, t <:+ s ∧ '<' :: name <+: t) ∨
        ∃ m t after, nodes m t = some (children, after) ∧ t <:+ s ∧
          t.length + name.length + 2 ≤ s.length ∧ "</".toList ++ name <+: after) := by
  induction n generalizing s ns rest with
  | zero => simp [nodes] at h
  | succ n ih =>
    -- what was found behind a suffix of the text was found in the text
    have hlift : ∀ {t : Text} {ns : List Node} {tail : Text}, t <:+ s →
        nodes n t = some (ns, tail) → ns.find? (Node.isElement name) = some node →
          ∃ attrs children, node = .element name attrs children ∧
            (children = [] ∧ (∃ t, t <:+ s ∧ '<' :: name <+: t) ∨
              ∃ m t after, nodes m t = some (children, after) ∧ t <:+ s ∧
                t.length + name.length + 2 ≤ s.length ∧ "</".toList ++ name <+: after) := by
      intro t ns tail ht hnodes hfind
      have hle := ht.length_le
      obtain ⟨attrs, children, rfl, hread⟩ := ih hnodes hfind
      refine ⟨attrs, children, rfl, ?_⟩
      rcases hread with ⟨hnil, u, hu, hpre⟩ | ⟨m, u, after, hread, hu, hlen, hend⟩
      · exact Or.inl ⟨hnil, u, hu.trans ht, hpre⟩
      · exact Or.inr ⟨m, u, after, hread, hu.trans ht, by omega, hend⟩
    rw [nodes] at h
    cases hpiece : piece s with
    | none => simp [hpiece] at h
    | some r =>
      obtain ⟨p, after⟩ := r
      obtain ⟨hsuffix, htakes⟩ := piece_takes hpiece
      simp only [hpiece] at h
      cases p with
      | stop =>
        simp only [Option.some.injEq, Prod.mk.injEq] at h
        obtain ⟨rfl, rfl⟩ := h
        simp at hfind
      | skip => exact hlift hsuffix h hfind
      | chars t =>
        obtain ⟨⟨ns, tail⟩, hnodes, heq⟩ := Option.map_eq_some_iff.mp h
        simp only [Prod.mk.injEq] at heq
        obtain ⟨rfl, rfl⟩ := heq
        rw [find?_consChars] at hfind
        exact hlift hsuffix hnodes hfind
      | empty tagName attrs =>
        obtain ⟨⟨ns, tail⟩, hnodes, heq⟩ := Option.map_eq_some_iff.mp h
        simp only [Prod.mk.injEq] at heq
        obtain ⟨rfl, rfl⟩ := heq
        by_cases hname : tagName = name
        · subst hname
          rw [List.find?_cons_of_pos (by simp [Node.isElement])] at hfind
          obtain rfl := Option.some.inj hfind
          exact ⟨attrs, [], rfl, Or.inl ⟨rfl, s, List.suffix_rfl, htakes.2⟩⟩
        · rw [List.find?_cons_of_neg (by simp [Node.isElement, hname])] at hfind
          exact hlift hsuffix hnodes hfind
      | opening tagName attrs =>
        obtain ⟨⟨cs, inner⟩, hinner, h⟩ := Option.bind_eq_some_iff.mp h
        obtain ⟨behind, htag, h⟩ := Option.bind_eq_some_iff.mp h
        obtain ⟨⟨ns, tail⟩, hnodes, heq⟩ := Option.map_eq_some_iff.mp h
        simp only [Prod.mk.injEq] at heq
        obtain ⟨rfl, rfl⟩ := heq
        obtain ⟨hend, hbehind, -⟩ := endTag_eq_some htag
        by_cases hname : tagName = name
        · subst hname
          rw [List.find?_cons_of_pos (by simp [Node.isElement])] at hfind
          obtain rfl := Option.some.inj hfind
          exact ⟨attrs, cs, rfl, Or.inr ⟨n, after, inner, hinner, hsuffix, htakes.1, hend⟩⟩
        · rw [List.find?_cons_of_neg (by simp [Node.isElement, hname])] at hfind
          exact hlift ((hbehind.trans (nodes_takes hinner).1).trans hsuffix) hnodes hfind

end Content

/-! ### Reading what was written -/

/-- The text is read as these nodes, with this remainder, whenever the fuel exceeds its length. -/
def Reads (s : Text) (ns : List Node) (rest : Text) : Prop :=
  ∀ n, s.length < n → nodes n s = some (ns, rest)

/-- A name that is taken whole. -/
def IsName (name : Text) : Prop := takeName name = some (name, [])

instance : DecidablePred IsName := fun name => inferInstanceAs (Decidable (takeName name = _))

section Reads

variable {s t u rest name inner : Text} {ns cs : List Node}

theorem IsName.exists_cons (h : IsName name) :
    ∃ c w, name = c :: w ∧ isNameStart c = true ∧ w.takeWhile isNameChar = w := by
  cases name with
  | nil => simp [IsName, takeName] at h
  | cons c w =>
    rw [IsName, takeName] at h
    split at h
    · rename_i hc
      simp only [Option.some.injEq, Prod.mk.injEq, List.cons.injEq, true_and] at h
      exact ⟨c, w, rfl, hc, h.1⟩
    · simp at h

/-- A name ends where no character of a name follows. -/
theorem takeName_append (h : IsName name) (hs : s.head?.all (fun c => !isNameChar c) = true) :
    takeName (name ++ s) = some (name, s) := by
  obtain ⟨c, w, rfl, hc, hw⟩ := h.exists_cons
  have hall : ∀ d ∈ w, isNameChar d = true := List.takeWhile_eq_self_iff.mp hw
  have hnone : s.takeWhile isNameChar = [] ∧ s.dropWhile isNameChar = s := by
    cases s with
    | nil => exact ⟨rfl, rfl⟩
    | cons d s =>
      have hd : isNameChar d = false := by simpa using hs
      exact ⟨List.takeWhile_cons_of_neg (by simp [hd]), List.dropWhile_cons_of_neg (by simp [hd])⟩
  rw [List.cons_append, takeName, if_pos hc, List.takeWhile_append_of_pos hall,
    List.dropWhile_append_of_pos hall, hnone.1, hnone.2, List.append_nil]

/-- Behind an angle bracket and a name stands a tag. -/
theorem piece_name (h : IsName name) (s : Text) : piece ('<' :: (name ++ s)) = tag (name ++ s) := by
  obtain ⟨c, w, rfl, hc, -⟩ := h.exists_cons
  have hne : ∀ d, isNameStart d = false → c ≠ d := by
    rintro d hd rfl
    simp [hc] at hd
  have hslash := hne '/' (by decide)
  have hbang := hne '!' (by decide)
  have hask := hne '?' (by decide)
  have hcomment : ¬"!--".toList <+: c :: (w ++ s) := fun h =>
    hbang (List.cons_prefix_cons.mp h).1.symm
  have hcdata : ¬"![CDATA[".toList <+: c :: (w ++ s) := fun h =>
    hbang (List.cons_prefix_cons.mp h).1.symm
  rw [List.cons_append, piece, if_pos rfl, if_neg (by simpa using hslash), if_neg hcomment,
    if_neg hcdata, if_neg (by simpa using hask)]

theorem attributes_end (n : ℕ) (s : Text) : attributes (n + 1) ('>' :: s) = some ([], '>' :: s) := by
  simp [attributes, isSpace]

/-- A start tag without attributes. -/
theorem piece_startTag (h : IsName name) (s : Text) :
    piece ('<' :: (name ++ '>' :: s)) = some (.opening name [], s) := by
  have hend : ¬"/>".toList <+: '>' :: s := by simp
  rw [piece_name h, tag, takeName_append h rfl, Option.bind_some, attributes_end, Option.bind_some]
  dsimp only
  rw [if_neg hend, if_pos List.head?_cons]
  rfl

/-- A text that stands for itself in quotes. -/
def isQuotable (c : Char) : Bool := isPlain c && c != '"' && (!isSpace c || c == ' ')

theorem attText_eq {value : Text} (hvalue : value.all isQuotable = true) {n : ℕ}
    (hn : value.length < n) : attText n value = some value := by
  induction value generalizing n with
  | nil =>
    obtain ⟨n, rfl⟩ : ∃ m, n = m + 1 := ⟨n - 1, by simp at hn; omega⟩
    rfl
  | cons c value ih =>
    obtain ⟨n, rfl⟩ : ∃ m, n = m + 1 := ⟨n - 1, by simp at hn; omega⟩
    simp only [List.length_cons, Nat.add_lt_add_iff_right] at hn
    simp only [List.all_cons, isQuotable, isPlain, Bool.and_eq_true, bne_iff_ne, ne_eq,
      Bool.or_eq_true, Bool.not_eq_true', beq_iff_eq] at hvalue
    obtain ⟨⟨⟨⟨⟨hchar, hlt⟩, hamp⟩, -⟩, hspace⟩, hrest⟩ := hvalue
    have hkeep : (if isSpace c = true then ' ' else c) = c := by
      rcases hspace with hno | rfl
      · simp [hno]
      · rfl
    rw [attText, if_neg hlt, if_neg hamp, if_pos hchar, hkeep, ih (by simpa [isQuotable, isPlain,
      and_assoc] using hrest) hn]
    rfl

/-- A start tag with one attribute. -/
theorem piece_startTag_attr {attr value : Text} (h : IsName name) (hattr : IsName attr)
    (hvalue : value.all isQuotable = true) (s : Text) :
    piece ('<' :: (name ++ ' ' :: (attr ++ '=' :: '"' :: (value ++ '"' :: '>' :: s)))) =
      some (.opening name [(attr, value)], s) := by
  obtain ⟨c, w, hname, hc, -⟩ := hattr.exists_cons
  have hblank : isSpace c = false := by
    rw [isSpace]
    simp only [Bool.or_eq_false_iff, beq_eq_false_iff_ne]
    refine ⟨⟨⟨?_, ?_⟩, ?_⟩, ?_⟩ <;> (rintro rfl; revert hc; decide)
  have hdrop : ∀ t : Text, (attr ++ t).dropWhile isSpace = attr ++ t := by
    intro t
    rw [hname, List.cons_append]
    exact List.dropWhile_cons_of_neg (by simp [hblank])
  have hend : ∀ t : Text, ¬((attr ++ t).head? = some '>' ∨ "/>".toList <+: attr ++ t) := by
    intro t
    rw [hname, List.cons_append]
    rintro (hhead | hpre)
    · obtain rfl : c = '>' := by simpa using hhead
      revert hc
      decide
    · obtain rfl : '/' = c := (List.cons_prefix_cons.mp hpre).1
      revert hc
      decide
  have hquote : '"' ∉ value := by
    intro hmem
    have := List.all_eq_true.mp hvalue _ hmem
    simp [isQuotable] at this
  have hquoted : ∀ t : Text, quoted ('"' :: (value ++ '"' :: t)) = some (value, t) := by
    intro t
    rw [quoted, if_pos (Or.inl rfl), strstr_char hquote, Option.bind_some,
      attText_eq hvalue (Nat.lt_succ_self _)]
    rfl
  have hattrs : ∀ n, attributes (n + 2) (' ' :: (attr ++ '=' :: '"' :: (value ++ '"' :: '>' :: s))) =
      some ([(attr, value)], '>' :: s) := by
    intro n
    have hspace : (' ' :: (attr ++ '=' :: '"' :: (value ++ '"' :: '>' :: s))).dropWhile isSpace =
        attr ++ '=' :: '"' :: (value ++ '"' :: '>' :: s) := by
      rw [List.dropWhile_cons_of_pos (by decide), hdrop]
    have hequals : equals ('=' :: '"' :: (value ++ '"' :: '>' :: s)) =
        some ('"' :: (value ++ '"' :: '>' :: s)) := by
      simp [equals, isSpace]
    rw [attributes]
    simp only [hspace]
    rw [if_neg (hend _), if_neg (by simp), takeName_append hattr rfl, Option.bind_some,
      hequals, Option.bind_some, hquoted, Option.bind_some, attributes_end]
    rfl
  have hclose : ¬"/>".toList <+: '>' :: s := by simp
  rw [piece_name h, tag, takeName_append h rfl, Option.bind_some, List.length_cons, hattrs,
    Option.bind_some]
  dsimp only
  rw [if_neg hclose, if_pos List.head?_cons]
  rfl

theorem endTag_self (name s : Text) : endTag name ("</".toList ++ (name ++ '>' :: s)) = some s := by
  have hdrop : ("</".toList ++ (name ++ '>' :: s)).drop (name.length + 2) = '>' :: s := by
    rw [← List.append_assoc]
    exact List.drop_left' (Nat.add_comm 2 name.length ▸ List.length_append)
  have hpre : "</".toList ++ name <+: "</".toList ++ (name ++ '>' :: s) := by
    rw [← List.append_assoc]
    exact List.prefix_append _ _
  rw [endTag, if_pos hpre, hdrop, List.dropWhile_cons_of_neg (by decide)]
  rfl

theorem Reads.stop (s : Text) : Reads ("</".toList ++ s) [] ("</".toList ++ s) := by
  intro n hn
  obtain ⟨n, rfl⟩ : ∃ m, n = m + 1 := ⟨n - 1, by omega⟩
  rfl

/-- Without a closing bracket there is no end of a CDATA section. -/
theorem plainText_of_forall (h : ∀ c ∈ u, isPlain c = true ∧ c ≠ ']') : PlainText u := by
  refine ⟨List.all_eq_true.mpr fun c hc => (h c hc).1, fun hin => ?_⟩
  have hmem : ']' ∈ u := hin.subset (by decide)
  exact (h _ hmem).2 rfl

theorem PlainText.tail {c : Char} (h : PlainText (c :: u)) : PlainText u := by
  refine ⟨?_, fun hin => h.2 (hin.trans (List.suffix_cons c u).isInfix)⟩
  have := h.1
  simp only [List.all_cons, Bool.and_eq_true] at this
  exact this.2

theorem consChars_consChars (c : Char) (u : Text) (ns : List Node) :
    consChars [c] (consChars u ns) = consChars (c :: u) ns := by
  cases ns with
  | nil => by_cases hu : u = [] <;> simp [consChars, hu]
  | cons node ns =>
    cases node with
    | text v => simp [consChars]
    | element _ _ _ => by_cases hu : u = [] <;> simp [consChars, hu]

theorem consChars_nil (ns : List Node) : consChars [] ns = ns := by
  cases ns with
  | nil => rfl
  | cons node ns => cases node <;> rfl

/-- The first character of a plain text in front of a tag. -/
theorem piece_plain {c : Char} (h : PlainText (c :: u)) (hs : s.head? = some '<') :
    piece (c :: (u ++ s)) = some (.chars [c], u ++ s) := by
  have hc : isPlain c = true := by
    have := h.1
    simp only [List.all_cons, Bool.and_eq_true] at this
    exact this.1
  simp only [isPlain, Bool.and_eq_true, bne_iff_ne, ne_eq] at hc
  have hend : ¬"]]>".toList <+: c :: (u ++ s) := by
    intro hpre
    rcases List.prefix_or_prefix_of_prefix hpre (List.prefix_append (c :: u) s) with
      hin | ⟨k, hk⟩
    · exact h.2 hin.isInfix
    · rw [← hk, ← List.cons_append, List.prefix_append_right_inj] at hpre
      cases k with
      | nil => exact h.2 (by rw [← hk]; simp)
      | cons d k =>
        obtain ⟨s, rfl⟩ := List.head?_eq_some_iff.mp hs
        obtain rfl := (List.cons_prefix_cons.mp hpre).1
        have hmem : '<' ∈ "]]>".toList := by
          rw [← hk]
          simp
        exact absurd hmem (by decide)
  rw [piece, if_neg hc.1.2, if_neg hc.2, if_neg hend, if_pos hc.1.1]

/-- Plain text in front of a tag is read as it stands. -/
theorem Reads.chars (hu : PlainText u) (hs : s.head? = some '<') (h : Reads s ns rest) :
    Reads (u ++ s) (consChars u ns) rest := by
  induction u with
  | nil =>
    rw [consChars_nil]
    exact h
  | cons c u ih =>
    intro n hn
    obtain ⟨n, rfl⟩ : ∃ m, n = m + 1 := ⟨n - 1, by omega⟩
    simp only [List.cons_append, List.length_cons, Nat.add_lt_add_iff_right] at hn
    rw [List.cons_append, nodes, piece_plain hu hs]
    simp only [ih hu.tail n hn, Option.map_some, consChars_consChars]

/-- An element in front of a text. -/
def withElement (name inner s : Text) : Text :=
  '<' :: (name ++ '>' :: (inner ++ ("</".toList ++ (name ++ '>' :: s))))

theorem withElement_append (name inner s t : Text) :
    withElement name inner s ++ t = withElement name inner (s ++ t) := by
  unfold withElement
  simp only [List.cons_append, List.append_assoc]

/-- An element is read from its content and from what follows it. -/
theorem Reads.element (hname : IsName name)
    (hinner : Reads (inner ++ ("</".toList ++ (name ++ '>' :: s))) cs
      ("</".toList ++ (name ++ '>' :: s)))
    (h : Reads s ns rest) : Reads (withElement name inner s) (.element name [] cs :: ns) rest := by
  intro n hn
  obtain ⟨n, rfl⟩ : ∃ m, n = m + 1 := ⟨n - 1, by omega⟩
  simp only [withElement, List.length_cons, List.length_append] at hn
  have hread := hinner n (by simp only [List.length_append, List.length_cons]; omega)
  rw [withElement, nodes, piece_startTag hname]
  simp only [hread, Option.bind_some, endTag_self]
  rw [h n (by omega)]
  rfl

/-- An element with plain text. -/
theorem Reads.textElement (hname : IsName name) (hu : PlainText u) (h : Reads s ns rest) :
    Reads (withElement name u s) (.element name [] (consChars u []) :: ns) rest :=
  Reads.element hname (Reads.chars hu rfl (Reads.stop _)) h

theorem lineEnds_eq_self (h : '\r' ∉ s) : lineEnds s = s := by
  induction s with
  | nil => rfl
  | cons c s ih =>
    simp only [List.mem_cons, not_or] at h
    rw [lineEnds, if_neg (Ne.symm h.1), ih h.2]

theorem misc_of_space (h : s.all isSpace = true) : misc (s.length + 1) s = some [] := by
  have hdrop : s.dropWhile isSpace = [] :=
    List.dropWhile_eq_nil_iff.mpr fun c hc => List.all_eq_true.mp h c hc
  rw [misc]
  simp only [hdrop]
  rfl

/-- A document that starts with its root is the root. -/
theorem document_eq {attrs : List (Text × Text)} (hs : '\r' ∉ '<' :: s)
    (hpiece : piece ('<' :: s) = some (.opening name attrs, inner)) :
    document ('<' :: s) = (nodes (inner.length + 1) inner).bind fun r =>
      (endTag name r.2).bind fun after => documentEnd (.element name attrs r.1) after := by
  have hdrop : ('<' :: s).dropWhile isSpace = '<' :: s :=
    List.dropWhile_cons_of_neg (by decide)
  rw [document, lineEnds_eq_self hs, root, misc]
  simp only [hdrop, hpiece, Option.bind_some]

/-- A document is read from the content of its root. -/
theorem document_of_reads {attrs : List (Text × Text)} (hs : '\r' ∉ '<' :: s)
    (hpiece : piece ('<' :: s) = some (.opening name attrs, inner))
    (hinner : Reads inner cs ("</".toList ++ (name ++ '>' :: t))) (ht : t.all isSpace = true) :
    document ('<' :: s) = some (.element name attrs cs) := by
  rw [document_eq hs hpiece, hinner _ (Nat.lt_succ_self _)]
  simp only [Option.bind_some, endTag_self, documentEnd, misc_of_space ht, if_true]

end Reads

/-! ### Reading back to front -/

section Inversion

variable {n : ℕ} {s u rest name : Text} {ns : List Node}

/-- Plain text in front of a tag is read first. -/
theorem nodes_chars_eq_some (hu : PlainText u) (hs : s.head? = some '<')
    (h : nodes n (u ++ s) = some (ns, rest)) :
    ∃ m ns', nodes m s = some (ns', rest) ∧ ns = consChars u ns' := by
  induction u generalizing n ns with
  | nil => exact ⟨n, ns, h, (consChars_nil ns).symm⟩
  | cons c u ih =>
    cases n with
    | zero => simp [nodes] at h
    | succ n =>
      rw [List.cons_append, nodes, piece_plain hu hs] at h
      obtain ⟨⟨ms, tail⟩, hnodes, heq⟩ := Option.map_eq_some_iff.mp h
      simp only [Prod.mk.injEq] at heq
      obtain ⟨rfl, rfl⟩ := heq
      obtain ⟨m, ns', hread, rfl⟩ := ih hu.tail hnodes
      exact ⟨m, ns', hread, consChars_consChars c u ns'⟩

/-- Behind a start tag the content is read up to an end tag, not necessarily the one that was
written for it. -/
theorem nodes_withElement_eq_some (hname : IsName name)
    (h : nodes n (withElement name u s) = some (ns, rest)) :
    ∃ m cs inner after ns',
      nodes m (u ++ ("</".toList ++ (name ++ '>' :: s))) = some (cs, inner) ∧
        endTag name inner = some after ∧ nodes m after = some (ns', rest) ∧
          ns = .element name [] cs :: ns' := by
  cases n with
  | zero => simp [nodes] at h
  | succ n =>
    rw [withElement, nodes, piece_startTag hname] at h
    obtain ⟨⟨cs, inner⟩, hinner, h⟩ := Option.bind_eq_some_iff.mp h
    obtain ⟨after, htag, h⟩ := Option.bind_eq_some_iff.mp h
    obtain ⟨⟨ns', tail⟩, hnodes, heq⟩ := Option.map_eq_some_iff.mp h
    simp only [Prod.mk.injEq] at heq
    obtain ⟨rfl, rfl⟩ := heq
    exact ⟨n, cs, inner, after, ns', hinner, htag, hnodes, rfl⟩

/-- Characters are on no path. -/
theorem flatMap_select_consChars (path : List Text) (t : Text) (ns : List Node) :
    (consChars t ns).flatMap (Node.select (name :: path)) =
      ns.flatMap (Node.select (name :: path)) := by
  cases ns with
  | nil => by_cases ht : t = [] <;> simp [consChars, Node.select, Node.isElement, ht]
  | cons node ns =>
    cases node with
    | text u => simp [consChars, Node.select, Node.isElement]
    | element _ _ _ => by_cases ht : t = [] <;> simp [consChars, Node.select, Node.isElement, ht]

/-- An element with another name is not on the path. -/
theorem flatMap_select_cons_of_ne {other : Text} (h : other ≠ name) (path : List Text)
    (attrs : List (Text × Text)) (cs ns : List Node) :
    (Node.element other attrs cs :: ns).flatMap (Node.select (name :: path)) =
      ns.flatMap (Node.select (name :: path)) := by
  simp [Node.select, Node.isElement, h]

/-- A suffix that starts with a mark reaches back to the place where the mark stands. -/
theorem length_le_of_mark {α : Type*} {mark before front back t : List α}
    (hback : ¬mark <:+: back)
    (hfront : ∀ k ∈ front.tails, k = front ∨ k = [] ∨ ¬(k <+: mark ∨ mark <+: k))
    (ht : t <:+ before ++ (front ++ back)) (hmark : mark <+: t) :
    (front ++ back).length ≤ t.length := by
  rcases List.suffix_or_suffix_of_suffix ht (List.suffix_append before _) with hin | hin
  · rcases List.suffix_or_suffix_of_suffix hin (List.suffix_append front back) with hin' | ⟨k, rfl⟩
    · exact absurd (hmark.isInfix.trans hin'.isInfix) hback
    · have hk : k <:+ front := by
        obtain ⟨a, ha⟩ := hin
        rw [← List.append_assoc, List.append_left_inj] at ha
        exact ⟨a, ha⟩
      rcases hfront k ((List.mem_tails _ _).mpr hk) with rfl | rfl | hne
      · exact le_rfl
      · exact absurd hmark.isInfix hback
      · exact absurd (List.prefix_or_prefix_of_prefix (List.prefix_append k back) hmark) hne
  · exact hin.length_le

theorem documentEnd_eq_some {node root : Node} (h : documentEnd root s = some node) :
    node = root := by
  obtain ⟨t, _, h⟩ := Option.bind_eq_some_iff.mp h
  split at h
  · exact (Option.some.inj h).symm
  · simp at h

end Inversion

end Xml
