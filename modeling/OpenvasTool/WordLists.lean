import OpenvasTool.CommMisc
import OpenvasTool.Hydra.Store
import OpenvasTool.Streams
import OpenvasTool.Support.Split

/-!
# Merging word lists

`copyFileListSafe` on the streams of its writes. The line break between two files
is a write of its own, and its result is not looked at; and no result of `fclose`
is. So a merge that returns 0 has lost bytes whenever one of these writes did, and
it is exact in all other cases.
-/

namespace OpenvasTool

open Posix Support

/-- The outcomes of all calls of one `copyFileListSafe`. -/
structure CopyIo where
  /-- The stream of the `writeFile` or `appendFile` with this number. -/
  stream : ℕ → Stream
  /-- `stat` of a file, apart from a missing one. -/
  stat : Text → Bool
  /-- The allocation and the reading of a file. -/
  read : Text → Bool
  /-- `rename`. -/
  rename : Bool

namespace CopyIo

/-- The write of a content in the loop of `copyFileList`. The calls that write are counted from `n`,
and the first one of all truncates the file. The fuel of a write loop is its number of bytes and two. -/
def writeContent (io : CopyIo) (dst : Text) (n : ℕ) (content : Text) (files : Files) :
    Option (ℤ × Files) :=
  if n = 0 then (io.stream n).writeFile (content.length + 2) content dst files
  else (io.stream n).appendFile (content.length + 2) content dst files

/-- A content and the line break behind it, the return value of which is ignored. -/
def copyContent (io : CopyIo) (dst : Text) (n : ℕ) (content : Text) (files : Files) :
    Option (ℤ × Files) :=
  (io.writeContent dst n content files).bind fun r =>
    if content.getLast? ≠ some '\n' ∧ r.1 = 0 then
      ((io.stream (n + 1)).appendFile 3 ['\n'] dst r.2).map fun r' => (r.1, r'.2)
    else some r

/-- The path of a listed file. -/
def listedPath (basedir name : Text) : Text := basedir ++ "/".toList ++ name

/-- The loop of `copyFileList`; there is no result when the fuel runs out. -/
def copyFileLoop (io : CopyIo) (basedir dst : Text) : ℕ → ℕ → Text → Files → Option (ℤ × Files)
  | 0, _, _, _ => none
  | fuel + 1, n, filelist, files =>
      match getNextToken filelist [','] maxFilenamePathSize with
      | .error .empty => some (if 0 < n then 0 else 1, files)
      | .error _ => some (-1, files)
      | .ok (name, rest) =>
          let path := listedPath basedir name.text
          if name.text.isEmpty ∨ maxFilenamePathSize ≤ path.length then some (-1, files)
          else
            match readTotalFile (io.stat path) (io.read path) (files path) with
            | .ok content => do
                let r ← io.copyContent dst n content files
                if r.1 = 0 then copyFileLoop io basedir dst fuel (n + 2) rest r.2 else some r
            | .error .noFile => some (1, files)
            | .error .emptyFile => copyFileLoop io basedir dst fuel n rest files
            | .error _ => some (-1, files)

/-- `copyFileListSafe`, with `copyFileList` in it. -/
def copyFileListSafe (io : CopyIo) (basedir filelist dst dstTmp : Text) (files : Files) :
    Option (ℤ × Files) :=
  (io.copyFileLoop basedir dstTmp (filelist.length + 1) 0 filelist files).map fun r =>
    if r.1 = 0 then
      if io.rename then (0, (r.2.set dst (r.2 dstTmp)).set dstTmp none) else (-3, r.2)
    else r

/-! ### What a merge should store -/

/-- A content with a line break at its end. -/
def ended (content : Text) : Text :=
  if content = [] ∨ content.getLast? = some '\n' then content else content ++ ['\n']

/-- The listed files one after the other. -/
def merged (basedir filelist : Text) (files : Files) : Text :=
  (splitNoEmpty ',' filelist).flatMap fun name => ended ((files (listedPath basedir name)).getD [])

/-- What `readTotalFile` gives to copy of a listed file. -/
def contentOf (io : CopyIo) (basedir : Text) (files : Files) (name : Text) : Option Text :=
  let path := listedPath basedir name
  match readTotalFile (io.stat path) (io.read path) (files path) with
  | .ok content => some content
  | .error .emptyFile => some []
  | .error _ => none

/-- The contents to copy, or nothing when an entry of the list or a listed file is refused. -/
def contents (io : CopyIo) (basedir : Text) (files : Files) : ℕ → Text → Option (List Text)
  | 0, _ => none
  | fuel + 1, filelist =>
      match getNextToken filelist [','] maxFilenamePathSize with
      | .error .empty => some []
      | .error _ => none
      | .ok (name, rest) =>
          if name.text.isEmpty ∨ maxFilenamePathSize ≤ (listedPath basedir name.text).length then none
          else
            match io.contentOf basedir files name.text with
            | none => none
            | some [] => contents io basedir files fuel rest
            | some content => (contents io basedir files fuel rest).map (content :: ·)

/-- The streams accept all of these contents, the first one in the call with number `n`. -/
def AllAccepted (io : CopyIo) : ℕ → List Text → Prop
  | _, [] => True
  | n, content :: cs =>
      (io.stream n).opened = true ∧ (io.stream n).Accepts 0 content.length ∧
        AllAccepted io (n + 2) cs

/-- What the call that appends a line break stores. -/
def lineBreak (o : Stream) : Text :=
  if o.opened = true ∧ 0 < (o.fwrite 0).accepted then ['\n'].take o.stored else []

/-- The streams store all bytes of these contents, and the line break behind each that needs one. -/
def AllStored (io : CopyIo) : ℕ → List Text → Prop
  | _, [] => True
  | n, content :: cs =>
      content.length ≤ (io.stream n).stored ∧
        (content.getLast? ≠ some '\n' → lineBreak (io.stream (n + 1)) = ['\n']) ∧
        AllStored io (n + 2) cs

/-- What the streams store of contents that they accept. -/
def storedText (io : CopyIo) : ℕ → List Text → Text
  | _, [] => []
  | n, content :: cs =>
      content.take (io.stream n).stored ++
        (if content.getLast? = some '\n' then [] else lineBreak (io.stream (n + 1))) ++
        storedText io (n + 2) cs

variable {io : CopyIo} {basedir dst : Text} {files : Files}

theorem length_lineBreak (o : Stream) : (lineBreak o).length ≤ 1 := by
  unfold lineBreak
  split
  · simp
  · simp

theorem eq_of_length_lineBreak {o : Stream} (h : (lineBreak o).length = 1) : lineBreak o = ['\n'] := by
  unfold lineBreak at h ⊢
  split
  · rename_i hcond
    rw [if_pos hcond, List.length_take] at h
    rw [List.take_of_length_le]
    simp only [List.length_singleton] at h ⊢
    omega
  · rename_i hcond
    rw [if_neg hcond] at h
    simp at h

theorem length_ended {content : Text} (hne : content ≠ []) :
    (ended content).length =
      content.length + if content.getLast? = some '\n' then 0 else 1 := by
  unfold ended
  by_cases hlast : content.getLast? = some '\n'
  · simp [hlast]
  · simp [hne, hlast]

/-- Nothing is stored that does not belong there, and everything is stored exactly if each call
stores all its bytes. -/
theorem storedText_length (n : ℕ) {cs : List Text} (hne : ∀ c ∈ cs, c ≠ []) :
    (io.storedText n cs).length ≤ (cs.flatMap ended).length ∧
      ((io.storedText n cs).length = (cs.flatMap ended).length → io.AllStored n cs) := by
  induction cs generalizing n with
  | nil => exact ⟨le_rfl, fun _ => trivial⟩
  | cons content cs ih =>
    obtain ⟨hle, hall⟩ := ih (n + 2) fun c hc => hne c (by simp [hc])
    have hended := length_ended (hne content (by simp))
    have hbreak := length_lineBreak (io.stream (n + 1))
    simp only [storedText, AllStored, List.flatMap_cons, List.length_append, List.length_take, hended]
    by_cases hlast : content.getLast? = some '\n'
    · simp only [hlast, if_true, List.length_nil, ne_eq, not_true_eq_false, false_implies, true_and]
      exact ⟨by omega, fun heq => ⟨by omega, hall (by omega)⟩⟩
    · simp only [hlast, if_false, ne_eq, not_false_eq_true, true_implies]
      exact ⟨by omega, fun heq => ⟨by omega, eq_of_length_lineBreak (by omega), hall (by omega)⟩⟩

theorem storedText_eq {n : ℕ} {cs : List Text} (hne : ∀ c ∈ cs, c ≠ []) (h : io.AllStored n cs) :
    io.storedText n cs = cs.flatMap ended := by
  induction cs generalizing n with
  | nil => rfl
  | cons content cs ih =>
    obtain ⟨hlen, hbreak, hrest⟩ := h
    rw [storedText, ih (fun c hc => hne c (by simp [hc])) hrest, List.take_of_length_le hlen,
      List.flatMap_cons, ended]
    by_cases hlast : content.getLast? = some '\n'
    · simp [hlast]
    · simp [hlast, hbreak hlast, hne content (by simp)]

theorem storedText_eq_iff (n : ℕ) {cs : List Text} (hne : ∀ c ∈ cs, c ≠ []) :
    io.storedText n cs = cs.flatMap ended ↔ io.AllStored n cs :=
  ⟨fun heq => (storedText_length n hne).2 (congrArg List.length heq), storedText_eq hne⟩

/-! ### The list -/

/-- A file that is read has a content, and an empty file is known. -/
theorem readTotalFile_cases {stat read : Bool} {file : Option Text} :
    (∃ content, readTotalFile stat read file = .ok content ∧ file = some content ∧
        content ≠ [] ∧ content.length ≤ maxTaskFileSize) ∨
      (readTotalFile stat read file = .error .emptyFile ∧ file = some []) ∨
      ∃ e, readTotalFile stat read file = .error e ∧ e ≠ .emptyFile := by
  unfold readTotalFile
  cases stat with
  | false => exact Or.inr (Or.inr ⟨.ioError, by simp⟩)
  | true =>
    cases file with
    | none => exact Or.inr (Or.inr ⟨.noFile, by simp⟩)
    | some content =>
      simp only [if_true]
      split
      · exact Or.inr (Or.inr ⟨.tooLarge, by simp⟩)
      rename_i hlength
      split
      · rename_i hempty
        exact Or.inr (Or.inl ⟨rfl, by simpa using hempty⟩)
      · rename_i hempty
        split
        · exact Or.inl ⟨content, rfl, rfl, by simpa using hempty, not_lt.mp hlength⟩
        · exact Or.inr (Or.inr ⟨.ioError, by simp⟩)

/-- A listed file that is copied has this content. -/
theorem contentOf_eq_some {name content : Text} (h : io.contentOf basedir files name = some content) :
    files (listedPath basedir name) = some content := by
  unfold contentOf at h
  rcases @readTotalFile_cases (io.stat (listedPath basedir name))
      (io.read (listedPath basedir name)) (files (listedPath basedir name)) with
    ⟨text, hread, hfile, _⟩ | ⟨hread, hfile⟩ | ⟨e, hread, hne⟩
  · simp only [hread] at h
    rw [hfile, h]
  · simp only [hread] at h
    rw [hfile, h]
  · cases e with
    | emptyFile => exact absurd rfl hne
    | _ => simp [hread] at h

/-- The contents are those of the listed files that are not empty. -/
theorem merged_eq {fuel : ℕ} {filelist : Text} {cs : List Text}
    (h : io.contents basedir files fuel filelist = some cs) :
    merged basedir filelist files = cs.flatMap ended ∧ ∀ c ∈ cs, c ≠ [] := by
  induction fuel generalizing filelist cs with
  | zero => simp [contents] at h
  | succ fuel ih =>
    rw [contents] at h
    split at h
    · rename_i htok
      obtain rfl := getNextToken_eq_empty htok
      obtain rfl := Option.some.inj h
      exact ⟨rfl, by simp⟩
    · simp at h
    · rename_i name rest htok
      split at h
      · simp at h
      rename_i hname
      have hnonempty : name.text ≠ [] := fun hnil => hname (Or.inl (by simp [hnil]))
      obtain ⟨hcomma, hlist⟩ := getNextToken_eq_ok htok
      -- the token is the first piece of the list
      have hpieces : splitNoEmpty ',' filelist = name.text :: splitNoEmpty ',' rest := by
        have hkeep : ∀ pieces : List Text, (name.text :: pieces).filter (fun p => !p.isEmpty) =
            name.text :: pieces.filter fun p => !p.isEmpty := by
          intro pieces
          rw [List.filter_cons_of_pos]
          simpa using hnonempty
        rcases hlist with hlist | ⟨hlist, hrest⟩
        · rw [splitNoEmpty, hlist, List.splitOn_append_cons_self_of_not_mem hcomma, hkeep]
          rfl
        · have hrest' : splitNoEmpty ',' rest = [] := by simp [hrest, splitNoEmpty]
          have hpiece := hkeep []
          rw [List.filter_nil] at hpiece
          rw [splitNoEmpty, hlist, List.splitOn_eq_singleton hcomma, hrest', hpiece]
      have hmerged : merged basedir filelist files =
          ended ((files (listedPath basedir name.text)).getD []) ++ merged basedir rest files := by
        rw [merged, hpieces, List.flatMap_cons]
        rfl
      split at h
      · simp at h
      · rename_i hcontent
        obtain ⟨htext, hne⟩ := ih h
        rw [hmerged, htext]
        refine ⟨?_, hne⟩
        rw [contentOf_eq_some hcontent]
        rfl
      · rename_i content hnil hcontent
        obtain ⟨cs', hrest, rfl⟩ := Option.map_eq_some_iff.mp h
        obtain ⟨htext, hne⟩ := ih hrest
        rw [hmerged, htext, contentOf_eq_some hcontent]
        refine ⟨rfl, fun c hc => ?_⟩
        rcases List.mem_cons.mp hc with rfl | hc
        · exact hnil
        · exact hne c hc

/-! ### The loop -/

/-- The temporary file is not one of the listed files. -/
theorem listedPath_ne (hdst : ¬ basedir ++ "/".toList <+: dst) (name : Text) :
    listedPath basedir name ≠ dst := by
  rintro rfl
  exact hdst ⟨name, rfl⟩

/-- Only the listed files matter for the contents. -/
theorem contents_congr {files' : Files} (h : ∀ name, files' (listedPath basedir name) =
    files (listedPath basedir name)) (fuel : ℕ) (filelist : Text) :
    io.contents basedir files' fuel filelist = io.contents basedir files fuel filelist := by
  have hone : ∀ name, io.contentOf basedir files' name = io.contentOf basedir files name := by
    intro name
    simp only [contentOf, h]
  induction fuel generalizing filelist with
  | zero => rfl
  | succ fuel ih => simp only [contents, hone, ih]

/-- The line break reaches the end of the file as far as its stream stores it. -/
theorem appendFile_lineBreak {o : Stream} (hprog : o.Progress) {old : Text}
    (hold : files dst = some old) :
    ∃ r, o.appendFile 3 ['\n'] dst files = some r ∧ r.2 dst = some (old ++ lineBreak o) ∧
      ∀ path ≠ dst, r.2 path = files path := by
  have hsome : (o.appendFile 3 ['\n'] dst files).isSome :=
    Stream.putFile_isSome hprog (by simp)
  obtain ⟨r, hr⟩ := Option.isSome_iff_exists.mp hsome
  obtain ⟨hzero, hfiles, hother⟩ := Stream.putFile_spec_of_lt (by simp) hr
  refine ⟨r, hr, ?_, hother⟩
  by_cases hopen : o.opened = true
  · by_cases hacc : 0 < (o.fwrite 0).accepted
    · have hcode := hzero.mpr ⟨hopen, Stream.Accepts.last hacc⟩
      rw [hfiles hcode, hold, lineBreak, if_pos ⟨hopen, hacc⟩]
      simp [Files.set]
    · -- nothing is accepted, so the error is set and the loop ends
      have herr : (o.fwrite 0).err = true := (hprog 0).resolve_left hacc
      have hnone : (o.fwrite 0).accepted = 0 := Nat.eq_zero_of_not_pos hacc
      rw [lineBreak, if_neg (fun hcond => hacc hcond.2)]
      have hone : intOfSize (['\n'] : Text).length = 1 := intOfSize_of_lt (by decide)
      simp only [Stream.appendFile, Stream.putFile, hopen, if_true, Stream.fwriteLoop, herr, hnone,
        hold, hone] at hr
      obtain rfl := by simpa using hr
      simp [Files.set]
  · rw [lineBreak, if_neg (fun hcond => hopen hcond.1)]
    simp only [Stream.appendFile, Stream.putFile, hopen] at hr
    obtain rfl := by simpa using hr
    simpa using hold

/-- One file of the list: when it is reported as copied, and what is stored of it then. -/
structure Copied (io : CopyIo) (dst : Text) (files : Files) (n : ℕ) (content : Text)
    (r : ℤ × Files) : Prop where
  other : ∀ path ≠ dst, r.2 path = files path
  zero : r.1 = 0 ↔ (io.stream n).opened = true ∧ (io.stream n).Accepts 0 content.length
  stored : r.1 = 0 → r.2 dst = some ((if n = 0 then [] else (files dst).getD []) ++
    (content.take (io.stream n).stored ++
      if content.getLast? = some '\n' then [] else lineBreak (io.stream (n + 1))))

theorem copyContent_spec (hio : ∀ n, (io.stream n).Progress) (n : ℕ) {content : Text}
    (hsize : content.length < 2 ^ 31) :
    ∃ r, io.copyContent dst n content files = some r ∧ io.Copied dst files n content r := by
  obtain ⟨w, hw⟩ : ∃ w, (io.stream n).putFile (content.length + 2)
      (if n = 0 then [] else (files dst).getD []) content dst files = some w :=
    Option.isSome_iff_exists.mp (Stream.putFile_isSome (hio n) (Nat.lt_succ_self _))
  have hcall : io.writeContent dst n content files = some w := by
    rw [← hw]
    unfold writeContent Stream.writeFile Stream.appendFile
    split <;> rfl
  obtain ⟨hzero, hfiles, hother⟩ := Stream.putFile_spec_of_lt hsize hw
  rw [copyContent, hcall, Option.bind_some]
  by_cases hbreak : content.getLast? ≠ some '\n' ∧ w.1 = 0
  · rw [if_pos hbreak]
    have hdst : w.2 dst = some ((if n = 0 then [] else (files dst).getD []) ++
        content.take (io.stream n).stored) := by
      rw [hfiles hbreak.2]
      simp [Files.set]
    obtain ⟨r, hr, hrdst, hrother⟩ := appendFile_lineBreak (hio (n + 1)) hdst
    rw [hr]
    refine ⟨_, rfl, fun path hpath => (hrother path hpath).trans (hother path hpath), hzero,
      fun _ => ?_⟩
    rw [hrdst, if_neg hbreak.1, List.append_assoc]
  · rw [if_neg hbreak]
    refine ⟨_, rfl, hother, hzero, fun hcode => ?_⟩
    have hlast : content.getLast? = some '\n' := by
      by_contra hne
      exact hbreak ⟨hne, hcode⟩
    rw [hfiles hcode, if_pos hlast]
    simp [Files.set]

/-- What the loop comes to over the contents of the rest of its list, if nothing there is refused: it
returns 0 when the streams accept all of them, and has stored then what the streams keep of them. -/
structure Copies (io : CopyIo) (dst : Text) (files : Files) (n : ℕ) (contents : Option (List Text))
    (r : ℤ × Files) : Prop where
  other : ∀ path ≠ dst, r.2 path = files path
  zero : r.1 = 0 ↔ ∃ cs, contents = some cs ∧ io.AllAccepted n cs ∧ (0 < n ∨ cs ≠ [])
  stored : ∀ cs, contents = some cs → r.1 = 0 →
    r.2 dst = if cs = [] then files dst
      else some ((if n = 0 then [] else (files dst).getD []) ++ io.storedText n cs)

namespace Copies

variable {n : ℕ} {content : Text} {contents : Option (List Text)} {r w : ℤ × Files}

theorem refused {e : ℤ} (he : e ≠ 0) : io.Copies dst files n none (e, files) :=
  ⟨fun _ _ => rfl, by simp [he], by simp⟩

theorem done : io.Copies dst files n (some []) (if 0 < n then 0 else 1, files) where
  other _ _ := rfl
  zero := by by_cases hn : 0 < n <;> simp [hn, AllAccepted]
  stored := fun cs hcs _ => by rw [if_pos (Option.some.inj hcs).symm]

/-- A content is copied, and the loop goes on behind it. -/
theorem cons (hcopied : io.Copied dst files n content w) (hcode : w.1 = 0)
    (h : io.Copies dst w.2 (n + 2) contents r) :
    io.Copies dst files n (contents.map (content :: ·)) r where
  other path hpath := (h.other path hpath).trans (hcopied.other path hpath)
  zero := by
    obtain ⟨hopen, hacc⟩ := hcopied.zero.mp hcode
    rw [h.zero]
    constructor
    · rintro ⟨cs, hcs, hall, -⟩
      exact ⟨content :: cs, by rw [hcs]; rfl, ⟨hopen, hacc, hall⟩, Or.inr (by simp)⟩
    · rintro ⟨cs, hcs, hall, -⟩
      obtain ⟨cs', hcs', rfl⟩ := Option.map_eq_some_iff.mp hcs
      exact ⟨cs', hcs', hall.2.2, Or.inl (by omega)⟩
  stored := by
    intro cs hcs hzero
    obtain ⟨cs', hcs', rfl⟩ := Option.map_eq_some_iff.mp hcs
    rw [h.stored cs' hcs' hzero, if_neg (List.cons_ne_nil content cs'), storedText]
    by_cases hnil : cs' = []
    · rw [if_pos hnil, hcopied.stored hcode, hnil]
      simp [storedText]
    · rw [if_neg hnil, if_neg (by omega), hcopied.stored hcode]
      simp

/-- A content is not accepted, and the loop ends. -/
theorem failed (hcopied : io.Copied dst files n content w) (hcode : w.1 ≠ 0) :
    io.Copies dst files n (contents.map (content :: ·)) w where
  other := hcopied.other
  zero := by
    refine iff_of_false hcode ?_
    rintro ⟨cs, hcs, hall, -⟩
    obtain ⟨cs', -, rfl⟩ := Option.map_eq_some_iff.mp hcs
    exact hcode (hcopied.zero.mpr ⟨hall.1, hall.2.1⟩)
  stored := fun _ _ hzero => absurd hzero hcode

end Copies

/-- Behind an entry with a name the list is shorter. -/
theorem length_rest_lt {filelist rest : Text} {n : ℕ} {name : CStr n}
    (htok : getNextToken filelist [','] n = .ok (name, rest)) (hname : name.text ≠ []) :
    rest.length < filelist.length := by
  have hpos := List.length_pos_of_ne_nil hname
  rcases (getNextToken_eq_ok htok).2 with hlist | ⟨hlist, hnil⟩
  · rw [hlist, List.length_append, List.length_cons]
    omega
  · rw [hlist, hnil, List.length_nil]
    omega

/-- The loop ends for every list. -/
theorem copyFileLoop_spec (hio : ∀ n, (io.stream n).Progress)
    (hdst : ¬ basedir ++ "/".toList <+: dst) {fuel n : ℕ} {filelist : Text}
    (hfuel : filelist.length < fuel) :
    ∃ r, io.copyFileLoop basedir dst fuel n filelist files = some r ∧
      io.Copies dst files n (io.contents basedir files fuel filelist) r := by
  induction fuel generalizing n filelist files with
  | zero => omega
  | succ fuel ih =>
    rw [copyFileLoop, contents]
    cases htok : getNextToken filelist [','] maxFilenamePathSize with
    | error e =>
      cases e with
      | empty => exact ⟨_, rfl, .done⟩
      | _ => exact ⟨_, rfl, .refused (by decide)⟩
    | ok token =>
      obtain ⟨name, rest⟩ := token
      dsimp only
      by_cases hname : name.text.isEmpty = true ∨
          maxFilenamePathSize ≤ (listedPath basedir name.text).length
      · rw [if_pos hname, if_pos hname]
        exact ⟨_, rfl, .refused (by decide)⟩
      rw [if_neg hname, if_neg hname]
      have hshorter := length_rest_lt htok fun hnil => hname (Or.inl (by simp [hnil]))
      have hrest : rest.length < fuel := by omega
      rcases @readTotalFile_cases (io.stat (listedPath basedir name.text))
          (io.read (listedPath basedir name.text)) (files (listedPath basedir name.text)) with
        ⟨content, hread, hfile, hcontent, hlength⟩ | ⟨hread, hfile⟩ | ⟨e, hread, hne⟩
      · -- a content is copied, and the loop goes on if the stream accepts it
        have hone : io.contentOf basedir files name.text = some content := by simp [contentOf, hread]
        have hsize : content.length < 2 ^ 31 := lt_of_le_of_lt hlength (by decide)
        obtain ⟨w, hw, hcopied⟩ := @copyContent_spec io dst files hio n content hsize
        have hsame : io.contents basedir w.2 fuel rest = io.contents basedir files fuel rest :=
          contents_congr (fun name => hcopied.other _ (listedPath_ne hdst name)) fuel rest
        rw [hread, hone]
        obtain ⟨c, text, rfl⟩ := List.exists_cons_of_ne_nil hcontent
        simp only [hw, Option.bind_eq_bind, Option.bind_some]
        by_cases hcode : w.1 = 0
        · rw [if_pos hcode]
          obtain ⟨r, hr, hcopies⟩ := @ih w.2 (n + 2) rest hrest
          rw [hsame] at hcopies
          exact ⟨r, hr, hcopies.cons hcopied hcode⟩
        · rw [if_neg hcode]
          exact ⟨w, rfl, .failed hcopied hcode⟩
      · -- an empty file is skipped
        have hone : io.contentOf basedir files name.text = some [] := by simp [contentOf, hread]
        rw [hread, hone]
        exact ih hrest
      · have hone : io.contentOf basedir files name.text = none := by
          cases e with
          | emptyFile => exact absurd rfl hne
          | _ => simp [contentOf, hread]
        rw [hread, hone]
        cases e with
        | emptyFile => exact absurd rfl hne
        | _ => exact ⟨_, rfl, .refused (by decide)⟩

end CopyIo

/-! ### Exact merges -/

/-- The destination gets exactly the listed files and 0 is returned, or it stays. -/
structure MergedExactly (basedir filelist dst : Text) (files : Files) (r : ℤ × Files) : Prop where
  written : r.1 = 0 → r.2 dst = some (CopyIo.merged basedir filelist files)
  kept : r.1 ≠ 0 → r.2 dst = files dst

/-- **Merging word lists is exact**, exactly unless a list of readable files is accepted by the streams
and renamed, although a content or a line break between two files was not stored. -/
theorem copyFileListSafe_iff {basedir dst dstTmp : Text} (hne : dst ≠ dstTmp)
    (htmp : ¬ basedir ++ "/".toList <+: dstTmp) (io : CopyIo) (hio : ∀ n, (io.stream n).Progress)
    (filelist : Text) (files : Files) :
    ∃ r, io.copyFileListSafe basedir filelist dst dstTmp files = some r ∧
      (MergedExactly basedir filelist dst files r ↔
        ∀ cs, io.contents basedir files (filelist.length + 1) filelist = some cs →
          io.AllAccepted 0 cs → io.rename = true → io.AllStored 0 cs) := by
  obtain ⟨w, hw, hother, hzero, hstored⟩ :=
    @CopyIo.copyFileLoop_spec io basedir dstTmp files hio htmp _ 0 _
      (Nat.lt_succ_self filelist.length)
  rw [CopyIo.copyFileListSafe, hw]
  refine ⟨_, rfl, ?_⟩
  dsimp only
  by_cases hcode : w.1 = 0
  · rw [if_pos hcode]
    obtain ⟨cs, hcs, hacc, hnil⟩ := hzero.mp hcode
    have hnil : cs ≠ [] := hnil.resolve_left (lt_irrefl 0)
    obtain ⟨hmerged, hall⟩ := CopyIo.merged_eq hcs
    have htext : w.2 dstTmp = some (io.storedText 0 cs) := by
      rw [hstored cs hcs hcode, if_neg hnil]
      rfl
    cases hrename : io.rename with
    | true =>
      have hiff := @CopyIo.storedText_eq_iff io 0 _ hall
      rw [if_pos rfl]
      constructor
      · intro hexact cs' hcs' _ _
        obtain rfl := Option.some.inj (hcs.symm.trans hcs')
        have hwritten := hexact.written rfl
        simp only [Files.set, Function.update_of_ne hne, Function.update_self, htext,
          Option.some.injEq, hmerged] at hwritten
        exact hiff.mp hwritten
      · intro hcond
        refine ⟨fun _ => ?_, fun h0 => absurd rfl h0⟩
        simp only [Files.set, Function.update_of_ne hne, Function.update_self, htext, hmerged,
          hiff.mpr (hcond cs hcs hacc rfl)]
    | false =>
      rw [if_neg (by simp)]
      exact iff_of_true ⟨by simp, fun _ => hother dst hne⟩ fun _ _ _ h0 => absurd h0 (by simp)
  · rw [if_neg hcode]
    refine iff_of_true ⟨fun h0 => absurd h0 hcode, fun _ => hother dst hne⟩ ?_
    intro cs hcs hacc _
    by_cases hnil : cs = []
    · rw [hnil]
      trivial
    · exact absurd (hzero.mpr ⟨cs, hcs, hacc, Or.inr hnil⟩) hcode

/-- Streams that accept and store everything, except for the call with one number. -/
def smoothIo (failing : Option ℕ) : CopyIo where
  stream n := ⟨decide (failing ≠ some n), fun _ => ⟨maxCacheSize, false⟩, maxCacheSize⟩
  stat _ := true
  read _ := true
  rename := true

/-- Two word lists of one word each, without a line break at their ends. -/
def sampleLists : Files := fun path =>
  if path = "templates/a".toList then some "root".toList
  else if path = "templates/b".toList then some "toor".toList
  else none

/-- The two lists are merged exactly when no call fails. -/
theorem copyFileListSafe_iff_sampleLists :
    ∃ r, (smoothIo none).copyFileListSafe "templates".toList "a,b".toList "t/login".toList
        "t/.login".toList sampleLists = some r ∧
      (MergedExactly "templates".toList "a,b".toList "t/login".toList sampleLists r ↔
        ∀ cs, (smoothIo none).contents "templates".toList sampleLists ("a,b".toList.length + 1)
            "a,b".toList = some cs → (smoothIo none).AllAccepted 0 cs → (smoothIo none).rename = true →
          (smoothIo none).AllStored 0 cs) :=
  copyFileListSafe_iff (by decide) (by decide) (smoothIo none)
    (fun _ _ => Or.inl (show 0 < maxCacheSize by decide)) "a,b".toList sampleLists

/-- Without the line break the two words become one. -/
theorem not_mergedExactly_sampleLists :
    ¬ ∀ (io : CopyIo) filelist files r,
      io.copyFileListSafe "templates".toList filelist "t/login".toList "t/.login".toList files =
          some r → MergedExactly "templates".toList filelist "t/login".toList files r := by
  intro hclaim
  have hcall : ((smoothIo (some 1)).copyFileListSafe "templates".toList "a,b".toList
      "t/login".toList "t/.login".toList sampleLists).map (fun r => (r.1, r.2 "t/login".toList)) =
        some (0, some "roottoor\n".toList) := by decide +kernel
  obtain ⟨r, hr, heq⟩ := Option.map_eq_some_iff.mp hcall
  obtain ⟨hcode, hfile⟩ := Prod.mk.inj heq
  have hwritten := (hclaim _ _ _ _ hr).written hcode
  have hmerged : CopyIo.merged "templates".toList "a,b".toList sampleLists = "root\ntoor\n".toList := by
    decide +kernel
  rw [hfile, hmerged] at hwritten
  simp at hwritten

end OpenvasTool
