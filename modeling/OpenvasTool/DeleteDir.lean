import OpenvasTool.Base
import OpenvasTool.Posix.FileTree
import OpenvasTool.Support.Split

/-!
# Directory removal

`deleteDir` of `comm_misc.c` on a tree of directories, files and links. Every directory is read
while its entries are removed, in an order that is not known, and one buffer holds the path of the
directory and of the entry at hand.
-/

namespace OpenvasTool

open Posix

/-- What `readdir_r` returns: the name, and whether the type is `DT_DIR`. -/
structure DirEnt where
  name : Text
  isDir : Bool

/-- The next entry of an open directory behind those with the listed names. -/
abbrev Readdir := FileTree → Loc → List Text → Option DirEnt

/-- The entries of a directory, among them the directory itself and the one above. -/
def IsDirEnt (t : FileTree) (hd : Loc) (ent : DirEnt) : Prop :=
  ent.name ∈ dotNames ∧ ent.isDir = true ∨
    ∃ n, t.node (hd ++ [ent.name]) = some n ∧ ent.isDir = decide (n = .dir)

/-- Every remaining entry is returned once, in any order, before the end of the directory. -/
structure Lists (readdir : Readdir) : Prop where
  entry : ∀ {t hd listed ent}, readdir t hd listed = some ent →
    IsDirEnt t hd ent ∧ ent.name ∉ listed
  complete : ∀ {t hd listed}, readdir t hd listed = none → ∀ ent, IsDirEnt t hd ent →
    ent.name ∈ listed

/-! ### The code -/

/-- The loop of `deleteDir` over the entries of an open directory: the result, the tree and the
path buffer, in which `dirlen` bytes hold the directory. -/
def deleteEntries (readdir : Readdir) (deleteDir : FileTree → Text → Option (ℤ × FileTree))
    (hd : Loc) (dirlen : ℕ) : ℕ → FileTree → Text → List Text → Option (ℤ × FileTree × Text)
  | 0, _, _, _ => none
  | fuel + 1, t, path, listed =>
    match readdir t hd listed with
    | none => some (0, t, path)
    | some res =>
      let namelen := min res.name.length maxFilenamePathSize
      if dirlen + namelen < maxFilenamePathSize then
        if res.isDir = false then
          let path := path.take dirlen ++ res.name
          match t.unlink path with
          | some t => deleteEntries readdir deleteDir hd dirlen fuel t path (res.name :: listed)
          | none => some (-1, t, path)
        else if res.name ≠ ['.'] ∧ res.name ≠ ['.', '.'] then
          let path := path.take dirlen ++ res.name
          match deleteDir t path with
          | some (ret, t) =>
            if ret = 0 then
              deleteEntries readdir deleteDir hd dirlen fuel t path (res.name :: listed)
            else some (ret, t, path)
          | none => none
        else deleteEntries readdir deleteDir hd dirlen fuel t path (res.name :: listed)
      else some (-1, t, path)

/-- The directory without the slashes at the end of its first bytes. -/
def dirPath (dir : Text) : Text := (dir.take maxFilenamePathSize).rdropWhile (· = '/')

/-- `deleteDir`: the return value and the tree, where `fuel` bounds the depth and the entries. -/
def deleteDir (readdir : Readdir) : ℕ → FileTree → Text → Option (ℤ × FileTree)
  | 0, _, _ => none
  | fuel + 1, t, dir =>
    if dir = [] then some (-1, t)
    else
      let path := dirPath dir
      if path.length ≤ 1 ∨ maxFilenamePathSize - 2 ≤ path.length ∨ dir.head? ≠ some '/' then
        some (-1, t)
      else
        match t.lstat path with
        | .ok .dir =>
          match t.opendir path with
          | some hd =>
            let path := path ++ ['/']
            let dirlen := path.length
            match deleteEntries readdir (deleteDir readdir fuel) hd dirlen fuel t path [] with
            | some (ret, t, path) =>
              if ret = 0 then
                match t.rmdir (path.take dirlen) with
                | some t => some (0, t)
                | none => some (-1, t)
              else some (ret, t)
            | none => none
          | none => some (-1, t)
        | .ok _ => some (-2, t)
        | .error .enoent => some (1, t)
        | .error _ => some (-1, t)

/-! ### What can be deleted -/

/-- The path of an entry below a directory. -/
def entryPath (path : Text) (names : List Text) : Text :=
  path ++ (names.map fun name => '/' :: name).flatten

/-- The directory and all directories below it have paths of at most 252 bytes, the other entries
of at most 255. -/
structure PathsFit (t : FileTree) (path : Text) (loc : Loc) : Prop where
  dirs : ∀ names, t.node (loc ++ names) = some .dir → (entryPath path names).length ≤ 252
  others : ∀ names n, t.node (loc ++ names) = some n → (entryPath path names).length ≤ 255

/-- The path names a directory, and still does so when the directory is empty. -/
structure Deletable (t : FileTree) (path : Text) (loc : Loc) : Prop where
  absolute : path.head? = some '/'
  stripped : path.rdropWhile (· = '/') = path
  last : ∀ c, (components path).getLast? = some c → ValidName c
  stable : resolve (t.node.emptied loc) path = .ok loc
  dir : t.node loc = some .dir
  fit : PathsFit t path loc

namespace Deletable

variable {t t' : FileTree} {path name : Text} {loc : Loc}

theorem resolve_eq (h : Deletable t path loc) : resolve t.node path = .ok loc :=
  resolve_mono (t.node.emptied_sub loc) h.stable

/-- An entry is removed from the directory. -/
theorem without_child (h : Deletable t path loc)
    (hnode : t'.node = t.node.without (loc ++ [name])) : Deletable t' path loc := by
  have hsub : t'.node.Sub t.node := hnode ▸ t.node.without_sub _
  refine ⟨h.absolute, h.stripped, h.last, ?_, ?_, ?_⟩
  · rw [hnode, Nodes.emptied_without]
    exact h.stable
  · rw [hnode, Nodes.without, if_neg]
    · exact h.dir
    · intro hpre
      have hlen := hpre.length_le
      rw [List.length_append, List.length_singleton] at hlen
      omega
  · exact ⟨fun names hn => h.fit.dirs names (hsub _ _ hn),
      fun names n hn => h.fit.others names n (hsub _ _ hn)⟩

/-- A directory in a directory that can be deleted can be deleted. -/
theorem child (h : Deletable t path loc) (hdir : t.node (loc ++ [name]) = some .dir) :
    Deletable t (path ++ '/' :: name) (loc ++ [name]) := by
  have hname : ValidName name := t.names loc name (by rw [FileTree.node] at hdir; rw [hdir]; rfl)
  have hsub := t.node.emptied_sub_child loc name
  refine ⟨?_, ?_, ?_, ?_, hdir, ?_⟩
  · cases hpath : path with
    | nil => rw [hpath] at h; exact absurd h.absolute (by simp)
    | cons c path =>
      have habs := h.absolute
      rw [hpath] at habs
      exact habs
  · rw [List.rdropWhile_eq_self_iff]
    intro hne
    have hlast : (path ++ '/' :: name).getLast hne = name.getLast hname.ne_nil := by
      rw [List.getLast_append_of_ne_nil _ (by simp), List.getLast_cons hname.ne_nil]
    rw [hlast, decide_eq_true_eq]
    intro hslash
    exact hname.slash (hslash ▸ List.getLast_mem hname.ne_nil)
  · intro c hc
    rw [components_append, show components name = [name] from List.splitOn_eq_singleton hname.slash,
      List.getLast?_concat, Option.some.injEq] at hc
    rwa [← hc]
  · apply resolve_child (resolve_mono hsub h.stable)
    · exact hsub _ _ ((t.node.emptied_self loc).trans h.dir)
    · exact hname
    · rw [Nodes.emptied_self, hdir]
      rfl
  · have hpath : ∀ names,
        entryPath (path ++ '/' :: name) names = entryPath path (name :: names) := by
      intro names
      simp [entryPath]
    constructor
    · intro names hn
      rw [hpath]
      exact h.fit.dirs (name :: names) (by simpa using hn)
    · intro names n hn
      rw [hpath]
      exact h.fit.others (name :: names) n (by simpa using hn)

end Deletable

/-! ### The entries of one directory -/

section Entries

variable {readdir : Readdir} {t : FileTree} {path buf : Text} {loc : Loc}

/-- When all remaining entries are listed and the listed ones are gone, nothing is left. -/
theorem emptied_of_listed (hlists : Lists readdir) {listed : List Text}
    (hend : readdir t loc listed = none)
    (hlisted : ∀ name ∈ listed, name ∈ dotNames ∨ t.node (loc ++ [name]) = none) :
    t.node = t.node.emptied loc := by
  have hempty : t.children loc = [] := by
    rw [List.eq_nil_iff_forall_not_mem]
    intro name hmem
    have hsome := FileTree.mem_children.mp hmem
    obtain ⟨n, hn⟩ := Option.isSome_iff_exists.mp hsome
    have hname := t.names loc name hsome
    rcases hlisted name (hlists.complete hend ⟨name, decide (n = .dir)⟩ (Or.inr ⟨n, hn, rfl⟩)) with
      hdot | hnone
    · simp [dotNames, hname.ne_dot, hname.ne_dots] at hdot
    · rw [hnone] at hn
      simp at hn
  funext l
  unfold Nodes.emptied
  split
  · rename_i hbelow
    exact FileTree.node_of_children_nil hempty hbelow.1 hbelow.2
  · rfl

/-- The dot entries that are still to be listed. -/
def dotsLeft (listed : List Text) : ℕ := (dotNames.filter (· ∉ listed)).length

theorem dotsLeft_cons (name : Text) (listed : List Text) :
    dotsLeft (name :: listed) = ((dotNames.filter (· ∉ listed)).filter (· ≠ name)).length := by
  rw [dotsLeft, List.filter_filter]
  simp only [List.mem_cons, not_or, Bool.decide_and]

theorem dotsLeft_cons_le (name : Text) (listed : List Text) :
    dotsLeft (name :: listed) ≤ dotsLeft listed := by
  rw [dotsLeft_cons]
  exact List.length_filter_le _ _

theorem dotsLeft_cons_lt {name : Text} {listed : List Text} (hdot : name ∈ dotNames)
    (hnew : name ∉ listed) : dotsLeft (name :: listed) < dotsLeft listed := by
  rw [dotsLeft_cons]
  apply List.length_filter_lt_length_iff_exists.mpr
  exact ⟨name, List.mem_filter.mpr ⟨hdot, by simpa using hnew⟩, by simp⟩

/-- Removing an entry leaves fewer places below the directory. -/
theorem card_below_lt {t' : FileTree} {name : Text}
    (hnode : t'.node = t.node.without (loc ++ [name])) (hsome : (t.node (loc ++ [name])).isSome) :
    (t'.below loc).card < (t.below loc).card := by
  have hsub : t'.node.Sub t.node := hnode ▸ t.node.without_sub _
  apply Finset.card_lt_card
  refine ⟨FileTree.below_subset hsub, fun hsuper => ?_⟩
  have hmem := hsuper (FileTree.mem_below.mpr ⟨hsome, List.prefix_append _ _, by simp⟩)
  have hgone := (FileTree.mem_below.mp hmem).1
  rw [hnode, Nodes.without, if_pos (List.prefix_refl _)] at hgone
  simp at hgone

/-- The loop removes everything below the directory, when the calls for the directories in it do
so for these. -/
theorem deleteEntries_spec (hlists : Lists readdir)
    {delete : FileTree → Text → Option (ℤ × FileTree)} {bound : ℕ}
    (hdelete : ∀ t name, Deletable t path loc → t.node (loc ++ [name]) = some .dir →
      (t.below loc).card ≤ bound → ∃ t', delete t (path ++ '/' :: name) = some (0, t') ∧
        t'.node = t.node.without (loc ++ [name]))
    {fuel : ℕ} {listed : List Text} (h : Deletable t path loc)
    (hbuf : buf.take (path ++ ['/']).length = path ++ ['/'])
    (hlisted : ∀ name ∈ listed, name ∈ dotNames ∨ t.node (loc ++ [name]) = none)
    (hbound : (t.below loc).card ≤ bound)
    (hfuel : (t.below loc).card + dotsLeft listed + 1 ≤ fuel) :
    ∃ t' buf', deleteEntries readdir delete loc (path ++ ['/']).length fuel t buf listed =
        some (0, t', buf') ∧
      buf'.take (path ++ ['/']).length = path ++ ['/'] ∧ t'.node = t.node.emptied loc := by
  induction fuel generalizing t buf listed with
  | zero => omega
  | succ fuel ih =>
    unfold deleteEntries
    cases hnext : readdir t loc listed with
    | none => exact ⟨t, buf, rfl, hbuf, emptied_of_listed hlists hnext hlisted⟩
    | some res =>
      obtain ⟨hent, hnew⟩ := hlists.entry hnext
      have hpathLen : path.length ≤ 252 := by
        have := h.fit.dirs [] (by simpa using h.dir)
        simpa [entryPath] using this
      have hentry : buf.take (path ++ ['/']).length ++ res.name = path ++ '/' :: res.name := by
        rw [hbuf]
        simp
      have hbuf' : (path ++ '/' :: res.name).take (path ++ ['/']).length = path ++ ['/'] := by
        rw [← hentry, hbuf]
        exact List.take_left
      dsimp only
      rw [hentry]
      rcases hent with ⟨hdot, hisDir⟩ | ⟨n, hn, hisDir⟩
      · have hlen : res.name.length ≤ 2 := by
          simp only [dotNames, List.mem_cons, List.not_mem_nil, or_false] at hdot
          rcases hdot with hdot | hdot <;> simp [hdot]
        have hnotChild : ¬ (res.name ≠ ['.'] ∧ res.name ≠ ['.', '.']) := by
          simp only [dotNames, List.mem_cons, List.not_mem_nil, or_false] at hdot
          tauto
        have hfits : (path ++ ['/']).length + min res.name.length maxFilenamePathSize <
            maxFilenamePathSize := by
          rw [List.length_append, List.length_singleton]
          unfold maxFilenamePathSize
          omega
        rw [if_pos hfits, if_neg (by simp [hisDir]), if_neg hnotChild]
        have hdots := dotsLeft_cons_lt hdot hnew
        refine ih h hbuf ?_ hbound (by omega)
        intro name hmem
        rcases List.mem_cons.mp hmem with rfl | hmem
        · exact Or.inl hdot
        · exact hlisted name hmem
      · have hsome : (t.node (loc ++ [res.name])).isSome := by rw [hn]; rfl
        have hname := t.names loc res.name hsome
        have hfits : (path ++ ['/']).length + min res.name.length maxFilenamePathSize <
            maxFilenamePathSize := by
          have hlen := h.fit.others [res.name] n hn
          simp only [entryPath, List.map_cons, List.map_nil, List.flatten_cons, List.flatten_nil,
            List.append_nil, List.length_append, List.length_cons] at hlen
          rw [List.length_append, List.length_singleton]
          unfold maxFilenamePathSize
          omega
        -- what the next turns need once the entry is gone
        have hgo : ∀ t' : FileTree, t'.node = t.node.without (loc ++ [res.name]) →
            ∃ t'' buf'', deleteEntries readdir delete loc (path ++ ['/']).length fuel t'
                (path ++ '/' :: res.name) (res.name :: listed) = some (0, t'', buf'') ∧
              buf''.take (path ++ ['/']).length = path ++ ['/'] ∧
              t''.node = t.node.emptied loc := by
          intro t' hnode
          have hfewer := card_below_lt hnode hsome
          have hdots := dotsLeft_cons_le res.name listed
          have hlisted' : ∀ name ∈ res.name :: listed,
              name ∈ dotNames ∨ t'.node (loc ++ [name]) = none := by
            intro name hmem
            rcases List.mem_cons.mp hmem with rfl | hmem
            · right
              rw [hnode, Nodes.without, if_pos (List.prefix_refl _)]
            · rcases hlisted name hmem with hdot | hnone
              · exact Or.inl hdot
              · right
                cases hn' : t'.node (loc ++ [name]) with
                | none => rfl
                | some n' =>
                  rw [hnode] at hn'
                  rw [t.node.without_sub _ _ _ hn'] at hnone
                  simp at hnone
          obtain ⟨t'', buf'', hrun, hbuf'', hnode''⟩ := ih (h.without_child hnode) hbuf' hlisted'
            (by omega) (by omega)
          refine ⟨t'', buf'', hrun, hbuf'', ?_⟩
          rw [hnode'', hnode, Nodes.emptied_without]
        rw [if_pos hfits]
        by_cases hdirNode : n = .dir
        · subst hdirNode
          obtain ⟨t', hcall, hnode⟩ := hdelete t res.name h hn hbound
          rw [if_neg (by simp [hisDir]), if_pos ⟨hname.ne_dot, hname.ne_dots⟩, hcall]
          dsimp only
          rw [if_pos rfl]
          exact hgo t' hnode
        · obtain ⟨t', hcall, hnode⟩ := FileTree.unlink_child h.resolve_eq hn hdirNode
          rw [if_pos (by simp [hisDir, hdirNode]), hcall]
          exact hgo t' hnode

end Entries

/-! ### Whole directories -/

section Directories

variable {readdir : Readdir} {t : FileTree} {dir path : Text} {loc : Loc}

/-- The first elements of a list lose the same tail as the list when none that stays is cut. -/
theorem rdropWhile_take {α : Type*} {p : α → Bool} {l : List α} {n : ℕ}
    (hlen : (l.rdropWhile p).length ≤ n) : (l.take n).rdropWhile p = l.rdropWhile p := by
  induction l using List.reverseRecOn with
  | nil => simp
  | append_singleton l x ih =>
    by_cases hn : (l ++ [x]).length ≤ n
    · rw [List.take_of_length_le hn]
    · by_cases hx : p x = true
      · rw [List.rdropWhile_concat, if_pos hx] at hlen ⊢
        rw [List.length_append, List.length_singleton] at hn
        rw [List.take_append_of_le_length (by omega)]
        exact ih hlen
      · rw [List.rdropWhile_concat, if_neg hx] at hlen
        exact absurd hlen hn

/-- The first bytes of a path that is not too long are stripped like the whole. -/
theorem dirPath_eq (hlen : (dir.rdropWhile (· = '/')).length ≤ maxFilenamePathSize) :
    dirPath dir = dir.rdropWhile (· = '/') := rdropWhile_take hlen

/-- A path that ends with a name is its own stripped path. -/
theorem dirPath_of_stripped (hstrip : path.rdropWhile (· = '/') = path)
    (hlen : path.length ≤ maxFilenamePathSize) : dirPath path = path := by
  rw [dirPath_eq (by rwa [hstrip]), hstrip]

theorem Deletable.length_path (h : Deletable t path loc) : 2 ≤ path.length ∧ path.length ≤ 252 := by
  have hlen := h.fit.dirs [] (by simpa using h.dir)
  simp only [entryPath, List.map_nil, List.flatten_nil, List.append_nil] at hlen
  refine ⟨?_, hlen⟩
  have habs := h.absolute
  have hstrip := h.stripped
  match path with
  | [] => simp at habs
  | [c] =>
    obtain rfl : c = '/' := by simpa using habs
    simp [List.rdropWhile_singleton] at hstrip
  | _ :: _ :: _ => simp

/-- A directory that can be deleted is deleted with everything below it, and nothing else is. -/
theorem deleteDir_spec (hlists : Lists readdir) {fuel : ℕ} (hdir : dirPath dir = path)
    (habs : dir.head? = some '/') (h : Deletable t path loc)
    (hfuel : (t.below loc).card + 4 ≤ fuel) :
    ∃ t', deleteDir readdir fuel t dir = some (0, t') ∧ t'.node = t.node.without loc := by
  induction fuel generalizing t dir path loc with
  | zero => omega
  | succ fuel ih =>
    obtain ⟨hlen, hlen'⟩ := h.length_path
    have hne : dir ≠ [] := by
      rintro rfl
      simp at habs
    have hvalid : ¬ (path.length ≤ 1 ∨ maxFilenamePathSize - 2 ≤ path.length ∨
        dir.head? ≠ some '/') := by
      unfold maxFilenamePathSize
      simp only [habs, ne_eq, not_true_eq_false, or_false]
      omega
    -- the directories in this one have fewer places below them
    have hdelete : ∀ (t₁ : FileTree) (name : Text), Deletable t₁ path loc →
        t₁.node (loc ++ [name]) = some .dir → (t₁.below loc).card ≤ (t.below loc).card →
        ∃ t', deleteDir readdir fuel t₁ (path ++ '/' :: name) = some (0, t') ∧
          t'.node = t₁.node.without (loc ++ [name]) := by
      intro t₁ name h₁ hn hcard
      have hchild := h₁.child hn
      obtain ⟨-, hchildLen⟩ := hchild.length_path
      refine ih (dirPath_of_stripped hchild.stripped ?_) hchild.absolute hchild ?_
      · unfold maxFilenamePathSize
        omega
      · have hfewer : (t₁.below (loc ++ [name])).card < (t₁.below loc).card :=
          FileTree.card_below_child_lt (by rw [hn]; rfl)
        omega
    have hdots : dotsLeft [] = 2 := rfl
    have hloop : ∃ t₁ buf, deleteEntries readdir (deleteDir readdir fuel) loc
        (path ++ ['/']).length fuel t (path ++ ['/']) [] = some (0, t₁, buf) ∧
          buf.take (path ++ ['/']).length = path ++ ['/'] ∧ t₁.node = t.node.emptied loc :=
      deleteEntries_spec hlists hdelete h List.take_length (by simp) le_rfl (by omega)
    obtain ⟨t₁, buf, hrun, hbuf, hnode⟩ := hloop
    have hlast : ∃ t₂, t₁.rmdir (path ++ ['/']) = some t₂ ∧ t₂.node = t₁.node.without loc := by
      apply FileTree.rmdir_slash h.stripped h.last
      · rw [hnode]
        exact h.stable
      · rw [hnode, Nodes.emptied_self]
        exact h.dir
      · exact FileTree.children_of_emptied hnode
    obtain ⟨t₂, hrmdir, hnode₂⟩ := hlast
    refine ⟨t₂, ?_, ?_⟩
    · unfold deleteDir
      rw [if_neg hne]
      dsimp only
      rw [hdir, if_neg hvalid, FileTree.lstat_eq h.resolve_eq h.dir]
      dsimp only
      rw [FileTree.opendir_eq h.resolve_eq h.dir]
      dsimp only
      rw [hrun]
      dsimp only
      rw [if_pos rfl, hbuf, hrmdir]
    · rw [hnode₂, hnode, Nodes.without_emptied]

/-! ### What is refused -/

/-- Paths that are empty, relative, too short or too long are refused. -/
theorem deleteDir_refused {fuel : ℕ} (h : dir.head? ≠ some '/' ∨ (dirPath dir).length ≤ 1 ∨
    254 ≤ (dirPath dir).length) : deleteDir readdir (fuel + 1) t dir = some (-1, t) := by
  unfold deleteDir
  by_cases hne : dir = []
  · rw [if_pos hne]
  · rw [if_neg hne]
    dsimp only
    rw [if_pos]
    unfold maxFilenamePathSize
    tauto

/-- A run of slashes leaves no path. -/
theorem dirPath_slashes (h : ∀ c ∈ dir, c = '/') : dirPath dir = [] := by
  apply List.rdropWhile_eq_nil_iff.mpr
  intro c hc
  simpa using h c (List.mem_of_mem_take hc)

/-- One of the last three of the first 256 bytes keeps the path too long. -/
theorem length_dirPath {i : ℕ} (hi : 253 ≤ i ∧ i < 256) {c : Char} (hc : dir[i]? = some c)
    (hslash : c ≠ '/') : 254 ≤ (dirPath dir).length := by
  by_contra hshort
  have hget : (dir.take maxFilenamePathSize)[i]? = some c := by
    rw [List.getElem?_take_of_lt hi.2, hc]
  have hsplit : dirPath dir ++ (dir.take maxFilenamePathSize).rtakeWhile (· = '/') =
      dir.take maxFilenamePathSize := List.rdropWhile_append_rtakeWhile
  rw [← hsplit, List.getElem?_append_right (by omega)] at hget
  have hmem := List.mem_rtakeWhile_imp (List.mem_of_getElem? hget)
  exact hslash (by simpa using hmem)

/-- What `lstat` says about the path decides the result. -/
theorem deleteDir_lstat {fuel : ℕ} (habs : dir.head? = some '/')
    (hlen : 2 ≤ (dirPath dir).length ∧ (dirPath dir).length < 254) :
    (t.lstat (dirPath dir) = .error .enoent → deleteDir readdir (fuel + 1) t dir = some (1, t)) ∧
      (∀ e, t.lstat (dirPath dir) = .error e → e ≠ .enoent →
        deleteDir readdir (fuel + 1) t dir = some (-1, t)) ∧
      (∀ n, t.lstat (dirPath dir) = .ok n → n ≠ .dir →
        deleteDir readdir (fuel + 1) t dir = some (-2, t)) := by
  have hne : dir ≠ [] := by
    rintro rfl
    simp at habs
  have hvalid : ¬ ((dirPath dir).length ≤ 1 ∨
      maxFilenamePathSize - 2 ≤ (dirPath dir).length ∨ dir.head? ≠ some '/') := by
    unfold maxFilenamePathSize
    simp only [habs, ne_eq, not_true_eq_false, or_false]
    omega
  unfold deleteDir
  rw [if_neg hne]
  dsimp only
  rw [if_neg hvalid]
  refine ⟨fun h => by rw [h], fun e h he => ?_, fun n h hn => ?_⟩
  · rw [h]
    cases e with
    | enoent => exact absurd rfl he
    | enotdir | eloop => rfl
  · rw [h]
    cases n with
    | dir => exact absurd rfl hn
    | file _ | link _ => rfl

/-! ### What a result of zero says -/

/-- The loop only takes nodes away, and the buffer keeps the path of the directory. -/
theorem deleteEntries_frame {delete : FileTree → Text → Option (ℤ × FileTree)}
    (hdelete : ∀ {t path ret t'}, delete t path = some (ret, t') → t'.node.Sub t.node)
    {fuel : ℕ} {buf buf' : Text} {listed : List Text} {ret : ℤ} {t' : FileTree}
    (hbuf : buf.take path.length = path)
    (h : deleteEntries readdir delete loc path.length fuel t buf listed = some (ret, t', buf')) :
    t'.node.Sub t.node ∧ buf'.take path.length = path := by
  have hnext : ∀ name : Text, (buf.take path.length ++ name).take path.length = path := by
    intro name
    rw [hbuf]
    exact List.take_left
  induction fuel generalizing t buf listed with
  | zero => simp [deleteEntries] at h
  | succ fuel ih =>
    have hnext' : ∀ name name' : Text,
        ((buf.take path.length ++ name).take path.length ++ name').take path.length = path := by
      intro name name'
      rw [hnext]
      exact List.take_left
    unfold deleteEntries at h
    split at h
    · simp only [Option.some.injEq, Prod.mk.injEq] at h
      obtain ⟨-, rfl, rfl⟩ := h
      exact ⟨fun _ _ hn => hn, hbuf⟩
    · dsimp only at h
      split at h
      swap
      · simp only [Option.some.injEq, Prod.mk.injEq] at h
        obtain ⟨-, rfl, rfl⟩ := h
        exact ⟨fun _ _ hn => hn, hbuf⟩
      split at h
      · split at h
        · rename_i t₁ hunlink
          obtain ⟨hsub, hbuf'⟩ := ih (hnext _) h (hnext' _)
          exact ⟨hsub.trans (FileTree.unlink_sub hunlink), hbuf'⟩
        · simp only [Option.some.injEq, Prod.mk.injEq] at h
          obtain ⟨-, rfl, rfl⟩ := h
          exact ⟨fun _ _ hn => hn, hnext _⟩
      · split at h
        · split at h
          · rename_i t₁ hcall
            split at h
            · obtain ⟨hsub, hbuf'⟩ := ih (hnext _) h (hnext' _)
              exact ⟨hsub.trans (hdelete hcall), hbuf'⟩
            · simp only [Option.some.injEq, Prod.mk.injEq] at h
              obtain ⟨-, rfl, rfl⟩ := h
              exact ⟨hdelete hcall, hnext _⟩
          · simp at h
        · exact ih hbuf h hnext

theorem sub_of_eq_some {r ret : ℤ} {t' : FileTree} (h : some (r, t) = some (ret, t')) :
    t'.node.Sub t.node := by
  simp only [Option.some.injEq, Prod.mk.injEq] at h
  obtain ⟨-, rfl⟩ := h
  exact fun _ _ hn => hn

/-- `deleteDir` only takes nodes away. -/
theorem deleteDir_sub {fuel : ℕ} {ret : ℤ} {t' : FileTree}
    (h : deleteDir readdir fuel t dir = some (ret, t')) : t'.node.Sub t.node := by
  induction fuel generalizing t dir ret t' with
  | zero => simp [deleteDir] at h
  | succ fuel ih =>
    unfold deleteDir at h
    split at h
    · exact sub_of_eq_some h
    dsimp only at h
    split at h
    · exact sub_of_eq_some h
    split at h
    · split at h
      · split at h
        · rename_i ret₁ t₁ buf hrun
          have hsub := (deleteEntries_frame (fun hcall => ih hcall) List.take_length hrun).1
          split at h
          · split at h
            · rename_i t₂ hrmdir
              exact (sub_of_eq_some h).trans ((FileTree.rmdir_sub hrmdir).trans hsub)
            · exact (sub_of_eq_some h).trans hsub
          · exact (sub_of_eq_some h).trans hsub
        · simp at h
      · exact sub_of_eq_some h
    · exact sub_of_eq_some h
    · exact sub_of_eq_some h
    · exact sub_of_eq_some h

/-- When `deleteDir` returns 0, the path names the directory even when that is empty. -/
theorem stable_of_deleteDir {fuel : ℕ} {t' : FileTree}
    (hres : resolve t.node (dirPath dir) = .ok loc) (hdir : t.node loc = some .dir)
    (h : deleteDir readdir fuel t dir = some (0, t')) :
    resolve (t.node.emptied loc) (dirPath dir) = .ok loc ∧
      ∀ c, (components (dirPath dir)).getLast? = some c → c ∉ dotNames := by
  cases fuel with
  | zero => simp [deleteDir] at h
  | succ fuel =>
    have hstrip : (dirPath dir).rdropWhile (· = '/') = dirPath dir := List.rdropWhile_idempotent _ _
    unfold deleteDir at h
    split at h
    · simp at h
    dsimp only at h
    split at h
    · simp at h
    rw [FileTree.lstat_eq hres hdir] at h
    dsimp only at h
    rw [FileTree.opendir_eq hres hdir] at h
    dsimp only at h
    split at h
    swap
    · simp at h
    rename_i ret t₁ buf hrun
    obtain ⟨hsub, hbuf⟩ := deleteEntries_frame deleteDir_sub List.take_length hrun
    split at h
    swap
    · rename_i hret
      simp only [Option.some.injEq, Prod.mk.injEq] at h
      exact absurd h.1 hret
    rw [hbuf] at h
    split at h
    swap
    · simp at h
    rename_i t₂ hrmdir
    obtain ⟨loc', hres', hdir', hempty, hlast, -⟩ := FileTree.rmdir_eq_some hstrip hrmdir
    have hloc : loc' = loc := by
      have hres'' := resolve_mono hsub hres'
      rw [hres] at hres''
      exact (Except.ok.inj hres'').symm
    subst hloc
    refine ⟨resolve_mono ?_ hres', hlast⟩
    -- nothing is left below the directory when it is removed
    intro l n hn
    unfold Nodes.emptied
    rw [if_neg]
    · exact hsub l n hn
    · rintro ⟨hpre, hne⟩
      rw [FileTree.node_of_children_nil hempty hpre hne] at hn
      simp at hn

end Directories

/-! ### The last name of a path -/

/-- What ends with another byte does not end with an empty piece. -/
theorem getLast?_splitOn_concat {x sep : Char} (hx : x ≠ sep) (before : Text) :
    ((before ++ [x]).splitOn sep).getLast? ≠ some [] := by
  induction before with
  | nil =>
    rw [List.nil_append, List.splitOn_eq_singleton (by simpa using hx.symm)]
    simp
  | cons c before ih =>
    obtain ⟨head, pieces, hsplit⟩ :=
      List.exists_cons_of_ne_nil (List.splitOn_ne_nil sep (before ++ [x]))
    rw [List.cons_append, List.splitOn_cons_eq_if_modifyHead]
    rw [hsplit] at ih ⊢
    split
    · rwa [List.getLast?_cons_cons]
    · cases pieces with
      | nil => simp
      | cons p pieces =>
        rw [List.modifyHead_cons, List.getLast?_cons_cons]
        rwa [List.getLast?_cons_cons] at ih

/-- The last component of a stripped absolute path is a name, unless it is a dot entry. -/
theorem validName_last {path c : Text} (habs : path.head? = some '/')
    (hstrip : path.rdropWhile (· = '/') = path) (hc : (components path).getLast? = some c)
    (hdots : c ∉ dotNames) : ValidName c := by
  have hmem : c ∈ components path := List.mem_of_getLast? hc
  simp only [dotNames, List.mem_cons, List.not_mem_nil, or_false, not_or] at hdots
  refine ⟨?_, hdots.1, hdots.2, (Support.of_mem_splitOn hmem).1⟩
  rintro rfl
  rcases List.eq_nil_or_concat path with rfl | ⟨before, x, rfl⟩
  · simp at habs
  · rw [List.concat_eq_append] at hstrip hc
    have hx : x ≠ '/' := by
      rintro rfl
      rw [List.rdropWhile_concat, if_pos (by simp)] at hstrip
      have hlen := (List.rdropWhile_prefix (· = '/') (l := before)).length_le
      rw [hstrip, List.length_append, List.length_singleton] at hlen
      omega
    exact getLast?_splitOn_concat hx before hc

/-! ### The whole behaviour -/

/-- What `deleteDir` does, for every order in which directories are read. A directory, whose path
without the slashes at its end is not too long, is removed with all below it and nothing else,
exactly when its path still names it once it is empty and does not end with a dot entry; otherwise
`unlink` or `rmdir` has to fail. Where nothing is, the result is 1, and -1 when the way there is
blocked. Links and files, relative and empty paths, runs of slashes and too long paths are refused,
unless they have more than 256 bytes and slashes in bytes 254 to 256. -/
theorem deleteDir_removes {readdir : Readdir} (hlists : Lists readdir) (t : FileTree)
    (dir path : Text) (hpath : path = dir.rdropWhile (· = '/')) :
    (∀ loc, dir.head? = some '/' → path ≠ [] → resolve t.node path = .ok loc →
      t.node loc = some .dir → PathsFit t path loc →
      ((∃ bound, ∀ fuel, bound ≤ fuel → ∃ t', deleteDir readdir fuel t dir = some (0, t') ∧
          t'.node = t.node.without loc) ↔
        resolve (t.node.emptied loc) path = .ok loc ∧
          ∀ c, (components path).getLast? = some c → c ∉ dotNames)) ∧
    (dir.head? = some '/' → path ≠ [] → path.length < 254 →
      (t.lstat path = .error .enoent →
        ∀ fuel, deleteDir readdir (fuel + 1) t dir = some (1, t)) ∧
      (∀ e, t.lstat path = .error e → e ≠ .enoent →
        ∀ fuel, deleteDir readdir (fuel + 1) t dir = some (-1, t)) ∧
      (∀ n, t.lstat path = .ok n → n ≠ .dir →
        ∀ fuel, deleteDir readdir (fuel + 1) t dir = some (-2, t))) ∧
    (dir.head? ≠ some '/' ∨ (∀ c ∈ dir, c = '/') ∨ (254 ≤ path.length ∧ path.length ≤ 256) ∨
        (∃ i c, 253 ≤ i ∧ i < 256 ∧ dir[i]? = some c ∧ c ≠ '/') →
      ∀ fuel, deleteDir readdir (fuel + 1) t dir = some (-1, t)) := by
  have hstrip : path.rdropWhile (· = '/') = path := by
    rw [hpath]
    exact List.rdropWhile_idempotent _ _
  have hhead : dir.head? = some '/' → path ≠ [] → path.head? = some '/' ∧ 2 ≤ path.length := by
    intro habs hne
    obtain ⟨c, rest, rfl⟩ := List.exists_cons_of_ne_nil hne
    have hpre : c :: rest <+: dir := hpath ▸ List.rdropWhile_prefix _ _
    obtain ⟨tail, rfl⟩ := hpre
    obtain rfl : c = '/' := by simpa using habs
    refine ⟨rfl, ?_⟩
    cases rest with
    | nil => simp [List.rdropWhile_singleton] at hstrip
    | cons d rest => simp
  refine ⟨?_, ?_, ?_⟩
  · intro loc habs hne hres hdir hfit
    have hlen : path.length ≤ 252 := by
      have := hfit.dirs [] (by simpa using hdir)
      simpa [entryPath] using this
    have hdirPath : dirPath dir = path := by
      rw [dirPath_eq, hpath]
      rw [← hpath]
      unfold maxFilenamePathSize
      omega
    constructor
    · rintro ⟨bound, hrun⟩
      obtain ⟨t', hzero, -⟩ := hrun bound le_rfl
      rw [← hdirPath]
      exact stable_of_deleteDir (hdirPath ▸ hres) hdir hzero
    · rintro ⟨hstable, hlast⟩
      have hdel : Deletable t path loc := by
        refine ⟨(hhead habs hne).1, hstrip, ?_, hstable, hdir, hfit⟩
        intro c hc
        exact validName_last (hhead habs hne).1 hstrip hc (hlast c hc)
      exact ⟨(t.below loc).card + 4, fun fuel hfuel =>
        deleteDir_spec hlists hdirPath habs hdel hfuel⟩
  · intro habs hne hlen
    have hdirPath : dirPath dir = path := by
      rw [dirPath_eq, hpath]
      rw [← hpath]
      unfold maxFilenamePathSize
      omega
    have hcases := fun fuel => @deleteDir_lstat readdir t dir fuel habs
      (hdirPath.symm ▸ ⟨(hhead habs hne).2, hlen⟩)
    rw [hdirPath] at hcases
    exact ⟨fun h fuel => (hcases fuel).1 h, fun e h he fuel => (hcases fuel).2.1 e h he,
      fun n h hn fuel => (hcases fuel).2.2 n h hn⟩
  · rintro (hrel | hslashes | ⟨hlong, hle⟩ | ⟨i, c, hi, hi', hc, hslash⟩) fuel
    · exact deleteDir_refused (Or.inl hrel)
    · exact deleteDir_refused (Or.inr (Or.inl (by rw [dirPath_slashes hslashes]; simp)))
    · apply deleteDir_refused
      rw [dirPath_eq (by rw [← hpath]; unfold maxFilenamePathSize; omega), ← hpath]
      exact Or.inr (Or.inr hlong)
    · exact deleteDir_refused (Or.inr (Or.inr (length_dirPath ⟨hi, hi'⟩ hc hslash)))

/-! ### A small tree -/

/-- The dot entries come first, then the others in the order of the tree. -/
def firstUnlisted : Readdir := fun t hd listed =>
  (dotNames.map (fun name => DirEnt.mk name true) ++ (t.children hd).map fun name =>
    DirEnt.mk name (decide (t.node (hd ++ [name]) = some .dir))).find? fun ent =>
      decide (ent.name ∉ listed)

theorem lists_firstUnlisted : Lists firstUnlisted where
  entry := by
    intro t hd listed ent h
    have hmem := List.mem_of_find?_eq_some h
    refine ⟨?_, by simpa using List.find?_some h⟩
    rcases List.mem_append.mp hmem with hmem | hmem
    · obtain ⟨name, hname, rfl⟩ := List.mem_map.mp hmem
      exact Or.inl ⟨hname, rfl⟩
    · obtain ⟨name, hname, rfl⟩ := List.mem_map.mp hmem
      obtain ⟨n, hn⟩ := Option.isSome_iff_exists.mp (FileTree.mem_children.mp hname)
      exact Or.inr ⟨n, hn, by simp [hn]⟩
  complete := by
    intro t hd listed h ent hent
    have hall := List.find?_eq_none.mp h
    rcases hent with ⟨hdot, hisDir⟩ | ⟨n, hn, hisDir⟩
    · simpa using hall ⟨ent.name, true⟩
        (List.mem_append_left _ (List.mem_map.mpr ⟨ent.name, hdot, rfl⟩))
    · have hchild : ent.name ∈ t.children hd := FileTree.mem_children.mpr (by rw [hn]; rfl)
      simpa using hall ⟨ent.name, decide (t.node (hd ++ [ent.name]) = some .dir)⟩
        (List.mem_append_right _ (List.mem_map.mpr ⟨ent.name, hchild, rfl⟩))

/-- A directory with a file, a link to a file elsewhere and a directory. -/
def sampleTree : FileTree := FileTree.ofEntries
  [([], .dir), (["a".toList], .dir), (["a".toList, "f".toList], .file "x".toList),
    (["a".toList, "l".toList], .link "/b".toList), (["a".toList, "d".toList], .dir),
    (["b".toList], .file "y".toList)] (by decide) (by decide)

theorem pathsFit_sampleTree : PathsFit sampleTree "/a".toList ["a".toList] := by
  have hshort : ∀ names, (sampleTree.node (["a".toList] ++ names)).isSome →
      (entryPath "/a".toList names).length ≤ 252 := by
    intro names hsome
    obtain ⟨n, hmem⟩ := FileTree.isSome_node_iff.mp hsome
    simp only [sampleTree, FileTree.ofEntries, List.singleton_append, List.mem_cons, Prod.mk.injEq,
      List.cons.injEq, List.not_mem_nil, or_false, reduceCtorEq, false_and, false_or,
      true_and] at hmem
    rcases hmem with ⟨rfl, -⟩ | ⟨rfl, -⟩ | ⟨rfl, -⟩ | ⟨rfl, -⟩ | ⟨⟨hb, -⟩, -⟩
    · decide
    · decide
    · decide
    · decide
    · exact absurd hb (by decide)
  exact ⟨fun names hn => hshort names (by rw [hn]; rfl),
    fun names n hn => (hshort names (by rw [hn]; rfl)).trans (by decide)⟩

theorem deletable_sampleTree : Deletable sampleTree "/a".toList ["a".toList] := by
  refine ⟨by decide, by decide, ?_, by decide +kernel, by decide, pathsFit_sampleTree⟩
  intro c hc
  have hlast : (components "/a".toList).getLast? = some "a".toList := by decide
  rw [hlast, Option.some.injEq] at hc
  rw [← hc]
  decide

/-- The directory is removed with its link, and the file that the link leads to stays. -/
theorem deleteDir_removes_sampleTree : ∃ bound, ∀ fuel, bound ≤ fuel → ∃ t',
    deleteDir firstUnlisted fuel sampleTree "/a/".toList = some (0, t') ∧
      t'.node = sampleTree.node.without ["a".toList] := by
  have h := deletable_sampleTree
  refine ((deleteDir_removes lists_firstUnlisted sampleTree "/a/".toList "/a".toList
    (by decide)).1 ["a".toList] (by decide) (by decide) h.resolve_eq h.dir h.fit).mpr ?_
  refine ⟨h.stable, ?_⟩
  intro c hc hdot
  have hname := h.last c hc
  simp [dotNames, hname.ne_dot, hname.ne_dots] at hdot

/-- Below a file there is nothing, but the result is not 1; and of a path of 257 bytes only the
first 256 are looked at, so that a directory in front of a run of slashes is removed. -/
theorem not_removes_blocked_or_long :
    ¬ (∀ (readdir : Readdir) (t : FileTree) (dir : Text), Lists readdir → dir.head? = some '/' →
        (∀ loc, resolve t.node (dir.rdropWhile (· = '/')) ≠ .ok loc) →
        ∀ fuel, deleteDir readdir (fuel + 1) t dir = some (1, t)) ∧
      ¬ (∀ (readdir : Readdir) (t : FileTree) (dir : Text), Lists readdir →
        254 ≤ (dir.rdropWhile (· = '/')).length →
        ∀ fuel ret t', deleteDir readdir fuel t dir = some (ret, t') → ret < 0) := by
  constructor
  · intro h
    have hblocked : resolve sampleTree.node "/b/x".toList = .error .enotdir := by decide +kernel
    have hone := h firstUnlisted sampleTree "/b/x".toList lists_firstUnlisted (by decide) (by
      have hstrip : "/b/x".toList.rdropWhile (· = '/') = "/b/x".toList := by decide
      intro loc hloc
      rw [hstrip, hblocked] at hloc
      simp at hloc) 0
    have hret : (deleteDir firstUnlisted 1 sampleTree "/b/x".toList).map Prod.fst = some (-1) := by
      decide +kernel
    rw [hone] at hret
    simp at hret
  · intro h
    have hcut : dirPath ("/a".toList ++ List.replicate 254 '/' ++ "b".toList) = "/a".toList := by
      decide +kernel
    obtain ⟨t', hrun, -⟩ := deleteDir_spec lists_firstUnlisted hcut (by decide) deletable_sampleTree
      le_rfl
    have hneg := h firstUnlisted sampleTree ("/a".toList ++ List.replicate 254 '/' ++ "b".toList)
      lists_firstUnlisted (by decide +kernel) _ 0 t' hrun
    omega

end OpenvasTool
