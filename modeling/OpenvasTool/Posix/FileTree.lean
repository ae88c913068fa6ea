import OpenvasTool.Posix.Regex
import Mathlib.Data.List.DropRight
import Mathlib.Data.Finset.Card

/-!
# File trees

A finite tree of directories, files and symbolic links, how a path leads through it, and the
system calls that look at its nodes and remove them. A tree in which nodes are missing leads a
path to the same node or nowhere.
-/

namespace Posix

inductive FileNode where
  | dir
  | file (content : Text)
  | link (target : Text)
  deriving DecidableEq

/-- The place of a node: the names on the way from the root. -/
abbrev Loc := List Text

/-- What is at every place. -/
abbrev Nodes := Loc → Option FileNode

/-- A name that can stand in a directory. -/
structure ValidName (name : Text) : Prop where
  ne_nil : name ≠ []
  ne_dot : name ≠ ['.']
  ne_dots : name ≠ ['.', '.']
  slash : '/' ∉ name

instance : DecidablePred ValidName := fun name =>
  decidable_of_iff (name ≠ [] ∧ name ≠ ['.'] ∧ name ≠ ['.', '.'] ∧ '/' ∉ name)
    ⟨fun h => ⟨h.1, h.2.1, h.2.2.1, h.2.2.2⟩, fun h => ⟨h.1, h.2, h.3, h.4⟩⟩

/-- The names that every directory lists. -/
def dotNames : List Text := [['.'], ['.', '.']]

/-- A tree of nodes: what has a place is in a directory and has a valid name. -/
structure FileTree where
  entries : List (Loc × FileNode)
  root : entries.lookup [] = some .dir
  parent : ∀ l name, (entries.lookup (l ++ [name])).isSome → entries.lookup l = some .dir
  names : ∀ l name, (entries.lookup (l ++ [name])).isSome → ValidName name

/-! ### Nodes -/

/-- All nodes of the first are nodes of the second. -/
def Nodes.Sub (a b : Nodes) : Prop := ∀ l n, a l = some n → b l = some n

/-- The nodes that are not below this place. -/
def Nodes.emptied (a : Nodes) (loc : Loc) : Nodes := fun l =>
  if loc <+: l ∧ l ≠ loc then none else a l

/-- The nodes that are neither at this place nor below it. -/
def Nodes.without (a : Nodes) (loc : Loc) : Nodes := fun l => if loc <+: l then none else a l

theorem Nodes.Sub.trans {a b c : Nodes} (h : a.Sub b) (h' : b.Sub c) : a.Sub c :=
  fun l n hn => h' l n (h l n hn)

theorem Nodes.emptied_sub (a : Nodes) (loc : Loc) : (a.emptied loc).Sub a := by
  intro l n hn
  unfold emptied at hn
  split at hn
  · simp at hn
  · exact hn

theorem Nodes.without_sub (a : Nodes) (loc : Loc) : (a.without loc).Sub a := by
  intro l n hn
  unfold without at hn
  split at hn
  · simp at hn
  · exact hn

@[simp] theorem Nodes.emptied_self (a : Nodes) (loc : Loc) : a.emptied loc loc = a loc := by
  simp [emptied]

/-- Emptying a place takes away more than emptying a place below it. -/
theorem Nodes.emptied_sub_child (a : Nodes) (loc : Loc) (name : Text) :
    (a.emptied loc).Sub (a.emptied (loc ++ [name])) := by
  intro l n hn
  unfold emptied at hn ⊢
  split at hn
  · simp at hn
  · rename_i hnot
    rw [if_neg]
    · exact hn
    · rintro ⟨hpre, -⟩
      apply hnot
      refine ⟨(List.prefix_append loc [name]).trans hpre, ?_⟩
      rintro rfl
      have hlen := hpre.length_le
      rw [List.length_append, List.length_singleton] at hlen
      omega

/-- An emptied place that is removed too. -/
theorem Nodes.without_emptied (a : Nodes) (loc : Loc) :
    (a.emptied loc).without loc = a.without loc := by
  funext l
  unfold without emptied
  by_cases hpre : loc <+: l
  · rw [if_pos hpre, if_pos hpre]
  · rw [if_neg hpre, if_neg hpre, if_neg (fun h => hpre h.1)]

/-- What is taken away below a place is not missed when the place is emptied. -/
theorem Nodes.emptied_without {a : Nodes} {loc : Loc} {name : Text} :
    (a.without (loc ++ [name])).emptied loc = a.emptied loc := by
  funext l
  unfold emptied without
  by_cases hbelow : loc <+: l ∧ l ≠ loc
  · rw [if_pos hbelow, if_pos hbelow]
  · rw [if_neg hbelow, if_neg hbelow]
    rw [if_neg]
    intro hpre
    apply hbelow
    refine ⟨(List.prefix_append loc [name]).trans hpre, ?_⟩
    rintro rfl
    have hlen := hpre.length_le
    rw [List.length_append, List.length_singleton] at hlen
    omega

namespace FileTree

variable (t : FileTree)

/-- What is at a place of the tree. -/
def node : Nodes := fun l => t.entries.lookup l

/-- The names in a directory. -/
def children (l : Loc) : List Text :=
  t.entries.filterMap fun e => if e.1 ≠ [] ∧ e.1.dropLast = l then e.1.getLast? else none

/-- The places below a place. -/
def below (loc : Loc) : Finset Loc :=
  (t.entries.map Prod.fst).toFinset.filter fun l => loc <+: l ∧ l ≠ loc

variable {t} {l loc : Loc} {name : Text}

theorem isSome_lookup_iff {entries : List (Loc × FileNode)} :
    (entries.lookup l).isSome ↔ ∃ n, (l, n) ∈ entries := by
  rw [List.lookup_eq_findSome?, List.findSome?_isSome_iff]
  constructor
  · rintro ⟨⟨l', n⟩, hmem, h⟩
    dsimp only at h
    split at h
    · rename_i heq
      obtain rfl := beq_iff_eq.mp heq
      exact ⟨n, hmem⟩
    · simp at h
  · rintro ⟨n, hmem⟩
    exact ⟨(l, n), hmem, by simp⟩

theorem isSome_node_iff : (t.node l).isSome ↔ ∃ n, (l, n) ∈ t.entries := isSome_lookup_iff

/-- A list of entries is a tree when each of them is in a directory and has a valid name. -/
def ofEntries (entries : List (Loc × FileNode)) (hroot : entries.lookup [] = some .dir)
    (hentries : ∀ e ∈ entries, e.1 ≠ [] →
      entries.lookup e.1.dropLast = some .dir ∧ ValidName (e.1.getLast?.getD [])) : FileTree where
  entries := entries
  root := hroot
  parent := by
    intro l name hname
    obtain ⟨n, hmem⟩ := isSome_lookup_iff.mp hname
    simpa using (hentries _ hmem (by simp)).1
  names := by
    intro l name hname
    obtain ⟨n, hmem⟩ := isSome_lookup_iff.mp hname
    simpa using (hentries _ hmem (by simp)).2

theorem mem_children : name ∈ t.children l ↔ (t.node (l ++ [name])).isSome := by
  rw [isSome_node_iff, children, List.mem_filterMap]
  constructor
  · rintro ⟨⟨l', n⟩, hmem, h⟩
    dsimp only at h
    split at h
    · rename_i hl
      obtain ⟨hne, rfl⟩ := hl
      refine ⟨n, ?_⟩
      have hlast : l'.getLast hne = name := by
        rw [List.getLast?_eq_getLast_of_ne_nil hne] at h
        exact Option.some.inj h
      rw [← hlast, List.dropLast_append_getLast hne]
      exact hmem
    · simp at h
  · rintro ⟨n, hmem⟩
    exact ⟨(l ++ [name], n), hmem, by simp⟩

/-- Without names in it a directory has nothing below it. -/
theorem node_of_children_nil (h : t.children loc = []) (hpre : loc <+: l) (hne : l ≠ loc) :
    t.node l = none := by
  obtain ⟨rest, rfl⟩ := hpre
  induction rest using List.reverseRecOn with
  | nil => simp at hne
  | append_singleton rest name ih =>
    rw [← List.append_assoc]
    by_contra hsome
    have hparent : t.node (loc ++ rest) = some .dir :=
      t.parent _ name (Option.isSome_iff_ne_none.mpr hsome)
    rcases List.eq_nil_or_concat rest with rfl | ⟨rest', c, rfl⟩
    · rw [List.append_nil] at hsome
      have hmem := mem_children.mpr (Option.isSome_iff_ne_none.mpr hsome)
      rw [h] at hmem
      simp at hmem
    · rw [ih (by simp)] at hparent
      simp at hparent

theorem lookup_filter_ne (entries : List (Loc × FileNode)) (l l' : Loc) :
    (entries.filter fun e => e.1 ≠ l).lookup l' = if l' = l then none else entries.lookup l' := by
  induction entries with
  | nil => simp
  | cons e entries ih =>
    obtain ⟨k, n⟩ := e
    by_cases hk : k = l
    · subst hk
      rw [List.filter_cons_of_neg (by simp), ih, List.lookup_cons]
      by_cases hl' : l' = k
      · simp [hl']
      · rw [if_neg hl', if_neg hl', beq_false_of_ne hl']
    · rw [List.filter_cons_of_pos (by simpa using hk), List.lookup_cons, List.lookup_cons, ih]
      by_cases hl' : l' = k
      · subst hl'
        simp [hk]
      · rw [beq_false_of_ne hl']

/-- Take a node away that has nothing below it. -/
def remove (t : FileTree) (l : Loc) : FileTree :=
  if h : l ≠ [] ∧ t.children l = [] then
    { entries := t.entries.filter fun e => e.1 ≠ l
      root := by
        rw [lookup_filter_ne, if_neg (Ne.symm h.1)]
        exact t.root
      parent := by
        intro l' name hname
        rw [lookup_filter_ne] at hname ⊢
        split at hname
        · simp at hname
        · have hchild := mem_children (t := t).mpr hname
          rw [if_neg, t.parent l' name hname]
          rintro rfl
          rw [h.2] at hchild
          simp at hchild
      names := by
        intro l' name hname
        rw [lookup_filter_ne] at hname
        split at hname
        · simp at hname
        · exact t.names l' name hname }
  else t

theorem node_remove (hne : l ≠ []) (hleaf : t.children l = []) :
    (t.remove l).node = t.node.without l := by
  funext l'
  rw [remove, dif_pos ⟨hne, hleaf⟩]
  unfold node Nodes.without
  dsimp only
  rw [lookup_filter_ne]
  by_cases hl' : l' = l
  · simp [hl']
  · rw [if_neg hl']
    split
    · rename_i hpre
      exact node_of_children_nil hleaf hpre hl'
    · rfl

/-- Nothing is below a file or a link. -/
theorem children_eq_nil {n : FileNode} (hn : t.node l = some n) (hdir : n ≠ .dir) :
    t.children l = [] := by
  rw [List.eq_nil_iff_forall_not_mem]
  intro name hmem
  have hparent : t.node l = some .dir := t.parent l name (mem_children.mp hmem)
  rw [hn] at hparent
  exact hdir (Option.some.inj hparent)

theorem mem_below : l ∈ t.below loc ↔ (t.node l).isSome ∧ loc <+: l ∧ l ≠ loc := by
  rw [below, Finset.mem_filter, List.mem_toFinset, isSome_node_iff]
  simp

theorem below_subset {t' : FileTree} (h : t'.node.Sub t.node) : t'.below loc ⊆ t.below loc := by
  intro l hl
  obtain ⟨hsome, hpre⟩ := mem_below.mp hl
  obtain ⟨n, hn⟩ := Option.isSome_iff_exists.mp hsome
  exact mem_below.mpr ⟨by rw [h l n hn]; rfl, hpre⟩

/-- An entry has fewer places below it than its directory. -/
theorem card_below_child_lt (hsome : (t.node (loc ++ [name])).isSome) :
    (t.below (loc ++ [name])).card < (t.below loc).card := by
  apply Finset.card_lt_card
  have hmem : loc ++ [name] ∈ t.below loc :=
    mem_below.mpr ⟨hsome, List.prefix_append _ _, by simp⟩
  refine ⟨fun l hl => ?_, fun hsuper => ?_⟩
  · obtain ⟨hl, hpre, -⟩ := mem_below.mp hl
    refine mem_below.mpr ⟨hl, (List.prefix_append loc [name]).trans hpre, ?_⟩
    rintro rfl
    have hlen := hpre.length_le
    rw [List.length_append, List.length_singleton] at hlen
    omega
  · exact (mem_below.mp (hsuper hmem)).2.2 rfl

/-- Nothing is in an emptied directory. -/
theorem children_of_emptied {a : Nodes} (h : t.node = a.emptied loc) : t.children loc = [] := by
  rw [List.eq_nil_iff_forall_not_mem]
  intro name hmem
  have hsome := mem_children.mp hmem
  rw [h, Nodes.emptied, if_pos ⟨List.prefix_append _ _, by simp⟩] at hsome
  simp at hsome

end FileTree

/-! ### Paths -/

/-- Why a path leads nowhere. -/
inductive PathError where
  | enoent
  | enotdir
  | eloop
  deriving DecidableEq

/-- The parts of a path between its slashes. -/
def components (path : Text) : List Text := path.splitOn '/'

/-- The way from a place along the components. A link on the way is left to `next`; a link at the
end is not followed. -/
def walk (node : Nodes) (next : Loc → List Text → Except PathError Loc) :
    Loc → List Text → Except PathError Loc
  | cur, [] => .ok cur
  | cur, c :: cs =>
    if c = [] ∨ c = ['.'] then walk node next cur cs
    else if c = ['.', '.'] then walk node next cur.dropLast cs
    else
      match node (cur ++ [c]) with
      | none => .error .enoent
      | some .dir => walk node next (cur ++ [c]) cs
      | some (.file _) => if cs = [] then .ok (cur ++ [c]) else .error .enotdir
      | some (.link target) =>
        if cs = [] then .ok (cur ++ [c])
        else next (if target.head? = some '/' then [] else cur) (components target ++ cs)

/-- The way with at most this number of links on it. -/
def walkLinks (node : Nodes) : ℕ → Loc → List Text → Except PathError Loc
  | 0 => walk node fun _ _ => .error .eloop
  | n + 1 => walk node (walkLinks node n)

/-- The number of links that the kernel follows. -/
def maxSymlinks : ℕ := 40

/-- Where an absolute path leads; a link at its end is not followed. -/
def resolve (node : Nodes) (path : Text) : Except PathError Loc :=
  walkLinks node maxSymlinks [] (components path)

section Walk

variable {a b : Nodes} {next next' : Loc → List Text → Except PathError Loc} {cur loc r : Loc}
  {cs extra : List Text}

/-- With more nodes a way leads to the same place. -/
theorem walk_mono (hnodes : a.Sub b)
    (hnext : ∀ cur cs loc, next cur cs = .ok loc → next' cur cs = .ok loc)
    (h : walk a next cur cs = .ok loc) : walk b next' cur cs = .ok loc := by
  induction cs generalizing cur with
  | nil => exact h
  | cons c cs ih =>
    unfold walk at h ⊢
    split at h
    · rename_i hdot
      rw [if_pos hdot]
      exact ih h
    · rename_i hdot
      rw [if_neg hdot]
      split at h
      · rename_i hdots
        rw [if_pos hdots]
        exact ih h
      · rename_i hdots
        rw [if_neg hdots]
        cases hn : a (cur ++ [c]) with
        | none => simp [hn] at h
        | some n =>
          rw [hnodes _ _ hn]
          rw [hn] at h
          cases n with
          | dir => exact ih h
          | file content => exact h
          | link target =>
            dsimp only at h ⊢
            split at h
            · rename_i hcs
              rwa [if_pos hcs]
            · rename_i hcs
              rw [if_neg hcs]
              exact hnext _ _ _ h

theorem walkLinks_mono {n : ℕ} (hnodes : a.Sub b) (h : walkLinks a n cur cs = .ok loc) :
    walkLinks b n cur cs = .ok loc := by
  induction n generalizing cur cs loc with
  | zero => exact walk_mono hnodes (fun _ _ _ h => h) h
  | succ n ih => exact walk_mono hnodes (fun _ _ _ => ih) h

theorem resolve_mono {path : Text} (hnodes : a.Sub b) (h : resolve a path = .ok loc) :
    resolve b path = .ok loc := walkLinks_mono hnodes h

/-- A way that leads to a directory can be continued there without following links. -/
theorem walk_append (hnext : ∀ cur cs, next cur cs = .ok loc → next cur (cs ++ extra) = .ok r)
    (hdir : a loc = some .dir) (hextra : walk a next loc extra = .ok r)
    (h : walk a next cur cs = .ok loc) : walk a next cur (cs ++ extra) = .ok r := by
  induction cs generalizing cur with
  | nil =>
    obtain rfl : cur = loc := Except.ok.inj h
    exact hextra
  | cons c cs ih =>
    rw [List.cons_append]
    unfold walk at h ⊢
    split at h
    · rename_i hdot
      rw [if_pos hdot]
      exact ih h
    · rename_i hdot
      rw [if_neg hdot]
      split at h
      · rename_i hdots
        rw [if_pos hdots]
        exact ih h
      · rename_i hdots
        rw [if_neg hdots]
        cases hn : a (cur ++ [c]) with
        | none => simp [hn] at h
        | some n =>
          rw [hn] at h
          -- what is found at the end is not a directory unless the last node is one
          have hlast : cur ++ [c] = loc → n = .dir := by
            rintro rfl
            rw [hn] at hdir
            exact Option.some.inj hdir
          cases n with
          | dir => exact ih h
          | file content =>
            dsimp only at h
            split at h
            · exact absurd (hlast (Except.ok.inj h)) (by simp)
            · simp at h
          | link target =>
            dsimp only at h ⊢
            split at h
            · exact absurd (hlast (Except.ok.inj h)) (by simp)
            · rename_i hcs
              rw [if_neg (by simp [hcs]), ← List.append_assoc]
              exact hnext _ _ h

theorem walkLinks_append {n : ℕ} (hdir : a loc = some .dir)
    (hextra : walk a (fun _ _ => .error .eloop) loc extra = .ok r)
    (h : walkLinks a n cur cs = .ok loc) : walkLinks a n cur (cs ++ extra) = .ok r := by
  have hany : ∀ next, walk a next loc extra = .ok r := fun next =>
    walk_mono (fun _ _ hn => hn) (by simp) hextra
  induction n generalizing cur cs with
  | zero => exact walk_append (by simp) hdir (hany _) h
  | succ n ih => exact walk_append (fun cur cs => ih) hdir (hany _) h

/-- A way that ends with a name does not end at the root. -/
theorem walk_ne_root {c : Text} (hc : ValidName c)
    (hnext : ∀ cur cs loc, next cur (cs ++ [c]) = .ok loc → loc ≠ [])
    (h : walk a next cur (cs ++ [c]) = .ok loc) : loc ≠ [] := by
  induction cs generalizing cur with
  | nil =>
    rw [List.nil_append, walk, if_neg (by simp [hc.ne_nil, hc.ne_dot]), if_neg hc.ne_dots] at h
    have hloc : loc = cur ++ [c] := by
      cases hn : a (cur ++ [c]) with
      | none => simp [hn] at h
      | some n =>
        rw [hn] at h
        cases n with
        | dir | file _ | link _ => exact (Except.ok.inj h).symm
    rw [hloc]
    simp
  | cons d cs ih =>
    rw [List.cons_append, walk] at h
    split at h
    · exact ih h
    · split at h
      · exact ih h
      · split at h
        · simp at h
        · exact ih h
        · rw [if_neg (by simp)] at h
          simp at h
        · rw [if_neg (by simp), ← List.append_assoc] at h
          exact hnext _ _ _ h

theorem walkLinks_ne_root {c : Text} {n : ℕ} (hc : ValidName c)
    (h : walkLinks a n cur (cs ++ [c]) = .ok loc) : loc ≠ [] := by
  induction n generalizing cur cs loc with
  | zero => exact walk_ne_root hc (by simp) h
  | succ n ih => exact walk_ne_root hc (fun _ _ _ => ih) h

end Walk

section Resolve

variable {a : Nodes} {loc : Loc} {path name : Text}

theorem components_append (path rest : Text) :
    components (path ++ '/' :: rest) = components path ++ components rest := by
  exact List.splitOn_append_cons_self _ _

/-- The path of an entry leads to its place. -/
theorem resolve_child (h : resolve a path = .ok loc) (hdir : a loc = some .dir)
    (hname : ValidName name) (hsome : (a (loc ++ [name])).isSome) :
    resolve a (path ++ '/' :: name) = .ok (loc ++ [name]) := by
  have hsingle : components name = [name] := List.splitOn_eq_singleton hname.slash
  rw [resolve, components_append, hsingle]
  apply walkLinks_append hdir _ h
  obtain ⟨n, hn⟩ := Option.isSome_iff_exists.mp hsome
  rw [walk, if_neg (by simp [hname.ne_nil, hname.ne_dot]), if_neg hname.ne_dots, hn]
  cases n with
  | dir | file _ | link _ => rfl

/-- A slash at the end of the path of a directory changes nothing. -/
theorem resolve_slash (h : resolve a path = .ok loc) (hdir : a loc = some .dir) :
    resolve a (path ++ ['/']) = .ok loc := by
  rw [resolve, components_append]
  exact walkLinks_append hdir rfl h

/-- A path that ends with a name does not lead to the root. -/
theorem resolve_ne_root (hname : ∀ c, (components path).getLast? = some c → ValidName c)
    (h : resolve a path = .ok loc) : loc ≠ [] := by
  obtain ⟨cs, c, hcs⟩ := List.eq_nil_or_concat (components path) |>.resolve_left
    (List.splitOn_ne_nil _ _)
  rw [List.concat_eq_append] at hcs
  rw [resolve, hcs] at h
  exact walkLinks_ne_root (hname c (by simp [hcs])) h

end Resolve

/-! ### System calls -/

namespace FileTree

/-- `lstat`. -/
def lstat (t : FileTree) (path : Text) : Except PathError FileNode := do
  match t.node (← resolve t.node path) with
  | some n => .ok n
  | none => .error .enoent

/-- `opendir`: the place of the directory; a link at the end is followed. -/
def opendir (t : FileTree) (path : Text) : Option Loc :=
  match resolve t.node (path ++ ['/']) with
  | .ok loc => if t.node loc = some .dir then some loc else none
  | .error _ => none

/-- `unlink`, for all nodes but directories. -/
def unlink (t : FileTree) (path : Text) : Option FileTree :=
  match resolve t.node path with
  | .ok loc =>
    match t.node loc with
    | none | some .dir => none
    | some _ => some (t.remove loc)
  | .error _ => none

/-- `rmdir`, for empty directories under a name of their own. -/
def rmdir (t : FileTree) (path : Text) : Option FileTree :=
  let path := path.rdropWhile (· = '/')
  if (components path).getLast?.any (· ∈ dotNames) then none
  else
    match resolve t.node path with
    | .ok loc =>
      if t.node loc = some .dir ∧ loc ≠ [] ∧ t.children loc = [] then some (t.remove loc) else none
    | .error _ => none

variable {t t' : FileTree} {loc : Loc} {path name : Text}

theorem lstat_eq {n : FileNode} (h : resolve t.node path = .ok loc) (hn : t.node loc = some n) :
    t.lstat path = .ok n := by
  simp [lstat, h, hn, Bind.bind, Except.bind]

theorem opendir_eq (h : resolve t.node path = .ok loc) (hdir : t.node loc = some .dir) :
    t.opendir path = some loc := by
  simp [opendir, resolve_slash h hdir, hdir]

/-- An entry that is not a directory is unlinked. -/
theorem unlink_child {n : FileNode} (h : resolve t.node path = .ok loc)
    (hn : t.node (loc ++ [name]) = some n) (hnotDir : n ≠ .dir) :
    ∃ t', t.unlink (path ++ '/' :: name) = some t' ∧
      t'.node = t.node.without (loc ++ [name]) := by
  have hsome : (t.node (loc ++ [name])).isSome := by rw [hn]; rfl
  refine ⟨t.remove (loc ++ [name]), ?_, node_remove (by simp) (children_eq_nil hn hnotDir)⟩
  rw [unlink, resolve_child h (t.parent loc name hsome) (t.names loc name hsome) hsome]
  dsimp only
  rw [hn]
  cases n with
  | dir => exact absurd rfl hnotDir
  | file _ | link _ => rfl

theorem rdropWhile_slash (hstrip : path.rdropWhile (· = '/') = path) :
    (path ++ ['/']).rdropWhile (· = '/') = path := by
  rw [List.rdropWhile_concat, if_pos (by simp), hstrip]

/-- What a successful removal of a directory says, for a path without a slash at its end. -/
theorem rmdir_eq_some (hstrip : path.rdropWhile (· = '/') = path)
    (h : t.rmdir (path ++ ['/']) = some t') :
    ∃ loc, resolve t.node path = .ok loc ∧ t.node loc = some .dir ∧ t.children loc = [] ∧
      (∀ c, (components path).getLast? = some c → c ∉ dotNames) ∧
      t'.node = t.node.without loc := by
  rw [rmdir, rdropWhile_slash hstrip] at h
  split at h
  · simp at h
  rename_i hlast
  cases hres : resolve t.node path with
  | error e => simp [hres] at h
  | ok loc =>
    rw [hres] at h
    dsimp only at h
    split at h
    · rename_i hloc
      obtain rfl := Option.some.inj h
      refine ⟨loc, rfl, hloc.1, hloc.2.2, ?_, node_remove hloc.2.1 hloc.2.2⟩
      intro c hc hmem
      rw [hc] at hlast
      simp [hmem] at hlast
    · simp at h

/-- A directory that is empty is removed. -/
theorem rmdir_slash (hstrip : path.rdropWhile (· = '/') = path)
    (hlast : ∀ c, (components path).getLast? = some c → ValidName c)
    (h : resolve t.node path = .ok loc) (hdir : t.node loc = some .dir)
    (hempty : t.children loc = []) :
    ∃ t', t.rmdir (path ++ ['/']) = some t' ∧ t'.node = t.node.without loc := by
  have hroot := resolve_ne_root hlast h
  have hdots : ¬ ((components path).getLast?.any fun c => decide (c ∈ dotNames)) = true := by
    cases hc : (components path).getLast? with
    | none => simp
    | some c => simp [dotNames, (hlast c hc).ne_dot, (hlast c hc).ne_dots]
  refine ⟨t.remove loc, ?_, node_remove hroot hempty⟩
  rw [rmdir, rdropWhile_slash hstrip]
  rw [if_neg hdots, h]
  exact if_pos ⟨hdir, hroot, hempty⟩

theorem remove_sub (t : FileTree) (l : Loc) : (t.remove l).node.Sub t.node := by
  by_cases h : l ≠ [] ∧ t.children l = []
  · rw [node_remove h.1 h.2]
    exact Nodes.without_sub _ _
  · rw [remove, dif_neg h]
    exact fun _ _ hn => hn

theorem unlink_sub (h : t.unlink path = some t') : t'.node.Sub t.node := by
  unfold unlink at h
  split at h
  · split at h
    · simp at h
    · simp at h
    · obtain rfl := Option.some.inj h
      exact remove_sub t _
  · simp at h

theorem rmdir_sub (h : t.rmdir path = some t') : t'.node.Sub t.node := by
  unfold rmdir at h
  dsimp only at h
  split at h
  · simp at h
  · split at h
    · split at h
      · obtain rfl := Option.some.inj h
        exact remove_sub t _
      · simp at h
    · simp at h

end FileTree

end Posix
