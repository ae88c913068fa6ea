import Mathlib.Data.List.Chain
import Mathlib.Data.List.Nodup
import Mathlib.Logic.Function.Basic

/-!
# Circular doubly linked lists

Nodes with a link in both directions, and what it takes for a root and a list of
other nodes to form a ring. The rules for removing and inserting a node ask only
which links changed.
-/

namespace Support

variable {ν : Type*}

/-- The links of the nodes. -/
structure Links (ν : Type*) where
  prev : ν → ν
  next : ν → ν

namespace Links

/-- The second node follows the first one, read in both directions. -/
def Linked (m : Links ν) (a b : ν) : Prop := m.next a = b ∧ m.prev b = a

variable {m m' : Links ν}

/-- A chain depends on the forward links of all but its last node and on the backward links of all
but its first one. -/
theorem chain_congr {l : List ν} (h : l.IsChain m.Linked)
    (hnext : ∀ z ∈ l.dropLast, m'.next z = m.next z)
    (hprev : ∀ z ∈ l.tail, m'.prev z = m.prev z) : l.IsChain m'.Linked := by
  induction l with
  | nil => exact List.isChain_nil
  | cons a l ih =>
    cases l with
    | nil => exact List.isChain_singleton a
    | cons b l =>
      obtain ⟨hab, hl⟩ := List.isChain_cons_cons.mp h
      rw [List.dropLast_cons_cons] at hnext
      refine List.isChain_cons_cons.mpr ⟨⟨?_, ?_⟩, ih hl ?_ ?_⟩
      · rw [hnext a (by simp), hab.1]
      · rw [hprev b (by simp), hab.2]
      · exact fun z hz => hnext z (List.mem_cons_of_mem a hz)
      · exact fun z hz => hprev z (List.mem_cons_of_mem b hz)

/-- The nodes from the root on form a ring, read forwards and backwards. -/
structure Ring (m : Links ν) (root : ν) (xs : List ν) : Prop where
  nodup : (root :: xs).Nodup
  linked : (root :: (xs ++ [root])).IsChain m.Linked

/-- The node in front of a position of the ring. -/
def before (root : ν) (as : List ν) : ν := (root :: as).getLast (List.cons_ne_nil root as)

/-- The node at a position of the ring. -/
def after (bs : List ν) (root : ν) : ν := (bs ++ [root]).head (by simp)

theorem before_mem (root : ν) (as : List ν) : before root as ∈ root :: as := List.getLast_mem _

theorem after_mem (bs : List ν) (root : ν) : after bs root ∈ bs ++ [root] := List.head_mem _

@[simp] theorem before_nil (root : ν) : before root [] = root := rfl

@[simp] theorem before_concat (root : ν) (as : List ν) (a : ν) : before root (as ++ [a]) = a := by
  simp [before]

@[simp] theorem after_nil (root : ν) : after [] root = root := rfl

@[simp] theorem after_cons (b : ν) (bs : List ν) (root : ν) : after (b :: bs) root = b := rfl

theorem cons_eq_concat (root : ν) (as : List ν) :
    root :: as = (root :: as).dropLast ++ [before root as] :=
  (List.dropLast_append_getLast _).symm

theorem concat_eq_cons (bs : List ν) (root : ν) :
    bs ++ [root] = after bs root :: (bs ++ [root]).tail :=
  (List.cons_head_tail _).symm

/-- A chain through a position is a chain up to it, the link there and a chain from it on. -/
theorem chain_split {root : ν} {as bs : List ν} :
    (root :: (as ++ bs ++ [root])).IsChain m.Linked ↔
      (root :: as).IsChain m.Linked ∧ m.Linked (before root as) (after bs root) ∧
        (bs ++ [root]).IsChain m.Linked := by
  have hlist : root :: (as ++ bs ++ [root]) = (root :: as).dropLast ++
      before root as :: after bs root :: (bs ++ [root]).tail := by
    calc root :: (as ++ bs ++ [root])
        = (root :: as) ++ (bs ++ [root]) := by simp
      _ = ((root :: as).dropLast ++ [before root as]) ++
            (after bs root :: (bs ++ [root]).tail) := by
          rw [← cons_eq_concat, ← concat_eq_cons]
      _ = _ := by simp
  rw [hlist, List.isChain_append_cons_cons, ← cons_eq_concat, ← concat_eq_cons]

theorem Ring.disjoint {root : ν} {as bs : List ν} (h : m.Ring root (as ++ bs)) {z : ν}
    (ha : z ∈ root :: as) : z ∉ bs := by
  have hnodup : ((root :: as) ++ bs).Nodup := h.nodup
  exact fun hb => (List.nodup_append.mp hnodup).2.2 z ha z hb rfl

theorem Ring.root_not_mem {root : ν} {xs : List ν} (h : m.Ring root xs) : root ∉ xs :=
  (List.nodup_cons.mp h.nodup).1

/-- The links at a position of the ring. -/
theorem Ring.links {root : ν} {as bs : List ν} (h : m.Ring root (as ++ bs)) :
    m.next (before root as) = after bs root ∧ m.prev (after bs root) = before root as :=
  (chain_split.mp h.linked).2.1

theorem Ring.next_root {root : ν} {xs : List ν} (h : m.Ring root xs) :
    m.next root = after xs root := (@Ring.links _ _ root [] xs h).1

/-- A ring depends on the links of its nodes only. -/
theorem Ring.congr {root : ν} {xs : List ν} (h : m.Ring root xs)
    (heq : ∀ z ∈ root :: xs, m'.next z = m.next z ∧ m'.prev z = m.prev z) : m'.Ring root xs := by
  refine ⟨h.nodup, chain_congr h.linked (fun z hz => ?_) (fun z hz => ?_)⟩
  · rw [← List.cons_append, List.dropLast_concat] at hz
    exact (heq z hz).1
  · rw [List.tail_cons, List.mem_append, List.mem_singleton] at hz
    exact (heq z (List.mem_cons.mpr hz.symm)).2

/-- A root that points to itself is an empty ring. -/
theorem ring_nil {root : ν} (hnext : m.next root = root) (hprev : m.prev root = root) :
    m.Ring root [] :=
  ⟨List.nodup_singleton root,
    List.isChain_cons_cons.mpr ⟨⟨hnext, hprev⟩, List.isChain_singleton root⟩⟩

/-- The chains on the two sides of a position keep their links when only links at the position
change. -/
theorem Ring.sides {root : ν} {as mid bs : List ν} (h : m.Ring root (as ++ mid ++ bs))
    (hnext : ∀ z, z ∉ mid → z ≠ before root as → z ∈ root :: (as ++ mid ++ bs) →
      m'.next z = m.next z)
    (hprev : ∀ z, z ∉ mid → z ≠ after bs root → z ∈ root :: (as ++ mid ++ bs) →
      m'.prev z = m.prev z) :
    (root :: as).IsChain m'.Linked ∧ (bs ++ [root]).IsChain m'.Linked := by
  have hring : m.Ring root (as ++ (mid ++ bs)) := by rwa [← List.append_assoc]
  have hmid : ∀ z ∈ root :: as, z ∉ mid := fun z ha hm =>
    hring.disjoint ha (List.mem_append_left bs hm)
  have hmid' : ∀ z ∈ bs, z ∉ mid := fun z hb hm =>
    h.disjoint (List.mem_cons_of_mem root (List.mem_append_right as hm)) hb
  have hbs : ∀ z ∈ root :: as, z ∉ bs := fun z ha hb =>
    hring.disjoint ha (List.mem_append_right mid hb)
  have hroot : root ∉ mid := hmid root (by simp)
  have hparts := chain_split.mp hring.linked
  have hlast := (@chain_split _ _ root (as ++ mid) bs).mp h.linked
  have hnodup : (root :: as).Nodup := hring.nodup.sublist (List.Sublist.cons_cons root
    (List.sublist_append_left as _))
  have hnodup' : (bs ++ [root]).Nodup := by
    have hsub := (List.nodup_cons.mp h.nodup)
    refine List.nodup_append.mpr ⟨hsub.2.sublist (List.sublist_append_right _ bs),
      List.nodup_singleton root, ?_⟩
    rintro z hz y hy rfl
    rw [List.mem_singleton] at hy
    subst hy
    exact hsub.1 (List.mem_append_right _ hz)
  constructor
  · refine chain_congr hparts.1 (fun z hz => ?_) (fun z hz => ?_)
    · have hmem : z ∈ root :: as := (List.dropLast_sublist _).subset hz
      have hin : z ∈ root :: (as ++ mid ++ bs) := by
        rcases List.mem_cons.mp hmem with rfl | ha
        · simp
        · simp [ha]
      refine hnext z (hmid z hmem) ?_ hin
      rintro rfl
      rw [cons_eq_concat root as] at hnodup
      exact (List.nodup_append.mp hnodup).2.2 _ hz _ (List.mem_singleton.mpr rfl) rfl
    · have hmem : z ∈ as := hz
      refine hprev z (hmid z (List.mem_cons_of_mem root hmem)) ?_ (by simp [hmem])
      intro heq
      have hafter := after_mem bs root
      rw [← heq, List.mem_append, List.mem_singleton] at hafter
      rcases hafter with hb | rfl
      · exact hbs z (List.mem_cons_of_mem root hmem) hb
      · exact (List.nodup_cons.mp hnodup).1 hmem
  · refine chain_congr hlast.2.2 (fun z hz => ?_) (fun z hz => ?_)
    · rw [List.dropLast_concat] at hz
      refine hnext z (hmid' z hz) ?_ (by simp [hz])
      rintro rfl
      exact hbs _ (before_mem root as) hz
    · have hmem : z ∈ bs ++ [root] := List.mem_of_mem_tail hz
      refine hprev z ?_ ?_ ?_
      · rcases List.mem_append.mp hmem with hb | hr
        · exact hmid' z hb
        · rw [List.mem_singleton.mp hr]
          exact hroot
      · rintro rfl
        rw [concat_eq_cons] at hnodup'
        exact (List.nodup_cons.mp hnodup').1 hz
      · rcases List.mem_append.mp hmem with hb | hr
        · simp [hb]
        · simp [List.mem_singleton.mp hr]

/-- **Removing a node**: its neighbours are linked to each other, and no other link of the ring
changes. -/
theorem Ring.remove {root x : ν} {as bs : List ν} (h : m.Ring root (as ++ x :: bs))
    (hlink : m'.next (m.prev x) = m.next x ∧ m'.prev (m.next x) = m.prev x)
    (hnext : ∀ z, z ≠ x → z ≠ m.prev x → m'.next z = m.next z)
    (hprev : ∀ z, z ≠ x → z ≠ m.next x → m'.prev z = m.prev z) : m'.Ring root (as ++ bs) := by
  have hring : m.Ring root (as ++ [x] ++ bs) := by simpa using h
  have hbefore : m.prev x = before root as := (@Ring.links _ _ root as (x :: bs) h).2
  have hafter : m.next x = after bs root := by
    have := (@Ring.links _ _ root (as ++ [x]) bs hring).1
    rwa [before_concat] at this
  rw [hbefore, hafter] at hlink
  rw [hbefore] at hnext
  rw [hafter] at hprev
  have hsides := @Ring.sides _ _ m' root as [x] bs hring
    (fun z hz hne _ => hnext z (by simpa using hz) hne)
    (fun z hz hne _ => hprev z (by simpa using hz) hne)
  refine ⟨h.nodup.sublist ?_, ?_⟩
  · exact List.Sublist.cons_cons root (List.Sublist.append_left (List.sublist_cons_self x bs) as)
  · exact chain_split.mpr ⟨hsides.1, hlink, hsides.2⟩

/-- **Inserting a node** at a position of the ring. -/
theorem Ring.insert {root x : ν} {as bs : List ν} (h : m.Ring root (as ++ bs))
    (hnew : x ∉ root :: (as ++ bs))
    (hfront : m'.Linked (before root as) x) (hback : m'.Linked x (after bs root))
    (hnext : ∀ z, z ≠ x → z ≠ before root as → m'.next z = m.next z)
    (hprev : ∀ z, z ≠ x → z ≠ after bs root → m'.prev z = m.prev z) :
    m'.Ring root (as ++ x :: bs) := by
  have hne : ∀ z ∈ root :: (as ++ bs), z ≠ x := by
    rintro z hz rfl
    exact hnew hz
  have hring : m.Ring root (as ++ [] ++ bs) := by simpa using h
  have hsides := @Ring.sides _ _ m' root as [] bs hring
    (fun z _ hbefore hz => hnext z (hne z (by simpa using hz)) hbefore)
    (fun z _ hafter hz => hprev z (hne z (by simpa using hz)) hafter)
  constructor
  · have hperm : (root :: (as ++ x :: bs)).Perm (x :: root :: (as ++ bs)) :=
      (List.perm_middle.cons root).trans (List.Perm.swap x root _)
    exact hperm.nodup_iff.mpr (List.nodup_cons.mpr ⟨hnew, h.nodup⟩)
  · refine chain_split.mpr ⟨hsides.1, hfront, ?_⟩
    rw [List.cons_append, concat_eq_cons bs root, List.isChain_cons_cons, ← concat_eq_cons]
    exact ⟨hback, hsides.2⟩

end Links

end Support
