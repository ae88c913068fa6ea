import Mathlib.Data.Fintype.Basic
import OpenvasTool.LinkedQueue

/-!
# Runs of the list queues

Every run of admitted calls keeps each queue a ring of its items that is stably
sorted by their keys, also when the key of an item changes before it is requeued.
An item is admitted to a queue only while no queue holds it. The count of a queue is
an integer here; the `int` of the source does not wrap below 2^30 items.
-/

namespace OpenvasTool

open Support

variable {Q ι κ : Type*} [DecidableEq Q] [DecidableEq ι]

/-- The calls on the queues. The key of an unlinked item may change at any time, the key of a
linked item only together with its `reque_list`. -/
inductive QueueCall (Q ι κ : Type*) where
  | initListQue (q : Q)
  | pushBack (q : Q) (item : ι)
  | popHead (q : Q)
  | getHead (q : Q)
  | delItem (q : Q) (item : ι)
  | requeList (q : Q) (item : ι)
  | changeKey (item : ι) (key : κ)
  | changeKeyReque (q : Q) (item : ι) (key : κ)

/-- The items of each queue in the order of their last insertion, and those that were linked when
their queue was initialised again. -/
structure QueueHistory (Q ι : Type*) where
  linked : Q → List ι
  dropped : List ι

namespace QueueHistory

/-- Another order of insertion for one queue. -/
def setLinked (h : QueueHistory Q ι) (q : Q) (xs : List ι) : QueueHistory Q ι :=
  { h with linked := Function.update h.linked q xs }

omit [DecidableEq ι] in
@[simp] theorem setLinked_self (h : QueueHistory Q ι) (q : Q) (xs : List ι) :
    (h.setLinked q xs).linked q = xs := Function.update_self ..

omit [DecidableEq ι] in
theorem setLinked_of_ne (h : QueueHistory Q ι) {q q' : Q} (hq : q' ≠ q) (xs : List ι) :
    (h.setLinked q xs).linked q' = h.linked q' := Function.update_of_ne hq ..

/-- An item that was not pushed yet, or that was removed again. -/
def Unlinked (h : QueueHistory Q ι) (i : ι) : Prop := (∀ q, i ∉ h.linked q) ∧ i ∉ h.dropped

/-- An item is pushed only while it is unlinked, and it is deleted or requeued only on the queue
that holds it, or while it is unlinked. -/
def Admits (h : QueueHistory Q ι) : QueueCall Q ι κ → Prop
  | .pushBack _ item => h.Unlinked item
  | .delItem q item | .requeList q item => item ∈ h.linked q ∨ h.Unlinked item
  | .changeKey item _ => ∀ q, item ∉ h.linked q
  | .changeKeyReque q item _ => item ∈ h.linked q
  | _ => True

/-- The history after `reque_list`. -/
def reque (h : QueueHistory Q ι) (q : Q) (item : ι) : QueueHistory Q ι :=
  if item ∈ h.linked q then h.setLinked q ((h.linked q).erase item ++ [item]) else h

end QueueHistory

/-- A call, with the history of the queues. -/
def queueStep (cmp : Q → κ → κ → ℤ) (s : QueueMem Q ι κ × QueueHistory Q ι) :
    QueueCall Q ι κ → Option (QueueMem Q ι κ × QueueHistory Q ι)
  | .initListQue q =>
      some ((s.1.initListQue q).2,
        ⟨Function.update s.2.linked q [], s.2.dropped ++ s.2.linked q⟩)
  | .pushBack q item => (s.1.pushBack (cmp q) q item).map fun r =>
      (r.2, s.2.setLinked q (s.2.linked q ++ [item]))
  | .popHead q => (s.1.popHead q).map fun r =>
      (r.2, match r.1 with
        | none => s.2
        | some item => s.2.setLinked q ((s.2.linked q).erase item))
  | .getHead q => (s.1.getHead q).map fun _ => s
  | .delItem q item =>
      some ((s.1.delItem q item).2, s.2.setLinked q ((s.2.linked q).erase item))
  | .requeList q item => (s.1.requeList (cmp q) q item).map fun r => (r.2, s.2.reque q item)
  | .changeKey item key => some ({ s.1 with key := Function.update s.1.key item key }, s.2)
  | .changeKeyReque q item key =>
      let m : QueueMem Q ι κ := { s.1 with key := Function.update s.1.key item key }
      (m.requeList (cmp q) q item).map fun r => (r.2, s.2.reque q item)

/-- New items, and queues that were just initialised. -/
def newQueues (key : ι → κ) : QueueMem Q ι κ × QueueHistory Q ι :=
  (⟨⟨id, id⟩, fun _ => 0, key⟩, ⟨fun _ => [], []⟩)

/-- Each call of a run is admitted when it is made. -/
def AdmittedCalls (cmp : Q → κ → κ → ℤ) (s : QueueMem Q ι κ × QueueHistory Q ι) :
    List (QueueCall Q ι κ) → Prop
  | [] => True
  | call :: calls =>
      s.2.Admits call ∧
        match queueStep cmp s call with
        | none => True
        | some s' => AdmittedCalls cmp s' calls

instance [Fintype Q] (h : QueueHistory Q ι) : (call : QueueCall Q ι κ) → Decidable (h.Admits call)
  | .initListQue _ | .popHead _ | .getHead _ => .isTrue trivial
  | .pushBack _ item => inferInstanceAs (Decidable ((∀ q, item ∉ h.linked q) ∧ item ∉ h.dropped))
  | .delItem q item | .requeList q item =>
      inferInstanceAs (Decidable (item ∈ h.linked q ∨ (∀ q, item ∉ h.linked q) ∧ item ∉ h.dropped))
  | .changeKey item _ => inferInstanceAs (Decidable (∀ q, item ∉ h.linked q))
  | .changeKeyReque q item _ => inferInstanceAs (Decidable (item ∈ h.linked q))

instance AdmittedCalls.decidable [Fintype Q] (cmp : Q → κ → κ → ℤ) :
    (s : QueueMem Q ι κ × QueueHistory Q ι) → (calls : List (QueueCall Q ι κ)) →
      Decidable (AdmittedCalls cmp s calls)
  | _, [] => .isTrue trivial
  | s, call :: calls =>
      haveI : Decidable (match queueStep cmp s call with
          | none => True
          | some s' => AdmittedCalls cmp s' calls) :=
        match queueStep cmp s call with
        | none => .isTrue trivial
        | some s' => AdmittedCalls.decidable cmp s' calls
      inferInstanceAs (Decidable (s.2.Admits call ∧ _))

/-- The comparison of two items by their keys. -/
def QueueMem.cmpItem (m : QueueMem Q ι κ) (cmp : κ → κ → ℤ) (i j : ι) : ℤ := cmp (m.key i) (m.key j)

/-- Each queue is a ring of its items, stably sorted by their keys, and the other items are self
linked. -/
structure WellFormed (cmp : Q → κ → κ → ℤ) (m : QueueMem Q ι κ) (h : QueueHistory Q ι)
    (roots : Q → ListQueue ι) : Prop where
  represents : ∀ q, m.Represents q (roots q)
  sorted : ∀ q, StablySorted (m.cmpItem (cmp q)) (h.linked q) (roots q).items
  apart : ∀ q q', ∀ i ∈ (roots q).items, i ∈ (roots q').items → q = q'
  dropped : ∀ i ∈ h.dropped, ∀ q, i ∉ (roots q).items
  unlinked : ∀ i, h.Unlinked i → m.Unlinked i

namespace WellFormed

variable {cmp : Q → κ → κ → ℤ} {m : QueueMem Q ι κ} {h : QueueHistory Q ι} {roots : Q → ListQueue ι}

omit [DecidableEq Q] [DecidableEq ι] in
theorem mem_linked (hw : WellFormed cmp m h roots) {q : Q} {i : ι} :
    i ∈ h.linked q ↔ i ∈ (roots q).items := ((hw.sorted q).perm.mem_iff).symm

/-- One queue changes: its ring is the one of `root`, and only links of its old and new addresses
and of unlinked items change. -/
theorem replace (hw : WellFormed cmp m h roots) (hcmp : ∀ q, PreorderComparison (cmp q)) {q : Q}
    {m' : QueueMem Q ι κ} {h' : QueueHistory Q ι} {root : ListQueue ι}
    (hrep : m'.Represents q root)
    (hsorted : StablySorted (m'.cmpItem (cmp q)) (h'.linked q) root.items)
    (hlinked : ∀ q' ≠ q, h'.linked q' = h.linked q')
    (hcnt : ∀ q' ≠ q, m'.cnt q' = m.cnt q')
    (hkey : ∀ q' ≠ q, ∀ i ∈ (roots q').items, m'.key i = m.key i)
    (hlinks : ∀ node, node ≠ .head q → (∀ i, node = .item i → i ∉ (roots q).items ∧ i ∉ root.items) →
      QueueMem.SameLinks m m' node)
    (hnew : ∀ i ∈ root.items, i ∈ (roots q).items ∨ h.Unlinked i)
    (hold : ∀ i ∈ (roots q).items, i ∉ root.items → i ∈ h'.dropped ∨ m'.Unlinked i)
    (hdropped : ∀ i, i ∈ h'.dropped → i ∈ h.dropped ∨ (i ∈ (roots q).items ∧ i ∉ root.items))
    (hkept : ∀ i ∈ h.dropped, i ∈ h'.dropped) :
    WellFormed cmp m' h' (Function.update roots q root) := by
  -- the items of the other queues are not touched
  have hfar : ∀ q' ≠ q, ∀ i ∈ (roots q').items, i ∉ (roots q).items ∧ i ∉ root.items := by
    intro q' hq i hi
    have hout : i ∉ (roots q).items := fun hin => hq (hw.apart q' q i hi hin)
    refine ⟨hout, fun hin => ?_⟩
    rcases hnew i hin with hin | hfree
    · exact hout hin
    · exact hfree.1 q' (hw.mem_linked.mpr hi)
  refine ⟨fun q' => ?_, fun q' => ?_, fun q₁ q₂ i h₁ h₂ => ?_, fun i hi q' => ?_, fun i hi => ?_⟩
  · by_cases hq : q' = q
    · subst hq
      rwa [Function.update_self]
    · rw [Function.update_of_ne hq]
      refine (hw.represents q').congr (fun node hnode => hlinks node ?_ ?_) (hcnt q' hq)
      · rintro rfl
        exact hq (QueueMem.head_mem_nodes.mp hnode).symm
      · rintro i rfl
        exact hfar q' hq i (QueueMem.item_mem_nodes.mp hnode)
  · by_cases hq : q' = q
    · subst hq
      rwa [Function.update_self]
    · rw [Function.update_of_ne hq, hlinked q' hq]
      refine (hw.sorted q').congr ((hcmp q').comap m'.key) fun a ha b hb => ?_
      simp only [QueueMem.cmpItem, hkey q' hq a (hw.mem_linked.mp ha),
        hkey q' hq b (hw.mem_linked.mp hb)]
  · by_cases hq₁ : q₁ = q
    · by_cases hq₂ : q₂ = q
      · rw [hq₁, hq₂]
      · subst hq₁
        rw [Function.update_self] at h₁
        rw [Function.update_of_ne hq₂] at h₂
        exact absurd h₁ (hfar q₂ hq₂ i h₂).2
    · rw [Function.update_of_ne hq₁] at h₁
      by_cases hq₂ : q₂ = q
      · subst hq₂
        rw [Function.update_self] at h₂
        exact absurd h₂ (hfar q₁ hq₁ i h₁).2
      · rw [Function.update_of_ne hq₂] at h₂
        exact hw.apart q₁ q₂ i h₁ h₂
  · by_cases hq : q' = q
    · subst hq
      rw [Function.update_self]
      intro hin
      rcases hdropped i hi with hi | ⟨_, hout⟩
      · rcases hnew i hin with hin | hfree
        · exact hw.dropped i hi q' hin
        · exact hfree.2 hi
      · exact hout hin
    · rw [Function.update_of_ne hq]
      intro hin
      rcases hdropped i hi with hi | ⟨hmem, _⟩
      · exact hw.dropped i hi q' hin
      · exact (hfar q' hq i hin).1 hmem
  · have hroot : i ∉ root.items := fun hin => hi.1 q (hsorted.perm.subset hin)
    by_cases hin : i ∈ (roots q).items
    · rcases hold i hin hroot with hdrop | hself
      · exact absurd hdrop hi.2
      · exact hself
    · have hfree : h.Unlinked i := by
        refine ⟨fun q' hmem => ?_, fun hdrop => hi.2 (hkept i hdrop)⟩
        by_cases hq : q' = q
        · subst hq
          exact hin (hw.mem_linked.mp hmem)
        · exact hi.1 q' (by rwa [hlinked q' hq])
      have hsame := hlinks (.item i) (by simp) (by
        rintro j heq
        obtain rfl := Node.item.inj heq
        exact ⟨hin, hroot⟩)
      have hself := hw.unlinked i hfree
      exact ⟨hsame.1.trans hself.1, hsame.2.trans hself.2⟩

/-- `push_back` of an unlinked item. -/
theorem pushBack (hw : WellFormed cmp m h roots) (hcmp : ∀ q, PreorderComparison (cmp q)) {q : Q}
    {item : ι} (hfree : h.Unlinked item) :
    ∃ m' roots', m.pushBack (cmp q) q item = some (0, m') ∧
      WellFormed cmp m' (h.setLinked q (h.linked q ++ [item])) roots' := by
  have hnew : item ∉ (roots q).items := fun hin => hfree.1 q (hw.mem_linked.mpr hin)
  obtain ⟨m', hpush, hrep, hkey, hcnt, hlinks⟩ := (hw.represents q).pushBack (cmp q) hnew
  refine ⟨m', _, hpush, hw.replace hcmp hrep ?_ ?_ hcnt ?_ ?_ ?_ ?_ ?_ ?_⟩
  · have hsorted := (hw.sorted q).insert ((hcmp q).comap m.key) item
    have hsame : m'.cmpItem (cmp q) = m.cmpItem (cmp q) := by
      funext i j
      simp only [QueueMem.cmpItem, hkey]
    rw [hsame, QueueHistory.setLinked_self]
    exact hsorted
  · exact fun q' hq => h.setLinked_of_ne hq _
  · exact fun q' _ i _ => congrFun hkey i
  · intro node hhead hnode
    apply hlinks
    cases node with
    | head q' => exact fun hmem => hhead (by rw [QueueMem.head_mem_nodes.mp hmem])
    | item i =>
      have hout := (hnode i rfl).2
      rw [ListQueue.mem_pushBack, not_or] at hout
      simpa using hout
  · intro i hi
    rcases ListQueue.mem_pushBack.mp hi with rfl | hi
    · exact Or.inr hfree
    · exact Or.inl hi
  · intro i hi hout
    exact absurd (ListQueue.mem_pushBack.mpr (Or.inr hi)) hout
  · exact fun i hi => Or.inl hi
  · exact fun i hi => hi

/-- `del_item` of a linked item. -/
theorem delItem (hw : WellFormed cmp m h roots) (hcmp : ∀ q, PreorderComparison (cmp q)) {q : Q}
    {item : ι} (hmem : item ∈ h.linked q) :
    ∃ m' roots', m.delItem q item = (0, m') ∧ m'.Unlinked item ∧ m'.key = m.key ∧
      WellFormed cmp m' (h.setLinked q ((h.linked q).erase item)) roots' := by
  have hin := hw.mem_linked.mp hmem
  obtain ⟨m', hdel, hrep, hself, hkey, hcnt, hlinks⟩ := (hw.represents q).delItem hin
  have hitems : ∀ i, i ∈ ((roots q).delItem item).items ↔ i ≠ item ∧ i ∈ (roots q).items :=
    fun i => (hw.represents q).valid.mem_delItem
  refine ⟨m', _, hdel, hself, hkey, hw.replace hcmp hrep ?_ ?_ hcnt ?_ ?_ ?_ ?_ ?_ ?_⟩
  · have hsame : m'.cmpItem (cmp q) = m.cmpItem (cmp q) := by
      funext i j
      simp only [QueueMem.cmpItem, hkey]
    rw [hsame, QueueHistory.setLinked_self, ListQueue.delItem, if_pos hin]
    exact (hw.sorted q).erase item
  · exact fun q' hq => h.setLinked_of_ne hq _
  · exact fun q' _ i _ => congrFun hkey i
  · intro node hhead hnode
    apply hlinks
    cases node with
    | head q' => exact fun hmem => hhead (by rw [QueueMem.head_mem_nodes.mp hmem])
    | item i => simpa using (hnode i rfl).1
  · exact fun i hi => Or.inl ((hitems i).mp hi).2
  · intro i hi hout
    have heq : i = item := by
      by_contra hne
      exact hout ((hitems i).mpr ⟨hne, hi⟩)
    exact Or.inr (heq ▸ hself)
  · exact fun i hi => Or.inl hi
  · exact fun i hi => hi

/-- `reque_list` of a linked item, after a change of its key. -/
theorem requeList (hw : WellFormed cmp m h roots) (hcmp : ∀ q, PreorderComparison (cmp q)) {q : Q}
    {item : ι} (hmem : item ∈ h.linked q) (key : κ) :
    ∃ m' roots', { m with key := Function.update m.key item key }.requeList (cmp q) q item =
        some (0, m') ∧ WellFormed cmp m' (h.reque q item) roots' := by
  obtain ⟨m₁, roots₁, hdel, hself, hkey, hw₁⟩ := hw.delItem hcmp hmem
  have hnodup : (h.linked q).Nodup :=
    (hw.sorted q).perm.nodup_iff.mp (hw.represents q).valid.nodup
  have hother : ∀ q' ≠ q, item ∉ h.linked q' := by
    intro q' hq hin
    exact hq (hw.apart q' q item (hw.mem_linked.mp hin) (hw.mem_linked.mp hmem))
  have hfree : (h.setLinked q ((h.linked q).erase item)).Unlinked item := by
    refine ⟨fun q' => ?_, fun hdrop => hw.dropped item hdrop q (hw.mem_linked.mp hmem)⟩
    by_cases hq : q' = q
    · subst hq
      rw [QueueHistory.setLinked_self]
      exact hnodup.not_mem_erase
    · rw [h.setLinked_of_ne hq]
      exact hother q' hq
  -- the item is unlinked now, so its key does not matter
  have hw₂ : WellFormed cmp { m₁ with key := Function.update m.key item key }
      (h.setLinked q ((h.linked q).erase item)) roots₁ := by
    refine ⟨fun q' => ?_, fun q' => ?_, hw₁.apart, hw₁.dropped, hw₁.unlinked⟩
    · exact (hw₁.represents q').congr (fun node _ => ⟨rfl, rfl⟩) rfl
    · refine (hw₁.sorted q').congr ((hcmp q').comap _) fun a ha b hb => ?_
      have hne : ∀ i ∈ (h.setLinked q ((h.linked q).erase item)).linked q', i ≠ item := by
        rintro i hi rfl
        exact hfree.1 q' hi
      simp only [QueueMem.cmpItem, hkey, Function.update_of_ne (hne a ha),
        Function.update_of_ne (hne b hb)]
  obtain ⟨m', roots', hpush, hw'⟩ := hw₂.pushBack hcmp hfree (q := q)
  refine ⟨m', roots', ?_, ?_⟩
  · have hne : m.links.next (.item item) ≠ .item item := by
      intro heq
      rw [QueueMem.delItem, if_neg (not_not.mpr heq)] at hdel
      simp at hdel
    have hdel' : QueueMem.delItem q item { m with key := Function.update m.key item key } =
        (0, { m₁ with key := Function.update m.key item key }) := by
      rw [QueueMem.delItem, if_pos hne] at hdel
      rw [QueueMem.delItem, if_pos hne]
      obtain rfl := (Prod.mk.inj hdel).2
      rfl
    rw [QueueMem.requeList, if_pos hne, hdel', hpush]
    rfl
  · rw [QueueHistory.reque, if_pos hmem]
    have hhist : (h.setLinked q ((h.linked q).erase item)).setLinked q
        ((h.setLinked q ((h.linked q).erase item)).linked q ++ [item]) =
        h.setLinked q ((h.linked q).erase item ++ [item]) := by
      simp [QueueHistory.setLinked]
    rwa [hhist] at hw'

omit [DecidableEq Q] in
/-- A new key of an item that no queue holds. -/
theorem changeKey (hw : WellFormed cmp m h roots) (hcmp : ∀ q, PreorderComparison (cmp q)) {item : ι}
    (hout : ∀ q, item ∉ h.linked q) (key : κ) :
    WellFormed cmp { m with key := Function.update m.key item key } h roots := by
  refine ⟨fun q => ?_, fun q => ?_, hw.apart, hw.dropped, hw.unlinked⟩
  · exact (hw.represents q).congr (fun node _ => ⟨rfl, rfl⟩) rfl
  · refine (hw.sorted q).congr ((hcmp q).comap _) fun a ha b hb => ?_
    have hne : ∀ i ∈ h.linked q, i ≠ item := by
      rintro i hi rfl
      exact hout q hi
    simp only [QueueMem.cmpItem, Function.update_of_ne (hne a ha), Function.update_of_ne (hne b hb)]

/-- `initListQue`, which forgets the items of the queue. -/
theorem initListQue (hw : WellFormed cmp m h roots) (hcmp : ∀ q, PreorderComparison (cmp q)) (q : Q) :
    ∃ roots', WellFormed cmp (m.initListQue q).2
      ⟨Function.update h.linked q [], h.dropped ++ h.linked q⟩ roots' := by
  refine ⟨_, hw.replace hcmp (QueueMem.represents_initListQue q m) ?_ ?_ ?_ ?_ ?_ ?_ ?_ ?_ ?_⟩
  · change StablySorted _ (Function.update h.linked q [] q) []
    rw [Function.update_self]
    exact StablySorted.nil
  · exact fun q' hq => Function.update_of_ne hq _ _
  · exact fun q' hq => Function.update_of_ne hq _ _
  · exact fun _ _ _ _ => rfl
  · intro node hhead _
    simp [QueueMem.SameLinks, QueueMem.initListQue, reset, hhead]
  · simp [ListQueue.initListQue]
  · intro i hi _
    exact Or.inl (List.mem_append_right _ (hw.mem_linked.mpr hi))
  · intro i hi
    rcases List.mem_append.mp hi with hi | hi
    · exact Or.inl hi
    · exact Or.inr ⟨hw.mem_linked.mp hi, by simp [ListQueue.initListQue]⟩
  · exact fun i hi => List.mem_append_left _ hi

/-- Every admitted call succeeds and keeps the queues well formed. -/
theorem step (hw : WellFormed cmp m h roots) (hcmp : ∀ q, PreorderComparison (cmp q))
    {call : QueueCall Q ι κ} (hadm : h.Admits call) :
    ∃ m' h' roots', queueStep cmp (m, h) call = some (m', h') ∧ WellFormed cmp m' h' roots' := by
  have hout : ∀ {i : ι}, h.Unlinked i → ∀ q, h.reque q i = h := by
    intro i hfree q
    rw [QueueHistory.reque, if_neg (hfree.1 q)]
  cases call with
  | initListQue q =>
    obtain ⟨roots', hw'⟩ := hw.initListQue hcmp q
    exact ⟨_, _, roots', rfl, hw'⟩
  | pushBack q item =>
    obtain ⟨m', roots', hpush, hw'⟩ := hw.pushBack hcmp hadm (q := q)
    exact ⟨m', _, roots', by rw [queueStep, hpush]; rfl, hw'⟩
  | popHead q =>
    rcases (hw.represents q).popHead with ⟨_, hpop⟩ | ⟨i, xs, hitems, hpop⟩
    · exact ⟨m, h, roots, by rw [queueStep, hpop]; rfl, hw⟩
    · have hmem : i ∈ h.linked q := hw.mem_linked.mpr (by simp [hitems])
      obtain ⟨m', roots', hdel, _, _, hw'⟩ := hw.delItem hcmp hmem
      exact ⟨m', _, roots', by rw [queueStep, hpop, hdel]; rfl, hw'⟩
  | getHead q => exact ⟨m, h, roots, by rw [queueStep, (hw.represents q).getHead]; rfl, hw⟩
  | delItem q item =>
    rcases hadm with hmem | hfree
    · obtain ⟨m', roots', hdel, _, _, hw'⟩ := hw.delItem hcmp hmem
      exact ⟨m', _, roots', by rw [queueStep, hdel], hw'⟩
    · have hsame : h.setLinked q ((h.linked q).erase item) = h := by
        rw [List.erase_of_not_mem (hfree.1 q), QueueHistory.setLinked, Function.update_eq_self]
      exact ⟨m, h, roots, by rw [queueStep, (hw.unlinked item hfree).delItem q, hsame], hw⟩
  | requeList q item =>
    rcases hadm with hmem | hfree
    · obtain ⟨m', roots', hreque, hw'⟩ := hw.requeList hcmp hmem (m.key item)
      rw [Function.update_eq_self] at hreque
      exact ⟨m', _, roots', by rw [queueStep, hreque]; rfl, hw'⟩
    · have hreque : m.requeList (cmp q) q item = some (0, m) := by
        rw [QueueMem.requeList, if_neg (not_not.mpr (hw.unlinked item hfree).1)]
      exact ⟨m, h, roots, by rw [queueStep, hreque, Option.map_some, hout hfree], hw⟩
  | changeKey item key => exact ⟨_, h, roots, rfl, hw.changeKey hcmp hadm key⟩
  | changeKeyReque q item key =>
    obtain ⟨m', roots', hreque, hw'⟩ := hw.requeList hcmp hadm key
    exact ⟨m', _, roots', by rw [queueStep]; dsimp only; rw [hreque]; rfl, hw'⟩

end WellFormed

omit [DecidableEq Q] [DecidableEq ι] in
theorem wellFormed_newQueues (cmp : Q → κ → κ → ℤ) (key : ι → κ) :
    WellFormed cmp (newQueues key).1 (newQueues (Q := Q) key).2 fun _ => .initListQue := by
  refine ⟨fun q => ⟨Links.ring_nil rfl rfl, rfl, ListQueue.valid_initListQue⟩,
    fun q => StablySorted.nil, ?_, ?_, fun i _ => ⟨rfl, rfl⟩⟩
  · simp [ListQueue.initListQue]
  · simp [newQueues]

/-- What the next call of each function returns. -/
structure QueueAnswers (cmp : Q → κ → κ → ℤ) (m : QueueMem Q ι κ) (h : QueueHistory Q ι) : Prop where
  getHead : ∀ q, ∃ item, m.getHead q = some item ∧ (item = none ↔ h.linked q = []) ∧
    ∀ i, item = some i → EarliestLeast (m.cmpItem (cmp q)) (h.linked q) i
  popHead : ∀ q, ∃ item m', m.popHead q = some (item, m') ∧ m.getHead q = some item ∧
    (item = none → m' = m) ∧ ∀ i, item = some i → isEmpty (.item i) m'.links
  delItem : ∀ q i, i ∈ h.linked q → ∃ m', m.delItem q i = (0, m') ∧ isEmpty (.item i) m'.links
  delUnlinked : ∀ q i, h.Unlinked i → m.delItem q i = (-1, m)
  admitted : ∀ call, h.Admits call → (queueStep cmp (m, h) call).isSome

theorem WellFormed.answers {cmp : Q → κ → κ → ℤ} {m : QueueMem Q ι κ} {h : QueueHistory Q ι}
    {roots : Q → ListQueue ι} (hw : WellFormed cmp m h roots)
    (hcmp : ∀ q, PreorderComparison (cmp q)) : QueueAnswers cmp m h := by
  have hempty : ∀ {m' : QueueMem Q ι κ} {i : ι}, m'.Unlinked i → isEmpty (.item i) m'.links :=
    fun hself => decide_eq_true hself.1
  refine ⟨fun q => ?_, fun q => ?_, fun q i hmem => ?_, fun q i hfree => ?_, fun call hadm => ?_⟩
  · refine ⟨_, (hw.represents q).getHead, ?_, fun i hi => ?_⟩
    · rw [ListQueue.getHead, List.head?_eq_none_iff]
      constructor
      · exact fun hnil => ((hw.sorted q).perm.symm.trans (List.Perm.of_eq hnil)).eq_nil
      · exact fun hnil => ((hw.sorted q).perm.trans (List.Perm.of_eq hnil)).eq_nil
    · obtain ⟨xs, hitems⟩ := List.head?_eq_some_iff.mp hi
      have hsorted := hw.sorted q
      rw [hitems] at hsorted
      exact hsorted.head ((hcmp q).comap m.key)
  · rcases (hw.represents q).popHead with ⟨hitems, hpop⟩ | ⟨i, xs, hitems, hpop⟩
    · refine ⟨none, m, hpop, ?_, fun _ => rfl, by simp⟩
      rw [(hw.represents q).getHead, ListQueue.getHead, hitems]
      rfl
    · obtain ⟨m', hdel, _, hself, _⟩ := (hw.represents q).delItem (hitems ▸ List.mem_cons_self)
      refine ⟨some i, m', by rw [hpop, hdel], ?_, by simp, fun j hj => ?_⟩
      · rw [(hw.represents q).getHead, ListQueue.getHead, hitems]
        rfl
      · obtain rfl := Option.some.inj hj
        exact hempty hself
  · obtain ⟨m', hdel, _, hself, _⟩ := (hw.represents q).delItem (hw.mem_linked.mp hmem)
    exact ⟨m', hdel, hempty hself⟩
  · exact (hw.unlinked i hfree).delItem q
  · obtain ⟨m', h', _, hstep, _⟩ := hw.step hcmp hadm
    rw [hstep]
    rfl

/-- **A list queue is a stable sorted list**, on all queues of the memory and after every run of
admitted calls. -/
theorem queueCalls_wellFormed {cmp : Q → κ → κ → ℤ} (hcmp : ∀ q, PreorderComparison (cmp q))
    (key : ι → κ) (calls : List (QueueCall Q ι κ))
    (hadm : AdmittedCalls cmp (newQueues key) calls) :
    ∃ m h roots, calls.foldlM (queueStep cmp) (newQueues key) = some (m, h) ∧
      WellFormed cmp m h roots ∧ QueueAnswers cmp m h := by
  have hrun : ∀ (calls : List (QueueCall Q ι κ)) (m : QueueMem Q ι κ) (h : QueueHistory Q ι)
      (roots : Q → ListQueue ι), WellFormed cmp m h roots → AdmittedCalls cmp (m, h) calls →
      ∃ m' h' roots', calls.foldlM (queueStep cmp) (m, h) = some (m', h') ∧
        WellFormed cmp m' h' roots' := by
    intro calls
    induction calls with
    | nil => exact fun m h roots hw _ => ⟨m, h, roots, rfl, hw⟩
    | cons call calls ih =>
      intro m h roots hw hadm
      obtain ⟨m', h', roots', hstep, hw'⟩ := hw.step hcmp hadm.1
      have hrest := hadm.2
      rw [hstep] at hrest
      rw [List.foldlM_cons, hstep]
      exact ih m' h' roots' hw' hrest
  obtain ⟨m, h, roots, hrun, hw⟩ := hrun calls _ _ _ (wellFormed_newQueues cmp key) hadm
  exact ⟨m, h, roots, hrun, hw, hw.answers hcmp⟩

/-- Three items in one queue, the first of which moves behind the others with a new key. -/
theorem queueCalls_wellFormed_sample :
    ∃ m h roots, ([.pushBack () 0, .pushBack () 1, .pushBack () 2, .changeKeyReque () 0 9,
        .popHead (), .delItem () 7] : List (QueueCall Unit ℕ ℤ)).foldlM
          (queueStep fun _ a b => a - b) (newQueues fun i : ℕ => (i : ℤ)) = some (m, h) ∧
      WellFormed (fun _ a b => a - b) m h roots ∧ QueueAnswers (fun _ a b => a - b) m h := by
  apply queueCalls_wellFormed
  · exact fun _ => ⟨fun a b => by omega, fun hab hbc => by omega⟩
  · decide

end OpenvasTool
