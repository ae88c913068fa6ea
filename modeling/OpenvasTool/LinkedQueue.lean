import OpenvasTool.LList
import OpenvasTool.Support.Ring
import OpenvasTool.Support.StableSort

/-!
# The links of a list queue

The functions of a list queue on the links of its items, with several queues and
their items in one memory. On the ring of a queue they do what the operations of
`ListQueue` do to the list of its items, and they touch no link of another queue.
-/

namespace OpenvasTool

open Support

/-! ### Links -/

section Links

variable {ν : Type*} [DecidableEq ν]

/-- `node->prev = val`. -/
def setPrev (node val : ν) (m : Links ν) : Links ν :=
  { m with prev := Function.update m.prev node val }

/-- `node->next = val`. -/
def setNext (node val : ν) (m : Links ν) : Links ν :=
  { m with next := Function.update m.next node val }

/-- `reset`. -/
def reset (item : ν) (m : Links ν) : Links ν := setNext item item (setPrev item item m)

/-- `isEmpty`. -/
def isEmpty (item : ν) (m : Links ν) : Bool := m.next item = item

/-- `delListItem`. -/
def delListItem (item : ν) (m : Links ν) : Links ν :=
  let m := setNext (m.prev item) (m.next item) m
  let m := setPrev (m.next item) (m.prev item) m
  reset item m

/-- `addPrev`. -/
def addPrev (curr newItr : ν) (m : Links ν) : Links ν :=
  let m := setNext newItr curr m
  let m := setPrev newItr (m.prev curr) m
  let m := setNext (m.prev curr) newItr m
  setPrev curr newItr m

@[simp] theorem setPrev_next (node val : ν) (m : Links ν) : (setPrev node val m).next = m.next := rfl

@[simp] theorem setNext_prev (node val : ν) (m : Links ν) : (setNext node val m).prev = m.prev := rfl

@[simp] theorem setPrev_prev (node val z : ν) (m : Links ν) :
    (setPrev node val m).prev z = if z = node then val else m.prev z := Function.update_apply ..

@[simp] theorem setNext_next (node val z : ν) (m : Links ν) :
    (setNext node val m).next z = if z = node then val else m.next z := Function.update_apply ..

theorem delListItem_next {item : ν} {m : Links ν} (hprev : m.prev item ≠ item) (z : ν) :
    (delListItem item m).next z =
      if z = item then item else if z = m.prev item then m.next item else m.next z := by
  simp [delListItem, reset, hprev.symm]

theorem delListItem_prev {item : ν} {m : Links ν} (hprev : m.prev item ≠ item) (z : ν) :
    (delListItem item m).prev z =
      if z = item then item else if z = m.next item then m.prev item else m.prev z := by
  simp [delListItem, reset, hprev.symm]

theorem addPrev_next {curr newItr : ν} {m : Links ν} (hcurr : curr ≠ newItr) (z : ν) :
    (addPrev curr newItr m).next z =
      if z = m.prev curr then newItr else if z = newItr then curr else m.next z := by
  simp [addPrev, hcurr]

theorem addPrev_prev {curr newItr : ν} {m : Links ν} (z : ν) :
    (addPrev curr newItr m).prev z =
      if z = curr then newItr else if z = newItr then m.prev curr else m.prev z := by
  simp [addPrev]

/-- A removed node leaves a ring, and points to itself. -/
theorem ring_delListItem {m : Links ν} {root x : ν} {as bs : List ν}
    (h : m.Ring root (as ++ x :: bs)) :
    (delListItem x m).Ring root (as ++ bs) ∧
      (delListItem x m).next x = x ∧ (delListItem x m).prev x = x := by
  have hprev : m.prev x ≠ x := by
    have hlink := (@Links.Ring.links _ _ root as (x :: bs) h).2
    rw [Links.after_cons] at hlink
    rw [hlink]
    intro heq
    exact h.disjoint (heq ▸ Links.before_mem root as) (by simp)
  have hnext : m.next x ≠ x := by
    have hring : m.Ring root ((as ++ [x]) ++ bs) := by simpa using h
    have hlink := hring.links.1
    rw [Links.before_concat] at hlink
    rw [hlink]
    intro heq
    have hmem := Links.after_mem bs root
    rw [heq, List.mem_append, List.mem_singleton] at hmem
    rcases hmem with hmem | rfl
    · exact hring.disjoint (by simp) hmem
    · exact h.root_not_mem (by simp)
  refine ⟨h.remove ⟨?_, ?_⟩ (fun z hz hzp => ?_) (fun z hz hzn => ?_), ?_, ?_⟩
  · rw [delListItem_next hprev, if_neg hprev, if_pos rfl]
  · rw [delListItem_prev hprev, if_neg hnext, if_pos rfl]
  · rw [delListItem_next hprev, if_neg hz, if_neg hzp]
  · rw [delListItem_prev hprev, if_neg hz, if_neg hzn]
  · rw [delListItem_next hprev, if_pos rfl]
  · rw [delListItem_prev hprev, if_pos rfl]

/-- Only the removed node and its neighbours change. -/
theorem delListItem_other {m : Links ν} {root x : ν} {as bs : List ν}
    (h : m.Ring root (as ++ x :: bs)) {z : ν} (hz : z ∉ root :: (as ++ x :: bs)) :
    (delListItem x m).next z = m.next z ∧ (delListItem x m).prev z = m.prev z := by
  have hlink := (@Links.Ring.links _ _ root as (x :: bs) h).2
  have hring : m.Ring root ((as ++ [x]) ++ bs) := by simpa using h
  have hlink' := hring.links.1
  rw [Links.after_cons] at hlink
  rw [Links.before_concat] at hlink'
  have hprev : m.prev x ≠ x := by
    rw [hlink]
    intro heq
    exact h.disjoint (heq ▸ Links.before_mem root as) (by simp)
  have hx : z ≠ x := fun heq => hz (by simp [heq])
  have hbefore : z ≠ m.prev x := by
    rw [hlink]
    rintro rfl
    rcases List.mem_cons.mp (Links.before_mem root as) with heq | hmem
    · exact hz (by simp [heq])
    · exact hz (by simp [hmem])
  have hafter : z ≠ m.next x := by
    rw [hlink']
    rintro rfl
    rcases List.mem_append.mp (Links.after_mem bs root) with hmem | heq
    · exact hz (by simp [hmem])
    · exact hz (by simp [List.mem_singleton.mp heq])
  rw [delListItem_next hprev, delListItem_prev hprev, if_neg hx, if_neg hx, if_neg hbefore,
    if_neg hafter]
  exact ⟨rfl, rfl⟩

/-- A node that is added in front of a position is there. -/
theorem ring_addPrev {m : Links ν} {root x : ν} {as bs : List ν} (h : m.Ring root (as ++ bs))
    (hnew : x ∉ root :: (as ++ bs)) :
    (addPrev (Links.after bs root) x m).Ring root (as ++ x :: bs) ∧
      ∀ z ∉ root :: (as ++ x :: bs), (addPrev (Links.after bs root) x m).next z = m.next z ∧
        (addPrev (Links.after bs root) x m).prev z = m.prev z := by
  have hafter : Links.after bs root ∈ root :: (as ++ bs) := by
    rcases List.mem_append.mp (Links.after_mem bs root) with hmem | heq
    · simp [hmem]
    · simp [List.mem_singleton.mp heq]
  have hbefore : Links.before root as ∈ root :: (as ++ bs) := by
    rcases List.mem_cons.mp (Links.before_mem root as) with heq | hmem
    · simp [heq]
    · simp [hmem]
  have hcurr : Links.after bs root ≠ x := fun heq => hnew (heq ▸ hafter)
  have hfront : Links.before root as ≠ x := fun heq => hnew (heq ▸ hbefore)
  have hprev := h.links.2
  constructor
  · refine h.insert hnew ⟨?_, ?_⟩ ⟨?_, ?_⟩ (fun z hz hzb => ?_) (fun z hz hza => ?_)
    · rw [addPrev_next hcurr, hprev, if_pos rfl]
    · rw [addPrev_prev, if_neg hcurr.symm, if_pos rfl, hprev]
    · rw [addPrev_next hcurr, hprev, if_neg hfront.symm, if_pos rfl]
    · rw [addPrev_prev, if_pos rfl]
    · rw [addPrev_next hcurr, hprev, if_neg hzb, if_neg hz]
    · rw [addPrev_prev, if_neg hza, if_neg hz]
  · intro z hz
    have hz' : z ∉ root :: (as ++ bs) := by
      intro hmem
      apply hz
      rcases List.mem_cons.mp hmem with heq | hmem
      · simp [heq]
      · rcases List.mem_append.mp hmem with hmem | hmem <;> simp [hmem]
    have hx : z ≠ x := fun heq => hz (by simp [heq])
    have hza : z ≠ Links.after bs root := fun heq => hz' (heq ▸ hafter)
    have hzb : z ≠ Links.before root as := fun heq => hz' (heq ▸ hbefore)
    rw [addPrev_next hcurr, addPrev_prev, hprev, if_neg hzb, if_neg hx, if_neg hza, if_neg hx]
    exact ⟨rfl, rfl⟩

end Links

/-! ### Queues -/

/-- An address: the head of a queue, or the link of an item. -/
inductive Node (Q ι : Type*) where
  | head (q : Q)
  | item (i : ι)
  deriving DecidableEq

/-- Queues and items in memory: all links, the counters `m_cnt` and the keys of the items. -/
structure QueueMem (Q ι κ : Type*) where
  links : Links (Node Q ι)
  cnt : Q → ℤ
  key : ι → κ

variable {Q ι κ : Type*} [DecidableEq Q] [DecidableEq ι]

namespace QueueMem

/-- `initListQue` and `resetListQue`. -/
def initListQue (q : Q) (m : QueueMem Q ι κ) : ℤ × QueueMem Q ι κ :=
  (0, { m with links := reset (.head q) m.links, cnt := Function.update m.cnt q 0 })

/-- The loop of `push_back` from `curr` towards the front; the fuel bounds its steps. There is no
result when the fuel runs out or the loop reaches the head of another queue. -/
def seekLoop (q : Q) (cmp : ι → ℤ) (m : QueueMem Q ι κ) : ℕ → Node Q ι → Option (Node Q ι)
  | 0, _ => none
  | fuel + 1, curr =>
      match m.links.prev curr with
      | .head q' => if q' = q then some curr else none
      | .item i => if 0 ≥ cmp i then some curr else seekLoop q cmp m fuel (.item i)

/-- `push_back`. -/
def pushBack (cmp : κ → κ → ℤ) (q : Q) (item : ι) (m : QueueMem Q ι κ) :
    Option (ℤ × QueueMem Q ι κ) :=
  let cmpItem i := cmp (m.key i) (m.key item)
  (seekLoop q cmpItem m ((m.cnt q).toNat + 1) (.head q)).map fun curr =>
    (0, { m with
      links := addPrev curr (.item item) m.links
      cnt := Function.update m.cnt q (m.cnt q + 1) })

/-- `pop_head`. -/
def popHead (q : Q) (m : QueueMem Q ι κ) : Option (Option ι × QueueMem Q ι κ) :=
  match m.links.next (.head q) with
  | .head q' => if q' = q then some (none, m) else none
  | .item i => some (some i, { m with
      links := delListItem (.item i) m.links
      cnt := Function.update m.cnt q (m.cnt q - 1) })

/-- `get_head`. -/
def getHead (q : Q) (m : QueueMem Q ι κ) : Option (Option ι) :=
  match m.links.next (.head q) with
  | .head q' => if q' = q then some none else none
  | .item i => some (some i)

/-- `del_item`. -/
def delItem (q : Q) (item : ι) (m : QueueMem Q ι κ) : ℤ × QueueMem Q ι κ :=
  if m.links.next (.item item) ≠ .item item then
    (0, { m with
      links := delListItem (.item item) m.links
      cnt := Function.update m.cnt q (m.cnt q - 1) })
  else (-1, m)

/-- `reque_list`. -/
def requeList (cmp : κ → κ → ℤ) (q : Q) (item : ι) (m : QueueMem Q ι κ) :
    Option (ℤ × QueueMem Q ι κ) :=
  if m.links.next (.item item) ≠ .item item then do
    let (_, m) ← pushBack cmp q item (delItem q item m).2
    some (0, m)
  else some (0, m)

/-! ### The ring of a queue -/

/-- The addresses of a queue: its head and its items. -/
def nodes (q : Q) (xs : List ι) : List (Node Q ι) := .head q :: xs.map .item

omit [DecidableEq Q] [DecidableEq ι] in
@[simp] theorem head_mem_nodes {q q' : Q} {xs : List ι} : .head q' ∈ nodes q xs ↔ q' = q := by
  simp [nodes]

omit [DecidableEq Q] [DecidableEq ι] in
@[simp] theorem item_mem_nodes {q : Q} {xs : List ι} {i : ι} : .item i ∈ nodes q xs ↔ i ∈ xs := by
  simp [nodes]

/-- The links of a queue form the ring of these items, and its counter agrees. -/
structure Represents (m : QueueMem Q ι κ) (q : Q) (root : ListQueue ι) : Prop where
  ring : m.links.Ring (.head q) (root.items.map .item)
  cnt_eq : m.cnt q = root.cnt
  valid : root.Valid

/-- The links of these addresses are the same. -/
def SameLinks (m m' : QueueMem Q ι κ) (node : Node Q ι) : Prop :=
  m'.links.next node = m.links.next node ∧ m'.links.prev node = m.links.prev node

omit [DecidableEq Q] [DecidableEq ι] in
/-- A queue depends on the links of its addresses and on its counter. -/
theorem Represents.congr {m m' : QueueMem Q ι κ} {q : Q} {root : ListQueue ι}
    (h : m.Represents q root) (hlinks : ∀ node ∈ nodes q root.items, SameLinks m m' node)
    (hcnt : m'.cnt q = m.cnt q) : m'.Represents q root :=
  ⟨h.ring.congr hlinks, hcnt.trans h.cnt_eq, h.valid⟩

/-- An unlinked item points to itself. -/
def Unlinked (m : QueueMem Q ι κ) (i : ι) : Prop :=
  m.links.next (.item i) = .item i ∧ m.links.prev (.item i) = .item i

theorem represents_initListQue (q : Q) (m : QueueMem Q ι κ) :
    (m.initListQue q).2.Represents q .initListQue := by
  refine ⟨Links.ring_nil ?_ ?_, ?_, ListQueue.valid_initListQue⟩
  · simp [initListQue, reset]
  · simp [initListQue, reset]
  · simp [initListQue, ListQueue.initListQue]

namespace Represents

variable {m : QueueMem Q ι κ} {q : Q} {root : ListQueue ι}

omit [DecidableEq Q] [DecidableEq ι] in
theorem next_head (h : m.Represents q root) :
    m.links.next (.head q) = Links.after (root.items.map .item) (.head q) := h.ring.next_root

omit [DecidableEq ι] in
/-- `get_head` reads the first item. -/
theorem getHead (h : m.Represents q root) : m.getHead q = some root.getHead := by
  unfold QueueMem.getHead ListQueue.getHead
  rw [h.next_head]
  cases root.items with
  | nil => simp
  | cons i xs => simp

/-- The loop stops behind the last item that is not greater. -/
theorem seekLoop (h : m.Represents q root) (cmp : ι → ℤ) {fuel : ℕ}
    (hfuel : root.items.length < fuel) :
    m.seekLoop q cmp fuel (.head q) =
      some (Links.after ((root.items.rtakeWhile fun i => decide (0 < cmp i)).map .item) (.head q)) := by
  have hloop : ∀ (as bs : List ι) (fuel : ℕ), as.length < fuel →
      m.links.Ring (.head q) (as.map .item ++ bs.map .item) →
      m.seekLoop q cmp fuel (Links.after (bs.map .item) (.head q)) =
        some (Links.after ((as.rtakeWhile fun i => decide (0 < cmp i)).map .item ++ bs.map .item)
          (.head q)) := by
    intro as
    induction as using List.reverseRecOn with
    | nil =>
      intro bs fuel hfuel hring
      cases fuel with
      | zero => omega
      | succ fuel =>
        have hlink := hring.links.2
        simp only [List.map_nil, Links.before_nil] at hlink
        simp [QueueMem.seekLoop, hlink]
    | append_singleton as i ih =>
      intro bs fuel hfuel hring
      cases fuel with
      | zero => omega
      | succ fuel =>
        have hlink := hring.links.2
        rw [List.map_append, List.map_singleton, Links.before_concat] at hlink
        simp only [QueueMem.seekLoop, hlink]
        by_cases hpos : 0 < cmp i
        · rw [if_neg (by omega), List.rtakeWhile_concat_pos _ _ _ (by simpa using hpos)]
          have hring' : m.links.Ring (.head q) (as.map .item ++ (i :: bs).map .item) := by
            simpa using hring
          have hstep := ih (i :: bs) fuel (by simpa using hfuel) hring'
          rw [List.map_cons, Links.after_cons] at hstep
          rw [hstep]
          simp
        · rw [if_pos (by omega), List.rtakeWhile_concat_neg _ _ _ (by simpa using hpos)]
          simp
  have hring : m.links.Ring (.head q) (root.items.map .item ++ ([] : List ι).map .item) := by
    simpa using h.ring
  simpa using hloop root.items [] fuel hfuel hring

/-- `push_back` inserts the item, and changes no link of other addresses. -/
theorem pushBack (h : m.Represents q root) (cmp : κ → κ → ℤ) {item : ι} (hnew : item ∉ root.items) :
    ∃ m', m.pushBack cmp q item = some (0, m') ∧
      m'.Represents q (root.pushBack (fun i => cmp (m.key i) (m.key item)) item) ∧
      m'.key = m.key ∧ (∀ q' ≠ q, m'.cnt q' = m.cnt q') ∧
      ∀ node ∉ nodes q (item :: root.items), SameLinks m m' node := by
  set f : ι → ℤ := fun i => cmp (m.key i) (m.key item)
  set front := root.items.rdropWhile fun i => decide (0 < f i)
  set back := root.items.rtakeWhile fun i => decide (0 < f i)
  have hsplit : front ++ back = root.items := List.rdropWhile_append_rtakeWhile
  have hcnt := h.valid.cnt_eq
  have hfuel : root.items.length < (m.cnt q).toNat + 1 := by
    rw [h.cnt_eq, hcnt]
    simp
  have hseek := h.seekLoop f hfuel
  have hring : m.links.Ring (.head q) (front.map .item ++ back.map .item) := by
    rw [← List.map_append, hsplit]
    exact h.ring
  have hmem : (.item item : Node Q ι) ∉ (.head q :: (front.map .item ++ back.map .item) :
      List (Node Q ι)) := by
    rw [← List.map_append, hsplit]
    simpa using hnew
  obtain ⟨hring', hother⟩ := ring_addPrev hring hmem
  let m' : QueueMem Q ι κ := { m with
    links := addPrev (Links.after (back.map .item) (.head q)) (.item item) m.links
    cnt := Function.update m.cnt q (m.cnt q + 1) }
  have hpush : m.pushBack cmp q item = some (0, m') := by
    unfold QueueMem.pushBack
    dsimp only
    rw [hseek]
    rfl
  refine ⟨m', hpush, ⟨?_, ?_, h.valid.pushBack hnew⟩, rfl, fun q' hq => ?_,
    fun node hnode => hother node ?_⟩
  · have hitems : (root.pushBack f item).items = front ++ item :: back := rfl
    rw [hitems, List.map_append, List.map_cons]
    exact hring'
  · simp [m', ListQueue.pushBack, h.cnt_eq]
  · simp [m', Function.update_of_ne hq]
  · intro hin
    apply hnode
    have hperm : (.head q :: (front.map .item ++ .item item :: back.map .item) :
        List (Node Q ι)).Perm (nodes q (item :: root.items)) := by
      rw [nodes, List.map_cons, ← hsplit, List.map_append]
      exact List.perm_middle.cons _
    exact hperm.subset hin

/-- `del_item` removes a linked item, which points to itself then. -/
theorem delItem (h : m.Represents q root) {item : ι} (hmem : item ∈ root.items) :
    ∃ m', m.delItem q item = (0, m') ∧ m'.Represents q (root.delItem item) ∧ m'.Unlinked item ∧
      m'.key = m.key ∧ (∀ q' ≠ q, m'.cnt q' = m.cnt q') ∧
      ∀ node ∉ nodes q root.items, SameLinks m m' node := by
  obtain ⟨as, bs, hitems⟩ := List.append_of_mem hmem
  have hfront : item ∉ as := by
    have hnodup := h.valid.nodup
    rw [hitems] at hnodup
    exact fun hin => (List.nodup_append.mp hnodup).2.2 item hin item (by simp) rfl
  have herase : root.items.erase item = as ++ bs := by
    rw [hitems, List.erase_append_right _ hfront, List.erase_cons_head]
  have hring : m.links.Ring (.head q) (as.map .item ++ .item item :: bs.map .item) := by
    have := h.ring
    rwa [hitems, List.map_append, List.map_cons] at this
  have hne : m.links.next (.item item) ≠ .item item := by
    have hring' : m.links.Ring (.head q) ((as.map .item ++ [.item item]) ++ bs.map .item) := by
      simpa using hring
    have hlink := hring'.links.1
    rw [Links.before_concat] at hlink
    rw [hlink]
    cases bs with
    | nil => simp
    | cons b bs =>
      rw [List.map_cons, Links.after_cons]
      intro heq
      obtain rfl := Node.item.inj heq
      have hnodup := h.valid.nodup
      rw [hitems] at hnodup
      exact (List.nodup_cons.mp (List.nodup_append.mp hnodup).2.1).1 (by simp)
  obtain ⟨hring', hself⟩ := ring_delListItem hring
  let m' : QueueMem Q ι κ := { m with
    links := delListItem (.item item) m.links
    cnt := Function.update m.cnt q (m.cnt q - 1) }
  have hdel : m.delItem q item = (0, m') := by rw [QueueMem.delItem, if_pos hne]
  refine ⟨m', hdel, ⟨?_, ?_, h.valid.delItem⟩, hself, rfl, fun q' hq => ?_,
    fun node hnode => delListItem_other hring ?_⟩
  · rw [ListQueue.delItem, if_pos hmem, herase, List.map_append]
    exact hring'
  · simp [m', ListQueue.delItem, hmem, h.cnt_eq]
  · simp [m', Function.update_of_ne hq]
  · rwa [nodes, hitems, List.map_append, List.map_cons] at hnode

/-- `pop_head` deletes the first item. -/
theorem popHead (h : m.Represents q root) :
    (root.items = [] ∧ m.popHead q = some (none, m)) ∨
      ∃ i xs, root.items = i :: xs ∧ m.popHead q = some (some i, (m.delItem q i).2) := by
  unfold QueueMem.popHead
  rw [h.next_head]
  cases hitems : root.items with
  | nil => exact Or.inl ⟨rfl, by simp⟩
  | cons i xs =>
    refine Or.inr ⟨i, xs, rfl, ?_⟩
    obtain ⟨m', hdel, -⟩ := h.delItem (hitems ▸ List.mem_cons_self)
    have hne : m.links.next (.item i) ≠ .item i := by
      intro heq
      rw [QueueMem.delItem, if_neg (not_not.mpr heq)] at hdel
      simp at hdel
    rw [List.map_cons, Links.after_cons]
    simp [QueueMem.delItem, hne]

end Represents

/-- `del_item` of an unlinked item fails and changes nothing. -/
theorem Unlinked.delItem {m : QueueMem Q ι κ} {i : ι} (h : m.Unlinked i) (q : Q) :
    m.delItem q i = (-1, m) := by
  rw [QueueMem.delItem, if_neg (not_not.mpr h.1)]

end QueueMem

end OpenvasTool
