import Mathlib.Data.List.Nodup
import Mathlib.Data.Nat.Notation

/-!
# Child processes

The children of a process as the operating system keeps them: a child is live
until it ends, and an ended child keeps its process id until its parent waits
for it. An id that is in use is never given to another child.
-/

namespace Support

/-- A child that has not been waited for, with what it was forked for. -/
structure Child (τ : Type*) where
  pid : ℕ
  owner : τ
  live : Bool
  deriving DecidableEq, Repr

/-- The children that have not been waited for; their process ids are positive and distinct. -/
structure Children (τ : Type*) where
  list : List (Child τ)
  nodup : (list.map Child.pid).Nodup
  pos : ∀ child ∈ list, 0 < child.pid

namespace Children

variable {τ : Type*} {c c' : Children τ} {pid : ℕ} {owner : τ}

/-- No children. -/
def empty : Children τ := ⟨[], List.nodup_nil, fun _ h => absurd h List.not_mem_nil⟩

/-- `fork` with the process id that the system offers; it fails without a usable id. -/
def fork (c : Children τ) (offer : Option ℕ) (owner : τ) : Option (ℕ × Children τ) :=
  match offer with
  | none => none
  | some pid =>
      if h : 0 < pid ∧ pid ∉ c.list.map Child.pid then
        some (pid, ⟨⟨pid, owner, true⟩ :: c.list, List.nodup_cons.mpr ⟨h.2, c.nodup⟩, by
          simpa [h.1] using c.pos⟩)
      else none

/-- Some child with this id is live. -/
def isLive (c : Children τ) (pid : ℕ) : Bool := c.list.any fun child => child.pid == pid && child.live

/-- A child ends. -/
def exit (c : Children τ) (pid : ℕ) : Children τ where
  list := c.list.map fun child => { child with live := child.live && child.pid != pid }
  nodup := by simpa [Function.comp_def] using c.nodup
  pos := by simpa using c.pos

/-- The parent has waited for this child. -/
def reap (c : Children τ) (pid : ℕ) : Children τ where
  list := c.list.filter fun child => child.pid != pid
  nodup := c.nodup.sublist (List.filter_sublist.map Child.pid)
  pos := fun child h => c.pos child (List.mem_of_mem_filter h)

/-- The process ids of the ended children. -/
def ended (c : Children τ) : List ℕ := (c.list.filter fun child => !child.live).map Child.pid

/-- `waitpid` for any child without blocking: an ended child, of which the system prefers one. -/
def waitpid (c : Children τ) (preferred : ℕ) : Option ℕ :=
  if preferred ∈ c.ended then some preferred else c.ended.head?

/-- The child with this id is live and was forked for this owner. -/
def Live (c : Children τ) (pid : ℕ) (owner : τ) : Prop := ⟨pid, owner, true⟩ ∈ c.list

/-- The child with this id ended and was not waited for. -/
def Ended (c : Children τ) (pid : ℕ) : Prop := ∃ owner, ⟨pid, owner, false⟩ ∈ c.list

/-- The child with this id was forked for this owner and not waited for. -/
def Owns (c : Children τ) (pid : ℕ) (owner : τ) : Prop := ∃ live, ⟨pid, owner, live⟩ ∈ c.list

instance [DecidableEq τ] : Decidable (c.Live pid owner) :=
  inferInstanceAs (Decidable (_ ∈ _))

theorem Live.owns (h : c.Live pid owner) : c.Owns pid owner := ⟨true, h⟩

theorem Owns.pos (h : c.Owns pid owner) : 0 < pid := by
  obtain ⟨live, hmem⟩ := h
  exact c.pos _ hmem

/-- A process id determines the child. -/
theorem eq_of_pid {a b : Child τ} (ha : a ∈ c.list) (hb : b ∈ c.list) (h : a.pid = b.pid) :
    a = b := List.inj_on_of_nodup_map c.nodup ha hb h

/-- A child has one owner. -/
theorem Owns.unique {owner' : τ} (h : c.Owns pid owner) (h' : c.Owns pid owner') :
    owner = owner' := by
  obtain ⟨live, hmem⟩ := h
  obtain ⟨live', hmem'⟩ := h'
  exact congrArg Child.owner (eq_of_pid hmem hmem' rfl)

@[simp] theorem not_owns_empty : ¬ (empty : Children τ).Owns pid owner := by
  rintro ⟨live, h⟩
  exact List.not_mem_nil h

@[simp] theorem not_ended_empty : ¬ (empty : Children τ).Ended pid := by
  rintro ⟨owner, h⟩
  exact List.not_mem_nil h

/-! ### What the operations do -/

section Fork

variable {offer : Option ℕ}

/-- A new child has an id that no other child has. -/
theorem fork_eq_some (h : c.fork offer owner = some (pid, c')) :
    0 < pid ∧ (∀ owner', ¬ c.Owns pid owner') ∧ c'.list = ⟨pid, owner, true⟩ :: c.list := by
  unfold fork at h
  split at h
  · simp at h
  · split at h
    · rename_i hfree
      simp only [Option.some.injEq, Prod.mk.injEq] at h
      obtain ⟨rfl, rfl⟩ := h
      refine ⟨hfree.1, ?_, rfl⟩
      rintro owner' ⟨live, hmem⟩
      exact hfree.2 (List.mem_map.mpr ⟨_, hmem, rfl⟩)
    · simp at h

theorem owns_fork (h : c.fork offer owner = some (pid, c')) {pid' : ℕ} {owner' : τ} :
    c'.Owns pid' owner' ↔ (pid' = pid ∧ owner' = owner) ∨ c.Owns pid' owner' := by
  obtain ⟨_, _, hlist⟩ := fork_eq_some h
  simp only [Owns, hlist, List.mem_cons, Child.mk.injEq]
  constructor
  · rintro ⟨live, ⟨rfl, rfl, _⟩ | hmem⟩
    · exact Or.inl ⟨rfl, rfl⟩
    · exact Or.inr ⟨live, hmem⟩
  · rintro (⟨rfl, rfl⟩ | ⟨live, hmem⟩)
    · exact ⟨true, Or.inl ⟨rfl, rfl, rfl⟩⟩
    · exact ⟨live, Or.inr hmem⟩

theorem live_fork (h : c.fork offer owner = some (pid, c')) {pid' : ℕ} {owner' : τ} :
    c'.Live pid' owner' ↔ (pid' = pid ∧ owner' = owner) ∨ c.Live pid' owner' := by
  obtain ⟨_, _, hlist⟩ := fork_eq_some h
  simp [Live, hlist]

theorem ended_fork (h : c.fork offer owner = some (pid, c')) {pid' : ℕ} :
    c'.Ended pid' ↔ c.Ended pid' := by
  obtain ⟨_, _, hlist⟩ := fork_eq_some h
  simp [Ended, hlist]

end Fork

theorem owns_exit {pid' : ℕ} : (c.exit pid).Owns pid' owner ↔ c.Owns pid' owner := by
  constructor
  · rintro ⟨live, hmem⟩
    obtain ⟨child, hchild, heq⟩ := List.mem_map.mp hmem
    obtain ⟨rfl, rfl, _⟩ := Child.mk.inj heq
    exact ⟨child.live, hchild⟩
  · rintro ⟨live, hmem⟩
    exact ⟨live && pid' != pid, List.mem_map.mpr ⟨_, hmem, rfl⟩⟩

theorem live_exit {pid' : ℕ} :
    (c.exit pid).Live pid' owner ↔ pid' ≠ pid ∧ c.Live pid' owner := by
  constructor
  · intro hmem
    obtain ⟨child, hchild, heq⟩ := List.mem_map.mp hmem
    obtain ⟨rfl, rfl, hlive⟩ := Child.mk.inj heq
    simp only [Bool.and_eq_true, bne_iff_ne, ne_eq] at hlive
    refine ⟨hlive.2, ?_⟩
    have hchild' : child = ⟨child.pid, child.owner, true⟩ := by rw [← hlive.1]
    rw [Live, ← hchild']
    exact hchild
  · rintro ⟨hne, hmem⟩
    exact List.mem_map.mpr ⟨_, hmem, by simp [hne]⟩

theorem owns_reap {pid' : ℕ} :
    (c.reap pid).Owns pid' owner ↔ pid' ≠ pid ∧ c.Owns pid' owner := by
  simp [Owns, reap, and_comm]

theorem live_reap {pid' : ℕ} :
    (c.reap pid).Live pid' owner ↔ pid' ≠ pid ∧ c.Live pid' owner := by
  simp [Live, reap, and_comm]

/-! ### Waiting -/

theorem mem_ended : pid ∈ c.ended ↔ c.Ended pid := by
  constructor
  · intro h
    obtain ⟨child, hchild, rfl⟩ := List.mem_map.mp h
    obtain ⟨hmem, hdead⟩ := List.mem_filter.mp hchild
    have hfalse : child.live = false := by simpa using hdead
    have hchild' : child = ⟨child.pid, child.owner, false⟩ := by rw [← hfalse]
    rw [hchild'] at hmem
    exact ⟨child.owner, hmem⟩
  · rintro ⟨owner, hmem⟩
    exact List.mem_map.mpr ⟨_, List.mem_filter.mpr ⟨hmem, rfl⟩, rfl⟩

theorem waitpid_eq_some {preferred : ℕ} (h : c.waitpid preferred = some pid) : c.Ended pid := by
  rw [← mem_ended]
  unfold waitpid at h
  split at h
  · rename_i hmem
    exact Option.some.inj h ▸ hmem
  · exact List.mem_of_mem_head? h

/-- Without a result no child has ended. -/
theorem waitpid_eq_none {preferred : ℕ} (h : c.waitpid preferred = none) : ¬ c.Ended pid := by
  rw [← mem_ended]
  unfold waitpid at h
  split at h
  · simp at h
  · simp [List.head?_eq_none_iff.mp h]

end Children

end Support
