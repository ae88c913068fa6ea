import Mathlib.Data.List.Perm.Basic
import Mathlib.Data.List.Perm.Subperm

/-!
# A lossy channel

A channel that hands out messages in the order in which they were sent, and may lose some of them.
The structure records the whole history and carries what holds of every history: nothing is handed
out of order, and every message that was sent is waiting, was handed out or was lost.
-/

namespace Support

variable {α : Type*}

theorem head_append_tail (l : List α) : l.head?.toList ++ l.tail = l := by
  cases l <;> rfl

/-- The messages that were sent, those that wait, those that were handed out and those that were
lost; each list has its oldest message first. -/
structure Delivery (α : Type*) where
  sent : List α
  waiting : List α
  taken : List α
  dropped : List α
  order : (taken ++ waiting).Sublist sent
  balance : (taken ++ waiting ++ dropped).Perm sent

namespace Delivery

/-- Nothing has been sent. -/
def empty : Delivery α := ⟨[], [], [], [], List.Sublist.refl [], List.Perm.refl []⟩

/-- A message enters behind the waiting ones. -/
def send (d : Delivery α) (a : α) : Delivery α where
  sent := d.sent ++ [a]
  waiting := d.waiting ++ [a]
  taken := d.taken
  dropped := d.dropped
  order := by
    rw [← List.append_assoc]
    exact d.order.append (List.Sublist.refl [a])
  balance := by
    have hmove : (d.taken ++ (d.waiting ++ [a]) ++ d.dropped).Perm
        (d.taken ++ d.waiting ++ d.dropped ++ [a]) := by
      simp only [List.append_assoc]
      exact ((List.perm_append_comm).append_left d.waiting).append_left d.taken
    exact hmove.trans (d.balance.append_right [a])

/-- The oldest waiting message is handed out. -/
def take (d : Delivery α) : Delivery α where
  sent := d.sent
  waiting := d.waiting.tail
  taken := d.taken ++ d.waiting.head?.toList
  dropped := d.dropped
  order := by
    rw [List.append_assoc, head_append_tail]
    exact d.order
  balance := by
    rw [List.append_assoc d.taken, head_append_tail]
    exact d.balance

/-- The oldest waiting message is lost. -/
def lose (d : Delivery α) : Delivery α where
  sent := d.sent
  waiting := d.waiting.tail
  taken := d.taken
  dropped := d.dropped ++ d.waiting.head?.toList
  order := ((List.tail_sublist d.waiting).append_left d.taken).trans d.order
  balance := by
    have hmove : (d.taken ++ d.waiting.tail ++ (d.dropped ++ d.waiting.head?.toList)).Perm
        (d.taken ++ d.waiting ++ d.dropped) := by
      conv_rhs => rw [← head_append_tail d.waiting]
      simp only [List.append_assoc]
      refine List.Perm.append_left d.taken ?_
      rw [← List.append_assoc]
      exact List.perm_append_comm
    exact hmove.trans d.balance

/-- All waiting messages are lost. -/
def clear (d : Delivery α) : Delivery α where
  sent := d.sent
  waiting := []
  taken := d.taken
  dropped := d.dropped ++ d.waiting
  order := by
    rw [List.append_nil]
    exact (List.sublist_append_left d.taken d.waiting).trans d.order
  balance := by
    rw [List.append_nil]
    refine List.Perm.trans ?_ d.balance
    rw [List.append_assoc]
    exact List.perm_append_comm.append_left d.taken

variable {d : Delivery α} {a : α}

@[simp] theorem sent_take : d.take.sent = d.sent := rfl
@[simp] theorem sent_lose : d.lose.sent = d.sent := rfl
@[simp] theorem sent_clear : d.clear.sent = d.sent := rfl
@[simp] theorem sent_send : (d.send a).sent = d.sent ++ [a] := rfl
@[simp] theorem taken_send : (d.send a).taken = d.taken := rfl
@[simp] theorem taken_lose : d.lose.taken = d.taken := rfl
@[simp] theorem taken_clear : d.clear.taken = d.taken := rfl
@[simp] theorem waiting_send : (d.send a).waiting = d.waiting ++ [a] := rfl
@[simp] theorem waiting_take : d.take.waiting = d.waiting.tail := rfl
@[simp] theorem waiting_lose : d.lose.waiting = d.waiting.tail := rfl
@[simp] theorem waiting_clear : d.clear.waiting = [] := rfl
@[simp] theorem dropped_send : (d.send a).dropped = d.dropped := rfl
@[simp] theorem dropped_take : d.take.dropped = d.dropped := rfl

/-- What is handed out is in the order in which it was sent. -/
theorem taken_sublist (d : Delivery α) : d.taken.Sublist d.sent :=
  (List.sublist_append_left d.taken d.waiting).trans d.order

theorem mem_sent_of_mem_waiting (h : a ∈ d.waiting) : a ∈ d.sent :=
  d.order.subset (List.mem_append_right d.taken h)

end Delivery

end Support
