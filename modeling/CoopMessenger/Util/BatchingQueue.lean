import Mathlib.Data.List.Basic
import Mathlib.Data.List.Perm.Basic

/-!
# The batching queue

`BatchingQueue` of `util/batching_queue.go`.  Elements are collected until the
batch size is reached or the ticker fires; a batch that has been cut waits until
the consumer takes it, and batches that wait may be taken in any order.

**Results.**
* `contents_enqueue`, `contents_tick`: nothing is lost on the way to a batch.
* `perm_dequeue`: the consumer gets what was added, and nothing else.
-/

namespace CoopMessenger
namespace Util

universe u

/-- The elements collected, and the batches on their way to the consumer. -/
structure BatchingQueue (α : Type u) where
  batchSize : Nat
  input : List α
  out : List (List α)
deriving Repr

namespace BatchingQueue

variable {α : Type u}

/-- Creates a new queue. -/
def new (batchSize : Nat) : BatchingQueue α where
  batchSize
  input := []
  out := []

/-- Cut a batch from all the elements collected. -/
def dequeueAll
    (q : BatchingQueue α) : BatchingQueue α :=
  { q with input := [], out := q.out ++ [q.input] }

/-- Adds an element; a full batch is cut at once. -/
def enqueue
    (q : BatchingQueue α)
    (x : α) : BatchingQueue α :=
  if (q.input ++ [x]).length = q.batchSize then
    dequeueAll { q with input := q.input ++ [x] }
  else
    { q with input := q.input ++ [x] }

/-- The ticker cuts a batch unless there is nothing to put in. -/
def tick
    (q : BatchingQueue α) : BatchingQueue α :=
  if q.input.length > 0 then
    q.dequeueAll
  else
    q

/-- The consumer takes a batch. -/
def dequeue
    (q : BatchingQueue α)
    (k : Nat) : Option (List α × BatchingQueue α) :=
  (q.out[k]?).map (fun batch => (batch, { q with out := q.out.eraseIdx k }))

/-- All elements that the consumer has not taken yet. -/
def contents
    (q : BatchingQueue α) : List α :=
  q.out.flatten ++ q.input

@[simp] theorem contents_dequeueAll
    (q : BatchingQueue α) :
    q.dequeueAll.contents = q.contents := by
  simp [contents, dequeueAll]

@[simp] theorem contents_enqueue
    (q : BatchingQueue α) (x : α) :
    (q.enqueue x).contents = q.contents ++ [x] := by
  unfold enqueue
  split
  · rw [contents_dequeueAll]
    simp [contents]
  · simp [contents]

@[simp] theorem contents_tick
    (q : BatchingQueue α) :
    q.tick.contents = q.contents := by
  unfold tick
  split
  · exact contents_dequeueAll q
  · rfl

/-- What the consumer takes was in the queue, and so is what it leaves. -/
theorem mem_contents_of_dequeue
    {q q' : BatchingQueue α} {batch : List α} {k : Nat} {x : α}
    (h : q.dequeue k = some (batch, q'))
    (hx : x ∈ batch ∨ x ∈ q'.contents) :
    x ∈ q.contents := by
  obtain ⟨b, hb, heq⟩ := Option.map_eq_some_iff.mp h
  cases heq
  simp only [contents, List.mem_append, List.mem_flatten] at hx ⊢
  rcases hx with hbatch | ⟨c, hc, hxc⟩ | hinput
  · exact Or.inl ⟨batch, List.mem_of_getElem? hb, hbatch⟩
  · exact Or.inl ⟨c, List.mem_of_mem_eraseIdx hc, hxc⟩
  · exact Or.inr hinput

theorem flatten_eraseIdx_sublist
    (xs : List (List α)) (k : Nat) :
    (xs.eraseIdx k).flatten.Sublist xs.flatten := by
  induction xs generalizing k with
  | nil =>
      exact List.Sublist.refl _
  | cons x xs ih =>
      cases k with
      | zero =>
          exact List.sublist_append_right _ _
      | succ k =>
          exact (ih k).append_left x

/-- A batch leaves the queue. -/
theorem perm_dequeue
    {q q' : BatchingQueue α} {batch : List α} {k : Nat}
    (h : q.dequeue k = some (batch, q')) :
    (batch ++ q'.contents).Perm q.contents ∧
      q'.contents.Sublist q.contents := by
  obtain ⟨b, hb, heq⟩ := Option.map_eq_some_iff.mp h
  obtain ⟨rfl, rfl⟩ := Prod.mk.inj heq
  obtain ⟨hk, hget⟩ := List.getElem?_eq_some_iff.mp hb
  simp only [contents]
  refine ⟨?_, ?_⟩
  · rw [← List.append_assoc]
    refine List.Perm.append_right _ ?_
    rw [← List.flatten_cons, ← hget]
    exact (List.getElem_cons_eraseIdx_perm hk).flatten
  · exact (flatten_eraseIdx_sublist _ _).append_right _

end BatchingQueue

end Util
end CoopMessenger
