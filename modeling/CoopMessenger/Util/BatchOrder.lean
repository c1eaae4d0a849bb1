import CoopMessenger.Library.Runs
import CoopMessenger.Util.BatchingQueue
import Mathlib.Data.List.Pairwise
import Mathlib.Data.List.Range
import Mathlib.Data.List.Nodup

/-!
# The order of batches

The batching queue with its parties: any number of callers of `Enqueue`, the ticker, and
the consumer.  A batch is cut under the lock, and sent after the lock has been released,
so batches that wait to be sent are received in any order.

**Results.**
* `Inv.step`: each element is on its way, or has been received, once.
* `inOrder_receive_iff`, `tickDone_receive_iff`, `tickDone_tick_iff`: what one step may do
  to the order and to the promise of a tick.
* `batches_in_order_iff`: the same along every interleaving.
-/

namespace CoopMessenger
namespace Util

open Library

namespace BatchOrder

universe u

variable {α : Type u}

section Model

/-- Elements are numbered as they are enqueued; the ticker sends one batch at a time. -/
structure State (α : Type u) where
  queue : BatchingQueue (Nat × α)
  enqueued : List α
  received : List (List (Nat × α))
  /-- The last element of the batch that the ticker waits to send. -/
  sending : Option Nat
  /-- How many elements had been enqueued when the last tick began that has completed. -/
  ticked : Nat

def initial (batchSize : Nat) : State α where
  queue := .new batchSize
  enqueued := []
  received := []
  sending := none
  ticked := 0

inductive Label (α : Type u)
  | enqueue (x : α)
  | tick
  | receive (k : Nat)

/-- The number of the last element. -/
def last (batch : List (Nat × α)) : Option Nat :=
  batch.getLast?.map Prod.fst

/-- A batch is received, and the goroutine that has sent it goes on. -/
def State.receive
    (s : State α)
    (batch : List (Nat × α))
    (queue : BatchingQueue (Nat × α)) : State α :=
  if s.sending = last batch then
    { s with
      queue := queue
      received := s.received ++ [batch]
      sending := none
      ticked := (last batch).elim 0 (· + 1) }
  else
    { s with queue := queue, received := s.received ++ [batch] }

/-- A tick that finds nothing has completed at once. -/
def step (s : State α) : Label α → Option (State α)
  | .enqueue x =>
      some { s with
        queue := s.queue.enqueue (s.enqueued.length, x)
        enqueued := s.enqueued ++ [x] }
  | .tick =>
      if s.sending ≠ none then
        none
      else if s.queue.input = [] then
        some { s with ticked := s.enqueued.length }
      else
        some { s with queue := s.queue.tick, sending := last s.queue.input }
  | .receive k =>
      (s.queue.dequeue k).map fun taken => s.receive taken.1 taken.2

/-- The concatenation of what the consumer receives is in the order of the calls. -/
def InOrder (s : State α) : Prop :=
  (s.received.flatten.map Prod.fst).Pairwise (· < ·)

/-- Whatever had been enqueued before the last complete tick has been received. -/
def TickDone (s : State α) : Prop :=
  ∀ n < s.ticked, n ∈ s.received.flatten.map Prod.fst

/-- One batch has been cut before the other. -/
def Before (c b : List (Nat × α)) : Prop :=
  ∀ i ∈ c, ∀ j ∈ b, i.1 < j.1

/--
No batch is received after one that was cut later, and a tick does not complete while a
batch waits that was cut before.
-/
def NotOvertaken (s : State α) : Label α → Prop
  | .enqueue _ => True
  | .tick => s.sending = none → s.queue.input = [] → s.queue.out = []
  | .receive k =>
      ∀ b, s.queue.out[k]? = some b →
        (∀ c ∈ s.received, ¬Before b c) ∧ (s.sending = last b → k = 0)

end Model

section Invariant

/-- What holds in every state, whatever the order. -/
structure Inv (s : State α) : Prop where
  numbers : ((s.received.flatten ++ s.queue.contents).map Prod.fst).Perm
    (List.range s.enqueued.length)
  values : ∀ e ∈ s.received.flatten ++ s.queue.contents, s.enqueued[e.1]? = some e.2
  ordered : (s.queue.contents.map Prod.fst).Pairwise (· < ·)
  whole : ∀ c ∈ s.received, ∀ b ∈ s.queue.out, Before c b ∨ Before b c
  collected : ∀ c ∈ s.received, Before c s.queue.input
  nonempty : ∀ b, b ∈ s.received ∨ b ∈ s.queue.out → b ≠ []
  ticked : s.ticked ≤ s.enqueued.length

theorem inv_initial
    (batchSize : Nat) :
    Inv (initial batchSize : State α) := by
  constructor <;> simp [initial, BatchingQueue.new, BatchingQueue.contents]

variable {s s' : State α}

theorem Inv.lt_length
    (h : Inv s)
    {e : Nat × α}
    (he : e ∈ s.received.flatten ++ s.queue.contents) :
    e.1 < s.enqueued.length :=
  List.mem_range.mp (h.numbers.mem_iff.mp (List.mem_map_of_mem he))

theorem Inv.mem_of_lt
    (h : Inv s)
    {n : Nat}
    (hn : n < s.enqueued.length) :
    n ∈ s.received.flatten.map Prod.fst ∨ n ∈ s.queue.contents.map Prod.fst := by
  have hmem := h.numbers.mem_iff.mpr (List.mem_range.mpr hn)
  rwa [List.map_append, List.mem_append] at hmem

/-- No element is received and yet on its way. -/
theorem Inv.disjoint
    (h : Inv s)
    {n : Nat}
    (hreceived : n ∈ s.received.flatten.map Prod.fst) :
    n ∉ s.queue.contents.map Prod.fst := by
  have hnodup := h.numbers.nodup_iff.mpr List.nodup_range
  rw [List.map_append, List.nodup_append] at hnodup
  exact fun hcontents => hnodup.2.2 n hreceived n hcontents rfl

/-- Batches wait in the order in which they were cut. -/
theorem Inv.pairwise_out
    (h : Inv s) :
    s.queue.out.Pairwise Before ∧ ∀ b ∈ s.queue.out, Before b s.queue.input := by
  have hordered := List.pairwise_map.mp h.ordered
  rw [BatchingQueue.contents, List.pairwise_append] at hordered
  refine ⟨(List.pairwise_flatten.mp hordered.1).2, fun b hb i hi j hj => ?_⟩
  exact hordered.2.2 i (List.mem_flatten.mpr ⟨b, hb, hi⟩) j hj

@[simp] theorem queue_receive
    (s : State α) (batch : List (Nat × α)) (queue : BatchingQueue (Nat × α)) :
    (s.receive batch queue).queue = queue := by
  rw [State.receive]
  split <;> rfl

@[simp] theorem received_receive
    (s : State α) (batch : List (Nat × α)) (queue : BatchingQueue (Nat × α)) :
    (s.receive batch queue).received = s.received ++ [batch] := by
  rw [State.receive]
  split <;> rfl

@[simp] theorem enqueued_receive
    (s : State α) (batch : List (Nat × α)) (queue : BatchingQueue (Nat × α)) :
    (s.receive batch queue).enqueued = s.enqueued := by
  rw [State.receive]
  split <;> rfl

theorem dequeue_eq_some_iff
    {q queue : BatchingQueue α} {batch : List α} {k : Nat} :
    q.dequeue k = some (batch, queue) ↔
      q.out[k]? = some batch ∧ queue = { q with out := q.out.eraseIdx k } := by
  rw [BatchingQueue.dequeue, Option.map_eq_some_iff]
  constructor
  · rintro ⟨b, hb, heq⟩
    obtain ⟨rfl, rfl⟩ := Prod.mk.inj heq
    exact ⟨hb, rfl⟩
  · rintro ⟨hb, rfl⟩
    exact ⟨batch, hb, rfl⟩

/-- An element stays among those collected, or completes a batch. -/
theorem enqueue_cases
    (q : BatchingQueue α)
    (x : α) :
    ((q.enqueue x).out = q.out ∧ (q.enqueue x).input = q.input ++ [x]) ∨
      ((q.enqueue x).out = q.out ++ [q.input ++ [x]] ∧ (q.enqueue x).input = []) := by
  rw [BatchingQueue.enqueue]
  split
  · exact Or.inr ⟨rfl, rfl⟩
  · exact Or.inl ⟨rfl, rfl⟩

theorem Inv.enqueue
    (h : Inv s)
    (x : α) :
    Inv { s with
      queue := s.queue.enqueue (s.enqueued.length, x)
      enqueued := s.enqueued ++ [x] } := by
  have hbelow : ∀ c ∈ s.received, Before c (s.queue.input ++ [(s.enqueued.length, x)]) := by
    intro c hc i hi j hj
    rcases List.mem_append.mp hj with hj | hj
    · exact h.collected c hc i hi j hj
    · rw [List.mem_singleton.mp hj]
      exact h.lt_length (List.mem_append_left _ (List.mem_flatten.mpr ⟨c, hc, hi⟩))
  constructor
  · simp only [BatchingQueue.contents_enqueue, List.length_append, List.length_singleton,
      List.range_succ]
    rw [← List.append_assoc, List.map_append]
    exact h.numbers.append_right _
  · simp only [BatchingQueue.contents_enqueue]
    rw [← List.append_assoc]
    intro e he
    rcases List.mem_append.mp he with he | he
    · rw [List.getElem?_append_left (h.lt_length he)]
      exact h.values e he
    · rw [List.mem_singleton.mp he]
      exact List.getElem?_concat_length
  · simp only [BatchingQueue.contents_enqueue]
    rw [List.map_append, List.pairwise_append]
    refine ⟨h.ordered, List.pairwise_singleton _ _, fun i hi j hj => ?_⟩
    obtain ⟨e, he, rfl⟩ := List.mem_map.mp hi
    rw [List.map_singleton, List.mem_singleton] at hj
    rw [hj]
    exact h.lt_length (List.mem_append_right _ he)
  · intro c hc b hb
    rcases enqueue_cases s.queue (s.enqueued.length, x) with ⟨hout, -⟩ | ⟨hout, -⟩
    · exact h.whole c hc b (hout ▸ hb)
    · rcases List.mem_append.mp (hout ▸ hb) with hb | hb
      · exact h.whole c hc b hb
      · rw [List.mem_singleton.mp hb]
        exact Or.inl (hbelow c hc)
  · intro c hc
    rcases enqueue_cases s.queue (s.enqueued.length, x) with ⟨-, hinput⟩ | ⟨-, hinput⟩
    · exact hinput ▸ hbelow c hc
    · simp only [hinput]
      exact fun i hi j hj => absurd hj List.not_mem_nil
  · intro b hb
    rcases hb with hb | hb
    · exact h.nonempty b (Or.inl hb)
    · rcases enqueue_cases s.queue (s.enqueued.length, x) with ⟨hout, -⟩ | ⟨hout, -⟩
      · exact h.nonempty b (Or.inr (hout ▸ hb))
      · rcases List.mem_append.mp (hout ▸ hb) with hb | hb
        · exact h.nonempty b (Or.inr hb)
        · rw [List.mem_singleton.mp hb]
          simp
  · simp only [List.length_append]
    exact Nat.le_add_right_of_le h.ticked

/-- The ticker cuts a batch, and waits to send it. -/
theorem Inv.tick
    (h : Inv s)
    (hinput : s.queue.input ≠ []) :
    Inv { s with queue := s.queue.tick, sending := last s.queue.input } := by
  have htick : s.queue.tick = s.queue.dequeueAll := by
    rw [BatchingQueue.tick, if_pos (List.length_pos_iff.mpr hinput)]
  constructor
  · simp only [BatchingQueue.contents_tick]
    exact h.numbers
  · simp only [BatchingQueue.contents_tick]
    exact h.values
  · simp only [BatchingQueue.contents_tick]
    exact h.ordered
  · simp only [htick, BatchingQueue.dequeueAll]
    intro c hc b hb
    rcases List.mem_append.mp hb with hb | hb
    · exact h.whole c hc b hb
    · rw [List.mem_singleton.mp hb]
      exact Or.inl (h.collected c hc)
  · simp only [htick, BatchingQueue.dequeueAll]
    exact fun c hc i hi j hj => absurd hj List.not_mem_nil
  · simp only [htick, BatchingQueue.dequeueAll]
    rintro b (hb | hb)
    · exact h.nonempty b (Or.inl hb)
    · rcases List.mem_append.mp hb with hb | hb
      · exact h.nonempty b (Or.inr hb)
      · rw [List.mem_singleton.mp hb]
        exact hinput
  · exact h.ticked

/-- Batches cut earlier and later than one that waits. -/
theorem Inv.split_out
    {k : Nat} {b : List (Nat × α)}
    (h : Inv s)
    (hb : s.queue.out[k]? = some b) :
    (∀ c ∈ s.queue.out.take k, Before c b) ∧ (∀ c ∈ s.queue.out.drop (k + 1), Before b c) ∧
      s.queue.out = s.queue.out.take k ++ b :: s.queue.out.drop (k + 1) := by
  obtain ⟨hk, hget⟩ := List.getElem?_eq_some_iff.mp hb
  have hsplit : s.queue.out = s.queue.out.take k ++ b :: s.queue.out.drop (k + 1) := by
    rw [← hget, ← List.drop_eq_getElem_cons hk, List.take_append_drop]
  have hpairwise := h.pairwise_out.1
  rw [hsplit, List.pairwise_append, List.pairwise_cons] at hpairwise
  exact ⟨fun c hc => hpairwise.2.2 c hc b List.mem_cons_self, hpairwise.2.1.1, hsplit⟩

theorem Inv.receive
    {k : Nat} {b : List (Nat × α)} {queue : BatchingQueue (Nat × α)}
    (h : Inv s)
    (hb : s.queue.dequeue k = some (b, queue)) :
    Inv (s.receive b queue) := by
  obtain ⟨hperm, hsublist⟩ := BatchingQueue.perm_dequeue hb
  obtain ⟨hget, rfl⟩ := dequeue_eq_some_iff.mp hb
  obtain ⟨hearlier, hlater, -⟩ := h.split_out hget
  have hmem : b ∈ s.queue.out := List.mem_of_getElem? hget
  have hall : ((s.received ++ [b]).flatten ++
      BatchingQueue.contents { s.queue with out := s.queue.out.eraseIdx k }).Perm
        (s.received.flatten ++ s.queue.contents) := by
    rw [List.flatten_append, List.append_assoc, List.flatten_singleton]
    exact hperm.append_left _
  have hlast : ∀ n, last b = some n → n < s.enqueued.length := by
    intro n hn
    obtain ⟨e, he, rfl⟩ := Option.map_eq_some_iff.mp hn
    refine h.lt_length (List.mem_append_right _ (List.mem_append_left _ ?_))
    exact List.mem_flatten.mpr ⟨b, hmem, List.mem_of_getLast? he⟩
  constructor
  · rw [received_receive, queue_receive, enqueued_receive]
    exact (hall.map _).trans h.numbers
  · rw [received_receive, queue_receive, enqueued_receive]
    exact fun e he => h.values e (hall.mem_iff.mp he)
  · rw [queue_receive]
    exact h.ordered.sublist (hsublist.map _)
  · rw [received_receive, queue_receive]
    intro c hc d hd
    rw [List.eraseIdx_eq_take_drop_succ, List.mem_append] at hd
    rcases List.mem_append.mp hc with hc | hc
    · refine h.whole c hc d ?_
      rcases hd with hd | hd
      · exact List.mem_of_mem_take hd
      · exact List.mem_of_mem_drop hd
    · rw [List.mem_singleton.mp hc]
      rcases hd with hd | hd
      · exact Or.inr (hearlier d hd)
      · exact Or.inl (hlater d hd)
  · rw [received_receive, queue_receive]
    intro c hc
    rcases List.mem_append.mp hc with hc | hc
    · exact h.collected c hc
    · rw [List.mem_singleton.mp hc]
      exact h.pairwise_out.2 b hmem
  · rw [received_receive, queue_receive]
    rintro c (hc | hc)
    · rcases List.mem_append.mp hc with hc | hc
      · exact h.nonempty c (Or.inl hc)
      · rw [List.mem_singleton.mp hc]
        exact h.nonempty b (Or.inr hmem)
    · exact h.nonempty c (Or.inr (List.mem_of_mem_eraseIdx hc))
  · rw [enqueued_receive, State.receive]
    split
    · cases hb : last b with
      | none =>
          exact Nat.zero_le _
      | some n =>
          exact hlast n hb
    · exact h.ticked

/-- Each element is on its way, or has been received, once. -/
theorem Inv.step
    {l : Label α}
    (h : Inv s)
    (hstep : step s l = some s') :
    Inv s' := by
  cases l with
  | enqueue x =>
      rw [← Option.some.inj hstep]
      exact h.enqueue x
  | tick =>
      rw [BatchOrder.step] at hstep
      split at hstep
      · cases hstep
      · split at hstep
        · rw [← Option.some.inj hstep]
          exact { h with ticked := le_rfl }
        · next hinput =>
            rw [← Option.some.inj hstep]
            exact h.tick hinput
  | receive k =>
      obtain ⟨taken, htaken, rfl⟩ := Option.map_eq_some_iff.mp hstep
      exact h.receive htaken

end Invariant

section Order

variable {s s' : State α}
variable {k : Nat}
variable {b : List (Nat × α)}
variable {queue : BatchingQueue (Nat × α)}

theorem last_mem
    {m : Nat}
    (hm : last b = some m) :
    ∃ e ∈ b, e.1 = m := by
  obtain ⟨e, he, rfl⟩ := Option.map_eq_some_iff.mp hm
  exact ⟨e, List.mem_of_getLast? he, rfl⟩

/-- The order stays as it is unless a batch that was cut later has been received. -/
theorem inOrder_receive_iff
    (h : Inv s)
    (hs : InOrder s)
    (hget : s.queue.out[k]? = some b) :
    InOrder (s.receive b queue) ↔ ∀ c ∈ s.received, ¬Before b c := by
  have hmem : b ∈ s.queue.out := List.mem_of_getElem? hget
  obtain ⟨hb, -⟩ := List.pairwise_append.mp (List.pairwise_map.mp h.ordered)
  have hbatch : b.Pairwise fun i j => i.1 < j.1 := (List.pairwise_flatten.mp hb).1 b hmem
  have hreceived : s.received.flatten.Pairwise fun i j => i.1 < j.1 := List.pairwise_map.mp hs
  rw [InOrder, received_receive, List.flatten_append, List.flatten_singleton,
    List.pairwise_map, List.pairwise_append]
  constructor
  · rintro ⟨-, -, hall⟩ c hc hbefore
    obtain ⟨i, hi⟩ := List.exists_mem_of_ne_nil c (h.nonempty c (Or.inl hc))
    obtain ⟨j, hj⟩ := List.exists_mem_of_ne_nil b (h.nonempty b (Or.inr hmem))
    have hlt := hall i (List.mem_flatten.mpr ⟨c, hc, hi⟩) j hj
    have hgt := hbefore j hj i hi
    omega
  · intro hno
    refine ⟨hreceived, hbatch, fun i hi j hj => ?_⟩
    obtain ⟨c, hc, hic⟩ := List.mem_flatten.mp hi
    exact ((h.whole c hc b hmem).resolve_right (hno c hc)) i hic j hj

/-- A tick completes in order if its batch is the first of those that wait. -/
theorem tickDone_receive_iff
    (h : Inv s)
    (hs : TickDone s)
    (hb : s.queue.dequeue k = some (b, queue)) :
    TickDone (s.receive b queue) ↔ (s.sending = last b → k = 0) := by
  obtain ⟨hget, hqueue⟩ := dequeue_eq_some_iff.mp hb
  have hmem : b ∈ s.queue.out := List.mem_of_getElem? hget
  have hinv : Inv (s.receive b queue) := h.receive hb
  obtain ⟨hearlier, hlater, -⟩ := h.split_out hget
  by_cases hsending : s.sending = last b
  · rw [forall_prop_of_true hsending]
    obtain ⟨m, hm⟩ : ∃ m, last b = some m := by
      rw [last, List.getLast?_eq_some_getLast (h.nonempty b (Or.inr hmem))]
      exact ⟨_, rfl⟩
    obtain ⟨e, he, rfl⟩ := last_mem hm
    have hticked : (s.receive b queue).ticked = e.1 + 1 := by
      rw [State.receive, if_pos hsending, hm]
      rfl
    have hcontents : (s.receive b queue).queue.contents =
        (s.queue.out.take k ++ s.queue.out.drop (k + 1)).flatten ++ s.queue.input := by
      rw [queue_receive, hqueue, BatchingQueue.contents, List.eraseIdx_eq_take_drop_succ]
    constructor
    · intro hdone
      by_contra hk
      have hne : s.queue.out.take k ≠ [] := by
        rw [Ne, List.take_eq_nil_iff, not_or]
        exact ⟨hk, List.ne_nil_of_mem hmem⟩
      obtain ⟨c, hc⟩ := List.exists_mem_of_ne_nil _ hne
      obtain ⟨i, hi⟩ := List.exists_mem_of_ne_nil c
        (h.nonempty c (Or.inr (List.mem_of_mem_take hc)))
      have hlt := hearlier c hc i hi e he
      refine hinv.disjoint (hdone i.1 (by omega)) (List.mem_map_of_mem ?_)
      rw [hcontents]
      exact List.mem_append_left _ (List.mem_flatten.mpr ⟨c, List.mem_append_left _ hc, hi⟩)
    · rintro rfl n hn
      have hcount : e.1 < s.enqueued.length :=
        h.lt_length (List.mem_append_right _
          (List.mem_append_left _ (List.mem_flatten.mpr ⟨b, hmem, he⟩)))
      have hlength : n < (s.receive b queue).enqueued.length := by
        rw [enqueued_receive]
        omega
      refine (hinv.mem_of_lt hlength).resolve_right fun hleft => ?_
      obtain ⟨i, hi, rfl⟩ := List.mem_map.mp hleft
      rw [hcontents, List.take_zero, List.nil_append, List.mem_append] at hi
      rcases hi with hi | hi
      · obtain ⟨c, hc, hic⟩ := List.mem_flatten.mp hi
        have hlt := hlater c hc e he i hic
        omega
      · have hlt := h.pairwise_out.2 b hmem e he i hi
        omega
  · rw [forall_prop_of_false hsending, iff_true, State.receive, if_neg hsending]
    intro n hn
    simp only [List.flatten_append, List.map_append, List.mem_append]
    exact Or.inl (hs n hn)

/-- A tick that finds nothing has to find no batch that waits. -/
theorem tickDone_tick_iff
    (h : Inv s)
    (hinput : s.queue.input = []) :
    TickDone { s with ticked := s.enqueued.length } ↔ s.queue.out = [] := by
  constructor
  · intro hdone
    by_contra hne
    obtain ⟨c, hc⟩ := List.exists_mem_of_ne_nil _ hne
    obtain ⟨i, hi⟩ := List.exists_mem_of_ne_nil c (h.nonempty c (Or.inr hc))
    have hcontents : i ∈ s.queue.contents :=
      List.mem_append_left _ (List.mem_flatten.mpr ⟨c, hc, hi⟩)
    exact h.disjoint (hdone i.1 (h.lt_length (List.mem_append_right _ hcontents)))
      (List.mem_map_of_mem hcontents)
  · intro hout n hn
    refine (h.mem_of_lt hn).resolve_right ?_
    rw [BatchingQueue.contents, hout, hinput]
    exact List.not_mem_nil

theorem kept_step_iff
    {l : Label α}
    (h : Inv s)
    (horder : InOrder s)
    (hdone : TickDone s) :
    (∀ s', step s l = some s' → InOrder s' ∧ TickDone s') ↔ NotOvertaken s l := by
  cases l with
  | enqueue x =>
      refine iff_of_true (fun s' hstep => ?_) trivial
      rw [← Option.some.inj hstep]
      exact ⟨horder, hdone⟩
  | tick =>
      rw [NotOvertaken, step]
      by_cases hsending : s.sending = none
      · rw [if_neg (not_not.mpr hsending), forall_prop_of_true hsending]
        by_cases hinput : s.queue.input = []
        · rw [if_pos hinput, forall_prop_of_true hinput, ← tickDone_tick_iff h hinput]
          constructor
          · exact fun hall => (hall _ rfl).2
          · intro hticked s' hs'
            rw [← Option.some.inj hs']
            exact ⟨horder, hticked⟩
        · rw [if_neg hinput, forall_prop_of_false hinput]
          refine iff_of_true (fun s' hs' => ?_) trivial
          rw [← Option.some.inj hs']
          exact ⟨horder, hdone⟩
      · rw [if_pos hsending, forall_prop_of_false hsending]
        exact iff_of_true (fun s' hs' => nomatch hs') trivial
  | receive k =>
      rw [NotOvertaken]
      constructor
      · intro hall b hget
        have hb : s.queue.dequeue k =
            some (b, { s.queue with out := s.queue.out.eraseIdx k }) :=
          dequeue_eq_some_iff.mpr ⟨hget, rfl⟩
        obtain ⟨horder', hdone'⟩ := hall _ (Option.map_eq_some_iff.mpr ⟨_, hb, rfl⟩)
        exact ⟨(inOrder_receive_iff h horder hget).mp horder',
          (tickDone_receive_iff h hdone hb).mp hdone'⟩
      · intro hall s' hstep
        obtain ⟨⟨b, queue⟩, hb, rfl⟩ := Option.map_eq_some_iff.mp hstep
        obtain ⟨hno, hfirst⟩ := hall b (dequeue_eq_some_iff.mp hb).1
        exact ⟨(inOrder_receive_iff h horder (dequeue_eq_some_iff.mp hb).1).mpr hno,
          (tickDone_receive_iff h hdone hb).mpr hfirst⟩

end Order

section Claim

/--
Every element is received at most once; and the order and the promise of each tick are
kept along an interleaving just if no batch is overtaken.
-/
theorem batches_in_order_iff
    (batchSize : Nat)
    (ls : List (Label α)) :
    (∀ t, run step (initial batchSize) ls = some t →
      (t.received.flatten.map Prod.fst).Nodup ∧
        ∀ e ∈ t.received.flatten, t.enqueued[e.1]? = some e.2) ∧
    (Along step (fun s l => ∀ s', step s l = some s' → InOrder s' ∧ TickDone s')
        (initial batchSize) ls ↔
      Along step NotOvertaken (initial batchSize) ls) := by
  constructor
  · intro t hrun
    have hinv : Inv t :=
      run_invariant (fun _ _ _ h hstep => h.step hstep) (inv_initial batchSize) hrun
    have hnodup := hinv.numbers.nodup_iff.mpr List.nodup_range
    rw [List.map_append, List.nodup_append] at hnodup
    exact ⟨hnodup.1, fun e he => hinv.values e (List.mem_append_left _ he)⟩
  · have hstart : Inv (initial batchSize : State α) ∧ InOrder (initial batchSize : State α) ∧
        TickDone (initial batchSize : State α) :=
      ⟨inv_initial batchSize, List.Pairwise.nil, fun n hn => absurd hn (Nat.not_lt_zero n)⟩
    have hiff : ∀ (s : State α) (l : Label α), Inv s ∧ InOrder s ∧ TickDone s →
        ((∀ s', step s l = some s' → InOrder s' ∧ TickDone s') ↔ NotOvertaken s l) :=
      fun s l h => kept_step_iff h.1 h.2.1 h.2.2
    refine Along.congr_of_invariant hiff ?_ hstart
    exact fun s l s' h hkept hstep => ⟨h.1.step hstep, hkept s' hstep⟩

/-- Two batches of two, of which the second one is received first. -/
def overtaking : List (Label Nat) :=
  [.enqueue 10, .enqueue 11, .enqueue 12, .enqueue 13, .receive 1, .receive 0]

/-- The elements arrive out of order, and a tick completes before any has arrived. -/
theorem batch_overtaken :
    (∃ t, run step (initial 2) overtaking = some t ∧
      t.received.flatten.map Prod.snd = [12, 13, 10, 11] ∧ ¬InOrder t) ∧
    ∃ t : State Nat, run step (initial 2) [.enqueue 10, .enqueue 11, .tick] = some t ∧
      t.received = [] ∧ ¬TickDone t := by
  refine ⟨⟨_, rfl, rfl, fun h => ?_⟩, _, rfl, rfl, fun h => ?_⟩
  · revert h
    rw [InOrder]
    decide
  · exact absurd (h 0 (by decide)) List.not_mem_nil

end Claim

end BatchOrder

end Util
end CoopMessenger
