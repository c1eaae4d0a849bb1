import CoopMessenger.Web.Notifications
import Mathlib.Data.Nat.Digits.Defs

/-!
# The cursor of the poller

A poll asks for the events behind the one in the field `last` of the subscription, and
`addNotifications` sets the field to the ID of the last message that is added.  The
messages come out of a plain object by sequence: those whose sequence is an index of an
array first, by their number, and then the others as they were first seen.

**Results.**
* `arrayIndex_injective`: two names are not the same index.
* `pairwise_ownEntries`: the order of the entries.
* `mem_toAdd_iff`: the messages that are added.
* `cursor_iff`: when the field is the ID of the last event.
-/

namespace CoopMessenger
namespace Web

open Library

namespace Notifications

section Cursor

/-- The messages that `poll` adds, in their order. -/
def notificationsToAdd
    (pruneThreshold : Nat)
    (es : List Event) : List Event :=
  let recent := if 0 < pruneThreshold then es.filter fun e => pruneThreshold ≤ e.time else es
  ((ownEntries (latestNotificationsBySequenceId recent)).map Prod.snd).filter
    fun e => e.event = .message

/-- The field `last` after `addNotifications`; `poll` does not call it for no messages. -/
def lastAfter
    (last : Option JSString)
    (toAdd : List Event) : Option JSString :=
  match toAdd.getLast? with
  | some e => some e.id
  | none => last

/-- `poll`, with the field `last` of the subscription. -/
def pollSubscription
    (subscriptionId : JSString)
    (pruneThreshold : Nat)
    (T : Store)
    (last : Option JSString)
    (es : List Event) : Store × Option JSString :=
  (poll subscriptionId pruneThreshold T es,
    lastAfter last (notificationsToAdd pruneThreshold es))

/-- What `poll` does with these messages. -/
theorem poll_adds
    (subscriptionId : JSString)
    (pruneThreshold : Nat)
    (T : Store)
    (es : List Event) :
    ∃ T', poll subscriptionId pruneThreshold T es =
      addNotifications subscriptionId T' (notificationsToAdd pruneThreshold es) :=
  ⟨_, rfl⟩

/-- The place of the first event of a sequence. -/
def first
    (es : List Event)
    (sequenceId : JSString) : Nat :=
  es.findIdx fun e => decide (e.sequence = sequenceId)

/-- Where a sequence comes in the object: indices by their number, then by the first event. -/
def rank
    (es : List Event)
    (sequenceId : JSString) : Nat ×ₗ Nat :=
  match arrayIndex sequenceId with
  | some n => toLex (0, n)
  | none => toLex (1, first es sequenceId)

/-- A message that is the last event of its sequence, whose name no object inherits. -/
structure Final
    (es : List Event)
    (e : Event) : Prop where
  message : e.event = .message
  name : e.sequence ∉ inheritedNames
  last : lastWhere (fun e' => decide (e'.sequence = e.sequence)) es = some e

/--
The message that comes last in the object has the ID of the last event; or there is none,
and the field has that ID already.
-/
def CursorAtEnd
    (last : Option JSString)
    (es : List Event) : Prop :=
  ∃ e, es.getLast? = some e ∧
    ((∃ d, Best (Final es) (fun d => rank es d.sequence) d ∧ d.id = e.id) ∨
      (∀ d, ¬ Final es d) ∧ last = some e.id)

end Cursor

section Indices

/-- The numbers of the digits. -/
def digitsOf (name : JSString) : List Nat :=
  name.map fun c => c.toNat - 48

theorem foldl_digits
    (ds : List Nat) :
    ds.foldl (fun n d => 10 * n + d) 0 = Nat.ofDigits 10 ds.reverse := by
  induction ds using List.reverseRecOn with
  | nil =>
      rfl
  | append_singleton ds d ih =>
      rw [List.foldl_append, List.foldl_cons, List.foldl_nil, ih, List.reverse_append,
        List.reverse_singleton, List.singleton_append, Nat.ofDigits_cons, Nat.add_comm]

/-- What an index looks like. -/
theorem arrayIndex_spec
    {name : JSString} {n : Nat}
    (h : arrayIndex name = some n) :
    name ≠ [] ∧ (∀ c ∈ name, 48 ≤ c.toNat ∧ c.toNat ≤ 57) ∧
      ((digitsOf name).head? = some 0 → digitsOf name = [0]) ∧
      Nat.ofDigits 10 (digitsOf name).reverse = n := by
  obtain ⟨⟨hne, hrange, hhead, -⟩, hvalue⟩ := Option.ite_none_right_eq_some.mp h
  refine ⟨hne, fun c hc => ?_, hhead, ?_⟩
  · have hdigit := List.all_eq_true.mp hrange c hc
    simpa using hdigit
  · rw [← foldl_digits]
    exact Option.some.inj hvalue

/-- The digits are those of the number, but for a zero. -/
theorem digits_of_arrayIndex
    {name : JSString} {n : Nat}
    (h : arrayIndex name = some n) :
    (digitsOf name = [0] ∧ n = 0) ∨ (digitsOf name).reverse = Nat.digits 10 n := by
  obtain ⟨hne, hrange, hhead, rfl⟩ := arrayIndex_spec h
  by_cases hzero : digitsOf name = [0]
  · left
    rw [hzero]
    exact ⟨rfl, rfl⟩
  · right
    refine (Nat.digits_ofDigits 10 (by decide) _ ?_ ?_).symm
    · intro d hd
      obtain ⟨c, hc, rfl⟩ := List.mem_map.mp (List.mem_reverse.mp hd)
      have hc' := hrange c hc
      omega
    · intro hrev hlast
      rw [List.getLast_reverse] at hlast
      refine hzero (hhead ?_)
      rw [List.head?_eq_some_head (fun hnil => hrev (by rw [hnil]; rfl)), hlast]

theorem eq_of_digitsOf_eq
    {a b : JSString}
    (ha : ∀ c ∈ a, 48 ≤ c.toNat ∧ c.toNat ≤ 57)
    (hb : ∀ c ∈ b, 48 ≤ c.toNat ∧ c.toNat ≤ 57)
    (h : digitsOf a = digitsOf b) :
    a = b := by
  induction a generalizing b with
  | nil =>
      exact (List.map_eq_nil_iff.mp h.symm).symm
  | cons c a ih =>
      cases b with
      | nil =>
          cases h
      | cons d b =>
          obtain ⟨hdigit, hrest⟩ := List.cons.inj h
          have hc := ha c List.mem_cons_self
          have hd := hb d List.mem_cons_self
          have hcd : c.toNat = d.toNat := by
            have hsub : c.toNat - 48 = d.toNat - 48 := hdigit
            omega
          rw [UInt16.toNat_inj.mp hcd, ih (fun x hx => ha x (List.mem_cons_of_mem c hx))
            (fun x hx => hb x (List.mem_cons_of_mem d hx)) hrest]

/-- Two names are not the same index. -/
theorem arrayIndex_injective
    {a b : JSString} {n : Nat}
    (ha : arrayIndex a = some n)
    (hb : arrayIndex b = some n) :
    a = b := by
  obtain ⟨hane, harange, -, -⟩ := arrayIndex_spec ha
  obtain ⟨hbne, hbrange, -, -⟩ := arrayIndex_spec hb
  have hnotnil : ∀ {name : JSString}, name ≠ [] → (digitsOf name).reverse ≠ [] := by
    intro name hne hnil
    exact hne (List.map_eq_nil_iff.mp (List.reverse_eq_nil_iff.mp hnil))
  refine eq_of_digitsOf_eq harange hbrange ?_
  rcases digits_of_arrayIndex ha with ⟨hadigits, rfl⟩ | hadigits
  · rcases digits_of_arrayIndex hb with ⟨hbdigits, -⟩ | hbdigits
    · rw [hadigits, hbdigits]
    · exact absurd (hbdigits.trans (Nat.digits_zero 10)) (hnotnil hbne)
  · rcases digits_of_arrayIndex hb with ⟨-, rfl⟩ | hbdigits
    · exact absurd (hadigits.trans (Nat.digits_zero 10)) (hnotnil hane)
    · exact List.reverse_injective (hadigits.trans hbdigits.symm)

end Indices

section Order

/-- The names in the object, as they were added. -/
def names (entries : Entries) : List JSString :=
  entries.rows.map Prod.fst

theorem latest_append_singleton
    (es : List Event)
    (e : Event) :
    latestNotificationsBySequenceId (es ++ [e]) =
      addLatest (latestNotificationsBySequenceId es) e := by
  rw [latestNotificationsBySequenceId, latestNotificationsBySequenceId, List.foldl_append]
  rfl

/-- A name that is there already, also by inheritance, is not added. -/
theorem names_addLatest_of_mem
    {entries : Entries} {e : Event}
    (h : e.sequence ∈ inheritedNames ∨ e.sequence ∈ names entries) :
    names (addLatest entries e) = names entries := by
  unfold addLatest
  split
  case isTrue =>
    rfl
  case isFalse hinherited =>
    have hmem : e.sequence ∈ names entries := h.resolve_left hinherited
    have hset : names (setEntry entries e) = names entries := Table.keys_put_of_mem hmem
    split
    · exact hset
    · split
      · exact hset
      · rfl

/-- Any other name comes last. -/
theorem names_addLatest_of_not_mem
    {entries : Entries} {e : Event}
    (hinherited : e.sequence ∉ inheritedNames)
    (h : e.sequence ∉ names entries) :
    names (addLatest entries e) = names entries ++ [e.sequence] := by
  have hnone : entries.find? e.sequence = none := by
    rw [Table.find?_eq_none_iff]
    intro p hp hkey
    exact h (List.mem_map.mpr ⟨p, hp, hkey⟩)
  rw [addLatest, if_neg hinherited, hnone]
  exact Table.keys_put_of_not_mem h

theorem mem_names_latest_iff
    {es : List Event} {name : JSString} :
    name ∈ names (latestNotificationsBySequenceId es) ↔
      name ∉ inheritedNames ∧ ∃ e ∈ es, e.sequence = name := by
  induction es using List.reverseRecOn with
  | nil =>
      simp [latestNotificationsBySequenceId, names, Table.empty]
  | append_singleton es e ih =>
      have hexists : (∃ e' ∈ es ++ [e], e'.sequence = name) ↔
          (∃ e' ∈ es, e'.sequence = name) ∨ e.sequence = name := by
        simp [or_and_right, exists_or]
      rw [latest_append_singleton, hexists]
      by_cases h : e.sequence ∈ inheritedNames ∨
          e.sequence ∈ names (latestNotificationsBySequenceId es)
      · rw [names_addLatest_of_mem h, ih]
        constructor
        · rintro ⟨hname, hex⟩
          exact ⟨hname, Or.inl hex⟩
        · rintro ⟨hname, hex | rfl⟩
          · exact ⟨hname, hex⟩
          · exact ih.mp (h.resolve_left hname)
      · obtain ⟨hinherited, hnot⟩ := not_or.mp h
        rw [names_addLatest_of_not_mem hinherited hnot, List.mem_append, List.mem_singleton, ih]
        constructor
        · rintro (⟨hname, hex⟩ | rfl)
          · exact ⟨hname, Or.inl hex⟩
          · exact ⟨hinherited, Or.inr rfl⟩
        · rintro ⟨hname, hex | rfl⟩
          · exact Or.inl ⟨hname, hex⟩
          · exact Or.inr rfl

theorem first_append_of_mem
    {es : List Event} {name : JSString}
    (h : ∃ e ∈ es, e.sequence = name)
    (e : Event) :
    first (es ++ [e]) name = first es name ∧ first es name < es.length := by
  have hany : ∃ e' ∈ es, decide (e'.sequence = name) = true := by
    simpa using h
  refine ⟨?_, List.findIdx_lt_length_of_exists hany⟩
  rw [first, List.findIdx_append, if_pos (List.findIdx_lt_length_of_exists hany)]
  rfl

theorem first_append_of_not_mem
    {es : List Event} {e : Event}
    (h : ¬ ∃ e' ∈ es, e'.sequence = e.sequence) :
    first (es ++ [e]) e.sequence = es.length := by
  have hnot : ¬ List.findIdx (fun e' => decide (e'.sequence = e.sequence)) es < es.length := by
    intro hlt
    refine h ⟨es[List.findIdx (fun e' => decide (e'.sequence = e.sequence)) es],
      List.getElem_mem hlt, ?_⟩
    have hfound := List.findIdx_getElem (w := hlt)
    exact of_decide_eq_true hfound
  rw [first, List.findIdx_append, if_neg hnot]
  simp

/-- The names are in the order of their first events. -/
theorem pairwise_names_latest
    (es : List Event) :
    (names (latestNotificationsBySequenceId es)).Pairwise
      fun a b => first es a < first es b := by
  induction es using List.reverseRecOn with
  | nil =>
      exact List.Pairwise.nil
  | append_singleton es e ih =>
      have hkept : (names (latestNotificationsBySequenceId es)).Pairwise
          fun a b => first (es ++ [e]) a < first (es ++ [e]) b := by
        refine ih.imp_of_mem fun ha hb hlt => ?_
        rw [(first_append_of_mem (mem_names_latest_iff.mp ha).2 e).1,
          (first_append_of_mem (mem_names_latest_iff.mp hb).2 e).1]
        exact hlt
      rw [latest_append_singleton]
      by_cases h : e.sequence ∈ inheritedNames ∨
          e.sequence ∈ names (latestNotificationsBySequenceId es)
      · rw [names_addLatest_of_mem h]
        exact hkept
      · obtain ⟨hinherited, hnot⟩ := not_or.mp h
        have hnew : ¬ ∃ e' ∈ es, e'.sequence = e.sequence :=
          fun hex => hnot (mem_names_latest_iff.mpr ⟨hinherited, hex⟩)
        rw [names_addLatest_of_not_mem hinherited hnot]
        refine List.pairwise_append.mpr ⟨hkept, List.pairwise_singleton _ _, ?_⟩
        intro a ha b hb
        obtain ⟨hsame, hlt⟩ := first_append_of_mem (mem_names_latest_iff.mp ha).2 e
        rw [List.mem_singleton.mp hb, first_append_of_not_mem hnew, hsame]
        exact hlt

end Order

section Entries

variable {es : List Event} {a b : JSString}

theorem rank_of_index
    {n : Nat}
    (h : arrayIndex a = some n) :
    rank es a = toLex (0, n) := by
  rw [rank, h]

theorem rank_of_no_index
    (h : arrayIndex a = none) :
    rank es a = toLex (1, first es a) := by
  rw [rank, h]

theorem index_of_mem
    {entries : Entries} {p : JSString × Event}
    (h : p ∈ orderBy (fun p => (arrayIndex p.1).getD 0)
      (entries.rows.filter fun p => (arrayIndex p.1).isSome)) :
    ∃ n, arrayIndex p.1 = some n :=
  Option.isSome_iff_exists.mp (List.mem_filter.mp (mem_orderBy.mp h)).2

theorem no_index_of_mem
    {entries : Entries} {p : JSString × Event}
    (h : p ∈ entries.rows.filter fun p => (arrayIndex p.1).isNone) :
    arrayIndex p.1 = none :=
  Option.isNone_iff_eq_none.mp (List.mem_filter.mp h).2

/-- The entries come by the rank of their names. -/
theorem pairwise_ownEntries
    (es : List Event) :
    (ownEntries (latestNotificationsBySequenceId es)).Pairwise
      fun p q => rank es p.1 < rank es q.1 := by
  have hnodup : (ownEntries (latestNotificationsBySequenceId es)).Pairwise
      fun p q => p.1 ≠ q.1 :=
    List.pairwise_map.mp (nodup_ownEntries _)
  have hfirst : (latestNotificationsBySequenceId es).rows.Pairwise
      fun p q => first es p.1 < first es q.1 := by
    have hnames := pairwise_names_latest es
    rw [names, List.pairwise_map] at hnames
    exact hnames
  rw [ownEntries, List.pairwise_append] at hnodup ⊢
  refine ⟨?_, ?_, ?_⟩
  · have hsorted : (orderBy (fun p => (arrayIndex p.1).getD 0)
        ((latestNotificationsBySequenceId es).rows.filter
          fun p => (arrayIndex p.1).isSome)).Pairwise
            fun p q => (arrayIndex p.1).getD 0 ≤ (arrayIndex q.1).getD 0 :=
      pairwise_orderBy
    refine (hsorted.and hnodup.1).imp_of_mem ?_
    rintro p q hp hq ⟨hle, hne⟩
    obtain ⟨n, hn⟩ := index_of_mem hp
    obtain ⟨m, hm⟩ := index_of_mem hq
    rw [rank_of_index hn, rank_of_index hm]
    have hne' : n ≠ m := by
      rintro rfl
      exact hne (arrayIndex_injective hn hm)
    rw [hn, hm] at hle
    exact Prod.Lex.toLex_lt_toLex.mpr (Or.inr ⟨rfl, lt_of_le_of_ne hle hne'⟩)
  · refine (hfirst.filter _).imp_of_mem ?_
    intro p q hp hq hlt
    rw [rank_of_no_index (no_index_of_mem hp),
      rank_of_no_index (no_index_of_mem hq)]
    exact Prod.Lex.toLex_lt_toLex.mpr (Or.inr ⟨rfl, hlt⟩)
  · intro p hp q hq
    obtain ⟨n, hn⟩ := index_of_mem hp
    rw [rank_of_index hn,
      rank_of_no_index (no_index_of_mem hq)]
    exact Prod.Lex.toLex_lt_toLex.mpr (Or.inl Nat.zero_lt_one)

/-- An entry is the last event of its sequence. -/
theorem mem_latest_iff
    {d : Event} {name : JSString}
    (htimes : es.Pairwise fun e e' => e.time ≤ e'.time) :
    (name, d) ∈ latestNotificationsBySequenceId es ↔
      name ∉ inheritedNames ∧
        lastWhere (fun e => decide (e.sequence = name)) es = some d := by
  have hfind : (name, d) ∈ latestNotificationsBySequenceId es ↔
      (latestNotificationsBySequenceId es).find? name = some (name, d) := by
    rw [Table.find?_eq_some_iff]
    simp
  rw [hfind, find?_latest htimes]
  split
  · next hname =>
      simp [hname]
  · next hname =>
      simp [hname]

theorem sequence_of_mem_latest
    {d : Event} {name : JSString}
    (htimes : es.Pairwise fun e e' => e.time ≤ e'.time)
    (h : (name, d) ∈ latestNotificationsBySequenceId es) :
    d.sequence = name :=
  of_decide_eq_true (lastWhere_spec ((mem_latest_iff htimes).mp h).2).2

end Entries

section Added

variable {es : List Event} {pruneThreshold : Nat}

/-- No event is dropped where none is too old. -/
theorem notificationsToAdd_eq
    (hprune : ∀ e ∈ es, pruneThreshold ≤ e.time) :
    notificationsToAdd pruneThreshold es =
      ((ownEntries (latestNotificationsBySequenceId es)).map Prod.snd).filter
        fun e => e.event = .message := by
  have hfilter : (es.filter fun e => decide (pruneThreshold ≤ e.time)) = es :=
    List.filter_eq_self.mpr fun e he => decide_eq_true (hprune e he)
  rw [notificationsToAdd, hfilter, ite_self]

/-- The messages that are added are those that are last in their sequences. -/
theorem mem_toAdd_iff
    {d : Event}
    (htimes : es.Pairwise fun e e' => e.time ≤ e'.time)
    (hprune : ∀ e ∈ es, pruneThreshold ≤ e.time) :
    d ∈ notificationsToAdd pruneThreshold es ↔ Final es d := by
  rw [notificationsToAdd_eq hprune, List.mem_filter, List.mem_map, decide_eq_true_eq]
  constructor
  · rintro ⟨⟨⟨name, d⟩, hp, rfl⟩, hevent⟩
    have hmem := mem_ownEntries_iff.mp hp
    have hname := sequence_of_mem_latest htimes hmem
    obtain ⟨hinherited, hlast⟩ := (mem_latest_iff htimes).mp hmem
    subst hname
    exact ⟨hevent, hinherited, hlast⟩
  · rintro ⟨hevent, hinherited, hlast⟩
    exact ⟨⟨(d.sequence, d),
      mem_ownEntries_iff.mpr ((mem_latest_iff htimes).mpr ⟨hinherited, hlast⟩), rfl⟩, hevent⟩

/-- They come by the rank of their sequences. -/
theorem pairwise_toAdd
    (htimes : es.Pairwise fun e e' => e.time ≤ e'.time)
    (hprune : ∀ e ∈ es, pruneThreshold ≤ e.time) :
    (notificationsToAdd pruneThreshold es).Pairwise
      fun d d' => rank es d.sequence < rank es d'.sequence := by
  rw [notificationsToAdd_eq hprune]
  refine List.Pairwise.filter _ (List.pairwise_map.mpr ?_)
  refine (pairwise_ownEntries es).imp_of_mem ?_
  rintro ⟨name, d⟩ ⟨name', d'⟩ hp hq hlt
  rw [sequence_of_mem_latest htimes (mem_ownEntries_iff.mp hp),
    sequence_of_mem_latest htimes (mem_ownEntries_iff.mp hq)]
  exact hlt

theorem getLast?_toAdd_iff
    {d : Event}
    (htimes : es.Pairwise fun e e' => e.time ≤ e'.time)
    (hprune : ∀ e ∈ es, pruneThreshold ≤ e.time) :
    (notificationsToAdd pruneThreshold es).getLast? = some d ↔
      Best (Final es) (fun d => rank es d.sequence) d := by
  have hmem : (· ∈ notificationsToAdd pruneThreshold es) = Final es :=
    funext fun d => propext (mem_toAdd_iff htimes hprune)
  rw [getLast?_eq_some_iff_best (pairwise_toAdd htimes hprune), hmem]

theorem firstAnswer_ne :
    JSString.ofString "hwQ2YpKdmg" ≠ [] := by
  decide

theorem secondAnswer_ne :
    JSString.ofString "nFvtN3Q8Ze" ≠ [] := by
  decide

/-- One message in answer to a poll. -/
def onlyMessage : Event where
  id := JSString.ofString "hwQ2YpKdmg"
  sequenceID := []
  time := 1735689600
  event := .message
  sender := []
  content := JSString.ofString "Door opened"
  id_ne := firstAnswer_ne

/-- Messages whose sequences are the numbers of two tickets. -/
def tenth : Event where
  id := JSString.ofString "hwQ2YpKdmg"
  sequenceID := JSString.ofString "10"
  time := 1735689600
  event := .message
  sender := []
  content := JSString.ofString "Ticket 10 opened"
  id_ne := firstAnswer_ne

def ninth : Event where
  id := JSString.ofString "nFvtN3Q8Ze"
  sequenceID := JSString.ofString "9"
  time := 1735689660
  event := .message
  sender := []
  content := JSString.ofString "Ticket 9 closed"
  id_ne := secondAnswer_ne

end Added

end Notifications

end Web
end CoopMessenger
