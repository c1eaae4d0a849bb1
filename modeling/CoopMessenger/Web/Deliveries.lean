import CoopMessenger.Web.Notifications

/-!
# Three deliveries of the same events

What the three ways leave of a sequence is decided by one event each: the connection goes
by the last event that is no clearing, the service worker by the last message or deletion,
and the poller by the last event of all, of which it ignores clearings and nudges.

**Results.**
* `handleNotification_run`, `handlePush_run`, `poll_spec`: what each way leaves.
* `deliveries_agree_iff`: for which events all three leave the same.
-/

namespace CoopMessenger
namespace Web

open Library

namespace Notifications

section Agreement

/-- Is the notification in the table, whatever its marker? -/
def Holds
    (T : Store)
    (subscriptionId sequenceId : JSString)
    (e : Event) : Prop :=
  ∃ n ∈ T, n.subscriptionId = subscriptionId ∧ n.sequenceId = sequenceId ∧ n.message = e

/-- The same notifications, whatever their markers. -/
def SameNotifications
    (T T' : Store) : Prop :=
  ∀ subscriptionId sequenceId e,
    Holds T subscriptionId sequenceId e ↔ Holds T' subscriptionId sequenceId e

/-- At most one notification of each sequence of a subscription. -/
def OneEach (T : Store) : Prop :=
  ∀ n ∈ T, ∀ n' ∈ T, n.slot = n'.slot → n = n'

/-- The three ways leave the same, with one notification of each sequence. -/
def DeliveriesAgree
    (subscriptionId username : JSString)
    (T : Store)
    (es : List Event) : Prop :=
  let live := es.foldl (handleNotification subscriptionId username) T
  let pushed := es.foldl (handlePush subscriptionId) T
  let polled := poll subscriptionId 0 T es
  SameNotifications live pushed ∧ SameNotifications live polled ∧
    OneEach live ∧ OneEach pushed ∧ OneEach polled

/-- Can the event become a notification? -/
def Event.adds (e : Event) : Prop :=
  e.event = .message ∨ e.event = .coopNudge

instance decidableAdds
    (e : Event) :
    Decidable e.adds :=
  inferInstanceAs (Decidable (e.event = .message ∨ e.event = .coopNudge))

/-- An ID stands for one sequence, in the table and among the events. -/
def IdsFaithful
    (subscriptionId : JSString)
    (T : Store)
    (es : List Event) : Prop :=
  ∀ e ∈ es, e.adds →
    (∀ n ∈ T, n.id = e.id → n.slot = (subscriptionId, e.sequence)) ∧
      ∀ e' ∈ es, e'.adds → e'.id = e.id → e'.sequence = e.sequence

/-- What happens to a sequence. -/
inductive Outcome where
  | kept
  | gone
  | holds (e : Event)
deriving DecidableEq

/-- What is left of a sequence, by what there was before. -/
def Outcome.result
    (before : Option Event) :
    Outcome → Option Event
  | .kept => before
  | .gone => none
  | .holds e => some e

/-- The last event that is no clearing decides. -/
def liveOutcome
    (sequenceId : JSString)
    (es : List Event) : Outcome :=
  match lastWhere (fun e => decide (e.sequence = sequenceId ∧
    ¬(e.event = .messageClear ∧ e.sequenceID ≠ []))) es with
  | none => .kept
  | some e => if e.adds then .holds e else .gone

/-- The last message or deletion decides. -/
def pushOutcome
    (sequenceId : JSString)
    (es : List Event) : Outcome :=
  match lastWhere (fun e => decide (e.sequence = sequenceId ∧
    (e.event = .message ∨ (e.event = .messageDelete ∧ e.sequenceID ≠ [])))) es with
  | none => .kept
  | some e => if e.event = .message then .holds e else .gone

/-- The last event decides, unless the sequence has an inherited name. -/
def pollOutcome
    (sequenceId : JSString)
    (es : List Event) : Outcome :=
  if sequenceId ∈ inheritedNames then
    .kept
  else
    match lastWhere (fun e => decide (e.sequence = sequenceId)) es with
    | none => .kept
    | some e =>
        match e.event with
        | .message => .holds e
        | .messageDelete => .gone
        | _ => .kept

/-- The notification of a sequence that is in the table. -/
def before
    (subscriptionId : JSString)
    (T : Store)
    (sequenceId : JSString) : Option Event :=
  (T.rows.find? fun n => n.slot = (subscriptionId, sequenceId)).map Notification.message

/--
The events that decide leave the same of the sequence, and a message that the poller adds
finds no other one there.
-/
def SequenceAgrees
    (subscriptionId : JSString)
    (T : Store)
    (es : List Event)
    (sequenceId : JSString) : Prop :=
  let old := before subscriptionId T sequenceId
  let left := (liveOutcome sequenceId es).result old
  (pushOutcome sequenceId es).result old = left ∧
    (pollOutcome sequenceId es).result old = left ∧
    ∀ e e', pollOutcome sequenceId es = .holds e → old = some e' → e'.id = e.id

end Agreement

section Contents

variable {T T' : Store}
variable {subscriptionId sequenceId σ s : JSString}
variable {e x : Event}

theorem holds_delete :
    Holds (deleteNotificationBySequenceId subscriptionId T sequenceId) σ s x
      ↔
    Holds T σ s x ∧ ¬(σ = subscriptionId ∧ s = sequenceId) := by
  unfold Holds deleteNotificationBySequenceId
  simp only [Table.mem_deleteSlot_iff]
  constructor
  · rintro ⟨n, ⟨hn, hslot⟩, rfl, rfl, rfl⟩
    exact ⟨⟨n, hn, rfl, rfl, rfl⟩, fun h => hslot (Prod.ext h.1 h.2)⟩
  · rintro ⟨⟨n, hn, rfl, rfl, rfl⟩, hslot⟩
    exact ⟨n, ⟨hn, fun h => hslot (Prod.mk.inj h)⟩, rfl, rfl, rfl⟩

theorem holds_markRead :
    Holds (markNotificationReadBySequenceId subscriptionId T sequenceId) σ s x
      ↔
    Holds T σ s x := by
  have hfields : ∀ n : Notification, ∀ t,
      (n.markRead t).subscriptionId = n.subscriptionId ∧
        (n.markRead t).sequenceId = n.sequenceId ∧ (n.markRead t).message = n.message := by
    intro n t
    unfold Notification.markRead
    split <;> exact ⟨rfl, rfl, rfl⟩
  unfold Holds markNotificationReadBySequenceId
  simp only [Table.mem_modify_iff]
  constructor
  · rintro ⟨_, ⟨n, hn, rfl⟩, hσ, hs, hx⟩
    obtain ⟨hσ', hs', hx'⟩ := hfields n (subscriptionId, sequenceId)
    exact ⟨n, hn, hσ'.symm.trans hσ, hs'.symm.trans hs, hx'.symm.trans hx⟩
  · rintro ⟨n, hn, rfl, rfl, rfl⟩
    exact ⟨_, ⟨n, hn, rfl⟩, hfields n (subscriptionId, sequenceId)⟩

/-- An insert under a free ID. -/
theorem holds_insert
    {new : Option Nat}
    (hfree : ∀ n ∈ T, n.id ≠ e.id) :
    Holds ((T.insert? (toNotification subscriptionId new e)).getD T) σ s x
      ↔
    (σ = subscriptionId ∧ s = e.sequence ∧ x = e) ∨ Holds T σ s x := by
  cases hinsert : T.insert? (toNotification subscriptionId new e) with
  | none =>
      obtain ⟨n, hn, hid⟩ := Table.insert?_eq_none_iff.mp hinsert
      exact absurd hid (hfree n hn)
  | some U =>
      unfold Holds
      simp only [Option.getD_some, Table.mem_insert?_iff hinsert]
      constructor
      · rintro ⟨n, hn | rfl, rfl, rfl, rfl⟩
        · exact Or.inr ⟨n, hn, rfl, rfl, rfl⟩
        · exact Or.inl ⟨rfl, rfl, rfl⟩
      · rintro (⟨rfl, rfl, rfl⟩ | ⟨n, hn, rfl, rfl, rfl⟩)
        · exact ⟨_, Or.inr rfl, rfl, rfl, rfl⟩
        · exact ⟨n, Or.inl hn, rfl, rfl, rfl⟩

end Contents

section Runs

variable {subscriptionId username : JSString}
variable {T T' T'' : Store}
variable {es : List Event}
variable {e : Event}

/-- The table after some events, by what happened to each sequence. -/
def Left
    (subscriptionId : JSString)
    (T : Store)
    (outcome : JSString → Outcome)
    (T' : Store) : Prop :=
  ∀ σ s x, Holds T' σ s x ↔
    if σ = subscriptionId then
      match outcome s with
      | .kept => Holds T σ s x
      | .gone => False
      | .holds e => x = e
    else
      Holds T σ s x

/-- One more event decides about its sequence. -/
theorem Left.decide
    {outcome outcome' : JSString → Outcome}
    (h : Left subscriptionId T outcome T')
    (e : Event)
    {o : Outcome}
    (ho : o ≠ .kept)
    (houtcome : ∀ s, outcome' s = if s = e.sequence then o else outcome s)
    (hstep : ∀ σ s x, Holds T'' σ s x ↔
      (σ = subscriptionId ∧ s = e.sequence ∧ o = .holds x) ∨
        (Holds T' σ s x ∧ ¬(σ = subscriptionId ∧ s = e.sequence))) :
    Left subscriptionId T outcome' T'' := by
  intro σ s x
  rw [hstep, h, houtcome]
  by_cases hσ : σ = subscriptionId
  · by_cases hs : s = e.sequence
    · cases o with
      | kept =>
          exact absurd rfl ho
      | gone =>
          simp [hσ, hs]
      | holds e' =>
          simp [hσ, hs, eq_comm]
    · simp [hσ, hs]
  · simp [hσ]

/-- An event that decides nothing. -/
theorem Left.pass
    {outcome outcome' : JSString → Outcome}
    (h : Left subscriptionId T outcome T')
    (houtcome : ∀ s, outcome' s = outcome s)
    (hstep : ∀ σ s x, Holds T'' σ s x ↔ Holds T' σ s x) :
    Left subscriptionId T outcome' T'' := by
  intro σ s x
  rw [hstep, h, houtcome]

/-- Outside of its slot, no notification has the ID of an event. -/
theorem Left.id_ne
    {outcome : JSString → Outcome}
    (h : Left subscriptionId T outcome T')
    (hids : IdsFaithful subscriptionId T (es ++ [e]))
    (hadds : e.adds)
    (hholds : ∀ s m, outcome s = .holds m → m ∈ es ∧ m.adds ∧ m.sequence = s)
    {n : Notification}
    (hn : n ∈ T')
    (hslot : n.slot ≠ (subscriptionId, e.sequence)) :
    n.id ≠ e.id := by
  intro hid
  obtain ⟨htable, hevents⟩ := hids e (by simp) hadds
  have hheld : Holds T' n.subscriptionId n.sequenceId n.message := ⟨n, hn, rfl, rfl, rfl⟩
  have hold : ¬Holds T n.subscriptionId n.sequenceId n.message := by
    rintro ⟨q, hq, hσ, hs, hmessage⟩
    refine hslot ?_
    rw [← htable q hq ((congrArg Event.id hmessage).trans hid)]
    exact Prod.ext hσ.symm hs.symm
  rw [h] at hheld
  split at hheld
  · next hσ =>
      split at hheld
      · exact hold hheld
      · exact hheld
      · next m hm =>
          obtain ⟨hmem, hmadds, hsequence⟩ := hholds _ m hm
          have hmid : m.id = e.id := hheld ▸ hid
          refine hslot (Prod.ext hσ ?_)
          exact hsequence.symm.trans (hevents m (List.mem_append_left _ hmem) hmadds hmid)
  · exact hold hheld

theorem IdsFaithful.init
    (hids : IdsFaithful subscriptionId T (es ++ [e])) :
    IdsFaithful subscriptionId T es := by
  intro m hm hadds
  obtain ⟨htable, hevents⟩ := hids m (List.mem_append_left _ hm) hadds
  exact ⟨htable, fun m' hm' => hevents m' (List.mem_append_left _ hm')⟩

theorem sequence_of_ne
    (h : e.sequenceID ≠ []) :
    e.sequence = e.sequenceID :=
  if_neg h

theorem left_nil
    {outcome : JSString → Outcome}
    (h : ∀ s, outcome s = .kept) :
    Left subscriptionId T outcome T := by
  intro σ s x
  rw [h]
  split <;> rfl

/-- The notification of an event under its free ID, after its slot was emptied. -/
theorem Left.insert
    {outcome outcome' : JSString → Outcome}
    (h : Left subscriptionId T outcome T')
    (new : Option Nat)
    (hids : IdsFaithful subscriptionId T (es ++ [e]))
    (hadds : e.adds)
    (hholds : ∀ s m, outcome s = .holds m → m ∈ es ∧ m.adds ∧ m.sequence = s)
    (houtcome : ∀ s, outcome' s = if s = e.sequence then .holds e else outcome s) :
    (∀ n ∈ deleteNotificationBySequenceId subscriptionId T' e.sequence, n.id ≠ e.id) ∧
      Left subscriptionId T outcome'
        (((deleteNotificationBySequenceId subscriptionId T' e.sequence).insert?
          (toNotification subscriptionId new e)).getD
            (deleteNotificationBySequenceId subscriptionId T' e.sequence)) := by
  have hfree : ∀ n ∈ deleteNotificationBySequenceId subscriptionId T' e.sequence,
      n.id ≠ e.id := by
    intro n hn
    obtain ⟨hn, hslot⟩ := Table.mem_deleteSlot_iff.mp hn
    exact h.id_ne hids hadds hholds hn hslot
  refine ⟨hfree, h.decide e (by simp) houtcome fun σ s x => ?_⟩
  rw [holds_insert hfree, holds_delete, Outcome.holds.injEq]
  tauto

theorem liveOutcome_append
    (s : JSString)
    (es : List Event)
    (e : Event) :
    liveOutcome s (es ++ [e]) =
      if s = e.sequence ∧ ¬(e.event = .messageClear ∧ e.sequenceID ≠ []) then
        if e.adds then .holds e else .gone
      else
        liveOutcome s es := by
  unfold liveOutcome
  rw [lastWhere_append_singleton]
  by_cases h : e.sequence = s ∧ ¬(e.event = .messageClear ∧ e.sequenceID ≠ [])
  · rw [if_pos (decide_eq_true h), if_pos ⟨h.1.symm, h.2⟩]
  · rw [if_neg (by simpa using h), if_neg fun h' => h ⟨h'.1.symm, h'.2⟩]

theorem liveOutcome_holds
    (s : JSString)
    (m : Event)
    (h : liveOutcome s es = .holds m) :
    m ∈ es ∧ m.adds ∧ m.sequence = s := by
  unfold liveOutcome at h
  split at h
  · cases h
  · next e' hlast =>
      split at h
      · next hadds =>
          cases h
          obtain ⟨hmem, hp⟩ := lastWhere_spec hlast
          exact ⟨hmem, hadds, (of_decide_eq_true hp).1⟩
      · cases h

/-- What the connection leaves. -/
theorem handleNotification_run
    (hids : IdsFaithful subscriptionId T es) :
    Left subscriptionId T (fun s => liveOutcome s es)
      (es.foldl (handleNotification subscriptionId username) T) := by
  induction es using List.reverseRecOn with
  | nil =>
      exact left_nil fun s => rfl
  | append_singleton es e ih =>
      have hleft := ih hids.init
      rw [List.foldl_append, List.foldl_cons, List.foldl_nil]
      generalize es.foldl (handleNotification subscriptionId username) T = T' at hleft
      unfold handleNotification
      split
      · next hdelete =>
          refine hleft.decide e (o := .gone) (by simp) (fun s => ?_) fun σ s x => ?_
          · simp [liveOutcome_append, Event.adds, hdelete.1]
          · rw [holds_delete, sequence_of_ne hdelete.2]
            simp
      · next hdelete =>
          split
          · next hclear =>
              exact hleft.pass (fun s => by simp [liveOutcome_append, hclear])
                fun σ s x => holds_markRead
          · next hclear =>
              by_cases hadds : e.adds
              · have houtcome : ∀ s, liveOutcome s (es ++ [e]) =
                    if s = e.sequence then .holds e else liveOutcome s es := by
                  intro s
                  rw [liveOutcome_append, if_pos hadds]
                  simp [hclear]
                have hnew := fun new => hleft.insert new hids hadds liveOutcome_holds houtcome
                have hfind : (deleteNotificationBySequenceId subscriptionId T'
                    e.sequence).find? e.id = none :=
                  Table.find?_eq_none_iff.mpr (hnew none).1
                have hevent : ¬(e.event = .messageDelete ∨ e.event = .messageClear) := by
                  rcases hadds with h | h <;> simp [h]
                unfold addNotification
                rw [if_neg (by simpa [hfind] using hevent)]
                exact (hnew _).2
              · refine hleft.decide e (o := .gone) (by simp) (fun s => ?_) fun σ s x => ?_
                · rw [liveOutcome_append, if_neg hadds]
                  simp [hclear]
                · have hevent : e.event = .messageDelete ∨ e.event = .messageClear := by
                    unfold Event.adds at hadds
                    cases h : e.event <;> simp_all
                  unfold addNotification
                  rw [if_pos (Or.inr hevent), holds_delete]
                  simp

theorem pushOutcome_append
    (s : JSString)
    (es : List Event)
    (e : Event) :
    pushOutcome s (es ++ [e]) =
      if s = e.sequence ∧
          (e.event = .message ∨ (e.event = .messageDelete ∧ e.sequenceID ≠ [])) then
        if e.event = .message then .holds e else .gone
      else
        pushOutcome s es := by
  unfold pushOutcome
  rw [lastWhere_append_singleton]
  by_cases h : e.sequence = s ∧
      (e.event = .message ∨ (e.event = .messageDelete ∧ e.sequenceID ≠ []))
  · rw [if_pos (decide_eq_true h), if_pos ⟨h.1.symm, h.2⟩]
  · rw [if_neg (by simpa using h), if_neg fun h' => h ⟨h'.1.symm, h'.2⟩]

theorem pushOutcome_holds
    (s : JSString)
    (m : Event)
    (h : pushOutcome s es = .holds m) :
    m ∈ es ∧ m.adds ∧ m.sequence = s := by
  unfold pushOutcome at h
  split at h
  · cases h
  · next e' hlast =>
      split at h
      · next hmessage =>
          cases h
          obtain ⟨hmem, hp⟩ := lastWhere_spec hlast
          exact ⟨hmem, Or.inl hmessage, (of_decide_eq_true hp).1⟩
      · cases h

/-- What the service worker leaves. -/
theorem handlePush_run
    (hids : IdsFaithful subscriptionId T es) :
    Left subscriptionId T (fun s => pushOutcome s es)
      (es.foldl (handlePush subscriptionId) T) := by
  induction es using List.reverseRecOn with
  | nil =>
      exact left_nil fun s => rfl
  | append_singleton es e ih =>
      have hleft := ih hids.init
      rw [List.foldl_append, List.foldl_cons, List.foldl_nil]
      generalize es.foldl (handlePush subscriptionId) T = T' at hleft
      unfold handlePush
      cases hevent : e.event with
      | message =>
          have houtcome : ∀ s, pushOutcome s (es ++ [e]) =
              if s = e.sequence then .holds e else pushOutcome s es := by
            intro s
            simp [pushOutcome_append, hevent]
          exact (hleft.insert _ hids (Or.inl hevent) pushOutcome_holds houtcome).2
      | messageDelete =>
          dsimp only [handlePushMessageDelete]
          split
          · next hsequence =>
              refine hleft.decide e (o := .gone) (by simp) (fun s => ?_) fun σ s x => ?_
              · simp [pushOutcome_append, hevent, hsequence]
              · rw [holds_delete, sequence_of_ne hsequence]
                simp
          · next hsequence =>
              exact hleft.pass (fun s => by simp [pushOutcome_append, hevent, hsequence])
                fun σ s x => Iff.rfl
      | messageClear =>
          dsimp only [handlePushMessageClear]
          have houtcome : ∀ s, pushOutcome s (es ++ [e]) = pushOutcome s es := by
            intro s
            simp [pushOutcome_append, hevent]
          split
          · exact hleft.pass houtcome fun σ s x => holds_markRead
          · exact hleft.pass houtcome fun σ s x => Iff.rfl
      | coopNudge =>
          exact hleft.pass (fun s => by simp [pushOutcome_append, hevent])
            fun σ s x => Iff.rfl

end Runs

section Polls

variable {subscriptionId : JSString}
variable {T : Store}
variable {es : List Event}

/-- The entries of the poller are the last events of the sequences. -/
theorem mem_entries_iff
    (htimes : es.Pairwise fun e e' => e.time ≤ e'.time)
    {s : JSString} {e : Event} :
    (s, e) ∈ ownEntries (latestNotificationsBySequenceId es)
      ↔
    s ∉ inheritedNames ∧ lastWhere (fun e => decide (e.sequence = s)) es = some e := by
  have hfind := find?_latest htimes s
  have hmem : (s, e) ∈ latestNotificationsBySequenceId es ↔
      (latestNotificationsBySequenceId es).find? s = some (s, e) := by
    simp [Table.find?_eq_some_iff]
  rw [mem_ownEntries_iff, hmem, hfind]
  split
  · next h =>
      simp [h]
  · next h =>
      simp [h]

theorem pollOutcome_eq_holds_iff
    {s : JSString} {e : Event} :
    pollOutcome s es = .holds e
      ↔
    s ∉ inheritedNames ∧ lastWhere (fun e => decide (e.sequence = s)) es = some e ∧
      e.event = .message := by
  unfold pollOutcome
  split
  · next h =>
      simp [h]
  · next h =>
      cases hlast : lastWhere (fun e => decide (e.sequence = s)) es with
      | none =>
          simp
      | some e' =>
          by_cases heq : e' = e
          · subst heq
            cases hevent : e'.event <;> simp [h, hevent]
          · cases hevent : e'.event <;> simp [h, hevent, heq]

theorem pollOutcome_eq_gone_iff
    {s : JSString} :
    pollOutcome s es = .gone
      ↔
    s ∉ inheritedNames ∧
      ∃ e, lastWhere (fun e => decide (e.sequence = s)) es = some e ∧
        e.event = .messageDelete := by
  unfold pollOutcome
  split
  · next h =>
      simp [h]
  · next h =>
      cases hlast : lastWhere (fun e => decide (e.sequence = s)) es with
      | none =>
          simp
      | some e' =>
          cases hevent : e'.event <;> simp [h, hevent]

/-- What the poller deletes, and what it adds. -/
theorem poll_eq
    (subscriptionId : JSString)
    (T : Store)
    (htimes : es.Pairwise fun e e' => e.time ≤ e'.time) :
    ∃ deleted : List JSString, ∃ added : List Event,
      poll subscriptionId 0 T es =
        addNotifications subscriptionId
          (deleted.foldl (deleteNotificationBySequenceId subscriptionId) T) added ∧
      (∀ s, s ∈ deleted ↔ pollOutcome s es = .gone) ∧
      (∀ e, e ∈ added ↔ pollOutcome e.sequence es = .holds e) ∧
      added.Nodup := by
  have hsequence : ∀ p ∈ ownEntries (latestNotificationsBySequenceId es),
      p.2.sequence = p.1 := by
    intro p hp
    have hlast := ((mem_entries_iff htimes).mp hp).2
    exact of_decide_eq_true (lastWhere_spec hlast).2
  refine ⟨_, _, rfl, fun s => ?_, fun e => ?_, ?_⟩
  · rw [pollOutcome_eq_gone_iff, List.mem_map]
    constructor
    · rintro ⟨⟨s, e⟩, hp, rfl⟩
      obtain ⟨hp, hevent⟩ := List.mem_filter.mp hp
      obtain ⟨hs, hlast⟩ := (mem_entries_iff htimes).mp hp
      exact ⟨hs, e, hlast, of_decide_eq_true hevent⟩
    · rintro ⟨hs, e, hlast, hevent⟩
      exact ⟨(s, e), List.mem_filter.mpr
        ⟨(mem_entries_iff htimes).mpr ⟨hs, hlast⟩, decide_eq_true hevent⟩, rfl⟩
  · rw [pollOutcome_eq_holds_iff, List.mem_filter, List.mem_map]
    constructor
    · rintro ⟨⟨p, hp, rfl⟩, hevent⟩
      obtain ⟨hs, hlast⟩ := (mem_entries_iff htimes).mp hp
      rw [hsequence p hp]
      exact ⟨hs, hlast, of_decide_eq_true hevent⟩
    · rintro ⟨hs, hlast, hevent⟩
      exact ⟨⟨(e.sequence, e), (mem_entries_iff htimes).mpr ⟨hs, hlast⟩, rfl⟩,
        decide_eq_true hevent⟩
  · refine List.Nodup.filter _ ?_
    refine List.Nodup.map_on (fun p hp q hq h => ?_) (nodup_ownEntries _).of_map
    exact Prod.ext ((hsequence p hp).symm.trans (h ▸ hsequence q hq)) h

theorem mem_foldl_delete_iff
    {deleted : List JSString} {n : Notification} :
    n ∈ deleted.foldl (deleteNotificationBySequenceId subscriptionId) T
      ↔
    n ∈ T ∧ ¬(n.subscriptionId = subscriptionId ∧ n.sequenceId ∈ deleted) := by
  have hfold : deleted.foldl (deleteNotificationBySequenceId subscriptionId) T =
      (deleted.map fun s => (subscriptionId, s)).foldl
        (Table.deleteSlot Notification.slot) T := by
    rw [List.foldl_map]
    rfl
  rw [hfold, Table.mem_foldl_deleteSlot_iff]
  refine and_congr_right fun _ => not_congr ?_
  simp [Notification.slot, and_comm, eq_comm]

/-- What the poller leaves; it does not delete what is there besides a new message. -/
theorem poll_spec
    (hids : IdsFaithful subscriptionId T es)
    (htimes : es.Pairwise fun e e' => e.time ≤ e'.time)
    (σ s : JSString)
    (x : Event) :
    Holds (poll subscriptionId 0 T es) σ s x ↔
      if σ = subscriptionId then
        pollOutcome s es = .holds x ∨
          (Holds T σ s x ∧ pollOutcome s es ≠ .gone ∧
            ∀ e, pollOutcome s es = .holds e → x.id ≠ e.id)
      else
        Holds T σ s x := by
  obtain ⟨deleted, added, hpoll, hdeleted, hadded, hnodup⟩ :=
    poll_eq subscriptionId T htimes
  have hmessage : ∀ {s e}, pollOutcome s es = .holds e →
      e ∈ es ∧ e.adds ∧ e.sequence = s := by
    intro s e h
    obtain ⟨-, hlast, hevent⟩ := pollOutcome_eq_holds_iff.mp h
    obtain ⟨hmem, hp⟩ := lastWhere_spec hlast
    exact ⟨hmem, Or.inl hevent, of_decide_eq_true hp⟩
  -- an ID stands for one sequence, so at most one of the new messages has it
  have hrows : ((added.map (toNotification subscriptionId none)).map Notification.id).Nodup := by
    rw [List.map_map]
    refine List.Nodup.map_on (fun e he e' he' hid => ?_) hnodup
    have houtcome := (hadded e).mp he
    have houtcome' := (hadded e').mp he'
    obtain ⟨hmem, hadds, -⟩ := hmessage houtcome
    obtain ⟨hmem', hadds', -⟩ := hmessage houtcome'
    rw [(hids e hmem hadds).2 e' hmem' hadds' hid.symm, houtcome] at houtcome'
    exact Outcome.holds.inj houtcome'
  have hput : ∀ n, n ∈ poll subscriptionId 0 T es ↔
      (∃ e, pollOutcome e.sequence es = .holds e ∧
        n = toNotification subscriptionId none e) ∨
      ((n ∈ T ∧ ¬(n.subscriptionId = subscriptionId ∧ pollOutcome n.sequenceId es = .gone)) ∧
        ∀ e, pollOutcome e.sequence es = .holds e → n.id ≠ e.id) := by
    intro n
    rw [hpoll, addNotifications, Table.mem_foldl_put_iff hrows, mem_foldl_delete_iff, hdeleted]
    refine or_congr ?_ (and_congr_right fun _ => ?_)
    · simp only [List.mem_map, hadded, eq_comm]
    · simp only [List.map_map, List.mem_map, hadded, not_exists, not_and]
      exact forall_congr' fun e => imp_congr_right fun _ => not_congr eq_comm
  have hslot : ∀ {n e}, n ∈ T → pollOutcome e.sequence es = .holds e → n.id = e.id →
      n.slot = (subscriptionId, e.sequence) := by
    intro n e hn houtcome hid
    obtain ⟨hmem, hadds, -⟩ := hmessage houtcome
    exact (hids e hmem hadds).1 n hn hid
  constructor
  · rintro ⟨n, hn, rfl, rfl, rfl⟩
    rcases (hput n).mp hn with ⟨e, houtcome, rfl⟩ | ⟨⟨hn, hgone⟩, hid⟩
    · have hσ : (toNotification subscriptionId none e).subscriptionId = subscriptionId := rfl
      rw [if_pos hσ]
      exact Or.inl houtcome
    · have hheld : Holds T n.subscriptionId n.sequenceId n.message := ⟨n, hn, rfl, rfl, rfl⟩
      split
      · next hσ =>
          refine Or.inr ⟨hheld, fun h => hgone ⟨hσ, h⟩, fun e houtcome => hid e ?_⟩
          rw [(hmessage houtcome).2.2, houtcome]
      · exact hheld
  · intro h
    split at h
    · next hσ =>
        rcases h with houtcome | ⟨⟨n, hn, rfl, rfl, rfl⟩, hgone, hid⟩
        · have hsequence := (hmessage houtcome).2.2
          refine ⟨toNotification subscriptionId none x, (hput _).mpr (Or.inl ⟨x, ?_, rfl⟩),
            hσ.symm, hsequence, rfl⟩
          rw [hsequence, houtcome]
        · refine ⟨n, (hput n).mpr (Or.inr ⟨⟨hn, fun h => hgone h.2⟩, ?_⟩), rfl, rfl, rfl⟩
          intro e houtcome heq
          have hsequence : n.sequenceId = e.sequence :=
            congrArg Prod.snd (hslot hn houtcome heq)
          exact hid e (by rw [hsequence, houtcome]) heq
    · next hσ =>
        obtain ⟨n, hn, rfl, rfl, rfl⟩ := h
        refine ⟨n, (hput n).mpr (Or.inr ⟨⟨hn, fun h => hσ h.1⟩, ?_⟩), rfl, rfl, rfl⟩
        intro e houtcome heq
        exact hσ (congrArg Prod.fst (hslot hn houtcome heq))

end Polls

section Deliveries

variable {subscriptionId username : JSString}
variable {T T' : Store}
variable {es : List Event}

/-- Notifications in one slot are the same if their messages are. -/
theorem oneEach_iff :
    OneEach T ↔ ∀ σ s x y, Holds T σ s x → Holds T σ s y → x = y := by
  constructor
  · rintro h σ s x y ⟨n, hn, rfl, rfl, rfl⟩ ⟨n', hn', hσ, hs, rfl⟩
    rw [h n hn n' hn' (Prod.ext hσ.symm hs.symm)]
  · intro h n hn n' hn' hslot
    obtain ⟨hσ, hs⟩ := Prod.mk.inj hslot
    have hmessage := h _ _ _ _ ⟨n, hn, rfl, rfl, rfl⟩ ⟨n', hn', hσ.symm, hs.symm, rfl⟩
    exact Table.eq_of_key_eq hn hn' (congrArg Event.id hmessage)

theorem holds_iff_before
    (hone : OneEach T)
    {s : JSString} {x : Event} :
    Holds T subscriptionId s x ↔ before subscriptionId T s = some x := by
  unfold before
  constructor
  · rintro ⟨n, hn, rfl, rfl, rfl⟩
    cases hfind : T.rows.find? fun q => q.slot = (n.subscriptionId, n.sequenceId) with
    | none =>
        exact absurd (decide_eq_true rfl) (List.find?_eq_none.mp hfind n hn)
    | some q =>
        have hslot := List.find?_some hfind
        have hq : q ∈ T := List.mem_of_find?_eq_some hfind
        rw [hone q hq n hn (of_decide_eq_true hslot)]
        rfl
  · intro h
    obtain ⟨n, hfind, rfl⟩ := Option.map_eq_some_iff.mp h
    have hslot := List.find?_some hfind
    obtain ⟨hσ, hs⟩ := Prod.mk.inj (of_decide_eq_true hslot)
    exact ⟨n, List.mem_of_find?_eq_some hfind, hσ, hs, rfl⟩

theorem Left.holds_iff
    {outcome : JSString → Outcome}
    (h : Left subscriptionId T outcome T')
    (hone : OneEach T)
    {s : JSString} {x : Event} :
    Holds T' subscriptionId s x
      ↔
    (outcome s).result (before subscriptionId T s) = some x := by
  rw [h, if_pos rfl]
  cases outcome s with
  | kept =>
      exact holds_iff_before hone
  | gone =>
      simp [Outcome.result]
  | holds e =>
      simp [Outcome.result, eq_comm]

theorem Left.oneEach
    {outcome : JSString → Outcome}
    (h : Left subscriptionId T outcome T')
    (hone : OneEach T) :
    OneEach T' := by
  refine oneEach_iff.mpr fun σ s x y hx hy => ?_
  by_cases hσ : σ = subscriptionId
  · subst hσ
    rw [h.holds_iff hone] at hx hy
    exact Option.some.inj (hx.symm.trans hy)
  · rw [h, if_neg hσ] at hx hy
    exact oneEach_iff.mp hone σ s x y hx hy

/-- The poller leaves the same as the connection. -/
theorem polled_same_iff
    {left old : Option Event} {o : Outcome} :
    (∀ x, left = some x ↔
      (o = .holds x ∨ (old = some x ∧ o ≠ .gone ∧ ∀ e, o = .holds e → x.id ≠ e.id)))
      ↔
    o.result old = left ∧ ∀ e e', o = .holds e → old = some e' → e'.id = e.id := by
  cases o with
  | kept =>
      simp only [reduceCtorEq, false_or, ne_eq, not_false_eq_true, false_implies,
        implies_true, and_true, Outcome.result]
      exact ⟨fun h => Option.ext fun x => (h x).symm, fun h x => by rw [h]⟩
  | gone =>
      simp only [reduceCtorEq, false_or, ne_eq, not_true_eq_false, and_false,
        iff_false, false_implies, implies_true, and_true, Outcome.result]
      exact ⟨fun h => (Option.eq_none_iff_forall_ne_some.mpr h).symm,
        fun h x => by simp [← h]⟩
  | holds e =>
      simp only [Outcome.holds.injEq, ne_eq, reduceCtorEq, not_false_eq_true, true_and,
        forall_eq', Outcome.result]
      constructor
      · intro h
        have hleft := (h e).mpr (Or.inl rfl)
        refine ⟨hleft.symm, ?_⟩
        rintro _ e' rfl hold
        by_contra hid
        rw [(h e').mpr (Or.inr ⟨hold, hid⟩), Option.some.injEq] at hleft
        exact hid (congrArg Event.id hleft)
      · rintro ⟨rfl, hold⟩ x
        rw [Option.some.injEq]
        exact ⟨Or.inl, fun h => h.resolve_right fun hx => hx.2 (hold e x rfl hx.1)⟩

/--
The three ways leave the same exactly if, in each sequence, the events that they go by do,
and nothing else is there where the poller adds a message.
-/
theorem deliveries_agree_iff
    (subscriptionId username : JSString)
    (T : Store)
    (es : List Event)
    (hone : OneEach T)
    (htimes : es.Pairwise fun e e' => e.time ≤ e'.time)
    (hids : IdsFaithful subscriptionId T es) :
    DeliveriesAgree subscriptionId username T es
      ↔
    ∀ s, SequenceAgrees subscriptionId T es s := by
  have hlive := @handleNotification_run subscriptionId username T es hids
  have hpushed := handlePush_run hids
  have hpolled := poll_spec hids htimes
  unfold DeliveriesAgree
  generalize es.foldl (handleNotification subscriptionId username) T = live at hlive ⊢
  generalize es.foldl (handlePush subscriptionId) T = pushed at hpushed ⊢
  generalize poll subscriptionId 0 T es = polled at hpolled ⊢
  dsimp only
  have hlivePushed : SameNotifications live pushed ↔
      ∀ s, (pushOutcome s es).result (before subscriptionId T s) =
        (liveOutcome s es).result (before subscriptionId T s) := by
    constructor
    · intro h s
      refine Option.ext fun x => ?_
      rw [← hpushed.holds_iff hone, ← hlive.holds_iff hone, h]
    · intro h σ s x
      by_cases hσ : σ = subscriptionId
      · subst hσ
        rw [hpushed.holds_iff hone, hlive.holds_iff hone, h]
      · rw [hlive, hpushed, if_neg hσ, if_neg hσ]
  have hlivePolled : SameNotifications live polled ↔
      ∀ s, (pollOutcome s es).result (before subscriptionId T s) =
          (liveOutcome s es).result (before subscriptionId T s) ∧
        ∀ e e', pollOutcome s es = .holds e → before subscriptionId T s = some e' →
          e'.id = e.id := by
    have hslot : ∀ s x, Holds polled subscriptionId s x ↔
        (pollOutcome s es = .holds x ∨
          (before subscriptionId T s = some x ∧ pollOutcome s es ≠ .gone ∧
            ∀ e, pollOutcome s es = .holds e → x.id ≠ e.id)) := by
      intro s x
      rw [hpolled, if_pos rfl, holds_iff_before hone]
    constructor
    · intro h s
      refine polled_same_iff.mp fun x => ?_
      rw [← hlive.holds_iff hone, h, hslot]
    · intro h σ s x
      by_cases hσ : σ = subscriptionId
      · subst hσ
        rw [hlive.holds_iff hone, hslot, polled_same_iff.mpr (h s)]
      · rw [hlive, hpolled, if_neg hσ, if_neg hσ]
  constructor
  · rintro ⟨hpush, hpoll, -⟩ s
    exact ⟨hlivePushed.mp hpush s, hlivePolled.mp hpoll s⟩
  · intro h
    have hpoll := hlivePolled.mpr fun s => (h s).2
    have hliveOne := hlive.oneEach hone
    refine ⟨hlivePushed.mpr fun s => (h s).1, hpoll, hliveOne, hpushed.oneEach hone, ?_⟩
    refine oneEach_iff.mpr fun σ s x y hx hy => ?_
    exact oneEach_iff.mp hliveOne σ s x y ((hpoll σ s x).mpr hx) ((hpoll σ s y).mpr hy)

/-- In a sequence without events nothing changes. -/
theorem sequenceAgrees_of_forall_ne
    {s : JSString}
    (h : ∀ e ∈ es, e.sequence ≠ s) :
    SequenceAgrees subscriptionId T es s := by
  have hno : ∀ q : Event → Prop, ∀ [DecidablePred q],
      lastWhere (fun e => decide (e.sequence = s ∧ q e)) es = none := by
    intro q _
    refine List.find?_eq_none.mpr fun e he hp => ?_
    exact h e (List.mem_reverse.mp he) (of_decide_eq_true hp).1
  have hlast : lastWhere (fun e => decide (e.sequence = s)) es = none :=
    List.find?_eq_none.mpr fun e he hp =>
      h e (List.mem_reverse.mp he) (of_decide_eq_true hp)
  have hlive : liveOutcome s es = .kept := by
    rw [liveOutcome, hno]
  have hpush : pushOutcome s es = .kept := by
    rw [pushOutcome, hno]
  have hpoll : pollOutcome s es = .kept := by
    rw [pollOutcome, hlast]
    exact ite_self _
  rw [SequenceAgrees, hlive, hpush, hpoll]
  exact ⟨rfl, rfl, fun e e' h => by cases h⟩

end Deliveries

section Events

theorem firstId_ne : JSString.ofString "hwQ2YpKdmg" ≠ [] := by decide

theorem secondId_ne : JSString.ofString "nFvtN3Q8Ze" ≠ [] := by decide

/-- A message on a running download. -/
def started : Event where
  id := JSString.ofString "hwQ2YpKdmg"
  sequenceID := JSString.ofString "download"
  time := 1735689600
  event := .message
  sender := []
  content := JSString.ofString "Download started"
  id_ne := firstId_ne

/-- Its update. -/
def finished : Event where
  id := JSString.ofString "nFvtN3Q8Ze"
  sequenceID := JSString.ofString "download"
  time := 1735689660
  event := .message
  sender := []
  content := JSString.ofString "Download finished"
  id_ne := secondId_ne

/-- The message was read. -/
def cleared : Event where
  id := JSString.ofString "nFvtN3Q8Ze"
  sequenceID := JSString.ofString "download"
  time := 1735689660
  event := .messageClear
  sender := []
  content := []
  id_ne := secondId_ne

def downloads : JSString :=
  JSString.ofString "https://ntfy.sh/downloads"

theorem update_agrees :
    OneEach (Table.empty : Store) ∧
      [started, finished].Pairwise (fun e e' => e.time ≤ e'.time) ∧
      IdsFaithful downloads Table.empty [started, finished] ∧
      DeliveriesAgree downloads [] Table.empty [started, finished] := by
  have hone : OneEach (Table.empty : Store) := by
    rintro n hn
    exact absurd hn (by simp)
  have htimes : [started, finished].Pairwise fun e e' => e.time ≤ e'.time := by
    decide
  have hids : IdsFaithful downloads Table.empty [started, finished] := by
    refine fun e he hadds => ⟨fun n hn => absurd hn (by simp), ?_⟩
    revert e
    decide
  refine ⟨hone, htimes, hids,
    (deliveries_agree_iff downloads [] Table.empty _ hone htimes hids).mpr fun s => ?_⟩
  have hsequences : started.sequence = finished.sequence := by
    decide
  by_cases hs : finished.sequence = s
  · subst hs
    have hlive : liveOutcome finished.sequence [started, finished] = .holds finished := by
      decide
    have hpush : pushOutcome finished.sequence [started, finished] = .holds finished := by
      decide
    have hpoll : pollOutcome finished.sequence [started, finished] = .holds finished := by
      decide
    rw [SequenceAgrees, hlive, hpush, hpoll]
    exact ⟨rfl, rfl, fun e e' _ h => by cases h⟩
  · refine sequenceAgrees_of_forall_ne fun e he => ?_
    rcases List.mem_pair.mp he with rfl | rfl
    · exact fun h => hs (hsequences.symm.trans h)
    · exact hs

/-- The poller drops a message that was read, while the others keep it. -/
theorem read_message_dropped :
    ¬DeliveriesAgree downloads [] Table.empty [started, cleared] := by
  rintro ⟨-, hsame, -⟩
  have hrow : (⟨downloads, started.sequence, started, some 0⟩ : Notification) ∈
      [started, cleared].foldl (handleNotification downloads []) Table.empty := by
    decide +kernel
  have hlive : Holds ([started, cleared].foldl (handleNotification downloads []) Table.empty)
      downloads started.sequence started :=
    ⟨_, hrow, rfl, rfl, rfl⟩
  have hpolled : (poll downloads 0 Table.empty [started, cleared]).rows = [] := by
    decide +kernel
  obtain ⟨n, hn, -⟩ := (hsame _ _ _).mp hlive
  rw [Table.mem_def, hpolled] at hn
  cases hn

end Events

end Notifications
end Web
end CoopMessenger
