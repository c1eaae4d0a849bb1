import CoopMessenger.Library.Runs
import CoopMessenger.Server.WebPushStore

/-!
# The limit on web push subscriptions

Calls of the store in any order.  The number of subscriptions of an address is compared
with the limit only for an endpoint that seems to be new, while an update may bring a known
one along.

**Results.**
* `Written.capped_iff`, `Written.topicsKept_iff`: what an upsert does to the limit and to
  the topics.
* `Inv.step_iff`: the same for every call.
* `subscriptions_kept_iff`: the same along every sequence of calls.
-/

namespace CoopMessenger
namespace Server

open Library

namespace WebPushStore

section Properties

/-- The store, and for each endpoint the topics of its last successful upsert. -/
structure State where
  store : Store
  last : String → Option (List String)

def initial : State where
  store := .new
  last := fun _ => none

/-- A successful upsert is remembered. -/
def record
    (last : String → Option (List String)) :
    Call → Except Error Unit → String → Option (List String)
  | .upsert u, .ok _ => Function.update last u.endpoint (some u.topics)
  | _, _ => last

def step
    (σ : State)
    (l : Connection × Call) : Option State :=
  let answer := perform l.1 l.2 σ.store
  some ⟨answer.2, record σ.last l.2 answer.1⟩

/-- No address has more subscriptions than the limit. -/
def Capped (s : Store) : Prop :=
  ∀ ip, s.count ip ≤ WebPush.subscriptionEndpointLimitPerSubscriberIP

/-- No two subscriptions have one endpoint. -/
def UniqueEndpoints (s : Store) : Prop :=
  (s.subscription.rows.map SubscriptionRow.endpoint).Nodup

/-- The topics of a subscription are those of the last successful upsert of its endpoint. -/
def TopicsKept
    (s : Store)
    (last : String → Option (List String)) : Prop :=
  ∀ r ∈ s.subscription, ∃ topics, last r.endpoint = some topics ∧
    ∀ topic, s.HasTopic r.id topic ↔ topic ∈ topics

/-- The limit and the topics are right. -/
structure Inv (σ : State) : Prop where
  capped : Capped σ.store
  topics : TopicsKept σ.store σ.last

/-- They are right after the call. -/
def KeptAfter
    (σ : State)
    (l : Connection × Call) : Prop :=
  ∀ σ', step σ l = some σ' → Inv σ'

/-- Endpoints are unique after the call, and an upsert that fails changes nothing. -/
def SoundAfter
    (σ : State)
    (l : Connection × Call) : Prop :=
  ∀ σ', step σ l = some σ' → UniqueEndpoints σ'.store ∧
    ∀ u e, l.2 = .upsert u → (perform l.1 l.2 σ.store).1 = .error e → σ' = σ

/-- A known endpoint moves to another address, which has as many as it may have. -/
def MovesToFull
    (conn : Connection)
    (u : Upsert)
    (s : Store) : Prop :=
  Undisturbed conn u ∧ conn.refuses .selectID = false ∧
    (∃ r ∈ s.subscription, r.endpoint = u.endpoint ∧ r.subscriberIP ≠ u.subscriberIP) ∧
    WebPush.subscriptionEndpointLimitPerSubscriberIP ≤ s.count u.subscriberIP

/-- A known endpoint whose ID cannot be read gets its topics under another ID. -/
def MissesID
    (conn : Connection)
    (u : Upsert)
    (s : Store) : Prop :=
  Undisturbed conn u ∧ conn.refuses .selectID = true ∧
    s.count u.subscriberIP < WebPush.subscriptionEndpointLimitPerSubscriberIP ∧
    (∃ r ∈ s.subscription, r.endpoint = u.endpoint) ∧
    (conn.foreignKeys = true → u.topics ≠ [] → ∃ r ∈ s.subscription, r.id = u.newID) ∧
    ∃ r ∈ s.subscription, ¬(r.id = u.newID ↔ r.endpoint = u.endpoint) ∧
      ¬∀ topic, s.HasTopic r.id topic ↔ topic ∈ u.topics

/-- The call is none of the two. -/
def Harmless
    (σ : State)
    (l : Connection × Call) : Prop :=
  match l.2 with
  | .upsert u => ¬MovesToFull l.1 u σ.store ∧ ¬MissesID l.1 u σ.store
  | _ => True

end Properties

section Limit

variable {conn : Connection} {s s' : Store} {u : Upsert} {id stored : String}

theorem Written.count
    (h : Written u s id s' stored)
    (ip : String) :
    s'.count ip = (s.subscription.rows.filter
        (fun r => decide (r.endpoint ≠ u.endpoint))).countP
          (fun r => decide (r.subscriberIP = ip)) +
      if u.subscriberIP = ip then 1 else 0 := by
  rw [Store.count, h.rows.countP_eq, List.countP_cons]
  simp only [decide_eq_true_eq]
  rfl

theorem count_known
    {old : SubscriptionRow}
    (hold : old ∈ s.subscription)
    (hendpoint : old.endpoint = u.endpoint)
    (ip : String) :
    s.count ip = (s.subscription.rows.filter
        (fun r => decide (r.endpoint ≠ u.endpoint))).countP
          (fun r => decide (r.subscriberIP = ip)) +
      if old.subscriberIP = ip then 1 else 0 := by
  rw [Store.count, (Table.perm_of_mem hold).countP_eq, List.countP_cons, hendpoint]
  simp only [decide_eq_true_eq]

theorem count_new
    (hnew : ∀ r ∈ s.subscription, r.endpoint ≠ u.endpoint)
    (ip : String) :
    s.count ip = (s.subscription.rows.filter
        (fun r => decide (r.endpoint ≠ u.endpoint))).countP
          (fun r => decide (r.subscriberIP = ip)) := by
  rw [List.filter_eq_self.mpr fun r hr => decide_eq_true (hnew r hr), Store.count]

/-- An upsert keeps to the limit unless it moves a known endpoint to a full address. -/
theorem Written.capped_iff
    (h : Written u s id s' stored)
    (hundisturbed : Undisturbed conn u)
    (hid : subscriptionID conn u s = .ok id)
    (hcapped : Capped s) :
    Capped s' ↔ ¬MovesToFull conn u s := by
  have hunknown : (conn.refuses .selectID = true ∨
      ∀ r ∈ s.subscription, r.endpoint ≠ u.endpoint) →
        s.count u.subscriberIP < WebPush.subscriptionEndpointLimitPerSubscriberIP := by
    intro hor
    rw [subscriptionID_unknown hor] at hid
    split at hid
    case isTrue =>
      cases hid
    case isFalse hlt =>
      exact Nat.not_le.mp hlt
  by_cases hknown : ∃ r ∈ s.subscription, r.endpoint = u.endpoint
  · obtain ⟨old, hold, hendpoint⟩ := hknown
    have hmoves : MovesToFull conn u s ↔ conn.refuses .selectID = false ∧
        old.subscriberIP ≠ u.subscriberIP ∧
        WebPush.subscriptionEndpointLimitPerSubscriberIP ≤ s.count u.subscriberIP := by
      constructor
      · rintro ⟨-, hread, ⟨r, hr, he, hip⟩, hfull⟩
        obtain rfl := Table.eq_of_key_eq hr hold (he.trans hendpoint.symm)
        exact ⟨hread, hip, hfull⟩
      · rintro ⟨hread, hip, hfull⟩
        exact ⟨hundisturbed, hread, ⟨old, hold, hendpoint, hip⟩, hfull⟩
    rw [hmoves]
    constructor
    · rintro hcapped' ⟨-, hip, hfull⟩
      have hcount := count_known hold hendpoint u.subscriberIP
      have hcount' := h.count u.subscriberIP
      have hle := hcapped' u.subscriberIP
      rw [if_neg hip] at hcount
      rw [if_pos rfl] at hcount'
      omega
    · intro hnot ip
      have hcount := count_known hold hendpoint ip
      have hcount' := h.count ip
      have hle := hcapped ip
      by_cases hip : u.subscriberIP = ip
      · subst ip
        rw [if_pos rfl] at hcount'
        by_cases hsame : old.subscriberIP = u.subscriberIP
        · rw [if_pos hsame] at hcount
          omega
        · rw [if_neg hsame] at hcount
          have hlt : s.count u.subscriberIP <
              WebPush.subscriptionEndpointLimitPerSubscriberIP := by
            cases hread : conn.refuses .selectID with
            | true =>
                exact hunknown (Or.inl hread)
            | false =>
                exact Nat.not_le.mp fun hfull => hnot ⟨hread, hsame, hfull⟩
          omega
      · rw [if_neg hip] at hcount'
        omega
  · have hnew : ∀ r ∈ s.subscription, r.endpoint ≠ u.endpoint :=
      fun r hr he => hknown ⟨r, hr, he⟩
    have hlt := hunknown (Or.inr hnew)
    refine iff_of_true (fun ip => ?_) ?_
    · have hcount := count_new hnew ip
      have hcount' := h.count ip
      have hle := hcapped ip
      by_cases hip : u.subscriberIP = ip
      · subst ip
        rw [if_pos rfl] at hcount'
        omega
      · rw [if_neg hip] at hcount'
        omega
    · rintro ⟨-, -, ⟨r, hr, he, -⟩, -⟩
      exact hnew r hr he

end Limit

section Topics

variable {conn : Connection} {s s' : Store} {u : Upsert} {id stored : String}
variable {last : String → Option (List String)}

/-- The topics under the ID that was used agree with those of the endpoint. -/
def Agrees
    (u : Upsert)
    (s : Store)
    (id : String) : Prop :=
  ∀ r ∈ s.subscription, (r.id = id ↔ r.endpoint = u.endpoint) ∨
    ∀ topic, s.HasTopic r.id topic ↔ topic ∈ u.topics

theorem Written.topicsKept_iff
    (h : Written u s id s' stored)
    (hkept : TopicsKept s last) :
    TopicsKept s' (Function.update last u.endpoint (some u.topics)) ↔ Agrees u s id := by
  have hrows : ∀ r, r ∈ s'.subscription ↔
      r = u.row stored ∨ (r ∈ s.subscription ∧ r.endpoint ≠ u.endpoint) := by
    intro r
    rw [Table.mem_def, h.rows.mem_iff, List.mem_cons, List.mem_filter, decide_eq_true_eq]
    exact Iff.rfl
  have hself : ∀ i, (∀ topic, s'.HasTopic i topic ↔ topic ∈ u.topics) ↔
      i = id ∨ ∀ topic, s.HasTopic i topic ↔ topic ∈ u.topics := by
    intro i
    by_cases hi : i = id
    · exact iff_of_true (fun topic => by rw [h.topics, if_pos hi]) (Or.inl hi)
    · simp only [h.topics, if_neg hi, or_iff_right hi]
  constructor
  · intro hafter r hr
    by_cases he : r.endpoint = u.endpoint
    · obtain ⟨topics, hlast, htopics⟩ := hafter (u.row stored) ((hrows _).mpr (Or.inl rfl))
      obtain rfl : topics = u.topics := by
        have hrow : (u.row stored).endpoint = u.endpoint := rfl
        rw [hrow, Function.update_self] at hlast
        exact (Option.some.inj hlast).symm
      have hid : (u.row stored).id = r.id := (h.known r hr he).symm
      rw [hid] at htopics
      rcases (hself r.id).mp htopics with hi | hsame
      · exact Or.inl (iff_of_true hi he)
      · exact Or.inr hsame
    · by_cases hi : r.id = id
      · obtain ⟨topics, hlast, htopics⟩ := hafter r ((hrows r).mpr (Or.inr ⟨hr, he⟩))
        obtain ⟨topics', hlast', htopics'⟩ := hkept r hr
        obtain rfl : topics' = topics := by
          rw [Function.update_of_ne he, hlast'] at hlast
          exact Option.some.inj hlast
        refine Or.inr fun topic => ?_
        rw [htopics', ← htopics, h.topics, if_pos hi]
      · exact Or.inl (iff_of_false hi he)
  · intro hagrees r hr
    rcases (hrows r).mp hr with rfl | ⟨hr, he⟩
    · refine ⟨u.topics, Function.update_self .., (hself stored).mpr ?_⟩
      by_cases hknown : ∃ r ∈ s.subscription, r.endpoint = u.endpoint
      · obtain ⟨old, hold, he⟩ := hknown
        rw [← h.known old hold he]
        exact (hagrees old hold).imp_left fun hiff => hiff.mpr he
      · exact Or.inl (h.new fun r hr he => hknown ⟨r, hr, he⟩)
    · obtain ⟨topics, hlast, htopics⟩ := hkept r hr
      refine ⟨topics, by rwa [Function.update_of_ne he], fun topic => ?_⟩
      rw [h.topics]
      split
      case isTrue hi =>
        rcases hagrees r hr with hiff | hsame
        · exact absurd (hiff.mp hi) he
        · rw [← hsame topic, htopics]
      case isFalse =>
        exact htopics topic

theorem MissesID.succeeds
    (h : MissesID conn u s) :
    ∃ s', upsertSubscription conn u s = (.ok (), s') := by
  obtain ⟨hundisturbed, hread, hcount, hknown, hkey, -⟩ := h
  refine upsertSubscription_succeeds_iff.mpr ⟨hundisturbed, u.newID, ?_, Or.inl hknown,
    fun hon htopics _ => hkey hon htopics⟩
  rw [subscriptionID_unknown (Or.inl hread), if_neg (Nat.not_le.mpr hcount)]

/-- The ID that is used is that of the endpoint, unless it could not be read. -/
theorem agrees_iff
    (hundisturbed : Undisturbed conn u)
    (hid : subscriptionID conn u s = .ok id)
    (hstorable : Storable u s id)
    (hreferable : Referable conn u s id) :
    Agrees u s id ↔ ¬MissesID conn u s := by
  by_cases hread : conn.refuses .selectID = true
  · have hsub := subscriptionID_unknown (s := s) (u := u) (Or.inl hread)
    rw [hid] at hsub
    split at hsub
    case isTrue =>
      cases hsub
    case isFalse hlt =>
      obtain rfl := Except.ok.inj hsub
      by_cases hknown : ∃ r ∈ s.subscription, r.endpoint = u.endpoint
      · constructor
        · rintro hagrees ⟨-, -, -, -, -, r, hr, hne, htopics⟩
          exact (hagrees r hr).elim hne htopics
        · intro hnot r hr
          by_contra hor
          rw [not_or] at hor
          exact hnot ⟨hundisturbed, hread, Nat.not_le.mp hlt, hknown,
            fun hon htopics => hreferable hon htopics hknown, r, hr, hor⟩
      · refine iff_of_true (fun r hr => Or.inl (iff_of_false ?_ ?_)) ?_
        · exact hstorable.resolve_left hknown r hr
        · exact fun he => hknown ⟨r, hr, he⟩
        · exact fun hmisses => hknown hmisses.2.2.2.1
  · rw [Bool.not_eq_true] at hread
    refine iff_of_true (fun r hr => Or.inl ?_) ?_
    · by_cases hknown : ∃ r ∈ s.subscription, r.endpoint = u.endpoint
      · obtain ⟨old, hold, he⟩ := hknown
        obtain rfl := Except.ok.inj (hid.symm.trans (subscriptionID_known hold he hread))
        constructor
        · intro hsame
          rwa [s.eq_of_id_eq hr hold hsame]
        · intro hsame
          rw [Table.eq_of_key_eq hr hold (hsame.trans he.symm)]
      · refine iff_of_false (hstorable.resolve_left hknown r hr) fun he => ?_
        exact hknown ⟨r, hr, he⟩
    · rintro ⟨-, hrefused, -⟩
      rw [hread] at hrefused
      cases hrefused

end Topics

section Removals

variable {conn : Connection} {s s' : Store}

/-- Subscriptions are only removed; those that stay keep address and topics. -/
structure Shrinks (s s' : Store) : Prop where
  count : ∀ ip, s'.count ip ≤ s.count ip
  rows : ∀ r ∈ s'.subscription, ∃ r₀ ∈ s.subscription, r₀.endpoint = r.endpoint ∧
    ∀ topic, s'.HasTopic r.id topic ↔ s.HasTopic r₀.id topic

theorem Shrinks.refl
    (s : Store) :
    Shrinks s s :=
  ⟨fun _ => le_rfl, fun r hr => ⟨r, hr, rfl, fun _ => Iff.rfl⟩⟩

theorem Shrinks.trans
    {t : Store}
    (h : Shrinks s t)
    (h' : Shrinks t s') :
    Shrinks s s' := by
  refine ⟨fun ip => (h'.count ip).trans (h.count ip), fun r hr => ?_⟩
  obtain ⟨r₁, hr₁, he₁, htopics₁⟩ := h'.rows r hr
  obtain ⟨r₀, hr₀, he₀, htopics₀⟩ := h.rows r₁ hr₁
  exact ⟨r₀, hr₀, he₀.trans he₁, fun topic => (htopics₁ topic).trans (htopics₀ topic)⟩

theorem shrinks_deleteSubscriptions
    (s : Store)
    (foreignKeys : Bool)
    (p : SubscriptionRow → Bool) :
    Shrinks s (s.deleteSubscriptions foreignKeys p) := by
  refine ⟨fun ip => ?_, fun r hr => ?_⟩
  · exact List.Sublist.countP_le List.filter_sublist
  · obtain ⟨hr₀, hp⟩ := Table.mem_delete_iff.mp hr
    refine ⟨r, hr₀, rfl, fun topic => ?_⟩
    rw [Store.HasTopic, Store.deleteSubscriptions, Table.mem_delete_iff]
    refine and_iff_left ?_
    rw [Bool.and_eq_false_iff]
    refine Or.inr (List.any_eq_false.mpr fun q hq => ?_)
    rw [Bool.not_eq_true, Bool.and_eq_false_iff, decide_eq_false_iff_not]
    by_cases hid : q.id = r.id
    · rw [s.eq_of_id_eq hq hr₀ hid]
      exact Or.inl hp
    · exact Or.inr hid

theorem shrinks_deleteOrphans
    (s : Store) :
    Shrinks s s.deleteOrphans := by
  refine ⟨fun ip => le_rfl, fun r hr => ⟨r, hr, rfl, fun topic => ?_⟩⟩
  rw [Store.HasTopic, Store.deleteOrphans, Table.mem_delete_iff]
  refine and_iff_left ?_
  rw [decide_eq_false_iff_not, not_not]
  exact List.mem_map_of_mem hr

theorem shrinks_setWarned
    (s : Store)
    (id : String)
    (now : Int) :
    Shrinks s (s.setWarned id now) := by
  refine ⟨fun ip => ?_, fun r hr => ?_⟩
  · unfold Store.count Store.setWarned Table.modify
    rw [List.countP_map]
    refine le_of_eq (List.countP_congr fun r _ => ?_)
    rw [Function.comp_apply]
    split <;> rfl
  · obtain ⟨r₀, hr₀, rfl⟩ := List.mem_map.mp hr
    refine ⟨r₀, hr₀, ?_, fun topic => ?_⟩
    · split <;> rfl
    · split <;> exact Iff.rfl

/-- One statement after the other. -/
theorem execute_shrinks
    {qs : List (Store → Except Error Store)}
    (h : ∀ q ∈ qs, ∀ s s', q s = .ok s' → Shrinks s s')
    (s : Store) :
    Shrinks s (execute qs s).2 := by
  induction qs generalizing s with
  | nil =>
      exact .refl s
  | cons q qs ih =>
      rw [execute]
      cases hq : q s with
      | error e =>
          exact .refl s
      | ok t =>
          exact (h q List.mem_cons_self s t hq).trans
            (ih (fun q' hq' => h q' (List.mem_cons_of_mem q hq')) t)

theorem Connection.exec_shrinks
    {q : Statement} {effect : Store → Store}
    (heffect : ∀ s, Shrinks s (effect s))
    (h : conn.exec q (fun s => .ok (effect s)) s = .ok s') :
    Shrinks s s' := by
  obtain ⟨-, heq⟩ := Connection.exec_eq_ok_iff.mp h
  obtain rfl := Except.ok.inj heq
  exact heffect s

theorem inTransaction_shrinks
    {body : Store → Except Error Unit × Store}
    (h : Shrinks s (body s).2) :
    Shrinks s (inTransaction conn body s).2 := by
  cases hanswer : (inTransaction conn body s).1 with
  | error e =>
      rw [inTransaction_error hanswer]
      exact .refl s
  | ok a =>
      have heq : inTransaction conn body s = (.ok (), (inTransaction conn body s).2) :=
        Prod.ext hanswer rfl
      rwa [(inTransaction_eq_ok_iff.mp heq).2.2] at h

/-- Whatever is not an upsert. -/
theorem perform_shrinks
    {c : Call}
    (hc : ∀ u, c ≠ .upsert u) :
    Shrinks s (perform conn c s).2 := by
  have hdelete : ∀ p s s', deleteQuery conn p s = .ok s' → Shrinks s s' :=
    fun p s s' h => Connection.exec_shrinks
      (fun s => shrinks_deleteSubscriptions s conn.foreignKeys p) h
  cases c with
  | upsert u =>
      exact absurd rfl (hc u)
  | removeByEndpoint endpoint =>
      exact execute_shrinks (List.forall_mem_singleton.mpr (hdelete _)) s
  | removeByUserID userID =>
      rw [perform, removeSubscriptionsByUserID]
      split
      · exact .refl s
      · exact execute_shrinks (List.forall_mem_singleton.mpr (hdelete _)) s
  | removeExpired expired =>
      refine execute_shrinks (List.forall_mem_cons.mpr ⟨hdelete _, ?_⟩) s
      exact List.forall_mem_singleton.mpr
        fun s s' h => Connection.exec_shrinks shrinks_deleteOrphans h
  | markWarned ids now =>
      refine inTransaction_shrinks (execute_shrinks ?_ s)
      refine List.forall_mem_map.mpr fun id _ s s' h => ?_
      exact Connection.exec_shrinks (fun s => shrinks_setWarned s id now) h

end Removals

section Runs

variable {conn : Connection} {σ σ' : State}

theorem Shrinks.capped
    {s s' : Store}
    (h : Shrinks s s')
    (hcapped : Capped s) :
    Capped s' :=
  fun ip => (h.count ip).trans (hcapped ip)

theorem Shrinks.topicsKept
    {s s' : Store} {last : String → Option (List String)}
    (h : Shrinks s s')
    (hkept : TopicsKept s last) :
    TopicsKept s' last := by
  intro r hr
  obtain ⟨r₀, hr₀, hendpoint, htopics₀⟩ := h.rows r hr
  obtain ⟨topics, hlast, htopics⟩ := hkept r₀ hr₀
  refine ⟨topics, by rw [← hendpoint, hlast], fun topic => ?_⟩
  rw [htopics₀, htopics]

/-- What one upsert does to the limit and to the topics. -/
theorem Inv.upsert_iff
    {u : Upsert}
    (h : Inv σ)
    (hstep : step σ (conn, .upsert u) = some σ') :
    Inv σ' ↔ ¬MovesToFull conn u σ.store ∧ ¬MissesID conn u σ.store := by
  obtain rfl := Option.some.inj hstep
  cases hanswer : (upsertSubscription conn u σ.store).1 with
  | error e =>
      have hfails : ¬∃ s', upsertSubscription conn u σ.store = (.ok (), s') := by
        rintro ⟨s', hs'⟩
        rw [hs'] at hanswer
        cases hanswer
      have hstore : (perform conn (.upsert u) σ.store).2 = σ.store :=
        upsertSubscription_error hanswer
      have hrecord : record σ.last (.upsert u) (perform conn (.upsert u) σ.store).1 =
          σ.last := by
        rw [perform, hanswer]
        rfl
      dsimp only
      rw [hstore, hrecord]
      refine iff_of_true h ⟨fun hmoves => hfails ?_, fun hmisses => hfails ?_⟩
      · obtain ⟨hundisturbed, hread, ⟨r, hr, hendpoint, -⟩, -⟩ := hmoves
        exact succeeds_of_known hundisturbed hread hr hendpoint
      · exact hmisses.succeeds
  | ok a =>
      obtain ⟨s', hs'⟩ : ∃ s', upsertSubscription conn u σ.store = (.ok (), s') :=
        ⟨_, Prod.ext hanswer rfl⟩
      obtain ⟨hundisturbed, -⟩ := upsertSubscription_succeeds_iff.mp ⟨s', hs'⟩
      obtain ⟨-, -, -, id, hid, hwrites⟩ := upsertSubscription_eq_ok_iff.mp hs'
      obtain ⟨-, -, -, -, hstorable, hreferable⟩ := execute_writes_iff.mp ⟨s', hwrites⟩
      obtain ⟨stored, hwritten⟩ := execute_writes_spec hwrites
      have hcapped := hwritten.capped_iff hundisturbed hid h.capped
      have htopics := (hwritten.topicsKept_iff h.topics).trans
        (agrees_iff hundisturbed hid hstorable hreferable)
      dsimp only
      rw [perform, hs', record, ← hcapped, ← htopics]
      exact ⟨fun hinv => ⟨hinv.capped, hinv.topics⟩, fun hinv => ⟨hinv.1, hinv.2⟩⟩

/-- What one call does to the limit and to the topics. -/
theorem Inv.step_iff
    {l : Connection × Call}
    (h : Inv σ)
    (hstep : step σ l = some σ') :
    Inv σ' ↔ Harmless σ l := by
  obtain ⟨conn, c⟩ := l
  by_cases hc : ∃ u, c = .upsert u
  · obtain ⟨u, rfl⟩ := hc
    exact h.upsert_iff hstep
  · have hother : ∀ u, c ≠ .upsert u := fun u hu => hc ⟨u, hu⟩
    have hshrinks : Shrinks σ.store σ'.store := by
      obtain rfl := Option.some.inj hstep
      exact perform_shrinks hother
    have hlast : σ'.last = σ.last := by
      obtain rfl := Option.some.inj hstep
      cases c with
      | upsert u =>
          exact absurd rfl (hother u)
      | removeByEndpoint | removeByUserID | removeExpired | markWarned =>
          rfl
    refine iff_of_true ⟨hshrinks.capped h.capped, ?_⟩ ?_
    · rw [hlast]
      exact hshrinks.topicsKept h.topics
    · cases c with
      | upsert u =>
          exact absurd rfl (hother u)
      | removeByEndpoint | removeByUserID | removeExpired | markWarned =>
          exact trivial

theorem soundAfter
    (σ : State)
    (l : Connection × Call) :
    SoundAfter σ l := by
  rintro σ' hstep
  refine ⟨σ'.store.subscription.nodup, fun u e hu he => ?_⟩
  obtain ⟨conn, c⟩ := l
  dsimp only at hu
  subst hu
  have hstore : (perform conn (.upsert u) σ.store).2 = σ.store :=
    upsertSubscription_error he
  rw [← Option.some.inj hstep]
  dsimp only at he ⊢
  rw [hstore, he, record]
  · exact fun u' _ _ h => by cases h

/--
Endpoints are unique and failed upserts change nothing in every run; limit and topics hold
along it just if no upsert moves a known endpoint to a full address, or misses its ID.
-/
theorem subscriptions_kept_iff
    (calls : List (Connection × Call)) :
    Along step SoundAfter initial calls ∧
      (Along step KeptAfter initial calls ↔ Along step Harmless initial calls) := by
  have hsound : Along step SoundAfter initial calls :=
    Along.imp (fun σ l _ => soundAfter σ l)
      (Along.of_forall (fun _ _ => trivial) initial)
  have hinitial : Inv initial :=
    ⟨fun ip => Nat.zero_le _, fun r hr => absurd hr (Table.not_mem_empty r)⟩
  have hiff : ∀ σ l, Inv σ → (KeptAfter σ l ↔ Harmless σ l) := by
    intro σ l h
    have hstep : step σ l = some _ := rfl
    rw [← h.step_iff hstep]
    constructor
    · exact fun hafter => hafter _ hstep
    · intro hinv σ' hstep'
      rwa [← Option.some.inj (hstep.symm.trans hstep')]
  have hpres : ∀ σ l σ', Inv σ → KeptAfter σ l → step σ l = some σ' → Inv σ' :=
    fun σ l σ' _ hafter hstep => hafter σ' hstep
  exact ⟨hsound, Along.congr_of_invariant hiff hpres hinitial⟩

def reliable : Connection where
  foreignKeys := true
  refuses := fun _ => false

def subscribed
    (name ip : String) : Connection × Call :=
  (reliable, .upsert
    { endpoint := "https://updates.push.services.mozilla.com/" ++ name
      auth := "auth-key"
      p256dh := "p256dh-key"
      userID := "u_1234"
      subscriberIP := ip
      topics := ["test-topic", "mytopic"]
      now := 0
      newID := "wps_" ++ name })

/-- Ten subscriptions of one address, and then one that comes from another. -/
def crowding : List (Connection × Call) :=
  ["0", "1", "2", "3", "4", "5", "6", "7", "8", "9"].map (subscribed · "1.2.3.4") ++
    [subscribed "99" "9.9.9.9", subscribed "99" "1.2.3.4"]

/-- The address then has eleven. -/
theorem eleven_subscriptions :
    ¬∀ calls σ, run step initial calls = some σ → Capped σ.store := by
  intro h
  have hcount : (run step initial crowding).map (·.store.count "1.2.3.4") = some 11 := by
    decide +kernel
  obtain ⟨σ, hrun, heleven⟩ := Option.map_eq_some_iff.mp hcount
  have hle := h crowding σ hrun "1.2.3.4"
  rw [heleven] at hle
  exact absurd hle (by decide)

end Runs

end WebPushStore
end Server
end CoopMessenger
