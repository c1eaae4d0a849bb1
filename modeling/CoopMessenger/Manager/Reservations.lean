import CoopMessenger.Manager.Authorize

/-!
# The reservation check

`AllowReservation` of `user/manager.go` asks whether an entry that the user does
not own covers a topic.  Its query compares the stored patterns with the escaped
form of the topic, while `Authorize` compares them with the topic itself.

**Results.**
* `wildMatch_escapeUnderscoreChars_iff`: what a glob matches in escaped text.
* `allowReservation_eq_ok_iff`: what the check sees.
* `allowReservation_agrees_iff`: when the check agrees with `Authorize`.
* `exclusive_addReservation_iff`, `withinLimits_addReservation_iff`: when a
  reservation that is added keeps topics exclusive and users within their limits.
-/

namespace CoopMessenger
namespace Manager

open Library

section Escaped

/-- Does every underscore come right after a `*`?  `prev` says if one went before. -/
def underscoresAfterStar :
    Bool → List Char → Bool
  | _, [] => true
  | prev, c :: p =>
      (decide (c ≠ '_') || prev) && underscoresAfterStar (decide (c = '*')) p

theorem underscoresAfterStar_of_false
    {p : List Char}
    (h : underscoresAfterStar false p = true) :
    underscoresAfterStar true p = true := by
  cases p with
  | nil =>
      rfl
  | cons c p =>
      simp only [underscoresAfterStar, Bool.and_eq_true] at h
      simp [underscoresAfterStar, h.2]

/-- Only an upper-case letter differs from its lower-case form. -/
theorem eq_of_toLower_eq
    {c d : Char}
    (hd : ¬ (97 ≤ d.toNat ∧ d.toNat ≤ 122))
    (h : c.toLower = d) :
    c = d := by
  unfold Char.toLower at h
  split at h
  case isTrue hupper =>
    exfalso
    apply hd
    subst h
    simp only [Char.toNat, UInt32.le_iff_toNat_le, ge_iff_le,
      UInt32.toNat_add] at hupper ⊢
    have ha : ('A'.val).toNat = 65 := by decide
    have hz : ('Z'.val).toNat = 90 := by decide
    have hshift : (('a'.val) - ('A'.val)).toNat = 32 := by decide
    omega
  case isFalse =>
    exact h

/-- A plain character agrees with a backslash or an underscore only if it is one. -/
theorem eq_of_caseFoldEq
    {c d : Char}
    (hd : d = '\\' ∨ d = '_')
    (h : caseFoldEq c d = true) :
    c = d := by
  have heq : c.toLower = d.toLower := by simpa [caseFoldEq] using h
  rcases hd with rfl | rfl
  · exact eq_of_toLower_eq (by decide) heq
  · exact eq_of_toLower_eq (by decide) heq

/-- The suffixes of an escaped text begin between characters, or after a backslash. -/
theorem suffix_escapeUnderscoreChars_iff
    {t x : List Char} :
    x <:+ escapeUnderscoreChars t
      ↔
    (∃ t', t' <:+ t ∧ x = escapeUnderscoreChars t') ∨
      ∃ t', '_' :: t' <:+ t ∧ x = '_' :: escapeUnderscoreChars t' := by
  induction t with
  | nil =>
      simp
  | cons d t ih =>
      rw [escapeUnderscoreChars_cons]
      by_cases hd : d = '_'
      · subst hd
        rw [if_pos rfl, List.cons_append, List.singleton_append,
          List.suffix_cons_iff, List.suffix_cons_iff, ih]
        constructor
        · rintro (rfl | rfl | ⟨t', ht', rfl⟩ | ⟨t', ht', rfl⟩)
          · exact Or.inl ⟨'_' :: t, List.suffix_rfl, rfl⟩
          · exact Or.inr ⟨t, List.suffix_rfl, rfl⟩
          · exact Or.inl ⟨t', ht'.trans (List.suffix_cons _ _), rfl⟩
          · exact Or.inr ⟨t', ht'.trans (List.suffix_cons _ _), rfl⟩
        · rintro (⟨t', ht', rfl⟩ | ⟨t', ht', rfl⟩)
          · rcases List.suffix_cons_iff.mp ht' with rfl | ht'
            · exact Or.inl rfl
            · exact Or.inr (Or.inr (Or.inl ⟨t', ht', rfl⟩))
          · rcases List.suffix_cons_iff.mp ht' with heq | ht'
            · cases heq
              exact Or.inr (Or.inl rfl)
            · exact Or.inr (Or.inr (Or.inr ⟨t', ht', rfl⟩))
      · rw [if_neg hd, List.singleton_append, List.suffix_cons_iff, ih]
        constructor
        · rintro (rfl | ⟨t', ht', rfl⟩ | ⟨t', ht', rfl⟩)
          · refine Or.inl ⟨d :: t, List.suffix_rfl, ?_⟩
            rw [escapeUnderscoreChars_cons, if_neg hd]
            rfl
          · exact Or.inl ⟨t', ht'.trans (List.suffix_cons _ _), rfl⟩
          · exact Or.inr ⟨t', ht'.trans (List.suffix_cons _ _), rfl⟩
        · rintro (⟨t', ht', rfl⟩ | ⟨t', ht', rfl⟩)
          · rcases List.suffix_cons_iff.mp ht' with rfl | ht'
            · left
              rw [escapeUnderscoreChars_cons, if_neg hd]
              rfl
            · exact Or.inr (Or.inl ⟨t', ht', rfl⟩)
          · rcases List.suffix_cons_iff.mp ht' with heq | ht'
            · cases heq
              exact absurd rfl hd
            · exact Or.inr (Or.inr ⟨t', ht', rfl⟩)

/-- A literal at the front of a pattern, in escaped text. -/
theorem wildMatch_lit_escapeUnderscoreChars_iff
    {c : Char} {p : List Char}
    (hc : plainChar c)
    (hstar : c ≠ '*')
    (ih : ∀ t, wildMatch caseFoldEq (globItems p) (escapeUnderscoreChars t) =
        true ↔
      wildMatch caseFoldEq (globItems p) t = true ∧
        underscoresAfterStar false p = true)
    (t : List Char) :
    wildMatch caseFoldEq (.lit c :: globItems p) (escapeUnderscoreChars t) =
        true
      ↔
    wildMatch caseFoldEq (.lit c :: globItems p) t = true ∧
      underscoresAfterStar false (c :: p) = true := by
  cases t with
  | nil =>
      simp
  | cons d t =>
      rw [escapeUnderscoreChars_cons]
      by_cases hd : d = '_'
      · subst hd
        simp only [if_true, List.cons_append, wildMatch_lit_cons,
          Bool.and_eq_true, underscoresAfterStar, Bool.or_false,
          decide_eq_true_eq]
        constructor
        · rintro ⟨hback, -⟩
          exact absurd (eq_of_caseFoldEq (Or.inl rfl) hback) hc.2
        · rintro ⟨⟨hunder, -⟩, hne, -⟩
          exact absurd (eq_of_caseFoldEq (Or.inr rfl) hunder) hne
      · simp only [if_neg hd, List.singleton_append, wildMatch_lit_cons,
          Bool.and_eq_true, underscoresAfterStar, Bool.or_false,
          decide_eq_true_eq, hstar, decide_false, ih]
        constructor
        · rintro ⟨hcd, hmatch, hafter⟩
          refine ⟨⟨hcd, hmatch⟩, ?_, hafter⟩
          rintro rfl
          have hfold : caseFoldEq d '_' = true := by
            simp only [caseFoldEq, beq_iff_eq] at hcd ⊢
            exact hcd.symm
          exact hd (eq_of_caseFoldEq (Or.inr rfl) hfold)
        · rintro ⟨⟨hcd, hmatch⟩, -, hafter⟩
          exact ⟨hcd, hmatch, hafter⟩

/--
A glob matches escaped text, at its front or after skipping a part of it, if it
matches the text and each of its underscores can skip the backslash.
-/
theorem wildMatch_escapeUnderscoreChars_iff
    {p : List Char}
    (hp : ∀ c ∈ p, plainChar c) :
    (∀ t, wildMatch caseFoldEq (globItems p) (escapeUnderscoreChars t) = true ↔
      wildMatch caseFoldEq (globItems p) t = true ∧
        underscoresAfterStar false p = true) ∧
    ∀ t, wildMatch caseFoldEq (.any :: globItems p) (escapeUnderscoreChars t) =
        true ↔
      wildMatch caseFoldEq (.any :: globItems p) t = true ∧
        underscoresAfterStar true p = true := by
  induction p with
  | nil =>
      constructor
      · intro t
        cases t with
        | nil =>
            simp [globItems, underscoresAfterStar]
        | cons d t =>
            by_cases hd : d = '_' <;>
              simp [globItems, hd]
      · intro t
        have hnil : ∀ x : List Char,
            wildMatch caseFoldEq (.any :: globItems []) x = true := fun x =>
          (wildMatch_any_iff _ _).mpr ⟨[], List.nil_suffix, rfl⟩
        simp [hnil, underscoresAfterStar]
  | cons c p ih =>
      obtain ⟨ihfront, ihskip⟩ :=
        ih (fun d hd => hp d (List.mem_cons_of_mem c hd))
      by_cases hstar : c = '*'
      · subst hstar
        have hitems : globItems ('*' :: p) = .any :: globItems p := rfl
        have hafter : ∀ prev, underscoresAfterStar prev ('*' :: p) =
            underscoresAfterStar true p := by
          intro prev
          simp [underscoresAfterStar]
        rw [hitems]
        simp only [wildMatch_any_any, hafter]
        exact ⟨ihskip, ihskip⟩
      · have hitems : globItems (c :: p) = .lit c :: globItems p := by
          simp [globItems, hstar]
        have hc := hp c List.mem_cons_self
        have hfront := wildMatch_lit_escapeUnderscoreChars_iff hc hstar ihfront
        rw [hitems]
        refine ⟨hfront, fun t => ?_⟩
        rw [wildMatch_any_iff, wildMatch_any_iff]
        constructor
        · rintro ⟨x, hx, hmatch⟩
          rcases suffix_escapeUnderscoreChars_iff.mp hx with
            ⟨t', ht', rfl⟩ | ⟨t', ht', rfl⟩
          · obtain ⟨hmatch, hafter⟩ := (hfront t').mp hmatch
            exact ⟨⟨t', ht', hmatch⟩, underscoresAfterStar_of_false hafter⟩
          · rw [wildMatch_lit_cons, Bool.and_eq_true] at hmatch
            obtain ⟨hmatch', hafter⟩ := (ihfront t').mp hmatch.2
            refine ⟨⟨'_' :: t', ht', ?_⟩, ?_⟩
            · rw [wildMatch_lit_cons, hmatch.1, hmatch']
              rfl
            · simp [underscoresAfterStar, hstar, hafter]
        · rintro ⟨⟨t', ht', hmatch⟩, hafter⟩
          simp only [underscoresAfterStar, Bool.or_true, Bool.true_and, hstar,
            decide_false] at hafter
          cases t' with
          | nil =>
              simp at hmatch
          | cons d t' =>
              rw [wildMatch_lit_cons, Bool.and_eq_true] at hmatch
              have hrest := (ihfront t').mpr ⟨hmatch.2, hafter⟩
              by_cases hd : d = '_'
              · subst hd
                refine ⟨'_' :: escapeUnderscoreChars t',
                  suffix_escapeUnderscoreChars_iff.mpr
                    (Or.inr ⟨t', ht', rfl⟩), ?_⟩
                rw [wildMatch_lit_cons, hmatch.1, hrest]
                rfl
              · refine ⟨escapeUnderscoreChars (d :: t'),
                  suffix_escapeUnderscoreChars_iff.mpr
                    (Or.inl ⟨d :: t', ht', rfl⟩), ?_⟩
                rw [escapeUnderscoreChars_cons, if_neg hd,
                  List.singleton_append, wildMatch_lit_cons, hmatch.1, hrest]
                rfl

end Escaped

section Check

/-- The check sees the pattern: it is the topic, or its underscores follow a `*`. -/
def seen
    (topic : String)
    (s : StoredPattern) : Bool :=
  decide (s.visible = topic) ||
    underscoresAfterStar false s.visible.toList

/-- A stored pattern is the escaped topic if its visible form is the topic. -/
theorem stored_eq_escapeUnderscore_iff
    {topic : String} {s : StoredPattern}
    (h : allowedTopic topic = true) :
    s.1 = escapeUnderscore topic ↔ s.visible = topic := by
  constructor
  · intro heq
    have hstored : s = Database.storedTopic topic h :=
      Subtype.ext (heq.trans (Database.storedTopic_val h).symm)
    rw [hstored, Database.storedTopic, StoredPattern.visible_ofPattern]
  · rintro rfl
    rw [← toSQLWildcard_of_allowedTopic h]
    exact s.2.2.symm

/-- Which patterns the query of the check selects. -/
theorem selected_iff
    {topic : String} {s : StoredPattern}
    (h : allowedTopic topic = true) :
    (decide (s.1 = escapeUnderscore topic) ||
      sqlLike '\\' (escapeUnderscore topic) s.1) = true
      ↔
    likes topic s = true ∧ seen topic s = true := by
  have hplain : ∀ c ∈ s.visible.toList, plainChar c :=
    plainChar_of_allowedTopicPattern s.2.1
  have hlike : ∀ t, sqlLike '\\' t s.1 =
      wildMatch caseFoldEq (globItems s.visible.toList) t.toList := by
    intro t
    have hstored := sqlLike_toSQLWildcard s.2.1 t
    rwa [s.2.2] at hstored
  have hself : s.visible = topic → likes topic s = true := by
    rintro rfl
    apply likes_of_globs
    rw [globs_of_no_star (star_not_mem_of_allowedTopic h)]
  simp only [likes, seen, hlike, Bool.or_eq_true, decide_eq_true_eq,
    stored_eq_escapeUnderscore_iff h]
  have hescaped : (escapeUnderscore topic).toList =
      escapeUnderscoreChars topic.toList := by
    simp [escapeUnderscore]
  rw [hescaped, (wildMatch_escapeUnderscoreChars_iff hplain).1]
  constructor
  · rintro (heq | ⟨hmatch, hafter⟩)
    · have hmatch := hself heq
      rw [likes, hlike] at hmatch
      exact ⟨hmatch, Or.inl heq⟩
    · exact ⟨hmatch, Or.inr hafter⟩
  · rintro ⟨hmatch, heq | hafter⟩
    · exact Or.inl heq
    · exact Or.inr ⟨hmatch, hafter⟩

variable {db : Database}
variable {username topic id : String}

/-- The check passes if it sees no entry for the topic that the user does not own. -/
theorem allowReservation_eq_ok_iff
    (hid : db.userID username = some id)
    (htopic : allowedTopic topic = true) :
    db.allowReservation username topic = .ok ()
      ↔
    ∀ a ∈ db.access, a.ownerUserId ≠ some id →
      likes topic a.topic = true → seen topic a.topic = false := by
  have hname : (!allowedUsername username && decide (username ≠ everyone)) =
      false := by
    rcases Database.name_of_userID hid with heveryone | hallowed
    · simp [heveryone]
    · simp [hallowed]
  simp only [Database.allowReservation, hname, htopic, Bool.not_true,
    Bool.or_self, Bool.false_eq_true, if_false, hid, Option.any_some]
  have hforeign : ∀ a : AccessRow,
      (a.ownerUserId.isNone || decide (a.ownerUserId ≠ some id)) = true ↔
        a.ownerUserId ≠ some id := by
    intro a
    cases a.ownerUserId <;> simp
  constructor
  · intro h a ha howner hlike
    by_contra hseen
    rw [if_pos] at h
    · cases h
    · refine List.any_eq_true.mpr ⟨a, ha, ?_⟩
      rw [Bool.and_eq_true, selected_iff htopic, hforeign]
      exact ⟨⟨hlike, by simpa using hseen⟩, howner⟩
  · intro h
    rw [if_neg]
    intro hany
    obtain ⟨a, ha, hselected⟩ := List.any_eq_true.mp hany
    rw [Bool.and_eq_true, selected_iff htopic, hforeign] at hselected
    obtain ⟨⟨hlike, hseen⟩, howner⟩ := hselected
    rw [h a ha howner hlike] at hseen
    cases hseen

/-- No entry that the user does not own matches the topic, as `Authorize` matches. -/
def Unclaimed
    (db : Database)
    (id topic : String) : Prop :=
  ∀ a ∈ db.access, a.ownerUserId ≠ some id → likes topic a.topic = false

/--
If an entry that the user does not own matches the topic, then so does one whose
pattern is the topic itself, or has underscores only right after a `*`.
-/
def SeenIfClaimed
    (db : Database)
    (id topic : String) : Prop :=
  (∃ a ∈ db.access, a.ownerUserId ≠ some id ∧ likes topic a.topic = true) →
    ∃ a ∈ db.access, a.ownerUserId ≠ some id ∧ likes topic a.topic = true ∧
      seen topic a.topic = true

/-- When the check agrees with the matching of `Authorize`. -/
theorem allowReservation_agrees_iff
    (hid : db.userID username = some id)
    (htopic : allowedTopic topic = true) :
    (db.allowReservation username topic = .ok () ↔ Unclaimed db id topic)
      ↔
    SeenIfClaimed db id topic := by
  rw [allowReservation_eq_ok_iff hid htopic]
  constructor
  · rintro hagree ⟨a, ha, howner, hlike⟩
    by_contra hnone
    have hunseen : ∀ b ∈ db.access, b.ownerUserId ≠ some id →
        likes topic b.topic = true → seen topic b.topic = false := by
      intro b hb hbowner hblike
      by_contra hseen
      exact hnone ⟨b, hb, hbowner, hblike, by simpa using hseen⟩
    rw [hagree.mp hunseen a ha howner] at hlike
    cases hlike
  · intro hseen
    constructor
    · intro hallowed a ha howner
      by_contra hlike
      obtain ⟨b, hb, hbowner, hblike, hbseen⟩ :=
        hseen ⟨a, ha, howner, by simpa using hlike⟩
      rw [hallowed b hb hbowner hblike] at hbseen
      cases hbseen
    · intro hunclaimed a ha howner hlike
      rw [hunclaimed a ha howner] at hlike
      cases hlike

end Check

section Adding

/-- The entry by which its user owns the topic. -/
def AccessRow.reserves (a : AccessRow) : Bool :=
  decide (a.ownerUserId = some a.userId)

variable {db db' : Database}
variable {username topic : String}
variable {perm : Permission}

namespace Database

/-- The entries after a reservation was added, up to their order. -/
theorem addReservation_eq_ok
    (h : db.addReservation username topic perm = .ok db') :
    ∃ id, ∃ ht : allowedTopic topic = true,
      allowedUsername username = true ∧ db.userID username = some id ∧
      id ≠ everyoneID ∧ db'.users = db.users ∧ db'.topicMeta = db.topicMeta ∧
      db'.access.rows.Perm
        (⟨everyoneID, storedTopic topic ht, perm.isRead, perm.isWrite,
            some id, false⟩ ::
          ⟨id, storedTopic topic ht, true, true, some id, false⟩ ::
          db.access.rows.filter
            (fun a => decide (a.key ≠ (id, storedTopic topic ht) ∧
              a.key ≠ (everyoneID, storedTopic topic ht)))) := by
  unfold addReservation at h
  split at h
  case isTrue =>
    cases h
  case isFalse hname =>
    split at h
    case isFalse =>
      cases h
    case isTrue ht =>
      simp only [Bool.or_eq_true, Bool.not_eq_true', decide_eq_true_eq,
        not_or, Bool.not_eq_false] at hname
      obtain ⟨db₁, hown, hall⟩ := exists_of_bind_eq_ok h
      cases hid : db.userID username with
      | none =>
          simp [upsertUserAccess, hid] at hown
      | some id =>
          obtain ⟨husers, hmeta, hperm⟩ := perm_access_upsertUserAccess hid hown
          have hev : db₁.userID everyone = some everyoneID :=
            userID_everyone db₁
          obtain ⟨husers', hmeta', hperm'⟩ :=
            perm_access_upsertUserAccess hev hall
          have hne : id ≠ everyoneID := by
            rintro rfl
            exact hname.2 (userID_injective hid (userID_everyone db))
          have howner : username ≠ "" := by
            rintro rfl
            exact absurd hname.1 (by decide)
          rw [userID_congr husers, if_neg howner, hid] at hperm'
          rw [if_neg howner, hid] at hperm
          refine ⟨id, ht, hname.1, rfl, hne, husers'.trans husers,
            hmeta'.trans hmeta, hperm'.trans (List.Perm.cons _ ?_)⟩
          refine (hperm.filter _).trans ?_
          rw [List.filter_cons_of_pos (by simp [AccessRow.key, hne]),
            List.filter_filter]
          refine List.Perm.cons _ (List.Perm.of_eq ?_)
          refine List.filter_congr fun a _ => ?_
          rw [← Bool.decide_and, decide_eq_decide]
          exact and_comm

theorem reservationsCount_eq
    {id : String}
    (hid : db.userID username = some id) :
    db.reservationsCount username =
      db.access.rows.countP (fun a => a.reserves && decide (a.userId = id)) := by
  simp [reservationsCount, hid, AccessRow.reserves]

/-- A reservation is the entry of the user for the topic, if it gives ownership. -/
theorem hasReservation_eq
    {id : String}
    (hid : db.userID username = some id)
    (ht : allowedTopic topic = true) :
    db.hasReservation username topic =
      (db.access.find? (id, storedTopic topic ht)).any AccessRow.reserves := by
  have hkey : ∀ a : AccessRow,
      (a.reserves && decide (a.userId = id) &&
        decide (a.topic.1 = escapeUnderscore topic)) =
      (decide (a.key = (id, storedTopic topic ht)) && a.reserves) := by
    intro a
    have htopic : a.topic = storedTopic topic ht ↔
        a.topic.1 = escapeUnderscore topic := by
      rw [← storedTopic_val ht]
      exact Subtype.ext_iff
    simp only [AccessRow.key, Prod.mk.injEq, htopic, Bool.decide_and]
    rw [Bool.and_assoc, Bool.and_comm]
  calc db.hasReservation username topic
      = db.access.rows.any (fun a => decide (a.key =
          (id, storedTopic topic ht)) && a.reserves) := by
        simp only [hasReservation, hid, Option.any_some, ← hkey]
        rfl
    _ = (db.access.rows.filter (fun a => decide (a.key =
          (id, storedTopic topic ht)))).any AccessRow.reserves := by
        rw [List.any_filter]
    _ = (db.access.find? (id, storedTopic topic ht)).any
          AccessRow.reserves := by
        rw [Table.filter_key_eq]
        cases db.access.find? (id, storedTopic topic ht) <;> simp

/-- A user holds one more reservation after adding one that was not there. -/
theorem reservationsCount_addReservation
    (h : db.addReservation username topic perm = .ok db') :
    db'.reservationsCount username =
      db.reservationsCount username +
        if db.hasReservation username topic then 0 else 1 := by
  obtain ⟨id, ht, -, hid, hne, husers, -, hperm⟩ := addReservation_eq_ok h
  have hid' : db'.userID username = some id := by
    rw [userID_congr husers, hid]
  rw [reservationsCount_eq hid, reservationsCount_eq hid', hperm.countP_eq,
    hasReservation_eq hid ht]
  have hkept : (db.access.rows.filter (fun a =>
      decide (a.key ≠ (id, storedTopic topic ht) ∧
        a.key ≠ (everyoneID, storedTopic topic ht)))).countP
          (fun a => a.reserves && decide (a.userId = id)) =
      (db.access.rows.filter (fun a =>
        !decide (a.key = (id, storedTopic topic ht)))).countP
          (fun a => a.reserves && decide (a.userId = id)) := by
    rw [List.countP_filter, List.countP_filter]
    refine List.countP_congr fun a _ => ?_
    simp only [AccessRow.key, Bool.and_eq_true, decide_eq_true_eq, ne_eq,
      Prod.mk.injEq, Bool.not_eq_true', decide_eq_false_iff_not]
    constructor
    · rintro ⟨hown, hkey, -⟩
      exact ⟨hown, hkey⟩
    · rintro ⟨hown, hkey⟩
      refine ⟨hown, hkey, fun hev => ?_⟩
      exact hne (hown.2.symm.trans hev.1)
  have hself : ((db.access.find? (id, storedTopic topic ht)).toList).countP
      (fun a => a.reserves && decide (a.userId = id)) =
      if (db.access.find? (id, storedTopic topic ht)).any AccessRow.reserves
        then 1 else 0 := by
    cases hfind : db.access.find? (id, storedTopic topic ht) with
    | none =>
        rfl
    | some a =>
        have haid : a.userId = id :=
          congrArg Prod.fst (Table.find?_eq_some_iff.mp hfind).2
        simp [haid]
  rw [List.countP_eq_countP_filter_add db.access.rows _
    (fun a => decide (a.key = (id, storedTopic topic ht))),
    Table.filter_key_eq, hself]
  rw [List.countP_cons_of_neg (by simp [AccessRow.reserves, hne]),
    List.countP_cons_of_pos (by simp [AccessRow.reserves]), hkept]
  split <;> omega

/-- Nobody else holds more. -/
theorem reservationsCount_addReservation_le
    {other : String}
    (h : db.addReservation username topic perm = .ok db')
    (hother : other ≠ username) :
    db'.reservationsCount other ≤ db.reservationsCount other := by
  obtain ⟨id, ht, -, hid, hne, husers, -, hperm⟩ := addReservation_eq_ok h
  cases hj : db.userID other with
  | none =>
      simp [reservationsCount, userID_congr husers, hj]
  | some j =>
      have hj' : db'.userID other = some j := by
        rw [userID_congr husers, hj]
      have hji : id ≠ j := by
        rintro rfl
        exact hother (userID_injective hj hid)
      rw [reservationsCount_eq hj, reservationsCount_eq hj', hperm.countP_eq]
      simp only [List.countP_cons, AccessRow.reserves, Option.some.injEq, hne,
        hji, decide_false, Bool.and_false, Bool.false_and, Bool.false_eq_true,
        if_false, Nat.add_zero]
      exact List.filter_sublist.countP_le

/-- No topic is reserved by two users. -/
def Exclusive (db : Database) : Prop :=
  ∀ a ∈ db.access, ∀ b ∈ db.access,
    a.reserves = true → b.reserves = true → a.topic = b.topic →
      a.userId = b.userId

/-- No user with a tier holds more reservations than the tier allows. -/
def WithinLimits (db : Database) : Prop :=
  ∀ v ∈ db.users, ∀ tier ∈ v.tier,
    db.reservationsCount v.name ≤ tier.reservationLimit

/-- Nobody else has reserved the topic. -/
def FreeOfOthers
    (db : Database)
    (username topic : String) : Prop :=
  ∀ a ∈ db.access, a.reserves = true →
    a.topic.1 = escapeUnderscore topic → a.userId ≠ everyoneID →
      db.userID username = some a.userId

/-- The user holds the topic already, or fewer reservations than the tier allows. -/
def BelowLimit
    (db : Database)
    (username topic : String) : Prop :=
  db.hasReservation username topic = true ∨
    ∀ v ∈ db.user username, ∀ tier ∈ v.tier,
      db.reservationsCount username < tier.reservationLimit

instance decidableExclusive (db : Database) :
    Decidable (Exclusive db) :=
  inferInstanceAs (Decidable (∀ a ∈ db.access, ∀ b ∈ db.access,
    a.reserves = true → b.reserves = true → a.topic = b.topic →
      a.userId = b.userId))

instance decidableWithinLimits (db : Database) :
    Decidable (WithinLimits db) :=
  inferInstanceAs (Decidable (∀ v ∈ db.users, ∀ tier ∈ v.tier,
    db.reservationsCount v.name ≤ tier.reservationLimit))

instance decidableFreeOfOthers
    (db : Database) (username topic : String) :
    Decidable (FreeOfOthers db username topic) :=
  inferInstanceAs (Decidable (∀ a ∈ db.access, a.reserves = true →
    a.topic.1 = escapeUnderscore topic → a.userId ≠ everyoneID →
      db.userID username = some a.userId))

instance decidableBelowLimit
    (db : Database) (username topic : String) :
    Decidable (BelowLimit db username topic) :=
  inferInstanceAs (Decidable (db.hasReservation username topic = true ∨
    ∀ v ∈ db.user username, ∀ tier ∈ v.tier,
      db.reservationsCount username < tier.reservationLimit))

/-- A reservation keeps topics exclusive exactly if nobody else holds this one. -/
theorem exclusive_addReservation_iff
    (hex : Exclusive db)
    (h : db.addReservation username topic perm = .ok db') :
    Exclusive db' ↔ FreeOfOthers db username topic := by
  obtain ⟨id, ht, -, hid, hne, -, -, hperm⟩ := addReservation_eq_ok h
  have hmem : ∀ a, a ∈ db'.access ↔
      a = ⟨everyoneID, storedTopic topic ht, perm.isRead, perm.isWrite,
        some id, false⟩ ∨
      a = ⟨id, storedTopic topic ht, true, true, some id, false⟩ ∨
      (a ∈ db.access ∧ a.key ≠ (id, storedTopic topic ht) ∧
        a.key ≠ (everyoneID, storedTopic topic ht)) := by
    intro a
    rw [Table.mem_def, hperm.mem_iff]
    simp [Table.mem_def]
  have hstored : ∀ a : AccessRow, a.topic.1 = escapeUnderscore topic →
      a.topic = storedTopic topic ht :=
    fun a ha => Subtype.ext (ha.trans (storedTopic_val ht).symm)
  constructor
  · intro hex' a ha hres htopic hev
    rw [hid]
    by_contra hother
    have hkey : a.key ≠ (id, storedTopic topic ht) := by
      intro hkey
      exact hother (by rw [← (Prod.mk.inj hkey).1])
    have hkey' : a.key ≠ (everyoneID, storedTopic topic ht) :=
      fun hkey => hev (Prod.mk.inj hkey).1
    have hsame := hex' a ((hmem a).mpr (Or.inr (Or.inr ⟨ha, hkey, hkey'⟩)))
      _ ((hmem _).mpr (Or.inr (Or.inl rfl))) hres
      (by simp [AccessRow.reserves]) (hstored a htopic)
    exact hother (by rw [hsame])
  · intro hfree
    have hold : ∀ a ∈ db.access, a.reserves = true →
        a.topic = storedTopic topic ht →
        a.key = (id, storedTopic topic ht) ∨
          a.key = (everyoneID, storedTopic topic ht) := by
      intro a ha hres htopic
      by_cases hev : a.userId = everyoneID
      · exact Or.inr (Prod.ext hev htopic)
      · have hown := hfree a ha hres
          ((congrArg Subtype.val htopic).trans (storedTopic_val ht)) hev
        rw [hid] at hown
        exact Or.inl (Prod.ext (Option.some.inj hown).symm htopic)
    have hevery : (⟨everyoneID, storedTopic topic ht, perm.isRead,
        perm.isWrite, some id, false⟩ : AccessRow).reserves = false := by
      simp [AccessRow.reserves, hne]
    intro a ha b hb hares hbres htopic
    rcases (hmem a).mp ha with rfl | rfl | ⟨ha, hakey, hakey'⟩
    · rw [hevery] at hares
      cases hares
    · rcases (hmem b).mp hb with rfl | rfl | ⟨hb, hbkey, hbkey'⟩
      · rw [hevery] at hbres
        cases hbres
      · rfl
      · rcases hold b hb hbres htopic.symm with hkey | hkey
        · exact absurd hkey hbkey
        · exact absurd hkey hbkey'
    · rcases (hmem b).mp hb with rfl | rfl | ⟨hb, -, -⟩
      · rw [hevery] at hbres
        cases hbres
      · rcases hold a ha hares htopic with hkey | hkey
        · exact absurd hkey hakey
        · exact absurd hkey hakey'
      · exact hex a ha b hb hares hbres htopic

/-- A reservation keeps the limits exactly if its user is below the limit. -/
theorem withinLimits_addReservation_iff
    (hlim : WithinLimits db)
    (h : db.addReservation username topic perm = .ok db') :
    WithinLimits db' ↔ BelowLimit db username topic := by
  obtain ⟨id, -, -, hid, -, husers, -⟩ := addReservation_eq_ok h
  have hcount := reservationsCount_addReservation h
  constructor
  · intro hlim'
    cases hhas : db.hasReservation username topic with
    | true =>
        exact Or.inl hhas
    | false =>
        refine Or.inr fun v hv tier htier => ?_
        obtain ⟨hmem, hname⟩ := user_eq_some_iff.mp hv
        have hafter := hlim' v (husers ▸ hmem) tier htier
        rw [hname, hcount, hhas] at hafter
        simp only [Bool.false_eq_true, if_false] at hafter
        omega
  · rintro hbelow v hv tier htier
    rw [husers] at hv
    by_cases hname : v.name = username
    · subst hname
      rw [hcount]
      rcases hbelow with hhas | hless
      · simpa [hhas] using hlim v hv tier htier
      · have := hless v (user_eq_some_iff.mpr ⟨hv, rfl⟩) tier htier
        split <;> omega
    · exact (reservationsCount_addReservation_le h hname).trans
        (hlim v hv tier htier)

end Database

end Adding

section Example

/-- Two users with a tier that allows one reservation, and some access entries. -/
def twoUsers
    (access : Table AccessRow.key) : Database where
  users :=
    { rows :=
        [⟨everyoneID, everyone, .anonymous, none, ⟨0, 0, 0⟩, false⟩,
          ⟨"u_a", "alice", .user, some ⟨"basic", 1⟩, ⟨0, 0, 0⟩, false⟩,
          ⟨"u_b", "bob", .user, some ⟨"basic", 1⟩, ⟨0, 0, 0⟩, false⟩]
      nodup := by decide }
  names_nodup := by decide
  names_allowed := by decide
  everyone_row := by decide
  access
  topicMeta := .empty
  contacts := .empty
  profiles := .empty

/-- An administrator lets alice into all topics of a team. -/
def teamDatabase
    (pattern : String)
    (h : allowedTopicPattern pattern = true) : Database :=
  twoUsers
    { rows := [⟨"u_a", .ofPattern pattern h, true, true, none, false⟩]
      nodup := by simp }

/-- Bob may reserve a topic of the team, although the entry of alice covers it. -/
theorem covered_topic_not_seen :
    (teamDatabase "team_*" (by decide)).allowReservation "bob" "team_a" =
        .ok () ∧
      ¬ Unclaimed (teamDatabase "team_*" (by decide)) "u_b" "team_a" := by
  constructor
  · decide +kernel
  · intro h
    have hlike := h _ List.mem_cons_self (by decide)
    revert hlike
    decide +kernel

/-- Without the underscore, the check agrees with the matching of `Authorize`. -/
theorem covered_topic_seen :
    (teamDatabase "team*" (by decide)).allowReservation "bob" "team_a" = .ok ()
      ↔
    Unclaimed (teamDatabase "team*" (by decide)) "u_b" "team_a" := by
  refine (allowReservation_agrees_iff (by decide) (by decide)).mpr ?_
  rintro -
  refine ⟨_, List.mem_cons_self, by decide, ?_, ?_⟩ <;> decide +kernel

end Example

end Manager
end CoopMessenger
