import CoopMessenger.Server.Publish
import CoopMessenger.Util.Durations
import Mathlib.Algebra.Group.Int.Defs

/-!
# Messages since a time

`parseSince` of `server/server.go` tries the `since` parameter as a keyword, a
message ID, a timestamp and a duration.  The marker for no messages is the time 1,
a number of twelve digits is taken for a message ID, and a number that is no 64-bit
integer is refused.

**Results.**
* `select_exactly_iff`: when a query returns the messages from a time on.
* `since_time_exact_iff`: when a timestamp gets the messages from this time on.
-/

namespace CoopMessenger
namespace Server

open Library Util

namespace SinceTimes

open Publish

section Model

/-- The marker of a request; `now` is in nanoseconds. -/
def parseSince
    (P : Parsers)
    (req : Request)
    (now : Int)
    (poll : Bool) : Except ErrHTTP SinceMarker :=
  let since := readParam P req ["x-since", "since", "si"]
  if since = "" then
    if poll then .ok sinceAllMessages else .ok sinceNoMessages
  else if since = "all" then
    .ok sinceAllMessages
  else if since = "latest" then
    .ok sinceLatestMessage
  else if since = "none" then
    .ok sinceNoMessages
  else if validMessageID since then
    .ok (newSinceID since)
  else
    match parseInt since with
    | some timestamp => .ok (newSinceTime timestamp)
    | none =>
        match parseDuration since with
        | some d => .ok (newSinceTime ((now - d) / 10 ^ 9))
        | none => .error errHTTPBadRequestSinceInvalid

/-- The published messages of the topic from a time on, each once and in order. -/
def ExactlySince
    (c : MessageCache)
    (topic : String)
    (t : Nat)
    (result : List Message) : Prop :=
  ∃ rows : List StoredMessage,
    rows.Pairwise (fun r r' => r.order < r'.order) ∧
      (∀ r, r ∈ rows ↔ r ∈ c.rows ∧ r.message.topic = topic ∧
        r.published = true ∧ t ≤ r.message.time) ∧
      result = rows.map StoredMessage.message

/-- What has to hold for a number to be understood as a timestamp, or not to matter. -/
def Understood
    (c : MessageCache)
    (topic : String)
    (t : Nat) : Prop :=
  t < 2 ^ 63 ∧
    (t = 1 → ∀ r ∈ c.rows, r.message.topic = topic → r.published = true →
      r.message.time = 0) ∧
    ((toString t).toList.length = 12 → ∀ r ∈ c.rows, r.message.topic = topic →
      r.published = true →
        match c.rowID? (toString t) with
        | none => t ≤ r.message.time
        | some rowID => rowID < r.rowID ↔ t ≤ r.message.time)

end Model

section Numbers

theorem isDigit_of_mem_toString
    {t : Nat} {c : Char}
    (hc : c ∈ (toString t).toList) :
    c.isDigit = true := by
  have hmem : c ∈ Nat.toDigits 10 t := by
    simpa using hc
  exact Nat.isDigit_of_mem_toDigits (by decide) (by decide) hmem

theorem toString_ne_nil
    (t : Nat) :
    (toString t).toList ≠ [] := by
  simp

/-- A timestamp is none of the keywords. -/
theorem toString_ne_keyword
    (t : Nat) :
    toString t ≠ "" ∧ toString t ≠ "all" ∧ toString t ≠ "latest" ∧
      toString t ≠ "none" := by
  have hne : ∀ s : String, s.toList.any (fun c => !c.isDigit) = true →
      toString t ≠ s := by
    intro s hs heq
    obtain ⟨c, hc, hdigit⟩ := List.any_eq_true.mp hs
    rw [← heq] at hc
    simp [isDigit_of_mem_toString hc] at hdigit
  refine ⟨fun hempty => ?_, hne "all" (by decide), hne "latest" (by decide),
    hne "none" (by decide)⟩
  exact toString_ne_nil t (by rw [hempty]; rfl)

/-- Only a number that fits into 64 bits is an integer, and it is the number. -/
theorem parseInt_toString
    (t : Nat) :
    parseInt (toString t) = if t < 2 ^ 63 then some (t : Int) else none := by
  have hdecimal : decimal (toString t).toList = t := by
    have hdigits : (toString t).toList = Nat.toDigits 10 t := by
      simp
    rw [hdigits]
    exact Nat.ofDigitChars_ten_toDigits
  have hall : (toString t).toList.all Char.isDigit = true :=
    List.all_eq_true.mpr fun c hc => isDigit_of_mem_toString hc
  rw [parseInt]
  split
  next negative digits hsplit =>
    have heq : negative = false ∧ digits = (toString t).toList := by
      split at hsplit
      · next rest hlist =>
          exact absurd (isDigit_of_mem_toString (hlist ▸ List.mem_cons_self))
            (by decide)
      · next rest hlist =>
          exact absurd (isDigit_of_mem_toString (hlist ▸ List.mem_cons_self))
            (by decide)
      · cases hsplit
        exact ⟨rfl, rfl⟩
    obtain ⟨rfl, rfl⟩ := heq
    rw [hall, hdecimal]
    simp

/-- What the parameter is taken for. -/
theorem parseSince_toString
    {P : Parsers} {req : Request} {now : Int} {poll : Bool} {t : Nat}
    (hparam : readParam P req ["x-since", "since", "si"] = toString t) :
    parseSince P req now poll =
      if (toString t).toList.length = 12 then
        .ok (newSinceID (toString t))
      else if t < 2 ^ 63 then
        .ok (newSinceTime t)
      else
        .error errHTTPBadRequestSinceInvalid := by
  obtain ⟨hempty, hall, hlatest, hnone⟩ := toString_ne_keyword t
  have hvalid : validMessageID (toString t) =
      decide ((toString t).toList.length = 12) := by
    have halnum : (toString t).toList.all Char.isAlphanum = true := by
      refine List.all_eq_true.mpr fun c hc => ?_
      simp [Char.isAlphanum, isDigit_of_mem_toString hc]
    rw [validMessageID, halnum, Bool.and_true]
  rw [parseSince]
  simp only [hparam, if_neg hempty, if_neg hall, if_neg hlatest, if_neg hnone,
    hvalid, decide_eq_true_eq, parseInt_toString]
  by_cases hlength : (toString t).toList.length = 12
  · rw [if_pos hlength, if_pos hlength]
  · rw [if_neg hlength, if_neg hlength]
    by_cases hlt : t < 2 ^ 63
    · rw [if_pos hlt, if_pos hlt]
    · rw [if_neg hlt, if_neg hlt]
      have hzero : toString t ≠ "0" := by
        intro heq
        have hint := parseInt_toString t
        rw [heq, if_neg hlt] at hint
        cases hint
      rw [parseDuration_of_digits hempty hzero fun c hc => isDigit_of_mem_toString hc]

end Numbers

section Queries

variable {c : MessageCache}
variable {topic : String}
variable {t : Nat}

/-- The rows that are wanted. -/
def wanted
    (topic : String)
    (t : Nat)
    (r : StoredMessage) : Bool :=
  decide (r.message.topic = topic) && r.published && decide (t ≤ r.message.time)

theorem ne_of_order_lt
    {r r' : StoredMessage}
    (h : r.order < r'.order) :
    r ≠ r' := by
  rintro rfl
  exact lt_irrefl _ h

/-- The wanted rows in order are the result. -/
theorem exactlySince_iff
    {result : List Message} :
    ExactlySince c topic t result ↔ result = c.select (wanted topic t) := by
  have hsorted : (orderBy StoredMessage.order
      (c.rows.filter (wanted topic t))).Pairwise (fun r r' => r.order < r'.order) := by
    have hnodup : (c.rows.filter (wanted topic t)).Nodup :=
      (List.Pairwise.imp (fun h heq => by simp [heq] at h) c.increasing).filter _
    have hperm : (orderBy StoredMessage.order (c.rows.filter (wanted topic t))).Perm _ :=
      perm_orderBy
    refine ((pairwise_orderBy).and (hperm.nodup_iff.mpr hnodup)).imp_of_mem ?_
    rintro r r' hr hr' ⟨hle, hne⟩
    refine lt_of_le_of_ne hle fun heq => hne ?_
    have hrow : r.rowID = r'.rowID := by
      have hpair := toLex.injective heq
      exact (Prod.mk.inj hpair).2
    exact MessageCache.eq_of_rowID_eq (List.mem_of_mem_filter (mem_orderBy.mp hr))
      (List.mem_of_mem_filter (mem_orderBy.mp hr')) hrow
  constructor
  · rintro ⟨rows, hrows, hmem, rfl⟩
    have hperm : rows.Perm
        (orderBy StoredMessage.order (c.rows.filter (wanted topic t))) := by
      refine (List.perm_ext_iff_of_nodup (hrows.imp ne_of_order_lt)
        (hsorted.imp ne_of_order_lt)).mpr fun r => ?_
      simp [hmem, wanted, and_assoc]
    have heq : rows = orderBy StoredMessage.order (c.rows.filter (wanted topic t)) :=
      hperm.eq_of_pairwise (fun r r' _ _ hlt hgt => absurd hlt hgt.not_gt) hrows hsorted
    rw [heq]
    rfl
  · rintro rfl
    refine ⟨_, hsorted, fun r => ?_, rfl⟩
    simp [wanted, and_assoc]

/-- When a query returns the messages from a time on. -/
theorem select_exactly_iff
    {p : StoredMessage → Bool}
    (hp : ∀ r ∈ c.rows, p r = true → r.message.topic = topic ∧ r.published = true) :
    ExactlySince c topic t (c.select p) ↔
      ∀ r ∈ c.rows, r.message.topic = topic → r.published = true →
        (p r = true ↔ t ≤ r.message.time) := by
  rw [exactlySince_iff]
  constructor
  · intro hselect
    -- what the query returns is wanted, since messages tell their topic and time
    have hsub : ∀ r ∈ c.rows, p r = true → wanted topic t r = true := by
      intro r hr hpr
      have hmem : r.message ∈ c.select (wanted topic t) :=
        hselect ▸ MessageCache.mem_select_iff.mpr ⟨r, hr, hpr, rfl⟩
      obtain ⟨r', -, hwanted, hmessage⟩ := MessageCache.mem_select_iff.mp hmem
      obtain ⟨htopic, hpublished⟩ := hp r hr hpr
      simp only [wanted, Bool.and_eq_true, decide_eq_true_eq] at hwanted ⊢
      exact ⟨⟨htopic, hpublished⟩, hmessage ▸ hwanted.2⟩
    have hlength : (c.rows.filter p).length =
        (c.rows.filter (wanted topic t)).length := by
      have hlengths := congrArg List.length hselect
      simpa [MessageCache.select, perm_orderBy.length_eq] using hlengths
    have hfilter : c.rows.filter p = c.rows.filter (wanted topic t) := by
      have hsublist : (c.rows.filter p).Sublist (c.rows.filter (wanted topic t)) := by
        have heq : (c.rows.filter (wanted topic t)).filter p = c.rows.filter p := by
          rw [List.filter_filter]
          refine List.filter_congr fun r hr => ?_
          cases hpr : p r with
          | true =>
              rw [hsub r hr hpr]
              rfl
          | false =>
              rfl
        rw [← heq]
        exact List.filter_sublist
      exact hsublist.eq_of_length hlength
    intro r hr htopic hpublished
    have hmem : r ∈ c.rows.filter p ↔ r ∈ c.rows.filter (wanted topic t) := by
      rw [hfilter]
    simpa [hr, wanted, htopic, hpublished] using hmem
  · intro h
    have hfilter : c.rows.filter p = c.rows.filter (wanted topic t) := by
      refine List.filter_congr fun r hr => ?_
      rw [Bool.eq_iff_iff]
      constructor
      · intro hpr
        obtain ⟨htopic, hpublished⟩ := hp r hr hpr
        simp [wanted, htopic, hpublished, (h r hr htopic hpublished).mp hpr]
      · intro hwanted
        simp only [wanted, Bool.and_eq_true, decide_eq_true_eq] at hwanted
        exact (h r hr hwanted.1.1 hwanted.1.2).mpr hwanted.2
    rw [MessageCache.select, hfilter]
    rfl

end Queries

section Timestamps

variable {c : MessageCache}
variable {topic : String}
variable {t : Nat}

/-- The time 1 gets nothing. -/
theorem exactlySince_one_iff :
    ExactlySince c topic 1 (c.messages topic (newSinceTime 1) false) ↔
      ∀ r ∈ c.rows, r.message.topic = topic → r.published = true →
        r.message.time = 0 := by
  have hnothing : c.messages topic (newSinceTime 1) false =
      c.select (fun _ => false) := by
    simp [MessageCache.messages, MessageCache.select, SinceMarker.isNone,
      newSinceTime, sinceNoMessages, orderBy]
  rw [hnothing, select_exactly_iff (by simp)]
  simp only [Bool.false_eq_true, false_iff]
  refine forall₄_congr fun r _ _ _ => ?_
  omega

/-- Any other time gets the messages from it on. -/
theorem exactlySince_newSinceTime
    (ht : t ≠ 1) :
    ExactlySince c topic t (c.messages topic (newSinceTime t) false) := by
  have hmarker : (newSinceTime t).isNone = false ∧ (newSinceTime t).isLatest = false ∧
      (newSinceTime t).isID = false := by
    refine ⟨?_, ?_, ?_⟩
    · simp only [SinceMarker.isNone, newSinceTime, sinceNoMessages, SinceMarker.mk.injEq,
        and_true, decide_eq_false_iff_not]
      omega
    · simp [SinceMarker.isLatest, newSinceTime, sinceLatestMessage]
    · simp [SinceMarker.isID, newSinceTime]
  rw [MessageCache.messages, hmarker.1, hmarker.2.1, hmarker.2.2]
  refine exactlySince_iff.mpr ?_
  simp only [Bool.false_eq_true, if_false, MessageCache.messagesSinceTime,
    Bool.false_or]
  congr 1
  funext r
  have htime : decide ((newSinceTime t).time ≤ (r.message.time : Int)) =
      decide (t ≤ r.message.time) := by
    rw [decide_eq_decide, newSinceTime]
    exact Int.ofNat_le
  rw [htime, wanted, Bool.and_right_comm]

/-- A message ID gets the newer messages, or all of them. -/
theorem exactlySince_newSinceID_iff
    {id : String}
    (hvalid : validMessageID id = true) :
    ExactlySince c topic t (c.messages topic (newSinceID id) false) ↔
      ∀ r ∈ c.rows, r.message.topic = topic → r.published = true →
        match c.rowID? id with
        | none => t ≤ r.message.time
        | some rowID => rowID < r.rowID ↔ t ≤ r.message.time := by
  obtain ⟨hnone, hlatest, hid⟩ := SinceMarker.newSinceID_of_valid hvalid
  rw [MessageCache.messages, hnone, hlatest, hid]
  simp only [Bool.false_eq_true, if_false, if_true, MessageCache.messagesSinceID]
  cases hrow : c.rowID? (newSinceID id).id with
  | none =>
      have hrow' : c.rowID? id = none := hrow
      simp only [hrow', MessageCache.messagesSinceTime, sinceAllMessages]
      rw [select_exactly_iff (by simp +contextual)]
      refine forall₄_congr fun r _ htopic hpublished => ?_
      simp [htopic, hpublished]
  | some rowID =>
      have hrow' : c.rowID? id = some rowID := hrow
      simp only [hrow']
      rw [select_exactly_iff (by simp +contextual)]
      refine forall₄_congr fun r _ htopic hpublished => ?_
      simp [htopic, hpublished]

theorem exactlySince_newSinceID_understood
    (hvalid : validMessageID (toString t) = true)
    (hone : t ≠ 1)
    (hlt : t < 10 ^ 12)
    (hlength : (toString t).toList.length = 12) :
    ExactlySince c topic t (c.messages topic (newSinceID (toString t)) false) ↔
      Understood c topic t := by
  rw [exactlySince_newSinceID_iff hvalid]
  have hfits : t < 2 ^ 63 := by
    omega
  constructor
  · exact fun h => ⟨hfits, fun heq => absurd heq hone, fun _ => h⟩
  · exact fun h => h.2.2 hlength

/-- When a timestamp gets the messages from this time on. -/
theorem since_time_exact_iff
    {P : Parsers} {req : Request} {now : Int} {poll : Bool}
    (hparam : readParam P req ["x-since", "since", "si"] = toString t) :
    (∃ marker, parseSince P req now poll = .ok marker ∧
      ExactlySince c topic t (c.messages topic marker false)) ↔
        Understood c topic t := by
  rw [parseSince_toString hparam]
  by_cases hlength : (toString t).toList.length = 12
  · have hlt : t < 10 ^ 12 := by
      have hdigits : (Nat.toDigits 10 t).length ≤ 12 := by
        simpa using hlength.le
      exact (Nat.length_toDigits_le_iff (by decide) (by decide)).mp hdigits
    have hne : t ≠ 1 := by
      rintro rfl
      revert hlength
      decide
    have hvalid : validMessageID (toString t) = true := by
      have halnum : (toString t).toList.all Char.isAlphanum = true := by
        refine List.all_eq_true.mpr fun c hc => ?_
        simp [Char.isAlphanum, isDigit_of_mem_toString hc]
      rw [validMessageID, halnum, decide_eq_true hlength, Bool.true_and]
    rw [if_pos hlength, ← exactlySince_newSinceID_understood hvalid hne hlt hlength]
    simp
  · rw [if_neg hlength]
    by_cases hlt : t < 2 ^ 63
    · rw [if_pos hlt]
      have hunderstood : Understood c topic t ↔ (t = 1 → ∀ r ∈ c.rows,
          r.message.topic = topic → r.published = true → r.message.time = 0) :=
        ⟨fun h => h.2.1, fun h => ⟨hlt, h, fun hdigits => absurd hdigits hlength⟩⟩
      rw [hunderstood]
      by_cases hone : t = 1
      · subst hone
        simpa using exactlySince_one_iff
      · simpa [hone] using exactlySince_newSinceTime hone
    · rw [if_neg hlt]
      refine iff_of_false ?_ fun h => hlt h.1
      rintro ⟨marker, hmarker, -⟩
      cases hmarker

end Timestamps

section FirstSecond

/-- What other packages parse plays no part. -/
def noParsers : Parsers where
  decodeHeader := some
  urlPath := fun _ => none
  parseFutureTime := fun _ _ => none
  parseActions := fun _ => .ok []
  mimetype := fun _ => ("", "")
  templateFile := fun _ => .error errHTTPBadRequestTemplateFileNotFound
  renderTemplate := fun _ _ => .error errHTTPBadRequestTemplateFileNotFound

def sinceRequest (since : String) : Request where
  method := "GET"
  path := "/news/json"
  header := fun _ => ""
  query := fun n => if n = "since" then since else ""
  body := []

/-- A cache with one message. -/
def newsCache : MessageCache :=
  MessageCache.empty.insert 1700000000
    (newDefaultMessage "aaaaaaaaaaaa" 1700000000 "news" "hi")

/-- No messages are returned for the time 1. -/
theorem since_one_gets_nothing :
    readParam noParsers (sinceRequest "1") ["x-since", "since", "si"] = toString 1 ∧
      ¬ ∃ marker, parseSince noParsers (sinceRequest "1") 0 true = .ok marker ∧
        ExactlySince newsCache "news" 1 (newsCache.messages "news" marker false) := by
  have hparam : readParam noParsers (sinceRequest "1") ["x-since", "since", "si"] =
      toString 1 := by
    decide
  refine ⟨hparam, ?_⟩
  rintro ⟨marker, hmarker, hexact⟩
  rw [parseSince_toString hparam] at hmarker
  cases hmarker
  have htime := exactlySince_one_iff.mp hexact
    ⟨1, newDefaultMessage "aaaaaaaaaaaa" 1700000000 "news" "hi", true⟩
    (by simp [newsCache, MessageCache.insert, MessageCache.empty, newDefaultMessage,
      newMessage]) rfl rfl
  cases htime

theorem since_two_decided :
    (∃ marker, parseSince noParsers (sinceRequest "2") 0 true = .ok marker ∧
      ExactlySince newsCache "news" 2 (newsCache.messages "news" marker false)) ↔
        Understood newsCache "news" 2 :=
  since_time_exact_iff (by decide)

end FirstSecond

end SinceTimes

end Server
end CoopMessenger
