import CoopMessenger.Web.EventSource

/-!
# Polled messages

`Api.poll` of the web application: each line of the response to a poll is parsed, and
the messages that have an ID are kept.  The response arrives in chunks that may be cut
anywhere, even inside a character.

**Results.**
* `damages_chunks`: decoding chunk by chunk damages characters outside ASCII only.
* `poll_response`: every polled message arrives, in order, whatever the chunks are.
-/

namespace CoopMessenger
namespace Web

open Library Server Streams MessageJSON Util

section Chunks

/-- Chunks of a text, or of a text behind the rest of a character. -/
def DamagesDecoded (chunks : List (List UInt8)) : Prop :=
  (∀ s, chunks.flatten = encode s → Damages s (decoded chunks)) ∧
  ∀ q s, q ≠ [] → (∀ b ∈ q, Continuation b) → chunks.flatten = q ++ encode s →
    ∃ u t, decoded chunks = u ++ t ∧ (∀ d ∈ u, isASCII d = false) ∧ Damages s t

theorem decodeAfter_encode_nil
    (t : List Char) :
    decodeAfter 0 (encode t) = t := by
  have := decodeAfter_encode t []
  rwa [List.append_nil, decodeAfter, List.append_nil] at this

/-- A character of more than one byte is outside ASCII. -/
theorem isASCII_of_cut
    {c : Char} {p q : List UInt8}
    (h : String.utf8EncodeChar c = p ++ q)
    (hp : p ≠ [])
    (hq : q ≠ []) :
    isASCII c = false := by
  have hlength := congrArg List.length h
  have hp := List.length_pos_iff.mpr hp
  have hq := List.length_pos_iff.mpr hq
  rw [String.length_utf8EncodeChar, List.length_append] at hlength
  rw [isASCII, decide_eq_false_iff_not]
  intro hsmall
  have hone : c.utf8Size = 1 := by
    rw [Char.utf8Size_eq_one_iff]
    exact UInt32.le_iff_toNat_le.mpr (Nat.le_of_lt_succ hsmall)
  omega

theorem isASCII_replicate
    (n : Nat) :
    ∀ d ∈ List.replicate n '\ufffd', isASCII d = false := by
  intro d hd
  rw [List.eq_of_mem_replicate hd]
  rfl

theorem isASCII_of_mem_cons
    {cs : List Char}
    (h : ∀ d ∈ cs, d = '\ufffd') :
    ∀ d ∈ '\ufffd' :: cs, isASCII d = false := by
  intro d hd
  rcases List.mem_cons.mp hd with rfl | hd
  · rfl
  · rw [h d hd]
    rfl

theorem DamagesDecoded.cons_left
    {chunks : List (List UInt8)}
    (h : DamagesDecoded chunks)
    {chunk : List UInt8} {s : List Char}
    (hs : (chunk :: chunks).flatten = encode s) :
    Damages s (decoded (chunk :: chunks)) := by
  rw [List.flatten_cons] at hs
  rw [decoded, List.flatMap_cons, ← decoded]
  rcases cut_cases hs with ⟨t, t', rfl, rfl, hmore⟩ |
    ⟨t, c, t', p, q, rfl, hc, hp, hq, rfl, hmore⟩
  · rw [decodeAfter_encode_nil]
    exact (Damages.refl t).append (h.1 t' hmore)
  · obtain ⟨cs, hcs, hreplaced⟩ := decodeAfter_prefix hc hp hq
    have hcont : ∀ b ∈ q, Continuation b := by
      cases p with
      | nil => exact absurd rfl hp
      | cons b p =>
          exact fun d hd => continuation_of_encodeChar hc d (List.mem_append_right p hd)
    obtain ⟨u, t'', hdecoded, hu, hdamages⟩ := h.2 q t' hq hcont hmore
    have hother := Damages.other c (isASCII_of_cut hc hp hq) (('\ufffd' :: cs) ++ u)
      (fun d hd => (List.mem_append.mp hd).elim (isASCII_of_mem_cons hreplaced d) (hu d))
      hdamages
    rw [decodeAfter_encode, hcs, hdecoded, List.append_assoc, ← List.append_assoc _ u]
    exact (Damages.refl t).append hother

theorem DamagesDecoded.cons
    {chunks : List (List UInt8)}
    (h : DamagesDecoded chunks)
    (chunk : List UInt8) :
    DamagesDecoded (chunk :: chunks) := by
  refine ⟨fun s hs => h.cons_left hs, fun q s hq hcont hs => ?_⟩
  rw [List.flatten_cons] at hs
  rcases List.append_eq_append_iff.mp hs with ⟨q', rfl, hmore⟩ | ⟨chunk', rfl, hmore⟩
  · have hdecode : decodeAfter 0 chunk = List.replicate chunk.length '\ufffd' := by
      have := decodeAfter_continuations (fun b hb => hcont b (List.mem_append_left q' hb)) []
      rwa [List.append_nil, decodeAfter, List.append_nil] at this
    rw [decoded, List.flatMap_cons, ← decoded, hdecode]
    by_cases hq' : q' = []
    · subst hq'
      exact ⟨_, _, rfl, isASCII_replicate _, h.1 s hmore⟩
    · obtain ⟨u, t, hdecoded, hu, hdamages⟩ :=
        h.2 q' s hq' (fun b hb => hcont b (List.mem_append_right chunk hb)) hmore
      refine ⟨List.replicate chunk.length '\ufffd' ++ u, t, ?_, fun d hd => ?_, hdamages⟩
      · rw [hdecoded, List.append_assoc]
      · exact (List.mem_append.mp hd).elim (isASCII_replicate _ d) (hu d)
  · have hdamages := h.cons_left (show (chunk' :: chunks).flatten = encode s from hmore.symm)
    refine ⟨List.replicate q.length '\ufffd', decoded (chunk' :: chunks), ?_,
      isASCII_replicate _, hdamages⟩
    rw [decoded, List.flatMap_cons, decodeAfter_continuations hcont, List.append_assoc]
    rfl

theorem damagesDecoded
    (chunks : List (List UInt8)) :
    DamagesDecoded chunks := by
  induction chunks with
  | nil =>
      constructor
      · intro s hs
        rw [List.flatten_nil, eq_comm, encode_eq_nil_iff] at hs
        subst hs
        exact .nil
      · intro q s hq _ hs
        rw [List.flatten_nil, eq_comm, List.append_eq_nil_iff] at hs
        exact absurd hs.1 hq
  | cons chunk chunks ih =>
      exact ih.cons chunk

/-- A byte order mark that is dropped is no damage within ASCII. -/
theorem damages_dropMark
    (t : List Char) :
    Damages t (dropMark t) := by
  cases t with
  | nil =>
      exact .nil
  | cons c t =>
      rw [dropMark]
      split
      case isTrue hmark =>
        rw [hmark]
        exact .other mark rfl [] (by simp) (.refl t)
      case isFalse =>
        exact .refl _

/-- Decoding chunk by chunk damages characters outside ASCII only. -/
theorem damages_chunks
    {chunks : List (List UInt8)} {s : List Char}
    (h : chunks.flatten = encode s) :
    Damages s (chunks.flatMap decode) := by
  refine ((damagesDecoded chunks).1 s h).trans ?_
  clear h
  induction chunks with
  | nil =>
      exact .nil
  | cons chunk chunks ih =>
      rw [decoded, List.flatMap_cons, ← decoded, List.flatMap_cons, decode_eq]
      exact (damages_dropMark _).append ih

/-- Chunks that are cut between characters, none with a mark at its beginning, are exact. -/
theorem flatMap_decode
    {chunks : List (List UInt8)} {s : List Char}
    (h : chunks.flatten = encode s)
    (hcut : ∀ chunk ∈ chunks, ∃ t, chunk = encode t ∧ t.head? ≠ some mark) :
    chunks.flatMap decode = s := by
  have hflat : chunks.flatten = encode (chunks.flatMap decode) := by
    clear h
    induction chunks with
    | nil =>
        rfl
    | cons chunk chunks ih =>
        obtain ⟨t, rfl, hmark⟩ := hcut chunk List.mem_cons_self
        rw [List.flatten_cons, List.flatMap_cons, decode_eq, decodeAfter_encode_nil,
          head?_of_dropMark hmark,
          ih fun chunk hchunk => hcut chunk (List.mem_cons_of_mem _ hchunk)]
        exact (List.flatMap_append).symm
  have heq := congrArg (decodeAfter 0) (hflat.symm.trans h)
  rwa [decodeAfter_encode_nil, decodeAfter_encode_nil] at heq

end Chunks

section Lines

/-- The lines of texts that have no line breaks. -/
theorem splitFrom_flatMap
    {lines : List (List Char)}
    (h : ∀ line ∈ lines, ∀ c ∈ line, isBreak c = false) :
    splitFrom [] (lines.flatMap (· ++ ['\n'])) = lines := by
  induction lines with
  | nil =>
      rfl
  | cons line lines ih =>
      rw [List.flatMap_cons, List.append_assoc,
        splitFrom_append (h line List.mem_cons_self), List.singleton_append, splitFrom,
        if_pos (show isBreak '\n' = true from rfl), List.nil_append,
        ih fun l hl => h l (List.mem_cons_of_mem line hl)]

/-- The lines of a damaged text are damaged lines. -/
theorem exists_lines_of_damages
    {lines : List (List Char)} {t : List Char}
    (h : Damages (lines.flatMap (· ++ ['\n'])) t)
    (hlines : ∀ line ∈ lines, ∀ c ∈ line, isBreak c = false) :
    List.Forall₂ Damages lines (splitFrom [] t) := by
  induction lines generalizing t with
  | nil =>
      cases h
      exact .nil
  | cons line lines ih =>
      rw [List.flatMap_cons, List.append_assoc, List.singleton_append] at h
      obtain ⟨u, t', rfl, hline, hrest⟩ := h.exists_of_append_cons (c := '\n') rfl
      have hplain : ∀ c ∈ u, isBreak c = false := by
        intro c hc
        rw [Bool.eq_false_iff]
        intro hbreak
        have hascii : isASCII c = true := by
          rw [isBreak, Bool.or_eq_true, decide_eq_true_eq, decide_eq_true_eq] at hbreak
          rcases hbreak with rfl | rfl <;> rfl
        have hnot := hlines line List.mem_cons_self c (hline.mem_of_ascii hc hascii)
        rw [hbreak] at hnot
        cases hnot
      rw [splitFrom_append hplain, splitFrom, if_pos (show isBreak '\n' = true from rfl),
        List.nil_append]
      exact .cons hline (ih hrest fun l hl => hlines l (List.mem_cons_of_mem line hl))

end Lines

section Poll

/-- What counts as true; a number does not if all its digits are zeros. -/
def truthy : Json → Bool
  | .null => false
  | .bool b => b
  | .num literal =>
      (literal.takeWhile (fun c => c ≠ 'e' ∧ c ≠ 'E')).any (fun c => c.isDigit ∧ c ≠ '0')
  | .str s => s ≠ ""
  | .arr _ | .obj _ => true

/-- `message.id` is there. -/
def hasID (j : Json) : Bool :=
  (j.field? "id").any truthy

/-- `JSON.parse` of a line; `null` has no fields. -/
def parseLine (line : List Char) : Option Json :=
  match Json.parse line with
  | some .null => none
  | j => j

/-- `Api.poll`, or `none` where it throws. -/
def poll (chunks : List (List UInt8)) : Option (List Json) :=
  ((fetchLines chunks).mapM parseLine).map (·.filter hasID)

/-- A value that arrives for a message. -/
structure Arrives (m : Message) (j : Json) : Prop where
  similar : Json.Similar (messageValue (Publish.forJSON m)) j
  id : j.field? "id" = some (.str m.id)

theorem forJSON_id
    (m : Message) :
    (Publish.forJSON m).id = m.id := by
  unfold Publish.forJSON
  split <;> rfl

theorem isASCII_of_validMessageID
    {id : String}
    (h : validMessageID id = true) :
    (∀ c ∈ id.toList, isASCII c = true) ∧ id ≠ "" := by
  rw [validMessageID, Bool.and_eq_true, decide_eq_true_eq, List.all_eq_true] at h
  refine ⟨fun c hc => ?_, ?_⟩
  · have halnum : c.isAlphanum = true := h.2 c hc
    rw [isASCII, decide_eq_true_eq]
    delta Char.isAlphanum Char.isAlpha Char.isUpper Char.isLower Char.isDigit at halnum
    simp only [Bool.or_eq_true, Bool.and_eq_true, decide_eq_true_eq, ge_iff_le,
      UInt32.le_iff_toNat_le] at halnum
    have h1 : ('Z' : Char).val.toNat = 90 := rfl
    have h2 : ('z' : Char).val.toNat = 122 := rfl
    have h3 : ('9' : Char).val.toNat = 57 := rfl
    have h4 : c.toNat = c.val.toNat := rfl
    omega
  · rintro rfl
    exact absurd h.1 (by decide)

/-- The line of a message, damaged or not, is parsed. -/
theorem exists_parseLine
    {m : Message} {line : List Char}
    (hid : validMessageID m.id = true)
    (h : Damages (marshalMessage (Publish.forJSON m)) line) :
    ∃ j, parseLine line = some j ∧ Arrives m j ∧ hasID j = true := by
  obtain ⟨hascii, hne⟩ := isASCII_of_validMessageID hid
  obtain ⟨j, hparse, hsimilar⟩ := Json.exists_parse_of_damages h (parse_marshalMessage _)
  obtain ⟨v, hv, hvalue⟩ := Json.Similar.exists_field hsimilar
    (isASCII_of_mem_names (Publish.forJSON m)) (field?_id (Publish.forJSON m))
  rw [forJSON_id] at hvalue
  rw [hvalue.eq_of_ascii hascii] at hv
  refine ⟨j, ?_, ⟨hsimilar, hv⟩, ?_⟩
  · cases hsimilar
    rw [parseLine, hparse]
  · rw [hasID, hv]
    simpa [truthy] using hne

theorem exists_mapM_parseLine
    {ms : List Message} {lines : List (List Char)}
    (hids : ∀ m ∈ ms, validMessageID m.id = true)
    (h : List.Forall₂ (fun m => Damages (marshalMessage (Publish.forJSON m))) ms lines) :
    ∃ js, lines.mapM parseLine = some js ∧ List.Forall₂ Arrives ms js ∧
      js.filter hasID = js := by
  induction h with
  | nil =>
      exact ⟨[], rfl, .nil, rfl⟩
  | @cons m line ms lines hline _ ih =>
      obtain ⟨j, hparse, harrives, hid⟩ := exists_parseLine (hids m List.mem_cons_self) hline
      obtain ⟨js, hjs, hrest, hfilter⟩ := ih fun k hk => hids k (List.mem_cons_of_mem m hk)
      refine ⟨j :: js, ?_, .cons harrives hrest, ?_⟩
      · rw [List.mapM_cons, hparse, hjs]
        rfl
      · rw [List.filter_cons_of_pos hid, hfilter]

/-- Without damage the values are those of the messages. -/
theorem mapM_parseLine
    (ms : List Message) :
    (ms.map (fun m => marshalMessage (Publish.forJSON m))).mapM parseLine =
      some (ms.map (fun m => messageValue (Publish.forJSON m))) := by
  rw [mapM_eq_some_iff, List.forall₂_map_left_iff, List.forall₂_map_right_iff,
    List.forall₂_same]
  intro m _
  rw [parseLine, parse_marshalMessage]
  rfl

/--
Every message of a response arrives, in order and once.  What chunks that are cut inside a
character do to its text stays within the strings, and chunks cut elsewhere do nothing.
-/
theorem poll_of_flatten
    {ms : List Message}
    (hids : ∀ m ∈ ms, validMessageID m.id = true)
    {chunks : List (List UInt8)}
    (hchunks : chunks.flatten = encode (ms.flatMap encodeJSON)) :
    ∃ js, poll chunks = some js ∧ List.Forall₂ Arrives ms js ∧
      ((∀ chunk ∈ chunks, ∃ t, chunk = encode t ∧ t.head? ≠ some mark) →
        js = ms.map (fun m => messageValue (Publish.forJSON m))) := by
  have htext : ms.flatMap encodeJSON =
      (ms.map (fun m => marshalMessage (Publish.forJSON m))).flatMap (· ++ ['\n']) := by
    rw [List.flatMap_map]
    rfl
  have hplain : ∀ line ∈ ms.map (fun m => marshalMessage (Publish.forJSON m)),
      ∀ c ∈ line, isBreak c = false := by
    intro line hline
    obtain ⟨m, -, rfl⟩ := List.mem_map.mp hline
    exact isBreak_of_plain (plain_marshalMessage _)
  have hdamages := damages_chunks hchunks
  rw [htext] at hdamages
  have hlines := exists_lines_of_damages hdamages hplain
  rw [List.forall₂_map_left_iff, ← fetchLines_eq] at hlines
  obtain ⟨js, hjs, harrive, hfilter⟩ := exists_mapM_parseLine hids hlines
  refine ⟨js, by rw [poll, hjs, Option.map_some, hfilter], harrive, fun hcut => ?_⟩
  have hexact : fetchLines chunks = ms.map (fun m => marshalMessage (Publish.forJSON m)) := by
    rw [fetchLines_eq, flatMap_decode hchunks hcut, htext, splitFrom_flatMap hplain]
  rw [hexact, mapM_parseLine] at hjs
  exact (Option.some.inj hjs).symm

end Poll

end Web
end CoopMessenger
