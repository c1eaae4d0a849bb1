import CoopMessenger.Library.Json
import CoopMessenger.Server.Truncations
import CoopMessenger.Util.RuneCuts
import Mathlib.Algebra.BigOperators.Group.List.Basic

/-!
# Payloads for Firebase

What Firebase gets of a message that not everyone may read, and how large a message is
after it has been cut.  The number of bytes to cut is taken from the serialized message,
but a byte that is left of a character takes six bytes there.

**Results.**
* `toFirebaseMessage_unreadable`: a message that not everyone may read is sent alike,
  whatever it says.
* `length_jsonString`, `length_jsonString_take`: how long a text is between quotes, and
  how long it is when it is cut.
* `length_cut`: how large a message is after it has been cut.
* `fcm_payload_fits_iff`: which messages fit then.
-/

namespace CoopMessenger
namespace Server

open Library Util Truncations

namespace FirebasePayloads

section Secrecy

variable {marshal : FirebaseMessage → Option (List UInt8)}
variable {auther : Auther}
variable {m m' : Message}

/-- What Firebase may know of a message. -/
structure SamePublic (m m' : Message) : Prop where
  id : m.id = m'.id
  time : m.time = m'.time
  topic : m.topic = m'.topic
  priority : m.priority = m'.priority
  contentType : m.contentType = m'.contentType
  encoding : m.encoding = m'.encoding

theorem SamePublic.toPollRequest
    (h : SamePublic m m') :
    toPollRequest m = toPollRequest m' := by
  rw [Truncations.toPollRequest, Truncations.toPollRequest, h.id, h.time, h.topic, h.priority,
    h.contentType, h.encoding]

/-- Every part is one of the poll request. -/
theorem firebaseParts_unreadable
    (hevent : m.event = .message)
    (hread : auther.readable m.topic = false) :
    firebaseParts m auther =
      (toPollRequest m, messageData (toPollRequest m),
        some (createAPNSAlertConfig (toPollRequest m) (messageData (toPollRequest m)))) := by
  rw [firebaseParts, hevent]
  simp only [hread, Bool.false_eq_true, if_false]

/-- Two messages that differ in what is not public are sent alike. -/
theorem toFirebaseMessage_unreadable
    (hevent : m.event = .message)
    (hevent' : m'.event = .message)
    (hread : auther.readable m.topic = false)
    (hsame : SamePublic m m') :
    toFirebaseMessage marshal m auther = toFirebaseMessage marshal m' auther := by
  have hread' : auther.readable m'.topic = false := by
    rw [← hsame.topic, hread]
  have hparts : firebaseParts m auther = firebaseParts m' auther := by
    rw [firebaseParts_unreadable hevent hread, firebaseParts_unreadable hevent' hread',
      hsame.toPollRequest]
  rw [toFirebaseMessage, toFirebaseMessage, uncutMessage, uncutMessage, hparts]

/-- A message with a text, tags, and an address to click. -/
def secretMessage : Message :=
  { newDefaultMessage "mmmmmmmmmmmm" 1000 "news" "the code is 1234" with
    title := "Secret"
    tags := ["key"]
    click := "https://example.com/1234" }

/-- The fields of the poll request in JSON. -/
def pollFields : String :=
  "\"click\":\"\",\"content_type\":\"\",\"encoding\":\"\",\"event\":\"poll_request\"," ++
    "\"icon\":\"\",\"id\":\"mmmmmmmmmmmm\",\"message\":\"New message\"," ++
    "\"poll_id\":\"mmmmmmmmmmmm\",\"priority\":\"0\",\"sequence_id\":\"\",\"tags\":\"\"," ++
    "\"time\":\"1000\",\"title\":\"\",\"topic\":\"news\""

/-- What the poll request is serialized to. -/
def pollText : String :=
  "\x7b\"topic\":\"news\",\"data\":\x7b" ++ pollFields ++
    "\x7d,\"apns\":\x7b\"payload\":\x7b\"aps\":\x7b\"alert\":\x7b\"body\":\"New message\"" ++
    "\x7d,\"mutable-content\":1\x7d," ++ pollFields ++ "\x7d\x7d\x7d"

/-- Only the ID, the time and the topic are the same. -/
theorem secret_unreadable :
    toFirebaseMessage (fun _ => some (bytesOf pollText)) secretMessage (some fun _ => false) =
      toFirebaseMessage (fun _ => some (bytesOf pollText))
        (newDefaultMessage "mmmmmmmmmmmm" 1000 "news" "hi") (some fun _ => false) :=
  toFirebaseMessage_unreadable rfl rfl rfl ⟨rfl, rfl, rfl, rfl, rfl, rfl⟩

end Secrecy

section Texts

/-- What a rune is between quotes; `encoding/json` replaces an invalid byte. -/
def jsonRune : Option Char → List UInt8
  | some c => bytesOf (String.ofList (Json.escape c))
  | none => bytesOf "\\ufffd"

def jsonRunes (rs : List (Option Char)) : List UInt8 :=
  rs.flatMap jsonRune

/-- A string in quotes. -/
def jsonString (s : List UInt8) : List UInt8 :=
  bytesOf "\"" ++ jsonRunes (runes s) ++ bytesOf "\""

/-- How much longer the runes are between quotes. -/
def excess (rs : List (Option Char)) : Nat :=
  (rs.map fun r => (jsonRune r).length - runeBytes r).sum

theorem length_le_length_bytesOf
    (l : List Char) :
    l.length ≤ (bytesOf (String.ofList l)).length := by
  rw [bytesOf_ofList]
  induction l with
  | nil =>
      exact Nat.zero_le _
  | cons c l ih =>
      have hpos := c.utf8Size_pos
      rw [List.flatMap_cons, List.length_append, String.length_utf8EncodeChar, List.length_cons]
      omega

theorem utf8Size_of_shortEscape
    {c e : Char}
    (h : Json.shortEscape c = some e) :
    c.utf8Size = 1 := by
  unfold Json.shortEscape at h
  split at h <;> first | rfl | cases h

/-- Nothing gets shorter. -/
theorem runeBytes_le
    (r : Option Char) :
    runeBytes r ≤ (jsonRune r).length := by
  cases r with
  | none =>
      decide
  | some c =>
      rw [runeBytes, jsonRune, Json.escape]
      split
      · next e he =>
          have hle := length_le_length_bytesOf ['\\', e]
          have hsize := utf8Size_of_shortEscape he
          simp only [List.length_cons, List.length_nil] at hle
          omega
      · split
        · have hle := length_le_length_bytesOf ['\\', 'u', Json.hexDigit (c.toNat / 0x1000),
            Json.hexDigit (c.toNat / 0x100 % 16), Json.hexDigit (c.toNat / 16 % 16),
            Json.hexDigit (c.toNat % 16)]
          have hsize := c.utf8Size_le_four
          simp only [List.length_cons, List.length_nil] at hle
          omega
        · rw [bytesOf_ofList, List.flatMap_singleton, String.length_utf8EncodeChar]

theorem length_jsonRunes
    (rs : List (Option Char)) :
    (jsonRunes rs).length = bytesOfRunes rs + excess rs := by
  induction rs with
  | nil =>
      rfl
  | cons r rs ih =>
      have hle := runeBytes_le r
      simp only [jsonRunes, bytesOfRunes, excess] at ih ⊢
      rw [List.flatMap_cons, List.length_append, ih, List.map_cons, List.sum_cons,
        List.map_cons, List.sum_cons]
      omega

theorem jsonRunes_append
    (rs ts : List (Option Char)) :
    jsonRunes (rs ++ ts) = jsonRunes rs ++ jsonRunes ts :=
  List.flatMap_append

theorem length_jsonRunes_none
    (n : Nat) :
    (jsonRunes (List.replicate n none)).length = 6 * n := by
  induction n with
  | zero =>
      rfl
  | succ n ih =>
      rw [List.replicate_succ, jsonRunes, List.flatMap_cons, List.length_append]
      rw [jsonRunes] at ih
      rw [ih]
      have hsix : (jsonRune none).length = 6 := by
        decide
      omega

variable {s : List UInt8}
variable {k : Nat}

/-- The text between quotes in two parts. -/
theorem length_jsonString
    (s : List UInt8)
    (k : Nat) :
    (jsonString s).length = 2 + (jsonRunes (keptRunes k (runes s))).length +
      (bytesOfRunes (removedRunes k (runes s)) + excess (removedRunes k (runes s))) := by
  have hquote : (bytesOf "\"").length = 1 := by
    decide
  rw [jsonString, List.length_append, List.length_append, hquote, ← length_jsonRunes]
  conv_lhs => rw [← keptRunes_append_removedRunes k (runes s), jsonRunes_append]
  rw [List.length_append]
  omega

/-- Each byte that is left of a character is replaced. -/
theorem length_jsonString_take
    (hk : k ≤ s.length) :
    (jsonString (s.take k)).length = 2 + (jsonRunes (keptRunes k (runes s))).length +
      6 * (k - bytesOfRunes (keptRunes k (runes s))) := by
  have hquote : (bytesOf "\"").length = 1 := by
    decide
  rw [jsonString, List.length_append, List.length_append, hquote, runes_take hk,
    jsonRunes_append, List.length_append, length_jsonRunes_none]
  omega

end Texts

section Payloads

/-- An entry of the data, as a member of a JSON object. -/
def dataMember (e : String × List UInt8) : List UInt8 :=
  jsonString (bytesOf e.1) ++ bytesOf ":" ++ jsonString e.2

/-- The data as a JSON object; `encoding/json` sorts the keys. -/
def dataObject (data : Data) : List UInt8 :=
  bytesOf "\x7b" ++ (bytesOf ",").intercalate (data.map dataMember) ++ bytesOf "\x7d"

/--
The serialization of the other package: the data is one field of a JSON object, and left out
if there is none; the other fields do not depend on it.
-/
structure Serializes (marshal : FirebaseMessage → Option (List UInt8)) : Prop where
  splits : ∀ topic highPriority apns,
    (∀ data, marshal ⟨topic, data, highPriority, apns⟩ = none) ∨
      ∃ before after, ∀ data, data ≠ [] → Dictionary.IsDict data →
        marshal ⟨topic, data, highPriority, apns⟩ = some (before ++ dataObject data ++ after)

/-- The members with what separates them. -/
def membersSize (data : Data) : Nat :=
  (data.map fun e => (dataMember e).length + 1).sum

theorem membersSize_cons
    (e : String × List UInt8)
    (data : Data) :
    membersSize (e :: data) = (dataMember e).length + 1 + membersSize data := by
  rfl

theorem length_dataObject
    {data : Data}
    (h : data ≠ []) :
    (dataObject data).length = 1 + membersSize data := by
  have hopen : (bytesOf "\x7b").length = 1 := by
    decide
  have hclose : (bytesOf "\x7d").length = 1 := by
    decide
  have hcomma : (bytesOf ",").length = 1 := by
    decide
  have hmembers : ((bytesOf ",").intercalate (data.map dataMember)).length + 1 =
      membersSize data := by
    induction data with
    | nil =>
        exact absurd rfl h
    | cons e data ih =>
        cases data with
        | nil =>
            simp [membersSize]
        | cons e' data =>
            have htail := ih (List.cons_ne_nil _ _)
            rw [membersSize_cons, ← htail, List.map_cons, List.map_cons,
              List.intercalate_cons_cons, List.length_append, List.length_append, hcomma]
            omega
  rw [dataObject, List.length_append, List.length_append, hopen, hclose]
  omega

/-- What the entry under a key takes, if there is one. -/
def memberSize
    (k : String)
    (data : Data) : Nat :=
  (data.lookup k).elim 0 fun v => (dataMember (k, v)).length + 1

theorem lookup_eq_none
    {k : String} {data : Data}
    (h : ∀ e ∈ data, k < e.1) :
    data.lookup k = none := by
  rw [List.lookup_eq_none_iff]
  intro e he
  exact bne_iff_ne.mpr (h e he).ne

/-- An entry takes the place of the one that was there. -/
theorem membersSize_set
    {data : Data}
    (hdict : Dictionary.IsDict data)
    (k : String)
    (v : List UInt8) :
    membersSize (Dictionary.set k v data) + memberSize k data =
      membersSize data + ((dataMember (k, v)).length + 1) := by
  induction data with
  | nil =>
      simp [Dictionary.set, membersSize, memberSize]
  | cons e data ih =>
      obtain ⟨key, value⟩ := e
      obtain ⟨hlt, hdata⟩ := List.pairwise_cons.mp hdict
      rw [Dictionary.set]
      split
      · next hless =>
          have hnone : List.lookup k ((key, value) :: data) = none := by
            refine lookup_eq_none fun f hf => ?_
            rcases List.mem_cons.mp hf with rfl | hf
            · exact hless
            · exact hless.trans (hlt f hf)
          rw [memberSize, hnone, membersSize_cons, Option.elim_none]
          omega
      · split
        · next heq =>
            subst heq
            rw [memberSize, List.lookup_cons_self, membersSize_cons, membersSize_cons,
              Option.elim_some]
            omega
        · next hne =>
            have hsame : memberSize k ((key, value) :: data) = memberSize k data := by
              rw [memberSize, memberSize, List.lookup_cons, beq_false_of_ne hne]
            have htail := ih hdata
            rw [hsame, membersSize_cons, membersSize_cons]
            omega

end Payloads

section Cuts

variable {marshal : FirebaseMessage → Option (List UInt8)}
variable {m : FirebaseMessage}
variable {s message : List UInt8}

/-- The message is too large, and its text is longer than what is too much. -/
structure IsCut
    (marshal : FirebaseMessage → Option (List UInt8))
    (m : FirebaseMessage)
    (s message : List UInt8) : Prop where
  serialized : marshal m = some s
  large : fcmMessageLimit < s.length
  text : m.data.lookup "message" = some message
  long : fcmOver s.length < message.length

theorem IsCut.data_ne_nil
    (h : IsCut marshal m s message) :
    m.data ≠ [] := by
  intro hnil
  have htext := h.text
  rw [hnil] at htext
  cases htext

/-- The data of a message that is cut. -/
def cutData
    (data : Data)
    (message : List UInt8)
    (overBy : Nat) : Data :=
  Dictionary.set "message" (message.take (message.length - overBy))
    (Dictionary.set "truncated" (bytesOf "1") data)

theorem maybeTruncate_of_isCut
    (h : IsCut marshal m s message) :
    maybeTruncateFCMMessage marshal m =
      { m with data := cutData m.data message (fcmOver s.length) } := by
  rw [maybeTruncateFCMMessage, h.serialized]
  simp only [if_pos h.large, h.text, if_pos h.long, cutData]

/-- Otherwise the message stays as it is. -/
theorem maybeTruncate_of_not
    (h : ∀ s message, ¬IsCut marshal m s message) :
    maybeTruncateFCMMessage marshal m = m := by
  rw [maybeTruncateFCMMessage]
  split
  · rfl
  · next s hs =>
      split
      · next hlarge =>
          simp only
          split
          · next message hmessage =>
              split
              · next hlong =>
                  exact absurd ⟨hs, hlarge, hmessage, hlong⟩ (h s message)
              · rfl
          · rfl
      · rfl

/-- The marker is set just then. -/
theorem lookup_truncated
    (h : IsCut marshal m s message) :
    (maybeTruncateFCMMessage marshal m).data.lookup "truncated" = some (bytesOf "1") := by
  rw [maybeTruncate_of_isCut h]
  exact (Dictionary.lookup_set_of_ne (by decide) _ _).trans (Dictionary.lookup_set_self _ _ _)

/-- Bytes of the text that are left of a character. -/
def leftOver
    (message : List UInt8)
    (k : Nat) : Nat :=
  k - bytesOfRunes (keptRunes k (runes message))

/-- The size of the data after the cut. -/
theorem membersSize_cutData
    {data : Data} {overBy : Nat}
    (hdict : Dictionary.IsDict data)
    (htext : data.lookup "message" = some message)
    (hover : overBy < message.length) :
    membersSize (cutData data message overBy) + memberSize "truncated" data + overBy +
        excess (removedRunes (message.length - overBy) (runes message)) =
      membersSize data + 16 + 5 * leftOver message (message.length - overBy) := by
  have hmarker := membersSize_set hdict "truncated" (bytesOf "1")
  have hlookup : (Dictionary.set "truncated" (bytesOf "1") data).lookup "message" =
      some message := by
    rw [Dictionary.lookup_set_of_ne (by decide), htext]
  have hset := membersSize_set (hdict.set "truncated" (bytesOf "1")) "message"
    (message.take (message.length - overBy))
  have hfifteen : (dataMember ("truncated", bytesOf "1")).length = 15 := by
    decide +kernel
  have hwhole := length_jsonString message (message.length - overBy)
  have hcut := length_jsonString_take (k := message.length - overBy) (Nat.sub_le _ overBy)
  have hbytes := bytes_runes message
  have hkept := bytes_keptRunes_le (message.length - overBy) (runes message)
  rw [← keptRunes_append_removedRunes (message.length - overBy) (runes message),
    bytesOfRunes_append] at hbytes
  rw [memberSize, hlookup, Option.elim_some] at hset
  simp only [dataMember, List.length_append] at hset
  rw [cutData, leftOver]
  omega

theorem cutData_ne_nil
    (data : Data)
    (message : List UInt8)
    (overBy : Nat) :
    cutData data message overBy ≠ [] := by
  intro hnil
  have hself := Dictionary.lookup_set_self "message" (message.take (message.length - overBy))
    (Dictionary.set "truncated" (bytesOf "1") data)
  rw [cutData] at hnil
  rw [hnil] at hself
  cases hself

/-- The serialization before and after the cut. -/
theorem serialized_cut
    (hmarshal : Serializes marshal)
    (hdict : Dictionary.IsDict m.data)
    (h : IsCut marshal m s message) :
    ∃ before after, s = before ++ dataObject m.data ++ after ∧
      marshal (maybeTruncateFCMMessage marshal m) =
        some (before ++ dataObject (cutData m.data message (fcmOver s.length)) ++ after) := by
  have hserialized : marshal ⟨m.topic, m.data, m.highPriority, m.apns⟩ = some s := h.serialized
  rw [maybeTruncate_of_isCut h]
  rcases hmarshal.splits m.topic m.highPriority m.apns with hnone | ⟨before, after, hsome⟩
  · rw [hnone] at hserialized
    cases hserialized
  · refine ⟨before, after, ?_, hsome _ (cutData_ne_nil _ _ _) ((hdict.set _ _).set _ _)⟩
    rw [hsome m.data h.data_ne_nil hdict] at hserialized
    exact (Option.some.inj hserialized).symm

/-- How large a message is after it has been cut. -/
theorem length_cut
    (hmarshal : Serializes marshal)
    (hdict : Dictionary.IsDict m.data)
    (h : IsCut marshal m s message) :
    ∃ s', marshal (maybeTruncateFCMMessage marshal m) = some s' ∧
      s'.length + memberSize "truncated" m.data +
          excess (removedRunes (message.length - fcmOver s.length) (runes message)) =
        fcmMessageLimit + 5 * leftOver message (message.length - fcmOver s.length) := by
  obtain ⟨before, after, hs, hs'⟩ := serialized_cut hmarshal hdict h
  refine ⟨_, hs', ?_⟩
  have hsize := membersSize_cutData hdict h.text h.long
  have hlength := congrArg List.length hs
  rw [List.length_append, List.length_append, length_dataObject h.data_ne_nil] at hlength
  rw [List.length_append, List.length_append, length_dataObject (cutData_ne_nil _ _ _)]
  have hlarge := h.large
  have hover : fcmOver s.length + fcmMessageLimit = s.length + 16 := by
    rw [fcmOver]
    omega
  omega

/--
A message with the marker is within the limit once it is serialized, and one without it is
as it was.
-/
def Fits
    (marshal : FirebaseMessage → Option (List UInt8))
    (m : FirebaseMessage) : Prop :=
  (∀ s message, IsCut marshal m s message →
    ∀ s', marshal (maybeTruncateFCMMessage marshal m) = some s' → s'.length ≤ fcmMessageLimit) ∧
  ((∀ s message, ¬IsCut marshal m s message) →
    marshal (maybeTruncateFCMMessage marshal m) = marshal m)

/-- What is removed makes up for the bytes that are left of a character. -/
def MakesUp
    (marshal : FirebaseMessage → Option (List UInt8))
    (m : FirebaseMessage) : Prop :=
  ∀ s message, IsCut marshal m s message →
    5 * leftOver message (message.length - fcmOver s.length) ≤
      memberSize "truncated" m.data +
        excess (removedRunes (message.length - fcmOver s.length) (runes message))

theorem fits_iff
    (hmarshal : Serializes marshal)
    (hdict : Dictionary.IsDict m.data) :
    Fits marshal m ↔ MakesUp marshal m := by
  constructor
  · rintro ⟨hfits, -⟩ s message hcut
    obtain ⟨s', hs', hlength⟩ := length_cut hmarshal hdict hcut
    have hle := hfits s message hcut s' hs'
    omega
  · intro hmakes
    refine ⟨fun s message hcut s' hs' => ?_, fun hno => ?_⟩
    · obtain ⟨s'', hs'', hlength⟩ := length_cut hmarshal hdict hcut
      rw [hs', Option.some.injEq] at hs''
      have hle := hmakes s message hcut
      rw [← hs''] at hlength
      omega
    · rw [maybeTruncate_of_not hno]

end Cuts

section Claim

theorem isDict_withTexts
    {texts : List (String × String)} {data : Data}
    (hdict : Dictionary.IsDict data) :
    Dictionary.IsDict (withTexts texts data) := by
  induction texts generalizing data with
  | nil =>
      exact hdict
  | cons e texts ih =>
      exact ih (hdict.set _ _)

theorem isDict_messageData
    (m : Message) :
    Dictionary.IsDict (messageData m) :=
  isDict_withTexts List.Pairwise.nil

/-- The data of every message that is sent has each key once. -/
theorem isDict_uncutMessage
    (m : Message)
    (auther : Auther) :
    Dictionary.IsDict (uncutMessage m auther).data := by
  rw [uncutMessage]
  simp only
  cases hevent : m.event with
  | message =>
      simp only [firebaseParts, hevent]
      exact isDict_messageData _
  | coopNudge =>
      simp only [firebaseParts, hevent]
      exact List.Pairwise.nil
  | _ =>
      simp only [firebaseParts, hevent]
      exact isDict_withTexts List.Pairwise.nil

/--
The marker is set just for the messages that are cut, and a payload fits just if what is
removed makes up for the bytes that are left of a character.
-/
theorem fcm_payload_fits_iff
    {marshal : FirebaseMessage → Option (List UInt8)} {m : FirebaseMessage}
    (hmarshal : Serializes marshal)
    (hdict : Dictionary.IsDict m.data) :
    (∀ s message, IsCut marshal m s message →
      (maybeTruncateFCMMessage marshal m).data.lookup "truncated" = some (bytesOf "1")) ∧
    ((∀ s message, ¬IsCut marshal m s message) → maybeTruncateFCMMessage marshal m = m) ∧
    (Fits marshal m ↔ MakesUp marshal m) :=
  ⟨fun _ _ => lookup_truncated, maybeTruncate_of_not, fits_iff hmarshal hdict⟩

end Claim

section Example

def exampleBefore (topic : String) : List UInt8 :=
  bytesOf "\x7b\"topic\":" ++ jsonString (bytesOf topic) ++ bytesOf ",\"data\":"

def exampleAfter (highPriority : Bool) : List UInt8 :=
  if highPriority then
    bytesOf ",\"android\":\x7b\"priority\":\"high\"\x7d\x7d"
  else
    bytesOf "\x7d"

/-- The serialization of a message without a configuration for Apple devices. -/
def exampleMarshal (m : FirebaseMessage) : Option (List UInt8) :=
  match m.apns with
  | some _ => none
  | none => some (exampleBefore m.topic ++ dataObject m.data ++ exampleAfter m.highPriority)

theorem serializes_exampleMarshal :
    Serializes exampleMarshal := by
  refine ⟨fun topic highPriority apns => ?_⟩
  cases apns with
  | some config =>
      exact Or.inl fun _ => rfl
  | none =>
      exact Or.inr ⟨exampleBefore topic, exampleAfter highPriority, fun data _ _ => rfl⟩

/-- A text that repeats a character. -/
def repeated
    (n : Nat)
    (c : Char) : List UInt8 :=
  bytesOf (String.ofList (List.replicate n c))

theorem runes_repeated
    (n : Nat)
    (c : Char) :
    runes (repeated n c) = List.replicate n (some c) := by
  rw [repeated, runes_bytesOf, String.toList_ofList, List.map_replicate]

theorem length_repeated
    (n : Nat)
    (c : Char) :
    (repeated n c).length = n * c.utf8Size := by
  rw [← bytes_runes, runes_repeated, bytesOfRunes_replicate]
  rfl

/-- What is left of a character of a text that repeats it. -/
theorem leftOver_repeated
    {n k : Nat} {c : Char}
    (hk : k < n * c.utf8Size) :
    leftOver (repeated n c) k = k % c.utf8Size ∧
      removedRunes k (runes (repeated n c)) = List.replicate (n - k / c.utf8Size) (some c) := by
  obtain ⟨hkept, hremoved⟩ := keptRunes_replicate (r := some c) c.utf8Size_pos hk
  rw [leftOver, runes_repeated, hkept, hremoved, bytesOfRunes_replicate]
  refine ⟨?_, rfl⟩
  have hdiv := Nat.div_add_mod' k c.utf8Size
  rw [runeBytes]
  omega

/-- A message with a text that repeats a character. -/
def longMessage
    (n : Nat)
    (c : Char) : FirebaseMessage :=
  ⟨"new", [("message", repeated n c)], false, none⟩

theorem isDict_longMessage
    (n : Nat)
    (c : Char) :
    Dictionary.IsDict (longMessage n c).data :=
  List.pairwise_singleton _ _

/-- Five thousand letters are cut to the limit. -/
theorem letters_fit :
    Fits exampleMarshal (longMessage 5000 'a') := by
  refine (fcm_payload_fits_iff serializes_exampleMarshal (isDict_longMessage 5000 'a')).2.2.mpr
    fun s message hcut => ?_
  have hmessage : message = repeated 5000 'a' := (Option.some.inj hcut.text).symm
  have hover := hcut.large
  have hlength := length_repeated 5000 'a'
  have hsize : 'a'.utf8Size = 1 := by
    decide
  rw [hsize] at hlength
  have hleft := (leftOver_repeated (n := 5000) (k := 5000 - fcmOver s.length) (c := 'a') (by
    rw [hsize, fcmOver]
    omega)).1
  rw [hmessage, hlength, Nat.mul_one, hleft, hsize, Nat.mod_one]
  exact Nat.zero_le _

theorem excess_umlauts
    (n : Nat) :
    excess (List.replicate n (some 'ä')) = 0 := by
  have hsame : (jsonRune (some 'ä')).length - runeBytes (some 'ä') = 0 := by
    decide
  rw [excess, List.map_replicate, List.sum_replicate_nat, hsame, Nat.mul_zero]

theorem length_jsonString_umlauts :
    (jsonString (repeated 2500 'ä')).length = 5002 := by
  have hquote : (bytesOf "\"").length = 1 := by
    decide
  have hbytes : bytesOfRunes (List.replicate 2500 (some 'ä')) = 2500 * 2 :=
    bytesOfRunes_replicate 2500 (some 'ä')
  rw [jsonString, List.length_append, List.length_append, hquote, runes_repeated,
    length_jsonRunes, hbytes, excess_umlauts]

theorem length_messageObject
    (text : List UInt8) :
    (dataObject [("message", text)]).length = (jsonString text).length + 12 := by
  have hkey : (jsonString (bytesOf "message")).length = 9 := by
    decide +kernel
  have hcolon : (bytesOf ":").length = 1 := by
    decide
  have hnil : membersSize [] = 0 := rfl
  have hmember : dataMember ("message", text) =
      jsonString (bytesOf "message") ++ bytesOf ":" ++ jsonString text := rfl
  rw [length_dataObject (List.cons_ne_nil _ _), membersSize_cons, hnil, hmember,
    List.length_append, List.length_append, hkey, hcolon]
  omega

/-- The size of the message, of which 4000 bytes are wanted. -/
theorem serialized_message
    (text : List UInt8) :
    ∃ s, exampleMarshal ⟨"new", [("message", text)], false, none⟩ = some s ∧
      s.length = (jsonString text).length + 35 := by
  refine ⟨_, rfl, ?_⟩
  have hbefore : (exampleBefore "new").length = 22 := by
    decide +kernel
  have hafter : (exampleAfter false).length = 1 := by
    decide
  rw [List.length_append, List.length_append, length_messageObject, hbefore, hafter]
  omega

/-- Two and a half thousand umlauts are cut in the middle of one. -/
theorem umlauts_too_large :
    ¬Fits exampleMarshal (longMessage 2500 'ä') := by
  rw [fits_iff serializes_exampleMarshal (isDict_longMessage 2500 'ä')]
  intro hmakes
  obtain ⟨s, hs, hlength⟩ := serialized_message (repeated 2500 'ä')
  rw [length_jsonString_umlauts] at hlength
  have htext : (longMessage 2500 'ä').data.lookup "message" = some (repeated 2500 'ä') :=
    List.lookup_cons_self
  have hsize : 'ä'.utf8Size = 2 := by
    decide
  have hbytes : (repeated 2500 'ä').length = 5000 := by
    rw [length_repeated, hsize]
  have hover : fcmOver s.length = 1053 := by
    rw [fcmOver, hlength, fcmMessageLimit]
  have hle := hmakes s (repeated 2500 'ä')
    ⟨hs, by rw [hlength, fcmMessageLimit]; omega, htext, by rw [hover, hbytes]; omega⟩
  obtain ⟨hleft, hremoved⟩ := leftOver_repeated (n := 2500) (k := 5000 - 1053) (c := 'ä') (by
    rw [hsize]
    omega)
  have hmarker : memberSize "truncated" (longMessage 2500 'ä').data = 0 := by
    rw [memberSize, longMessage, List.lookup_cons]
    rfl
  rw [hover, hbytes, hleft, hremoved, excess_umlauts, hmarker, hsize] at hle
  omega

end Example

end FirebasePayloads
end Server
end CoopMessenger
