import CoopMessenger.Library.Runs
import CoopMessenger.Manager.Contacts
import CoopMessenger.Manager.Profiles
import CoopMessenger.Server.Groups

/-!
# Direct messages

`handleDMCreate` of `server/server_dm.go` looks for a topic of the two users and,
if there is none, writes the metadata of a new one and grants access to both.
These are separate database calls: any of them may fail, and the calls of
several requests interleave.

`handleDMCreate` below is one request on its own; `advance` makes the same calls
one at a time.

**Results.**
* `handleDMCreate_eq_iterate`: a request that runs alone makes the calls of
  `advance`.
* `one_dm_per_pair_iff`: when interleaved requests agree on one DM for each pair.
* `dm_creation_usable_iff`: when a request leaves both users with a topic they
  can use, or nothing behind.
-/

namespace CoopMessenger
namespace Server

open Library Manager Manager.Database

namespace DirectMessages

section Topics

/-- A lower-case hexadecimal digit. -/
def hexDigit (n : Nat) : Char :=
  if n < 10 then
    Char.ofNat (48 + n)
  else
    Char.ofNat (87 + n)

/-- `hex.EncodeToString` -/
def hexEncode (b : List UInt8) : List Char :=
  b.flatMap (fun x => [hexDigit (x.toNat / 16), hexDigit (x.toNat % 16)])

/-- A DM topic of sixteen random bytes. -/
def generateDMTopicID (b : Vector UInt8 16) : String :=
  String.ofList ("dm_".toList ++ hexEncode b.toList)

/-- A row of `topic_meta` whose DM columns are set. -/
structure DMRow where
  topic : String
  dmUserA : String
  dmUserB : String
deriving DecidableEq, Repr

/-- Are these the same two users? -/
def samePair (a b x y : String) : Prop :=
  (a = x ∧ b = y) ∨ (a = y ∧ b = x)

instance decidableSamePair
    (a b x y : String) :
    Decidable (samePair a b x y) :=
  inferInstanceAs (Decidable ((a = x ∧ b = y) ∨ (a = y ∧ b = x)))

theorem samePair.symm
    {a b x y : String}
    (h : samePair a b x y) :
    samePair x y a b := by
  rcases h with ⟨rfl, rfl⟩ | ⟨rfl, rfl⟩
  · exact Or.inl ⟨rfl, rfl⟩
  · exact Or.inr ⟨rfl, rfl⟩

theorem samePair.trans
    {a b x y v w : String}
    (h : samePair a b x y)
    (h' : samePair x y v w) :
    samePair a b v w := by
  rcases h with ⟨rfl, rfl⟩ | ⟨rfl, rfl⟩
  · exact h'
  · rcases h' with ⟨rfl, rfl⟩ | ⟨rfl, rfl⟩
    · exact Or.inr ⟨rfl, rfl⟩
    · exact Or.inl ⟨rfl, rfl⟩

/-- Does the row belong to these two users? -/
def DMRow.joins
    (d : DMRow)
    (a b : String) : Bool :=
  decide (samePair d.dmUserA d.dmUserB a b)

/-- The user database with the profile texts and the DM columns. -/
structure Store where
  db : Database
  texts : Table ProfileText.userId
  dms : Table DMRow.topic

/-- Finds an existing DM topic between two users, empty if none exists. -/
def findDMTopic
    (s : Store)
    (userA userB : String) : String :=
  ((s.dms.rows.find? (fun d => d.joins userA userB)).map
    DMRow.topic).getD ""

/-- `idx_topic_meta_dm`: does another topic have this pair of users? -/
def pairTaken
    (s : Store)
    (topic userA userB : String) : Bool :=
  decide (userA ≠ "") &&
    s.dms.rows.any (fun d =>
      decide (d.topic ≠ topic ∧ d.dmUserA = userA ∧ d.dmUserB = userB))

/-- Creates a DM topic metadata entry with the two user references. -/
def setDMTopicMeta
    (s : Store)
    (fails : Bool)
    (topic userA userB : String) : Except Manager.Error Store :=
  if fails || pairTaken s topic userA userB then
    .error .database
  else
    .ok
      { s with
        db :=
          { s.db with
            topicMeta :=
              s.db.topicMeta.upsert ⟨topic, "", "", "", ""⟩ id
                (fun _ => rfl) }
        dms :=
          s.dms.upsert ⟨topic, userA, userB⟩
            (fun d => ⟨d.topic, userA, userB⟩) (fun _ => rfl) }

end Topics

section Handler

/-- The database calls of a request. -/
inductive Call where
  | user
  | isBlocked
  | contactStatus
  | profilePrivacy
  | findDMTopic
  | setDMTopicMeta
  | allowCreator
  | allowPartner
  | profile
deriving DecidableEq, Repr

structure DMCreateResponse where
  topic : String
  displayName : String
deriving DecidableEq, Repr

/--
The checks before the look-up; they return the other user's name.  `none` is an
invalid body.
-/
def checks
    (db : Database)
    (fails : Call → Bool)
    (u : User) :
    Option String → Except HandlerError String
  | none =>
      .error (.http (errHTTPBadRequest.wrap "invalid request body"))
  | some username =>
      if username = "" ∨ username = u.name then
        .error (.http (errHTTPBadRequest.wrap "invalid username"))
      else if fails .user || (db.user username).isNone then
        .error (.http (errHTTPBadRequest.wrap "user not found"))
      else if fails .isBlocked then
        .error (.manager .database)
      else if db.isBlocked u.name username then
        .error (.http (errHTTPForbidden.wrap "blocked"))
      else if fails .contactStatus then
        .error (.manager .database)
      else if db.contactStatus u.name username = some .accepted then
        .ok username
      else if fails .profilePrivacy then
        .error (.manager .database)
      else if db.profilePrivacy username = .open then
        .ok username
      else
        .error (.http (errHTTPForbidden.wrap
          "not a contact - send a contact request first"))

/-- The topic found by the look-up. -/
def lookUp
    (s : Store)
    (fails : Call → Bool)
    (u : User)
    (username : String) : Except HandlerError String :=
  if fails .findDMTopic then
    .error (.manager .database)
  else
    .ok (findDMTopic s u.name username)

/-- Grants access to one of the two users. -/
def grantAccess
    (s : Store)
    (fails : Bool)
    (username topic : String) : Except HandlerError Store :=
  match Groups.grant s.db fails username topic with
  | .error e => .error (.manager e)
  | .ok db => .ok { s with db }

/-- Stores the metadata of a new topic and grants access to both users. -/
def createDM
    (s : Store)
    (fails : Call → Bool)
    (u : User)
    (username topic : String) : Store × Except HandlerError Unit :=
  match setDMTopicMeta s (fails .setDMTopicMeta) topic u.name username with
  | .error e => (s, .error (.manager e))
  | .ok s₁ =>
      match grantAccess s₁ (fails .allowCreator) u.name topic with
      | .error e => (s₁, .error e)
      | .ok s₂ =>
          match grantAccess s₂ (fails .allowPartner) username topic with
          | .error e => (s₂, .error e)
          | .ok s₃ => (s₃, .ok ())

/-- The response names the partner by the profile, if there is one. -/
def respond
    (s : Store)
    (fails : Call → Bool)
    (username topic : String) : DMCreateResponse :=
  let displayName :=
    if fails .profile then
      ""
    else
      (((s.db.userID username).bind s.texts.find?).map
        ProfileText.displayName).getD ""
  ⟨topic, if displayName = "" then username else displayName⟩

/--
Starts or opens a DM.  `random` are the bytes for a new topic, or `none` if the
generator fails.
-/
def handleDMCreate
    (s : Store)
    (fails : Call → Bool)
    (random : Option (Vector UInt8 16))
    (u : User)
    (body : Option String) : Store × Except HandlerError DMCreateResponse :=
  match checks s.db fails u body with
  | .error e => (s, .error e)
  | .ok username =>
      match lookUp s fails u username with
      | .error e => (s, .error e)
      | .ok topic =>
          if topic = "" then
            match random with
            | none => (s, .error (.http errHTTPInternalError))
            | some b =>
                match createDM s fails u username (generateDMTopicID b) with
                | (s', .error e) => (s', .error e)
                | (s', .ok ()) =>
                    (s', .ok (respond s' fails username (generateDMTopicID b)))
          else
            (s, .ok (respond s fails username topic))

end Handler

section Requests

/-- Where a request is; it waits for the database call it names. -/
inductive Phase where
  | check
  | find (username : String)
  | insert (username topic : String)
  | grantCreator (username topic : String)
  | grantPartner (username topic : String)
  | answer (username topic : String)
  | done (username : String) (r : DMCreateResponse)
  | failed (e : HandlerError)
deriving DecidableEq, Repr

/--
The next call of a request.  The checks read nothing that a DM request writes,
so they are one step.
-/
def advance
    (s : Store)
    (fails : Call → Bool)
    (random : Option (Vector UInt8 16))
    (u : User)
    (body : Option String) :
    Phase → Store × Phase
  | .check =>
      match checks s.db fails u body with
      | .error e => (s, .failed e)
      | .ok username => (s, .find username)
  | .find username =>
      match lookUp s fails u username with
      | .error e => (s, .failed e)
      | .ok topic =>
          if topic = "" then
            match random with
            | none => (s, .failed (.http errHTTPInternalError))
            | some b => (s, .insert username (generateDMTopicID b))
          else
            (s, .answer username topic)
  | .insert username topic =>
      match setDMTopicMeta s (fails .setDMTopicMeta) topic u.name username with
      | .error e => (s, .failed (.manager e))
      | .ok s' => (s', .grantCreator username topic)
  | .grantCreator username topic =>
      match grantAccess s (fails .allowCreator) u.name topic with
      | .error e => (s, .failed e)
      | .ok s' => (s', .grantPartner username topic)
  | .grantPartner username topic =>
      match grantAccess s (fails .allowPartner) username topic with
      | .error e => (s, .failed e)
      | .ok s' => (s', .answer username topic)
  | .answer username topic =>
      (s, .done username (respond s fails username topic))
  | .done username r => (s, .done username r)
  | .failed e => (s, .failed e)

/-- The result of a request that is over. -/
def Phase.result : Phase → Option (Except HandlerError DMCreateResponse)
  | .done _ r => some (.ok r)
  | .failed e => some (.error e)
  | _ => none

/-- A request that runs alone makes the calls of `advance`, at most six. -/
theorem handleDMCreate_eq_iterate
    (s : Store)
    (fails : Call → Bool)
    (random : Option (Vector UInt8 16))
    (u : User)
    (body : Option String) :
    let last := (fun x : Store × Phase =>
      advance x.1 fails random u body x.2)^[6] (s, .check)
    last.1 = (handleDMCreate s fails random u body).1 ∧
      last.2.result = some (handleDMCreate s fails random u body).2 := by
  unfold handleDMCreate
  simp only [Function.iterate_succ_apply, Function.iterate_zero, id]
  cases hcheck : checks s.db fails u body with
  | error e =>
      simp [advance, hcheck, Phase.result]
  | ok username =>
      cases hlook : lookUp s fails u username with
      | error e =>
          simp [advance, hcheck, hlook, Phase.result]
      | ok topic =>
          by_cases hempty : topic = ""
          · cases random with
            | none =>
                simp [advance, hcheck, hlook, hempty, Phase.result]
            | some b =>
                unfold createDM
                cases hset : setDMTopicMeta s (fails .setDMTopicMeta)
                    (generateDMTopicID b) u.name username with
                | error e =>
                    simp [advance, hcheck, hlook, hempty, hset, Phase.result]
                | ok s₁ =>
                    cases hcreator : grantAccess s₁ (fails .allowCreator)
                        u.name (generateDMTopicID b) with
                    | error e =>
                        simp [advance, hcheck, hlook, hempty, hset, hcreator,
                          Phase.result]
                    | ok s₂ =>
                        cases hpartner : grantAccess s₂ (fails .allowPartner)
                            username (generateDMTopicID b) with
                        | error e =>
                            simp [advance, hcheck, hlook, hempty, hset,
                              hcreator, hpartner, Phase.result]
                        | ok s₃ =>
                            simp [advance, hcheck, hlook, hempty, hset,
                              hcreator, hpartner, Phase.result]
          · simp [advance, hcheck, hlook, hempty, Phase.result]

end Requests

section System

/-- A request of a user, in flight or finished. -/
structure Request where
  id : Nat
  user : User
  body : Option String
  phase : Phase
deriving DecidableEq

structure State where
  store : Store
  requests : Table Request.id

/-- The topic a request is about to store. -/
def Phase.inserting : Phase → Option (String × String)
  | .insert username topic => some (username, topic)
  | _ => none

/-- The topic a request has found or stored, and is going to answer with. -/
def Phase.opened : Phase → Option (String × String)
  | .grantCreator username topic | .grantPartner username topic
  | .answer username topic => some (username, topic)
  | .done username r => some (username, r.topic)
  | _ => none

/-- A topic that is neither stored nor about to be. -/
def Unused
    (s : State)
    (topic : String) : Prop :=
  (∀ d ∈ s.store.dms, d.topic ≠ topic) ∧
    ∀ c ∈ s.requests, c.phase.inserting.map Prod.snd ≠ some topic

instance decidableUnused
    (s : State) (topic : String) :
    Decidable (Unused s topic) :=
  inferInstanceAs (Decidable ((∀ d ∈ s.store.dms, d.topic ≠ topic) ∧
    ∀ c ∈ s.requests, c.phase.inserting.map Prod.snd ≠ some topic))

/-- A request arrives, or makes its next call. -/
inductive Label where
  | start (id : Nat) (username : String) (body : Option String)
  | call (id : Nat) (fails : Call → Bool) (random : Option (Vector UInt8 16))

/-- One step; `none` if it is not enabled.  Random topics do not repeat. -/
def step
    (s : State) : Label → Option State
  | .start id username body =>
      match s.store.db.user username with
      | none => none
      | some u =>
          (s.requests.insert? ⟨id, u, body, .check⟩).map
            (fun requests => { s with requests })
  | .call id fails random =>
      match s.requests.find? id with
      | none => none
      | some c =>
          if c.phase.result.isNone ∧
              ∀ topic ∈ random.map generateDMTopicID, Unused s topic then
            let next := advance s.store fails random c.user c.body c.phase
            some
              { store := next.1
                requests :=
                  s.requests.modify
                    (fun d => if d.id = id then { d with phase := next.2 } else d)
                    (by intro d; split <;> rfl) }
          else
            none

end System

section Pairs

/-- At most one DM topic exists for each unordered pair of users. -/
def OnePerPair (s : Store) : Prop :=
  ∀ d ∈ s.dms, ∀ e ∈ s.dms, d.joins e.dmUserA e.dmUserB = true → d = e

/--
At most one DM topic exists for each pair, and all successful requests for the
pair have returned the same topic.
-/
def Agreed (s : State) : Prop :=
  OnePerPair s.store ∧
    ∀ c ∈ s.requests, ∀ d ∈ s.requests, ∀ username r username' r',
      c.phase = .done username r → d.phase = .done username' r' →
        samePair c.user.name username d.user.name username' →
          r.topic = r'.topic

/--
A topic is stored only while the pair still has none: when an insert goes
through, no DM of the two users has been stored in the other order since the
look-up.
-/
def StillNone
    (s : State) : Label → Prop
  | .start _ _ _ => True
  | .call id fails random =>
      (step s (.call id fails random)).isSome →
        ∀ c ∈ s.requests, c.id = id → ∀ p ∈ c.phase.inserting,
          fails .setDMTopicMeta = false →
            pairTaken s.store p.2 c.user.name p.1 = false →
              ∀ d ∈ s.store.dms,
                ¬ (d.dmUserA = p.1 ∧ d.dmUserB = c.user.name)

instance decidableStillNone
    (s : State) :
    ∀ l, Decidable (StillNone s l)
  | .start _ _ _ => isTrue trivial
  | .call id fails random =>
      inferInstanceAs (Decidable ((step s (.call id fails random)).isSome →
        ∀ c ∈ s.requests, c.id = id → ∀ p ∈ c.phase.inserting,
          fails .setDMTopicMeta = false →
            pairTaken s.store p.2 c.user.name p.1 = false →
              ∀ d ∈ s.store.dms,
                ¬ (d.dmUserA = p.1 ∧ d.dmUserB = c.user.name)))

variable {s s' : Store}
variable {a : String}

/-- A found topic is that of a stored row of the two users. -/
theorem findDMTopic_joins
    {b : String}
    (h : findDMTopic s a b ≠ "") :
    ∃ d ∈ s.dms, d.topic = findDMTopic s a b ∧ d.joins a b = true := by
  cases hfind : s.dms.rows.find? (fun d => d.joins a b) with
  | none =>
      simp [findDMTopic, hfind] at h
  | some d =>
      have hd : d ∈ s.dms := List.mem_of_find?_eq_some hfind
      have hjoins := List.find?_some hfind
      exact ⟨d, hd, by simp [findDMTopic, hfind], hjoins⟩

/-- Nothing is found only if nothing is stored for the two users. -/
theorem not_joins_of_findDMTopic
    {b : String}
    (hnamed : ∀ d ∈ s.dms, d.topic ≠ "")
    (h : findDMTopic s a b = "") :
    ∀ d ∈ s.dms, d.joins a b = false := by
  intro d hd
  cases hfind : s.dms.rows.find? (fun d => d.joins a b) with
  | none =>
      simpa using List.find?_eq_none.mp hfind d hd
  | some e =>
      have he : e ∈ s.dms := List.mem_of_find?_eq_some hfind
      simp only [findDMTopic, hfind, Option.map_some, Option.getD_some] at h
      exact absurd h (hnamed e he)

/-- A topic that begins with `dm_` is not empty. -/
theorem generateDMTopicID_ne
    (b : Vector UInt8 16) :
    generateDMTopicID b ≠ "" := by
  intro h
  have hlist : "dm_".toList ++ hexEncode b.toList = [] :=
    String.toList_ofList.symm.trans (congrArg String.toList h)
  exact List.cons_ne_nil _ _ hlist

/-- The rows after the metadata of an unused topic is stored. -/
theorem setDMTopicMeta_eq_ok
    {b topic : String} {fails : Bool}
    (h : setDMTopicMeta s fails topic a b = .ok s') :
    fails = false ∧ pairTaken s topic a b = false ∧
      s'.db.users = s.db.users ∧ s'.db.access = s.db.access ∧
      ∀ d, d ∈ s'.dms ↔
        d = ⟨topic, a, b⟩ ∨ (d ∈ s.dms ∧ d.topic ≠ topic) := by
  unfold setDMTopicMeta at h
  split at h
  case isTrue =>
    cases h
  case isFalse hok =>
    cases h
    simp only [Bool.or_eq_true, not_or, Bool.not_eq_true] at hok
    refine ⟨hok.1, hok.2, rfl, rfl, fun d => ?_⟩
    refine Table.mem_upsert_iff ?_ ?_
    · exact fun _ => rfl
    · rintro ⟨topic', _, _⟩ rfl
      rfl

theorem grantAccess_eq_ok
    {fails : Bool} {username topic : String}
    (h : grantAccess s fails username topic = .ok s') :
    fails = false ∧ s'.dms = s.dms ∧ s'.texts = s.texts ∧
      s.db.allowAccess username topic .readWrite = .ok s'.db := by
  unfold grantAccess Groups.grant at h
  cases fails with
  | true =>
      simp at h
  | false =>
      simp only [Bool.false_eq_true, if_false] at h
      split at h
      case h_1 =>
        cases h
      case h_2 hgrant =>
        cases h
        exact ⟨rfl, rfl, rfl, hgrant⟩

end Pairs

section Moves

/--
What one call does: check, fail, find a topic or none, store the metadata, or go
on with a topic that is stored.
-/
inductive Move
    (random : Option (Vector UInt8 16))
    (a : String)
    (s : Store) : Phase → Store → Phase → Prop
  | checked
      {username : String} :
      Move random a s .check s (.find username)
  | failed
      {p : Phase} {e : HandlerError} :
      Move random a s p s (.failed e)
  | found
      {username : String}
      (hfound : findDMTopic s a username ≠ "") :
      Move random a s (.find username) s
        (.answer username (findDMTopic s a username))
  | missing
      {username : String} {b : Vector UInt8 16}
      (hrandom : random = some b)
      (hnone : findDMTopic s a username = "") :
      Move random a s (.find username) s
        (.insert username (generateDMTopicID b))
  | stored
      {username topic : String} {s' : Store}
      (hset : setDMTopicMeta s false topic a username = .ok s') :
      Move random a s (.insert username topic) s'
        (.grantCreator username topic)
  | went
      {p p' : Phase} {s' : Store} {username topic : String}
      (hopened : p.opened = some (username, topic))
      (hopened' : p'.opened = some (username, topic))
      (husers : s'.db.users = s.db.users)
      (hdms : s'.dms = s.dms) :
      Move random a s p s' p'

variable {s s' : Store}
variable {fails : Call → Bool}
variable {random : Option (Vector UInt8 16)}
variable {u : User}
variable {body : Option String}

theorem move_grantAccess
    {p p' : Phase} {username topic name : String} {fails : Bool}
    (hopened : p.opened = some (username, topic))
    (hopened' : p'.opened = some (username, topic))
    (hgrant : grantAccess s fails name topic = .ok s') :
    Move random u.name s p s' p' := by
  obtain ⟨-, hdms, -, hallow⟩ := grantAccess_eq_ok hgrant
  obtain ⟨-, -, -, husers, -⟩ := allowAccess_eq_ok hallow
  exact .went hopened hopened' husers hdms

/-- Every call of a request that is not over is a move. -/
theorem advance_move
    (p : Phase)
    (hp : p.result = none) :
    Move random u.name s p (advance s fails random u body p).1
      (advance s fails random u body p).2 := by
  cases p with
  | check =>
      dsimp only [advance]
      split
      · exact .failed
      · exact .checked
  | find username =>
      dsimp only [advance]
      split
      · exact .failed
      · rename_i topic hlook
        have htopic : topic = findDMTopic s u.name username := by
          unfold lookUp at hlook
          split at hlook
          · cases hlook
          · exact (Except.ok.inj hlook).symm
        subst htopic
        by_cases hnone : findDMTopic s u.name username = ""
        · rw [if_pos hnone]
          cases random with
          | none =>
              exact .failed
          | some b =>
              exact .missing rfl hnone
        · rw [if_neg hnone]
          exact .found hnone
  | insert username topic =>
      dsimp only [advance]
      split
      · exact .failed
      · rename_i s₁ hset
        have hok := setDMTopicMeta_eq_ok hset
        rw [hok.1] at hset
        exact .stored hset
  | grantCreator username topic =>
      dsimp only [advance]
      split
      · exact .failed
      · rename_i s₁ hgrant
        exact move_grantAccess rfl rfl hgrant
  | grantPartner username topic =>
      dsimp only [advance]
      split
      · exact .failed
      · rename_i s₁ hgrant
        exact move_grantAccess rfl rfl hgrant
  | answer username topic =>
      exact .went rfl rfl rfl rfl
  | done username r =>
      cases hp
  | failed e =>
      cases hp

end Moves

section Agreement

/-- The invariant of the interleaved requests. -/
structure Settled (s : State) : Prop where
  onePerPair : OnePerPair s.store
  named : ∀ d ∈ s.store.dms, d.topic ≠ ""
  callers : ∀ c ∈ s.requests, c.user.name ≠ ""
  pending : ∀ c ∈ s.requests, ∀ username topic,
    c.phase.inserting = some (username, topic) →
      topic ≠ "" ∧ (∀ d ∈ s.store.dms, d.topic ≠ topic) ∧
        ∀ e ∈ s.requests, e.phase.inserting.map Prod.snd = some topic → e = c
  answered : ∀ c ∈ s.requests, ∀ username topic,
    c.phase.opened = some (username, topic) →
      ∃ d ∈ s.store.dms, d.topic = topic ∧ d.joins c.user.name username = true

variable {s s' : State}
variable {c : Request}

theorem joins_of_joins
    {d e : DMRow} {a b x y : String}
    (hd : d.joins a b = true)
    (he : e.joins x y = true)
    (h : samePair a b x y) :
    d.joins e.dmUserA e.dmUserB = true := by
  simp only [DMRow.joins, decide_eq_true_eq] at hd he ⊢
  exact (hd.trans h).trans he.symm

/-- Under the invariant, requests for one pair have one topic. -/
theorem Settled.agreed
    (h : Settled s) :
    Agreed s := by
  refine ⟨h.onePerPair, ?_⟩
  intro c hc d hd username r username' r' hcphase hdphase hpair
  obtain ⟨x, hx, hxtopic, hxjoins⟩ :=
    h.answered c hc username r.topic (by rw [hcphase]; rfl)
  obtain ⟨y, hy, hytopic, hyjoins⟩ :=
    h.answered d hd username' r'.topic (by rw [hdphase]; rfl)
  have hsame := h.onePerPair x hx y hy (joins_of_joins hxjoins hyjoins hpair)
  rw [← hxtopic, ← hytopic, hsame]

/-- A call that stores no DM keeps the invariant if its own topic is in order. -/
theorem Settled.of_dms_eq
    {p : Phase}
    (h : Settled s)
    (hc : c ∈ s.requests)
    (hdms : s'.store.dms = s.store.dms)
    (hmem : ∀ d, d ∈ s'.requests ↔
      d = { c with phase := p } ∨ (d ∈ s.requests ∧ d.id ≠ c.id))
    (hinserting : ∀ username topic, p.inserting = some (username, topic) →
      topic ≠ "" ∧ Unused s topic)
    (hopened : ∀ username topic, p.opened = some (username, topic) →
      ∃ d ∈ s.store.dms, d.topic = topic ∧
        d.joins c.user.name username = true) :
    Settled s' := by
  constructor
  case onePerPair =>
    unfold OnePerPair
    rw [hdms]
    exact h.onePerPair
  case named =>
    rw [hdms]
    exact h.named
  case callers =>
    intro d hd
    rcases (hmem d).mp hd with rfl | ⟨hd, -⟩
    · exact h.callers c hc
    · exact h.callers d hd
  case pending =>
    rw [hdms]
    intro d hd username topic hphase
    rcases (hmem d).mp hd with rfl | ⟨hd, hne⟩
    · obtain ⟨hname, hstored, hothers⟩ := hinserting username topic hphase
      refine ⟨hname, hstored, fun e he hetopic => ?_⟩
      rcases (hmem e).mp he with rfl | ⟨he, -⟩
      · rfl
      · exact absurd hetopic (hothers e he)
    · obtain ⟨hname, hstored, hothers⟩ := h.pending d hd username topic hphase
      refine ⟨hname, hstored, fun e he hetopic => ?_⟩
      rcases (hmem e).mp he with rfl | ⟨he, -⟩
      · obtain ⟨⟨username', topic'⟩, hp, rfl⟩ :=
          Option.map_eq_some_iff.mp hetopic
        have hunused := (hinserting username' topic' hp).2.2 d hd
        rw [hphase] at hunused
        exact absurd rfl hunused
      · exact hothers e he hetopic
  case answered =>
    rw [hdms]
    intro d hd username topic hphase
    rcases (hmem d).mp hd with rfl | ⟨hd, -⟩
    · exact hopened username topic hphase
    · exact h.answered d hd username topic hphase

/-- Storing the DM of a pair that still has none keeps the invariant. -/
theorem Settled.stored
    {username topic : String}
    (h : Settled s)
    (hc : c ∈ s.requests)
    (hphase : c.phase = .insert username topic)
    (hset : setDMTopicMeta s.store false topic c.user.name username =
      .ok s'.store)
    (hmem : ∀ d, d ∈ s'.requests ↔
      d = { c with phase := .grantCreator username topic } ∨
        (d ∈ s.requests ∧ d.id ≠ c.id))
    (hfree : ∀ d ∈ s.store.dms,
      ¬ (d.dmUserA = username ∧ d.dmUserB = c.user.name)) :
    Settled s' := by
  obtain ⟨-, htaken, -, -, hdms⟩ := setDMTopicMeta_eq_ok hset
  obtain ⟨hname, hstored, hothers⟩ :=
    h.pending c hc username topic (by rw [hphase]; rfl)
  have hnew : ∀ e ∈ s.store.dms,
      (DMRow.mk topic c.user.name username).joins e.dmUserA e.dmUserB =
        false := by
    intro e he
    refine decide_eq_false ?_
    rintro (⟨hA, hB⟩ | ⟨hA, hB⟩)
    · simp only [pairTaken, h.callers c hc, ne_eq, not_false_eq_true,
        decide_true, Bool.true_and, List.any_eq_false, decide_eq_true_eq,
        not_and] at htaken
      exact htaken e he (hstored e he) hA.symm hB.symm
    · exact hfree e he ⟨hB.symm, hA.symm⟩
  constructor
  case onePerPair =>
    intro d hd e he hjoins
    rcases (hdms d).mp hd with rfl | ⟨hd, -⟩
    · rcases (hdms e).mp he with rfl | ⟨he, -⟩
      · rfl
      · rw [hnew e he] at hjoins
        cases hjoins
    · rcases (hdms e).mp he with rfl | ⟨he, -⟩
      · have hback : (DMRow.mk topic c.user.name username).joins
            d.dmUserA d.dmUserB = true := by
          simp only [DMRow.joins, decide_eq_true_eq] at hjoins ⊢
          exact hjoins.symm
        rw [hnew d hd] at hback
        cases hback
      · exact h.onePerPair d hd e he hjoins
  case named =>
    intro d hd
    rcases (hdms d).mp hd with rfl | ⟨hd, -⟩
    · exact hname
    · exact h.named d hd
  case callers =>
    intro d hd
    rcases (hmem d).mp hd with rfl | ⟨hd, -⟩
    · exact h.callers c hc
    · exact h.callers d hd
  case pending =>
    intro d hd username' topic' hdphase
    rcases (hmem d).mp hd with rfl | ⟨hd, hne⟩
    · cases hdphase
    · obtain ⟨hname', hstored', hothers'⟩ :=
        h.pending d hd username' topic' hdphase
      refine ⟨hname', fun e he => ?_, fun e he hetopic => ?_⟩
      · rcases (hdms e).mp he with rfl | ⟨he, -⟩
        · rintro rfl
          exact hne (congrArg Request.id (hothers d hd (by rw [hdphase]; rfl)))
        · exact hstored' e he
      · rcases (hmem e).mp he with rfl | ⟨he, -⟩
        · cases hetopic
        · exact hothers' e he hetopic
  case answered =>
    intro d hd username' topic' hdphase
    rcases (hmem d).mp hd with rfl | ⟨hd, -⟩
    · cases hdphase
      exact ⟨_, (hdms _).mpr (Or.inl rfl), rfl,
        decide_eq_true (Or.inl ⟨rfl, rfl⟩)⟩
    · obtain ⟨e, he, htopic, hjoins⟩ :=
        h.answered d hd username' topic' hdphase
      exact ⟨e, (hdms e).mpr (Or.inr ⟨he, hstored e he⟩), htopic, hjoins⟩

/-- Every move keeps the invariant, if a DM is stored only for a free pair. -/
theorem Settled.move
    {random : Option (Vector UInt8 16)} {p : Phase}
    (h : Settled s)
    (hc : c ∈ s.requests)
    (hmove : Move random c.user.name s.store c.phase s'.store p)
    (hunused : ∀ b ∈ random, Unused s (generateDMTopicID b))
    (hmem : ∀ d, d ∈ s'.requests ↔
      d = { c with phase := p } ∨ (d ∈ s.requests ∧ d.id ≠ c.id))
    (hfree : ∀ username topic, c.phase = .insert username topic →
      p = .grantCreator username topic → ∀ d ∈ s.store.dms,
        ¬ (d.dmUserA = username ∧ d.dmUserB = c.user.name)) :
    Settled s' := by
  generalize hphase : c.phase = q at hmove
  generalize hstore : s'.store = s₁ at hmove
  cases hmove with
  | checked =>
      exact h.of_dms_eq hc (congrArg Store.dms hstore) hmem nofun nofun
  | failed =>
      exact h.of_dms_eq hc (congrArg Store.dms hstore) hmem nofun nofun
  | found hfound =>
      refine h.of_dms_eq hc (congrArg Store.dms hstore) hmem nofun ?_
      rintro username topic ⟨⟩
      exact findDMTopic_joins hfound
  | missing hrandom hnone =>
      refine h.of_dms_eq hc (congrArg Store.dms hstore) hmem ?_ nofun
      rintro username topic ⟨⟩
      exact ⟨generateDMTopicID_ne _, hunused _ (by simp [hrandom])⟩
  | stored hset =>
      subst hstore
      exact h.stored hc hphase hset hmem (hfree _ _ hphase rfl)
  | went hopened hopened' husers hdms =>
      refine h.of_dms_eq hc (by rw [hstore, hdms]) hmem ?_ ?_
      · intro username topic hinserting
        cases p <;> cases hinserting
        cases hopened'
      · intro username topic hopened₂
        have hbefore : c.phase.opened = some (username, topic) := by
          rw [hphase, hopened, ← hopened', hopened₂]
        exact h.answered c hc username topic hbefore

/-- What a call of a request leaves behind. -/
theorem step_call
    {id : Nat} {fails : Call → Bool} {random : Option (Vector UInt8 16)}
    (h : step s (.call id fails random) = some s') :
    ∃ c ∈ s.requests, c.id = id ∧ c.phase.result = none ∧
      (∀ b ∈ random, Unused s (generateDMTopicID b)) ∧
      s'.store = (advance s.store fails random c.user c.body c.phase).1 ∧
      ∀ d, d ∈ s'.requests ↔
        d = { c with phase :=
          (advance s.store fails random c.user c.body c.phase).2 } ∨
        (d ∈ s.requests ∧ d.id ≠ c.id) := by
  simp only [step] at h
  split at h
  · cases h
  · rename_i c hfind
    obtain ⟨hc, rfl⟩ := Table.find?_eq_some_iff.mp hfind
    split at h
    case isFalse =>
      cases h
    case isTrue hrest =>
      cases h
      refine ⟨c, hc, rfl, Option.isNone_iff_eq_none.mp hrest.1, ?_, rfl,
        fun d => ?_⟩
      · exact fun b hb => hrest.2 _ (Option.mem_map_of_mem _ hb)
      · exact Table.mem_modify_key_iff (by intro e; split <;> rfl) hc rfl

/-- The invariant is kept by every step that stores a DM only for a free pair. -/
theorem Settled.step
    {l : Label}
    (h : Settled s)
    (hnone : StillNone s l)
    (hstep : step s l = some s') :
    Settled s' := by
  cases l with
  | start id username body =>
      simp only [DirectMessages.step] at hstep
      split at hstep
      · cases hstep
      · rename_i u huser
        obtain ⟨hu, hname⟩ := user_eq_some_iff.mp huser
        obtain ⟨requests, hins, rfl⟩ := Option.map_eq_some_iff.mp hstep
        have hmem : ∀ d, d ∈ requests ↔ d ∈ s.requests ∨
            d = ⟨id, u, body, .check⟩ := fun d => Table.mem_insert?_iff hins
        constructor
        case onePerPair =>
          exact h.onePerPair
        case named =>
          exact h.named
        case callers =>
          intro d hd
          rcases (hmem d).mp hd with hd | rfl
          · exact h.callers d hd
          · rintro hempty
            rcases s.store.db.names_allowed u hu with heveryone | hallowed
            · rw [hempty] at heveryone
              exact absurd heveryone (by decide)
            · rw [hempty] at hallowed
              exact absurd hallowed (by decide)
        case pending =>
          intro d hd username' topic hphase
          rcases (hmem d).mp hd with hd | rfl
          · obtain ⟨hne, hstored, hothers⟩ :=
              h.pending d hd username' topic hphase
            refine ⟨hne, hstored, fun e he hetopic => ?_⟩
            rcases (hmem e).mp he with he | rfl
            · exact hothers e he hetopic
            · cases hetopic
          · cases hphase
        case answered =>
          intro d hd username' topic hphase
          rcases (hmem d).mp hd with hd | rfl
          · exact h.answered d hd username' topic hphase
          · cases hphase
  | call id fails random =>
      obtain ⟨c, hc, rfl, hresult, hunused, hstore, hmem⟩ := step_call hstep
      have hmove : Move random c.user.name s.store c.phase s'.store
          (advance s.store fails random c.user c.body c.phase).2 := by
        rw [hstore]
        exact advance_move c.phase hresult
      refine h.move hc hmove hunused hmem ?_
      intro username topic hphase hgranted d hd
      rw [hphase] at hgranted
      dsimp only [advance] at hgranted
      split at hgranted
      · cases hgranted
      · rename_i hset
        obtain ⟨hfails, htaken, -⟩ := setDMTopicMeta_eq_ok hset
        exact hnone (by rw [hstep]; rfl) c hc rfl (username, topic)
          (by rw [hphase]; rfl) hfails htaken d hd


/-- The other order of the pair was stored since the look-up, and the index admits it. -/
theorem not_onePerPair_of_stored
    {l : Label}
    (h : Settled s)
    (hnone : ¬ StillNone s l) :
    ∃ s', step s l = some s' ∧ ¬ OnePerPair s'.store := by
  cases l with
  | start id username body =>
      exact absurd trivial hnone
  | call id fails random =>
      simp only [StillNone, Classical.not_imp, not_forall, not_not] at hnone
      obtain ⟨hsome, c, hc, rfl, ⟨username, topic⟩, hp, hfails, htaken, d, hd,
        hA, hB⟩ := hnone
      obtain ⟨s', hstep⟩ := Option.isSome_iff_exists.mp hsome
      refine ⟨s', hstep, fun hone => ?_⟩
      obtain ⟨c', hc', hid, -, -, hstore, -⟩ := step_call hstep
      have hsame := Table.eq_of_key_eq hc' hc hid
      subst hsame
      have hphase : c'.phase = .insert username topic := by
        cases hcphase : c'.phase <;> simp [hcphase, Phase.inserting] at hp
        rw [hp.1, hp.2]
      obtain ⟨-, hstored, -⟩ :=
        h.pending c' hc' username topic (by rw [hphase]; rfl)
      rw [hphase, advance, hfails] at hstore
      split at hstore
      case h_1 hset =>
        simp [setDMTopicMeta, htaken] at hset
      case h_2 s₁ hset =>
        dsimp only at hstore
        obtain ⟨-, -, -, -, hdms⟩ := setDMTopicMeta_eq_ok hset
        have heq : DMRow.mk topic c'.user.name username = d := by
          refine hone _ ?_ d ?_ ?_
          · rw [hstore, hdms]
            exact Or.inl rfl
          · rw [hstore, hdms]
            exact Or.inr ⟨hd, hstored d hd⟩
          · exact decide_eq_true (Or.inr ⟨hB.symm, hA.symm⟩)
        exact hstored d hd (congrArg DMRow.topic heq).symm

end Agreement

section Runs

/-- No request has started, and no pair has two DMs. -/
structure Quiet (s : State) : Prop where
  requests : s.requests.rows = []
  onePerPair : OnePerPair s.store
  named : ∀ d ∈ s.store.dms, d.topic ≠ ""

theorem Quiet.settled
    {s : State}
    (h : Quiet s) :
    Settled s := by
  have hnone : ∀ c, c ∉ s.requests := by
    intro c hc
    rw [Table.mem_def, h.requests] at hc
    cases hc
  exact ⟨h.onePerPair, h.named, fun c hc => absurd hc (hnone c),
    fun c hc => absurd hc (hnone c), fun c hc => absurd hc (hnone c)⟩

/--
In a run that starts without requests and without two DMs for one pair, every
state reached has one DM for each pair, and one answer, exactly when topics are
stored only while their pair has none.
-/
theorem one_dm_per_pair_iff
    {s : State} {ls : List Label}
    (h : Quiet s) :
    Along step (fun s l => ∀ s', step s l = some s' → Agreed s') s ls
      ↔
    Along step StillNone s ls := by
  have hnone : ∀ s l, Settled s →
      (∀ s', step s l = some s' → Agreed s') → StillNone s l := by
    intro s l hsettled hagreed
    by_contra hcross
    obtain ⟨s', hstep, htwo⟩ := not_onePerPair_of_stored hsettled hcross
    exact htwo (hagreed s' hstep).1
  refine Along.congr_of_invariant ?_ ?_ h.settled
  · intro s l hsettled
    constructor
    · exact hnone s l hsettled
    · intro hfree s' hstep
      exact (hsettled.step hfree hstep).agreed
  · intro s l s' hsettled hagreed hstep
    exact hsettled.step (hnone s l hsettled hagreed) hstep

/-- Alice and bob are contacts of each other and have no DM. -/
def exampleStore : Store where
  db :=
    { twoUsers .empty with
      contacts :=
        { rows := [⟨"u_a", "u_b", .accepted⟩, ⟨"u_b", "u_a", .accepted⟩]
          nodup := by decide } }
  texts := .empty
  dms := .empty

/-- No request has started. -/
def exampleState : State where
  store := exampleStore
  requests := .empty

theorem quiet_exampleState :
    Quiet exampleState where
  requests := rfl
  onePerPair := fun d hd => absurd hd (Table.not_mem_empty d)
  named := fun d hd => absurd hd (Table.not_mem_empty d)

/-- A call that does not fail, with a random byte for a new topic. -/
def exampleCall
    (id : Nat)
    (random : Option UInt8) : Label :=
  .call id (fun _ => false) (random.map (fun b => Vector.replicate 16 b))

/-- One after the other, alice and bob get the same DM. -/
theorem second_opens_the_same :
    Along step (fun s l => ∀ s', step s l = some s' → Agreed s') exampleState
      ([.start 1 "alice" (some "bob"), exampleCall 1 none,
          exampleCall 1 (some 1)] ++
        List.replicate 4 (exampleCall 1 none) ++
        .start 2 "bob" (some "alice") ::
          List.replicate 3 (exampleCall 2 none)) :=
  (one_dm_per_pair_iff quiet_exampleState).mpr (by decide)

/-- Alice and bob open a chat with each other at once. -/
def exampleCrossing : List Label :=
  [.start 1 "alice" (some "bob"), .start 2 "bob" (some "alice"),
    exampleCall 1 none, exampleCall 2 none,
    exampleCall 1 (some 1), exampleCall 2 (some 2),
    exampleCall 1 none, exampleCall 2 none]

/-- Both find no DM, and each stores one: the index is on the ordered pair. -/
theorem chats_opened_at_once :
    Quiet exampleState ∧
      ∃ s, run step exampleState exampleCrossing = some s ∧ ¬ Agreed s := by
  refine ⟨quiet_exampleState, ?_⟩
  have hrows : (run step exampleState exampleCrossing).map
      (fun s => s.store.dms.rows) =
      some
        [⟨"dm_01010101010101010101010101010101", "alice", "bob"⟩,
          ⟨"dm_02020202020202020202020202020202", "bob", "alice"⟩] := by
    decide
  obtain ⟨s, hrun, hdms⟩ := Option.map_eq_some_iff.mp hrows
  refine ⟨s, hrun, fun hagreed => ?_⟩
  have hsame := hagreed.1
    ⟨"dm_01010101010101010101010101010101", "alice", "bob"⟩
    (by simp [Table.mem_def, hdms])
    ⟨"dm_02020202020202020202020202020202", "bob", "alice"⟩
    (by simp [Table.mem_def, hdms]) (by decide)
  exact absurd hsame (by decide)

end Runs

section Usability

/-- The user may read and write the topic. -/
def MayUse
    (db : Database)
    (defaultAccess : Permission)
    (v : User)
    (topic : String) : Prop :=
  authorize db defaultAccess (some v) topic .read = .ok () ∧
    authorize db defaultAccess (some v) topic .write = .ok ()

/--
Success means that both users may read and write the topic, an error that no DM
and no access entry was added.
-/
def Usable
    (defaultAccess : Permission)
    (u : User)
    (body : Option String)
    (s s' : Store) : Except HandlerError DMCreateResponse → Prop
  | .ok r =>
      MayUse s'.db defaultAccess u r.topic ∧
        ∃ username ∈ body, ∃ v, s'.db.user username = some v ∧
          MayUse s'.db defaultAccess v r.topic
  | .error _ =>
      (∀ d ∈ s'.dms, d ∈ s.dms) ∧ ∀ a ∈ s'.db.access, a ∈ s.db.access

/-- Nothing refers to a topic that was just generated. -/
structure Fresh
    (s : Store)
    (topic : String) : Prop where
  dms : ∀ d ∈ s.dms, d.topic ≠ topic
  access : ∀ a ∈ s.db.access, a.topic.1 ≠ toSQLWildcard topic

/-- The rank of a new entry with write access for exactly this topic. -/
def newKey (username topic : String) : String ×ₗ Nat ×ₗ Bool :=
  toLex (username, toLex ((toSQLWildcard topic).toList.length, true))

/--
A new entry of the user decides about the topic, or the entry that is ranked
before it grants read-write access as well.
-/
def GrantDecides
    (db : Database)
    (v : User)
    (topic : String) : Prop :=
  v.role = .admin ∨
    ∀ e ∈ (selectTopicPerms db v.name topic).head?,
      newKey v.name topic ≤ topicPermsKey e → e.row.permission = .readWrite

/--
Whenever the checks and the look-up go through: both users can use the topic
that is found; or, once the metadata of a new one is stored, no grant fails and
both grants decide.
-/
def LeavesUsable
    (s : Store)
    (defaultAccess : Permission)
    (fails : Call → Bool)
    (random : Option (Vector UInt8 16))
    (u : User)
    (body : Option String) : Prop :=
  ∀ username, checks s.db fails u body = .ok username →
    fails .findDMTopic = false →
      if findDMTopic s u.name username = "" then
        ∀ b ∈ random, fails .setDMTopicMeta = false →
          pairTaken s (generateDMTopicID b) u.name username = false →
            (s.db.user u.name).isSome ∧ fails .allowCreator = false ∧
              fails .allowPartner = false ∧
              GrantDecides s.db u (generateDMTopicID b) ∧
              ∀ v, s.db.user username = some v →
                GrantDecides s.db v (generateDMTopicID b)
      else
        MayUse s.db defaultAccess u (findDMTopic s u.name username) ∧
          ∀ v, s.db.user username = some v →
            MayUse s.db defaultAccess v (findDMTopic s u.name username)

variable {db db' : Database}
variable {defaultAccess : Permission}
variable {u v : User}
variable {topic : String}

theorem resolvePerms_both_iff
    {base : Permission} :
    (resolvePerms base .read = .ok () ∧ resolvePerms base .write = .ok ())
      ↔
    base = .readWrite := by
  cases base <;> decide

theorem mayUse_iff :
    MayUse db defaultAccess v topic
      ↔
    v.role = .admin ∨
      ((selectTopicPerms db v.name topic).head?.map
        (fun e => e.row.permission)).getD defaultAccess = .readWrite := by
  unfold MayUse
  by_cases hadmin : v.role = .admin
  · simp [authorize, isAdmin, hadmin]
  · have hrole : isAdmin (some v) = false := by
      simpa [isAdmin] using hadmin
    rw [authorize_eq_top hrole, authorize_eq_top hrole, resolvePerms_both_iff]
    simp only [hadmin, false_or]
    rfl

/-- A new entry for exactly the topic is selected for its user. -/
theorem selected_of_stored
    {e : Entry}
    (htopic : allowedTopic topic = true)
    (hrow : e.row.topic.1 = toSQLWildcard topic) :
    sqlLike '\\' topic e.row.topic.1 = true := by
  rw [hrow]
  refine sqlLike_of_globMatch (allowedTopicPattern_of_allowedTopic htopic) ?_
  exact (globMatch_of_no_star (star_not_mem_of_allowedTopic htopic) topic).mpr rfl

/--
Of two new read-write entries for the topic, the one of the user is ranked as if
it were alone.
-/
theorem head_selectTopicPerms_of_two
    {x z : Entry}
    (htopic : allowedTopic topic = true)
    (hentries : db'.entries = db.entries ++ [x, z] ∨
      db'.entries = db.entries ++ [z, x])
    (hname : x.name = v.name)
    (hx : x.row.topic.1 = toSQLWildcard topic)
    (hz : z.row.topic.1 = toSQLWildcard topic)
    (hother : z.name = everyone → everyone < x.name)
    (hne : z.name ≠ x.name) :
    (selectTopicPerms db' v.name topic).head? =
      match (selectTopicPerms db v.name topic).head? with
      | none => some x
      | some e => if topicPermsKey x ≤ topicPermsKey e then some e else some x := by
  obtain ⟨p, hp, hselect⟩ : ∃ p : Entry → Bool,
      (∀ e, p e = ((decide (e.name = everyone) || decide (e.name = v.name)) &&
        sqlLike '\\' topic e.row.topic.1)) ∧
      ∀ db : Database, (selectTopicPerms db v.name topic).head? =
        top topicPermsKey (db.entries.filter p) :=
    ⟨_, fun _ => rfl, fun _ => rfl⟩
  have hxsel : p x = true := by
    simp [hp, hname, selected_of_stored htopic hx]
  have hone : (selectTopicPerms db' v.name topic).head? =
      top topicPermsKey (db.entries.filter p ++ [x]) := by
    rw [hselect]
    by_cases heveryone : z.name = everyone
    · have hzsel : p z = true := by
        simp [hp, heveryone, selected_of_stored htopic hz]
      have hlt : topicPermsKey z < topicPermsKey x := by
        refine Prod.Lex.toLex_lt_toLex.mpr (Or.inl ?_)
        rw [heveryone]
        exact hother heveryone
      obtain ⟨hleft, hright⟩ := top_append_of_lt hlt (db.entries.filter p)
      rcases hentries with hentries | hentries
      · rw [hentries, List.filter_append, ← hleft]
        simp [hxsel, hzsel]
      · rw [hentries, List.filter_append, ← hright]
        simp [hxsel, hzsel]
    · have hzsel : p z = false := by
        simp [hp, heveryone, ← hname, hne]
      rcases hentries with hentries | hentries
      · rw [hentries, List.filter_append]
        simp [hxsel, hzsel]
      · rw [hentries, List.filter_append]
        simp [hxsel, hzsel]
  rw [hone, top_append_singleton, hselect]
  cases top topicPermsKey (db.entries.filter p) with
  | none =>
      rfl
  | some e =>
      by_cases hle : topicPermsKey x ≤ topicPermsKey e
      · simp only [if_pos hle]
      · simp only [if_neg hle]

/-- After both grants the user can use the topic exactly if the grant decides. -/
theorem mayUse_iff_grantDecides
    {x z : Entry}
    (htopic : allowedTopic topic = true)
    (hentries : db'.entries = db.entries ++ [x, z] ∨
      db'.entries = db.entries ++ [z, x])
    (hname : x.name = v.name)
    (hx : x.row.topic.1 = toSQLWildcard topic)
    (hz : z.row.topic.1 = toSQLWildcard topic)
    (hperm : x.row.permission = .readWrite)
    (hwrite : x.row.write = true)
    (hother : z.name = everyone → everyone < x.name)
    (hne : z.name ≠ x.name) :
    MayUse db' defaultAccess v topic ↔ GrantDecides db v topic := by
  have hkey : topicPermsKey x = newKey v.name topic := by
    rw [topicPermsKey, hname, hx, hwrite, newKey]
  rw [mayUse_iff, GrantDecides,
    head_selectTopicPerms_of_two htopic hentries hname hx hz hother hne, hkey]
  refine or_congr_right ?_
  cases (selectTopicPerms db v.name topic).head? with
  | none =>
      simp [hperm]
  | some e =>
      by_cases hle : newKey v.name topic ≤ topicPermsKey e
      · simp [hle]
      · simp [hle, hperm]

/-- A generated topic is a valid topic name. -/
theorem allowedTopic_generateDMTopicID
    (b : Vector UInt8 16) :
    allowedTopic (generateDMTopicID b) = true := by
  have hdigit : ∀ n < 16, topicChar (hexDigit n) = true := by
    decide
  have hhex : ∀ c ∈ hexEncode b.toList, topicChar c = true := by
    intro c hc
    obtain ⟨x, -, hx⟩ := List.mem_flatMap.mp hc
    have hbyte : x.toNat < 256 := x.toNat_lt
    simp only [List.mem_cons, List.not_mem_nil, or_false] at hx
    rcases hx with rfl | rfl
    · exact hdigit _ (by omega)
    · exact hdigit _ (by omega)
  have hlength : (hexEncode b.toList).length = 32 := by
    simp [hexEncode, List.length_flatMap]
  have hall : "dm_".toList.all topicChar = true := by
    decide
  have hprefix : ∀ c ∈ "dm_".toList, topicChar c = true :=
    List.all_eq_true.mp hall
  simp only [allowedTopic, generateDMTopicID, String.toList_ofList,
    List.length_append, hlength, Bool.and_eq_true, decide_eq_true_eq,
    List.all_eq_true, List.mem_append]
  have hthree : "dm_".toList.length = 3 := by
    decide
  refine ⟨⟨by omega, by omega⟩, ?_⟩
  rintro c (hc | hc)
  · exact hprefix c hc
  · exact hhex c hc

/-- A grant for a valid topic needs an existing user and a write that goes through. -/
theorem grantAccess_isOk_iff
    {s : Store} {fails : Bool} {username : String}
    (htopic : allowedTopic topic = true) :
    (∃ s', grantAccess s fails username topic = .ok s')
      ↔
    fails = false ∧ (s.db.user username).isSome := by
  have hgrant : (∃ s', grantAccess s fails username topic = .ok s') ↔
      ∃ db, Groups.grant s.db fails username topic = .ok db := by
    unfold grantAccess
    cases Groups.grant s.db fails username topic <;> simp
  have hpattern := allowedTopicPattern_of_allowedTopic htopic
  rw [hgrant, Groups.grant]
  cases fails with
  | true =>
      simp
  | false =>
      simp only [Bool.false_eq_true, if_false, true_and]
      rw [allowAccess_isOk_iff, userID, Option.isSome_map]
      exact and_iff_left hpattern

variable {s : Store}
variable {fails : Call → Bool}
variable {random : Option (Vector UInt8 16)}
variable {body : Option String}

/-- The checks return the name in the body, that of another existing user. -/
theorem checks_eq_ok
    {username : String}
    (h : checks db fails u body = .ok username) :
    body = some username ∧ username ≠ u.name ∧
      ∃ v, db.user username = some v := by
  unfold checks at h
  split at h
  case h_1 =>
    cases h
  case h_2 name =>
    by_cases hname : name = "" ∨ name = u.name
    · rw [if_pos hname] at h
      cases h
    · rw [if_neg hname] at h
      by_cases huser : (fails .user || (db.user name).isNone) = true
      · rw [if_pos huser] at h
        cases h
      · rw [if_neg huser] at h
        rw [not_or] at hname
        simp only [Bool.or_eq_true, not_or, Bool.not_eq_true,
          Option.isNone_eq_false_iff, Option.isSome_iff_exists] at huser
        have hok : name = username := by
          repeat' split at h
          all_goals cases h
          all_goals rfl
        subst hok
        exact ⟨rfl, hname.2, huser.2⟩

/-- Opening a DM changes no user. -/
theorem user_createDM
    (s : Store) (fails : Call → Bool) (u : User) (username topic : String) :
    (createDM s fails u username topic).1.db.user = s.db.user := by
  have husers : (createDM s fails u username topic).1.db.users =
      s.db.users := by
    unfold createDM
    split
    · rfl
    · rename_i s₁ hset
      have hset₁ := (setDMTopicMeta_eq_ok hset).2.2.1
      split
      · exact hset₁
      · rename_i s₂ hcreator
        obtain ⟨-, -, -, hallow⟩ := grantAccess_eq_ok hcreator
        obtain ⟨-, -, -, husers₂, -⟩ := allowAccess_eq_ok hallow
        split
        · exact husers₂.trans hset₁
        · rename_i s₃ hpartner
          obtain ⟨-, -, -, hallow'⟩ := grantAccess_eq_ok hpartner
          obtain ⟨-, -, -, husers₃, -⟩ := allowAccess_eq_ok hallow'
          exact (husers₃.trans husers₂).trans hset₁
  funext name
  simp only [Database.user, husers]

variable (defaultAccess) in
/-- What a DM request comes to once the metadata of a new topic is stored. -/
theorem usable_createDM_iff
    {s₁ : Store} {username topic : String}
    (htopic : allowedTopic topic = true)
    (hfresh : Fresh s topic)
    (hset : setDMTopicMeta s (fails .setDMTopicMeta) topic u.name username =
      .ok s₁)
    (hne : username ≠ u.name)
    (hv : s.db.user username = some v) :
    (match createDM s fails u username topic with
      | (s', .error _) => (∀ d ∈ s'.dms, d ∈ s.dms) ∧
          ∀ a ∈ s'.db.access, a ∈ s.db.access
      | (s', .ok ()) => MayUse s'.db defaultAccess u topic ∧
          MayUse s'.db defaultAccess v topic)
      ↔
    (s.db.user u.name).isSome ∧ fails .allowCreator = false ∧
      fails .allowPartner = false ∧ GrantDecides s.db u topic ∧
      GrantDecides s.db v topic := by
  obtain ⟨-, -, husers, haccess, hdms⟩ := setDMTopicMeta_eq_ok hset
  have huser : s₁.db.user = s.db.user := by
    funext name
    simp only [Database.user, husers]
  have hentries : s₁.db.entries = s.db.entries := by
    simp only [entries, husers, haccess]
  -- the metadata of the new topic is there whatever comes next
  have hadded : ∀ s' : Store, s'.dms = s₁.dms → ¬ ∀ d ∈ s'.dms, d ∈ s.dms := by
    intro s' hsame hall
    have hnew := hall ⟨topic, u.name, username⟩
      (by rw [hsame, hdms]; exact Or.inl rfl)
    exact hfresh.dms _ hnew rfl
  cases hcreator : grantAccess s₁ (fails .allowCreator) u.name topic with
  | error e =>
      have heq : createDM s fails u username topic = (s₁, .error e) := by
        simp only [createDM, hset, hcreator]
      have hno : ¬ (fails .allowCreator = false ∧
          (s₁.db.user u.name).isSome) := by
        rw [← grantAccess_isOk_iff htopic, hcreator]
        simp
      rw [huser] at hno
      rw [heq]
      exact iff_of_false (fun h => hadded s₁ rfl h.1)
        (fun h => hno ⟨h.2.1, h.1⟩)
  | ok s₂ =>
      obtain ⟨hfails, hdms₂, -, hallow⟩ := grantAccess_eq_ok hcreator
      have hsome := ((grantAccess_isOk_iff htopic).mp ⟨s₂, hcreator⟩).2
      rw [huser] at hsome
      obtain ⟨id, -, -, husers₂, -⟩ := allowAccess_eq_ok hallow
      have huser₂ : s₂.db.user = s.db.user := by
        funext name
        simp only [Database.user, husers₂, husers]
      cases hpartner : grantAccess s₂ (fails .allowPartner) username topic with
      | error e =>
          have heq : createDM s fails u username topic = (s₂, .error e) := by
            simp only [createDM, hset, hcreator, hpartner]
          have hno : ¬ (fails .allowPartner = false ∧
              (s₂.db.user username).isSome) := by
            rw [← grantAccess_isOk_iff htopic, hpartner]
            simp
          rw [huser₂, hv] at hno
          rw [heq]
          exact iff_of_false (fun h => hadded s₂ hdms₂ h.1)
            (fun h => hno ⟨h.2.2.1, rfl⟩)
      | ok s₃ =>
          have heq : createDM s fails u username topic = (s₃, .ok ()) := by
            simp only [createDM, hset, hcreator, hpartner]
          obtain ⟨hfails', -, -, hallow'⟩ := grantAccess_eq_ok hpartner
          obtain ⟨A, hA, hArows, hAid, hAtopic, hAperm, hAwrite⟩ :=
            entries_allowAccess
              (fun a ha _ => hfresh.access a (by rwa [haccess] at ha)) hallow
          have hfree : ∀ a ∈ s₂.db.access,
              s₂.db.userID username = some a.userId →
                a.topic.1 ≠ toSQLWildcard topic := by
            intro a ha hid
            rw [Table.mem_def, hArows, List.mem_append, List.mem_singleton,
              haccess] at ha
            rcases ha with ha | rfl
            · exact hfresh.access a ha
            · rw [userID_congr husers₂] at hid
              exact absurd (userID_injective hid hAid) hne
          obtain ⟨B, hB, -, hBid, hBtopic, hBperm, hBwrite⟩ :=
            entries_allowAccess hfree hallow'
          have hboth : s₃.db.entries =
              s.db.entries ++ [⟨u.name, A⟩, ⟨username, B⟩] := by
            rw [hB, hA, hentries, List.append_assoc, List.singleton_append]
          have hvname : username = v.name := (user_eq_some_iff.mp hv).2.symm
          rw [heq]
          refine Iff.trans (and_congr
            (mayUse_iff_grantDecides (x := ⟨u.name, A⟩) (z := ⟨username, B⟩)
              htopic (Or.inl hboth) rfl hAtopic hBtopic hAperm hAwrite ?_ hne)
            (mayUse_iff_grantDecides (x := ⟨username, B⟩) (z := ⟨u.name, A⟩)
              htopic (Or.inr hboth) hvname hBtopic hAtopic hBperm hBwrite ?_
              hne.symm)) ?_
          · intro heveryone
            refine everyone_lt_of_allowedUsername ?_
            rcases name_of_userID hAid with hname | hname
            · exact absurd (heveryone.trans hname.symm) hne
            · exact hname
          · intro heveryone
            refine everyone_lt_of_allowedUsername ?_
            rcases name_of_userID hBid with hname | hname
            · exact absurd (hname.trans heveryone.symm) hne
            · exact hname
          · simp [hsome, hfails, hfails']

/-- The topic of the response is the one that was opened. -/
@[simp] theorem respond_topic
    (s : Store) (fails : Call → Bool) (username topic : String) :
    (respond s fails username topic).topic = topic := by
  rfl

/--
A DM request that succeeds leaves both users with a topic they can use, and one
that fails adds nothing, exactly under the condition.
-/
theorem dm_creation_usable_iff
    (s : Store)
    (defaultAccess : Permission)
    (fails : Call → Bool)
    (random : Option (Vector UInt8 16))
    (u : User)
    (body : Option String)
    (hfresh : ∀ b ∈ random, Fresh s (generateDMTopicID b)) :
    Usable defaultAccess u body s (handleDMCreate s fails random u body).1
        (handleDMCreate s fails random u body).2
      ↔
    LeavesUsable s defaultAccess fails random u body := by
  have hsame : ∀ e, Usable defaultAccess u body s s (.error e) :=
    fun _ => ⟨fun _ hd => hd, fun _ ha => ha⟩
  unfold LeavesUsable
  cases hcheck : checks s.db fails u body with
  | error e =>
      have heq : handleDMCreate s fails random u body = (s, .error e) := by
        simp only [handleDMCreate, hcheck]
      rw [heq]
      exact iff_of_true (hsame e) nofun
  | ok username =>
      obtain ⟨rfl, hne, v, hv⟩ := checks_eq_ok hcheck
      have hpair : ∀ (s' : Store) (topic : String), s'.db.user = s.db.user →
          ((MayUse s'.db defaultAccess u topic ∧
            ∃ name ∈ some username, ∃ v, s'.db.user name = some v ∧
              MayUse s'.db defaultAccess v topic) ↔
          (MayUse s'.db defaultAccess u topic ∧
            MayUse s'.db defaultAccess v topic)) := by
        intro s' topic huser
        simp [huser, hv]
      simp only [Except.ok.injEq, forall_eq', hv, Option.some.injEq]
      cases hfind : fails .findDMTopic with
      | true =>
          have heq : handleDMCreate s fails random u (some username) =
              (s, .error (.manager .database)) := by
            simp [handleDMCreate, hcheck, lookUp, hfind]
          rw [heq]
          exact iff_of_true (hsame _) nofun
      | false =>
          simp only [forall_true_left]
          by_cases hempty : findDMTopic s u.name username = ""
          · rw [if_pos hempty]
            cases random with
            | none =>
                have heq : handleDMCreate s fails none u (some username) =
                    (s, .error (.http errHTTPInternalError)) := by
                  simp [handleDMCreate, hcheck, lookUp, hfind, hempty]
                rw [heq]
                exact iff_of_true (hsame _) nofun
            | some b =>
                simp only [Option.mem_def, Option.some.injEq, forall_eq']
                cases hset : setDMTopicMeta s (fails .setDMTopicMeta)
                    (generateDMTopicID b) u.name username with
                | error e =>
                    have heq : handleDMCreate s fails (some b) u
                        (some username) = (s, .error (.manager e)) := by
                      simp [handleDMCreate, hcheck, lookUp, hfind, hempty,
                        createDM, hset]
                    rw [heq]
                    refine iff_of_true (hsame _) fun hok htaken => ?_
                    simp [setDMTopicMeta, hok, htaken] at hset
                | ok s₁ =>
                    obtain ⟨hok, htaken, -⟩ := setDMTopicMeta_eq_ok hset
                    have huser := user_createDM s fails u username
                      (generateDMTopicID b)
                    have hiff := usable_createDM_iff defaultAccess
                      (allowedTopic_generateDMTopicID b)
                      (hfresh b rfl) hset hne hv
                    simp only [hok, htaken, forall_true_left]
                    rw [← hiff]
                    cases hcreate : createDM s fails u username
                        (generateDMTopicID b) with
                    | mk s' result =>
                        rw [hcreate] at huser
                        cases result with
                        | error e =>
                            have heq : handleDMCreate s fails (some b) u
                                (some username) = (s', .error e) := by
                              simp [handleDMCreate, hcheck, lookUp, hfind,
                                hempty, hcreate]
                            rw [heq]
                            exact Iff.rfl
                        | ok _ =>
                            have heq : handleDMCreate s fails (some b) u
                                (some username) =
                                (s', .ok (respond s' fails username
                                  (generateDMTopicID b))) := by
                              simp [handleDMCreate, hcheck, lookUp, hfind,
                                hempty, hcreate]
                            rw [heq]
                            exact hpair s' _ huser
          · rw [if_neg hempty]
            have heq : handleDMCreate s fails random u (some username) =
                (s, .ok (respond s fails username
                  (findDMTopic s u.name username))) := by
              simp [handleDMCreate, hcheck, lookUp, hfind, hempty]
            rw [heq]
            exact hpair s _ rfl

def exampleUser : User :=
  ⟨"u_a", "alice", .user, some ⟨"basic", 1⟩, ⟨0, 0, 0⟩, false⟩

def examplePartner : User :=
  ⟨"u_b", "bob", .user, some ⟨"basic", 1⟩, ⟨0, 0, 0⟩, false⟩

/-- The first chat of alice and bob is one they can use. -/
theorem first_chat_usable :
    Usable .denyAll exampleUser (some "bob") exampleStore
      (handleDMCreate exampleStore (fun _ => false)
        (some (Vector.replicate 16 1)) exampleUser (some "bob")).1
      (handleDMCreate exampleStore (fun _ => false)
        (some (Vector.replicate 16 1)) exampleUser (some "bob")).2 := by
  have hnone : ∀ name topic,
      (selectTopicPerms exampleStore.db name topic).head? = none :=
    fun _ _ => rfl
  refine (dm_creation_usable_iff exampleStore .denyAll (fun _ => false)
    (some (Vector.replicate 16 1)) exampleUser (some "bob") ?_).mpr ?_
  · intro b _
    exact ⟨fun d hd => absurd hd (Table.not_mem_empty d),
      fun a ha => absurd ha (Table.not_mem_empty a)⟩
  · intro username _ _
    have hempty : findDMTopic exampleStore exampleUser.name username = "" := rfl
    rw [if_pos hempty]
    intro b _ _ _
    have hdecides : ∀ v topic, GrantDecides exampleStore.db v topic := by
      intro v topic
      refine Or.inr fun e he => ?_
      rw [hnone] at he
      cases he
    refine ⟨by decide, rfl, rfl, hdecides _ _, fun v _ => hdecides _ _⟩

/-- The chat of alice and bob, stored by a request whose first grant fails. -/
def exampleStored : Store × Except HandlerError DMCreateResponse :=
  handleDMCreate exampleStore (fun c => decide (c = .allowCreator))
    (some (Vector.replicate 16 1)) exampleUser (some "bob")

/--
The request fails but its DM stays, and the next request succeeds with a topic
that bob, who makes it, cannot read.
-/
theorem failed_grant_leaves_unusable_chat :
    exampleStored.2 = .error (.manager .database) ∧
      exampleStored.1.dms.rows =
        [⟨"dm_01010101010101010101010101010101", "alice", "bob"⟩] ∧
      (handleDMCreate exampleStored.1 (fun _ => false) none examplePartner
        (some "alice")).2 =
        .ok ⟨"dm_01010101010101010101010101010101", "alice"⟩ ∧
      authorize (handleDMCreate exampleStored.1 (fun _ => false) none
          examplePartner (some "alice")).1.db .denyAll (some examplePartner)
        "dm_01010101010101010101010101010101" .read = .error .unauthorized := by
  decide

end Usability

end DirectMessages

end Server
end CoopMessenger
