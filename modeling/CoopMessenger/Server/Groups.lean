import CoopMessenger.Library.Runs
import CoopMessenger.Manager.Database
import CoopMessenger.Server.Errors

/-!
# Group creation

`handleGroupCreate` of `server/server_groups.go`.  A creation looks up the
metadata of its topic, grants access to the creator and to each member, and
writes the metadata.  Every database call is a step of its own, so creations of
different users interleave; any call may fail.

`Move` says what one call can do to the database and to the creation that makes
it, and the invariant is derived from that alone.

**Results.**
* `advance_move`: every database call is one of five moves.
* `Guarded.step`: creations that check a topic which is free stay alone on it.
* `creation_refused`: under that condition a creation whose topic somebody else
  has access to fails and writes nothing.
-/

namespace CoopMessenger
namespace Server

open Library Manager Manager.Database Util

namespace Groups

section Slug

/-- At most 64 characters; everything but `[a-zA-Z0-9_-]` is dropped. -/
def topicSlug (name : String) : String :=
  String.ofList
    (((replaceChar ' ' '-' ((trimSpace name.toList).map toLower)).filter
      topicChar).take 64)

/-- The topic derived from the name of a group. -/
def groupTopic (name : String) : String :=
  "grp_" ++ topicSlug name

end Slug

section Model

/-- The body of a request. -/
structure CreateRequest where
  name : String
  members : List String
deriving DecidableEq, Repr

/-- Where a creation is; the later phases name their next database call. -/
inductive Phase where
  | check
  | grantCreator
  | verify (member : String) (rest : List String)
  | grantMember (member : String) (rest : List String)
  | setMeta
  | created
  | failed (e : HandlerError)
deriving DecidableEq, Repr

/--
A creation in flight or finished.  `granted` keeps the IDs of the users to whom
it has granted access.
-/
structure Creation where
  id : Nat
  creator : String
  name : String
  members : List String
  topic : String
  phase : Phase
  granted : List String
deriving DecidableEq, Repr

structure State where
  db : Database
  creations : Table Creation.id

/-- The checks before the first database call; `none` is an invalid body. -/
def newCreation
    (id : Nat)
    (creator : String) :
    Option CreateRequest → Creation
  | none =>
      ⟨id, creator, "", [], "",
        .failed (.http (errHTTPBadRequest.wrap "invalid request body")), []⟩
  | some ⟨name, members⟩ =>
      { id, creator, name, members
        topic := groupTopic name
        phase :=
          if name = "" then
            .failed (.http (errHTTPBadRequest.wrap "group name required"))
          else if members.length = 0 then
            .failed (.http (errHTTPBadRequest.wrap
              "at least one member required"))
          else if members.length > 50 then
            .failed (.http (errHTTPBadRequest.wrap
              "too many members (max 50)"))
          else if groupTopic name = "grp_" then
            .failed (.http (errHTTPBadRequest.wrap "invalid group name"))
          else
            .check
        granted := [] }

/-- The call for the next member that is not the creator. -/
def nextMember
    (creator : String) :
    List String → Phase
  | [] => .setMeta
  | member :: rest =>
      if member = creator then
        nextMember creator rest
      else
        .verify member rest

/-- Grants read-write access, unless the database rejects the write. -/
def grant
    (db : Database)
    (fails : Bool)
    (username topic : String) : Except Manager.Error Database :=
  if fails then
    .error .database
  else
    db.allowAccess username topic .readWrite

/-- Note a grant that went through. -/
def Creation.note
    (c : Creation)
    (db : Database)
    (username : String)
    (phase : Phase) : Creation :=
  { c with phase, granted := c.granted ++ (db.userID username).toList }

/-- The next database call of a creation. -/
def advance
    (db : Database)
    (fails : Bool)
    (c : Creation) : Database × Creation :=
  match c.phase with
  | .check =>
      if fails then
        (db, { c with phase := .failed (.manager .database) })
      else if (db.meta? c.topic).isSome then
        (db, { c with phase := .failed (.http (errHTTPConflict.wrap
          "group name conflicts with existing topic")) })
      else
        (db, { c with phase := .grantCreator })
  | .grantCreator =>
      match grant db fails c.creator c.topic with
      | .error e => (db, { c with phase := .failed (.manager e) })
      | .ok db' =>
          (db', c.note db c.creator (nextMember c.creator c.members))
  | .verify member rest =>
      if fails || (db.user member).isNone then
        -- unknown members are skipped
        (db, { c with phase := nextMember c.creator rest })
      else
        (db, { c with phase := .grantMember member rest })
  | .grantMember member rest =>
      match grant db fails member c.topic with
      | .error _ =>
          -- the error is only logged
          (db, { c with phase := nextMember c.creator rest })
      | .ok db' => (db', c.note db member (nextMember c.creator rest))
  | .setMeta =>
      if fails then
        (db, { c with phase := .failed (.manager .database) })
      else
        (db.setTopicMeta ⟨c.topic, c.name, "", "", c.creator⟩,
          { c with phase := .created })
  | .created | .failed _ => (db, c)

theorem advance_id
    (db : Database) (fails : Bool) (c : Creation) :
    (advance db fails c).2.id = c.id := by
  unfold advance
  split
  · split
    · rfl
    · split <;> rfl
  · split <;> rfl
  · split <;> rfl
  · split <;> rfl
  · split <;> rfl
  · rfl
  · rfl

/-- Is the creation past its check and not finished? -/
def Creation.active (c : Creation) : Bool :=
  match c.phase with
  | .grantCreator | .verify _ _ | .grantMember _ _ | .setMeta => true
  | .check | .created | .failed _ => false

/-- Has the creation failed? -/
def Creation.hasFailed (c : Creation) : Bool :=
  match c.phase with
  | .failed _ => true
  | _ => false

/-- A request arrives, or a creation makes its next database call. -/
inductive Label where
  | start (id : Nat) (creator : String) (body : Option CreateRequest)
  | call (id : Nat) (fails : Bool)
deriving DecidableEq, Repr

/-- One step; `none` if it is not enabled. -/
def step
    (s : State) : Label → Option State
  | .start id creator body =>
      (s.creations.insert? (newCreation id creator body)).map
        (fun creations => { s with creations })
  | .call id fails =>
      match s.creations.find? id with
      | none => none
      | some c =>
          if c.phase = .check ∨ c.active then
            some
              { db := (advance s.db fails c).1
                creations :=
                  s.creations.modify
                    (fun d => if d.id = id then (advance s.db fails d).2 else d)
                    (by intro d; split <;> simp [advance_id]) }
          else
            none

end Model

section Moves

/--
What a database call can do to the database and to the creation: pass the check,
fail, go on, grant access, or complete the group.
-/
inductive Move
    (db : Database)
    (c : Creation) : Database → Creation → Prop
  | enter
      (hphase : c.phase = .check)
      (hmeta : ¬ (db.meta? c.topic).isSome) :
      Move db c db { c with phase := .grantCreator }
  | fail
      (e : HandlerError) :
      Move db c db { c with phase := .failed e }
  | go
      {phase : Phase}
      (hactive : c.active = true)
      (hnext : { c with phase }.active = true) :
      Move db c db { c with phase }
  | grant
      {phase : Phase} {db' : Database} {username id : String}
      (hactive : c.active = true)
      (hnext : { c with phase }.active = true)
      (hid : db.userID username = some id)
      (hgrant : db.allowAccess username c.topic .readWrite = .ok db') :
      Move db c db' { c with phase, granted := c.granted ++ [id] }
  | complete
      (hactive : c.active = true)
      (m : TopicMeta)
      (hm : m.topic = c.topic) :
      Move db c (db.setTopicMeta m) { c with phase := .created }

variable {db db' : Database}
variable {c c' : Creation}
variable {fails : Bool}

/-- After a grant comes another member or the metadata. -/
theorem active_nextMember
    (c : Creation) (creator : String) (rest : List String) :
    { c with phase := nextMember creator rest }.active = true := by
  induction rest with
  | nil =>
      rfl
  | cons member rest ih =>
      unfold nextMember
      split
      · exact ih
      · rfl

/-- A write that goes through is a grant, noted by the creation. -/
theorem move_grant
    {username : String} {rest : List String}
    (hactive : c.active = true)
    (hgrant : grant db fails username c.topic = .ok db') :
    Move db c db' (c.note db username (nextMember c.creator rest)) := by
  unfold grant at hgrant
  split at hgrant
  · cases hgrant
  · obtain ⟨id, -, hid, -⟩ := allowAccess_eq_ok hgrant
    simp only [Creation.note, hid, Option.toList_some]
    exact Move.grant hactive (active_nextMember _ _ _) hid hgrant

/-- Every database call of a creation that is not finished is a move. -/
theorem advance_move
    (h : c.phase = .check ∨ c.active = true) :
    Move db c (advance db fails c).1 (advance db fails c).2 := by
  unfold advance
  split
  case h_1 hphase =>
    split
    · exact Move.fail _
    · split
      · exact Move.fail _
      · rename_i hmeta
        exact Move.enter hphase hmeta
  case h_2 hphase =>
    have hactive : c.active = true := by simp [Creation.active, hphase]
    split
    · exact Move.fail _
    · rename_i hgrant
      exact move_grant hactive hgrant
  case h_3 hphase =>
    have hactive : c.active = true := by simp [Creation.active, hphase]
    split
    · exact Move.go hactive (active_nextMember _ _ _)
    · exact Move.go hactive rfl
  case h_4 hphase =>
    have hactive : c.active = true := by simp [Creation.active, hphase]
    split
    · exact Move.go hactive (active_nextMember _ _ _)
    · rename_i hgrant
      exact move_grant hactive hgrant
  case h_5 hphase =>
    have hactive : c.active = true := by simp [Creation.active, hphase]
    split
    · exact Move.fail _
    · exact Move.complete hactive _ rfl
  case h_6 hphase =>
    simp [Creation.active, hphase] at h
  case h_7 hphase =>
    simp [Creation.active, hphase] at h

/-- No move changes who the users are, or whose creation it is. -/
theorem Move.frame
    (h : Move db c db' c') :
    db'.users = db.users ∧ c'.id = c.id ∧ c'.creator = c.creator ∧
      c'.topic = c.topic := by
  cases h with
  | enter hphase hmeta =>
      exact ⟨rfl, rfl, rfl, rfl⟩
  | fail e =>
      exact ⟨rfl, rfl, rfl, rfl⟩
  | go hactive hnext =>
      exact ⟨rfl, rfl, rfl, rfl⟩
  | grant hactive hnext hid hgrant =>
      obtain ⟨-, -, -, husers, -⟩ := allowAccess_eq_ok hgrant
      exact ⟨husers, rfl, rfl, rfl⟩
  | complete hactive m hm =>
      exact ⟨rfl, rfl, rfl, rfl⟩

/-- An active creation is past its check and not complete. -/
theorem phase_of_active
    (h : c.active = true) :
    c.phase ≠ .check ∧ c.phase ≠ .created := by
  constructor
  · intro hphase
    simp [Creation.active, hphase] at h
  · intro hphase
    simp [Creation.active, hphase] at h

/-- A creation is never checked twice. -/
theorem Move.phase_ne_check
    (h : Move db c db' c') :
    c'.phase ≠ .check := by
  cases h with
  | go hactive hnext =>
      exact (phase_of_active hnext).1
  | grant hactive hnext hid hgrant =>
      exact (phase_of_active hnext).1
  | _ =>
      simp

/-- A creation that is active after its move was so before, or passes its check. -/
theorem Move.active_before
    (h : Move db c db' c')
    (hactive' : c'.active = true) :
    c.active = true ∨ (c.phase = .check ∧ ¬ (db.meta? c.topic).isSome) := by
  cases h with
  | enter hphase hmeta =>
      exact Or.inr ⟨hphase, hmeta⟩
  | fail e =>
      cases hactive'
  | complete hactive m hm =>
      cases hactive'
  | _ =>
      left
      assumption

/-- A creation that has completed was active before. -/
theorem Move.active_of_created
    (h : Move db c db' c')
    (hcreated : c'.phase = .created) :
    c.active = true := by
  cases h with
  | enter hphase hmeta =>
      cases hcreated
  | fail e =>
      cases hcreated
  | _ =>
      assumption

/-- Metadata is written when a group is complete, for its topic alone. -/
theorem Move.meta_iff
    (h : Move db c db' c')
    (topic : String) :
    (db'.meta? topic).isSome
      ↔
    (db.meta? topic).isSome ∨ (c'.phase = .created ∧ topic = c.topic) := by
  cases h with
  | enter hphase hmeta =>
      simp
  | fail e =>
      simp
  | go hactive hnext =>
      have hphase := (phase_of_active hnext).2
      dsimp only at hphase
      simp [hphase]
  | grant hactive hnext hid hgrant =>
      have hphase := (phase_of_active hnext).2
      dsimp only at hphase
      obtain ⟨-, -, -, -, hmeta, -⟩ := allowAccess_eq_ok hgrant
      simp [Database.meta?, hmeta, hphase]
  | complete hactive m hm =>
      rw [meta?_setTopicMeta_isSome, hm]
      simp only [true_and]
      exact Or.comm

end Moves

section Ownership

/--
Somebody has an access entry for the topic who is not the creator and was not
granted access by this creation.
-/
def ForeignRow
    (db : Database)
    (c : Creation) : Prop :=
  ∃ a ∈ db.access, a.topic.visible = c.topic ∧
    db.userID c.creator ≠ some a.userId ∧ a.userId ∉ c.granted

instance decidableForeignRow
    (db : Database) (c : Creation) :
    Decidable (ForeignRow db c) :=
  inferInstanceAs (Decidable (∃ a ∈ db.access, a.topic.visible = c.topic ∧
    db.userID c.creator ≠ some a.userId ∧ a.userId ∉ c.granted))

/-- Nobody else has access, and no other creation is at work on the topic. -/
def FreeTopic
    (s : State)
    (c : Creation) : Prop :=
  ¬ ForeignRow s.db c ∧
    ∀ d ∈ s.creations, d.active = true → d.topic ≠ c.topic

instance decidableFreeTopic
    (s : State) (c : Creation) :
    Decidable (FreeTopic s c) :=
  inferInstanceAs (Decidable (¬ ForeignRow s.db c ∧
    ∀ d ∈ s.creations, d.active = true → d.topic ≠ c.topic))

/-- A creation that finds no metadata finds the topic free. -/
def ChecksFree
    (s : State) : Label → Prop
  | .start _ _ _ => True
  | .call id fails =>
      ∀ c ∈ s.creations, c.id = id → c.phase = .check →
        fails = false → ¬ (s.db.meta? c.topic).isSome → FreeTopic s c

instance decidableChecksFree
    (s : State) :
    ∀ l, Decidable (ChecksFree s l)
  | .start _ _ _ => isTrue trivial
  | .call id fails =>
      inferInstanceAs (Decidable (∀ c ∈ s.creations, c.id = id →
        c.phase = .check → fails = false →
          ¬ (s.db.meta? c.topic).isSome → FreeTopic s c))

variable {db db' : Database}
variable {c c' d : Creation}
variable {s s' : State}

/-- A move gives the creation that makes it no foreign entry. -/
theorem Move.foreignRow_self
    (h : Move db c db' c')
    (hforeign : ForeignRow db' c') :
    ForeignRow db c := by
  obtain ⟨a, ha, htopic, hcreator, hgranted⟩ := hforeign
  cases h with
  | grant hactive hnext hid hgrant =>
      obtain ⟨id, hp, hid', husers, -, haccess⟩ := allowAccess_eq_ok hgrant
      rw [userID_congr husers] at hcreator
      rw [hid] at hid'
      cases hid'
      simp only [List.mem_append, List.mem_singleton, not_or] at hgranted
      rcases (haccess a).mp ha with rfl | ⟨ha, -⟩
      · exact absurd rfl hgranted.2
      · exact ⟨a, ha, htopic, hcreator, hgranted.1⟩
  | _ =>
      exact ⟨a, ha, htopic, hcreator, hgranted⟩

/-- A move gives no foreign entry to a creation of another topic. -/
theorem Move.foreignRow_other
    (h : Move db c db' c')
    (hne : c.active = true → d.topic ≠ c.topic)
    (hforeign : ForeignRow db' d) :
    ForeignRow db d := by
  obtain ⟨a, ha, htopic, hcreator, hgranted⟩ := hforeign
  cases h with
  | grant hactive hnext hid hgrant =>
      obtain ⟨id, hp, -, husers, -, haccess⟩ := allowAccess_eq_ok hgrant
      rw [userID_congr husers] at hcreator
      rcases (haccess a).mp ha with rfl | ⟨ha, -⟩
      · rw [StoredPattern.visible_ofPattern] at htopic
        exact absurd htopic.symm (hne hactive)
      · exact ⟨a, ha, htopic, hcreator, hgranted⟩
  | _ =>
      exact ⟨a, ha, htopic, hcreator, hgranted⟩

/-- What holds as long as every creation that passes its check finds the topic free. -/
structure Guarded (s : State) : Prop where
  fresh : ∀ c ∈ s.creations, c.phase = .check → c.granted = []
  alone : ∀ c ∈ s.creations, ∀ d ∈ s.creations,
    c.active = true → d.active = true → c.topic = d.topic → c = d
  unnamed : ∀ c ∈ s.creations, c.active = true →
    ¬ (s.db.meta? c.topic).isSome
  named : ∀ c ∈ s.creations, c.phase = .created →
    (s.db.meta? c.topic).isSome
  own : ∀ c ∈ s.creations, c.active = true ∨ c.phase = .created →
    ¬ ForeignRow s.db c

/-- No other creation of the topic is active or complete beside an active one. -/
theorem Guarded.topic_ne
    (h : Guarded s)
    (hc : c ∈ s.creations) (hd : d ∈ s.creations)
    (hid : d.id ≠ c.id)
    (hactive : c.active = true)
    (hd' : d.active = true ∨ d.phase = .created) :
    d.topic ≠ c.topic := by
  intro htopic
  rcases hd' with hdactive | hcreated
  · exact hid (congrArg Creation.id (h.alone d hd c hc hdactive hactive htopic))
  · exact h.unnamed c hc hactive (htopic ▸ h.named d hd hcreated)

/-- A move keeps the invariant if its check, when passed, finds the topic free. -/
theorem Guarded.move
    (h : Guarded s)
    (hc : c ∈ s.creations)
    (hmove : Move s.db c s'.db c')
    (hmem : ∀ d, d ∈ s'.creations ↔
      d = c' ∨ (d ∈ s.creations ∧ d.id ≠ c.id))
    (hfree : c.phase = .check → c'.active = true → FreeTopic s c) :
    Guarded s' := by
  obtain ⟨husers, hid, hcreator, htopic⟩ := hmove.frame
  have hself : c'.active = true → ∀ d ∈ s.creations, d.id ≠ c.id →
      d.active = true → d.topic ≠ c'.topic := by
    intro hactive' d hd hne hdactive
    rw [htopic]
    rcases hmove.active_before hactive' with hactive | ⟨hcheck, -⟩
    · exact h.topic_ne hc hd hne hactive (Or.inl hdactive)
    · exact (hfree hcheck hactive').2 d hd hdactive
  constructor
  case fresh =>
    intro d hd hcheck
    rcases (hmem d).mp hd with rfl | ⟨hd, -⟩
    · exact absurd hcheck hmove.phase_ne_check
    · exact h.fresh d hd hcheck
  case alone =>
    intro d hd e he hdactive heactive heq
    rcases (hmem d).mp hd with rfl | ⟨hd, hdne⟩
    · rcases (hmem e).mp he with rfl | ⟨he, hene⟩
      · rfl
      · exact absurd heq.symm (hself hdactive e he hene heactive)
    · rcases (hmem e).mp he with rfl | ⟨he, hene⟩
      · exact absurd heq (hself heactive d hd hdne hdactive)
      · exact h.alone d hd e he hdactive heactive heq
  case unnamed =>
    intro d hd hdactive
    rw [hmove.meta_iff]
    rintro (hmeta | ⟨hcreated, hdtopic⟩)
    · rcases (hmem d).mp hd with rfl | ⟨hd, -⟩
      · rw [htopic] at hmeta
        rcases hmove.active_before hdactive with hactive | ⟨-, hnone⟩
        · exact h.unnamed c hc hactive hmeta
        · exact hnone hmeta
      · exact h.unnamed d hd hdactive hmeta
    · rcases (hmem d).mp hd with rfl | ⟨hd, hdne⟩
      · exact (phase_of_active hdactive).2 hcreated
      · exact h.topic_ne hc hd hdne (hmove.active_of_created hcreated)
          (Or.inl hdactive) hdtopic
  case named =>
    intro d hd hcreated
    rw [hmove.meta_iff]
    rcases (hmem d).mp hd with rfl | ⟨hd, -⟩
    · exact Or.inr ⟨hcreated, htopic⟩
    · exact Or.inl (h.named d hd hcreated)
  case own =>
    intro d hd hsettled hforeign
    rcases (hmem d).mp hd with rfl | ⟨hd, hdne⟩
    · have hbefore := hmove.foreignRow_self hforeign
      have hactive : c.active = true ∨ c.phase = .check := by
        rcases hsettled with hactive' | hcreated
        · exact (hmove.active_before hactive').imp_right And.left
        · exact Or.inl (hmove.active_of_created hcreated)
      rcases hactive with hactive | hcheck
      · exact h.own c hc (Or.inl hactive) hbefore
      · rcases hsettled with hactive' | hcreated
        · exact (hfree hcheck hactive').1 hbefore
        · have := (phase_of_active (hmove.active_of_created hcreated)).1
          exact this hcheck
    · have hne : c.active = true → d.topic ≠ c.topic :=
        fun hactive => h.topic_ne hc hd hdne hactive hsettled
      exact h.own d hd hsettled (hmove.foreignRow_other hne hforeign)

end Ownership

section Runs

variable {s s' : State}
variable {id : Nat}
variable {fails : Bool}

/-- What a database call leaves behind. -/
theorem step_call
    (h : step s (.call id fails) = some s') :
    ∃ c ∈ s.creations, c.id = id ∧
      (c.phase = .check ∨ c.active = true) ∧
      s'.db = (advance s.db fails c).1 ∧
      ∀ d, d ∈ s'.creations ↔
        d = (advance s.db fails c).2 ∨ (d ∈ s.creations ∧ d.id ≠ c.id) := by
  simp only [step] at h
  split at h
  · cases h
  · rename_i c hfind
    obtain ⟨hc, rfl⟩ := Table.find?_eq_some_iff.mp hfind
    split at h
    case isFalse =>
      cases h
    case isTrue hphase =>
      cases h
      refine ⟨c, hc, rfl, hphase, rfl, fun d => ?_⟩
      exact Table.mem_modify_key_iff
        (by intro e; split <;> simp [advance_id]) hc rfl

/-- A creation arrives unchecked or refused, and has granted nothing. -/
theorem newCreation_idle
    (id : Nat) (creator : String) (body : Option CreateRequest) :
    (newCreation id creator body).active = false ∧
      (newCreation id creator body).phase ≠ .created ∧
      (newCreation id creator body).granted = [] := by
  cases body with
  | none =>
      exact ⟨rfl, by simp [newCreation], rfl⟩
  | some request =>
      obtain ⟨name, members⟩ := request
      simp only [newCreation, Creation.active]
      repeat' split
      all_goals simp_all

/-- The invariant is kept by every step whose check finds the topic free. -/
theorem Guarded.step
    {l : Label}
    (h : Guarded s)
    (hfree : ChecksFree s l)
    (hstep : step s l = some s') :
    Guarded s' := by
  cases l with
  | start id creator body =>
      obtain ⟨creations, hins, rfl⟩ := Option.map_eq_some_iff.mp hstep
      obtain ⟨hidle, hcreated, hgranted⟩ := newCreation_idle id creator body
      have hmem : ∀ d, d ∈ creations →
          d ∈ s.creations ∨ d = newCreation id creator body :=
        fun d hd => (Table.mem_insert?_iff hins).mp hd
      have hold : ∀ d, d ∈ creations →
          d.active = true ∨ d.phase = .created → d ∈ s.creations := by
        intro d hd hsettled
        rcases hmem d hd with hd | rfl
        · exact hd
        · simp [hidle, hcreated] at hsettled
      constructor
      case fresh =>
        intro d hd hcheck
        rcases hmem d hd with hd | rfl
        · exact h.fresh d hd hcheck
        · exact hgranted
      case alone =>
        intro d hd e he hdactive heactive
        exact h.alone d (hold d hd (Or.inl hdactive)) e
          (hold e he (Or.inl heactive)) hdactive heactive
      case unnamed =>
        intro d hd hdactive
        exact h.unnamed d (hold d hd (Or.inl hdactive)) hdactive
      case named =>
        intro d hd hdcreated
        exact h.named d (hold d hd (Or.inr hdcreated)) hdcreated
      case own =>
        intro d hd hsettled
        exact h.own d (hold d hd hsettled) hsettled
  | call id fails =>
      obtain ⟨c, hc, rfl, hphase, hdb, hmem⟩ := step_call hstep
      have hmove : Move s.db c (advance s.db fails c).1
          (advance s.db fails c).2 := advance_move hphase
      rw [← hdb] at hmove
      refine h.move hc hmove hmem ?_
      intro hcheck hactive
      cases fails with
      | true =>
          simp [advance, hcheck, Creation.active] at hactive
      | false =>
          refine hfree c hc rfl hcheck rfl ?_
          intro hmeta
          simp [advance, hcheck, hmeta, Creation.active] at hactive

/-- No creation has started. -/
def initial (db : Database) : State where
  db
  creations := .empty

theorem guarded_initial
    (db : Database) :
    Guarded (initial db) := by
  constructor
  all_goals
    intro c hc
    exact absurd hc (Table.not_mem_empty c)

/--
A creation that has not failed while somebody else has access to its topic has
granted nothing, and if it moves now it fails and leaves the database alone.
-/
def Refused
    (s : State)
    (l : Label)
    (s' : State) : Prop :=
  ∀ c ∈ s.creations, c.hasFailed = false → ForeignRow s.db c →
    c.granted = [] ∧ c.phase ≠ .created ∧
    ∀ fails, l = .call c.id fails →
      s'.db = s.db ∧
        ∃ c' ∈ s'.creations, c'.id = c.id ∧ c'.hasFailed = true ∧
          c'.granted = []

/-- The only unfinished creations with a foreign entry are unchecked. -/
theorem Guarded.check_of_foreignRow
    {c : Creation}
    (h : Guarded s)
    (hc : c ∈ s.creations)
    (hfailed : c.hasFailed = false)
    (hforeign : ForeignRow s.db c) :
    c.phase = .check := by
  have hown := mt (h.own c hc) (not_not_intro hforeign)
  rw [not_or] at hown
  cases hphase : c.phase with
  | check =>
      rfl
  | created =>
      exact absurd hphase hown.2
  | failed e =>
      simp [Creation.hasFailed, hphase] at hfailed
  | _ =>
      simp [Creation.active, hphase] at hown

/-- One step under the invariant refuses what it should. -/
theorem Guarded.refused
    {l : Label}
    (h : Guarded s)
    (hfree : ChecksFree s l)
    (hstep : Groups.step s l = some s') :
    Refused s l s' := by
  intro c hc hfailed hforeign
  have hcheck := h.check_of_foreignRow hc hfailed hforeign
  refine ⟨h.fresh c hc hcheck, by simp [hcheck], ?_⟩
  rintro fails rfl
  obtain ⟨c₁, hc₁, hid, -, hdb, hmem⟩ := step_call hstep
  have hsame := Table.eq_of_key_eq hc₁ hc hid
  subst hsame
  have hmeta : fails = false → (s.db.meta? c₁.topic).isSome := by
    intro hfails
    by_contra hnone
    exact (hfree c₁ hc rfl hcheck hfails hnone).1 hforeign
  have hrefused : (advance s.db fails c₁).1 = s.db ∧
      (advance s.db fails c₁).2.hasFailed = true ∧
      (advance s.db fails c₁).2.granted = c₁.granted := by
    cases fails with
    | true =>
        simp [advance, hcheck, Creation.hasFailed]
    | false =>
        simp [advance, hcheck, hmeta rfl, Creation.hasFailed]
  obtain ⟨hsamedb, hfails, hgranted⟩ := hrefused
  refine ⟨hdb.trans hsamedb, _, (hmem _).mpr (Or.inl rfl), advance_id _ _ _,
    hfails, ?_⟩
  rw [hgranted, h.fresh c₁ hc hcheck]

/--
In every run in which each creation that passes its check finds nobody else with
access and no other creation at work on its topic, a creation that meets an
entry of somebody else fails without having written anything.
-/
theorem creation_refused
    {db : Database} {ls ms : List Label} {l : Label}
    (hfree : Along step ChecksFree (initial db) (ls ++ l :: ms))
    (hrun : run step (initial db) ls = some s)
    (hstep : step s l = some s') :
    Refused s l s' := by
  have hpres : ∀ s l s', Guarded s → ChecksFree s l →
      step s l = some s' → Guarded s' :=
    fun _ _ _ h hfree hstep => h.step hfree hstep
  have hprop : ∀ s l s', Guarded s → ChecksFree s l →
      step s l = some s' → Refused s l s' :=
    fun _ _ _ h hfree hstep => h.refused hfree hstep
  exact step_property_along hpres hprop (guarded_initial db) hfree hrun hstep

/-- The stored form of the topic of the group `Friends`. -/
def exampleTopic : StoredPattern :=
  .ofPattern "grp_friends" (by decide)

/-- Two users, with the given access entries and metadata. -/
def exampleDatabase
    (access : Table AccessRow.key)
    (topicMeta : Table TopicMeta.topic) : Database where
  users :=
    { rows :=
        [⟨everyoneID, everyone, .anonymous, none, ⟨0, 0, 0⟩, false⟩,
          ⟨"u_a", "alice", .user, none, ⟨0, 0, 0⟩, false⟩,
          ⟨"u_b", "bob", .user, none, ⟨0, 0, 0⟩, false⟩]
      nodup := by decide }
  names_nodup := by decide
  names_allowed := by decide
  everyone_row := by decide
  access
  topicMeta
  contacts := .empty
  profiles := .empty

/-- The group `Friends` of bob. -/
def exampleGroup : Database :=
  exampleDatabase
    { rows := [⟨"u_b", exampleTopic, true, true, none, false⟩]
      nodup := by decide }
    { rows := [⟨"grp_friends", "Friends", "", "", "bob"⟩]
      nodup := by decide }

/-- A topic that bob has reserved and closed to everyone else. -/
def exampleReservation : Database :=
  exampleDatabase
    { rows :=
        [⟨"u_b", exampleTopic, true, true, some "u_b", false⟩,
          ⟨everyoneID, exampleTopic, false, false, some "u_b", false⟩]
      nodup := by decide }
    .empty

/-- The request of alice to create a group. -/
def exampleRequest
    (members : List String) : Label :=
  .start 1 "alice" (some ⟨"Friends", members⟩)

/-- A second group of the name is refused. -/
theorem second_group_refused :
    ∃ s s', step (initial exampleGroup) (exampleRequest ["bob"]) = some s ∧
      step s (.call 1 false) = some s' ∧ Refused s (.call 1 false) s' := by
  refine ⟨_, _, rfl, rfl, ?_⟩
  have hfree : Along step ChecksFree (initial exampleGroup)
      ([exampleRequest ["bob"]] ++ .call 1 false :: []) := by
    decide
  exact creation_refused hfree rfl rfl

/--
The reserved topic has no metadata, so a group takes it over: the creator gets
access, and the entry of `everyone` is opened and loses its owner.
-/
theorem group_takes_over_reservation :
    (initial exampleReservation).db.access.rows =
        [⟨"u_b", exampleTopic, true, true, some "u_b", false⟩,
          ⟨everyoneID, exampleTopic, false, false, some "u_b", false⟩] ∧
    (run step (initial exampleReservation)
        (exampleRequest ["*"] :: List.replicate 5 (.call 1 false))).map
      (fun s => (s.db.access.rows, s.creations.rows.map Creation.phase)) =
      some
        ([⟨"u_b", exampleTopic, true, true, some "u_b", false⟩,
          ⟨everyoneID, exampleTopic, true, true, none, false⟩,
          ⟨"u_a", exampleTopic, true, true, none, false⟩], [.created]) := by
  exact ⟨rfl, by decide⟩

end Runs

end Groups

end Server
end CoopMessenger
