import CoopMessenger.Library.Runs
import CoopMessenger.Manager.Contacts
import CoopMessenger.Server.Errors

/-!
# Contact handlers

The contact handlers of `server/server_contacts.go`.  Each handler issues one
or two database writes that are not part of one transaction; `fails` says for
each of them whether the database rejects it, so every handler returns the
database it leaves behind together with its result.

A handler called by `u` for `t` touches at most the rows of `u` about `t` and of
`t` about `u`.  What it does to them is stated once for each handler, and the
laws about blocks and friendships follow from these statements.

**Results.**
* `contactStatus_handleContactAdd` and its siblings: the effect of each handler.
* `contactStatus_frame`: all other pairs are untouched.
* `block_survives_iff`: which operations of others lift a block.
* `contacts_symmetric_iff`: which runs keep friendships mutual.
-/

namespace CoopMessenger
namespace Server

open Library Manager Manager.Database

section Handlers

/-- The response to a write: the error of the manager is passed on. -/
def respond
    (db : Database) :
    Except Manager.Error Database → Database × Except HandlerError Unit
  | .ok db' => (db', .ok ())
  | .error e => (db, .error (.manager e))

@[simp] theorem respond_fst
    (db : Database) (r : Except Manager.Error Database) :
    (respond db r).1 = db.written r := by
  cases r <;> rfl

/-- Sends a contact request; `none` is a body that does not parse. -/
def handleContactAdd
    (db : Database)
    (fails : Nat → Bool)
    (u : String)
    (username : Option String) : Database × Except HandlerError Unit :=
  match username with
  | none =>
      (db, .error (.http (errHTTPBadRequest.wrap "invalid request body")))
  | some t =>
      if t = "" ∨ t = u then
        (db, .error (.http (errHTTPBadRequest.wrap "invalid username")))
      else if (db.user t).isNone then
        (db, .error (.http (errHTTPBadRequest.wrap "user not found")))
      else if db.isBlocked u t then
        (db, .error (.http (errHTTPForbidden.wrap "blocked")))
      else if (db.contactStatus u t).isSome then
        (db, .error (.http (errHTTPConflict.wrap
          "contact relationship already exists")))
      else
        match db.profilePrivacy t with
        | .inviteOnly =>
            (db, .error (.http (errHTTPForbidden.wrap
              "user only accepts contacts via invite")))
        | .open =>
            match db.addContact (fails 0) u t .accepted with
            | .error e => (db, .error (.manager e))
            | .ok db₁ => respond db₁ (db₁.addContact (fails 1) t u .accepted)
        | .request =>
            respond db (db.addContact (fails 0) u t .pending)

/-- Accepts or rejects a request. -/
def handleContactUpdate
    (db : Database)
    (fails : Nat → Bool)
    (u targetUsername : String)
    (status : Option String) : Database × Except HandlerError Unit :=
  if targetUsername = "" then
    (db, .error (.http (errHTTPBadRequest.wrap "missing username")))
  else
    match status with
    | none =>
        (db, .error (.http (errHTTPBadRequest.wrap "invalid request body")))
    | some status =>
        if status ≠ "accepted" ∧ status ≠ "rejected" then
          (db, .error (.http (errHTTPBadRequest.wrap
            "status must be 'accepted' or 'rejected'")))
        else if status = "rejected" then
          respond db (db.deleteContact (fails 0) targetUsername u)
        else
          match db.updateContactStatus (fails 0) targetUsername u .accepted with
          | .error e => (db, .error (.manager e))
          | .ok db₁ =>
              -- the error of the reverse insert is only logged
              (db₁.written
                (db₁.addContact (fails 1) u targetUsername .accepted), .ok ())

/-- Removes a contact. -/
def handleContactDelete
    (db : Database)
    (fails : Nat → Bool)
    (u targetUsername : String) : Database × Except HandlerError Unit :=
  if targetUsername = "" ∨ '/' ∈ targetUsername.toList then
    (db, .error (.http (errHTTPBadRequest.wrap "missing username")))
  else
    respond db (db.deleteContact (fails 0) u targetUsername)

/-- Blocks a user. -/
def handleContactBlock
    (db : Database)
    (fails : Nat → Bool)
    (u targetUsername : String) : Database × Except HandlerError Unit :=
  if targetUsername = "" ∨ targetUsername = u then
    (db, .error (.http (errHTTPBadRequest.wrap "invalid username")))
  else
    match db.blockContact fails u targetUsername with
    | (db₁, .error e) => (db₁, .error (.manager e))
    | (db₁, .ok ()) => (db₁, .ok ())

/-- The requests about contacts, and the change of the privacy setting. -/
inductive ContactRequest where
  | add (username : Option String)
  | update (target : String) (status : Option String)
  | delete (target : String)
  | block (target : String)
  | privacy (privacy : Privacy)
deriving DecidableEq, Repr

/-- A request of a user, and which of its database writes fail. -/
structure ContactOp where
  user : String
  request : ContactRequest
  fails : Nat → Bool

/-- The handler of the request. -/
def serveContact
    (db : Database)
    (op : ContactOp) : Database × Except HandlerError Unit :=
  match op.request with
  | .add username => handleContactAdd db op.fails op.user username
  | .update target status =>
      handleContactUpdate db op.fails op.user target status
  | .delete target => handleContactDelete db op.fails op.user target
  | .block target => handleContactBlock db op.fails op.user target
  | .privacy privacy => (db.updateProfilePrivacy op.user privacy, .ok ())

/-- The database after one request. -/
def contactStep
    (db : Database)
    (op : ContactOp) : Option Database :=
  some (serveContact db op).1

end Handlers

section Effects

variable {db : Database}
variable {fails : Nat → Bool}
variable {u t : String}

/-- A request gets past all checks but the privacy setting. -/
def Requests
    (db : Database)
    (u t : String) : Prop :=
  t ≠ u ∧ (db.userID t).isSome ∧ db.isBlocked u t = false ∧
    db.contactStatus u t = none

/-- An acceptance finds a row to update. -/
def acceptance
    (db : Database)
    (fails : Nat → Bool)
    (u t : String) : ContactRelation :=
  if fails 0 = false ∧ db.contactStatus t u ≠ none then
    if fails 1 = false ∧
        db.contactStatus.set t u (some .accepted) u t = none then
      (db.contactStatus.set t u (some .accepted)).set u t (some .accepted)
    else
      db.contactStatus.set t u (some .accepted)
  else
    db.contactStatus

/-- A request to an open user writes both directions, one after the other. -/
def autoAcceptance
    (db : Database)
    (fails : Nat → Bool)
    (u t : String) : ContactRelation :=
  if fails 0 = false ∧ (db.userID u).isSome then
    if fails 1 = false ∧ db.contactStatus t u = none then
      (db.contactStatus.set u t (some .accepted)).set t u (some .accepted)
    else
      db.contactStatus.set u t (some .accepted)
  else
    db.contactStatus

/-- A rejection or removal clears both directions. -/
def clearance
    (db : Database)
    (fails : Nat → Bool)
    (u t : String) : ContactRelation :=
  if fails 0 = false then
    db.contactStatus.clear u t
  else
    db.contactStatus

/-- A block is a clearance followed by an insert. -/
def blockage
    (db : Database)
    (fails : Nat → Bool)
    (u t : String) : ContactRelation :=
  if fails 1 = false ∧ (db.userID u).isSome ∧ (db.userID t).isSome ∧
      clearance db fails u t u t = none then
    (clearance db fails u t).set u t (some .blocked)
  else
    clearance db fails u t

theorem isSome_userID
    (db : Database) (username : String) :
    (db.userID username).isSome = (db.user username).isSome := by
  simp [Database.userID]

/-- A request that fails a check changes nothing. -/
theorem handleContactAdd_of_not_requests
    (h : ¬ Requests db u t) :
    (handleContactAdd db fails u (some t)).1 = db := by
  unfold handleContactAdd
  dsimp only
  split
  · rfl
  · split
    · rfl
    · split
      · rfl
      · split
        · rfl
        · rename_i hname huser hblocked hstatus
          exfalso
          apply h
          refine ⟨fun htu => hname (Or.inr htu), ?_, by simpa using hblocked,
            by simpa using hstatus⟩
          rw [isSome_userID]
          simpa [Option.isSome_iff_ne_none] using huser

/-- The effect of a request that passes the checks. -/
theorem contactStatus_handleContactAdd
    (h : Requests db u t) :
    (handleContactAdd db fails u (some t)).1.contactStatus =
      match db.profilePrivacy t with
      | .inviteOnly => db.contactStatus
      | .open => autoAcceptance db fails u t
      | .request =>
          if fails 0 = false ∧ (db.userID u).isSome then
            db.contactStatus.set u t (some .pending)
          else
            db.contactStatus := by
  obtain ⟨htu, huser, hblocked, hstatus⟩ := h
  have hempty : t ≠ "" := by
    rintro rfl
    rw [db.userID_eq_none (Or.inl rfl)] at huser
    cases huser
  have hsome : (db.user t).isNone = false := by
    rw [isSome_userID] at huser
    simpa [Option.isSome_iff_ne_none] using huser
  simp only [handleContactAdd, hempty, htu, hsome, hblocked, hstatus,
    or_self, if_false, Option.isSome_none, Bool.false_eq_true]
  cases db.profilePrivacy t with
  | inviteOnly =>
      rfl
  | «open» =>
      have hiff : (∃ db', db.addContact (fails 0) u t .accepted = .ok db') ↔
          fails 0 = false ∧ (db.userID u).isSome := by
        rw [addContact_isOk_iff]
        simp [huser, hstatus]
      cases hadd : db.addContact (fails 0) u t .accepted with
      | error e =>
          have hno : ¬ (fails 0 = false ∧ (db.userID u).isSome) := by
            rw [← hiff, hadd]
            rintro ⟨db', h⟩
            cases h
          simp [autoAcceptance, hno]
      | ok db₁ =>
          have hyes := hiff.mp ⟨db₁, hadd⟩
          obtain ⟨husers, -, hrel⟩ := addContact_eq_ok hadd
          have hne : ¬ (t = u ∧ u = t) := fun h => htu h.1
          simp only [autoAcceptance, hyes, and_self, if_true, respond_fst,
            contactStatus_addContact, userID_congr husers, hrel, huser,
            ContactRelation.set_of_ne _ _ hne, true_and]
  | request =>
      have hadd := db.contactStatus_addContact (fails 0) u t .pending
      simp only [huser, hstatus, and_true] at hadd
      simpa only [respond_fst] using hadd

/-- An acceptance under a name that nobody has changes nothing. -/
theorem acceptance_of_no_user
    (h : db.userID t = none) :
    acceptance db fails u t = db.contactStatus := by
  simp [acceptance, contactStatus_eq_none_of_userID (Or.inl h)]

/-- A clearance under a name that nobody has changes nothing. -/
theorem clearance_of_no_user
    (h : db.userID t = none) :
    clearance db fails u t = db.contactStatus := by
  have hself : db.contactStatus.clear u t = db.contactStatus :=
    ContactRelation.clear_eq_self
      (contactStatus_eq_none_of_userID (Or.inr h))
      (contactStatus_eq_none_of_userID (Or.inl h))
  simp [clearance, hself]

/-- The effect of an acceptance. -/
theorem contactStatus_accept
    (db : Database) (fails : Nat → Bool) (u t : String) :
    (handleContactUpdate db fails u t (some "accepted")).1.contactStatus =
      acceptance db fails u t := by
  unfold handleContactUpdate
  split
  case isTrue hempty =>
    rw [acceptance_of_no_user (db.userID_eq_none (Or.inl hempty))]
  case isFalse =>
    dsimp only
    rw [if_neg (by simp), if_neg (by decide)]
    cases hupdate : db.updateContactStatus (fails 0) t u .accepted with
    | error e =>
        have hno : ¬ (fails 0 = false ∧ db.contactStatus t u ≠ none) := by
          rw [← updateContactStatus_isOk_iff .accepted, hupdate]
          rintro ⟨db', h⟩
          cases h
        rw [acceptance, if_neg hno]
    | ok db₁ =>
        have hyes := (updateContactStatus_isOk_iff .accepted).mp
          ⟨db₁, hupdate⟩
        obtain ⟨husers, -, hrel⟩ := updateContactStatus_eq_ok hupdate
        obtain ⟨i, j, hi, hj⟩ := userID_of_contactStatus hyes.2
        rw [acceptance, if_pos hyes]
        simp only [contactStatus_addContact, userID_congr husers, hrel, hi,
          hj, Option.isSome_some, true_and]

/-- The effect of a rejection. -/
theorem contactStatus_reject
    (db : Database) (fails : Nat → Bool) (u t : String) :
    (handleContactUpdate db fails u t (some "rejected")).1.contactStatus =
      clearance db fails u t := by
  unfold handleContactUpdate
  split
  case isTrue hempty =>
    rw [clearance_of_no_user (db.userID_eq_none (Or.inl hempty))]
  case isFalse =>
    dsimp only
    rw [if_neg (by simp), if_pos rfl, respond_fst,
      contactStatus_deleteContact, ContactRelation.clear_comm]
    rfl

/-- Any other answer is refused. -/
theorem handleContactUpdate_of_refused
    {status : Option String}
    (haccepted : status ≠ some "accepted")
    (hrejected : status ≠ some "rejected") :
    (handleContactUpdate db fails u t status).1 = db := by
  unfold handleContactUpdate
  split
  · rfl
  · cases status with
    | none =>
        rfl
    | some status =>
        dsimp only
        rw [if_pos ⟨fun h => haccepted (congrArg some h),
          fun h => hrejected (congrArg some h)⟩]

/-- The effect of a removal. -/
theorem contactStatus_handleContactDelete
    (db : Database) (fails : Nat → Bool) (u t : String) :
    (handleContactDelete db fails u t).1.contactStatus =
      clearance db fails u t := by
  unfold handleContactDelete
  split
  case isTrue h =>
    rw [clearance_of_no_user (db.userID_eq_none h)]
  case isFalse =>
    rw [respond_fst, contactStatus_deleteContact]
    rfl

/-- The effect of a block. -/
theorem contactStatus_handleContactBlock
    (h : t ≠ u) :
    (handleContactBlock db fails u t).1.contactStatus =
      blockage db fails u t := by
  unfold handleContactBlock
  split
  case isTrue hor =>
    have hno := db.userID_eq_none (Or.inl (hor.resolve_right h))
    simp [blockage, hno, clearance_of_no_user hno]
  case isFalse =>
    have hfst : ∀ r : Database × Except Manager.Error Unit,
        (match r with
          | (db₁, .error e) => (db₁, .error (.manager e))
          | (db₁, .ok ()) => (db₁, .ok ()) :
            Database × Except HandlerError Unit).1 = r.1 := by
      rintro ⟨db₁, e | ⟨⟩⟩ <;> rfl
    rw [hfst, blockContact_fst, contactStatus_addContact,
      contactStatus_deleteContact,
      userID_congr (users_written_deleteContact db (fails 0) u t)]
    rfl

/-- Nobody can block themselves. -/
theorem handleContactBlock_self
    (db : Database) (fails : Nat → Bool) (u : String) :
    (handleContactBlock db fails u u).1 = db := by
  simp [handleContactBlock]

end Effects

section Frame

variable {db : Database}
variable {fails : Nat → Bool}
variable {u t x y : String}

/-- The user a request names. -/
def ContactRequest.target :
    ContactRequest → Option String
  | .add username => username
  | .update target _ => some target
  | .delete target => some target
  | .block target => some target
  | .privacy _ => none

/-- The pair is neither `u` about `t` nor `t` about `u`. -/
def OtherPair
    (u t x y : String) : Prop :=
  ¬ (x = u ∧ y = t) ∧ ¬ (x = t ∧ y = u)

theorem clear_frame
    (R : ContactRelation)
    (h : OtherPair u t x y) :
    R.clear u t x y = R x y := by
  simp [ContactRelation.clear, h.1, h.2]

theorem acceptance_frame
    (h : OtherPair u t x y) :
    acceptance db fails u t x y = db.contactStatus x y := by
  unfold acceptance
  split
  · split
    · rw [ContactRelation.set_of_ne _ _ h.1, ContactRelation.set_of_ne _ _ h.2]
    · rw [ContactRelation.set_of_ne _ _ h.2]
  · rfl

theorem autoAcceptance_frame
    (h : OtherPair u t x y) :
    autoAcceptance db fails u t x y = db.contactStatus x y := by
  unfold autoAcceptance
  split
  · split
    · rw [ContactRelation.set_of_ne _ _ h.2, ContactRelation.set_of_ne _ _ h.1]
    · rw [ContactRelation.set_of_ne _ _ h.1]
  · rfl

theorem clearance_frame
    (h : OtherPair u t x y) :
    clearance db fails u t x y = db.contactStatus x y := by
  unfold clearance
  split
  · exact clear_frame _ h
  · rfl

theorem blockage_frame
    (h : OtherPair u t x y) :
    blockage db fails u t x y = db.contactStatus x y := by
  unfold blockage
  split
  · rw [ContactRelation.set_of_ne _ _ h.1, clearance_frame h]
  · exact clearance_frame h

/-- A request touches only the rows between its user and the user it names. -/
theorem contactStatus_frame
    {op : ContactOp}
    (h : ∀ t, op.request.target = some t → OtherPair op.user t x y) :
    (serveContact db op).1.contactStatus x y = db.contactStatus x y := by
  obtain ⟨u, request, fails⟩ := op
  cases request with
  | add username =>
      cases username with
      | none =>
          rfl
      | some t =>
          have hpair := h t rfl
          by_cases hreq : Requests db u t
          · simp only [serveContact, contactStatus_handleContactAdd hreq]
            split
            · rfl
            · exact autoAcceptance_frame hpair
            · split
              · exact ContactRelation.set_of_ne _ _ hpair.1
              · rfl
          · simp only [serveContact, handleContactAdd_of_not_requests hreq]
  | update t status =>
      have hpair := h t rfl
      by_cases haccepted : status = some "accepted"
      · subst haccepted
        simp only [serveContact, contactStatus_accept]
        exact acceptance_frame hpair
      · by_cases hrejected : status = some "rejected"
        · subst hrejected
          simp only [serveContact, contactStatus_reject]
          exact clearance_frame hpair
        · simp only [serveContact,
            handleContactUpdate_of_refused haccepted hrejected]
  | delete t =>
      simp only [serveContact, contactStatus_handleContactDelete]
      exact clearance_frame (h t rfl)
  | block t =>
      by_cases htu : t = u
      · subst htu
        simp only [serveContact, handleContactBlock_self]
      · simp only [serveContact, contactStatus_handleContactBlock htu]
        exact blockage_frame (h t rfl)
  | privacy privacy =>
      rfl

end Frame

section Blocks

variable {db db' : Database}
variable {op : ContactOp}
variable {x y : String}

/--
An acceptance, a rejection, a removal or a block that names `x` and whose first
write goes through.
-/
def ContactOp.answers
    (op : ContactOp)
    (x : String) : Prop :=
  op.fails 0 = false ∧
    match op.request with
    | .update t status =>
        t = x ∧ (status = some "accepted" ∨ status = some "rejected")
    | .delete t => t = x
    | .block t => t = x
    | .add _ | .privacy _ => False

/-- An answer to `x` by `y` leaves no block of `x` on `y`. -/
theorem not_blocked_of_answers
    (hne : y ≠ x)
    (hop : op.user = y)
    (h : op.answers x) :
    (serveContact db op).1.contactStatus x y ≠ some .blocked := by
  obtain ⟨u, request, fails⟩ := op
  obtain ⟨hfails, hanswer⟩ := h
  subst hop
  dsimp only at hfails hanswer hne ⊢
  have hcleared : clearance db fails u x x u = none := by
    simp [clearance, hfails, ContactRelation.clear]
  cases request with
  | add username =>
      exact hanswer.elim
  | update t status =>
      obtain ⟨rfl, haccepted | hrejected⟩ := hanswer
      · subst haccepted
        simp only [serveContact, contactStatus_accept, acceptance]
        split
        · have hpair : ¬ (t = u ∧ u = t) := fun h => hne h.2
          split
          · rw [ContactRelation.set_of_ne _ _ hpair, ContactRelation.set_same]
            simp
          · rw [ContactRelation.set_same]
            simp
        · rename_i hnone
          simp only [hfails, true_and, ne_eq, not_not] at hnone
          simp [hnone]
      · subst hrejected
        simp only [serveContact, contactStatus_reject, hcleared]
        simp
  | delete t =>
      subst hanswer
      simp only [serveContact, contactStatus_handleContactDelete, hcleared]
      simp
  | block t =>
      subst hanswer
      simp only [serveContact, contactStatus_handleContactBlock (Ne.symm hne),
        blockage]
      split
      · rw [ContactRelation.set_of_ne _ _ (fun h => hne h.2), hcleared]
        simp
      · rw [hcleared]
        simp
  | privacy privacy =>
      exact hanswer.elim

/-- A request of somebody else than `x` reaches what `x` keeps about `y` only if
it comes from `y` and names `x`. -/
theorem contactStatus_of_others
    (hop : op.user ≠ x)
    (h : ¬ (op.user = y ∧ op.request.target = some x)) :
    (serveContact db op).1.contactStatus x y = db.contactStatus x y := by
  apply contactStatus_frame
  intro t ht
  refine ⟨fun hpair => hop hpair.1.symm, ?_⟩
  rintro ⟨rfl, rfl⟩
  exact h ⟨rfl, ht⟩

/-- A block is no obstacle to the reverse block. -/
theorem blockage_reverse
    {fails : Nat → Bool} {u t : String}
    (h : t ≠ u) :
    blockage db fails u t t u = clearance db fails u t t u := by
  unfold blockage
  split
  · exact ContactRelation.set_of_ne _ _ (fun hpair => h hpair.1)
  · rfl

/-- Whatever else others do, a block of `x` on `y` stays. -/
theorem blocked_of_not_answers
    (hop : op.user ≠ x)
    (hblock : db.contactStatus x y = some .blocked)
    (h : ¬ (op.user = y ∧ op.answers x)) :
    (serveContact db op).1.contactStatus x y = some .blocked := by
  by_cases hpair : op.user = y ∧ op.request.target = some x
  · obtain ⟨u, request, fails⟩ := op
    obtain ⟨rfl, htarget⟩ := hpair
    dsimp only at hop h htarget hblock ⊢
    have hfails : ∀ {P : Prop}, P → ¬ (fails 0 = false ∧ P) →
        ¬ fails 0 = false :=
      fun hp hnot hf => hnot ⟨hf, hp⟩
    cases request with
    | add username =>
        simp only [ContactRequest.target] at htarget
        subst htarget
        have hreq : ¬ Requests db u x := by
          rintro ⟨-, -, hblocked, -⟩
          simp [isBlocked, hblock] at hblocked
        simp only [serveContact, handleContactAdd_of_not_requests hreq, hblock]
    | update t status =>
        obtain rfl := Option.some.inj htarget
        by_cases haccepted : status = some "accepted"
        · subst haccepted
          have hf := hfails (P := t = t ∧ _) ⟨rfl, Or.inl rfl⟩
            (fun hans => h ⟨rfl, hans⟩)
          simp [serveContact, contactStatus_accept, acceptance, hf, hblock]
        · by_cases hrejected : status = some "rejected"
          · subst hrejected
            have hf := hfails (P := t = t ∧ _) ⟨rfl, Or.inr rfl⟩
              (fun hans => h ⟨rfl, hans⟩)
            simp [serveContact, contactStatus_reject, clearance, hf, hblock]
          · simp only [serveContact,
              handleContactUpdate_of_refused haccepted hrejected, hblock]
    | delete t =>
        obtain rfl := Option.some.inj htarget
        have hf := hfails (P := t = t) rfl (fun hans => h ⟨rfl, hans⟩)
        simp [serveContact, contactStatus_handleContactDelete, clearance, hf,
          hblock]
    | block t =>
        obtain rfl := Option.some.inj htarget
        have hf := hfails (P := t = t) rfl (fun hans => h ⟨rfl, hans⟩)
        simp only [serveContact,
          contactStatus_handleContactBlock (Ne.symm hop),
          blockage_reverse (Ne.symm hop)]
        simp [clearance, hf, hblock]
    | privacy privacy =>
        cases htarget
  · rw [contactStatus_of_others hop hpair, hblock]

/-- Nobody but `x` makes `x` block `y`. -/
theorem not_blocked_of_others
    (hop : op.user ≠ x)
    (hfree : db.contactStatus x y ≠ some .blocked) :
    (serveContact db op).1.contactStatus x y ≠ some .blocked := by
  by_cases hpair : op.user = y ∧ op.request.target = some x
  · obtain ⟨u, request, fails⟩ := op
    obtain ⟨rfl, htarget⟩ := hpair
    dsimp only at hop htarget hfree ⊢
    have hne : ¬ (x = u ∧ u = x) := fun h => hop h.2
    have hcleared : clearance db fails u x x u ≠ some .blocked := by
      unfold clearance
      split
      · simp [ContactRelation.clear]
      · exact hfree
    cases request with
    | add username =>
        simp only [ContactRequest.target] at htarget
        subst htarget
        by_cases hreq : Requests db u x
        · simp only [serveContact, contactStatus_handleContactAdd hreq,
            autoAcceptance]
          split
          · exact hfree
          · split
            · split
              · rw [ContactRelation.set_same]
                simp
              · rwa [ContactRelation.set_of_ne _ _ hne]
            · exact hfree
          · split
            · rwa [ContactRelation.set_of_ne _ _ hne]
            · exact hfree
        · simpa only [serveContact, handleContactAdd_of_not_requests hreq]
    | update t status =>
        obtain rfl := Option.some.inj htarget
        by_cases haccepted : status = some "accepted"
        · subst haccepted
          simp only [serveContact, contactStatus_accept, acceptance]
          split
          · split
            · rw [ContactRelation.set_of_ne _ _ hne, ContactRelation.set_same]
              simp
            · rw [ContactRelation.set_same]
              simp
          · exact hfree
        · by_cases hrejected : status = some "rejected"
          · subst hrejected
            simpa only [serveContact, contactStatus_reject]
          · simpa only [serveContact,
              handleContactUpdate_of_refused haccepted hrejected]
    | delete t =>
        obtain rfl := Option.some.inj htarget
        simpa only [serveContact, contactStatus_handleContactDelete]
    | block t =>
        obtain rfl := Option.some.inj htarget
        simpa only [serveContact,
          contactStatus_handleContactBlock (Ne.symm hop),
          blockage_reverse (Ne.symm hop)]
    | privacy privacy =>
        cases htarget
  · rwa [contactStatus_of_others hop hpair]

/-- Nor does a run of requests of others. -/
theorem run_not_blocked
    {ops : List ContactOp}
    (hothers : ∀ op ∈ ops, op.user ≠ x)
    (hrun : run contactStep db ops = some db')
    (hfree : db.contactStatus x y ≠ some .blocked) :
    db'.contactStatus x y ≠ some .blocked := by
  have hpres : ∀ (db₁ : Database) (op : ContactOp) (db₂ : Database),
      db₁.contactStatus x y ≠ some .blocked → op.user ≠ x →
      contactStep db₁ op = some db₂ →
      db₂.contactStatus x y ≠ some .blocked := by
    intro db₁ op db₂ hinv hop hstep
    cases hstep
    exact not_blocked_of_others hop hinv
  exact run_invariant_along hpres hfree (Along.of_forall hothers db) hrun

/--
While only others act, the block of `x` on `y` survives a run exactly when no
request of the run is an answer of `y` to `x`.
-/
theorem block_survives_iff
    {ops : List ContactOp}
    (hblock : db.contactStatus x y = some .blocked)
    (hothers : ∀ op ∈ ops, op.user ≠ x)
    (hrun : run contactStep db ops = some db') :
    (db'.contactStatus x y = some .blocked ∧ db'.isBlocked x y = true)
      ↔
    ∀ op ∈ ops, ¬ (op.user = y ∧ op.answers x) := by
  have hblocked : (db'.contactStatus x y = some .blocked ∧
      db'.isBlocked x y = true) ↔ db'.contactStatus x y = some .blocked := by
    refine ⟨And.left, fun h => ⟨h, ?_⟩⟩
    simp [isBlocked, h]
  rw [hblocked]
  clear hblocked
  induction ops generalizing db with
  | nil =>
      cases hrun
      simp [hblock]
  | cons op ops ih =>
      obtain ⟨db₁, hstep, hrest⟩ := run_cons_eq_some.mp hrun
      cases hstep
      have hop : op.user ≠ x := hothers op List.mem_cons_self
      have hothers' : ∀ o ∈ ops, o.user ≠ x :=
        fun o ho => hothers o (List.mem_cons_of_mem op ho)
      by_cases hans : op.user = y ∧ op.answers x
      · have hne : y ≠ x := hans.1 ▸ hop
        have hlost := run_not_blocked hothers' hrest
          (not_blocked_of_answers hne hans.1 hans.2)
        constructor
        · intro h
          exact absurd h hlost
        · intro h
          exact absurd hans (h op List.mem_cons_self)
      · have hiff := ih (blocked_of_not_answers hop hblock hans) hothers' hrest
        constructor
        · intro h o ho
          rcases List.mem_cons.mp ho with rfl | ho
          · exact hans
          · exact hiff.mp h o ho
        · intro h
          exact hiff.mpr (fun o ho => h o (List.mem_cons_of_mem op ho))

/-- Two users who keep nothing about each other. -/
def strangers : Database where
  users :=
    { rows :=
        [⟨everyoneID, everyone, .anonymous, none, ⟨0, 0, 0⟩, false⟩,
          ⟨"u_x", "xena", .user, none, ⟨0, 0, 0⟩, false⟩,
          ⟨"u_y", "yuri", .user, none, ⟨0, 0, 0⟩, false⟩]
      nodup := by decide }
  names_nodup := by decide
  names_allowed := by decide
  everyone_row := by decide
  access := .empty
  topicMeta := .empty
  contacts := .empty
  profiles :=
    { rows := [⟨"u_x", .request⟩, ⟨"u_y", .open⟩]
      nodup := by decide }

/-- A request whose writes all go through. -/
def ContactOp.of
    (user : String)
    (request : ContactRequest) : ContactOp :=
  ⟨user, request, fun _ => false⟩

/-- The state after `xena` has blocked `yuri`. -/
def blockedDatabase : Database :=
  (serveContact strangers (.of "xena" (.block "yuri"))).1

/-- A request of the blocked user leaves the block in place. -/
theorem block_survives_request :
    (serveContact blockedDatabase
      (.of "yuri" (.add (some "xena")))).1.isBlocked "xena" "yuri" = true := by
  have hblock : blockedDatabase.contactStatus "xena" "yuri" =
      some .blocked := by
    decide
  have hothers : ∀ op ∈ [ContactOp.of "yuri" (.add (some "xena"))],
      op.user ≠ "xena" := by
    decide
  refine ((block_survives_iff hblock hothers rfl).mpr ?_).2
  simp [ContactOp.answers, ContactOp.of]

/-- The blocked user removes the block by removing the contact. -/
theorem delete_lifts_block :
    blockedDatabase.contactStatus "xena" "yuri" = some .blocked ∧
    ∀ db', run contactStep blockedDatabase
        [.of "yuri" (.delete "xena")] = some db' →
      db'.contactStatus "xena" "yuri" = none ∧
        db'.isBlocked "xena" "yuri" = false := by
  refine ⟨by decide, ?_⟩
  intro db' hrun
  cases hrun
  decide

end Blocks

section Friendships

variable {db : Database}
variable {op : ContactOp}

/-- Whoever has accepted a user is accepted by that user. -/
def Mutual (R : ContactRelation) : Prop :=
  ∀ a b, R a b = some .accepted ↔ R b a = some .accepted

/-- `b` accepts a pending request of `a`, or `a` makes a request to `b`, whose
privacy is open. -/
def Befriends
    (db : Database)
    (op : ContactOp)
    (a b : String) : Prop :=
  (op.user = b ∧ op.request = .update a (some "accepted") ∧
    db.contactStatus a b = some .pending) ∨
  (op.user = a ∧ op.request = .add (some b) ∧ db.profilePrivacy b = .open)

/-- Contacts that the request makes accepted are ones it befriends. -/
def Justified
    (db : Database)
    (op : ContactOp) : Prop :=
  ∀ a b, db.contactStatus a b ≠ some .accepted →
    (serveContact db op).1.contactStatus a b = some .accepted →
    Befriends db op a b ∨ Befriends db op b a

/--
An acceptance that updates a row finds a pending one, finds no row in the other
direction and gets to write it; the same for a request to an open user that
passes the checks.
-/
def ContactOp.InStep
    (db : Database)
    (op : ContactOp) : Prop :=
  match op.request with
  | .update t status =>
      status = some "accepted" → op.fails 0 = false →
        db.contactStatus t op.user ≠ none →
        db.contactStatus t op.user ≠ some .accepted →
        db.contactStatus t op.user = some .pending ∧
          (t = op.user ∨
            (db.contactStatus op.user t = none ∧ op.fails 1 = false))
  | .add (some t) =>
      Requests db op.user t → db.profilePrivacy t = .open →
        op.fails 0 = false → (db.userID op.user).isSome →
        db.contactStatus t op.user = none ∧ op.fails 1 = false
  | .add none | .delete _ | .block _ | .privacy _ => True

section Relations

variable {R : ContactRelation}
variable {u t : String}

theorem Mutual.clear
    (h : Mutual R) :
    Mutual (R.clear u t) := by
  intro a b
  by_cases hab : (a = u ∧ b = t) ∨ (a = t ∧ b = u)
  · have hba : (b = u ∧ a = t) ∨ (b = t ∧ a = u) := by
      tauto
    simp [ContactRelation.clear, hab, hba]
  · have hba : ¬ ((b = u ∧ a = t) ∨ (b = t ∧ a = u)) := by
      tauto
    simp only [ContactRelation.clear, hab, hba, if_false]
    exact h a b

/-- A pair that is not accepted may get any other status. -/
theorem Mutual.set
    {status : ContactStatus}
    (h : Mutual R)
    (hpair : R u t ≠ some .accepted)
    (hstatus : status ≠ .accepted) :
    Mutual (R.set u t (some status)) := by
  have hrev : R t u ≠ some .accepted := fun hacc => hpair ((h u t).mpr hacc)
  have hset : ∀ a b, R.set u t (some status) a b = some .accepted ↔
      R a b = some .accepted := by
    intro a b
    by_cases hab : a = u ∧ b = t
    · rw [hab.1, hab.2, ContactRelation.set_same]
      simp [hstatus, hpair]
    · rw [ContactRelation.set_of_ne _ _ hab]
  intro a b
  rw [hset, hset]
  exact h a b

/-- Both directions of a pair may become accepted together. -/
theorem Mutual.set_set
    (h : Mutual R) :
    Mutual ((R.set u t (some .accepted)).set t u (some .accepted)) := by
  have hset : ∀ a b,
      (R.set u t (some .accepted)).set t u (some .accepted) a b =
          some .accepted ↔
        ((a = t ∧ b = u) ∨ (a = u ∧ b = t)) ∨ R a b = some .accepted := by
    intro a b
    simp only [ContactRelation.set]
    by_cases htu : a = t ∧ b = u
    · simp [htu]
    · by_cases hut : a = u ∧ b = t
      · simp [hut]
      · simp [htu, hut]
  intro a b
  rw [hset, hset, h a b]
  tauto

end Relations

theorem clearance_mutual
    {fails : Nat → Bool} {u t : String}
    (h : Mutual db.contactStatus) :
    Mutual (clearance db fails u t) := by
  unfold clearance
  split
  · exact h.clear
  · exact h

/-- Blocking cannot split an accepted pair: it only writes after clearing. -/
theorem blockage_mutual
    {fails : Nat → Bool} {u t : String}
    (h : Mutual db.contactStatus) :
    Mutual (blockage db fails u t) := by
  unfold blockage
  split
  · rename_i hfree
    refine (clearance_mutual h).set ?_ (by decide)
    simp [hfree.2.2.2]
  · exact clearance_mutual h

/-- A clearance makes nothing accepted. -/
theorem clearance_accepted
    {fails : Nat → Bool} {u t a b : String}
    (h : clearance db fails u t a b = some .accepted) :
    db.contactStatus a b = some .accepted := by
  unfold clearance ContactRelation.clear at h
  split at h
  · dsimp only at h
    split at h
    · cases h
    · exact h
  · exact h

/-- Neither does a block. -/
theorem blockage_accepted
    {fails : Nat → Bool} {u t a b : String}
    (h : blockage db fails u t a b = some .accepted) :
    db.contactStatus a b = some .accepted := by
  unfold blockage ContactRelation.set at h
  split at h
  · dsimp only at h
    split at h
    · cases h
    · exact clearance_accepted h
  · exact clearance_accepted h

/-- A request that makes nothing accepted has nothing to justify. -/
theorem justified_of_accepted
    (h : ∀ a b, (serveContact db op).1.contactStatus a b = some .accepted →
      db.contactStatus a b = some .accepted) :
    Justified db op :=
  fun a b hnot hacc => absurd (h a b hacc) hnot

/-- What a request keeps mutual and justified. -/
def Sound
    (db : Database)
    (op : ContactOp) : Prop :=
  Mutual (serveContact db op).1.contactStatus ∧ Justified db op

/-- A request without effect is sound. -/
theorem sound_of_eq
    (h : Mutual db.contactStatus)
    (heq : (serveContact db op).1.contactStatus = db.contactStatus) :
    Sound db op := by
  refine ⟨heq ▸ h, justified_of_accepted ?_⟩
  intro a b hacc
  rwa [heq] at hacc

/-- An acceptance that finds a row sets it. -/
theorem acceptance_at
    {fails : Nat → Bool} {u t : String}
    (hfails : fails 0 = false)
    (hrow : db.contactStatus t u ≠ none) :
    acceptance db fails u t t u = some .accepted := by
  rw [acceptance, if_pos ⟨hfails, hrow⟩]
  split
  · by_cases htu : t = u
    · subst htu
      rw [ContactRelation.set_same]
    · rw [ContactRelation.set_of_ne _ _ (fun h => htu h.1),
        ContactRelation.set_same]
  · rw [ContactRelation.set_same]

/-- Accepting a blocked row is not justified. -/
theorem not_sound_of_blocked
    {fails : Nat → Bool} {u t : String}
    (hfails : fails 0 = false)
    (hrow : db.contactStatus t u = some .blocked) :
    ¬ Sound db ⟨u, .update t (some "accepted"), fails⟩ := by
  rintro ⟨-, hjust⟩
  have hacc : acceptance db fails u t t u = some .accepted :=
    acceptance_at hfails (by simp [hrow])
  rw [← contactStatus_accept] at hacc
  rcases hjust t u (by simp [hrow]) hacc with hbe | hbe
  · rcases hbe with ⟨-, -, hpending⟩ | ⟨-, hreq, -⟩
    · rw [hrow] at hpending
      cases hpending
    · cases hreq
  · rcases hbe with ⟨hut, -, hpending⟩ | ⟨-, hreq, -⟩
    · dsimp only at hut
      subst hut
      rw [hrow] at hpending
      cases hpending
    · cases hreq

/-- Accepting a pending row is sound if the reverse row can be written. -/
theorem sound_accept_iff_of_pending
    {fails : Nat → Bool} {u t : String}
    (h : Mutual db.contactStatus)
    (hfails : fails 0 = false)
    (hrow : db.contactStatus t u = some .pending) :
    Sound db ⟨u, .update t (some "accepted"), fails⟩
      ↔
    t = u ∨ (db.contactStatus u t = none ∧ fails 1 = false) := by
  have hrel : (serveContact db
      ⟨u, .update t (some "accepted"), fails⟩).1.contactStatus =
        acceptance db fails u t :=
    contactStatus_accept db fails u t
  have hsome : db.contactStatus t u ≠ none := by
    simp [hrow]
  have hbe : Befriends db ⟨u, .update t (some "accepted"), fails⟩ t u :=
    Or.inl ⟨rfl, rfl, hrow⟩
  by_cases htu : t = u
  · subst htu
    have hacceptance : acceptance db fails t t =
        db.contactStatus.set t t (some .accepted) := by
      simp [acceptance, hfails, hrow]
    rw [Sound, hrel, hacceptance]
    simp only [true_or, iff_true]
    constructor
    · have hset := h.set_set (u := t) (t := t)
      rwa [ContactRelation.set_eq_self (ContactRelation.set_same _ _ _ _)]
        at hset
    · intro a b hnot hacc
      rw [hrel, hacceptance] at hacc
      by_cases hab : a = t ∧ b = t
      · rw [hab.1, hab.2]
        exact Or.inl hbe
      · rw [ContactRelation.set_of_ne _ _ hab] at hacc
        exact absurd hacc hnot
  · have hne : ¬ (u = t ∧ t = u) := fun hut => htu hut.2
    by_cases hfree : db.contactStatus u t = none ∧ fails 1 = false
    · have hacceptance : acceptance db fails u t =
          (db.contactStatus.set t u (some .accepted)).set u t
            (some .accepted) := by
        rw [acceptance, if_pos ⟨hfails, hsome⟩, if_pos]
        rw [ContactRelation.set_of_ne _ _ hne]
        exact ⟨hfree.2, hfree.1⟩
      rw [Sound, hrel, hacceptance]
      simp only [hfree, and_self, or_true, iff_true]
      refine ⟨h.set_set, ?_⟩
      intro a b hnot hacc
      rw [hrel, hacceptance] at hacc
      by_cases hut : a = u ∧ b = t
      · rw [hut.1, hut.2]
        exact Or.inr hbe
      · rw [ContactRelation.set_of_ne _ _ hut] at hacc
        by_cases hab : a = t ∧ b = u
        · rw [hab.1, hab.2]
          exact Or.inl hbe
        · rw [ContactRelation.set_of_ne _ _ hab] at hacc
          exact absurd hacc hnot
    · have hacceptance : acceptance db fails u t =
          db.contactStatus.set t u (some .accepted) := by
        rw [acceptance, if_pos ⟨hfails, hsome⟩, if_neg]
        rw [ContactRelation.set_of_ne _ _ hne]
        exact fun hh => hfree ⟨hh.2, hh.1⟩
      simp only [htu, hfree, or_self, iff_false]
      rintro ⟨hmutual, -⟩
      rw [hrel, hacceptance] at hmutual
      have hback := (hmutual t u).mp (ContactRelation.set_same _ _ _ _)
      rw [ContactRelation.set_of_ne _ _ hne] at hback
      have hacc := (h u t).mp hback
      rw [hrow] at hacc
      cases hacc

/-- A request to an open user is sound if both rows can be written. -/
theorem sound_add_iff_of_open
    {fails : Nat → Bool} {u t : String}
    (h : Mutual db.contactStatus)
    (hreq : Requests db u t)
    (hopen : db.profilePrivacy t = .open)
    (hfails : fails 0 = false)
    (huser : (db.userID u).isSome) :
    Sound db ⟨u, .add (some t), fails⟩
      ↔
    db.contactStatus t u = none ∧ fails 1 = false := by
  have hrel : (serveContact db ⟨u, .add (some t), fails⟩).1.contactStatus =
      autoAcceptance db fails u t := by
    have heffect : (handleContactAdd db fails u (some t)).1.contactStatus = _ :=
      contactStatus_handleContactAdd hreq
    rwa [hopen] at heffect
  have hbe : Befriends db ⟨u, .add (some t), fails⟩ u t :=
    Or.inr ⟨rfl, rfl, hopen⟩
  obtain ⟨htu, -, -, hnone⟩ := hreq
  by_cases hfree : db.contactStatus t u = none ∧ fails 1 = false
  · have hauto : autoAcceptance db fails u t =
        (db.contactStatus.set u t (some .accepted)).set t u
          (some .accepted) := by
      rw [autoAcceptance, if_pos ⟨hfails, huser⟩, if_pos ⟨hfree.2, hfree.1⟩]
    rw [Sound, hrel, hauto]
    simp only [hfree, and_self, iff_true]
    refine ⟨h.set_set, ?_⟩
    intro a b hnot hacc
    rw [hrel, hauto] at hacc
    by_cases hab : a = t ∧ b = u
    · rw [hab.1, hab.2]
      exact Or.inr hbe
    · rw [ContactRelation.set_of_ne _ _ hab] at hacc
      by_cases hut : a = u ∧ b = t
      · rw [hut.1, hut.2]
        exact Or.inl hbe
      · rw [ContactRelation.set_of_ne _ _ hut] at hacc
        exact absurd hacc hnot
  · have hauto : autoAcceptance db fails u t =
        db.contactStatus.set u t (some .accepted) := by
      rw [autoAcceptance, if_pos ⟨hfails, huser⟩, if_neg]
      exact fun hh => hfree ⟨hh.2, hh.1⟩
    simp only [hfree, iff_false]
    rintro ⟨hmutual, -⟩
    rw [hrel, hauto] at hmutual
    have hback := (hmutual u t).mp (ContactRelation.set_same _ _ _ _)
    rw [ContactRelation.set_of_ne _ _ (fun hh => htu hh.1)] at hback
    have hacc := (h t u).mp hback
    rw [hnone] at hacc
    cases hacc

/-- Which acceptances are sound. -/
theorem sound_accept_iff
    {fails : Nat → Bool} {u t : String}
    (h : Mutual db.contactStatus) :
    Sound db ⟨u, .update t (some "accepted"), fails⟩
      ↔
    ContactOp.InStep db ⟨u, .update t (some "accepted"), fails⟩ := by
  have hrel : (serveContact db
      ⟨u, .update t (some "accepted"), fails⟩).1.contactStatus =
        acceptance db fails u t :=
    contactStatus_accept db fails u t
  simp only [ContactOp.InStep, true_imp_iff]
  cases hfails : fails 0 with
  | true =>
      simp only [Bool.true_eq_false, false_imp_iff, iff_true]
      exact sound_of_eq h (by simp [hrel, acceptance, hfails])
  | false =>
      simp only [true_imp_iff]
      cases hrow : db.contactStatus t u with
      | none =>
          simp only [ne_eq, not_true_eq_false, false_imp_iff, iff_true]
          exact sound_of_eq h (by simp [hrel, acceptance, hrow])
      | some status =>
          cases status with
          | accepted =>
              simp only [ne_eq, not_true_eq_false, false_imp_iff, imp_true_iff,
                iff_true]
              refine sound_of_eq h ?_
              have hself : db.contactStatus.set t u (some .accepted) =
                  db.contactStatus :=
                ContactRelation.set_eq_self hrow
              rw [hrel, acceptance, if_pos (by simp [hfails, hrow]), if_neg,
                hself]
              simp [hself, (h t u).mp hrow]
          | blocked =>
              simpa using not_sound_of_blocked hfails hrow
          | pending =>
              rw [sound_accept_iff_of_pending h hfails hrow]
              simp

/-- Which contact requests are sound. -/
theorem sound_add_iff
    {fails : Nat → Bool} {u t : String}
    (h : Mutual db.contactStatus) :
    Sound db ⟨u, .add (some t), fails⟩
      ↔
    ContactOp.InStep db ⟨u, .add (some t), fails⟩ := by
  simp only [ContactOp.InStep]
  by_cases hreq : Requests db u t
  · have heffect : (serveContact db
        ⟨u, .add (some t), fails⟩).1.contactStatus = _ :=
      contactStatus_handleContactAdd hreq
    have hnone : db.contactStatus u t ≠ some .accepted := by
      simp [hreq.2.2.2]
    cases hprivacy : db.profilePrivacy t with
    | inviteOnly =>
        rw [hprivacy] at heffect
        simp only [reduceCtorEq, false_imp_iff, imp_true_iff, iff_true]
        exact sound_of_eq h heffect
    | request =>
        rw [hprivacy] at heffect
        simp only [reduceCtorEq, false_imp_iff, imp_true_iff, iff_true]
        dsimp only at heffect
        split at heffect
        · refine ⟨?_, justified_of_accepted ?_⟩
          · rw [heffect]
            exact h.set hnone (by decide)
          · intro a b hacc
            rw [heffect] at hacc
            by_cases hab : a = u ∧ b = t
            · rw [hab.1, hab.2, ContactRelation.set_same] at hacc
              cases hacc
            · rwa [ContactRelation.set_of_ne _ _ hab] at hacc
        · exact sound_of_eq h heffect
    | «open» =>
        rw [hprivacy] at heffect
        by_cases hwrites : fails 0 = false ∧ (db.userID u).isSome
        · rw [sound_add_iff_of_open h hreq hprivacy hwrites.1 hwrites.2]
          simp [hreq, hwrites.1, hwrites.2]
        · have hauto : autoAcceptance db fails u t = db.contactStatus := by
            rw [autoAcceptance, if_neg hwrites]
          constructor
          · intro _ _ _ hfails huser
            exact absurd ⟨hfails, huser⟩ hwrites
          · intro _
            exact sound_of_eq h (heffect.trans hauto)
  · have heq : (serveContact db ⟨u, .add (some t), fails⟩).1.contactStatus =
        db.contactStatus := by
      simp only [serveContact, handleContactAdd_of_not_requests hreq]
    constructor
    · intro _ hreq'
      exact absurd hreq' hreq
    · intro _
      exact sound_of_eq h heq

/-- A request is sound exactly when it is in step. -/
theorem sound_iff_inStep
    (h : Mutual db.contactStatus) :
    Sound db op ↔ op.InStep db := by
  obtain ⟨u, request, fails⟩ := op
  cases request with
  | add username =>
      cases username with
      | none =>
          exact iff_of_true (sound_of_eq h rfl) trivial
      | some t =>
          exact sound_add_iff h
  | update t status =>
      by_cases haccepted : status = some "accepted"
      · subst haccepted
        exact sound_accept_iff h
      · refine iff_of_true ?_ (fun hacc => absurd hacc haccepted)
        by_cases hrejected : status = some "rejected"
        · subst hrejected
          have hrel : (serveContact db
              ⟨u, .update t (some "rejected"), fails⟩).1.contactStatus =
                clearance db fails u t :=
            contactStatus_reject db fails u t
          refine ⟨hrel ▸ clearance_mutual h, justified_of_accepted ?_⟩
          intro a b hacc
          rw [hrel] at hacc
          exact clearance_accepted hacc
        · refine sound_of_eq h ?_
          simp only [serveContact,
            handleContactUpdate_of_refused haccepted hrejected]
  | delete t =>
      have hrel : (serveContact db ⟨u, .delete t, fails⟩).1.contactStatus =
          clearance db fails u t :=
        contactStatus_handleContactDelete db fails u t
      refine iff_of_true
        ⟨hrel ▸ clearance_mutual h, justified_of_accepted ?_⟩ trivial
      intro a b hacc
      rw [hrel] at hacc
      exact clearance_accepted hacc
  | block t =>
      refine iff_of_true ?_ trivial
      by_cases htu : t = u
      · subst htu
        refine sound_of_eq h ?_
        simp only [serveContact, handleContactBlock_self]
      · have hrel : (serveContact db ⟨u, .block t, fails⟩).1.contactStatus =
            blockage db fails u t :=
          contactStatus_handleContactBlock htu
        refine ⟨hrel ▸ blockage_mutual h, justified_of_accepted ?_⟩
        intro a b hacc
        rw [hrel] at hacc
        exact blockage_accepted hacc
  | privacy privacy =>
      exact iff_of_true (sound_of_eq h rfl) trivial

/--
From contacts that are mutual, every request of a run keeps them mutual and
makes nothing accepted without reason exactly when every request is in step.
-/
theorem contacts_symmetric_iff
    {ops : List ContactOp}
    (h : Mutual db.contactStatus) :
    Along contactStep Sound db ops
      ↔
    Along contactStep (fun db op => op.InStep db) db ops := by
  refine Along.congr_of_invariant (P := Sound)
    (fun db op hm => sound_iff_inStep hm) ?_ h
  intro db₁ op db₂ _ hsound hstep
  cases hstep
  exact hsound.1

theorem strangers_mutual :
    Mutual strangers.contactStatus := by
  have hnone : ∀ a b, strangers.contactStatus a b = none := by
    intro a b
    unfold contactStatus
    split
    · rfl
    · rfl
  intro a b
  rw [hnone, hnone]

/-- A request and its acceptance are sound. -/
theorem friendship_symmetric :
    Along contactStep Sound strangers
      [.of "yuri" (.add (some "xena")),
        .of "xena" (.update "yuri" (some "accepted"))] := by
  refine (contacts_symmetric_iff strangers_mutual).mpr ?_
  refine ⟨?_, ?_⟩
  · intro _ hopen
    exact absurd hopen (by decide)
  · intro db₁ hstep
    cases hstep
    refine ⟨?_, fun _ _ => trivial⟩
    intro _ _ _ _
    exact ⟨by decide, Or.inr ⟨by decide, rfl⟩⟩

/-- Of two crossing requests, the one to the open user splits the pair. -/
theorem crossing_requests_split :
    Mutual strangers.contactStatus ∧
    ∀ db', run contactStep strangers
        [.of "yuri" (.add (some "xena")),
          .of "xena" (.add (some "yuri"))] = some db' →
      db'.contactStatus "xena" "yuri" = some .accepted ∧
        db'.contactStatus "yuri" "xena" = some .pending := by
  refine ⟨strangers_mutual, ?_⟩
  intro db' hrun
  cases hrun
  decide

end Friendships

end Server
end CoopMessenger
