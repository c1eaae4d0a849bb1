import CoopMessenger.Manager.Database

/-!
# Contact rows

The contact statements of `user/manager.go`.  A contact row is directed; what
one user keeps about another is read through `contactStatus`.  Each write is
described by what it does to this relation between user names.  `fails` says
whether the database rejects the statement.

**Results.**
* `contactStatus_addContact`: an insert sets one pair, if it is free.
* `contactStatus_updateContactStatus`: an update sets one pair, if it is there.
* `contactStatus_deleteContact`: a delete clears both directions.
-/

namespace CoopMessenger
namespace Manager

open Library

/-- What each user keeps about each other user. -/
abbrev ContactRelation :=
  String → String → Option ContactStatus

/-- Replace what `a` keeps about `b`. -/
def ContactRelation.set
    (R : ContactRelation)
    (a b : String)
    (status : Option ContactStatus) : ContactRelation :=
  fun x y => if x = a ∧ y = b then status else R x y

@[simp] theorem ContactRelation.set_same
    (R : ContactRelation) (a b : String) (status : Option ContactStatus) :
    R.set a b status a b = status := by
  simp [ContactRelation.set]

theorem ContactRelation.set_of_ne
    (R : ContactRelation)
    {a b x y : String}
    (status : Option ContactStatus)
    (h : ¬ (x = a ∧ y = b)) :
    R.set a b status x y = R x y := by
  simp [ContactRelation.set, h]

/-- A pair set to what it is. -/
theorem ContactRelation.set_eq_self
    {R : ContactRelation} {a b : String} {status : Option ContactStatus}
    (h : R a b = status) :
    R.set a b status = R := by
  funext x y
  unfold ContactRelation.set
  split
  case isTrue hxy =>
    rw [hxy.1, hxy.2, h]
  case isFalse =>
    rfl

/-- Drop what `a` and `b` keep about each other. -/
def ContactRelation.clear
    (R : ContactRelation)
    (a b : String) : ContactRelation :=
  fun x y => if (x = a ∧ y = b) ∨ (x = b ∧ y = a) then none else R x y

theorem ContactRelation.clear_comm
    (R : ContactRelation) (a b : String) :
    R.clear a b = R.clear b a := by
  funext x y
  simp only [ContactRelation.clear, or_comm]

/-- Nothing changes between users who keep nothing about each other. -/
theorem ContactRelation.clear_eq_self
    {R : ContactRelation} {a b : String}
    (hab : R a b = none) (hba : R b a = none) :
    R.clear a b = R := by
  funext x y
  unfold ContactRelation.clear
  split
  case isTrue hxy =>
    rcases hxy with ⟨rfl, rfl⟩ | ⟨rfl, rfl⟩
    · exact hab.symm
    · exact hba.symm
  case isFalse =>
    rfl

namespace Database

/-- The status between two users, from the perspective of the first. -/
def contactStatus
    (db : Database) : ContactRelation :=
  fun fromUsername toUsername =>
    match db.userID fromUsername, db.userID toUsername with
    | some i, some j => (db.contacts.find? (i, j)).map ContactRow.status
    | _, _ => none

/-- Has either user blocked the other? -/
def isBlocked
    (db : Database)
    (userA userB : String) : Bool :=
  decide (db.contactStatus userA userB = some .blocked) ||
    decide (db.contactStatus userB userA = some .blocked)

/-- Creates a contact row. -/
def addContact
    (db : Database)
    (fails : Bool)
    (fromUsername toUsername : String)
    (status : ContactStatus) : Except Error Database :=
  if fails then
    .error .database
  else
    match db.userID fromUsername, db.userID toUsername with
    | some i, some j =>
        match db.contacts.insert? ⟨i, j, status⟩ with
        | some contacts => .ok { db with contacts }
        | none => .error .database
    | _, _ => .error .database

/-- Updates the status of a contact row. -/
def updateContactStatus
    (db : Database)
    (fails : Bool)
    (fromUsername toUsername : String)
    (status : ContactStatus) : Except Error Database :=
  if fails then
    .error .database
  else
    match db.userID fromUsername, db.userID toUsername with
    | some i, some j =>
        if (db.contacts.find? (i, j)).isSome then
          .ok
            { db with
              contacts :=
                db.contacts.modify
                  (fun c => if c.key = (i, j) then { c with status } else c)
                  (by intro c; split <;> rfl) }
        else
          -- no row was affected
          .error .userNotFound
    | _, _ => .error .userNotFound

/-- Removes a contact relationship in both directions. -/
def deleteContact
    (db : Database)
    (fails : Bool)
    (userA userB : String) : Except Error Database :=
  if fails then
    .error .database
  else
    match db.userID userA, db.userID userB with
    | some i, some j =>
        .ok
          { db with
            contacts :=
              db.contacts.delete
                (fun c => decide (c.key = (i, j) ∨ c.key = (j, i))) }
    | _, _ => .ok db

/-- The database after a write whose error is dropped. -/
def written
    (db : Database) : Except Error Database → Database
  | .ok db' => db'
  | .error _ => db

/-- Blocks a user: the rows of both directions go, a blocked row is created. -/
def blockContact
    (db : Database)
    (fails : Nat → Bool)
    (fromUsername toUsername : String) : Database × Except Error Unit :=
  let db₁ := db.written (db.deleteContact (fails 0) fromUsername toUsername)
  match db₁.addContact (fails 1) fromUsername toUsername .blocked with
  | .ok db₂ => (db₂, .ok ())
  | .error e => (db₁, .error e)

/-- The privacy setting of a user; `request` if there is no profile. -/
def profilePrivacy
    (db : Database)
    (username : String) : Privacy :=
  (((db.userID username).bind db.profiles.find?).map
    ProfileRow.privacy).getD .request

/-- Updates the privacy setting of a user. -/
def updateProfilePrivacy
    (db : Database)
    (username : String)
    (privacy : Privacy) : Database :=
  { db with
    profiles :=
      db.profiles.modify
        (fun p =>
          if (db.userID username).any (fun id => decide (p.userId = id)) then
            { p with privacy }
          else p)
        (by intro p; split <;> rfl) }

section Lemmas

variable {db db' : Database}
variable {a b : String}
variable {status : ContactStatus}
variable {fails : Bool}

/-- A status is kept only between existing users. -/
theorem userID_of_contactStatus
    (h : db.contactStatus a b ≠ none) :
    ∃ i j, db.userID a = some i ∧ db.userID b = some j := by
  unfold contactStatus at h
  split at h
  · exact ⟨_, _, ‹_›, ‹_›⟩
  · exact absurd rfl h

theorem contactStatus_eq
    {i j : String}
    (hi : db.userID a = some i)
    (hj : db.userID b = some j) :
    db.contactStatus a b =
      (db.contacts.find? (i, j)).map ContactRow.status := by
  simp [contactStatus, hi, hj]

/-- Pairs of names and pairs of IDs correspond. -/
theorem key_eq_iff
    {i j i' j' x y : String}
    (hi : db.userID a = some i) (hj : db.userID b = some j)
    (hi' : db.userID x = some i') (hj' : db.userID y = some j') :
    (i', j') = (i, j) ↔ x = a ∧ y = b := by
  constructor
  · intro h
    obtain ⟨rfl, rfl⟩ := Prod.mk.inj h
    exact ⟨userID_injective hi' hi, userID_injective hj' hj⟩
  · rintro ⟨rfl, rfl⟩
    rw [hi] at hi'
    rw [hj] at hj'
    cases hi'
    cases hj'
    rfl

/-- A write to the contacts that sets the entries of some keys. -/
theorem contactStatus_of_find?
    (db : Database)
    {R : ContactRelation}
    (husers : db'.users = db.users)
    (hfind : ∀ x y i j, db.userID x = some i → db.userID y = some j →
      (db'.contacts.find? (i, j)).map ContactRow.status = R x y)
    (hnone : ∀ x y, db.userID x = none ∨ db.userID y = none → R x y = none) :
    db'.contactStatus = R := by
  funext x y
  unfold contactStatus
  rw [userID_congr husers]
  cases hx : db.userID x with
  | none =>
      simp [hnone x y (Or.inl hx)]
  | some i =>
      cases hy : db.userID y with
      | none =>
          simp [hnone x y (Or.inr hy)]
      | some j =>
          exact hfind x y i j hx hy

theorem contactStatus_eq_none_of_userID
    {x y : String}
    (h : db.userID x = none ∨ db.userID y = none) :
    db.contactStatus x y = none := by
  by_contra hne
  obtain ⟨i, j, hi, hj⟩ := userID_of_contactStatus hne
  rcases h with h | h
  · rw [h] at hi
    cases hi
  · rw [h] at hj
    cases hj

/-- An insert succeeds on a free pair of existing users. -/
theorem addContact_isOk_iff
    (status : ContactStatus) :
    (∃ db', db.addContact fails a b status = .ok db')
      ↔
    fails = false ∧ (db.userID a).isSome ∧ (db.userID b).isSome ∧
      db.contactStatus a b = none := by
  unfold addContact
  cases fails with
  | true =>
      simp
  | false =>
      cases hi : db.userID a with
      | none =>
          simp
      | some i =>
          cases hj : db.userID b with
          | none =>
              simp
          | some j =>
              rw [contactStatus_eq hi hj]
              cases hins : db.contacts.insert? ⟨i, j, status⟩ with
              | none =>
                  obtain ⟨c, hc, hkey⟩ := Table.insert?_eq_none_iff.mp hins
                  have hfind := Table.find?_eq_some_iff.mpr ⟨hc, hkey⟩
                  simp only [ContactRow.key] at hfind
                  simp [hins, hfind]
              | some contacts =>
                  have hfree := (Table.insert?_eq_some_iff.mp hins).1
                  simp only [ContactRow.key] at hfree
                  simp [hins, hfree]

/-- Setting a pair of users leaves those who do not exist without one. -/
theorem set_eq_none_of_userID
    {i j x y : String} {value : Option ContactStatus}
    (hi : db.userID a = some i)
    (hj : db.userID b = some j)
    (hxy : db.userID x = none ∨ db.userID y = none) :
    db.contactStatus.set a b value x y = none := by
  rw [ContactRelation.set_of_ne]
  · exact contactStatus_eq_none_of_userID hxy
  · rintro ⟨rfl, rfl⟩
    simp [hi, hj] at hxy

/-- An insert sets one pair. -/
theorem addContact_eq_ok
    (h : db.addContact fails a b status = .ok db') :
    db'.users = db.users ∧ db'.profiles = db.profiles ∧
      db'.contactStatus = db.contactStatus.set a b (some status) := by
  unfold addContact at h
  split at h
  · cases h
  · split at h
    case h_2 =>
      cases h
    case h_1 i j hi hj =>
      split at h
      case h_2 =>
        cases h
      case h_1 contacts hins =>
        cases h
        refine ⟨rfl, rfl, contactStatus_of_find? db rfl ?_ ?_⟩
        · intro x y i' j' hx hy
          dsimp only
          rw [Table.find?_insert? hins, ContactRelation.set,
            contactStatus_eq hx hy]
          simp only [ContactRow.key, key_eq_iff hi hj hx hy]
          split <;> rfl
        · exact fun x y hxy => set_eq_none_of_userID hi hj hxy

/-- An update succeeds on a present pair. -/
theorem updateContactStatus_isOk_iff
    (status : ContactStatus) :
    (∃ db', db.updateContactStatus fails a b status = .ok db')
      ↔
    fails = false ∧ db.contactStatus a b ≠ none := by
  unfold updateContactStatus contactStatus
  cases fails with
  | true =>
      simp
  | false =>
      cases hi : db.userID a with
      | none =>
          simp
      | some i =>
          cases hj : db.userID b with
          | none =>
              simp
          | some j =>
              cases hfind : db.contacts.find? (i, j) <;> simp [hfind]

/-- An update sets one pair. -/
theorem updateContactStatus_eq_ok
    (h : db.updateContactStatus fails a b status = .ok db') :
    db'.users = db.users ∧ db'.profiles = db.profiles ∧
      db'.contactStatus = db.contactStatus.set a b (some status) := by
  unfold updateContactStatus at h
  split at h
  · cases h
  · split at h
    case h_2 =>
      cases h
    case h_1 i j hi hj =>
      split at h
      case isFalse =>
        cases h
      case isTrue hsome =>
        cases h
        refine ⟨rfl, rfl, contactStatus_of_find? db rfl ?_ ?_⟩
        · intro x y i' j' hx hy
          dsimp only
          rw [Table.find?_modify, ContactRelation.set, contactStatus_eq hx hy]
          cases hfind : db.contacts.find? (i', j') with
          | none =>
              have hne : ¬ (x = a ∧ y = b) := by
                rw [← key_eq_iff hi hj hx hy]
                intro hkey
                rw [hkey] at hfind
                simp [hfind] at hsome
              simp [hne]
          | some c =>
              have hkey := (Table.find?_eq_some_iff.mp hfind).2
              simp only [Option.map_some, hkey, key_eq_iff hi hj hx hy]
              split <;> rfl
        · exact fun x y hxy => set_eq_none_of_userID hi hj hxy

/-- A delete succeeds unless the database fails. -/
theorem deleteContact_isOk_iff
    (db : Database) (a b : String) :
    (∃ db', db.deleteContact fails a b = .ok db') ↔ fails = false := by
  unfold deleteContact
  cases fails with
  | true =>
      simp
  | false =>
      cases db.userID a with
      | none =>
          simp
      | some i =>
          cases db.userID b <;> simp

/-- A delete clears both directions of one pair. -/
theorem deleteContact_eq_ok
    (h : db.deleteContact fails a b = .ok db') :
    db'.users = db.users ∧ db'.profiles = db.profiles ∧
      db'.contactStatus = db.contactStatus.clear a b := by
  unfold deleteContact at h
  split at h
  · cases h
  · split at h
    case h_1 i j hi hj =>
      cases h
      refine ⟨rfl, rfl, contactStatus_of_find? db rfl ?_ ?_⟩
      · intro x y i' j' hx hy
        dsimp only
        rw [Table.find?_delete (q := fun k => decide (k = (i, j) ∨ k = (j, i)))
          (fun _ => rfl)]
        simp only [ContactRelation.clear, contactStatus_eq hx hy,
          key_eq_iff hi hj hx hy, key_eq_iff hj hi hx hy, decide_eq_true_eq]
        split <;> rfl
      · intro x y hxy
        simp [ContactRelation.clear, contactStatus_eq_none_of_userID hxy]
    case h_2 hnone =>
      cases h
      have hno : db.userID a = none ∨ db.userID b = none := by
        cases hi : db.userID a with
        | none =>
            exact Or.inl rfl
        | some i =>
            cases hj : db.userID b with
            | none =>
                exact Or.inr rfl
            | some j =>
                exact absurd hj (hnone i j hi)
      rw [ContactRelation.clear_eq_self (contactStatus_eq_none_of_userID hno)
        (contactStatus_eq_none_of_userID hno.symm)]
      exact ⟨rfl, rfl, rfl⟩

/-- What a write leaves behind, from when it succeeds and what it does then. -/
theorem contactStatus_written
    {r : Except Error Database} {p : Prop} [Decidable p] {R : ContactRelation}
    (hiff : (∃ db', r = .ok db') ↔ p)
    (hok : ∀ db', r = .ok db' → db'.contactStatus = R) :
    (db.written r).contactStatus = if p then R else db.contactStatus := by
  cases r with
  | error e =>
      have hp : ¬ p := by
        rw [← hiff]
        rintro ⟨db', h⟩
        cases h
      rw [if_neg hp]
      rfl
  | ok db' =>
      rw [if_pos (hiff.mp ⟨db', rfl⟩)]
      exact hok db' rfl

/-- What an insert leaves behind. -/
theorem contactStatus_addContact
    (db : Database) (fails : Bool) (a b : String) (status : ContactStatus) :
    (db.written (db.addContact fails a b status)).contactStatus =
      if fails = false ∧ (db.userID a).isSome ∧ (db.userID b).isSome ∧
          db.contactStatus a b = none then
        db.contactStatus.set a b (some status)
      else
        db.contactStatus :=
  contactStatus_written (addContact_isOk_iff status)
    (fun _ h => (addContact_eq_ok h).2.2)

/-- What an update leaves behind. -/
theorem contactStatus_updateContactStatus
    (db : Database) (fails : Bool) (a b : String) (status : ContactStatus) :
    (db.written (db.updateContactStatus fails a b status)).contactStatus =
      if fails = false ∧ db.contactStatus a b ≠ none then
        db.contactStatus.set a b (some status)
      else
        db.contactStatus :=
  contactStatus_written (updateContactStatus_isOk_iff status)
    (fun _ h => (updateContactStatus_eq_ok h).2.2)

/-- What a delete leaves behind. -/
theorem contactStatus_deleteContact
    (db : Database) (fails : Bool) (a b : String) :
    (db.written (db.deleteContact fails a b)).contactStatus =
      if fails = false then
        db.contactStatus.clear a b
      else
        db.contactStatus :=
  contactStatus_written (deleteContact_isOk_iff db a b)
    (fun _ h => (deleteContact_eq_ok h).2.2)

theorem users_written_deleteContact
    (db : Database) (fails : Bool) (a b : String) :
    (db.written (db.deleteContact fails a b)).users = db.users := by
  cases h : db.deleteContact fails a b with
  | error e =>
      rfl
  | ok db' =>
      exact (deleteContact_eq_ok h).1

/-- Blocking is a delete followed by an insert. -/
theorem blockContact_fst
    (db : Database) (fails : Nat → Bool) (a b : String) :
    (db.blockContact fails a b).1 =
      (db.written (db.deleteContact (fails 0) a b)).written
        ((db.written (db.deleteContact (fails 0) a b)).addContact
          (fails 1) a b .blocked) := by
  unfold blockContact
  cases h : (db.written (db.deleteContact (fails 0) a b)).addContact
      (fails 1) a b .blocked with
  | error e =>
      simp only [h]
      rfl
  | ok db' =>
      simp only [h]
      rfl

/-- User names are not empty and contain no slash. -/
theorem userID_eq_none
    (db : Database)
    {name : String}
    (h : name = "" ∨ '/' ∈ name.toList) :
    db.userID name = none := by
  cases hid : db.userID name with
  | none =>
      rfl
  | some id =>
      exfalso
      obtain ⟨u, hu, rfl, -⟩ := userID_eq_some_iff.mp hid
      rcases db.names_allowed u hu with hall | hall
      · rw [hall] at h
        exact absurd h (by decide)
      · simp only [allowedUsername, Bool.and_eq_true, List.all_eq_true] at hall
        rcases h with hempty | hslash
        · simp [hempty] at hall
        · exact absurd (hall.2 '/' hslash) (by decide)

end Lemmas

end Database

end Manager
end CoopMessenger
