import CoopMessenger.Util.Text

/-!
# Users, roles and permissions

The value types of package `user`: roles, read/write permissions, tiers and
users, with the name checks of `user/util.go`.  Of a tier and of a user only the
fields that the modelled operations read are kept.
-/

namespace CoopMessenger
namespace Manager

/-- User roles. -/
inductive Role where
  | admin
  | user
  | anonymous
deriving DecidableEq, Repr

/-- A read or write permission to a topic. -/
inductive Permission where
  | denyAll
  | read
  | write
  | readWrite
deriving DecidableEq, Repr

/-- A permission from its read and write bits. -/
def newPermission :
    Bool → Bool → Permission
  | false, false => .denyAll
  | true, false => .read
  | false, true => .write
  | true, true => .readWrite

/-- The read bit. -/
def Permission.isRead : Permission → Bool
  | .read | .readWrite => true
  | .denyAll | .write => false

/-- The write bit. -/
def Permission.isWrite : Permission → Bool
  | .write | .readWrite => true
  | .denyAll | .read => false

@[simp] theorem isRead_newPermission
    (r w : Bool) :
    (newPermission r w).isRead = r := by
  cases r <;> cases w <;> rfl

@[simp] theorem isWrite_newPermission
    (r w : Bool) :
    (newPermission r w).isWrite = w := by
  cases r <;> cases w <;> rfl

/-- A permission is determined by its two bits. -/
theorem newPermission_bits
    (p : Permission) :
    newPermission p.isRead p.isWrite = p := by
  cases p <;> rfl

/-- Parses a permission string. -/
def parsePermission (s : String) : Option Permission :=
  match Util.lower s with
  | "read-write" | "rw" => some .readWrite
  | "read-only" | "read" | "ro" => some .read
  | "write-only" | "write" | "wo" => some .write
  | "deny-all" | "deny" | "none" => some .denyAll
  | _ => none

/-- A user's account type. -/
structure Tier where
  id : String
  reservationLimit : Nat
deriving DecidableEq, Repr

/-- Daily user statistics. -/
structure Stats where
  messages : Int
  emails : Int
  calls : Int
deriving DecidableEq, Repr

/-- A user, as read from the user table joined with its tier. -/
structure User where
  id : String
  name : String
  role : Role
  tier : Option Tier
  stats : Stats
  provisioned : Bool
deriving DecidableEq, Repr

/-- The ID of the user's tier; empty without a tier or without a user. -/
def tierID (u : Option User) : String :=
  ((u.bind User.tier).map Tier.id).getD ""

/-- The ID of the user, or the empty string. -/
def maybeUserID (u : Option User) : String :=
  (u.map User.id).getD ""

/-- Is there a user, and an admin? -/
def isAdmin (u : Option User) : Bool :=
  u.any (fun u => decide (u.role = .admin))

/-- Is this a regular user? -/
def User.isUser (u : User) : Bool :=
  decide (u.role = .user)

/-- The special username representing anonymous users. -/
def everyone : String := "*"

/-- The ID of the row of `everyone` in the user table. -/
def everyoneID : String := "u_everyone"

/-- Errors of the user manager. -/
inductive Error where
  | invalidArgument
  | unauthorized
  | userNotFound
  | userExists
  | provisionedUserChange
  | topicOwnedByOthers
  | unauthenticated
  | tierNotFound
  | tooManyReservations
  | passwordHashInvalid
  | passwordHashWeak
  | bcrypt
  | database
deriving DecidableEq, Repr

/-- A computation that succeeds has succeeded in its first part. -/
theorem exists_of_bind_eq_ok
    {ε α β : Type} {x : Except ε α} {f : α → Except ε β} {b : β}
    (h : x >>= f = .ok b) :
    ∃ a, x = .ok a ∧ f a = .ok b := by
  cases x with
  | error e =>
      cases h
  | ok a =>
      exact ⟨a, rfl, h⟩

section Names

/-- `[-_A-Za-z0-9]` -/
def topicChar (c : Char) : Bool :=
  c.isAlphanum || c == '-' || c == '_'

/-- `^[-_A-Za-z0-9]{1,64}$` -/
def allowedTopic (topic : String) : Bool :=
  topic.toList.length ≥ 1 && topic.toList.length ≤ 64 &&
    topic.toList.all topicChar

/-- `^[-_*A-Za-z0-9]{1,64}$` -/
def allowedTopicPattern (topic : String) : Bool :=
  topic.toList.length ≥ 1 && topic.toList.length ≤ 64 &&
    topic.toList.all (fun c => topicChar c || c == '*')

/-- `^[-_.+@a-zA-Z0-9]+$` -/
def allowedUsername (username : String) : Bool :=
  !username.toList.isEmpty &&
    username.toList.all
      (fun c => topicChar c || c == '.' || c == '+' || c == '@')

/-- Only regular users and admins can be created. -/
def allowedRole (role : Role) : Bool :=
  decide (role ≠ .anonymous)

/-- Every topic name is also a topic pattern. -/
theorem allowedTopicPattern_of_allowedTopic
    {topic : String}
    (h : allowedTopic topic = true) :
    allowedTopicPattern topic = true := by
  simp only [allowedTopic, allowedTopicPattern, Bool.and_eq_true,
    List.all_eq_true, Bool.or_eq_true] at h ⊢
  exact ⟨h.1, fun c hc => Or.inl (h.2 c hc)⟩

/-- A topic name has no wildcard. -/
theorem star_not_mem_of_allowedTopic
    {topic : String}
    (h : allowedTopic topic = true) :
    '*' ∉ topic.toList := by
  intro hstar
  simp only [allowedTopic, Bool.and_eq_true, List.all_eq_true] at h
  exact absurd (h.2 '*' hstar) (by decide)

/-- `everyone` is no name a user can have. -/
theorem not_allowedUsername_everyone :
    allowedUsername everyone = false := by
  decide

/-- Every character of a user name comes after `*`. -/
theorem star_lt_of_usernameChar
    {c : Char}
    (h : (topicChar c || c == '.' || c == '+' || c == '@') = true) :
    '*' < c := by
  have hval : ('*' : Char).val.toNat = 42 := by decide
  rw [Char.lt_def, UInt32.lt_iff_toNat_lt, hval]
  simp only [topicChar] at h
  delta Char.isAlphanum Char.isAlpha Char.isUpper Char.isLower at h
  simp only [Char.isDigit, Bool.or_eq_true, Bool.and_eq_true,
    decide_eq_true_eq, beq_iff_eq, UInt32.le_iff_toNat_le, ge_iff_le] at h
  rcases h with ((((((h | h) | h) | rfl) | rfl) | rfl) | rfl) | rfl
  · exact lt_of_lt_of_le (by decide) h.1
  · exact lt_of_lt_of_le (by decide) h.1
  · exact lt_of_lt_of_le (by decide) h.1
  all_goals decide

/-- In binary text order every user name comes after `everyone`. -/
theorem everyone_lt_of_allowedUsername
    {username : String}
    (h : allowedUsername username = true) :
    everyone < username := by
  simp only [allowedUsername, Bool.and_eq_true, List.all_eq_true] at h
  rw [String.lt_iff_toList_lt]
  cases hlist : username.toList with
  | nil =>
      simp [hlist] at h
  | cons c rest =>
      have hc := h.2 c (by simp [hlist])
      exact List.Lex.rel (star_lt_of_usernameChar hc)

end Names

end Manager
end CoopMessenger
