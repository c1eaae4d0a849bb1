import CoopMessenger.Library.Runs
import CoopMessenger.Manager.Profiles
import CoopMessenger.Server.DirectMessages
import Mathlib.Data.Finset.Erase
import Mathlib.Data.Finset.Insert

/-!
# Avatars

`handleAvatarUpload` and `handleAvatarDelete` of `server/server_profile.go`, any number of
them at once, and the removal of users.  The file of an avatar and the row that names it
are changed by system calls and statements of their own, each of which may fail; every one
is a step.

**Results.**
* `Inv.step`: what orderly steps preserve.
* `live_in_quiescent`: when no request is in flight, profiles and files belong together, as
  long as requests do not get in each other's way and clean up after themselves.
* `upload_not_live`: what a failed update leaves behind.
-/

namespace CoopMessenger
namespace Server

open Library

namespace Avatars

open Manager

section Model

/-- `avatarAllowedTypes` -/
def avatarAllowedTypes : List (String × String) :=
  [("image/jpeg", ".jpg"), ("image/png", ".png"), ("image/webp", ".webp"),
    ("image/gif", ".gif")]

/-- `avatarIDPrefix` and six random bytes in hexadecimal -/
def generateAvatarID (b : Vector UInt8 6) : String :=
  String.ofList ("av_".toList ++ DirectMessages.hexEncode b.toList)

/-- What `ParseMultipartForm` and `FormFile` make of the body. -/
inductive Form where
  | unparsable
  | missing
  | file (contentType : String)
deriving DecidableEq, Repr

inductive AvatarError where
  | http (e : ErrHTTP)
  | system
deriving DecidableEq, Repr

inductive Answer where
  | avatarURL (url : String)
  | success
  | failed (e : AvatarError)
deriving DecidableEq, Repr

/--
The checks of `handleAvatarUpload` before the file is opened, with the user and the name
of the file.
-/
def checkUpload
    (attachmentCacheDir : String)
    (user : Option String)
    (mkdirFails : Bool)
    (form : Form)
    (b : Vector UInt8 6) : Except AvatarError (String × String) :=
  match user with
  | none => .error (.http errHTTPForbidden)
  | some userId =>
      if attachmentCacheDir = "" then
        .error (.http (errHTTPBadRequest.wrap "avatar uploads not configured"))
      else if mkdirFails then
        .error .system
      else
        match form with
        | .unparsable => .error (.http (errHTTPBadRequest.wrap "file too large (max 512 KB)"))
        | .missing => .error (.http (errHTTPBadRequest.wrap "missing file field"))
        | .file contentType =>
            match avatarAllowedTypes.lookup contentType with
            | none =>
                .error (.http (errHTTPBadRequest.wrap
                  "invalid file type, allowed: jpeg, png, webp, gif"))
            | some ext => .ok (userId, generateAvatarID b ++ ext)

/--
How far a request is: it opens its file, it copies the upload, it removes its own file
again, it reads the old avatar, it removes that one, or it updates the profile.  From the
reading on an upload has a new file, and a deletion has none.
-/
inductive Phase where
  | opening (filename : String)
  | copying (filename : String)
  | discarding (filename : String)
  | reading (new : Option String)
  | removing (new : Option String) (old : String)
  | updating (new : Option String)
deriving DecidableEq, Repr

structure Request where
  id : Nat
  userId : String
  phase : Phase
deriving DecidableEq, Repr

/-- The avatar directory, the profiles, and the requests in flight. -/
structure State where
  files : Finset String
  profiles : Table ProfileText.userId
  requests : Table Request.id
  answers : List (Nat × Answer)

/-- The request goes on. -/
def State.setRequest
    (s : State)
    (id : Nat)
    (phase : Phase) : State :=
  { s with
    requests :=
      s.requests.modify (fun r => if r.id = id then { r with phase } else r)
        (by intro r; split <;> rfl) }

/-- The request is answered. -/
def State.endRequest
    (s : State)
    (id : Nat)
    (answer : Answer) : State :=
  { s with
    requests := s.requests.delete (fun r => decide (r.id = id))
    answers := (id, answer) :: s.answers }

/-- `os.OpenFile` with `O_CREATE` -/
def State.openFile
    (s : State)
    (filename : String) : State :=
  { s with files := insert filename s.files }

/-- `os.Remove` -/
def State.remove
    (s : State)
    (filename : String) : State :=
  { s with files := s.files.erase filename }

/-- `ProfileAvatarID`; a user without a profile has none. -/
def State.profileAvatarID
    (s : State)
    (userId : String) : String :=
  match s.profiles.find? userId with
  | some t => t.avatarId
  | none => ""

/-- `UpdateProfileAvatar` -/
def State.updateProfileAvatar
    (s : State)
    (userId avatarId : String) : State :=
  { s with
    profiles :=
      s.profiles.modify (fun t => if t.userId = userId then { t with avatarId } else t)
        (by intro t; split <;> rfl) }

/-- A user is removed; the profile goes with it where foreign keys are enforced. -/
def State.removeUser
    (s : State)
    (userId : String)
    (enforced : Bool) : State :=
  if enforced then
    { s with profiles := s.profiles.delete (fun t => decide (t.userId = userId)) }
  else
    s

/-- Each call may fail; `put` and `delete` begin a request. -/
inductive Label where
  | put (id : Nat) (user : Option String) (mkdirFails : Bool) (form : Form)
      (b : Vector UInt8 6)
  | delete (id : Nat) (user : Option String)
  | openFile (id : Nat) (fails : Bool)
  | copy (id : Nat) (fails : Bool)
  | discard (id : Nat) (fails : Bool)
  | readOld (id : Nat) (fails : Bool)
  | removeOld (id : Nat) (fails : Bool)
  | update (id : Nat) (fails : Bool)
  | removeUser (userId : String) (enforced : Bool)
deriving DecidableEq

/-- A step of a request that has begun. -/
def stepRequest
    (s : State)
    (r : Request) : Label → Option State
  | .openFile _ fails =>
      match r.phase with
      | .opening filename =>
          if fails then
            some (s.endRequest r.id (.failed .system))
          else
            some ((s.openFile filename).setRequest r.id (.copying filename))
      | _ => none
  | .copy _ fails =>
      match r.phase with
      | .copying filename =>
          if fails then
            some (s.setRequest r.id (.discarding filename))
          else
            some (s.setRequest r.id (.reading (some filename)))
      | _ => none
  | .discard _ fails =>
      match r.phase with
      | .discarding filename =>
          some ((if fails then s else s.remove filename).endRequest r.id (.failed .system))
      | _ => none
  | .readOld _ fails =>
      match r.phase with
      | .reading new =>
          if fails ∨ s.profileAvatarID r.userId = "" then
            some (s.setRequest r.id (.updating new))
          else
            some (s.setRequest r.id (.removing new (s.profileAvatarID r.userId)))
      | _ => none
  | .removeOld _ fails =>
      match r.phase with
      | .removing new old =>
          some ((if fails then s else s.remove old).setRequest r.id (.updating new))
      | _ => none
  | .update _ fails =>
      match r.phase with
      | .updating (some filename) =>
          if fails then
            some (s.setRequest r.id (.discarding filename))
          else
            some ((s.updateProfileAvatar r.userId filename).endRequest r.id
              (.avatarURL ("/v1/coop/profile/avatar/" ++ filename)))
      | .updating none =>
          if fails then
            some (s.endRequest r.id (.failed .system))
          else
            some ((s.updateProfileAvatar r.userId "").endRequest r.id .success)
      | _ => none
  | _ => none

/-- One step; `none` if it is not enabled. -/
def step
    (attachmentCacheDir : String)
    (s : State)
    (l : Label) : Option State :=
  match l with
  | .put id user mkdirFails form b =>
      match checkUpload attachmentCacheDir user mkdirFails form b with
      | .error e => some { s with answers := (id, .failed e) :: s.answers }
      | .ok (userId, filename) =>
          (s.requests.insert? ⟨id, userId, .opening filename⟩).map
            (fun requests => { s with requests })
  | .delete id user =>
      match user with
      | none => some { s with answers := (id, .failed (.http errHTTPForbidden)) :: s.answers }
      | some userId =>
          if attachmentCacheDir = "" then
            some { s with answers := (id, .success) :: s.answers }
          else
            (s.requests.insert? ⟨id, userId, .reading none⟩).map
              (fun requests => { s with requests })
  | .openFile id _ | .copy id _ | .discard id _ | .readOld id _ | .removeOld id _
  | .update id _ =>
      (s.requests.find? id).bind (fun r => stepRequest s r l)
  | .removeUser userId enforced => some (s.removeUser userId enforced)

end Model

section Spec

/-- The file of a request that has one. -/
def Phase.file? : Phase → Option String
  | .opening filename | .copying filename | .discarding filename => some filename
  | .reading new | .removing new _ | .updating new => new

/-- May the request still update the profile? -/
def Phase.mayUpdate : Phase → Bool
  | .discarding _ => false
  | _ => true

/-- Is the file about to be removed as an old one? -/
def Phase.removes
    (phase : Phase)
    (filename : String) : Bool :=
  match phase with
  | .removing _ old => decide (old = filename)
  | _ => false

/-- Has the file been opened? -/
def Phase.opened : Phase → Bool
  | .opening _ => false
  | _ => true

/-- The profile names no file, or one that exists. -/
def Served
    (s : State)
    (t : ProfileText) : Prop :=
  t.avatarId = "" ∨ t.avatarId ∈ s.files

/-- Every profile is served, and every file is named by a profile. -/
structure Live (s : State) : Prop where
  served : ∀ t ∈ s.profiles, Served s t
  named : ∀ f ∈ s.files, ∃ t ∈ s.profiles, t.avatarId ≠ "" ∧ t.avatarId = f

/-- No two profiles name one file, and nothing is in flight. -/
structure Start (s : State) : Prop where
  live : Live s
  apart : ∀ t ∈ s.profiles, ∀ t' ∈ s.profiles,
    t.avatarId ≠ "" → t.avatarId = t'.avatarId → t = t'
  idle : s.requests.rows = []

/-- Nobody has, names or removes a file of this name. -/
def Unused
    (s : State)
    (filename : String) : Prop :=
  filename ∉ s.files ∧ (∀ t ∈ s.profiles, t.avatarId ≠ filename) ∧
    ∀ r ∈ s.requests, r.phase.file? ≠ some filename ∧ r.phase.removes filename = false

/--
The profile of the user is served already, or another request that may still update it is
in flight.
-/
def MayLeave
    (s : State)
    (r : Request) : Prop :=
  ∀ t ∈ s.profiles, t.userId = r.userId →
    Served s t ∨ ∃ q ∈ s.requests, q.id ≠ r.id ∧ q.userId = r.userId ∧
      q.phase.mayUpdate = true

/-- The file that the profile names is gone, or a request is about to remove it. -/
def MayForget
    (s : State)
    (t : ProfileText) : Prop :=
  t.avatarId = "" ∨ t.avatarId ∉ s.files ∨
    ∃ q ∈ s.requests, q.phase.removes t.avatarId = true

/-- An update finds the profile, or there is no new file, and the old one is gone. -/
def MayReplace
    (s : State)
    (r : Request) : Prop :=
  match s.profiles.find? r.userId with
  | some t => MayForget s t
  | none => r.phase.file? = none

/-- The old file does not exist, a profile names it, or another request removes it. -/
def MayKeep
    (s : State)
    (r : Request) : Prop :=
  match r.phase with
  | .removing _ old =>
      old ∈ s.files → (∃ t ∈ s.profiles, t.avatarId = old) ∨
        ∃ q ∈ s.requests, q.id ≠ r.id ∧ q.phase.removes old = true
  | _ => True

/--
No generated name is in use.  A request that ends without an update leaves a profile that
is served, or to another request; the file of an unsuccessful upload is removed; an old
file is left only where it is named or about to be removed; and an update or a removal of
the user makes a profile forget only files that are gone or about to be.
-/
def Orderly
    (attachmentCacheDir : String)
    (s : State) : Label → Prop
  | .put _ user mkdirFails form b =>
      match checkUpload attachmentCacheDir user mkdirFails form b with
      | .ok (_, filename) => Unused s filename
      | .error _ => True
  | .openFile id true | .copy id true | .update id true =>
      ∀ r ∈ s.requests, r.id = id → MayLeave s r
  | .discard _ true => False
  | .removeOld id true => ∀ r ∈ s.requests, r.id = id → MayKeep s r
  | .update id false => ∀ r ∈ s.requests, r.id = id → MayReplace s r
  | .removeUser userId true => ∀ t ∈ s.profiles, t.userId = userId → MayForget s t
  | _ => True

instance decidableServed
    (s : State) (t : ProfileText) :
    Decidable (Served s t) := by
  unfold Served
  infer_instance

instance decidableUnused
    (s : State) (filename : String) :
    Decidable (Unused s filename) := by
  unfold Unused
  infer_instance

instance decidableMayLeave
    (s : State) (r : Request) :
    Decidable (MayLeave s r) := by
  unfold MayLeave
  infer_instance

instance decidableMayForget
    (s : State) (t : ProfileText) :
    Decidable (MayForget s t) := by
  unfold MayForget
  infer_instance

instance decidableMayReplace
    (s : State) (r : Request) :
    Decidable (MayReplace s r) := by
  unfold MayReplace
  split <;> infer_instance

instance decidableMayKeep
    (s : State) (r : Request) :
    Decidable (MayKeep s r) := by
  unfold MayKeep
  split <;> infer_instance

instance decidableOrderly
    (attachmentCacheDir : String) (s : State) (l : Label) :
    Decidable (Orderly attachmentCacheDir s l) := by
  unfold Orderly
  split
  case h_1 =>
    split <;> infer_instance
  all_goals infer_instance

end Spec

section Preservation

variable {s s' : State}
variable {r : Request}
variable {phase : Phase}

/--
Profiles that are not served belong to a request that may still update them; files are
named by a profile, are the new file of a request, or are about to be removed; and nobody
else knows of a new file.
-/
structure Inv (s : State) : Prop where
  served : ∀ t ∈ s.profiles, Served s t ∨
    ∃ q ∈ s.requests, q.userId = t.userId ∧ q.phase.mayUpdate = true
  kept : ∀ f ∈ s.files, (∃ t ∈ s.profiles, t.avatarId ≠ "" ∧ t.avatarId = f) ∨
    ∃ q ∈ s.requests, (q.phase.file? = some f ∧ q.phase.opened = true) ∨
      q.phase.removes f = true
  apart : ∀ t ∈ s.profiles, ∀ t' ∈ s.profiles,
    t.avatarId ≠ "" → t.avatarId = t'.avatarId → t = t'
  new_ne : ∀ q ∈ s.requests, q.phase.file? ≠ some ""
  old_ne : ∀ q ∈ s.requests, q.phase.removes "" = false
  written : ∀ q ∈ s.requests, ∀ f, q.phase.file? = some f → q.phase.opened = true →
    f ∈ s.files
  unnamed : ∀ q ∈ s.requests, ∀ f, q.phase.file? = some f →
    ∀ t ∈ s.profiles, t.avatarId ≠ f
  unremoved : ∀ q ∈ s.requests, ∀ f, q.phase.file? = some f →
    ∀ q' ∈ s.requests, q'.phase.removes f = false
  distinct : ∀ q ∈ s.requests, ∀ f, q.phase.file? = some f →
    ∀ q' ∈ s.requests, q'.phase.file? = some f → q' = q
  owner : ∀ q ∈ s.requests, ∀ f, q.phase.removes f = true →
    ∀ t ∈ s.profiles, t.avatarId = f → t.userId = q.userId

theorem mem_setRequest_iff
    {q : Request}
    (hr : r ∈ s.requests) :
    q ∈ (s.setRequest r.id phase).requests ↔
      q = { r with phase } ∨ (q ∈ s.requests ∧ q.id ≠ r.id) :=
  Table.mem_modify_key_iff (by intro q; split <;> rfl) hr rfl

theorem mem_endRequest_iff
    {answer : Answer} {q : Request} :
    q ∈ (s.endRequest r.id answer).requests ↔ q ∈ s.requests ∧ q.id ≠ r.id := by
  simp [State.endRequest]

/-- The request is in another phase; profiles are as before. -/
structure Advanced
    (s s' : State)
    (r : Request)
    (phase : Phase) : Prop where
  profiles : s'.profiles = s.profiles
  requests : ∀ q, q ∈ s'.requests ↔ q = { r with phase } ∨ (q ∈ s.requests ∧ q.id ≠ r.id)
  file : phase.file? = r.phase.file?
  opened : phase.opened = true

/--
A request goes on: it removes only the old file, and creates only its own; it keeps an old
file, or gives up its update, only if it may.
-/
theorem Inv.advance
    (h : Inv s)
    (hr : r ∈ s.requests)
    (hadv : Advanced s s' r phase)
    (hgone : ∀ f ∈ s.files, f ∉ s'.files → r.phase.removes f = true)
    (hadded : ∀ f ∈ s'.files, f ∉ s.files → phase.file? = some f)
    (hwritten : ∀ f, phase.file? = some f → f ∈ s'.files)
    (hleave : phase.mayUpdate = false → s'.files = s.files ∧ MayLeave s r)
    (hkeep : ∀ f ∈ s'.files, r.phase.removes f = true →
      (∃ t ∈ s.profiles, t.avatarId = f) ∨
        ∃ q ∈ s.requests, q.id ≠ r.id ∧ q.phase.removes f = true)
    (hold : ∀ f, phase.removes f = true →
      f ≠ "" ∧ ∃ t ∈ s.profiles, t.userId = r.userId ∧ t.avatarId = f) :
    Inv s' := by
  obtain ⟨hprofiles, hrequests, hfile, hopened⟩ := hadv
  have hnew : ({ r with phase } : Request) ∈ s'.requests := (hrequests _).mpr (Or.inl rfl)
  have hother : ∀ q ∈ s.requests, q.id ≠ r.id → q ∈ s'.requests :=
    fun q hq hne => (hrequests q).mpr (Or.inr ⟨hq, hne⟩)
  have hsame : ∀ q ∈ s.requests, q.id = r.id → q = r :=
    fun q hq hid => Table.eq_of_key_eq hq hr hid
  -- every request has the file that it had
  have hback : ∀ q ∈ s'.requests, ∀ f, q.phase.file? = some f →
      ∃ q₀ ∈ s.requests, q₀.id = q.id ∧ q₀.phase.file? = some f := by
    intro q hq f hf
    rcases (hrequests q).mp hq with rfl | ⟨hq, -⟩
    · exact ⟨r, hr, rfl, hfile ▸ hf⟩
    · exact ⟨q, hq, rfl, hf⟩
  have hunremoved : ∀ q ∈ s.requests, ∀ f, q.phase.file? = some f → phase.removes f = false := by
    intro q hq f hf
    by_contra hremoves
    obtain ⟨-, t, ht, -, hname⟩ := hold f (by simpa using hremoves)
    exact h.unnamed q hq f hf t ht hname
  refine ⟨?_, ?_, hprofiles ▸ h.apart, ?_, ?_, ?_, ?_, ?_, ?_, ?_⟩
  · intro t ht
    rw [hprofiles] at ht
    rcases h.served t ht with (hempty | hmem) | ⟨q, hq, huser, hmay⟩
    · exact Or.inl (Or.inl hempty)
    · by_cases hmem' : t.avatarId ∈ s'.files
      · exact Or.inl (Or.inr hmem')
      · have huser := h.owner r hr _ (hgone _ hmem hmem') t ht rfl
        refine Or.inr ⟨_, hnew, huser.symm, ?_⟩
        by_contra hmay
        rw [(hleave (by simpa using hmay)).1] at hmem'
        exact hmem' hmem
    · by_cases hid : q.id = r.id
      · cases hsame q hq hid
        cases hphase : phase.mayUpdate with
        | true =>
            exact Or.inr ⟨_, hnew, huser, hphase⟩
        | false =>
            obtain ⟨hfiles, hleave⟩ := hleave hphase
            rcases hleave t ht huser.symm with hserved | ⟨q, hq, hne, huser', hmay'⟩
            · left
              rw [Served, hfiles]
              exact hserved
            · exact Or.inr ⟨q, hother q hq hne, huser'.trans huser, hmay'⟩
      · exact Or.inr ⟨q, hother q hq hid, huser, hmay⟩
  · intro f hf
    by_cases hf' : f ∈ s.files
    · rw [hprofiles]
      rcases h.kept f hf' with hnamed | ⟨q, hq, hheld | hremoves⟩
      · exact Or.inl hnamed
      · by_cases hid : q.id = r.id
        · cases hsame q hq hid
          exact Or.inr ⟨_, hnew, Or.inl ⟨hfile.trans hheld.1, hopened⟩⟩
        · exact Or.inr ⟨q, hother q hq hid, Or.inl hheld⟩
      · by_cases hid : q.id = r.id
        · cases hsame q hq hid
          have hne : f ≠ "" := by
            rintro rfl
            rw [h.old_ne _ hq] at hremoves
            cases hremoves
          rcases hkeep f hf hremoves with ⟨t, ht, rfl⟩ | ⟨q', hq', hne', hremoves'⟩
          · exact Or.inl ⟨t, ht, hne, rfl⟩
          · exact Or.inr ⟨q', hother q' hq' hne', Or.inr hremoves'⟩
        · exact Or.inr ⟨q, hother q hq hid, Or.inr hremoves⟩
    · exact Or.inr ⟨_, hnew, Or.inl ⟨hadded f hf hf', hopened⟩⟩
  · intro q hq hf
    obtain ⟨q₀, hq₀, -, hf₀⟩ := hback q hq "" hf
    exact h.new_ne q₀ hq₀ hf₀
  · intro q hq
    rcases (hrequests q).mp hq with rfl | ⟨hq, -⟩
    · by_contra hremoves
      exact (hold "" (by simpa using hremoves)).1 rfl
    · exact h.old_ne q hq
  · intro q hq f hf hop
    rcases (hrequests q).mp hq with rfl | ⟨hq, -⟩
    · exact hwritten f hf
    · by_contra hf'
      have hremoves := hgone f (h.written q hq f hf hop) hf'
      rw [h.unremoved q hq f hf r hr] at hremoves
      cases hremoves
  · intro q hq f hf
    obtain ⟨q₀, hq₀, -, hf₀⟩ := hback q hq f hf
    rw [hprofiles]
    exact h.unnamed q₀ hq₀ f hf₀
  · intro q hq f hf q' hq'
    obtain ⟨q₀, hq₀, -, hf₀⟩ := hback q hq f hf
    rcases (hrequests q').mp hq' with rfl | ⟨hq', -⟩
    · exact hunremoved q₀ hq₀ f hf₀
    · exact h.unremoved q₀ hq₀ f hf₀ q' hq'
  · intro q hq f hf q' hq' hf'
    obtain ⟨q₀, hq₀, hid, hf₀⟩ := hback q hq f hf
    obtain ⟨q₁, hq₁, hid', hf₁⟩ := hback q' hq' f hf'
    have heq := h.distinct q₀ hq₀ f hf₀ q₁ hq₁ hf₁
    exact Table.eq_of_key_eq hq' hq (hid'.symm.trans ((congrArg Request.id heq).trans hid))
  · intro q hq f hremoves t ht hname
    rw [hprofiles] at ht
    rcases (hrequests q).mp hq with rfl | ⟨hq, -⟩
    · obtain ⟨hne, t₀, ht₀, huser, hname₀⟩ := hold f hremoves
      have heq := h.apart t₀ ht₀ t ht (by rw [hname₀]; exact hne) (hname₀.trans hname.symm)
      rw [← heq]
      exact huser
    · exact h.owner q hq f hremoves t ht hname

/--
A request ends without an update: it has removed its own file if it had opened one, and
leaves the profile only if it may.
-/
theorem Inv.finish
    (h : Inv s)
    (hr : r ∈ s.requests)
    (hprofiles : ∀ t, t ∈ s'.profiles ↔ t ∈ s.profiles)
    (hrequests : ∀ q, q ∈ s'.requests ↔ q ∈ s.requests ∧ q.id ≠ r.id)
    (hremoves : ∀ f, r.phase.removes f = false)
    (hsub : ∀ f ∈ s'.files, f ∈ s.files)
    (hgone : ∀ f ∈ s.files, f ∉ s'.files → r.phase.file? = some f)
    (hheld : ∀ f ∈ s'.files, r.phase.file? = some f → r.phase.opened = false)
    (hleave : r.phase.mayUpdate = true → s'.files = s.files ∧ MayLeave s r) :
    Inv s' := by
  have hsame : ∀ q ∈ s.requests, q.id = r.id → q = r :=
    fun q hq hid => Table.eq_of_key_eq hq hr hid
  refine ⟨?_, ?_, ?_, ?_, ?_, ?_, ?_, ?_, ?_, ?_⟩
  · intro t ht
    rw [hprofiles] at ht
    rcases h.served t ht with (hempty | hmem) | ⟨q, hq, huser, hmay⟩
    · exact Or.inl (Or.inl hempty)
    · refine Or.inl (Or.inr ?_)
      by_contra hmem'
      exact h.unnamed r hr _ (hgone _ hmem hmem') t ht rfl
    · by_cases hid : q.id = r.id
      · cases hsame q hq hid
        obtain ⟨hfiles, hleave⟩ := hleave hmay
        rcases hleave t ht huser.symm with hserved | ⟨q, hq, hne, huser', hmay'⟩
        · left
          rw [Served, hfiles]
          exact hserved
        · exact Or.inr ⟨q, (hrequests q).mpr ⟨hq, hne⟩, huser'.trans huser, hmay'⟩
      · exact Or.inr ⟨q, (hrequests q).mpr ⟨hq, hid⟩, huser, hmay⟩
  · intro f hf
    rcases h.kept f (hsub f hf) with ⟨t, ht, hnamed⟩ | ⟨q, hq, hheld' | hremoves'⟩
    · exact Or.inl ⟨t, (hprofiles t).mpr ht, hnamed⟩
    · have hid : q.id ≠ r.id := by
        intro hid
        cases hsame q hq hid
        rw [hheld f hf hheld'.1] at hheld'
        cases hheld'.2
      exact Or.inr ⟨q, (hrequests q).mpr ⟨hq, hid⟩, Or.inl hheld'⟩
    · have hid : q.id ≠ r.id := by
        intro hid
        cases hsame q hq hid
        rw [hremoves f] at hremoves'
        cases hremoves'
      exact Or.inr ⟨q, (hrequests q).mpr ⟨hq, hid⟩, Or.inr hremoves'⟩
  · exact fun t ht t' ht' => h.apart t ((hprofiles t).mp ht) t' ((hprofiles t').mp ht')
  · exact fun q hq => h.new_ne q ((hrequests q).mp hq).1
  · exact fun q hq => h.old_ne q ((hrequests q).mp hq).1
  · intro q hq f hf hop
    obtain ⟨hq, hne⟩ := (hrequests q).mp hq
    by_contra hf'
    have hown := hgone f (h.written q hq f hf hop) hf'
    exact hne (congrArg Request.id (h.distinct r hr f hown q hq hf))
  · exact fun q hq f hf t ht => h.unnamed q ((hrequests q).mp hq).1 f hf t ((hprofiles t).mp ht)
  · exact fun q hq f hf q' hq' =>
      h.unremoved q ((hrequests q).mp hq).1 f hf q' ((hrequests q').mp hq').1
  · exact fun q hq f hf q' hq' =>
      h.distinct q ((hrequests q).mp hq).1 f hf q' ((hrequests q').mp hq').1
  · exact fun q hq f hf t ht => h.owner q ((hrequests q).mp hq).1 f hf t ((hprofiles t).mp ht)

theorem mem_updateProfileAvatar_iff
    {t u : ProfileText} {avatarId : String}
    (ht : t ∈ s.profiles) :
    u ∈ (s.updateProfileAvatar t.userId avatarId).profiles ↔
      u = { t with avatarId } ∨ (u ∈ s.profiles ∧ u.userId ≠ t.userId) :=
  Table.mem_modify_key_iff (by intro u; split <;> rfl) ht rfl

/-- A user without a profile has nothing to update. -/
theorem mem_updateProfileAvatar_of_none
    {userId avatarId : String} {u : ProfileText}
    (hnone : s.profiles.find? userId = none) :
    u ∈ (s.updateProfileAvatar userId avatarId).profiles ↔ u ∈ s.profiles := by
  rw [Table.find?_eq_none_iff] at hnone
  simp only [State.updateProfileAvatar, Table.mem_modify_iff]
  constructor
  · rintro ⟨t, ht, rfl⟩
    rw [if_neg (hnone t ht)]
    exact ht
  · intro hu
    exact ⟨u, hu, if_neg (hnone u hu)⟩

/-- An update of a profile, which names the new file or none from now on. -/
theorem Inv.replace
    (h : Inv s)
    {new : Option String} {t : ProfileText}
    (hr : r ∈ s.requests)
    (hphase : r.phase = .updating new)
    (ht : t ∈ s.profiles)
    (huser : t.userId = r.userId)
    (hforget : MayForget s t)
    (hfiles : s'.files = s.files)
    (hprofiles : ∀ u, u ∈ s'.profiles ↔
      u = { t with avatarId := new.getD "" } ∨ (u ∈ s.profiles ∧ u.userId ≠ t.userId))
    (hrequests : ∀ q, q ∈ s'.requests ↔ q ∈ s.requests ∧ q.id ≠ r.id) :
    Inv s' := by
  have hsame : ∀ q ∈ s.requests, q.id = r.id → q = r :=
    fun q hq hid => Table.eq_of_key_eq hq hr hid
  have hfile : r.phase.file? = new := by
    rw [hphase]
    rfl
  have hremoves : ∀ f, r.phase.removes f = false := by
    intro f
    rw [hphase]
    rfl
  have hrow : ({ t with avatarId := new.getD "" } : ProfileText) ∈ s'.profiles :=
    (hprofiles _).mpr (Or.inl rfl)
  -- nobody but this request knows of its new file
  have hunknown : ∀ u ∈ s.profiles, new.getD "" ≠ "" → u.avatarId ≠ new.getD "" := by
    intro u hu hne
    cases new with
    | none =>
        exact absurd rfl hne
    | some f =>
        exact h.unnamed r hr f hfile u hu
  refine ⟨?_, ?_, ?_, ?_, ?_, ?_, ?_, ?_, ?_, ?_⟩
  · intro u hu
    rcases (hprofiles u).mp hu with rfl | ⟨hu, hne⟩
    · left
      rw [Served, hfiles]
      cases new with
      | none =>
          exact Or.inl rfl
      | some f =>
          exact Or.inr (h.written r hr f hfile (by rw [hphase]; rfl))
    · rcases h.served u hu with hserved | ⟨q, hq, huser', hmay⟩
      · left
        rw [Served, hfiles]
        exact hserved
      · have hid : q.id ≠ r.id := by
          intro hid
          cases hsame q hq hid
          exact hne (huser'.symm.trans huser.symm)
        exact Or.inr ⟨q, (hrequests q).mpr ⟨hq, hid⟩, huser', hmay⟩
  · intro f hf
    rw [hfiles] at hf
    rcases h.kept f hf with ⟨u, hu, hne, rfl⟩ | ⟨q, hq, hheld | hremoves'⟩
    · by_cases hid : u.userId = t.userId
      · cases Table.eq_of_key_eq hu ht hid
        rcases hforget with hempty | hgone | ⟨q, hq, hremoves'⟩
        · exact absurd hempty hne
        · exact absurd hf hgone
        · have hid' : q.id ≠ r.id := by
            intro hid'
            cases hsame q hq hid'
            rw [hremoves] at hremoves'
            cases hremoves'
          exact Or.inr ⟨q, (hrequests q).mpr ⟨hq, hid'⟩, Or.inr hremoves'⟩
      · exact Or.inl ⟨u, (hprofiles u).mpr (Or.inr ⟨hu, hid⟩), hne, rfl⟩
    · by_cases hid : q.id = r.id
      · cases hsame q hq hid
        have hnew : new = some f := hfile.symm.trans hheld.1
        subst hnew
        refine Or.inl ⟨_, hrow, ?_, rfl⟩
        rintro rfl
        exact h.new_ne r hr hfile
      · exact Or.inr ⟨q, (hrequests q).mpr ⟨hq, hid⟩, Or.inl hheld⟩
    · have hid : q.id ≠ r.id := by
        intro hid
        cases hsame q hq hid
        rw [hremoves] at hremoves'
        cases hremoves'
      exact Or.inr ⟨q, (hrequests q).mpr ⟨hq, hid⟩, Or.inr hremoves'⟩
  · intro u hu u' hu' hne heq
    rcases (hprofiles u).mp hu with rfl | ⟨hu, hid⟩
    · rcases (hprofiles u').mp hu' with rfl | ⟨hu', hid'⟩
      · rfl
      · exact absurd heq.symm (hunknown u' hu' hne)
    · rcases (hprofiles u').mp hu' with rfl | ⟨hu', hid'⟩
      · exact absurd heq (hunknown u hu fun hempty => hne (heq.trans hempty))
      · exact h.apart u hu u' hu' hne heq
  · exact fun q hq => h.new_ne q ((hrequests q).mp hq).1
  · exact fun q hq => h.old_ne q ((hrequests q).mp hq).1
  · intro q hq f hf hop
    rw [hfiles]
    exact h.written q ((hrequests q).mp hq).1 f hf hop
  · intro q hq f hf u hu
    obtain ⟨hq, hid⟩ := (hrequests q).mp hq
    rcases (hprofiles u).mp hu with rfl | ⟨hu, -⟩
    · intro hname
      cases new with
      | none =>
          have hempty : "" = f := hname
          exact h.new_ne q hq (hempty ▸ hf)
      | some f' =>
          have hown : f' = f := hname
          subst hown
          exact hid (congrArg Request.id (h.distinct r hr f' hfile q hq hf))
    · exact h.unnamed q hq f hf u hu
  · exact fun q hq f hf q' hq' =>
      h.unremoved q ((hrequests q).mp hq).1 f hf q' ((hrequests q').mp hq').1
  · exact fun q hq f hf q' hq' =>
      h.distinct q ((hrequests q).mp hq).1 f hf q' ((hrequests q').mp hq').1
  · intro q hq f hremoves' u hu hname
    obtain ⟨hq, -⟩ := (hrequests q).mp hq
    rcases (hprofiles u).mp hu with rfl | ⟨hu, -⟩
    · cases new with
      | none =>
          have hempty : "" = f := hname
          rw [← hempty, h.old_ne q hq] at hremoves'
          cases hremoves'
      | some f' =>
          have hown : f' = f := hname
          subst hown
          rw [h.unremoved r hr f' hfile q hq] at hremoves'
          cases hremoves'
    · exact h.owner q hq f hremoves' u hu hname

/-- A user is removed whose profile names no file that nobody removes. -/
theorem Inv.removeUser
    (h : Inv s)
    {userId : String}
    (hforget : ∀ t ∈ s.profiles, t.userId = userId → MayForget s t) :
    Inv (s.removeUser userId true) := by
  have hsub : ∀ t, t ∈ (s.removeUser userId true).profiles ↔
      t ∈ s.profiles ∧ t.userId ≠ userId := by
    intro t
    simp [State.removeUser]
  have hleft : ∀ t ∈ (s.removeUser userId true).profiles, t ∈ s.profiles :=
    fun t ht => ((hsub t).mp ht).1
  refine ⟨fun t ht => h.served t (hleft t ht), ?_,
    fun t ht t' ht' => h.apart t (hleft t ht) t' (hleft t' ht'), h.new_ne, h.old_ne, h.written,
    fun q hq f hf t ht => h.unnamed q hq f hf t (hleft t ht), h.unremoved, h.distinct,
    fun q hq f hf t ht => h.owner q hq f hf t (hleft t ht)⟩
  intro f hf
  rcases h.kept f hf with ⟨t, ht, hne, rfl⟩ | hheld
  · by_cases huser : t.userId = userId
    · rcases hforget t ht huser with hempty | hgone | ⟨q, hq, hremoves⟩
      · exact absurd hempty hne
      · exact absurd hf hgone
      · exact Or.inr ⟨q, hq, Or.inr hremoves⟩
    · exact Or.inl ⟨t, (hsub t).mpr ⟨ht, huser⟩, hne, rfl⟩
  · exact Or.inr hheld

/-- A request begins, with an unused name for its file if it has one. -/
theorem Inv.begin
    (h : Inv s)
    {requests : Table Request.id}
    (hinsert : s.requests.insert? r = some requests)
    (hremoves : ∀ f, r.phase.removes f = false)
    (hnew : ∀ f, r.phase.file? = some f →
      f ≠ "" ∧ Unused s f ∧ r.phase.opened = false) :
    Inv { s with requests } := by
  have hmem : ∀ q, q ∈ requests ↔ q ∈ s.requests ∨ q = r :=
    fun q => Table.mem_insert?_iff hinsert
  refine ⟨?_, ?_, h.apart, ?_, ?_, ?_, ?_, ?_, ?_, ?_⟩
  · intro t ht
    rcases h.served t ht with hserved | ⟨q, hq, hrest⟩
    · exact Or.inl hserved
    · exact Or.inr ⟨q, (hmem q).mpr (Or.inl hq), hrest⟩
  · intro f hf
    rcases h.kept f hf with hnamed | ⟨q, hq, hrest⟩
    · exact Or.inl hnamed
    · exact Or.inr ⟨q, (hmem q).mpr (Or.inl hq), hrest⟩
  · intro q hq hempty
    rcases (hmem q).mp hq with hq | rfl
    · exact h.new_ne q hq hempty
    · exact (hnew "" hempty).1 rfl
  · intro q hq
    rcases (hmem q).mp hq with hq | rfl
    · exact h.old_ne q hq
    · exact hremoves ""
  · intro q hq f hf hop
    rcases (hmem q).mp hq with hq | rfl
    · exact h.written q hq f hf hop
    · rw [(hnew f hf).2.2] at hop
      cases hop
  · intro q hq f hf t ht
    rcases (hmem q).mp hq with hq | rfl
    · exact h.unnamed q hq f hf t ht
    · exact (hnew f hf).2.1.2.1 t ht
  · intro q hq f hf q' hq'
    rcases (hmem q').mp hq' with hq' | rfl
    · rcases (hmem q).mp hq with hq | rfl
      · exact h.unremoved q hq f hf q' hq'
      · exact ((hnew f hf).2.1.2.2 q' hq').2
    · exact hremoves f
  · intro q hq f hf q' hq' hf'
    rcases (hmem q).mp hq with hq | rfl
    · rcases (hmem q').mp hq' with hq' | rfl
      · exact h.distinct q hq f hf q' hq' hf'
      · exact absurd hf ((hnew f hf').2.1.2.2 q hq).1
    · rcases (hmem q').mp hq' with hq' | rfl
      · exact absurd hf' ((hnew f hf).2.1.2.2 q' hq').1
      · rfl
  · intro q hq f hremoves' t ht hname
    rcases (hmem q).mp hq with hq | rfl
    · exact h.owner q hq f hremoves' t ht hname
    · rw [hremoves f] at hremoves'
      cases hremoves'

/-- A file name that begins with `av_` is not empty. -/
theorem generateAvatarID_append_ne
    (b : Vector UInt8 6)
    (ext : String) :
    generateAvatarID b ++ ext ≠ "" := by
  intro h
  have hlist : ("av_".toList ++ DirectMessages.hexEncode b.toList) ++ ext.toList = [] :=
    (congrArg (· ++ ext.toList) String.toList_ofList).symm.trans
      (String.toList_append.symm.trans (congrArg String.toList h))
  exact List.cons_ne_nil _ _ hlist

theorem checkUpload_ne
    {attachmentCacheDir userId filename : String} {user : Option String} {mkdirFails : Bool}
    {form : Form} {b : Vector UInt8 6}
    (h : checkUpload attachmentCacheDir user mkdirFails form b = .ok (userId, filename)) :
    filename ≠ "" := by
  unfold checkUpload at h
  split at h
  case h_1 =>
    cases h
  case h_2 =>
    split at h
    · cases h
    · split at h
      · cases h
      · split at h
        case h_1 =>
          cases h
        case h_2 =>
          cases h
        case h_3 =>
          split at h
          · cases h
          · cases h
            exact generateAvatarID_append_ne b _

/-- The file of an upload is created, or the upload gives up. -/
theorem Inv.openFile
    (h : Inv s)
    (hr : r ∈ s.requests)
    {filename : String}
    (hphase : r.phase = .opening filename) :
    Inv ((s.openFile filename).setRequest r.id (.copying filename)) := by
  have hfile : ∀ f, r.phase.file? = some f → f = filename := by
    intro f hf
    rw [hphase] at hf
    exact (Option.some.inj hf).symm
  have hremoves : ∀ f, r.phase.removes f = false := by
    intro f
    rw [hphase]
    rfl
  refine h.advance hr ⟨rfl, fun q => mem_setRequest_iff hr, by rw [hphase]; rfl, rfl⟩
    ?_ ?_ ?_ nofun ?_ nofun
  · intro f hf hf'
    exact absurd (Finset.mem_insert_of_mem hf) hf'
  · intro f hf hf'
    rcases Finset.mem_insert.mp hf with rfl | hf
    · rfl
    · exact absurd hf hf'
  · intro f hf
    cases hf
    exact Finset.mem_insert_self _ _
  · intro f _ hf
    rw [hremoves f] at hf
    cases hf

/-- A request goes on without any change of a file. -/
theorem Inv.setRequest
    (h : Inv s)
    (hr : r ∈ s.requests)
    (hfile : phase.file? = r.phase.file?)
    (hopened : phase.opened = true)
    (hopened' : r.phase.opened = true)
    (hremoves : ∀ f, r.phase.removes f = false)
    (hleave : phase.mayUpdate = false → MayLeave s r)
    (hold : ∀ f, phase.removes f = true →
      f ≠ "" ∧ ∃ t ∈ s.profiles, t.userId = r.userId ∧ t.avatarId = f) :
    Inv (s.setRequest r.id phase) := by
  refine h.advance hr ⟨rfl, fun q => mem_setRequest_iff hr, hfile, hopened⟩
    ?_ ?_ ?_ (fun hmay => ⟨rfl, hleave hmay⟩) ?_ hold
  · exact fun f hf hf' => absurd hf hf'
  · exact fun f hf hf' => absurd hf hf'
  · exact fun f hf => h.written r hr f (hfile.symm.trans hf) hopened'
  · intro f _ hf
    rw [hremoves f] at hf
    cases hf

/-- The old avatar is the one that the profile names. -/
theorem Inv.readOld
    (h : Inv s)
    (hr : r ∈ s.requests)
    {new : Option String}
    (hphase : r.phase = .reading new)
    (hne : s.profileAvatarID r.userId ≠ "") :
    Inv (s.setRequest r.id (.removing new (s.profileAvatarID r.userId))) := by
  have hremoves : ∀ f, r.phase.removes f = false := by
    intro f
    rw [hphase]
    rfl
  refine h.setRequest hr (by rw [hphase]; rfl) rfl (by rw [hphase]; rfl) hremoves nofun ?_
  intro f hf
  have hname : s.profileAvatarID r.userId = f := of_decide_eq_true hf
  subst hname
  refine ⟨hne, ?_⟩
  cases hfind : s.profiles.find? r.userId with
  | none =>
      rw [State.profileAvatarID, hfind] at hne
      exact absurd rfl hne
  | some t =>
      obtain ⟨ht, huser⟩ := Table.find?_eq_some_iff.mp hfind
      refine ⟨t, ht, huser, ?_⟩
      rw [State.profileAvatarID, hfind]

/-- The old file is removed, or kept if it may be. -/
theorem Inv.removeOld
    (h : Inv s)
    (hr : r ∈ s.requests)
    {new : Option String} {old : String} {fails : Bool}
    (hphase : r.phase = .removing new old)
    (hkeep : fails = true → MayKeep s r) :
    Inv ((if fails then s else s.remove old).setRequest r.id (.updating new)) := by
  have hfile : r.phase.file? = new := by
    rw [hphase]
    rfl
  have hopened : r.phase.opened = true := by
    rw [hphase]
    rfl
  have hremoves : ∀ f, r.phase.removes f = true ↔ old = f := by
    intro f
    rw [hphase]
    exact decide_eq_true_iff
  cases fails with
  | true =>
      refine h.advance hr ⟨rfl, fun q => mem_setRequest_iff hr, hfile.symm, rfl⟩
        ?_ ?_ ?_ nofun ?_ nofun
      · exact fun f hf hf' => absurd hf hf'
      · exact fun f hf hf' => absurd hf hf'
      · exact fun f hf => h.written r hr f (hfile.trans hf) hopened
      · intro f hf hold
        have hmay := hkeep rfl
        rw [MayKeep, hphase] at hmay
        cases (hremoves f).mp hold
        exact hmay hf
  | false =>
      refine h.advance hr ⟨rfl, fun q => mem_setRequest_iff hr, hfile.symm, rfl⟩
        ?_ ?_ ?_ nofun ?_ nofun
      · intro f hf hf'
        rw [hremoves]
        by_contra hne
        exact hf' (Finset.mem_erase.mpr ⟨Ne.symm hne, hf⟩)
      · exact fun f hf hf' => absurd (Finset.mem_of_mem_erase hf) hf'
      · intro f hf
        refine Finset.mem_erase.mpr ⟨?_, h.written r hr f (hfile.trans hf) hopened⟩
        rintro rfl
        have hnot := h.unremoved r hr f (hfile.trans hf) r hr
        rw [(hremoves f).mpr rfl] at hnot
        cases hnot
      · intro f hf hold
        cases (hremoves f).mp hold
        exact absurd rfl (Finset.ne_of_mem_erase hf)

/-- A request ends that has opened no file. -/
theorem Inv.endRequest
    (h : Inv s)
    (hr : r ∈ s.requests)
    (answer : Answer)
    (hremoves : ∀ f, r.phase.removes f = false)
    (hfile : ∀ f, r.phase.file? = some f → r.phase.opened = false)
    (hleave : MayLeave s r) :
    Inv (s.endRequest r.id answer) :=
  h.finish hr (fun _ => Iff.rfl) (fun _ => mem_endRequest_iff) hremoves (fun _ hf => hf)
    (fun _ hf hf' => absurd hf hf') (fun f _ hf => hfile f hf) (fun _ => ⟨rfl, hleave⟩)

/-- The file of an unsuccessful upload is removed. -/
theorem Inv.discard
    (h : Inv s)
    (hr : r ∈ s.requests)
    (answer : Answer)
    {filename : String}
    (hphase : r.phase = .discarding filename) :
    Inv ((s.remove filename).endRequest r.id answer) := by
  have hfile : r.phase.file? = some filename := by
    rw [hphase]
    rfl
  refine h.finish hr (fun _ => Iff.rfl) (fun _ => mem_endRequest_iff) ?_ ?_ ?_ ?_ ?_
  · intro f
    rw [hphase]
    rfl
  · exact fun f hf => Finset.mem_of_mem_erase hf
  · intro f hf hf'
    rw [hfile]
    by_contra hne
    exact hf' (Finset.mem_erase.mpr ⟨fun heq => hne (congrArg some heq.symm), hf⟩)
  · intro f hf hown
    rw [hfile] at hown
    cases hown
    exact absurd rfl (Finset.ne_of_mem_erase hf)
  · intro hmay
    rw [hphase] at hmay
    cases hmay

/-- The profile is updated, and the request is answered. -/
theorem Inv.update
    (h : Inv s)
    (hr : r ∈ s.requests)
    (answer : Answer)
    {new : Option String}
    (hphase : r.phase = .updating new)
    (hreplace : MayReplace s r) :
    Inv ((s.updateProfileAvatar r.userId (new.getD "")).endRequest r.id answer) := by
  cases hfind : s.profiles.find? r.userId with
  | none =>
      have hnew : r.phase.file? = none := by
        rw [MayReplace, hfind] at hreplace
        exact hreplace
      refine h.finish hr (fun _ => mem_updateProfileAvatar_of_none hfind)
        (fun _ => mem_endRequest_iff) ?_ (fun _ hf => hf) (fun _ hf hf' => absurd hf hf') ?_ ?_
      · intro f
        rw [hphase]
        rfl
      · intro f _ hf
        rw [hnew] at hf
        cases hf
      · refine fun _ => ⟨rfl, fun t ht huser => ?_⟩
        exact absurd huser (Table.find?_eq_none_iff.mp hfind t ht)
  | some t =>
      obtain ⟨ht, huser⟩ := Table.find?_eq_some_iff.mp hfind
      have hforget : MayForget s t := by
        rw [MayReplace, hfind] at hreplace
        exact hreplace
      have huser' : t.userId = r.userId := huser
      refine h.replace hr hphase ht huser' hforget rfl (fun u => ?_)
        (fun _ => mem_endRequest_iff)
      rw [← huser']
      exact mem_updateProfileAvatar_iff ht

theorem Inv.step
    (h : Inv s)
    {attachmentCacheDir : String} {l : Label}
    (horderly : Orderly attachmentCacheDir s l)
    (hstep : step attachmentCacheDir s l = some s') :
    Inv s' := by
  cases l with
  | put id user mkdirFails form b =>
      simp only [Avatars.step] at hstep
      split at hstep
      case h_1 =>
        cases hstep
        exact { h with }
      case h_2 userId filename hcheck =>
        obtain ⟨requests, hinsert, rfl⟩ := Option.map_eq_some_iff.mp hstep
        simp only [Orderly, hcheck] at horderly
        refine h.begin hinsert (fun _ => rfl) fun f hf => ?_
        cases hf
        exact ⟨checkUpload_ne hcheck, horderly, rfl⟩
  | delete id user =>
      simp only [Avatars.step] at hstep
      split at hstep
      case h_1 =>
        cases hstep
        exact { h with }
      case h_2 userId =>
        split at hstep
        case isTrue =>
          cases hstep
          exact { h with }
        case isFalse =>
          obtain ⟨requests, hinsert, rfl⟩ := Option.map_eq_some_iff.mp hstep
          exact h.begin hinsert (fun _ => rfl) nofun
  | openFile id fails =>
      obtain ⟨r, hfind, hstep⟩ := Option.bind_eq_some_iff.mp hstep
      obtain ⟨hr, rfl⟩ := Table.find?_eq_some_iff.mp hfind
      simp only [stepRequest] at hstep
      split at hstep
      case h_1 filename hphase =>
        cases fails with
        | true =>
            cases hstep
            exact h.endRequest hr _ (by rw [hphase]; exact fun _ => rfl)
              (by rw [hphase]; exact fun _ _ => rfl) (horderly r hr rfl)
        | false =>
            cases hstep
            exact h.openFile hr hphase
      case h_2 =>
        cases hstep
  | copy id fails =>
      obtain ⟨r, hfind, hstep⟩ := Option.bind_eq_some_iff.mp hstep
      obtain ⟨hr, rfl⟩ := Table.find?_eq_some_iff.mp hfind
      simp only [stepRequest] at hstep
      split at hstep
      case h_1 filename hphase =>
        have hremoves : ∀ f, r.phase.removes f = false := by
          rw [hphase]
          exact fun _ => rfl
        cases fails with
        | true =>
            cases hstep
            exact h.setRequest hr (by rw [hphase]; rfl) rfl (by rw [hphase]; rfl) hremoves
              (fun _ => horderly r hr rfl) nofun
        | false =>
            cases hstep
            exact h.setRequest hr (by rw [hphase]; rfl) rfl (by rw [hphase]; rfl) hremoves
              nofun nofun
      case h_2 =>
        cases hstep
  | discard id fails =>
      obtain ⟨r, hfind, hstep⟩ := Option.bind_eq_some_iff.mp hstep
      obtain ⟨hr, rfl⟩ := Table.find?_eq_some_iff.mp hfind
      simp only [stepRequest] at hstep
      split at hstep
      case h_1 filename hphase =>
        cases hstep
        cases fails with
        | true =>
            exact absurd horderly id
        | false =>
            exact h.discard hr _ hphase
      case h_2 =>
        cases hstep
  | readOld id fails =>
      obtain ⟨r, hfind, hstep⟩ := Option.bind_eq_some_iff.mp hstep
      obtain ⟨hr, rfl⟩ := Table.find?_eq_some_iff.mp hfind
      simp only [stepRequest] at hstep
      split at hstep
      case h_1 new hphase =>
        split at hstep
        case isTrue =>
          cases hstep
          exact h.setRequest hr (by rw [hphase]; rfl) rfl (by rw [hphase]; rfl)
            (by rw [hphase]; exact fun _ => rfl) nofun nofun
        case isFalse hread =>
          cases hstep
          exact h.readOld hr hphase fun hempty => hread (Or.inr hempty)
      case h_2 =>
        cases hstep
  | removeOld id fails =>
      obtain ⟨r, hfind, hstep⟩ := Option.bind_eq_some_iff.mp hstep
      obtain ⟨hr, rfl⟩ := Table.find?_eq_some_iff.mp hfind
      simp only [stepRequest] at hstep
      split at hstep
      case h_1 new old hphase =>
        cases hstep
        refine h.removeOld hr hphase fun hfails => ?_
        subst hfails
        exact horderly r hr rfl
      case h_2 =>
        cases hstep
  | update id fails =>
      obtain ⟨r, hfind, hstep⟩ := Option.bind_eq_some_iff.mp hstep
      obtain ⟨hr, rfl⟩ := Table.find?_eq_some_iff.mp hfind
      simp only [stepRequest] at hstep
      split at hstep
      case h_1 filename hphase =>
        cases fails with
        | true =>
            cases hstep
            exact h.setRequest hr (by rw [hphase]; rfl) rfl (by rw [hphase]; rfl)
              (by rw [hphase]; exact fun _ => rfl) (fun _ => horderly r hr rfl) nofun
        | false =>
            cases hstep
            exact h.update hr _ hphase (horderly r hr rfl)
      case h_2 hphase =>
        cases fails with
        | true =>
            cases hstep
            exact h.endRequest hr _ (by rw [hphase]; exact fun _ => rfl)
              (by rw [hphase]; exact nofun) (horderly r hr rfl)
        | false =>
            cases hstep
            exact h.update hr _ hphase (horderly r hr rfl)
      case h_3 =>
        cases hstep
  | removeUser userId enforced =>
      cases hstep
      cases enforced with
      | true =>
          exact h.removeUser horderly
      | false =>
          exact { h with }

theorem Start.inv
    (h : Start s) :
    Inv s := by
  have hnone : ∀ q, q ∉ s.requests := by
    intro q hq
    rw [Table.mem_def, h.idle] at hq
    cases hq
  exact ⟨fun t ht => Or.inl (h.live.served t ht), fun f hf => Or.inl (h.live.named f hf),
    h.apart, fun q hq => absurd hq (hnone q), fun q hq => absurd hq (hnone q),
    fun q hq => absurd hq (hnone q), fun q hq => absurd hq (hnone q),
    fun q hq => absurd hq (hnone q), fun q hq => absurd hq (hnone q),
    fun q hq => absurd hq (hnone q)⟩

/-- When nothing is in flight, profiles and files belong together. -/
theorem Inv.live
    (h : Inv s)
    (hidle : s.requests.rows = []) :
    Live s := by
  have hnone : ∀ q, q ∉ s.requests := by
    intro q hq
    rw [Table.mem_def, hidle] at hq
    cases hq
  refine ⟨fun t ht => ?_, fun f hf => ?_⟩
  · rcases h.served t ht with hserved | ⟨q, hq, -⟩
    · exact hserved
    · exact absurd hq (hnone q)
  · rcases h.kept f hf with hnamed | ⟨q, hq, -⟩
    · exact hnamed
    · exact absurd hq (hnone q)

/--
In every run whose steps are orderly, profiles and files belong together whenever no
request is in flight.
-/
theorem live_in_quiescent
    {attachmentCacheDir : String} {ls : List Label}
    (hstart : Start s)
    (horderly : Along (step attachmentCacheDir) (Orderly attachmentCacheDir) s ls)
    (hrun : run (step attachmentCacheDir) s ls = some s')
    (hidle : s'.requests.rows = []) :
    Live s' :=
  (run_invariant_along (fun _ _ _ hs horderly hstep => Inv.step hs horderly hstep)
    hstart.inv horderly hrun).live hidle

end Preservation

section Examples

/-- A profile without anything but an avatar. -/
def profile (avatarId : String) : ProfileText where
  userId := "u_phil"
  displayName := ""
  bio := ""
  avatarId := avatarId
  lastSeen := 0

theorem nodup_profile
    (avatarId : String) :
    ([profile avatarId].map ProfileText.userId).Nodup :=
  List.nodup_singleton _

/-- One user, whose avatar is the only file. -/
def oneAvatar : State where
  files := {"av_000000000000.png"}
  profiles := ⟨[profile "av_000000000000.png"], nodup_profile _⟩
  requests := .empty
  answers := []

theorem start_oneAvatar :
    Start oneAvatar :=
  ⟨⟨by decide, by decide⟩, by decide, rfl⟩

/-- An avatar is uploaded; the label of the update is given. -/
def uploadRun (update : List Label) : List Label :=
  [.put 1 (some "u_phil") false (.file "image/jpeg") #v[1, 1, 1, 1, 1, 1],
    .openFile 1 false, .copy 1 false, .readOld 1 false, .removeOld 1 false] ++ update

/-- An upload, and then a deletion. -/
theorem live_upload_delete :
    ∃ s, run (step "/var/cache/ntfy") oneAvatar
        (uploadRun [.update 1 false, .delete 2 (some "u_phil"), .readOld 2 false,
          .removeOld 2 false, .update 2 false]) = some s ∧ Live s := by
  have horderly : Along (step "/var/cache/ntfy") (Orderly "/var/cache/ntfy") oneAvatar
      (uploadRun [.update 1 false, .delete 2 (some "u_phil"), .readOld 2 false,
        .removeOld 2 false, .update 2 false]) := by
    decide +kernel
  have hrun : ((run (step "/var/cache/ntfy") oneAvatar
      (uploadRun [.update 1 false, .delete 2 (some "u_phil"), .readOld 2 false,
        .removeOld 2 false, .update 2 false])).map
          fun s => s.requests.rows) = some [] := by
    decide +kernel
  obtain ⟨s, hs, hidle⟩ := Option.map_eq_some_iff.mp hrun
  exact ⟨s, hs, live_in_quiescent start_oneAvatar horderly hs hidle⟩

/-- Does the call of the label fail? -/
def Label.failing : Label → Bool
  | .put _ _ mkdirFails _ _ => mkdirFails
  | .openFile _ fails | .copy _ fails | .discard _ fails | .readOld _ fails
  | .removeOld _ fails | .update _ fails => fails
  | _ => false

/--
The update of an upload fails.  The new file is removed again, but the old one has been
removed before.
-/
theorem upload_not_live :
    ¬ ∀ (attachmentCacheDir : String) (s s' : State) (ls : List Label),
      Start s → ls.countP Label.failing ≤ 1 →
      run (step attachmentCacheDir) s ls = some s' → s'.requests.rows = [] → Live s' := by
  intro h
  have hrun : ((run (step "/var/cache/ntfy") oneAvatar
      (uploadRun [.update 1 true, .discard 1 false])).map
        fun s => (s.requests.rows, s.files, s.profiles.rows)) =
      some ([], ∅, [profile "av_000000000000.png"]) := by
    decide +kernel
  obtain ⟨s, hs, heq⟩ := Option.map_eq_some_iff.mp hrun
  simp only [Prod.mk.injEq] at heq
  obtain ⟨hidle, hfiles, hprofiles⟩ := heq
  have hlive := h _ _ s _ start_oneAvatar (by decide) hs hidle
  have hserved := hlive.served (profile "av_000000000000.png")
    (by rw [Table.mem_def, hprofiles]; exact List.mem_singleton.mpr rfl)
  rw [Served, hfiles] at hserved
  exact absurd hserved (by decide)

end Examples

end Avatars
end Server
end CoopMessenger
