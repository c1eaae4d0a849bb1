import CoopMessenger.Library.Registry
import CoopMessenger.Library.Runs
import CoopMessenger.Manager.Types

/-!
# Visitors

The visitor map of the server and everything that writes to it: authentication,
attachment downloads, Stripe callbacks, the delayed sender and the manager pass.
A visitor is a shared object: it is looked up by user for users with a tier and
by masked address for everybody else, and a lookup overwrites the user the
object carries.  Requests keep a reference and read the user later.

A request is active from the end of its authentication to its last read.  A
request whose credentials are refused runs no handler and is not active.

**Results.**
* `visitor_spec`: what a visitor lookup writes.
* `ownReads_step_iff`: one step keeps all active requests on their own user
  exactly when it overwrites no visitor an active request holds for another.
* `requests_see_own_user_iff`: the same along runs.
-/

namespace CoopMessenger
namespace Server

open Library Manager

namespace Visitors

/-- An IP address; the zero address is not valid. -/
inductive Addr where
  | invalid
  | v4 (bits : BitVec 32)
  | v6 (bits : BitVec 128)
deriving DecidableEq, Repr

/-- The prefix lengths by which addresses are grouped. -/
structure Config where
  visitorPrefixBitsIPv4 : Fin 33
  visitorPrefixBitsIPv6 : Fin 129

/-- The identifier of a visitor: the user's ID, or a masked address. -/
inductive VisitorID where
  | user (id : String)
  | ip (addr : Addr)
deriving DecidableEq, Repr

/-- Keep the first `n` bits. -/
def mask
    {w : Nat}
    (n : Nat)
    (bits : BitVec w) : BitVec w :=
  bits &&& (BitVec.allOnes w <<< (w - n))

/-- The identifier based on user or IP. -/
def visitorID
    (cfg : Config)
    (ip : Addr) :
    Option User → VisitorID
  | some ⟨id, _, _, some _, _, _⟩ => .user id
  | _ =>
      match ip with
      | .invalid => .ip .invalid
      | .v4 bits => .ip (.v4 (mask cfg.visitorPrefixBitsIPv4 bits))
      | .v6 bits => .ip (.v6 (mask cfg.visitorPrefixBitsIPv6 bits))

/-- Limiter values, and which of the limiters for logged-out visitors exist. -/
structure Limiters where
  messages : Int
  emails : Int
  calls : Int
  account : Bool
  auth : Bool
deriving DecidableEq, Repr

/-- A visitor object; `key` is the identifier it was created under. -/
structure Visitor where
  key : VisitorID
  ip : Addr
  user : Option User
  limiters : Limiters
  seen : Nat
deriving DecidableEq, Repr

/-- The limiters for a user. -/
def resetLimiters (u : Option User) : Limiters where
  messages := (u.map (fun u => u.stats.messages)).getD 0
  emails := (u.map (fun u => u.stats.emails)).getD 0
  calls := (u.map (fun u => u.stats.calls)).getD 0
  account := u.isNone
  auth := u.isNone

def newVisitor
    (cfg : Config)
    (now : Nat)
    (ip : Addr)
    (u : Option User) : Visitor where
  key := visitorID cfg ip u
  ip
  user := u
  limiters := resetLimiters u
  seen := now

/-- Sets the visitor's user; the limiters are reset when the tier changes. -/
def Visitor.setUser
    (u : Option User)
    (v : Visitor) : Visitor :=
  { v with
    user := u
    limiters :=
      if tierID v.user ≠ tierID u then resetLimiters u else v.limiters }

@[simp] theorem Visitor.setUser_key
    (u : Option User) (v : Visitor) :
    (v.setUser u).key = v.key := by
  rfl

@[simp] theorem Visitor.setUser_user
    (u : Option User) (v : Visitor) :
    (v.setUser u).user = u := by
  rfl

def Visitor.keepalive
    (now : Nat)
    (v : Visitor) : Visitor :=
  { v with seen := now }

/-- What a lookup does to a visitor that exists. -/
def Visitor.found
    (now : Nat)
    (u : Option User)
    (v : Visitor) : Visitor :=
  (v.keepalive now).setUser u

theorem Visitor.found_key
    (now : Nat) (u : Option User) (v : Visitor) :
    (v.found now u).key = v.key := by
  rfl

@[simp] theorem Visitor.found_user
    (now : Nat) (u : Option User) (v : Visitor) :
    (v.found now u).user = u := by
  rfl

/--
A request in flight: the visitor object it holds, the ID of the user it has
authenticated, and whether its authentication is over.
-/
structure Request where
  conn : Nat
  ip : Addr
  object : Nat
  identity : Option String
  active : Bool
deriving DecidableEq, Repr

structure State where
  now : Nat
  visitors : Registry Visitor.key
  requests : Table Request.conn

/-- `visitorExpungeAfter`, in seconds. -/
def visitorExpungeAfter : Nat := 24 * 3600

/-- Looks up the visitor, or creates it, and sets its user. -/
def visitor
    (cfg : Config)
    (s : State)
    (ip : Addr)
    (u : Option User) : Registry Visitor.key × Nat :=
  match s.visitors.lookup (visitorID cfg ip u) with
  | none =>
      (s.visitors.create (newVisitor cfg s.now ip u), s.visitors.heap.length)
  | some o =>
      (s.visitors.update o (Visitor.found s.now u) (Visitor.found_key s.now u),
        o)

/--
The steps of the system.  `anonymous` is the authentication of a request without
credentials; with credentials it takes two steps, `credentials` and either
`succeed` or `fail`.  `done` follows the last read of a request.
-/
inductive Label where
  | tick (seconds : Nat)
  | anonymous (conn : Nat) (ip : Addr)
  | credentials (conn : Nat) (ip : Addr)
  | succeed (conn : Nat) (u : User)
  | fail (conn : Nat)
  | done (conn : Nat)
  | download (conn : Nat) (sender : Addr) (owner : Option User)
  | stripe (conn : Nat) (u : User)
  | lookup (ip : Addr) (u : Option User)
  | prune (key : VisitorID)
deriving DecidableEq, Repr

/-- The address and the user whose visitor a download looks up. -/
def downloadVisitor
    (s : State)
    (r : Request)
    (sender : Addr) :
    Option User → Addr × Option User
  | some u => (((s.visitors.get r.object).map Visitor.ip).getD .invalid, some u)
  | none => (sender, none)

/-- One step; `none` if it is not enabled. -/
def step
    (cfg : Config)
    (s : State) : Label → Option State
  | .tick seconds => some { s with now := s.now + seconds }
  | .anonymous conn ip =>
      let (visitors, object) := visitor cfg s ip none
      (s.requests.insert? ⟨conn, ip, object, none, true⟩).map
        (fun requests => { s with visitors, requests })
  | .credentials conn ip =>
      let (visitors, object) := visitor cfg s ip none
      (s.requests.insert? ⟨conn, ip, object, none, false⟩).map
        (fun requests => { s with visitors, requests })
  | .succeed conn u =>
      match s.requests.find? conn with
      | some ⟨_, ip, _, _, false⟩ =>
          let (visitors, object) := visitor cfg s ip (some u)
          some
            { s with
              visitors
              requests :=
                s.requests.modify
                  (fun r => if r.conn = conn then
                    ⟨r.conn, ip, object, some u.id, true⟩ else r)
                  (by intro r; split <;> rfl) }
      | _ => none
  | .fail conn =>
      match s.requests.find? conn with
      | some ⟨_, _, _, _, false⟩ =>
          some
            { s with
              requests := s.requests.delete (fun r => decide (r.conn = conn)) }
      | _ => none
  | .done conn =>
      match s.requests.find? conn with
      | some ⟨_, _, _, _, true⟩ =>
          some
            { s with
              requests := s.requests.delete (fun r => decide (r.conn = conn)) }
      | _ => none
  | .download conn sender owner =>
      match s.requests.find? conn with
      | some r =>
          if r.active then
            let (ip, u) := downloadVisitor s r sender owner
            some { s with visitors := (visitor cfg s ip u).1 }
          else
            none
      | none => none
  | .stripe conn u =>
      match s.requests.find? conn with
      | some r =>
          if r.active then
            some
              { s with
                visitors :=
                  s.visitors.update r.object (Visitor.setUser (some u))
                    (Visitor.setUser_key (some u))
                -- the callback has the user at hand and reads it no more
                requests :=
                  s.requests.delete (fun r => decide (r.conn = conn)) }
          else
            none
      | none => none
  | .lookup ip u => some { s with visitors := (visitor cfg s ip u).1 }
  | .prune key =>
      match s.visitors.lookup key with
      | some o =>
          if (s.visitors.get o).any
              (fun v => decide (visitorExpungeAfter < s.now - v.seen)) then
            some { s with visitors := s.visitors.remove key }
          else
            none
      | none => none

section Steps

variable {cfg : Config}
variable {s s' : State}
variable {conn : Nat}

/-- A request whose credentials are right gets the visitor of its user. -/
theorem step_succeed_iff
    {u : User} :
    step cfg s (.succeed conn u) = some s' ↔
      ∃ r₀, s.requests.find? conn = some r₀ ∧ r₀.active = false ∧
        { s with
          visitors := (visitor cfg s r₀.ip (some u)).1
          requests :=
            s.requests.modify
              (fun r => if r.conn = conn then
                ⟨r.conn, r₀.ip, (visitor cfg s r₀.ip (some u)).2,
                  some u.id, true⟩ else r)
              (by intro r; split <;> rfl) } = s' := by
  simp only [step]
  cases hfind : s.requests.find? conn with
  | none =>
      simp
  | some r₀ =>
      obtain ⟨c, ip, o, i, active⟩ := r₀
      cases active with
      | true =>
          simp
      | false =>
          simp

theorem step_fail_eq
    (h : step cfg s (.fail conn) = some s') :
    s' = { s with
      requests := s.requests.delete (fun r => decide (r.conn = conn)) } := by
  simp only [step] at h
  split at h <;> cases h
  rfl

theorem step_done_eq
    (h : step cfg s (.done conn) = some s') :
    s' = { s with
      requests := s.requests.delete (fun r => decide (r.conn = conn)) } := by
  simp only [step] at h
  split at h <;> cases h
  rfl

/-- A download looks up the visitor that it is counted for. -/
theorem step_download_iff
    {sender : Addr} {owner : Option User} :
    step cfg s (.download conn sender owner) = some s' ↔
      ∃ r₀, s.requests.find? conn = some r₀ ∧ r₀.active = true ∧
        { s with
          visitors := (visitor cfg s (downloadVisitor s r₀ sender owner).1
            (downloadVisitor s r₀ sender owner).2).1 } = s' := by
  simp only [step]
  cases hfind : s.requests.find? conn with
  | none =>
      simp
  | some r₀ =>
      cases hactive : r₀.active with
      | false =>
          simp [hactive]
      | true =>
          simp [hactive]

/-- A callback of Stripe sets the user of the visitor, and ends. -/
theorem step_stripe_iff
    {u : User} :
    step cfg s (.stripe conn u) = some s' ↔
      ∃ r₀, s.requests.find? conn = some r₀ ∧ r₀.active = true ∧
        { s with
          visitors :=
            s.visitors.update r₀.object (Visitor.setUser (some u))
              (Visitor.setUser_key (some u))
          requests := s.requests.delete (fun r => decide (r.conn = conn)) } = s' := by
  simp only [step]
  cases hfind : s.requests.find? conn with
  | none =>
      simp
  | some r₀ =>
      cases hactive : r₀.active with
      | false =>
          simp [hactive]
      | true =>
          simp [hactive]

theorem step_prune_eq
    {key : VisitorID}
    (h : step cfg s (.prune key) = some s') :
    s' = { s with visitors := s.visitors.remove key } := by
  simp only [step] at h
  split at h
  · split at h <;> cases h
    rfl
  · cases h

end Steps

section Reads

/-- The ID of the user that a read of the visitor at the address returns. -/
def userAt
    (visitors : Registry Visitor.key)
    (o : Nat) : Option (Option String) :=
  (visitors.get o).map (fun v => v.user.map User.id)

/-- Whichever active request reads its user next sees its own. -/
def OwnReads (s : State) : Prop :=
  ∀ r ∈ s.requests, r.active = true →
    userAt s.visitors r.object = some r.identity

/-- No active request but `except` holds the object for a user other than `u`. -/
def FreeFor
    (s : State)
    (o : Nat)
    (u : Option User)
    (except : Option Nat) : Prop :=
  ∀ r ∈ s.requests, r.active = true → except ≠ some r.conn →
    r.object = o → r.identity = u.map User.id

/-- The visitor that exists for the address and the user is free for the user. -/
def LookupFree
    (cfg : Config)
    (s : State)
    (ip : Addr)
    (u : Option User) : Prop :=
  ∀ o, s.visitors.lookup (visitorID cfg ip u) = some o → FreeFor s o u none

/--
The step overwrites no visitor that an active request holds for another user:
neither the start of a request, the end of an authentication, a download, a
Stripe callback, nor a lookup by the delayed sender or for a sync event.
-/
def Exclusive
    (cfg : Config)
    (s : State) : Label → Prop
  | .anonymous conn ip | .credentials conn ip =>
      s.requests.find? conn = none → LookupFree cfg s ip none
  | .succeed conn u =>
      ∀ r, s.requests.find? conn = some r → r.active = false →
        LookupFree cfg s r.ip (some u)
  | .download conn sender owner =>
      ∀ r, s.requests.find? conn = some r → r.active = true →
        LookupFree cfg s (downloadVisitor s r sender owner).1
          (downloadVisitor s r sender owner).2
  | .stripe conn u =>
      ∀ r, s.requests.find? conn = some r → r.active = true →
        FreeFor s r.object (some u) (some conn)
  | .lookup ip u => LookupFree cfg s ip u
  | .tick _ | .fail _ | .done _ | .prune _ => True

variable {cfg : Config}
variable {s s' : State}

theorem userAt_lt
    {visitors : Registry Visitor.key} {o : Nat} {u : Option String}
    (h : userAt visitors o = some u) :
    o < visitors.heap.length := by
  obtain ⟨v, hv, -⟩ := Option.map_eq_some_iff.mp h
  exact (List.getElem?_eq_some_iff.mp hv).1

/-- A lookup returns an object that carries the user, and changes no other. -/
theorem visitor_spec
    (cfg : Config) (s : State) (ip : Addr) (u : Option User) :
    userAt (visitor cfg s ip u).1 (visitor cfg s ip u).2 =
      some (u.map User.id) ∧
    (∀ p, p ≠ (visitor cfg s ip u).2 →
      userAt (visitor cfg s ip u).1 p = userAt s.visitors p) ∧
    (s.visitors.lookup (visitorID cfg ip u) = some (visitor cfg s ip u).2 ∨
      (s.visitors.lookup (visitorID cfg ip u) = none ∧
        (visitor cfg s ip u).2 = s.visitors.heap.length)) := by
  unfold visitor
  cases hlookup : s.visitors.lookup (visitorID cfg ip u) with
  | none =>
      have hfree : s.visitors.lookup (newVisitor cfg s.now ip u).key = none :=
        hlookup
      refine ⟨?_, ?_, Or.inr ⟨rfl, rfl⟩⟩
      · simp only [userAt, Registry.get_create hfree]
        rfl
      · intro p hp
        simp only [userAt, Registry.get_create hfree, if_neg hp]
  | some o =>
      obtain ⟨v, hv, -⟩ := Registry.get_of_lookup hlookup
      refine ⟨?_, ?_, Or.inl rfl⟩
      · simp [userAt, hv]
      · intro p hp
        simp only [userAt, Registry.get_update, if_neg (Ne.symm hp)]

/-- Which requests still see their own user after a lookup. -/
theorem ownReads_visitor_iff
    (h : OwnReads s) (ip : Addr) (u : Option User) :
    (∀ r ∈ s.requests, r.active = true →
      userAt (visitor cfg s ip u).1 r.object = some r.identity)
      ↔
    LookupFree cfg s ip u := by
  obtain ⟨hown, hother, hobject⟩ := visitor_spec cfg s ip u
  constructor
  · intro hall o ho r hr hactive _ hro
    have ho' : (visitor cfg s ip u).2 = o := by
      rcases hobject with hsome | ⟨hnone, -⟩
      · exact Option.some.inj (hsome.symm.trans ho)
      · rw [hnone] at ho
        cases ho
    have hread := hall r hr hactive
    rw [hro, ← ho', hown] at hread
    exact (Option.some.inj hread).symm
  · intro hfree r hr hactive
    by_cases hro : r.object = (visitor cfg s ip u).2
    · rw [hro, hown]
      rcases hobject with hsome | ⟨-, hnew⟩
      · rw [hfree _ hsome r hr hactive (by simp) hro]
      · have hlt := userAt_lt (h r hr hactive)
        omega
    · rw [hother r.object hro]
      exact h r hr hactive

/-- Requests that go away leave the others on their own user. -/
theorem OwnReads.delete
    (h : OwnReads s) (p : Request → Bool) :
    OwnReads { s with requests := s.requests.delete p } := by
  intro r hr
  exact h r (Table.mem_delete_iff.mp hr).1

/-- The first lookup of a request, whether or not it is active right away. -/
theorem ownReads_start_iff
    (h : OwnReads s) (conn : Nat) (ip : Addr) (active : Bool) :
    (∀ s', ((s.requests.insert?
          ⟨conn, ip, (visitor cfg s ip none).2, none, active⟩).map
        (fun requests =>
          { s with visitors := (visitor cfg s ip none).1, requests })) =
        some s' → OwnReads s')
      ↔
    (s.requests.find? conn = none → LookupFree cfg s ip none) := by
  cases hins : s.requests.insert?
      ⟨conn, ip, (visitor cfg s ip none).2, none, active⟩ with
  | none =>
      obtain ⟨r, hr, hconn⟩ := Table.insert?_eq_none_iff.mp hins
      have htaken : s.requests.find? conn ≠ none := by
        intro hnone
        exact Table.find?_eq_none_iff.mp hnone r hr hconn
      simp [htaken]
  | some requests =>
      obtain ⟨hfree, hrows⟩ := Table.insert?_eq_some_iff.mp hins
      have hmem : ∀ r, r ∈ requests ↔ r ∈ s.requests ∨
          r = ⟨conn, ip, (visitor cfg s ip none).2, none, active⟩ := by
        intro r
        rw [Table.mem_def, hrows, List.mem_append, List.mem_singleton,
          Table.mem_def]
      have hconn : s.requests.find? conn = none := hfree
      simp only [Option.map_some, Option.some.injEq, forall_eq', hconn,
        true_imp_iff]
      rw [← ownReads_visitor_iff h]
      constructor
      · intro hall r hr hactive
        exact hall r ((hmem r).mpr (Or.inl hr)) hactive
      · intro hall r hr hactive
        rcases (hmem r).mp hr with hold | rfl
        · exact hall r hold hactive
        · exact (visitor_spec cfg s ip none).1

/-- The lookup at the end of a successful authentication. -/
theorem ownReads_succeed_iff
    (h : OwnReads s) {conn : Nat} {r₀ : Request} (u : User)
    (hfind : s.requests.find? conn = some r₀)
    (hinactive : r₀.active = false) :
    OwnReads
        { s with
          visitors := (visitor cfg s r₀.ip (some u)).1
          requests :=
            s.requests.modify
              (fun r => if r.conn = conn then
                ⟨r.conn, r₀.ip, (visitor cfg s r₀.ip (some u)).2,
                  some u.id, true⟩ else r)
              (by intro r; split <;> rfl) }
      ↔
    LookupFree cfg s r₀.ip (some u) := by
  obtain ⟨hmem₀, hconn₀⟩ := Table.find?_eq_some_iff.mp hfind
  rw [← ownReads_visitor_iff h]
  constructor
  · intro hall r hr hactive
    have hne : r.conn ≠ conn := by
      intro hconn
      have heq := Table.eq_of_key_eq hr hmem₀ (hconn.trans hconn₀.symm)
      rw [heq, hinactive] at hactive
      cases hactive
    refine hall r ?_ hactive
    rw [Table.mem_modify_iff]
    exact ⟨r, hr, if_neg hne⟩
  · intro hall r hr hactive
    rw [Table.mem_modify_iff] at hr
    obtain ⟨r₁, hr₁, rfl⟩ := hr
    by_cases hconn : r₁.conn = conn
    · simp only [if_pos hconn]
      exact (visitor_spec cfg s r₀.ip (some u)).1
    · simp only [if_neg hconn] at hactive ⊢
      exact hall r₁ hr₁ hactive

/-- A Stripe callback overwrites the user of the visitor its request holds. -/
theorem ownReads_stripe_iff
    (h : OwnReads s) {conn : Nat} {r₀ : Request} (u : User)
    (hfind : s.requests.find? conn = some r₀)
    (hactive₀ : r₀.active = true) :
    OwnReads
        { s with
          visitors :=
            s.visitors.update r₀.object (Visitor.setUser (some u))
              (Visitor.setUser_key (some u))
          requests := s.requests.delete (fun r => decide (r.conn = conn)) }
      ↔
    FreeFor s r₀.object (some u) (some conn) := by
  obtain ⟨hmem₀, -⟩ := Table.find?_eq_some_iff.mp hfind
  have hwritten : userAt (s.visitors.update r₀.object
      (Visitor.setUser (some u)) (Visitor.setUser_key (some u))) r₀.object =
        some (some u.id) := by
    obtain ⟨v, hv, -⟩ := Option.map_eq_some_iff.mp (h r₀ hmem₀ hactive₀)
    simp [userAt, hv]
  have hother : ∀ p, p ≠ r₀.object → userAt (s.visitors.update r₀.object
      (Visitor.setUser (some u)) (Visitor.setUser_key (some u))) p =
        userAt s.visitors p := by
    intro p hp
    simp only [userAt, Registry.get_update, if_neg (Ne.symm hp)]
  constructor
  · intro hall r hr hactive hne hro
    have hconn : decide (r.conn = conn) = false := by
      simpa using fun hc => hne (congrArg some hc.symm)
    have hread := hall r (Table.mem_delete_iff.mpr ⟨hr, hconn⟩) hactive
    dsimp only at hread
    rw [hro, hwritten] at hread
    exact (Option.some.inj hread).symm
  · intro hfree r hr hactive
    obtain ⟨hmem, hconn⟩ := Table.mem_delete_iff.mp hr
    by_cases hro : r.object = r₀.object
    · have hne : some conn ≠ some r.conn := by
        intro heq
        simp [Option.some.inj heq] at hconn
      have hid := hfree r hmem hactive hne hro
      dsimp only
      rw [hro, hwritten, hid]
      rfl
    · dsimp only
      rw [hother r.object hro]
      exact h r hmem hactive

/--
One step keeps every active request on its own user exactly when it overwrites
no visitor that an active request holds for another user.
-/
theorem ownReads_step_iff
    {l : Label}
    (h : OwnReads s) :
    (∀ s', step cfg s l = some s' → OwnReads s') ↔ Exclusive cfg s l := by
  cases l with
  | tick seconds =>
      refine iff_of_true ?_ trivial
      intro s' hstep
      cases hstep
      exact h
  | anonymous conn ip =>
      exact ownReads_start_iff h conn ip true
  | credentials conn ip =>
      exact ownReads_start_iff h conn ip false
  | succeed conn u =>
      simp only [step_succeed_iff, Exclusive, forall_exists_index, and_imp]
      constructor
      · intro hall r₀ hfind hinactive
        exact (ownReads_succeed_iff h u hfind hinactive).mp
          (hall _ r₀ hfind hinactive rfl)
      · rintro hfree _ r₀ hfind hinactive rfl
        exact (ownReads_succeed_iff h u hfind hinactive).mpr (hfree r₀ hfind hinactive)
  | fail conn =>
      refine iff_of_true (fun s' hstep => ?_) trivial
      rw [step_fail_eq hstep]
      exact h.delete _
  | done conn =>
      refine iff_of_true (fun s' hstep => ?_) trivial
      rw [step_done_eq hstep]
      exact h.delete _
  | download conn sender owner =>
      simp only [step_download_iff, Exclusive, forall_exists_index, and_imp]
      constructor
      · intro hall r₀ hfind hactive
        exact (ownReads_visitor_iff h _ _).mp (hall _ r₀ hfind hactive rfl)
      · rintro hfree _ r₀ hfind hactive rfl
        exact (ownReads_visitor_iff h _ _).mpr (hfree r₀ hfind hactive)
  | stripe conn u =>
      simp only [step_stripe_iff, Exclusive, forall_exists_index, and_imp]
      constructor
      · intro hall r₀ hfind hactive
        exact (ownReads_stripe_iff h u hfind hactive).mp (hall _ r₀ hfind hactive rfl)
      · rintro hfree _ r₀ hfind hactive rfl
        exact (ownReads_stripe_iff h u hfind hactive).mpr (hfree r₀ hfind hactive)
  | lookup ip u =>
      simp only [step, Exclusive, Option.some.injEq, forall_eq']
      exact ownReads_visitor_iff h ip u
  | prune key =>
      refine iff_of_true (fun s' hstep => ?_) trivial
      rw [step_prune_eq hstep]
      exact h

/-- The server as it starts. -/
def initial (now : Nat) : State where
  now
  visitors := .empty
  requests := .empty

/--
In every state a run reaches, every active request that reads its user sees the
user it has authenticated, or none if it sent no credentials, exactly when no
step of the run overwrites a visitor that an active request holds for another
user.
-/
theorem requests_see_own_user_iff
    (cfg : Config) (now : Nat) (ls : List Label) :
    Along (step cfg) (fun s l => ∀ s', step cfg s l = some s' → OwnReads s')
      (initial now) ls
      ↔
    Along (step cfg) (Exclusive cfg) (initial now) ls := by
  have hiff : ∀ s l, OwnReads s →
      ((∀ s', step cfg s l = some s' → OwnReads s') ↔ Exclusive cfg s l) :=
    fun s l hs => ownReads_step_iff hs
  have hstart : OwnReads (initial now) := by
    intro r hr
    exact absurd hr (Table.not_mem_empty r)
  exact Along.congr_of_invariant hiff
    (fun s l s' _ hreads hstep => hreads s' hstep) hstart

/-- An administrator without a tier. -/
def exampleAdmin : User :=
  ⟨"u_admin", "root", .admin, none, ⟨0, 0, 0⟩, false⟩

/-- IPv4 visitors are told apart by address, IPv6 visitors by `/64`. -/
def exampleConfig : Config :=
  ⟨32, 64⟩

/-- The address that both clients of the example share. -/
def exampleAddr : Addr :=
  .v4 0xC0A80001#32

/--
An anonymous request is answered while an administrator logs in from the same
address: reading its user, it sees the administrator.
-/
theorem anonymous_sees_admin :
    ∃ s r, run (step exampleConfig) (initial 0)
        [.anonymous 1 exampleAddr, .credentials 2 exampleAddr,
          .succeed 2 exampleAdmin] = some s ∧
      r ∈ s.requests ∧ r.conn = 1 ∧ r.identity = none ∧
      userAt s.visitors r.object = some (some "u_admin") := by
  refine ⟨_, ⟨1, exampleAddr, 0, none, true⟩, rfl, ?_, rfl, rfl, by decide⟩
  rw [Table.mem_def]
  decide

end Reads

end Visitors

end Server
end CoopMessenger
