import CoopMessenger.Library.Limits
import CoopMessenger.Manager.Provisioning

/-!
# Creating tokens

`CreateToken` inserts a token and, from `tokenMaxCount` tokens on, prunes those of the
user beyond the first ones by descending expiry.  A token that never expires has the
expiry 0 and so comes last, whether a token is provisioned plays no role, and a new
token that expires soon may itself be beyond the limit.  Tokens with one expiry come
in any order.

**Results.**
* `createTokenTx_stable`: with ties in the order of the table this is the transaction
  of the provisioning.
* `mem_createTokenTx_iff`: which tokens are left.
* `createToken_delivers_iff`: for which tables and new tokens `CreateToken` keeps the
  new one and prunes those that expire soonest.
-/

namespace CoopMessenger
namespace Manager

open Library Provisioning

namespace TokenCreation

section Model

def randomStringLowerCaseCharset : List Char :=
  "abcdefghijklmnopqrstuvwxyz0123456789".toList

def tokenLength : Nat := 32

/-- `GenerateToken` -/
def generateToken (draws : Nat → Nat) : String :=
  "tk_" ++ String.ofList ((List.range (tokenLength - 3)).map fun i =>
    randomStringLowerCaseCharset.getD (draws i % randomStringLowerCaseCharset.length) 'a')

/-- `AuthenticateToken`, up to the ID of the user whose token it is. -/
def authenticateToken
    (users : List String)
    (T : Table TokenRow.token)
    (now : Int)
    (token : String) : Option String :=
  if token.utf8ByteSize ≠ tokenLength then
    none
  else
    match T.find? token with
    | some r =>
        if (r.expires = 0 ∨ now ≤ r.expires) ∧ r.userId ∈ users then
          some r.userId
        else
          none
    | none => none

/-- The tokens of a user. -/
def tokensOf
    (T : Table TokenRow.token)
    (userID : String) : List TokenRow :=
  T.rows.filter (fun r => decide (r.userId = userID))

/-- `deleteExcessTokensQuery`, in some order of equal expiries. -/
def deleteExcessTokens
    (o : DescOrder TokenRow.expires)
    (T : Table TokenRow.token)
    (userID : String) : Table TokenRow.token :=
  let kept := ((o.sort (tokensOf T userID)).take tokenMaxCount).map TokenRow.token
  T.delete (fun r => decide (r.userId = userID) && !decide (r.token ∈ kept))

/-- `createTokenTx` -/
def createTokenTx
    (o : DescOrder TokenRow.expires)
    (T : Table TokenRow.token)
    (t : TokenRow) : Except Error (Table TokenRow.token) := do
  let T ← upsertToken T t
  if T.rows.countP (fun r => decide (r.userId = t.userId)) ≥ tokenMaxCount then
    return deleteExcessTokens o T t.userId
  else
    return T

/-- `CreateToken`, with the token that it returns. -/
def createToken
    (o : DescOrder TokenRow.expires)
    (T : Table TokenRow.token)
    (draws : Nat → Nat)
    (userID label : String)
    (now expires : Int)
    (origin : String)
    (provisioned : Bool) : Except Error (Table TokenRow.token × TokenRow) :=
  let t : TokenRow :=
    ⟨userID, generateToken draws, label, now, origin, expires, provisioned⟩
  (createTokenTx o T t).map fun T' => (T', t)

theorem createTokenTx_stable
    (T : Table TokenRow.token)
    (t : TokenRow) :
    createTokenTx (.stable TokenRow.expires) T t = Provisioning.createTokenTx T t := by
  rfl

/-- A token that never expires, or a provisioned one. -/
def isProtected (r : TokenRow) : Bool :=
  decide (r.expires = 0) || r.provisioned

/-- The first token does not outlast the second. -/
def ExpiresNoLater (e k : TokenRow) : Prop :=
  isProtected k = true ∨ (isProtected e = false ∧ e.expires ≤ k.expires)

/--
The new token is stored and accepted until it expires, the user has few tokens, and no
token was pruned that outlasts one that was kept.
-/
structure Delivered
    (users : List String)
    (T T' : Table TokenRow.token)
    (t : TokenRow) : Prop where
  stored : ∃ r ∈ T', r.userId = t.userId ∧ r.token = t.token ∧ r.label = t.label ∧
    r.expires = t.expires ∧ r.provisioned = t.provisioned
  accepted : ∀ now, t.expires = 0 ∨ now ≤ t.expires →
    authenticateToken users T' now t.token = some t.userId
  few : (tokensOf T' t.userId).length ≤ tokenMaxCount
  pruned : ∀ e ∈ T, e.userId = t.userId → (∀ r ∈ T', r.token ≠ e.token) →
    ∀ k ∈ T', k.userId = t.userId → k.token ≠ t.token → ExpiresNoLater e k

/-- The tokens of the user but the new one. -/
def others
    (T : Table TokenRow.token)
    (t : TokenRow) : List TokenRow :=
  (tokensOf T t.userId).filter (fun r => decide (r.token ≠ t.token))

/--
By the numbers that stand for the expiries, less than the limit of other tokens are not
before the new one, and no protected token may be beyond the limit while another one
that expires may be within it.
-/
structure Roomy
    (T : Table TokenRow.token)
    (t : TokenRow) : Prop where
  new : ahead TokenRow.expires (others T t ++ [t]) t < tokenMaxCount
  old : ∀ e ∈ others T t, ∀ k ∈ others T t, e ≠ k →
    above TokenRow.expires (others T t ++ [t]) k < tokenMaxCount →
      tokenMaxCount ≤ ahead TokenRow.expires (others T t ++ [t]) e →
        e.expires ≤ k.expires → isProtected e = true → isProtected k = true

end Model

section Writing

variable {T T₁ : Table TokenRow.token} {t : TokenRow}

/-- The row of the new token, and the rows of all others. -/
structure Writes
    (T : Table TokenRow.token)
    (t w : TokenRow)
    (T₁ : Table TokenRow.token) : Prop where
  userId : w.userId = t.userId
  token : w.token = t.token
  label : w.label = t.label
  expires : w.expires = t.expires
  provisioned : w.provisioned = t.provisioned
  mem_iff : ∀ q, q ∈ T₁ ↔ q = w ∨ (q ∈ T ∧ q.token ≠ t.token)

/-- Unless another user has it, the token is written. -/
theorem exists_writes
    (hfree : ∀ r ∈ T, r.token = t.token → r.userId = t.userId) :
    ∃ T₁ w, upsertToken T t = .ok T₁ ∧ Writes T t w T₁ := by
  unfold upsertToken
  cases hfind : T.find? t.token with
  | none =>
      have hrows : (T.upsert t id fun _ => rfl).rows = T.rows ++ [t] :=
        Table.rows_upsert_of_free (fun _ => rfl) hfind
      refine ⟨_, t, rfl, rfl, rfl, rfl, rfl, rfl, fun q => ?_⟩
      rw [Table.mem_def, hrows, List.mem_append, List.mem_singleton, or_comm]
      refine or_congr_right (iff_self_and.mpr fun hq => ?_)
      exact Table.find?_eq_none_iff.mp hfind q hq
  | some old =>
      obtain ⟨hold, htoken⟩ := Table.find?_eq_some_iff.mp hfind
      have huser := hfree old hold htoken
      dsimp only
      rw [if_pos huser]
      let w : TokenRow :=
        { old with
          label := t.label
          expires := t.expires
          provisioned := t.provisioned }
      exact ⟨_, w, rfl, huser, htoken, rfl, rfl, rfl,
        fun q => Table.mem_modify_key_iff _ hold htoken⟩

theorem nodup_tokensOf
    (T : Table TokenRow.token)
    (userID : String) :
    (tokensOf T userID).Nodup :=
  T.nodup.of_map.filter _

theorem mem_tokensOf
    {userID : String} {r : TokenRow} :
    r ∈ tokensOf T userID ↔ r ∈ T ∧ r.userId = userID := by
  simp [tokensOf, Table.mem_def]

theorem mem_others
    {r : TokenRow} :
    r ∈ others T t ↔ r ∈ T ∧ r.userId = t.userId ∧ r.token ≠ t.token := by
  simp [others, mem_tokensOf, and_assoc]

variable {w : TokenRow}

/-- The tokens of the user after the write. -/
theorem Writes.perm
    (h : Writes T t w T₁) :
    (tokensOf T₁ t.userId).Perm (others T t ++ [w]) := by
  have hnodup : (others T t ++ [w]).Nodup := by
    refine List.Nodup.append ((nodup_tokensOf T _).filter _) (List.nodup_singleton w) ?_
    intro r hr hw
    rw [List.mem_singleton.mp hw] at hr
    exact (mem_others.mp hr).2.2 h.token
  refine (List.perm_ext_iff_of_nodup (nodup_tokensOf T₁ _) hnodup).mpr fun r => ?_
  rw [mem_tokensOf, h.mem_iff, List.mem_append, List.mem_singleton, mem_others]
  constructor
  · rintro ⟨rfl | ⟨hr, hne⟩, huser⟩
    · exact Or.inr rfl
    · exact Or.inl ⟨hr, huser, hne⟩
  · rintro (⟨hr, huser, hne⟩ | rfl)
    · exact ⟨Or.inr ⟨hr, hne⟩, huser⟩
    · exact ⟨Or.inl rfl, h.userId⟩

theorem Writes.above_eq
    (h : Writes T t w T₁)
    (k : TokenRow) :
    above TokenRow.expires (tokensOf T₁ t.userId) k =
      above TokenRow.expires (others T t ++ [t]) k := by
  rw [above, h.perm.countP_eq, above, List.countP_append, List.countP_append]
  simp [List.countP_cons, h.expires]

theorem Writes.ahead_eq
    (h : Writes T t w T₁)
    {e : TokenRow}
    (he : e ∈ others T t) :
    ahead TokenRow.expires (tokensOf T₁ t.userId) e =
      ahead TokenRow.expires (others T t ++ [t]) e := by
  have htoken := (mem_others.mp he).2.2
  have hw : w ≠ e := by
    rintro rfl
    exact htoken h.token
  have ht : t ≠ e := by
    rintro rfl
    exact htoken rfl
  rw [ahead, h.perm.countP_eq, ahead, List.countP_append, List.countP_append]
  simp [List.countP_cons, h.expires, hw, ht]

theorem Writes.ahead_new
    (h : Writes T t w T₁) :
    ahead TokenRow.expires (tokensOf T₁ t.userId) w =
      ahead TokenRow.expires (others T t ++ [t]) t := by
  have hne : ∀ r ∈ others T t, r ≠ w ∧ r ≠ t := by
    intro r hr
    have htoken := (mem_others.mp hr).2.2
    exact ⟨fun heq => htoken (heq ▸ h.token), fun heq => htoken (heq ▸ rfl)⟩
  rw [ahead, h.perm.countP_eq, ahead, List.countP_append, List.countP_append]
  congr 1
  · refine List.countP_congr fun r hr => ?_
    simp [(hne r hr).1, (hne r hr).2, h.expires]
  · simp

end Writing

section Pruning

variable {T T₁ : Table TokenRow.token} {t w : TokenRow}

/-- Which tokens are left: those of the user that are within the limit. -/
theorem mem_createTokenTx_iff
    (o : DescOrder TokenRow.expires)
    (hupsert : upsertToken T t = .ok T₁) :
    ∃ T', createTokenTx o T t = .ok T' ∧ ∀ r, r ∈ T' ↔
      r ∈ T₁ ∧ (r.userId = t.userId →
        r ∈ (o.sort (tokensOf T₁ t.userId)).take tokenMaxCount) := by
  have hcreate : createTokenTx o T t =
      if T₁.rows.countP (fun r => decide (r.userId = t.userId)) ≥ tokenMaxCount then
        .ok (deleteExcessTokens o T₁ t.userId)
      else
        .ok T₁ := by
    rw [createTokenTx, hupsert]
    rfl
  have hcount : T₁.rows.countP (fun r => decide (r.userId = t.userId)) =
      (o.sort (tokensOf T₁ t.userId)).length := by
    rw [(o.perm _).length_eq, tokensOf, List.countP_eq_length_filter]
  have hmem : ∀ r ∈ T₁, r.userId = t.userId → r ∈ o.sort (tokensOf T₁ t.userId) :=
    fun r hr huser => (o.perm _).mem_iff.mpr (mem_tokensOf.mpr ⟨hr, huser⟩)
  rw [hcreate]
  split
  · refine ⟨_, rfl, fun r => ?_⟩
    rw [deleteExcessTokens, Table.mem_delete_iff]
    refine and_congr_right fun hr => ?_
    simp only [Bool.and_eq_false_imp, decide_eq_true_eq, Bool.not_eq_false',
      List.mem_map]
    refine imp_congr_right fun huser => ⟨?_, fun htake => ⟨r, htake, rfl⟩⟩
    rintro ⟨q, hq, htoken⟩
    have hqT : q ∈ T₁ :=
      (mem_tokensOf.mp ((o.perm _).mem_iff.mp (List.mem_of_mem_take hq))).1
    rwa [← Table.eq_of_key_eq hqT hr htoken]
  · next hfew =>
      refine ⟨_, rfl, fun r => ⟨fun hr => ⟨hr, fun huser => ?_⟩, And.left⟩⟩
      rw [List.take_of_length_le (by omega)]
      exact hmem r hr huser

theorem mem_take_or_mem_drop
    (o : DescOrder TokenRow.expires)
    {r : TokenRow}
    (hr : r ∈ T₁)
    (huser : r.userId = t.userId) :
    r ∈ (o.sort (tokensOf T₁ t.userId)).take tokenMaxCount ∨
      r ∈ (o.sort (tokensOf T₁ t.userId)).drop tokenMaxCount := by
  rw [← List.mem_append, List.take_append_drop]
  exact (o.perm _).mem_iff.mpr (mem_tokensOf.mpr ⟨hr, huser⟩)

theorem not_mem_take_of_mem_drop
    (o : DescOrder TokenRow.expires)
    {r : TokenRow}
    (hdrop : r ∈ (o.sort (tokensOf T₁ t.userId)).drop tokenMaxCount) :
    r ∉ (o.sort (tokensOf T₁ t.userId)).take tokenMaxCount := by
  have hnodup := (o.perm _).nodup_iff.mpr (nodup_tokensOf T₁ t.userId)
  rw [← List.take_append_drop tokenMaxCount (o.sort (tokensOf T₁ t.userId))] at hnodup
  exact fun htake => List.disjoint_of_nodup_append hnodup htake hdrop

end Pruning

section Tokens

theorem utf8ByteSize_ofList
    {s : List Char}
    (hs : ∀ c ∈ s, c.utf8Size = 1) :
    (String.ofList s).utf8ByteSize = s.length := by
  induction s with
  | nil =>
      rfl
  | cons c s ih =>
      rw [String.ofList_cons, String.utf8ByteSize_append, String.utf8ByteSize_singleton,
        hs c List.mem_cons_self, ih fun d hd => hs d (List.mem_cons_of_mem _ hd),
        List.length_cons, Nat.add_comm]

/-- A drawn token has the length that is checked. -/
theorem utf8ByteSize_generateToken
    (draws : Nat → Nat) :
    (generateToken draws).utf8ByteSize = tokenLength := by
  have hall : (randomStringLowerCaseCharset.all fun c => decide (c.utf8Size = 1)) = true := by
    decide
  have hsize : ∀ c ∈ randomStringLowerCaseCharset, c.utf8Size = 1 :=
    fun c hc => of_decide_eq_true (List.all_eq_true.mp hall c hc)
  have hdrawn : ∀ n, (randomStringLowerCaseCharset.getD
      (n % randomStringLowerCaseCharset.length) 'a').utf8Size = 1 := by
    intro n
    have hlt : n % randomStringLowerCaseCharset.length <
        randomStringLowerCaseCharset.length := Nat.mod_lt _ (by decide)
    rw [List.getD_eq_getElem?_getD, List.getElem?_eq_getElem hlt, Option.getD_some]
    exact hsize _ (List.getElem_mem hlt)
  have hrest := utf8ByteSize_ofList (s := (List.range (tokenLength - 3)).map fun i =>
    randomStringLowerCaseCharset.getD (draws i % randomStringLowerCaseCharset.length) 'a')
    (by
      intro c hc
      obtain ⟨i, -, rfl⟩ := List.mem_map.mp hc
      exact hdrawn _)
  rw [generateToken, String.utf8ByteSize_append, hrest, List.length_map,
    List.length_range]
  rfl

end Tokens

section Delivery

variable {T T₁ T' : Table TokenRow.token} {t w : TokenRow} {users : List String}

/-- What `Roomy` gives for one order of equal expiries. -/
theorem Roomy.delivered
    (hroomy : Roomy T t)
    (hw : Writes T t w T₁)
    (hlength : t.token.utf8ByteSize = tokenLength)
    (huser : t.userId ∈ users)
    (o : DescOrder TokenRow.expires)
    (hmem : ∀ r, r ∈ T' ↔ r ∈ T₁ ∧ (r.userId = t.userId →
      r ∈ (o.sort (tokensOf T₁ t.userId)).take tokenMaxCount)) :
    Delivered users T T' t := by
  have hwT : w ∈ T₁ := (hw.mem_iff w).mpr (Or.inl rfl)
  have hnodup := nodup_tokensOf T₁ t.userId
  have hwT' : w ∈ T' := by
    refine (hmem w).mpr ⟨hwT, fun _ => ?_⟩
    refine (mem_take_or_mem_drop o hwT hw.userId).resolve_right fun hdrop => ?_
    have hahead := le_ahead_of_mem_drop o hnodup hdrop
    rw [hw.ahead_new] at hahead
    exact absurd hroomy.new (Nat.not_lt.mpr hahead)
  constructor
  · exact ⟨w, hwT', hw.userId, hw.token, hw.label, hw.expires, hw.provisioned⟩
  · intro now hnow
    have hfind : T'.find? t.token = some w := Table.find?_eq_some_iff.mpr ⟨hwT', hw.token⟩
    rw [authenticateToken, if_neg (by simp [hlength]), hfind]
    simp [hw.expires, hw.userId, hnow, huser]
  · have hsub : tokensOf T' t.userId ⊆
        (o.sort (tokensOf T₁ t.userId)).take tokenMaxCount := by
      intro r hr
      obtain ⟨hrT, hru⟩ := mem_tokensOf.mp hr
      exact ((hmem r).mp hrT).2 hru
    exact ((List.subperm_of_subset (nodup_tokensOf T' _) hsub).length_le).trans
      (List.length_take_le _ _)
  · intro e he heuser hgone k hk hkuser hknew
    have henew : e.token ≠ t.token := fun heq => hgone w hwT' (hw.token.trans heq.symm)
    have heT : e ∈ T₁ := (hw.mem_iff e).mpr (Or.inr ⟨he, henew⟩)
    have hedrop := (mem_take_or_mem_drop o heT heuser).resolve_left fun htake =>
      hgone e ((hmem e).mpr ⟨heT, fun _ => htake⟩) rfl
    obtain ⟨hkT, hktake⟩ := (hmem k).mp hk
    have hkT₀ := ((hw.mem_iff k).mp hkT).resolve_left fun heq => hknew (heq ▸ hw.token)
    have hekey : e.expires ≤ k.expires := key_le_of_mem_drop o hedrop (hktake hkuser)
    by_cases hprotected : isProtected e = true
    · have heothers : e ∈ others T t := mem_others.mpr ⟨he, heuser, henew⟩
      have hahead := le_ahead_of_mem_drop o hnodup hedrop
      have habove := above_lt_of_mem_take o (hktake hkuser)
      rw [hw.ahead_eq heothers] at hahead
      rw [hw.above_eq] at habove
      refine Or.inl (hroomy.old e heothers k (mem_others.mpr ⟨hkT₀.1, hkuser, hknew⟩) ?_
        habove hahead hekey hprotected)
      rintro rfl
      exact hgone e hk rfl
    · exact Or.inr ⟨by simpa using hprotected, hekey⟩

/-- Without `Roomy` some order of equal expiries prunes a token that should be kept. -/
theorem roomy_of_delivered
    (users : List String)
    (hupsert : upsertToken T t = .ok T₁)
    (hw : Writes T t w T₁)
    (h : ∀ (o : DescOrder TokenRow.expires) (T' : Table TokenRow.token),
      createTokenTx o T t = .ok T' → Delivered users T T' t) :
    Roomy T t := by
  have hnodup := nodup_tokensOf T₁ t.userId
  have hwT : w ∈ T₁ := (hw.mem_iff w).mpr (Or.inl rfl)
  constructor
  · by_contra hfull
    rw [← hw.ahead_new, Nat.not_lt] at hfull
    obtain ⟨o, hdrop⟩ := exists_order_drop (mem_tokensOf.mpr ⟨hwT, hw.userId⟩) hfull
    obtain ⟨T', hT', hmem⟩ := mem_createTokenTx_iff o hupsert
    obtain ⟨r, hr, hru, hrtoken, -⟩ := (h o T' hT').stored
    have hrw : r = w :=
      Table.eq_of_key_eq ((hmem r).mp hr).1 hwT (hrtoken.trans hw.token.symm)
    subst hrw
    exact not_mem_take_of_mem_drop o hdrop (((hmem r).mp hr).2 hru)
  · intro e he k hk hne habove hahead hkey hprotected
    obtain ⟨heT, heuser, henew⟩ := mem_others.mp he
    obtain ⟨hkT, hkuser, hknew⟩ := mem_others.mp hk
    have heT₁ : e ∈ T₁ := (hw.mem_iff e).mpr (Or.inr ⟨heT, henew⟩)
    have hkT₁ : k ∈ T₁ := (hw.mem_iff k).mpr (Or.inr ⟨hkT, hknew⟩)
    rw [← hw.above_eq] at habove
    rw [← hw.ahead_eq he] at hahead
    obtain ⟨o, htake, hdrop⟩ := exists_order_take_drop hnodup
      (mem_tokensOf.mpr ⟨heT₁, heuser⟩) (mem_tokensOf.mpr ⟨hkT₁, hkuser⟩) hne habove hahead
    obtain ⟨T', hT', hmem⟩ := mem_createTokenTx_iff o hupsert
    have hgone : ∀ r ∈ T', r.token ≠ e.token := by
      intro r hr htoken
      have hre : r = e := Table.eq_of_key_eq ((hmem r).mp hr).1 heT₁ htoken
      subst hre
      exact not_mem_take_of_mem_drop o hdrop (((hmem r).mp hr).2 heuser)
    have hkT' : k ∈ T' := (hmem k).mpr ⟨hkT₁, fun _ => htake⟩
    rcases (h o T' hT').pruned e heT heuser hgone k hkT' hkuser hknew with hk' | ⟨he', -⟩
    · exact hk'
    · rw [hprotected] at he'
      cases he'

/--
Whatever order equal expiries come in, `CreateToken` keeps the new token and prunes
those that expire soonest, if and only if there is room for the tokens.
-/
theorem createToken_delivers_iff
    (users : List String)
    (T : Table TokenRow.token)
    (draws : Nat → Nat)
    (userID label : String)
    (now expires : Int)
    (origin : String)
    (provisioned : Bool)
    (huser : userID ∈ users)
    (hfree : ∀ r ∈ T, r.token = generateToken draws → r.userId = userID) :
    (∀ o : DescOrder TokenRow.expires, ∃ T' t,
        createToken o T draws userID label now expires origin provisioned = .ok (T', t) ∧
          Delivered users T T' t) ↔
      Roomy T
        ⟨userID, generateToken draws, label, now, origin, expires, provisioned⟩ := by
  obtain ⟨T₁, w, hupsert, hw⟩ := exists_writes
    (t := ⟨userID, generateToken draws, label, now, origin, expires, provisioned⟩) hfree
  constructor
  · intro h
    refine roomy_of_delivered users hupsert hw fun o T' hT' => ?_
    obtain ⟨T'', t, hcreate, hdelivered⟩ := h o
    rw [createToken, hT'] at hcreate
    cases hcreate
    exact hdelivered
  · intro hroomy o
    obtain ⟨T', hT', hmem⟩ := mem_createTokenTx_iff o hupsert
    refine ⟨T', _, by rw [createToken, hT']; rfl, ?_⟩
    exact hroomy.delivered hw (utf8ByteSize_generateToken draws) huser o hmem

/-- The first token of a user. -/
theorem first_token_delivered :
    "u_phil" ∈ ["u_phil"] ∧
      ∀ o : DescOrder TokenRow.expires, ∃ T' t,
        createToken o Table.empty (fun _ => 0) "u_phil" "phone" 1000 0 "1.2.3.4" false =
            .ok (T', t) ∧
          Delivered ["u_phil"] Table.empty T' t :=
  ⟨by simp, (createToken_delivers_iff ["u_phil"] Table.empty (fun _ => 0) "u_phil" "phone"
    1000 0 "1.2.3.4" false (by simp) (by simp)).mpr ⟨by decide, by decide⟩⟩

/-- Sixty tokens of logins. -/
def exampleTokens : Table TokenRow.token where
  rows := (List.range 60).map fun i =>
    ⟨"u_phil", "tk_" ++ toString i, "", 1000, "1.2.3.4", 260200, false⟩
  nodup := by
    rw [List.map_map]
    refine List.nodup_range.map fun i j h => ?_
    have hdigits := congrArg (fun s => Nat.ofDigitChars 10 (s.toList.drop 3) 0) h
    simpa using hdigits

/-- A token that never expires is pruned at once. -/
theorem eternal_token_pruned :
    ¬ ∀ (users : List String) (T : Table TokenRow.token) (draws : Nat → Nat)
      (userID label : String) (now expires : Int) (origin : String) (provisioned : Bool)
      (o : DescOrder TokenRow.expires) (T' : Table TokenRow.token) (t : TokenRow),
      userID ∈ users → expires = 0 ∨ now < expires →
        createToken o T draws userID label now expires origin provisioned = .ok (T', t) →
          Delivered users T T' t := by
  intro h
  have hfree : ∀ r ∈ exampleTokens, r.token = generateToken (fun _ => 0) →
      r.userId = "u_phil" := by
    intro r hr _
    obtain ⟨i, -, rfl⟩ := List.mem_map.mp hr
    rfl
  obtain ⟨T₁, w, hupsert, hw⟩ := exists_writes
    (t := ⟨"u_phil", generateToken (fun _ => 0), "", 1000, "1.2.3.4", 0, false⟩) hfree
  have hroomy := roomy_of_delivered ["u_phil"] hupsert hw fun o T' hT' =>
    h ["u_phil"] exampleTokens (fun _ => 0) "u_phil" "" 1000 0 "1.2.3.4" false o T' _
      (by simp) (Or.inl rfl) (by rw [createToken, hT']; rfl)
  exact absurd hroomy.new (by decide)

end Delivery

end TokenCreation
end Manager
end CoopMessenger
