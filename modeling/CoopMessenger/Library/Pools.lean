import CoopMessenger.Library.Table
import Mathlib.Data.List.Induction

/-!
# Pools

A pool holds opened resources, each under a key.  Reconciling it with a list of wanted
things opens a resource for each key that is missing and closes those under the other
keys; a resource that is there under a wanted key stays, whatever it was opened for.

**Results.**
* `get_foldl_reconcile`: a run holds, under each key, the resource that was opened for
  `origin`.
* `exact_iff`: after a run the pool serves exactly what is wanted if and only if, under
  the wanted keys, keys stand for things.
-/

namespace CoopMessenger
namespace Library

universe u v w x y

/-- Resources under keys, and the list of those that are open. -/
structure Pool
    (κ : Type u) (γ : Type v) where
  held : Table (Prod.fst : κ × γ → κ)
  opened : List γ
  opened_perm : opened.Perm (held.rows.map Prod.snd)

namespace Pool

variable {κ : Type u} {γ : Type v}
variable [DecidableEq κ]

section Operations

def empty : Pool κ γ where
  held := Table.empty
  opened := []
  opened_perm := List.Perm.nil

def keys (P : Pool κ γ) : List κ :=
  P.held.rows.map Prod.fst

def get
    (P : Pool κ γ)
    (k : κ) : Option γ :=
  (P.held.find? k).map Prod.snd

theorem get_eq_some_iff
    {P : Pool κ γ} {k : κ} {c : γ} :
    P.get k = some c ↔ (k, c) ∈ P.held := by
  unfold get
  simp only [Option.map_eq_some_iff, Table.find?_eq_some_iff]
  constructor
  · rintro ⟨p, ⟨hp, rfl⟩, rfl⟩
    exact hp
  · intro h
    exact ⟨(k, c), ⟨h, rfl⟩, rfl⟩

theorem mem_opened_iff
    {P : Pool κ γ} {c : γ} :
    c ∈ P.opened ↔ ∃ k, P.get k = some c := by
  rw [P.opened_perm.mem_iff]
  simp [get_eq_some_iff, Table.mem_def]

theorem mem_keys_iff
    {P : Pool κ γ} {k : κ} :
    k ∈ P.keys ↔ ∃ c, P.get k = some c := by
  simp [keys, get_eq_some_iff, Table.mem_def]

/-- One open resource has a property exactly if one key has such a resource. -/
theorem opened_filter_eq_singleton_iff
    {P : Pool κ γ} {p : γ → Bool} {c : γ} :
    P.opened.filter p = [c]
      ↔
    p c = true ∧ ∃ k, P.get k = some c ∧
      ∀ k' c', P.get k' = some c' → p c' = true → k' = k := by
  have hperm : (P.opened.filter p).Perm
      ((P.held.rows.filter fun q => p q.2).map Prod.snd) := by
    have h := P.opened_perm.filter p
    rwa [List.filter_map] at h
  constructor
  · intro h
    rw [h] at hperm
    have hrows := List.singleton_perm.mp hperm
    obtain ⟨q, hq, hc⟩ := List.map_eq_singleton_iff.mp hrows.symm
    have hmem : ∀ r, r ∈ P.held.rows ∧ p r.2 = true ↔ r = q := by
      intro r
      have hfilter : r ∈ P.held.rows.filter (fun q => p q.2) ↔ r = q := by
        rw [hq, List.mem_singleton]
      rwa [List.mem_filter] at hfilter
    obtain ⟨hheld, hp⟩ := (hmem q).mpr rfl
    subst hc
    refine ⟨hp, q.1, get_eq_some_iff.mpr hheld, ?_⟩
    intro k' c' hget hp'
    have heq := (hmem (k', c')).mp ⟨get_eq_some_iff.mp hget, hp'⟩
    rw [← heq]
  · rintro ⟨hp, k, hget, honly⟩
    have hrows : (P.held.rows.filter fun q => p q.2).Perm [(k, c)] := by
      refine (List.perm_ext_iff_of_nodup (P.held.nodup.of_map.filter _)
        (List.nodup_singleton _)).mpr fun q => ?_
      rw [List.mem_filter, List.mem_singleton]
      constructor
      · rintro ⟨hq, hpq⟩
        have hkey := honly q.1 q.2 (get_eq_some_iff.mpr hq) hpq
        exact Table.eq_of_key_eq hq (get_eq_some_iff.mp hget) hkey
      · rintro rfl
        exact ⟨get_eq_some_iff.mp hget, hp⟩
    exact List.perm_singleton.mp (hperm.trans (hrows.map Prod.snd))

/-- Opens a resource under a key that has none. -/
def acquire
    (P : Pool κ γ)
    (k : κ)
    (c : γ) : Pool κ γ :=
  match h : P.held.insert? (k, c) with
  | some held =>
      { held := held
        opened := P.opened ++ [c]
        opened_perm := by
          rw [(Table.insert?_eq_some_iff.mp h).2, List.map_append]
          exact P.opened_perm.append_right [c] }
  | none => P

theorem get_acquire
    {P : Pool κ γ} {k k' : κ} {c : γ} :
    (P.acquire k c).get k' = if k' = k then some ((P.get k).getD c) else P.get k' := by
  unfold acquire
  split
  · next held h =>
      have hfree : P.get k = none := by
        simp [get, (Table.insert?_eq_some_iff.mp h).1]
      rw [hfree]
      simp only [get, Table.find?_insert? h]
      split <;> rfl
  · next h =>
      obtain ⟨⟨key, old⟩, hold, hkey⟩ := Table.insert?_eq_none_iff.mp h
      have hget : P.get key = some old := get_eq_some_iff.mpr hold
      dsimp only at hkey
      subst hkey
      split
      · next hk =>
          rw [hk, hget]
          rfl
      · rfl

/-- Closes the resource under a key. -/
def release
    [DecidableEq γ]
    (P : Pool κ γ)
    (k : κ) : Pool κ γ where
  held := P.held.delete fun q => q.1 = k
  opened := (P.get k).elim P.opened P.opened.erase
  opened_perm := by
    cases hget : P.get k with
    | none =>
        have hrows : (P.held.delete fun q => q.1 = k).rows = P.held.rows := by
          refine List.filter_eq_self.mpr fun q hq => ?_
          have hne : q.1 ≠ k := by
            rintro rfl
            rw [get_eq_some_iff.mpr hq] at hget
            cases hget
          simp [hne]
        rw [hrows]
        exact P.opened_perm
    | some c =>
        have hrows := (Table.perm_of_mem (get_eq_some_iff.mp hget)).map Prod.snd
        have hopened := (P.opened_perm.trans hrows).erase c
        rw [List.map_cons, List.erase_cons_head] at hopened
        simpa [Table.delete] using hopened

theorem get_release
    [DecidableEq γ]
    {P : Pool κ γ} {k k' : κ} :
    (P.release k).get k' = if k' = k then none else P.get k' := by
  unfold get release
  rw [Table.find?_delete (q := fun k' => k' = k) (fun _ => rfl)]
  by_cases h : k' = k <;> simp [h]

end Operations

section Reconciliation

variable {ω : Type w}

theorem get_foldl_acquire
    {keyOf : ω → κ} {make : ω → γ} {P : Pool κ γ} {wanted : List ω} {k : κ} :
    (wanted.foldl (fun P w => P.acquire (keyOf w) (make w)) P).get k =
      match wanted.find? fun w => keyOf w = k with
      | some w => some ((P.get k).getD (make w))
      | none => P.get k := by
  induction wanted generalizing P with
  | nil =>
      rfl
  | cons w wanted ih =>
      rw [List.foldl_cons, ih, get_acquire]
      by_cases hk : keyOf w = k
      · subst hk
        cases wanted.find? fun v => keyOf v = keyOf w <;> simp
      · simp [hk, Ne.symm hk]

variable [DecidableEq γ]

/-- Opens what is missing under the wanted keys, then closes what is under others. -/
def reconcile
    (keyOf : ω → κ)
    (make : ω → γ)
    (P : Pool κ γ)
    (wanted : List ω) : Pool κ γ :=
  (P.keys.filter fun k => k ∉ wanted.map keyOf).foldl release
    (wanted.foldl (fun P w => P.acquire (keyOf w) (make w)) P)

variable {keyOf : ω → κ} {make : ω → γ}

/-- The first wanted thing under a key. -/
theorem find?_spec
    {wanted : List ω} {k : κ} {w : ω}
    (h : wanted.find? (fun w => keyOf w = k) = some w) :
    w ∈ wanted ∧ keyOf w = k := by
  have hkey := List.find?_some h
  exact ⟨List.mem_of_find?_eq_some h, of_decide_eq_true hkey⟩

theorem get_foldl_release
    {P : Pool κ γ} {ks : List κ} {k : κ} :
    (ks.foldl release P).get k = if k ∈ ks then none else P.get k := by
  induction ks generalizing P with
  | nil =>
      simp
  | cons k' ks ih =>
      rw [List.foldl_cons, ih, get_release]
      by_cases hk : k = k'
      · simp [hk]
      · simp [hk]

/-- Under a wanted key there is what was there, or what was opened for the first. -/
theorem get_reconcile
    {P : Pool κ γ} {wanted : List ω} {k : κ} :
    (reconcile keyOf make P wanted).get k =
      (wanted.find? fun w => keyOf w = k).map fun w => (P.get k).getD (make w) := by
  rw [reconcile, get_foldl_release, get_foldl_acquire]
  cases hfind : wanted.find? fun w => keyOf w = k with
  | some w =>
      have hmem : k ∈ wanted.map keyOf := List.mem_map.mpr ⟨w, find?_spec hfind⟩
      have hkept : k ∉ P.keys.filter fun k => k ∉ wanted.map keyOf := by
        intro h
        have hout := (List.mem_filter.mp h).2
        exact of_decide_eq_true hout hmem
      rw [if_neg hkept]
      rfl
  | none =>
      have hmem : k ∉ wanted.map keyOf := by
        simpa using hfind
      cases hget : P.get k with
      | none =>
          simp
      | some c =>
          have hdropped : k ∈ P.keys.filter fun k => k ∉ wanted.map keyOf := by
            rw [List.mem_filter]
            exact ⟨mem_keys_iff.mpr ⟨c, hget⟩, decide_eq_true hmem⟩
          rw [if_pos hdropped]
          rfl

/-- What the resource under a key was opened for, in a run of reconciliations. -/
def origin
    (keyOf : ω → κ)
    (history : List (List ω))
    (k : κ) : Option ω :=
  history.foldl
    (fun o wanted => (wanted.find? fun w => keyOf w = k).map fun w => o.getD w) none

theorem origin_append_singleton
    {history : List (List ω)} {wanted : List ω} {k : κ} :
    origin keyOf (history ++ [wanted]) k =
      (wanted.find? fun w => keyOf w = k).map fun w => (origin keyOf history k).getD w := by
  rw [origin, List.foldl_append]
  rfl

theorem origin_spec
    {history : List (List ω)} {k : κ} {w : ω}
    (h : origin keyOf history k = some w) :
    keyOf w = k ∧ ∃ wanted ∈ history, w ∈ wanted := by
  induction history using List.reverseRecOn with
  | nil =>
      cases h
  | append_singleton history wanted ih =>
      rw [origin_append_singleton, Option.map_eq_some_iff] at h
      obtain ⟨v, hfind, hw⟩ := h
      cases hold : origin keyOf history k with
      | none =>
          rw [hold] at hw
          obtain rfl : v = w := hw
          obtain ⟨hmem, hkey⟩ := find?_spec hfind
          exact ⟨hkey, wanted, by simp, hmem⟩
      | some o =>
          rw [hold] at hw
          obtain rfl : o = w := hw
          obtain ⟨hkey, earlier, hmem, ho⟩ := ih hold
          exact ⟨hkey, earlier, List.mem_append_left _ hmem, ho⟩

theorem get_foldl_reconcile
    {history : List (List ω)} {k : κ} :
    (history.foldl (reconcile keyOf make) empty).get k =
      (origin keyOf history k).map make := by
  induction history using List.reverseRecOn with
  | nil =>
      rfl
  | append_singleton history wanted ih =>
      rw [List.foldl_append, List.foldl_cons, List.foldl_nil, get_reconcile, ih,
        origin_append_singleton]
      cases wanted.find? fun w => keyOf w = k with
      | none =>
          rfl
      | some w =>
          cases origin keyOf history k <;> rfl

end Reconciliation

section Exactness

variable [DecidableEq γ]
variable {ω : Type w} {τ : Type x} {ι : Type y}
variable [DecidableEq ι]

/-- One open resource for each wanted thing, serving it, and none for anything else. -/
def Exact
    (served : γ → τ)
    (ident : τ → ι)
    (P : Pool κ γ)
    (things : List τ) : Prop :=
  (∀ t ∈ things, ∃ c, served c = t ∧
    P.opened.filter (fun c => ident (served c) = ident t) = [c]) ∧
  ∀ c ∈ P.opened, served c ∈ things

/-- Under the wanted keys, keys stand for things, now and since they were opened. -/
def KeysFaithful
    (hash : τ → κ)
    (what : ω → τ)
    (history : List (List ω))
    (wanted : List ω) : Prop :=
  (∀ w ∈ wanted, ∀ w' ∈ wanted, hash (what w) = hash (what w') → what w = what w') ∧
  ∀ w ∈ wanted, ∀ o, origin (fun w => hash (what w)) history (hash (what w)) = some o →
    what o = what w

variable {hash : τ → κ} {what : ω → τ} {make : ω → γ}
variable {served : γ → τ} {ident : τ → ι}

/-- What is held after a run and one more reconciliation. -/
theorem get_run
    {history : List (List ω)} {wanted : List ω} {k : κ} {c : γ} :
    ((history ++ [wanted]).foldl (reconcile (fun w => hash (what w)) make) empty).get k =
        some c
      ↔
    ∃ o, origin (fun w => hash (what w)) (history ++ [wanted]) k = some o ∧ make o = c := by
  rw [get_foldl_reconcile, Option.map_eq_some_iff]

/-- Keys stand for things if under each wanted key is what serves its thing. -/
theorem keysFaithful_iff
    {history : List (List ω)} {wanted : List ω} :
    KeysFaithful hash what history wanted
      ↔
    ∀ w ∈ wanted, ∃ o, origin (fun w => hash (what w)) (history ++ [wanted])
      (hash (what w)) = some o ∧ what o = what w := by
  have hlast : ∀ w ∈ wanted, ∃ v ∈ wanted, hash (what v) = hash (what w) ∧
      origin (fun w => hash (what w)) (history ++ [wanted]) (hash (what w)) =
        some ((origin (fun w => hash (what w)) history (hash (what w))).getD v) := by
    intro w hw
    rw [origin_append_singleton]
    cases hfind : wanted.find? fun v => hash (what v) = hash (what w) with
    | none =>
        exact absurd (decide_eq_true rfl) (List.find?_eq_none.mp hfind w hw)
    | some v =>
        have hfound : v ∈ wanted ∧ hash (what v) = hash (what w) := find?_spec hfind
        obtain ⟨hv, hkey⟩ := hfound
        exact ⟨v, hv, hkey, rfl⟩
  constructor
  · rintro ⟨hinj, hold⟩ w hw
    obtain ⟨v, hv, hkey, hlast⟩ := hlast w hw
    refine ⟨_, hlast, ?_⟩
    cases horigin : origin (fun w => hash (what w)) history (hash (what w)) with
    | none =>
        exact hinj v hv w hw hkey
    | some o =>
        exact hold w hw o horigin
  · intro hall
    refine ⟨fun w hw w' hw' hkey => ?_, fun w hw o horigin => ?_⟩
    · obtain ⟨o, ho, hwhat⟩ := hall w hw
      obtain ⟨o', ho', hwhat'⟩ := hall w' hw'
      rw [← hkey, ho] at ho'
      obtain rfl := Option.some.inj ho'
      exact hwhat.symm.trans hwhat'
    · obtain ⟨v, -, -, hlast⟩ := hlast w hw
      obtain ⟨o', ho', hwhat⟩ := hall w hw
      rw [hlast, horigin] at ho'
      obtain rfl := Option.some.inj ho'
      exact hwhat

/-- Keys stand for things if they do for all things that were ever wanted. -/
theorem keysFaithful_of_injective
    {history : List (List ω)} {wanted : List ω}
    (hinj : ∀ w ∈ (history ++ [wanted]).flatten, ∀ w' ∈ (history ++ [wanted]).flatten,
      hash (what w) = hash (what w') → what w = what w') :
    KeysFaithful hash what history wanted := by
  have hlast : ∀ w ∈ wanted, w ∈ (history ++ [wanted]).flatten := by
    intro w hw
    simp [hw]
  refine ⟨fun w hw w' hw' => hinj w (hlast w hw) w' (hlast w' hw'), ?_⟩
  intro w hw o ho
  obtain ⟨hkey, earlier, hmem, ho⟩ := origin_spec ho
  exact hinj o (List.mem_flatten.mpr ⟨earlier, List.mem_append_left _ hmem, ho⟩) w
    (hlast w hw) hkey

/-- The pool serves exactly what is wanted if and only if keys stand for things. -/
theorem exact_iff
    (hash : τ → κ)
    (ident : τ → ι)
    (hserved : ∀ w, served (make w) = what w)
    (history : List (List ω))
    (wanted : List ω)
    (hident : ∀ w ∈ wanted, ∀ w' ∈ wanted,
      ident (what w) = ident (what w') → what w = what w') :
    Exact served ident
        ((history ++ [wanted]).foldl (reconcile (fun w => hash (what w)) make) empty)
        (wanted.map what)
      ↔
    KeysFaithful hash what history wanted := by
  -- both sides say that under a wanted key is what serves the thing
  have hright : KeysFaithful hash what history wanted ↔
      ∀ w ∈ wanted, ∃ o, origin (fun w => hash (what w)) (history ++ [wanted])
        (hash (what w)) = some o ∧ what o = what w :=
    keysFaithful_iff
  rw [hright]
  constructor
  · rintro ⟨hone, -⟩ w hw
    obtain ⟨c, hc, hfilter⟩ := hone _ (List.mem_map_of_mem hw)
    obtain ⟨-, k, hget, -⟩ := opened_filter_eq_singleton_iff.mp hfilter
    obtain ⟨o, ho, rfl⟩ := get_run.mp hget
    rw [hserved] at hc
    obtain ⟨hkey, -⟩ := origin_spec ho
    rw [← hkey, hc] at ho
    exact ⟨o, ho, hc⟩
  · intro hall
    have honly : ∀ {k c}, ((history ++ [wanted]).foldl
        (reconcile (fun w => hash (what w)) make) empty).get k = some c →
        ∃ w ∈ wanted, hash (what w) = k ∧ served c = what w := by
      intro k c hget
      obtain ⟨o, ho, rfl⟩ := get_run.mp hget
      have hfind := ho
      rw [origin_append_singleton, Option.map_eq_some_iff] at hfind
      obtain ⟨v, hfind, -⟩ := hfind
      obtain ⟨hv, rfl⟩ := find?_spec hfind
      obtain ⟨o', ho', hwhat⟩ := hall v hv
      rw [ho] at ho'
      obtain rfl := Option.some.inj ho'
      exact ⟨v, hv, rfl, (hserved o).trans hwhat⟩
    refine ⟨fun t ht => ?_, fun c hc => ?_⟩
    · obtain ⟨w, hw, rfl⟩ := List.mem_map.mp ht
      obtain ⟨o, ho, hwhat⟩ := hall w hw
      refine ⟨make o, (hserved o).trans hwhat, ?_⟩
      refine opened_filter_eq_singleton_iff.mpr ⟨?_, hash (what w), ?_, ?_⟩
      · rw [hserved, hwhat, decide_eq_true rfl]
      · exact get_run.mpr ⟨o, ho, rfl⟩
      · intro k c hget hc
        obtain ⟨v, hv, rfl, hserves⟩ := honly hget
        rw [hserves] at hc
        rw [hident v hv w hw (of_decide_eq_true hc)]
    · obtain ⟨k, hget⟩ := mem_opened_iff.mp hc
      obtain ⟨w, hw, -, hserves⟩ := honly hget
      exact List.mem_map.mpr ⟨w, hw, hserves.symm⟩

end Exactness

end Pool
end Library
end CoopMessenger
