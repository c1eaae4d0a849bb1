import CoopMessenger.Library.Relational
import Mathlib.Data.List.Forall2

/-!
# Statements on two schemas

Two schemas that differ, with contents that agree in some columns of every table.
A statement fits them if it can be prepared in both, reads agreeing columns only,
and writes a table whose keys, checks and foreign keys are the same in both.

**Results.**
* `exec_agree`: a statement that fits both schemas gives the same answer or the
  same error, and leaves contents that agree.
* `deleteRows_agree`: a deletion does so too, if the same rows go.
-/

namespace CoopMessenger
namespace Library
namespace Sql

variable {τ κ ι : Type}

section Outcomes

/-- Both computations fail with the same error, or both give related results. -/
inductive SameOutcome
    {ε α β : Type}
    (R : α → β → Prop) :
    Except ε α → Except ε β → Prop
  | error
      (e : ε) :
      SameOutcome R (.error e) (.error e)
  | ok
      {a : α} {b : β}
      (h : R a b) :
      SameOutcome R (.ok a) (.ok b)

theorem SameOutcome.map
    {ε α β α' β' : Type} {R : α → β → Prop} {R' : α' → β' → Prop}
    {x : Except ε α} {y : Except ε β} {f : α → α'} {g : β → β'}
    (h : SameOutcome R x y)
    (hfg : ∀ a b, R a b → R' (f a) (g b)) :
    SameOutcome R' (x.map f) (y.map g) := by
  cases h with
  | error e =>
      exact .error e
  | ok hab =>
      exact .ok (hfg _ _ hab)

theorem SameOutcome.bind
    {ε α β α' β' : Type} {R : α → β → Prop} {R' : α' → β' → Prop}
    {x : Except ε α} {y : Except ε β}
    {f : α → Except ε α'} {g : β → Except ε β'}
    (h : SameOutcome R x y)
    (hfg : ∀ a b, R a b → SameOutcome R' (f a) (g b)) :
    SameOutcome R' (x.bind f) (y.bind g) := by
  cases h with
  | error e =>
      exact .error e
  | ok hab =>
      exact hfg _ _ hab

end Outcomes

section Rows

/-- The rows have the same values in these columns. -/
def RowsAgree
    (cols : List κ)
    (r r' : Row κ) : Prop :=
  ∀ c ∈ cols, r c = r' c

/-- The tables have the same rows, as far as these columns go. -/
def Agree
    (cols : τ → List κ)
    (C C' : Content τ κ) : Prop :=
  ∀ t, List.Forall₂ (RowsAgree (cols t)) (C t) (C' t)

variable {α β : Type}
variable {R : α → β → Prop}

theorem any_eq_of_forall₂
    {l : List α} {l' : List β} {p : α → Bool} {p' : β → Bool}
    (h : List.Forall₂ R l l')
    (hp : ∀ a ∈ l, ∀ b ∈ l', R a b → p a = p' b) :
    l.any p = l'.any p' := by
  induction h with
  | nil =>
      rfl
  | @cons a b l l' hab htail ih =>
      have hhead : p a = p' b :=
        hp a List.mem_cons_self b List.mem_cons_self hab
      have hrest := ih (fun x hx y hy =>
        hp x (List.mem_cons_of_mem a hx) y (List.mem_cons_of_mem b hy))
      rw [List.any_cons, List.any_cons, hhead, hrest]

theorem forall₂_filter
    {l : List α} {l' : List β} {p : α → Bool} {p' : β → Bool}
    (h : List.Forall₂ R l l')
    (hp : ∀ a ∈ l, ∀ b ∈ l', R a b → p a = p' b) :
    List.Forall₂ R (l.filter p) (l'.filter p') := by
  induction h with
  | nil =>
      exact .nil
  | @cons a b l l' hab htail ih =>
      have hhead : p a = p' b :=
        hp a List.mem_cons_self b List.mem_cons_self hab
      have hrest := ih (fun x hx y hy =>
        hp x (List.mem_cons_of_mem a hx) y (List.mem_cons_of_mem b hy))
      rw [List.filter_cons, List.filter_cons, hhead]
      split
      · exact .cons hab hrest
      · exact hrest

theorem map_eq_of_forall₂
    {γ : Type} {l : List α} {l' : List β} {f : α → γ} {g : β → γ}
    (h : List.Forall₂ R l l')
    (hfg : ∀ a b, R a b → f a = g b) :
    l.map f = l'.map g := by
  induction h with
  | nil =>
      rfl
  | cons hab _ ih =>
      rw [List.map_cons, List.map_cons, hfg _ _ hab, ih]

variable [DecidableEq κ]

theorem restrict_eq_of_rowsAgree
    {cols cols' : List κ} {r r' : Row κ}
    (h : RowsAgree cols r r')
    (hsub : ∀ c ∈ cols', c ∈ cols) :
    restrict cols' r = restrict cols' r' := by
  funext c
  by_cases hc : c ∈ cols'
  · simp [restrict, hc, h c (hsub c hc)]
  · simp [restrict, hc]

/-- Written columns agree when the same values are written. -/
theorem RowsAgree.setColumns
    {cols : List κ} {r r' : Row κ}
    (columns : List κ) (vals : List Value)
    (h : ∀ c ∈ cols, c ∉ columns → r c = r' c) :
    RowsAgree cols (setColumns columns vals r) (setColumns columns vals r') := by
  intro c hc
  by_cases hmem : c ∈ columns
  · simp [Sql.setColumns, hmem]
  · simp [Sql.setColumns, hmem, h c hc hmem]

theorem setColumns_eq_of_mem
    {columns : List κ} {vals : List Value} {r r' : Row κ} {c : κ}
    (hc : c ∈ columns) :
    setColumns columns vals r c = setColumns columns vals r' c := by
  simp [Sql.setColumns, hc]

variable [DecidableEq τ]
variable {cols : τ → List κ}
variable {C C' : Content τ κ}

omit [DecidableEq κ] in
theorem mem_readColumns
    {reads : List (τ × List κ)} {t : τ} {c : κ} :
    c ∈ readColumns reads t ↔ ∃ p ∈ reads, p.1 = t ∧ c ∈ p.2 := by
  simp only [readColumns, List.mem_flatMap]
  constructor
  · rintro ⟨p, hp, hc⟩
    split at hc
    case isTrue ht =>
      exact ⟨p, hp, ht, hc⟩
    case isFalse =>
      cases hc
  · rintro ⟨p, hp, ht, hc⟩
    exact ⟨p, hp, by simpa [ht] using hc⟩

/-- A statement that reads agreeing columns sees the same. -/
theorem view_eq_of_agree
    {reads : List (τ × List κ)}
    (h : Agree cols C C')
    (hreads : ∀ p ∈ reads, ∀ c ∈ p.2, c ∈ cols p.1) :
    view reads C = view reads C' := by
  have hsub : ∀ t, ∀ c ∈ readColumns reads t, c ∈ cols t := by
    intro t c hc
    obtain ⟨p, hp, rfl, hmem⟩ := mem_readColumns.mp hc
    exact hreads p hp c hmem
  funext t
  unfold view
  split
  · exact map_eq_of_forall₂ (h t)
      (fun r r' hr => restrict_eq_of_rowsAgree hr (hsub t))
  · rfl

omit [DecidableEq κ] in
/-- The rows of one table are replaced. -/
theorem Agree.update
    {t : τ} {rows rows' : List (Row κ)}
    (h : Agree cols C C')
    (hrows : List.Forall₂ (RowsAgree (cols t)) rows rows') :
    Agree cols (Function.update C t rows) (Function.update C' t rows') := by
  intro c
  by_cases hc : c = t
  · subst hc
    simpa using hrows
  · simpa [hc] using h c

end Rows

section Contents

variable {cols : τ → List κ}
variable {S : Schema τ κ ι}
variable {C C' : Content τ κ}

/-- Agreeing contents; tables that are not in the schema are empty. -/
structure Related
    (S : Schema τ κ ι)
    (cols : τ → List κ)
    (C C' : Content τ κ) : Prop where
  agree : Agree cols C C'
  absent : ∀ c, c ∉ S.names → C c = []

/-- Tables of the second schema only are empty. -/
theorem Related.absent_right
    {c : τ}
    (hC : Related S cols C C')
    (hc : c ∉ S.names) :
    C' c = [] := by
  have h := hC.agree c
  rw [hC.absent c hc] at h
  exact List.forall₂_nil_left_iff.mp h

/-- The rows of one table of the schema are replaced. -/
theorem Related.update
    [DecidableEq τ]
    {t : τ} {rows rows' : List (Row κ)}
    (hC : Related S cols C C')
    (ht : t ∈ S.names)
    (hrows : List.Forall₂ (RowsAgree (cols t)) rows rows') :
    Related S cols (Function.update C t rows)
      (Function.update C' t rows') := by
  refine ⟨hC.agree.update hrows, fun c hc => ?_⟩
  have hne : c ≠ t := fun h => hc (h ▸ ht)
  rw [Function.update_of_ne hne]
  exact hC.absent c hc

end Contents

section Constraints

variable [DecidableEq κ]
variable {cols : τ → List κ}
variable {C C' : Content τ κ}
variable {d d' : TableDef τ κ ι}
variable {r r' : Row κ}

/-- The key is about these columns only. -/
def Key.Within
    (k : Key κ)
    (cols : List κ) : Prop :=
  (∀ c ∈ k.columns, c ∈ cols) ∧ ∀ e ∈ k.except, e.1 ∈ cols

instance Key.decidableWithin
    (k : Key κ)
    (cols : List κ) :
    Decidable (k.Within cols) :=
  inferInstanceAs (Decidable (_ ∧ _))

/-- The tables have the same keys and checks, about compared columns. -/
structure Alike
    (cols : τ → List κ)
    (d d' : TableDef τ κ ι) : Prop where
  name : d'.name = d.name
  keys : d'.keys = d.keys
  checks : d'.checks = d.checks
  keysWithin : ∀ k ∈ d.keys, k.Within (cols d.name)
  checksWithin : ∀ k ∈ d.checks, k.1 ∈ cols d.name

/-- The foreign keys are about compared columns of both tables. -/
def ForeignWithin
    (cols : τ → List κ)
    (t : τ)
    (fks : List (ForeignKey τ κ)) : Prop :=
  ∀ fk ∈ fks, fk.column ∈ cols t ∧ fk.targetColumn ∈ cols fk.target

omit [DecidableEq κ] in
theorem covers_eq
    {k : Key κ} {cols : List κ}
    (hk : k.Within cols)
    (h : RowsAgree cols r r') :
    k.covers r = k.covers r' := by
  have hexcept : k.except.all (fun e => decide (r e.1 ≠ e.2)) =
      k.except.all (fun e => decide (r' e.1 ≠ e.2)) := by
    cases he : k.except with
    | none =>
        rfl
    | some e =>
        simp [h e.1 (hk.2 e he)]
  have hcolumns : k.columns.all (fun c => decide (r c ≠ .null)) =
      k.columns.all (fun c => decide (r' c ≠ .null)) := by
    rw [Bool.eq_iff_iff, List.all_eq_true, List.all_eq_true]
    exact forall₂_congr fun c hc => by rw [h c (hk.1 c hc)]
  rw [Key.covers, Key.covers, hexcept, hcolumns]

omit [DecidableEq κ] in
theorem same_eq
    {k : Key κ} {cols : List κ} {q q' : Row κ}
    (hk : k.Within cols)
    (h : RowsAgree cols r r')
    (hq : RowsAgree cols q q') :
    k.same r q = k.same r' q' := by
  have hcolumns : k.columns.all (fun c => decide (r c = q c)) =
      k.columns.all (fun c => decide (r' c = q' c)) := by
    rw [Bool.eq_iff_iff, List.all_eq_true, List.all_eq_true]
    exact forall₂_congr fun c hc => by rw [h c (hk.1 c hc), hq c (hk.1 c hc)]
  rw [Key.same, Key.same, covers_eq hk h, covers_eq hk hq, hcolumns]

omit [DecidableEq κ] in
/-- The same key collides, if any. -/
theorem keyError_eq
    {keys : List (Key κ)} {cols : List κ} {others others' : List (Row κ)}
    (hname : d'.name = d.name)
    (hkeys : ∀ k ∈ keys, k.Within cols)
    (h : RowsAgree cols r r')
    (hothers : List.Forall₂ (RowsAgree cols) others others') :
    d.keyError keys r others = d'.keyError keys r' others' := by
  have hfind : keys.find? (fun k => others.any (k.same r)) =
      keys.find? (fun k => others'.any (k.same r')) := by
    induction keys with
    | nil =>
        rfl
    | cons k keys ih =>
        have hany : others.any (k.same r) = others'.any (k.same r') :=
          any_eq_of_forall₂ hothers (fun q _ q' _ hq =>
            same_eq (hkeys k List.mem_cons_self) h hq)
        rw [List.find?_cons, List.find?_cons, hany,
          ih (fun k' hk' => hkeys k' (List.mem_cons_of_mem k hk'))]
  rw [TableDef.keyError, TableDef.keyError, hfind, hname]

/-- The same constraint of the row alone fails, if any. -/
theorem rowError_eq
    {written : List κ}
    (hd : Alike cols d d')
    (hrequired : ∀ c ∈ written, d'.required c = d.required c)
    (hwritten : ∀ c ∈ written, r c = r' c)
    (h : RowsAgree (cols d.name) r r') :
    d.rowError written r = d'.rowError written r' := by
  have hnull : written.any (fun c => d.required c && decide (r c = .null)) =
      written.any (fun c => d'.required c && decide (r' c = .null)) := by
    rw [Bool.eq_iff_iff, List.any_eq_true, List.any_eq_true]
    refine exists_congr fun c => and_congr_right fun hc => ?_
    rw [hrequired c hc, hwritten c hc]
  have hcheck : d.checks.any (fun k =>
        decide (r k.1 ≠ .null) && !decide (r k.1 ∈ k.2)) =
      d'.checks.any (fun k =>
        decide (r' k.1 ≠ .null) && !decide (r' k.1 ∈ k.2)) := by
    rw [hd.checks, Bool.eq_iff_iff, List.any_eq_true, List.any_eq_true]
    refine exists_congr fun k => and_congr_right fun hk => ?_
    rw [h k.1 (hd.checksWithin k hk)]
  rw [TableDef.rowError, TableDef.rowError, hnull, hcheck, hd.name]

omit [DecidableEq κ] in
/-- References are found in both contents or in neither. -/
theorem dangles_eq
    {t : τ} {fks : List (ForeignKey τ κ)}
    (hfks : ForeignWithin cols t fks)
    (hC : Agree cols C C')
    (h : RowsAgree (cols t) r r') :
    dangles fks C r = dangles fks C' r' := by
  rw [dangles, dangles, Bool.eq_iff_iff, List.any_eq_true, List.any_eq_true]
  refine exists_congr fun fk => and_congr_right fun hfk => ?_
  obtain ⟨hcolumn, htarget⟩ := hfks fk hfk
  have hany : (C fk.target).any
        (fun q => decide (q fk.targetColumn = r fk.column)) =
      (C' fk.target).any
        (fun q => decide (q fk.targetColumn = r' fk.column)) :=
    any_eq_of_forall₂ (hC fk.target) (fun q _ q' _ hq => by
      rw [hq _ htarget, h _ hcolumn])
  rw [hany, h _ hcolumn]

end Constraints

section Writes

variable [DecidableEq τ] [DecidableEq κ]
variable {cols : τ → List κ}
variable {C C' : Content τ κ}
variable {d d' : TableDef τ κ ι}
variable {S : Schema τ κ ι}
variable {fk : Bool}

/-- Updates of these columns do the same in both tables. -/
structure UpdateFits
    (cols : τ → List κ)
    (fk : Bool)
    (d d' : TableDef τ κ ι)
    (sets : List κ) : Prop where
  alike : Alike cols d d'
  required : ∀ c ∈ sets, d'.required c = d.required c
  foreignKeys :
    fk = true →
      d'.foreignKeys = d.foreignKeys ∧
        ForeignWithin cols d.name d.foreignKeys

/-- Inserts that give these columns do the same in both tables. -/
structure InsertFits
    (cols : τ → List κ)
    (fk : Bool)
    (d d' : TableDef τ κ ι)
    (columns : List κ)
    (conflict : Conflict κ) : Prop where
  update : UpdateFits cols fk d d' conflict.sets
  filled : d.unfilled columns = false
  filled' : d'.unfilled columns = false
  required : ∀ c ∈ columns, d'.required c = d.required c
  defaults :
    ∀ c ∈ cols d.name, c ∉ columns → d.defaults c = d'.defaults c
  keyWithin : conflict.key.Within (cols d.name)
  setsWithin : ∀ c ∈ conflict.sets, c ∈ cols d.name

omit [DecidableEq τ] in
/-- Updates of agreeing rows give agreeing rows. -/
theorem updateRows_agree
    {sets : List κ} {values values' : Row κ → List Value}
    {cond cond' : Row κ → Bool} {done done' rest rest' : List (Row κ)}
    (hfits : UpdateFits cols fk d d' sets)
    (hC : Agree cols C C')
    (hvalues : ∀ r r', RowsAgree (cols d.name) r r' → values r = values' r')
    (hcond : ∀ r r', RowsAgree (cols d.name) r r' → cond r = cond' r')
    (hdone : List.Forall₂ (RowsAgree (cols d.name)) done done')
    (hrest : List.Forall₂ (RowsAgree (cols d.name)) rest rest') :
    SameOutcome (List.Forall₂ (RowsAgree (cols d.name)))
      (updateRows fk d sets values cond C done rest)
      (updateRows fk d' sets values' cond' C' done' rest') := by
  induction hrest generalizing done done' with
  | nil =>
      exact .ok hdone
  | @cons r r' rest rest' hr hrest ih =>
      simp only [updateRows]
      rw [← hcond r r' hr, ← hvalues r r' hr]
      split
      · have hset : RowsAgree (cols d.name)
            (setColumns sets (values r) r) (setColumns sets (values r) r') :=
          RowsAgree.setColumns sets (values r) (fun c hc _ => hr c hc)
        have hrow : d.rowError sets (setColumns sets (values r) r) =
            d'.rowError sets (setColumns sets (values r) r') :=
          rowError_eq hfits.alike hfits.required
            (fun c hc => setColumns_eq_of_mem hc) hset
        have hkeys : d'.keysOn sets = d.keysOn sets := by
          rw [TableDef.keysOn, TableDef.keysOn, hfits.alike.keys]
        have hkey : d.keyError (d.keysOn sets)
              (setColumns sets (values r) r) (done ++ rest) =
            d'.keyError (d.keysOn sets)
              (setColumns sets (values r) r') (done' ++ rest') :=
          keyError_eq hfits.alike.name
            (fun k hk => hfits.alike.keysWithin k (List.mem_of_mem_filter hk))
            hset (List.rel_append hdone hrest)
        have hdangles : (fk && dangles (d.foreignKeysOn sets) C
              (setColumns sets (values r) r)) =
            (fk && dangles (d'.foreignKeysOn sets) C'
              (setColumns sets (values r) r')) := by
          cases hfk : fk with
          | false =>
              rfl
          | true =>
              obtain ⟨hfks, hwithin⟩ := hfits.foreignKeys hfk
              rw [TableDef.foreignKeysOn, TableDef.foreignKeysOn, hfks]
              rw [dangles_eq (fun k hk =>
                hwithin k (List.mem_of_mem_filter hk)) hC hset]
        rw [hkeys, ← hrow, ← hkey, ← hdangles]
        split
        · exact .error _
        · split
          · exact .error _
          · split
            · exact .error _
            · exact ih (List.rel_append hdone (.cons hset .nil))
      · exact ih (List.rel_append hdone (.cons hr .nil))

theorem updateTable_agree
    {sets : List κ} {values values' : Row κ → List Value}
    {cond cond' : Row κ → Bool}
    (hfits : UpdateFits cols fk d d' sets)
    (hd : d.name ∈ S.names)
    (hC : Related S cols C C')
    (hvalues : ∀ r r', RowsAgree (cols d.name) r r' → values r = values' r')
    (hcond : ∀ r r', RowsAgree (cols d.name) r r' → cond r = cond' r') :
    SameOutcome (Related S cols)
      (updateTable fk d sets values cond C)
      (updateTable fk d' sets values' cond' C') := by
  rw [updateTable, updateTable, hfits.alike.name]
  have hrows := updateRows_agree hfits hC.agree hvalues hcond .nil
    (hC.agree d.name)
  exact hrows.map (fun rows rows' h => hC.update hd h)

/-- The same row is inserted, or the same row is updated. -/
theorem insertRow_agree
    {columns : List κ} {conflict : Conflict κ} {vals : List Value}
    (hfits : InsertFits cols fk d d' columns conflict)
    (hd : d.name ∈ S.names)
    (hC : Related S cols C C') :
    SameOutcome (Related S cols)
      (insertRow fk d columns conflict C vals)
      (insertRow fk d' columns conflict C' vals) := by
  have halike := hfits.update.alike
  have hnew : RowsAgree (cols d.name)
      (setColumns columns vals d.defaults)
      (setColumns columns vals d'.defaults) :=
    RowsAgree.setColumns columns vals hfits.defaults
  have hrecover : ∀ e : SqlError τ κ ι, SameOutcome (Related S cols)
      (conflict.recover C e) (conflict.recover C' e) := by
    intro e
    cases conflict with
    | ignore =>
        exact .ok hC
    | abort =>
        exact .error e
    | target _ _ =>
        exact .error e
  have hrow : d.insertError columns (setColumns columns vals d.defaults) =
      d'.insertError columns (setColumns columns vals d'.defaults) := by
    rw [TableDef.insertError, TableDef.insertError, hfits.filled,
      hfits.filled']
    exact rowError_eq halike hfits.required
      (fun c hc => setColumns_eq_of_mem hc) hnew
  have hhits : conflict.hits (C d.name)
        (setColumns columns vals d.defaults) =
      conflict.hits (C' d.name) (setColumns columns vals d'.defaults) := by
    cases conflict with
    | target key sets =>
        exact any_eq_of_forall₂ (hC.agree d.name)
          (fun q _ q' _ hq => same_eq hfits.keyWithin hnew hq)
    | abort =>
        rfl
    | ignore =>
        rfl
  have hvals : conflict.sets.map (setColumns columns vals d.defaults) =
      conflict.sets.map (setColumns columns vals d'.defaults) :=
    List.map_congr_left (fun c hc => hnew c (hfits.setsWithin c hc))
  have hkey := keyError_eq halike.name halike.keysWithin hnew
    (hC.agree d.name)
  have hdangles : (fk && dangles d.foreignKeys C
        (setColumns columns vals d.defaults)) =
      (fk && dangles d'.foreignKeys C'
        (setColumns columns vals d'.defaults)) := by
    cases hfk : fk with
    | false =>
        rfl
    | true =>
        obtain ⟨hfks, hwithin⟩ := hfits.update.foreignKeys hfk
        rw [hfks, dangles_eq hwithin hC.agree hnew]
  simp only [insertRow]
  rw [← hrow, halike.name, ← hhits, halike.keys, ← hkey, ← hdangles]
  split
  · exact hrecover _
  · split
    · refine updateTable_agree hfits.update hd hC (fun _ _ _ => hvals) ?_
      intro r r' hr
      exact same_eq hfits.keyWithin hnew hr
    · split
      · exact hrecover _
      · split
        · exact .error _
        · exact .ok (hC.update hd
            (List.rel_append (hC.agree d.name) (.cons hnew .nil)))

theorem insertRows_agree
    {columns : List κ} {conflict : Conflict κ}
    (rows : List (List Value))
    (hfits : InsertFits cols fk d d' columns conflict)
    (hd : d.name ∈ S.names)
    (hC : Related S cols C C') :
    SameOutcome (Related S cols)
      (insertRows fk d columns conflict C rows)
      (insertRows fk d' columns conflict C' rows) := by
  induction rows generalizing C C' with
  | nil =>
      exact .ok hC
  | cons vals rest ih =>
      simp only [insertRows]
      exact (insertRow_agree hfits hd hC).bind (fun D D' hD => ih hD)

end Writes

section Deletions

variable [DecidableEq τ] [DecidableEq κ]
variable {cols : τ → List κ}
variable {C C' : Content τ κ}
variable {S S' : Schema τ κ ι}
variable {conn : Connection}
variable {t : τ}
variable {cond cond' : Row κ → Bool}

/-- The tables of the first schema forbid the same deletions in both. -/
structure RestrictAlike
    (cols : τ → List κ)
    (S S' : Schema τ κ ι) : Prop where
  names : ∀ c ∈ S.names, c ∈ S'.names
  same : ∀ c ∈ S.names, S'.restricting c = S.restricting c
  within : ∀ c ∈ S.names, ForeignWithin cols c (S.restricting c)

omit [DecidableEq τ] [DecidableEq κ] in
theorem clings_eq
    {goes goes' : τ → Row κ → Bool} {c : τ} {fk : ForeignKey τ κ}
    (hC : Agree cols C C')
    (hcolumn : fk.column ∈ cols c)
    (htarget : fk.targetColumn ∈ cols fk.target)
    (hgoes : ∀ c, ∀ r ∈ C c, ∀ r' ∈ C' c, RowsAgree (cols c) r r' →
      goes c r = goes' c r') :
    clings C goes c fk = clings C' goes' c fk := by
  refine any_eq_of_forall₂ (hC c) fun r hr r' hr' h => ?_
  have htargets :
      (C fk.target).any (fun q =>
          goes fk.target q && decide (q fk.targetColumn = r fk.column)) =
        (C' fk.target).any (fun q =>
          goes' fk.target q && decide (q fk.targetColumn = r' fk.column)) := by
    refine any_eq_of_forall₂ (hC fk.target) fun q hq q' hq' hqq => ?_
    rw [hgoes _ q hq q' hq' hqq, hqq _ htarget, h _ hcolumn]
  rw [htargets, hgoes c r hr r' hr' h, h _ hcolumn]

omit [DecidableEq κ] in
/-- The rows that stay refer to the same rows that go. -/
theorem blocked_eq
    {goes goes' : τ → Row κ → Bool}
    (hS : RestrictAlike cols S S')
    (hC : Related S cols C C')
    (hgoes : ∀ c, ∀ r ∈ C c, ∀ r' ∈ C' c, RowsAgree (cols c) r r' →
      goes c r = goes' c r') :
    blocked S C goes = blocked S' C' goes' := by
  have hclings : ∀ c ∈ S.names, ∀ fk ∈ S.restricting c,
      clings C goes c fk = clings C' goes' c fk := by
    intro c hc fk hfk
    obtain ⟨hcolumn, htarget⟩ := hS.within c hc fk hfk
    exact clings_eq hC.agree hcolumn htarget hgoes
  rw [blocked, blocked, Bool.eq_iff_iff]
  simp only [List.any_eq_true]
  constructor
  · rintro ⟨c, hc, fk, hfk, h⟩
    refine ⟨c, hS.names c hc, fk, ?_, hclings c hc fk hfk ▸ h⟩
    rwa [hS.same c hc]
  · rintro ⟨c, -, fk, hfk, h⟩
    by_cases hc : c ∈ S.names
    · rw [hS.same c hc] at hfk
      exact ⟨c, hc, fk, hfk, (hclings c hc fk hfk).symm ▸ h⟩
    · simp [clings, hC.absent_right hc] at h

omit [DecidableEq τ] [DecidableEq κ] in
/-- The same rows are filtered out. -/
theorem Related.filter
    {goes goes' : τ → Row κ → Bool}
    (hC : Related S cols C C')
    (hgoes : ∀ c, ∀ r ∈ C c, ∀ r' ∈ C' c, RowsAgree (cols c) r r' →
      goes c r = goes' c r') :
    Related S cols (fun c => (C c).filter (fun r => !goes c r))
      (fun c => (C' c).filter (fun r => !goes' c r)) := by
  refine ⟨fun c => ?_, fun c hc => ?_⟩
  · refine forall₂_filter (hC.agree c) fun r hr r' hr' h => ?_
    rw [hgoes c r hr r' hr' h]
  · rw [hC.absent c hc]
    rfl

omit [DecidableEq κ] in
/-- Deletions of the same rows. -/
theorem deleteRows_agree
    (hS : conn.foreignKeys = true → RestrictAlike cols S S')
    (hC : Related S cols C C')
    (hgone : ∀ c, ∀ r ∈ C c, ∀ r' ∈ C' c, RowsAgree (cols c) r r' →
      gone conn S t cond C c r = gone conn S' t cond' C' c r') :
    SameOutcome (Related S cols)
      (deleteRows conn S t cond C)
      (deleteRows conn S' t cond' C') := by
  have hblocked : (conn.foreignKeys && blocked S C (gone conn S t cond C)) =
      (conn.foreignKeys && blocked S' C' (gone conn S' t cond' C')) := by
    cases hfk : conn.foreignKeys with
    | false =>
        rfl
    | true =>
        rw [blocked_eq (hS hfk) hC hgone]
  rw [deleteRows, deleteRows, ← hblocked]
  split
  · exact .error _
  · exact .ok (hC.filter hgone)

omit [DecidableEq κ] in
/-- Where no deletion is cascaded from the table, only its own rows go. -/
theorem doomed_of_leaf
    (hleaf : ∀ c, ∀ fk ∈ S.foreignKeys c, fk.target = t → fk.cascade = false)
    (n : Nat) (c : τ) (r : Row κ) :
    doomed S t cond C n c r = (decide (c = t) && cond r) := by
  induction n generalizing c r with
  | zero =>
      rfl
  | succ n ih =>
      have hnone : (S.foreignKeys c).any (fun fk =>
          fk.cascade && decide (r fk.column ≠ .null) &&
            (C fk.target).any (fun q =>
              doomed S t cond C n fk.target q &&
                decide (q fk.targetColumn = r fk.column))) = false := by
        rw [List.any_eq_false]
        intro fk hfk
        by_cases htarget : fk.target = t
        · simp [hleaf c fk hfk htarget]
        · simp [ih, htarget]
      rw [doomed, ih, hnone, Bool.or_false]

/-- Deletions are cascaded along the same foreign keys from these tables. -/
structure CascadeAlike
    (cols : τ → List κ)
    (S S' : Schema τ κ ι)
    (X : τ → Prop) : Prop where
  same : ∀ c, X c → S'.foreignKeys c = S.foreignKeys c
  within : ∀ c, X c → ForeignWithin cols c (S.foreignKeys c)
  closed : ∀ c, X c → ∀ fk ∈ S.foreignKeys c, X fk.target

omit [DecidableEq κ] in
theorem doomed_eq
    {X : τ → Prop} {n : Nat} {c : τ} {r r' : Row κ}
    (hX : CascadeAlike cols S S' X)
    (hC : Agree cols C C')
    (hcond : ∀ r r', RowsAgree (cols t) r r' → cond r = cond' r')
    (hc : X c)
    (h : RowsAgree (cols c) r r') :
    doomed S t cond C n c r = doomed S' t cond' C' n c r' := by
  induction n generalizing c r r' with
  | zero =>
      by_cases hct : c = t
      · subst hct
        simp [doomed, hcond r r' h]
      · simp [doomed, hct]
  | succ n ih =>
      rw [doomed, doomed, ih hc h, hX.same c hc]
      congr 1
      rw [Bool.eq_iff_iff, List.any_eq_true, List.any_eq_true]
      refine exists_congr fun fk => and_congr_right fun hfk => ?_
      obtain ⟨hcolumn, htarget⟩ := hX.within c hc fk hfk
      have hany :
          (C fk.target).any (fun q =>
              doomed S t cond C n fk.target q &&
                decide (q fk.targetColumn = r fk.column)) =
            (C' fk.target).any (fun q =>
              doomed S' t cond' C' n fk.target q &&
                decide (q fk.targetColumn = r' fk.column)) := by
        refine any_eq_of_forall₂ (hC fk.target) fun q _ q' _ hq => ?_
        rw [ih (hX.closed c hc fk hfk) hq, hq _ htarget, h _ hcolumn]
      rw [hany, h _ hcolumn]

end Deletions

section Statements

variable [DecidableEq τ] [DecidableEq κ]
variable {cols : τ → List κ}
variable {C C' : Content τ κ}
variable {S S' : Schema τ κ ι}
variable {conn : Connection}

/-- No deletion is cascaded from the table. -/
def Schema.Leaf
    (S : Schema τ κ ι)
    (t : τ) : Prop :=
  ∀ d ∈ S, ∀ fk ∈ d.foreignKeys, fk.target = t → fk.cascade = false

/-- What the statement does fits both schemas. -/
def Effect.Fits
    (cols : τ → List κ)
    (fk : Bool)
    (S S' : Schema τ κ ι) :
    Effect τ κ → Prop
  | .select _ => True
  | .insert t columns conflict _ =>
      ∀ d ∈ S.table? t, ∀ d' ∈ S'.table? t,
        InsertFits cols fk d d' columns conflict
  | .update t sets _ _ =>
      ∀ d ∈ S.table? t, ∀ d' ∈ S'.table? t, UpdateFits cols fk d d' sets
  | .delete t _ =>
      fk = true → S.Leaf t ∧ S'.Leaf t ∧ RestrictAlike cols S S'

/-- The statement fits both schemas. -/
structure Fits
    (cols : τ → List κ)
    (fk : Bool)
    (S S' : Schema τ κ ι)
    (q : Stmt τ κ) : Prop where
  prepared : prepare fk S q = none
  prepared' : prepare fk S' q = none
  reads : ∀ p ∈ q.reads, ∀ c ∈ p.2, c ∈ cols p.1
  effect : q.effect.Fits cols fk S S'

/-- The table that a prepared statement writes. -/
theorem exists_table_of_prepare
    {fk : Bool} {q : Stmt τ κ} {t : τ} {columns : List κ}
    (hprep : prepare fk S q = none)
    (hwritten : q.effect.written = some (t, columns)) :
    ∃ d, S.table? t = some d := by
  have hmem : t ∈ q.names.map Prod.fst := by
    simp [Stmt.names, hwritten]
  exact Option.isSome_iff_exists.mp
    (table?_isSome_iff.mpr (mem_names_of_prepare hprep hmem))

omit [DecidableEq κ] in
/-- A leaf is one in every table that the schema finds. -/
theorem Schema.Leaf.foreignKeys
    {t : τ}
    (h : S.Leaf t)
    (c : τ) :
    ∀ fk ∈ S.foreignKeys c, fk.target = t → fk.cascade = false := by
  intro fk hfk
  unfold Schema.foreignKeys at hfk
  cases hd : S.table? c with
  | none =>
      simp [hd] at hfk
  | some d =>
      rw [hd] at hfk
      exact h d (List.mem_of_find?_eq_some hd) fk hfk

omit [DecidableEq κ] in
/-- A deletion from a leaf deletes the rows that meet the condition. -/
theorem gone_of_leaf
    {t : τ} {cond : Row κ → Bool}
    (h : conn.foreignKeys = true → S.Leaf t)
    (c : τ) (r : Row κ) :
    gone conn S t cond C c r = (decide (c = t) && cond r) := by
  cases hfk : conn.foreignKeys with
  | false =>
      simp [gone, hfk, doomed]
  | true =>
      exact doomed_of_leaf (h hfk).foreignKeys _ c r

/-- A statement that fits both schemas has the same outcome. -/
theorem exec_agree
    {q : Stmt τ κ} {args : Args}
    (hq : Fits cols conn.foreignKeys S S' q)
    (hC : Related S cols C C') :
    SameOutcome (fun x y => x.1 = y.1 ∧ Related S cols x.2 y.2)
      (exec conn S q args C) (exec conn S' q args C') := by
  have hview := view_eq_of_agree hC.agree hq.reads
  have hseen : ∀ t r r', RowsAgree (cols t) r r' →
      restrict (readColumns q.reads t) r =
        restrict (readColumns q.reads t) r' := by
    intro t r r' hr
    refine restrict_eq_of_rowsAgree hr fun c hc => ?_
    obtain ⟨p, hp, rfl, hmem⟩ := mem_readColumns.mp hc
    exact hq.reads p hp c hmem
  have hcount : ∀ t (cond : Row κ → Bool),
      count ((C t).filter
          (fun r => cond (restrict (readColumns q.reads t) r))) =
        count ((C' t).filter
          (fun r => cond (restrict (readColumns q.reads t) r))) := by
    intro t cond
    have hfilter := forall₂_filter (hC.agree t)
      (p := fun r => cond (restrict (readColumns q.reads t) r))
      (fun r _ r' _ hr => by rw [hseen t r r' hr])
    rw [count, count, hfilter.length_eq]
  have hfits := hq.effect
  simp only [exec, hq.prepared, hq.prepared', ← hview]
  cases heff : q.effect with
  | select answer =>
      exact .ok ⟨rfl, hC⟩
  | insert t columns conflict values =>
      obtain ⟨d, hd⟩ := exists_table_of_prepare hq.prepared
        (by rw [heff]; rfl)
      obtain ⟨d', hd'⟩ := exists_table_of_prepare hq.prepared'
        (by rw [heff]; rfl)
      rw [heff] at hfits
      have hname := name_of_table?_eq_some hd
      subst hname
      simp only [Effect.run, hd, hd']
      exact (insertRows_agree _ (hfits d hd d' hd')
        (mem_names_of_table?_eq_some hd) hC).map
          (fun D D' hD => ⟨rfl, hD⟩)
  | update t sets values cond =>
      obtain ⟨d, hd⟩ := exists_table_of_prepare hq.prepared
        (by rw [heff]; rfl)
      obtain ⟨d', hd'⟩ := exists_table_of_prepare hq.prepared'
        (by rw [heff]; rfl)
      rw [heff] at hfits
      have hname := name_of_table?_eq_some hd
      subst hname
      simp only [Effect.run, hd, hd']
      refine (updateTable_agree (hfits d hd d' hd')
        (mem_names_of_table?_eq_some hd) hC ?_ ?_).map
          (fun D D' hD => ⟨hcount _ _, hD⟩)
      · intro r r' hr
        rw [hseen _ r r' hr]
      · intro r r' hr
        rw [hseen _ r r' hr]
  | delete t cond =>
      rw [heff] at hfits
      simp only [Effect.run]
      refine (deleteRows_agree (fun hfk => (hfits hfk).2.2) hC ?_).map
          (fun D D' hD => ⟨hcount _ _, hD⟩)
      intro c r _ r' _ hr
      rw [gone_of_leaf (fun hfk => (hfits hfk).1),
        gone_of_leaf (fun hfk => (hfits hfk).2.1)]
      by_cases hc : c = t
      · subst hc
        rw [hseen _ r r' hr]
      · simp [hc]

end Statements

section Decidability

variable [DecidableEq τ] [DecidableEq κ] [DecidableEq ι]
variable (cols : τ → List κ)
variable (fk : Bool)
variable (S S' : Schema τ κ ι)
variable (d d' : TableDef τ κ ι)

instance
    (columns : List κ)
    (r r' : Row κ) :
    Decidable (RowsAgree columns r r') :=
  inferInstanceAs (Decidable (∀ c ∈ columns, r c = r' c))

instance :
    Decidable (Alike cols d d') :=
  decidable_of_iff
    (d'.name = d.name ∧ d'.keys = d.keys ∧ d'.checks = d.checks ∧
      (∀ k ∈ d.keys, k.Within (cols d.name)) ∧
      ∀ k ∈ d.checks, k.1 ∈ cols d.name)
    ⟨fun ⟨h₁, h₂, h₃, h₄, h₅⟩ => ⟨h₁, h₂, h₃, h₄, h₅⟩,
      fun ⟨h₁, h₂, h₃, h₄, h₅⟩ => ⟨h₁, h₂, h₃, h₄, h₅⟩⟩

instance
    (t : τ)
    (fks : List (ForeignKey τ κ)) :
    Decidable (ForeignWithin cols t fks) :=
  inferInstanceAs (Decidable (∀ fk ∈ fks, _ ∧ _))

instance
    (sets : List κ) :
    Decidable (UpdateFits cols fk d d' sets) :=
  decidable_of_iff
    (Alike cols d d' ∧ (∀ c ∈ sets, d'.required c = d.required c) ∧
      (fk = true → d'.foreignKeys = d.foreignKeys ∧
        ForeignWithin cols d.name d.foreignKeys))
    ⟨fun ⟨h₁, h₂, h₃⟩ => ⟨h₁, h₂, h₃⟩, fun ⟨h₁, h₂, h₃⟩ => ⟨h₁, h₂, h₃⟩⟩

instance
    (columns : List κ)
    (conflict : Conflict κ) :
    Decidable (InsertFits cols fk d d' columns conflict) :=
  decidable_of_iff
    (UpdateFits cols fk d d' conflict.sets ∧
      d.unfilled columns = false ∧ d'.unfilled columns = false ∧
      (∀ c ∈ columns, d'.required c = d.required c) ∧
      (∀ c ∈ cols d.name, c ∉ columns → d.defaults c = d'.defaults c) ∧
      conflict.key.Within (cols d.name) ∧
      ∀ c ∈ conflict.sets, c ∈ cols d.name)
    ⟨fun ⟨h₁, h₂, h₃, h₄, h₅, h₆, h₇⟩ => ⟨h₁, h₂, h₃, h₄, h₅, h₆, h₇⟩,
      fun ⟨h₁, h₂, h₃, h₄, h₅, h₆, h₇⟩ => ⟨h₁, h₂, h₃, h₄, h₅, h₆, h₇⟩⟩

instance
    (t : τ) :
    Decidable (S.Leaf t) :=
  inferInstanceAs (Decidable (∀ d ∈ S, ∀ fk ∈ d.foreignKeys, _ → _))

instance :
    Decidable (RestrictAlike cols S S') :=
  decidable_of_iff
    ((∀ c ∈ S.names, c ∈ S'.names) ∧
      (∀ c ∈ S.names, S'.restricting c = S.restricting c) ∧
      ∀ c ∈ S.names, ForeignWithin cols c (S.restricting c))
    ⟨fun ⟨h₁, h₂, h₃⟩ => ⟨h₁, h₂, h₃⟩, fun ⟨h₁, h₂, h₃⟩ => ⟨h₁, h₂, h₃⟩⟩

instance :
    (e : Effect τ κ) → Decidable (e.Fits cols fk S S')
  | .select _ => isTrue trivial
  | .insert t columns conflict _ =>
      inferInstanceAs (Decidable (∀ d ∈ S.table? t, ∀ d' ∈ S'.table? t,
        InsertFits cols fk d d' columns conflict))
  | .update t sets _ _ =>
      inferInstanceAs (Decidable (∀ d ∈ S.table? t, ∀ d' ∈ S'.table? t,
        UpdateFits cols fk d d' sets))
  | .delete t _ =>
      inferInstanceAs (Decidable
        (fk = true → S.Leaf t ∧ S'.Leaf t ∧ RestrictAlike cols S S'))

instance
    (q : Stmt τ κ) :
    Decidable (Fits cols fk S S' q) :=
  decidable_of_iff
    (prepare fk S q = none ∧ prepare fk S' q = none ∧
      (∀ p ∈ q.reads, ∀ c ∈ p.2, c ∈ cols p.1) ∧
      q.effect.Fits cols fk S S')
    ⟨fun ⟨h₁, h₂, h₃, h₄⟩ => ⟨h₁, h₂, h₃, h₄⟩,
      fun ⟨h₁, h₂, h₃, h₄⟩ => ⟨h₁, h₂, h₃, h₄⟩⟩

end Decidability

end Sql
end Library
end CoopMessenger
