import CoopMessenger.Library.Relational

/-!
# What statements do to the rows of a table

Every row of a table after a statement comes from a row that was there before, or
it was inserted.

**Results.**
* `exec_spares`: a statement that spares some columns of a table leaves no row with
  new values in them.
* `exec_insert`: the same for an insert, but for the row that it inserts.
* `exec_update` and `exec_delete`: the rows that meet the condition are updated, or
  are gone.
-/

namespace CoopMessenger
namespace Library
namespace Sql

variable {τ κ ι : Type}
variable [DecidableEq τ] [DecidableEq κ]
variable {conn : Connection}
variable {S : Schema τ κ ι}
variable {d : TableDef τ κ ι}
variable {C C' : Content τ κ}
variable {t : τ}
variable {cols : List κ}

section Rows

/-- The columns have the values that they have in one of the rows. -/
def OldIn
    (cols : List κ)
    (rows : List (Row κ))
    (r : Row κ) : Prop :=
  ∃ q ∈ rows, ∀ c ∈ cols, r c = q c

omit [DecidableEq κ] in
theorem OldIn.of_mem
    {rows : List (Row κ)} {r : Row κ}
    (h : r ∈ rows) :
    OldIn cols rows r :=
  ⟨r, h, fun _ _ => rfl⟩

omit [DecidableEq κ] in
theorem OldIn.trans
    {rows rows' : List (Row κ)} {r : Row κ}
    (h : OldIn cols rows' r)
    (hrows : ∀ q ∈ rows', OldIn cols rows q) :
    OldIn cols rows r := by
  obtain ⟨q, hq, hsame⟩ := h
  obtain ⟨p, hp, hsame'⟩ := hrows q hq
  exact ⟨p, hp, fun c hc => (hsame c hc).trans (hsame' c hc)⟩

theorem setColumns_of_not_mem
    {sets : List κ} {vals : List Value} {r : Row κ} {c : κ}
    (hc : c ∉ sets) :
    setColumns sets vals r c = r c :=
  if_neg hc

omit [DecidableEq τ] in
/-- Every row after the update is one that was there, updated if it is chosen. -/
theorem mem_updateRows
    {fk : Bool} {sets : List κ} {values : Row κ → List Value}
    {cond : Row κ → Bool} {done rest rows : List (Row κ)}
    (h : updateRows fk d sets values cond C done rest = .ok rows) :
    ∀ r ∈ rows, r ∈ done ∨ ∃ q ∈ rest,
      r = if cond q then setColumns sets (values q) q else q := by
  induction rest generalizing done with
  | nil =>
      cases h
      exact fun r hr => Or.inl hr
  | cons q rest ih =>
      have hnext : ∀ q', updateRows fk d sets values cond C (done ++ [q']) rest =
          .ok rows → (q' = if cond q then setColumns sets (values q) q else q) →
          ∀ r ∈ rows, r ∈ done ∨ ∃ p ∈ q :: rest,
            r = if cond p then setColumns sets (values p) p else p := by
        intro q' hrest hq' r hr
        rcases ih hrest r hr with hdone | ⟨p, hp, hsame⟩
        · rcases List.mem_append.mp hdone with hdone | hlast
          · exact Or.inl hdone
          · refine Or.inr ⟨q, List.mem_cons_self, ?_⟩
            rw [List.mem_singleton.mp hlast, hq']
        · exact Or.inr ⟨p, List.mem_cons_of_mem q hp, hsame⟩
      simp only [updateRows] at h
      split at h
      case isTrue hcond =>
        split at h
        case h_1 =>
          cases h
        case h_2 =>
          split at h
          case h_1 =>
            cases h
          case h_2 =>
            split at h
            case isTrue =>
              cases h
            case isFalse =>
              exact hnext _ h (by rw [if_pos hcond])
      case isFalse hcond =>
        exact hnext _ h (by rw [if_neg hcond])

theorem updateTable_eq_ok
    {fk : Bool} {sets : List κ} {values : Row κ → List Value}
    {cond : Row κ → Bool}
    (h : updateTable fk d sets values cond C = .ok C') :
    (∀ c, c ≠ d.name → C' c = C c) ∧
      ∀ r ∈ C' d.name, ∃ q ∈ C d.name,
        r = if cond q then setColumns sets (values q) q else q := by
  unfold updateTable at h
  cases hrows : updateRows fk d sets values cond C [] (C d.name) with
  | error e =>
      rw [hrows] at h
      cases h
  | ok rows =>
      rw [hrows] at h
      cases h
      refine ⟨fun c hc => Function.update_of_ne hc _ _, fun r hr => ?_⟩
      rw [Function.update_self] at hr
      rcases mem_updateRows hrows r hr with hdone | hold
      · cases hdone
      · exact hold

/-- An update of other columns. -/
theorem oldIn_of_updateTable
    {fk : Bool} {sets : List κ} {values : Row κ → List Value}
    {cond : Row κ → Bool}
    (h : updateTable fk d sets values cond C = .ok C')
    (hsets : ∀ c ∈ cols, c ∉ sets) :
    ∀ r ∈ C' d.name, OldIn cols (C d.name) r := by
  intro r hr
  obtain ⟨q, hq, rfl⟩ := (updateTable_eq_ok h).2 r hr
  refine ⟨q, hq, fun c hc => ?_⟩
  split
  case isTrue =>
    exact setColumns_of_not_mem (hsets c hc)
  case isFalse =>
    rfl

/-- An insert that updates other columns of a row that is there. -/
theorem insertRow_eq_ok
    {fk : Bool} {columns : List κ} {conflict : Conflict κ}
    {vals : List Value}
    (h : insertRow fk d columns conflict C vals = .ok C')
    (hsets : ∀ c ∈ cols, c ∉ conflict.sets) :
    (∀ c, c ≠ d.name → C' c = C c) ∧
      ∀ r ∈ C' d.name, OldIn cols (C d.name) r ∨
        r = setColumns columns vals d.defaults := by
  have hsame : C' = C → (∀ c, c ≠ d.name → C' c = C c) ∧
      ∀ r ∈ C' d.name, OldIn cols (C d.name) r ∨
        r = setColumns columns vals d.defaults := by
    rintro rfl
    exact ⟨fun _ _ => rfl, fun r hr => Or.inl (.of_mem hr)⟩
  have hrecover : ∀ e : SqlError τ κ ι, conflict.recover C e = .ok C' →
      C' = C := by
    intro e he
    cases conflict with
    | ignore =>
        exact (Except.ok.inj he).symm
    | abort =>
        cases he
    | target columns sets =>
        cases he
  simp only [insertRow] at h
  split at h
  case h_1 e he =>
    exact hsame (hrecover e h)
  case h_2 =>
    split at h
    case isTrue =>
      exact ⟨(updateTable_eq_ok h).1,
        fun r hr => Or.inl (oldIn_of_updateTable h hsets r hr)⟩
    case isFalse =>
      split at h
      case h_1 e he =>
        exact hsame (hrecover e h)
      case h_2 =>
        split at h
        case isTrue =>
          cases h
        case isFalse =>
          cases h
          refine ⟨fun c hc => Function.update_of_ne hc _ _, fun r hr => ?_⟩
          rw [Function.update_self] at hr
          rcases List.mem_append.mp hr with hr | hr
          · exact Or.inl (.of_mem hr)
          · exact Or.inr (List.mem_singleton.mp hr)

theorem insertRows_eq_ok
    {fk : Bool} {columns : List κ} {conflict : Conflict κ}
    {rows : List (List Value)}
    (h : insertRows fk d columns conflict C rows = .ok C')
    (hsets : ∀ c ∈ cols, c ∉ conflict.sets) :
    (∀ c, c ≠ d.name → C' c = C c) ∧
      ∀ r ∈ C' d.name, OldIn cols (C d.name) r ∨
        ∃ vals ∈ rows, ∀ c ∈ cols, r c = setColumns columns vals d.defaults c := by
  induction rows generalizing C with
  | nil =>
      cases h
      exact ⟨fun _ _ => rfl, fun r hr => Or.inl (.of_mem hr)⟩
  | cons vals rest ih =>
      simp only [insertRows] at h
      cases hrow : insertRow fk d columns conflict C vals with
      | error e =>
          rw [hrow] at h
          cases h
      | ok C₁ =>
          rw [hrow] at h
          obtain ⟨hothers, hnew⟩ := insertRow_eq_ok hrow hsets
          obtain ⟨hothers', hnew'⟩ := ih h
          refine ⟨fun c hc => (hothers' c hc).trans (hothers c hc), fun r hr => ?_⟩
          rcases hnew' r hr with ⟨q, hq, hsame⟩ | ⟨vals', hvals', hsame⟩
          · rcases hnew q hq with hold | rfl
            · obtain ⟨p, hp, hsame'⟩ := hold
              exact Or.inl ⟨p, hp, fun c hc => (hsame c hc).trans (hsame' c hc)⟩
            · exact Or.inr ⟨vals, List.mem_cons_self, hsame⟩
          · exact Or.inr ⟨vals', List.mem_cons_of_mem vals hvals', hsame⟩

omit [DecidableEq κ] in
/-- The chosen rows are among those that are deleted. -/
theorem doomed_of_cond
    {cond : Row κ → Bool} {r : Row κ}
    (h : cond r = true)
    (n : Nat) :
    doomed S t cond C n t r = true := by
  induction n with
  | zero =>
      simp [doomed, h]
  | succ n ih =>
      simp [doomed, ih]

omit [DecidableEq κ] in
theorem deleteRows_eq_ok
    {cond : Row κ → Bool}
    (h : deleteRows conn S t cond C = .ok C') :
    (∀ c, ∀ r ∈ C' c, r ∈ C c) ∧ ∀ r ∈ C' t, cond r = false := by
  unfold deleteRows at h
  split at h
  case isTrue =>
    cases h
  case isFalse =>
    cases h
    refine ⟨fun c r hr => List.mem_of_mem_filter hr, fun r hr => ?_⟩
    have hstays := (List.mem_filter.mp hr).2
    by_contra hcond
    have hgone : gone conn S t cond C t r = true :=
      doomed_of_cond (by simpa using hcond) _
    rw [hgone] at hstays
    cases hstays

end Rows

section Statements

variable {q : Stmt τ κ}
variable {args : Args}
variable {answer : Answer}

/-- No statement but an insert into the table, or an update of one of the columns. -/
def Effect.spares
    (t : τ)
    (cols : List κ) : Effect τ κ → Bool
  | .select _ => true
  | .insert t' _ _ _ => decide (t' ≠ t)
  | .update t' sets _ _ => decide (t' = t → ∀ c ∈ cols, c ∉ sets)
  | .delete _ _ => true

omit [DecidableEq τ] [DecidableEq κ] in
theorem exists_of_map_eq_ok
    {α β : Type} {x : Except (SqlError τ κ ι) α} {f : α → β} {b : β}
    (h : x.map f = .ok b) :
    ∃ a, x = .ok a ∧ f a = b := by
  cases x with
  | error e =>
      cases h
  | ok a =>
      exact ⟨a, rfl, Except.ok.inj h⟩

theorem run_of_exec
    (h : exec conn S q args C = .ok (answer, C')) :
    q.effect.run conn S args (view q.reads C)
      (fun t => restrict (readColumns q.reads t)) C = .ok (answer, C') := by
  unfold exec at h
  split at h
  · cases h
  · exact h

/-- A statement that spares the columns of a table. -/
theorem exec_spares
    (h : exec conn S q args C = .ok (answer, C'))
    (hspares : q.effect.spares t cols = true) :
    ∀ r ∈ C' t, OldIn cols (C t) r := by
  have hrun := run_of_exec h
  cases heff : q.effect with
  | select _ =>
      rw [heff] at hrun
      cases hrun
      exact fun r hr => .of_mem hr
  | insert t' columns conflict values =>
      rw [heff] at hrun hspares
      simp only [Effect.run] at hrun
      split at hrun
      case h_1 =>
        cases hrun
      case h_2 d hd =>
        obtain ⟨C₁, hrows, heq⟩ := exists_of_map_eq_ok hrun
        cases heq
        have hne : t ≠ d.name := by
          rw [name_of_table?_eq_some hd]
          exact (of_decide_eq_true hspares).symm
        have hnone : ∀ c ∈ ([] : List κ), c ∉ conflict.sets := by simp
        have hothers := (insertRows_eq_ok hrows hnone).1
        intro r hr
        rw [hothers t hne] at hr
        exact .of_mem hr
  | update t' sets values cond =>
      rw [heff] at hrun hspares
      simp only [Effect.run] at hrun
      split at hrun
      case h_1 =>
        cases hrun
      case h_2 d hd =>
        obtain ⟨C₁, hrows, heq⟩ := exists_of_map_eq_ok hrun
        cases heq
        have hname := name_of_table?_eq_some hd
        by_cases ht : t' = t
        · have hsets := of_decide_eq_true hspares ht
          rw [← ht, ← hname]
          exact oldIn_of_updateTable hrows hsets
        · intro r hr
          rw [(updateTable_eq_ok hrows).1 t (by rw [hname]; exact Ne.symm ht)] at hr
          exact .of_mem hr
  | delete t' cond =>
      rw [heff] at hrun
      obtain ⟨C₁, hrows, heq⟩ := exists_of_map_eq_ok hrun
      cases heq
      exact fun r hr => .of_mem ((deleteRows_eq_ok hrows).1 t r hr)

/-- An insert that finds a row sets other columns of it. -/
theorem exec_insert
    {columns : List κ} {conflict : Conflict κ}
    {values : Args → Content τ κ → List (List Value)}
    (h : exec conn S q args C = .ok (answer, C'))
    (heff : q.effect = .insert t columns conflict values)
    (hsets : ∀ c ∈ cols, c ∉ conflict.sets) :
    ∀ r ∈ C' t, OldIn cols (C t) r ∨
      ∃ vals ∈ values args (view q.reads C), ∃ defaults,
        ∀ c ∈ cols, r c = setColumns columns vals defaults c := by
  have hrun := run_of_exec h
  rw [heff] at hrun
  simp only [Effect.run] at hrun
  split at hrun
  case h_1 =>
    cases hrun
  case h_2 d hd =>
    obtain ⟨C₁, hrows, heq⟩ := exists_of_map_eq_ok hrun
    cases heq
    have hname := name_of_table?_eq_some hd
    intro r hr
    rcases (insertRows_eq_ok hrows hsets).2 r (hname ▸ hr) with hold | hnew
    · exact Or.inl (hname ▸ hold)
    · obtain ⟨vals, hvals, hsame⟩ := hnew
      exact Or.inr ⟨vals, hvals, d.defaults, hsame⟩

/-- The rows that meet the condition are updated. -/
theorem exec_update
    {sets : List κ} {values : Args → Content τ κ → Row κ → List Value}
    {cond : Args → Content τ κ → Row κ → Bool}
    (h : exec conn S q args C = .ok (answer, C'))
    (heff : q.effect = .update t sets values cond) :
    ∀ r ∈ C' t, ∃ p ∈ C t,
      r = if cond args (view q.reads C) (restrict (readColumns q.reads t) p) then
          setColumns sets (values args (view q.reads C)
            (restrict (readColumns q.reads t) p)) p
        else
          p := by
  have hrun := run_of_exec h
  rw [heff] at hrun
  simp only [Effect.run] at hrun
  split at hrun
  case h_1 =>
    cases hrun
  case h_2 d hd =>
    obtain ⟨C₁, hrows, heq⟩ := exists_of_map_eq_ok hrun
    cases heq
    have hname := name_of_table?_eq_some hd
    intro r hr
    exact hname ▸ (updateTable_eq_ok hrows).2 r (hname ▸ hr)

/-- The rows that meet the condition are gone. -/
theorem exec_delete
    {cond : Args → Content τ κ → Row κ → Bool}
    (h : exec conn S q args C = .ok (answer, C'))
    (heff : q.effect = .delete t cond) :
    ∀ r ∈ C' t,
      cond args (view q.reads C) (restrict (readColumns q.reads t) r) = false := by
  have hrun := run_of_exec h
  rw [heff] at hrun
  obtain ⟨C₁, hrows, heq⟩ := exists_of_map_eq_ok hrun
  cases heq
  exact (deleteRows_eq_ok hrows).2

end Statements

end Sql
end Library
end CoopMessenger
