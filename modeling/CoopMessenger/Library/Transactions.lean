import CoopMessenger.Library.SchemaAgreement

/-!
# Programs of statements

A program executes statements one after another and may look at every answer and
every error.  Between `begin` and `commit` it can be rolled back.

**Results.**
* `run_agree`: a program whose statements all fit two schemas gives the same
  result on both, from contents that agree.
-/

namespace CoopMessenger
namespace Library
namespace Sql

section Programs

variable (τ κ ι : Type)

/-- A program with a result. -/
inductive Prog (α : Type) where
  | ret (a : α)
  | exec
      (q : Stmt τ κ)
      (args : List Value)
      (k : Except (SqlError τ κ ι) Answer → Prog α)
  | begin (k : Prog α)
  | commit (k : Prog α)
  | rollback (k : Prog α)

/-- The rows, and those from before the transaction. -/
structure Session where
  content : Content τ κ
  saved : Option (Content τ κ)

end Programs

variable {τ κ ι : Type}
variable {α β : Type}

namespace Prog

/-- One program after another. -/
def bind : Prog τ κ ι α → (α → Prog τ κ ι β) → Prog τ κ ι β
  | .ret a, f => f a
  | .exec q args k, f => .exec q args (fun r => (k r).bind f)
  | .begin k, f => .begin (k.bind f)
  | .commit k, f => .commit (k.bind f)
  | .rollback k, f => .rollback (k.bind f)

instance : Monad (Prog τ κ ι) where
  pure := .ret
  bind := .bind

/-- Runs the program. -/
def run
    [DecidableEq τ] [DecidableEq κ]
    (conn : Connection)
    (S : Schema τ κ ι) :
    Prog τ κ ι α → Session τ κ → α × Session τ κ
  | .ret a, s => (a, s)
  | .exec q args k, s =>
      match Sql.exec conn S q (fun i => args.getD i .null) s.content with
      | .error e => (k (.error e)).run conn S s
      | .ok (answer, content) =>
          (k (.ok answer)).run conn S { s with content }
  | .begin k, s => k.run conn S { s with saved := some s.content }
  | .commit k, s => k.run conn S { s with saved := none }
  | .rollback k, s => k.run conn S ⟨s.saved.getD s.content, none⟩

/-- All statements that the program may execute meet the condition. -/
def Uses
    (P : Stmt τ κ → Prop) :
    Prog τ κ ι α → Prop
  | .ret _ => True
  | .exec q _ k => P q ∧ ∀ r, (k r).Uses P
  | .begin k => k.Uses P
  | .commit k => k.Uses P
  | .rollback k => k.Uses P

variable {P : Stmt τ κ → Prop}

theorem Uses.bind
    {p : Prog τ κ ι α} {f : α → Prog τ κ ι β}
    (hp : p.Uses P)
    (hf : ∀ a, (f a).Uses P) :
    (p.bind f).Uses P := by
  induction p with
  | ret a =>
      exact hf a
  | exec q args k ih =>
      exact ⟨hp.1, fun r => ih r (hp.2 r)⟩
  | begin k ih =>
      exact ih hp
  | commit k ih =>
      exact ih hp
  | rollback k ih =>
      exact ih hp

theorem Uses.mono
    {Q : Stmt τ κ → Prop} {p : Prog τ κ ι α}
    (hPQ : ∀ q, P q → Q q)
    (hp : p.Uses P) :
    p.Uses Q := by
  induction p with
  | ret a =>
      exact trivial
  | exec q args k ih =>
      exact ⟨hPQ q hp.1, fun r => ih r (hp.2 r)⟩
  | begin k ih =>
      exact ih hp
  | commit k ih =>
      exact ih hp
  | rollback k ih =>
      exact ih hp

end Prog

section Agreement

variable [DecidableEq τ] [DecidableEq κ]
variable {cols : τ → List κ}
variable {S S' : Schema τ κ ι}
variable {conn : Connection}

/-- The contents agree, also those from before the transactions. -/
structure RelatedSessions
    (S : Schema τ κ ι)
    (cols : τ → List κ)
    (s s' : Session τ κ) : Prop where
  content : Related S cols s.content s'.content
  saved : Option.Rel (Related S cols) s.saved s'.saved

theorem run_bind
    (p : Prog τ κ ι α) (f : α → Prog τ κ ι β) (s : Session τ κ) :
    (p.bind f).run conn S s =
      (f (p.run conn S s).1).run conn S (p.run conn S s).2 := by
  induction p generalizing s with
  | ret a =>
      rfl
  | exec q args k ih =>
      simp only [Prog.bind, Prog.run]
      split
      · exact ih _ s
      · exact ih _ _
  | begin k ih =>
      exact ih _
  | commit k ih =>
      exact ih _
  | rollback k ih =>
      exact ih _

/-- A program of statements that fit both schemas has the same result. -/
theorem run_agree
    {p : Prog τ κ ι α} {s s' : Session τ κ}
    (hp : p.Uses (Fits cols conn.foreignKeys S S'))
    (hs : RelatedSessions S cols s s') :
    (p.run conn S s).1 = (p.run conn S' s').1 ∧
      RelatedSessions S cols (p.run conn S s).2 (p.run conn S' s').2 := by
  induction p generalizing s s' with
  | ret a =>
      exact ⟨rfl, hs⟩
  | exec q args k ih =>
      have hexec : SameOutcome (fun x y => x.1 = y.1 ∧ Related S cols x.2 y.2)
          (exec conn S q (fun i => args.getD i .null) s.content)
          (exec conn S' q (fun i => args.getD i .null) s'.content) :=
        exec_agree hp.1 hs.content
      simp only [Prog.run]
      generalize exec conn S q (fun i => args.getD i .null) s.content = x
        at hexec ⊢
      generalize exec conn S' q (fun i => args.getD i .null) s'.content = y
        at hexec ⊢
      cases hexec with
      | error e =>
          exact ih _ (hp.2 _) hs
      | @ok a b h =>
          obtain ⟨answer, C⟩ := a
          obtain ⟨answer', C'⟩ := b
          obtain ⟨rfl, hC⟩ := h
          exact ih _ (hp.2 _) ⟨hC, hs.saved⟩
  | begin k ih =>
      exact ih hp ⟨hs.content, .some hs.content⟩
  | commit k ih =>
      exact ih hp ⟨hs.content, .none⟩
  | rollback k ih =>
      obtain ⟨C, saved⟩ := s
      obtain ⟨C', saved'⟩ := s'
      refine ih hp ⟨?_, .none⟩
      cases hs.saved with
      | none =>
          exact hs.content
      | some h =>
          exact h

end Agreement

end Sql
end Library
end CoopMessenger
