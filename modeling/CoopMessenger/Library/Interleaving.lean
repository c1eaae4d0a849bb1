import CoopMessenger.Library.Transactions

/-!
# Programs that interleave

Programs on connections of their own work on the same rows.  A program advances by
a statement outside of transactions, or by a whole transaction, because
transactions are serialized.

**Results.**
* `advance_keeps`: what every statement keeps is kept by every advance.
* `advance_of_short`: a program of one statement ends with it.
* `finish_bind`: what a transaction does is what its program does when it runs alone.
-/

namespace CoopMessenger
namespace Library
namespace Sql

variable {τ κ ι : Type}
variable {α β : Type}

namespace Prog

section Definitions

/-- Is the program at its end, and with which result? -/
def result? : Prog τ κ ι α → Option α
  | .ret a => some a
  | _ => none

/-- All statements that the program may execute meet the condition, with their arguments. -/
def Executes
    (P : Stmt τ κ → List Value → Prop) :
    Prog τ κ ι α → Prop
  | .ret _ => True
  | .exec q args k => P q args ∧ ∀ r, (k r).Executes P
  | .begin k => k.Executes P
  | .commit k => k.Executes P
  | .rollback k => k.Executes P

/-- The program contains no transactions. -/
def Plain : Prog τ κ ι α → Prop
  | .ret _ => True
  | .exec _ _ k => ∀ r, (k r).Plain
  | .begin _ => False
  | .commit _ => False
  | .rollback _ => False

/-- The program executes one statement at most. -/
def Short : Prog τ κ ι α → Prop
  | .ret _ => True
  | .exec _ _ k => ∀ r, ∃ a, k r = .ret a
  | .begin _ => False
  | .commit _ => False
  | .rollback _ => False

variable [DecidableEq τ] [DecidableEq κ]
variable (conn : Connection)
variable (S : Schema τ κ ι)

/-- Runs the program to the end of a transaction that began with the rows `saved`. -/
def finish
    (saved : Content τ κ) :
    Prog τ κ ι α → Content τ κ → Prog τ κ ι α × Content τ κ
  | .ret a, C => (.ret a, C)
  | .exec q args k, C =>
      match Sql.exec conn S q (fun i => args.getD i .null) C with
      | .error e => (k (.error e)).finish saved C
      | .ok (answer, C') => (k (.ok answer)).finish saved C'
  | .begin k, C => k.finish saved C
  | .commit k, C => (k, C)
  | .rollback k, _ => (k, saved)

/-- Executes the next statement or the next transaction. -/
def advance :
    Prog τ κ ι α → Content τ κ → Prog τ κ ι α × Content τ κ
  | .ret a, C => (.ret a, C)
  | .exec q args k, C =>
      match Sql.exec conn S q (fun i => args.getD i .null) C with
      | .error e => (k (.error e), C)
      | .ok (answer, C') => (k (.ok answer), C')
  | .begin k, C => k.finish conn S C C
  | .commit k, C => (k, C)
  | .rollback k, C => (k, C)

end Definitions

section Rules

variable {P : Stmt τ κ → List Value → Prop}

theorem Executes.bind
    {p : Prog τ κ ι α} {f : α → Prog τ κ ι β}
    (hp : p.Executes P)
    (hf : ∀ a, (f a).Executes P) :
    (p.bind f).Executes P := by
  induction p with
  | ret a =>
      exact hf a
  | exec q args k ih =>
      exact ⟨hp.1, fun r => ih r (hp.2 r)⟩
  | begin k ih =>
      exact ih hp
  | commit k ih =>
      exact ih hp
  | rollback k ih =>
      exact ih hp

/-- Statements that meet the condition with all arguments. -/
theorem Uses.executes
    {Q : Stmt τ κ → Prop} {p : Prog τ κ ι α}
    (hp : p.Uses Q)
    (hQ : ∀ q args, Q q → P q args) :
    p.Executes P := by
  induction p with
  | ret a =>
      exact trivial
  | exec q args k ih =>
      exact ⟨hQ q args hp.1, fun r => ih r (hp.2 r)⟩
  | begin k ih =>
      exact ih hp
  | commit k ih =>
      exact ih hp
  | rollback k ih =>
      exact ih hp

theorem Plain.bind
    {p : Prog τ κ ι α} {f : α → Prog τ κ ι β}
    (hp : p.Plain)
    (hf : ∀ a, (f a).Plain) :
    (p.bind f).Plain := by
  induction p with
  | ret a =>
      exact hf a
  | exec q args k ih =>
      exact fun r => ih r (hp r)
  | begin k ih =>
      cases hp
  | commit k ih =>
      cases hp
  | rollback k ih =>
      cases hp

theorem Short.bind_ret
    {p : Prog τ κ ι α} {f : α → Prog τ κ ι β}
    (hp : p.Short)
    (hf : ∀ a, ∃ b, f a = .ret b) :
    (p.bind f).Short := by
  cases p with
  | ret a =>
      obtain ⟨b, hb⟩ := hf a
      simp only [Prog.bind, hb]
      trivial
  | exec q args k =>
      intro r
      obtain ⟨a, ha⟩ := hp r
      obtain ⟨b, hb⟩ := hf a
      exact ⟨b, by simp only [ha, Prog.bind, hb]⟩
  | begin k =>
      cases hp
  | commit k =>
      cases hp
  | rollback k =>
      cases hp

end Rules

section Advance

variable [DecidableEq τ] [DecidableEq κ]
variable {conn : Connection}
variable {S : Schema τ κ ι}
variable {C saved : Content τ κ}
variable {P : Stmt τ κ → List Value → Prop}
variable {I : Content τ κ → Prop}

theorem finish_keeps
    (hkeep : ∀ q args C answer C', P q args → I C →
      Sql.exec conn S q (fun i => args.getD i .null) C = .ok (answer, C') → I C')
    {p : Prog τ κ ι α}
    (hp : p.Executes P)
    (hsaved : I saved)
    (hC : I C) :
    (p.finish conn S saved C).1.Executes P ∧ I (p.finish conn S saved C).2 := by
  induction p generalizing C with
  | ret a =>
      exact ⟨trivial, hC⟩
  | exec q args k ih =>
      simp only [finish]
      split
      case h_1 e hexec =>
        exact ih _ (hp.2 _) hC
      case h_2 answer C' hexec =>
        exact ih _ (hp.2 _) (hkeep q args C answer C' hp.1 hC hexec)
  | begin k ih =>
      exact ih hp hC
  | commit k ih =>
      exact ⟨hp, hC⟩
  | rollback k ih =>
      exact ⟨hp, hsaved⟩

/-- What all statements of a program keep is kept when it advances. -/
theorem advance_keeps
    (hkeep : ∀ q args C answer C', P q args → I C →
      Sql.exec conn S q (fun i => args.getD i .null) C = .ok (answer, C') → I C')
    {p : Prog τ κ ι α}
    (hp : p.Executes P)
    (hC : I C) :
    (p.advance conn S C).1.Executes P ∧ I (p.advance conn S C).2 := by
  cases p with
  | ret a =>
      exact ⟨trivial, hC⟩
  | exec q args k =>
      simp only [advance]
      split
      case h_1 e hexec =>
        exact ⟨hp.2 _, hC⟩
      case h_2 answer C' hexec =>
        exact ⟨hp.2 _, hkeep q args C answer C' hp.1 hC hexec⟩
  | begin k =>
      exact finish_keeps hkeep hp hC hC
  | commit k =>
      exact ⟨hp, hC⟩
  | rollback k =>
      exact ⟨hp, hC⟩

theorem finish_bind
    {p : Prog τ κ ι α} {f : α → Prog τ κ ι β}
    (hp : p.Plain)
    (C saved : Content τ κ)
    (before : Option (Content τ κ)) :
    (p.bind f).finish conn S saved C =
      (f (p.run conn S ⟨C, before⟩).1).finish conn S saved
        (p.run conn S ⟨C, before⟩).2.content := by
  induction p generalizing C with
  | ret a =>
      rfl
  | exec q args k ih =>
      simp only [bind, finish, run]
      generalize Sql.exec conn S q (fun i => args.getD i .null) C = r
      cases r with
      | error e =>
          exact ih _ (hp _) C
      | ok result =>
          exact ih _ (hp _) result.2
  | begin k ih =>
      cases hp
  | commit k ih =>
      cases hp
  | rollback k ih =>
      cases hp

/-- A program of one statement is at its end after it. -/
theorem advance_of_short
    {p : Prog τ κ ι α}
    (hp : p.Short)
    (C : Content τ κ) :
    p.advance conn S C =
      (.ret (p.run conn S ⟨C, none⟩).1, (p.run conn S ⟨C, none⟩).2.content) := by
  cases p with
  | ret a =>
      rfl
  | exec q args k =>
      simp only [advance, run]
      generalize Sql.exec conn S q (fun i => args.getD i .null) C = r
      cases r with
      | error e =>
          obtain ⟨a, ha⟩ := hp (.error e)
          simp only [ha, run]
      | ok result =>
          obtain ⟨a, ha⟩ := hp (.ok result.1)
          simp only [ha, run]
  | begin k =>
      cases hp
  | commit k =>
      cases hp
  | rollback k =>
      cases hp

end Advance

end Prog

end Sql
end Library
end CoopMessenger
