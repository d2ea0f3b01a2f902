import Mathlib.Data.List.Infix
import Mathlib.Logic.Function.Basic
import Mathlib.Logic.Function.Iterate

/-! # Tables, foreign keys and triggers

What is declared about the tables of a database: checks and keys of their rows,
foreign keys that let the rows of the child follow a deleted row or keep it from
being deleted, and triggers that refuse a kind of statement. A statement that
breaks a declaration is refused as a whole. A table whose rows may be neither
updated nor deleted nor truncated only grows, whatever is done to the others.
-/

namespace KitchenSense

variable {τ κ : Type} {ρ : τ → Type}

inductive Verb
  | insert
  | update
  | delete
  | truncate
  deriving DecidableEq

abbrev Tables (ρ : τ → Type) := ∀ t, List (ρ t)

/-- A column of the child that refers to a key of the parent. -/
structure ForeignKey (ρ : τ → Type) (κ : Type) where
  child : τ
  parent : τ
  column : ρ child → κ
  key : ρ parent → κ
  /-- `ON DELETE CASCADE`; else a row that is referred to is not deleted. -/
  cascades : Bool

structure Declarations (ρ : τ → Type) (κ : Type) where
  check (t : τ) : ρ t → Bool
  /-- Whether the keys of a table admit two rows together. -/
  distinct (t : τ) : ρ t → ρ t → Bool
  foreignKeys : List (ForeignKey ρ κ)
  /-- Whether a trigger refuses every statement of a kind. -/
  refuses : τ → Verb → Bool

/-- A statement; the condition of an `UPDATE` is part of what it sets. -/
inductive SqlStatement (ρ : τ → Type)
  | insert (t : τ) (rows : List (ρ t))
  | update (t : τ) (set : ρ t → ρ t)
  | delete (t : τ) (condition : ρ t → Bool)
  | truncate (tables : List τ) (cascade : Bool)

namespace ForeignKey

variable [DecidableEq κ]

/-- A row of the parent has the key that a row of the child refers to. -/
def resolves (fk : ForeignKey ρ κ) (db : Tables ρ) (row : ρ fk.child) : Bool :=
  (db fk.parent).any fun r => fk.key r = fk.column row

def holds (fk : ForeignKey ρ κ) (db : Tables ρ) : Bool := (db fk.child).all (fk.resolves db)

end ForeignKey

namespace Declarations

variable [DecidableEq τ] [DecidableEq κ]

def admits (D : Declarations ρ κ) (t : τ) (rows : List (ρ t)) : Bool :=
  rows.all (D.check t) && decide (rows.Pairwise fun a b => D.distinct t a b = true)

def references (D : Declarations ρ κ) (db : Tables ρ) : Bool :=
  D.foreignKeys.all fun fk => fk.holds db

def accept (D : Declarations ρ κ) (t : τ) (db : Tables ρ) : Option (Tables ρ) :=
  if D.admits t (db t) && D.references db then some db else none

/-- Delete the children of deleted rows. A trigger of the child can refuse that, and then they are
left without their parent. -/
def follow (D : Declarations ρ κ) (db : Tables ρ) (fk : ForeignKey ρ κ) : Tables ρ :=
  if fk.cascades && !D.refuses fk.child .delete then
    Function.update db fk.child ((db fk.child).filter (fk.resolves db))
  else db

def prune (D : Declarations ρ κ) (db : Tables ρ) : Tables ρ := D.foreignKeys.foldl D.follow db

def spread (D : Declarations ρ κ) (tables : List τ) : List τ :=
  D.foreignKeys.foldl (fun tables fk =>
    if tables.contains fk.parent then fk.child :: tables else tables) tables

/-- The tables that a `TRUNCATE` empties. -/
def targets (D : Declarations ρ κ) (tables : List τ) (cascade : Bool) : List τ :=
  if cascade then D.spread^[D.foreignKeys.length] tables else tables

def cutsOff (D : Declarations ρ κ) (tables : List τ) : Bool :=
  D.foreignKeys.any fun fk => tables.contains fk.parent && !tables.contains fk.child

def emptied (tables : List τ) (db : Tables ρ) : Tables ρ :=
  fun t => if tables.contains t then [] else db t

def exec (D : Declarations ρ κ) (db : Tables ρ) : SqlStatement ρ → Option (Tables ρ)
  | .insert t rows =>
    if D.refuses t .insert then none
    else D.accept t (Function.update db t (db t ++ rows))
  | .update t set =>
    if D.refuses t .update then none
    else D.accept t (Function.update db t ((db t).map set))
  | .delete t condition =>
    if D.refuses t .delete then none
    else
      let db := D.prune^[D.foreignKeys.length]
        (Function.update db t ((db t).filter fun row => !condition row))
      if D.references db then some db else none
  | .truncate tables cascade =>
    let tables := D.targets tables cascade
    if tables.any (D.refuses · .truncate) || D.cutsOff tables then none
    else some (emptied tables db)

section Accepted

omit [DecidableEq τ]

variable {D : Declarations ρ κ} {db db' : Tables ρ} {t : τ}

theorem accept_eq_some : D.accept t db = some db' ↔
    (D.admits t (db t) = true ∧ D.references db = true) ∧ db = db' := by
  rw [accept, Option.ite_none_right_eq_some, Bool.and_eq_true, Option.some_inj]

end Accepted

section Execution

variable {D : Declarations ρ κ} {db db' : Tables ρ} {t : τ} {statement : SqlStatement ρ}
  {tables : List τ} {cascade : Bool}

theorem emptied_of_not_mem (h : t ∉ tables) : emptied tables db t = db t := by
  simp [emptied, h]

theorem exec_truncate_eq_some : D.exec db (.truncate tables cascade) = some db' ↔
    (∀ t ∈ D.targets tables cascade, D.refuses t .truncate = false) ∧
    (∀ fk ∈ D.foreignKeys, fk.parent ∈ D.targets tables cascade →
      fk.child ∈ D.targets tables cascade) ∧
    emptied (D.targets tables cascade) db = db' := by
  rw [exec, Option.ite_none_left_eq_some, Option.some_inj]
  simp [cutsOff, and_assoc]

theorem follow_of_refuses (h : D.refuses t .delete = true) (fk : ForeignKey ρ κ) :
    D.follow db fk t = db t := by
  rw [follow]
  split
  next hc =>
    rw [Function.update_of_ne]
    rintro rfl
    simp [h] at hc
  next => rfl

theorem prune_of_refuses (h : D.refuses t .delete = true) : D.prune db t = db t := by
  rw [prune]
  induction D.foreignKeys generalizing db with
  | nil => rfl
  | cons fk fks ih => rw [List.foldl_cons, ih, follow_of_refuses h]

theorem iterate_prune_of_refuses (h : D.refuses t .delete = true) (n : ℕ) :
    D.prune^[n] db t = db t := by
  induction n generalizing db with
  | zero => rfl
  | succ n ih => rw [Function.iterate_succ_apply, ih, prune_of_refuses h]

structure Guards (D : Declarations ρ κ) (t : τ) : Prop where
  update : D.refuses t .update = true
  delete : D.refuses t .delete = true
  truncate : D.refuses t .truncate = true

/-- A guarded table stays as it is, or has rows inserted that its checks and keys admit. -/
theorem Guards.exec (hg : D.Guards t) (h : D.exec db statement = some db') :
    db' t = db t ∨ ∃ rows, statement = .insert t rows ∧ db' t = db t ++ rows ∧
      D.admits t (db' t) = true := by
  cases statement with
  | insert u rows =>
    rw [Declarations.exec, Option.ite_none_left_eq_some, accept_eq_some] at h
    obtain ⟨-, ⟨ha, -⟩, rfl⟩ := h
    by_cases hu : t = u
    · subst hu
      exact .inr ⟨rows, rfl, Function.update_self .., ha⟩
    · exact .inl (Function.update_of_ne hu ..)
  | update u set =>
    rw [Declarations.exec, Option.ite_none_left_eq_some, accept_eq_some] at h
    obtain ⟨hu, -, rfl⟩ := h
    refine .inl (Function.update_of_ne ?_ ..)
    rintro rfl
    exact hu hg.update
  | delete u condition =>
    rw [Declarations.exec, Option.ite_none_left_eq_some] at h
    obtain ⟨hu, h⟩ := h
    rw [Option.ite_none_right_eq_some] at h
    obtain ⟨-, ⟨⟩⟩ := h
    left
    rw [iterate_prune_of_refuses hg.delete]
    refine Function.update_of_ne ?_ ..
    rintro rfl
    exact hu hg.delete
  | truncate tables cascade =>
    obtain ⟨hr, -, rfl⟩ := exec_truncate_eq_some.mp h
    refine .inl (emptied_of_not_mem fun hm => ?_)
    exact absurd hg.truncate (by simp [hr t hm])

end Execution

end Declarations

end KitchenSense
