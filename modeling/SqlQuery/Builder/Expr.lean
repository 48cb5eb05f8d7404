import SqlQuery.Builder.Basic

/-!
Expressions from expressions: operators, functions and the stepwise construction of a CASE.
-/

namespace SqlQuery

namespace Expr

def apply (operator : BinaryOperator) (left right : Expr) : Expr :=
  .binary operator [left, right]

def add : Expr → Expr → Expr := apply .add

def sub : Expr → Expr → Expr := apply .sub

def gt : Expr → Expr → Expr := apply .gt

def ge : Expr → Expr → Expr := apply .ge

def lt : Expr → Expr → Expr := apply .lt

def le : Expr → Expr → Expr := apply .le

def and : Expr → Expr → Expr := apply .and

def or : Expr → Expr → Expr := apply .or

def like : Expr → Expr → Expr := apply .like

/-- Equality, which is written with IS when the right side is NULL. -/
def equals (left right : Expr) : Expr :=
  apply (if right.isNull then .is else .eq) left right

/-- Joins several predicates by an operator; a single one is taken as it is. -/
def combine (operator : BinaryOperator) (arguments : Arguments) : Except Error Expr :=
  match arguments.present with
  | [] => .error (.noArgument operator)
  | [only] => .ok only
  | several => .ok (.binary operator several)

def allOf : Arguments → Except Error Expr :=
  combine .and

def anyOf : Arguments → Except Error Expr :=
  combine .or

end Expr

structure OpenCase where
  base : Case
  condition : Expr

namespace CaseOf

/-- The results of the branches, then that of the ELSE. -/
def results (c : Case) : List Expr :=
  c.branches.map BranchOf.result ++ c.otherwise.toList

/-- Checks that the results have a common type, unless the type of one is not known yet. -/
def check (store : Store) (c : Case) : Except Error Unit :=
  match c.results.mapM fun e => (e.type store).toOption with
  | some types => discard (ExprType.unify types "Non-matching types in when")
  | none => .ok ()

def when (c : Case) (predicates : Arguments) : Except Error OpenCase :=
  match predicates.present with
  | [] => .error .noPredicate
  | [only] => .ok ⟨c, only⟩
  | several => .ok ⟨c, .binary .and several⟩

def orElse (store : Store) (c : Case) (otherwise : Expr) : Except Error Case := do
  if c.otherwise.isSome then throw .elseGivenTwice
  let c : Case := { c with otherwise := some otherwise }
  c.check store
  return c

end CaseOf

def OpenCase.yield (store : Store) (w : OpenCase) (result : Expr) : Except Error Case := do
  let c : Case := { w.base with branches := w.base.branches ++ [⟨w.condition, result⟩] }
  c.check store
  return c

def Case.start (predicates : Arguments) : Except Error OpenCase :=
  CaseOf.when ⟨[], none⟩ predicates

def Case.ifThenElse (store : Store) (condition result : Expr) (otherwise : Option Expr) :
    Except Error Case := do
  let c ← (← Case.start [some condition]).yield store result
  match otherwise with
  | some e => c.orElse store e
  | none => return c

end SqlQuery
