import SqlQuery.Error

/-!
The common type of several expressions, such as the branches of a CASE or the operands of a sum.
-/

namespace SqlQuery.ExprType

/-- Whether a type takes part in a comparison: it is known, and not that of NULL. -/
def isBinding (type : ExprType) : Bool :=
  type.isKnown && !type.isNull

/-- The type that stands for all the others: the first column type, or else the first of all. -/
def representative? (types : List ExprType) : Option ExprType :=
  (types.find? fun type => type.semantic?.isSome).or types.head?

/-- The type shared by all members of a list. A NULL and an unknown type agree with everything;
a column type stands for the literals that it accepts. -/
def unify (types : List ExprType) (context : String) : Except Error ExprType :=
  let known := types.filter isBinding
  match representative? known with
  | some shared =>
      if known.all (·.agrees shared) then .ok shared else .error (.typeMismatch context known)
  | none => .ok (if types.all isNull then literal .null else unknown)

end SqlQuery.ExprType
