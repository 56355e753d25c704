/-!
# Default expressions

The expressions that a column may have as its default value. Parentheses leave no
trace in the tree; numbers keep the spelling they were written in.
-/

namespace SqlDdl

/-- A constant. -/
inductive Literal where
  | null
  | boolean (value : Bool)
  /-- A number as it was written. -/
  | number (text : String)
  | string (value : String)
  deriving DecidableEq, Inhabited

/-- A default expression. -/
inductive Expression where
  | literal (literal : Literal)
  | identifier (name : String)
  | call (name : String) (arguments : List Expression)
  | negate (operand : Expression)
  deriving Inhabited

mutual

/-- Equality of expressions is decided part by part. -/
def Expression.decideEq (a b : Expression) : Decidable (a = b) :=
  match a, b with
  | .literal a, .literal b => decidable_of_iff (a = b) (by simp)
  | .identifier a, .identifier b => decidable_of_iff (a = b) (by simp)
  | .call f as, .call g bs =>
    match decEq f g, Expression.decideEqList as bs with
    | .isTrue hf, .isTrue ha => .isTrue (by simp [hf, ha])
    | .isFalse hf, _ => .isFalse (by simp [hf])
    | _, .isFalse ha => .isFalse (by simp [ha])
  | .negate a, .negate b =>
    match a.decideEq b with
    | .isTrue h => .isTrue (by simp [h])
    | .isFalse h => .isFalse (by simp [h])
  | .literal _, .identifier _ | .literal _, .call _ _ | .literal _, .negate _
  | .identifier _, .literal _ | .identifier _, .call _ _ | .identifier _, .negate _
  | .call _ _, .literal _ | .call _ _, .identifier _ | .call _ _, .negate _
  | .negate _, .literal _ | .negate _, .identifier _ | .negate _, .call _ _ => .isFalse nofun

/-- Equality of lists of expressions is decided member by member. -/
def Expression.decideEqList (as bs : List Expression) : Decidable (as = bs) :=
  match as, bs with
  | [], [] => .isTrue rfl
  | a :: as, b :: bs =>
    match a.decideEq b, Expression.decideEqList as bs with
    | .isTrue h, .isTrue hs => .isTrue (by simp [h, hs])
    | .isFalse h, _ => .isFalse (by simp [h])
    | _, .isFalse hs => .isFalse (by simp [hs])
  | [], _ :: _ | _ :: _, [] => .isFalse nofun

end

instance : DecidableEq Expression := Expression.decideEq

end SqlDdl
