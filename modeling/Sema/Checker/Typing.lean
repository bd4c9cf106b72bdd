import Sema.Tree.Expr
import Sema.Types.Basic

/-!
The static type of an expression, given the types of the variables. Comparisons, logical operators
and negation are truth values; other operators promote; calls and member accesses are not resolved.
-/

namespace Sema

mutual

def Expr.typeIn (resolve? : String → Option Ty) : Expr → Ty
  | .literal ty _ => .ofName ty
  | .identifier name => (resolve? name).getD .unknown
  | .binary op lhs rhs =>
      if op.yieldsBoolean then .boolean
      else Ty.wider (typeOfLocated resolve? lhs) (typeOfLocated resolve? rhs)
  | .unary .not _ _ => .boolean
  | .unary _ operand _ => typeOfLocated resolve? operand
  | .call _ _ | .member _ | .memberCall _ _ _ => .unknown

def typeOfLocated (resolve? : String → Option Ty) : Located Expr → Ty
  | ⟨_, expr⟩ => expr.typeIn resolve?

end

end Sema
