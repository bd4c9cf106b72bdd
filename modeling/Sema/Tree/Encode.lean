import Sema.Json.Record
import Sema.Tree.Program

/-!
Trees in JSON, in the canonical form: every record is an object with all its fields, what is left
out is `null`, and an operator is its symbol.
-/

namespace Sema

open Json (record variantWith)

namespace Position

def toJson (position : Position) : Json :=
  record [("line", .nat position.line.toNat), ("column", .nat position.column.toNat)]

end Position

namespace Located

def toJson {Node : Type} (encode : Node → Json) (node : Located Node) : Json :=
  record [("pos", node.pos.toJson), ("data", encode node.data)]

end Located

namespace Json

def ofCall (name : String) (args : List Json) : Json :=
  record [("name", .text name), ("args", .array args)]

def ofMember (path : List String) (call : Json) : Json :=
  variantWith "MemberAccess" (record [("path", .ofList .text path), ("call", call)])

def ofBlock (statements : List Json) : Json := record [("statements", .array statements)]

end Json

/-! ### Expressions -/

mutual

def Expr.toJson : Expr → Json
  | .literal ty value => variantWith "Literal" (record [("ty", .text ty), ("value", .text value)])
  | .identifier name => variantWith "Identifier" (.text name)
  | .binary op lhs rhs =>
      variantWith "Binary" (record
        [("op", .text op.symbol), ("lhs", exprToJson lhs), ("rhs", exprToJson rhs)])
  | .unary op operand leading =>
      variantWith "Unary" (record
        [("op", .text op.symbol), ("operand", exprToJson operand), ("prefix", .bool leading)])
  | .call name args => variantWith "MethodCall" (.ofCall name (exprsToJson args))
  | .member path => .ofMember path .null
  | .memberCall path name args => .ofMember path (.ofCall name (exprsToJson args))

def exprToJson : Located Expr → Json
  | ⟨pos, expr⟩ => record [("pos", pos.toJson), ("data", expr.toJson)]

def exprsToJson : List (Located Expr) → List Json
  | [] => []
  | expr :: rest => exprToJson expr :: exprsToJson rest

end

def optionalExprToJson : Option (Located Expr) → Json := Json.ofOption exprToJson

/-! ### Statements -/

mutual

def Stmt.toJson : Stmt → Json
  | .declare ty name isArray init =>
      variantWith "VariableDeclaration" (record
        [("ty", .text ty), ("name", .text name), ("is_array", .bool isArray),
          ("init", optionalExprToJson init)])
  | .assign target value =>
      variantWith "Assignment" (record [("target", .text target), ("value", exprToJson value)])
  | .ifElse cond thenBranch elseBranch =>
      variantWith "If" (record
        [("cond", exprToJson cond), ("then_branch", stmtToJson thenBranch),
          ("else_branch", optionalStmtToJson elseBranch)])
  | .whileLoop cond body =>
      variantWith "While" (record [("cond", exprToJson cond), ("body", stmtToJson body)])
  | .doWhileLoop body cond =>
      variantWith "DoWhile" (record [("body", stmtToJson body), ("cond", exprToJson cond)])
  | .forLoop init cond update body =>
      variantWith "For" (record
        [("init", optionalStmtToJson init), ("cond", optionalExprToJson cond),
          ("update", optionalStmtToJson update), ("body", stmtToJson body)])
  | .switch scrutinee arms otherwise =>
      variantWith "Switch" (record
        [("scrutinee", exprToJson scrutinee), ("cases", .array (armsToJson arms)),
          ("default", otherwiseToJson otherwise)])
  | .returning value => variantWith "Return" (optionalExprToJson value)
  | .breaking => .text "Break"
  | .continuing => .text "Continue"
  | .block statements => variantWith "Block" (.ofBlock (stmtsToJson statements))
  | .expression value => variantWith "Expression" (exprToJson value)

def stmtToJson : Located Stmt → Json
  | ⟨pos, stmt⟩ => record [("pos", pos.toJson), ("data", stmt.toJson)]

def stmtsToJson : List (Located Stmt) → List Json
  | [] => []
  | stmt :: rest => stmtToJson stmt :: stmtsToJson rest

def optionalStmtToJson : Option (Located Stmt) → Json
  | none => .null
  | some stmt => stmtToJson stmt

def armsToJson : List (Located (Arm Stmt)) → List Json
  | [] => []
  | ⟨pos, value, body⟩ :: rest =>
      record [("pos", pos.toJson),
        ("data", record [("value", exprToJson value), ("body", .array (stmtsToJson body))])] ::
          armsToJson rest

def otherwiseToJson : Option (Located (List (Located Stmt))) → Json
  | none => .null
  | some ⟨pos, statements⟩ =>
      record [("pos", pos.toJson), ("data", .ofBlock (stmtsToJson statements))]

end

/-! ### Programs -/

namespace Parameter

def toJson (parameter : Parameter) : Json :=
  record [("ty", .text parameter.ty), ("name", .text parameter.name),
    ("is_array", .bool parameter.isArray)]

end Parameter

namespace Field

def toJson (field : Field) : Json :=
  record [("modifiers", .text field.modifiers), ("ty", .text field.ty), ("name", .text field.name),
    ("is_array", .bool field.isArray)]

end Field

namespace Method

def toJson (method : Method) : Json :=
  record [("modifiers", .text method.modifiers), ("return_ty", .text method.returnTy),
    ("name", .text method.name),
    ("params", .ofList (Located.toJson Parameter.toJson) method.params),
    ("body", .array (stmtsToJson method.body))]

end Method

namespace Member

def toJson : Member → Json
  | .field content => variantWith "Field" content.toJson
  | .method content => variantWith "Method" content.toJson

end Member

namespace ClassDecl

def toJson (decl : ClassDecl) : Json :=
  record [("name", .text decl.name), ("modifiers", .text decl.modifiers),
    ("members", .ofList (Located.toJson Member.toJson) decl.members)]

end ClassDecl

namespace Program

def toJson (program : Program) : Json :=
  record [("classes", .ofList (Located.toJson ClassDecl.toJson) program.classes)]

end Program

end Sema
