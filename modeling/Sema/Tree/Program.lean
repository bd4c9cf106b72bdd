import Sema.Tree.Stmt

/-!
Programs: classes in order, each with its fields and methods in order. Types are given by name;
modifiers are kept as text. A method or field is found where its member is.
-/

namespace Sema

structure Parameter where
  ty : String
  name : String
  isArray : Bool := false
  deriving DecidableEq, Repr

structure Field where
  modifiers : String := ""
  ty : String
  name : String
  isArray : Bool := false
  deriving DecidableEq, Repr

structure Method where
  modifiers : String := ""
  returnTy : String
  name : String
  params : List (Located Parameter)
  body : List (Located Stmt)

inductive Member where
  | field (field : Field)
  | method (method : Method)

structure ClassDecl where
  name : String
  modifiers : String := ""
  members : List (Located Member)

structure Program where
  classes : List (Located ClassDecl)

namespace ClassDecl

def methods (decl : ClassDecl) : List (Located Method) :=
  decl.members.filterMap fun
    | ⟨pos, .method method⟩ => some ⟨pos, method⟩
    | ⟨_, .field _⟩ => none

def fields (decl : ClassDecl) : List (Located Field) :=
  decl.members.filterMap fun
    | ⟨pos, .field field⟩ => some ⟨pos, field⟩
    | ⟨_, .method _⟩ => none

end ClassDecl

namespace Program

/-- The methods of all classes in order. -/
def methods (program : Program) : List (Located Method) :=
  program.classes.flatMap fun decl => decl.data.methods

/-- The fields of all classes in order. -/
def fields (program : Program) : List (Located Field) :=
  program.classes.flatMap fun decl => decl.data.fields

end Program

end Sema
