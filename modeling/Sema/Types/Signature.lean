import Sema.Bindings
import Sema.Tree.Program
import Sema.Types.Basic

/-!
Signatures of methods and the catalogue of them. A name has one signature, the first that was
declared; a second declaration is refused and told where the first one is.
-/

namespace Sema

/-- A parameter as calls see it. Its type is that of an element if it is an array. -/
structure ParameterType where
  name : String
  ty : Ty
  isArray : Bool
  deriving DecidableEq, Repr

namespace ParameterType

def ofParameter (parameter : Parameter) : ParameterType :=
  ⟨parameter.name, .ofName parameter.ty, parameter.isArray⟩

def display (parameter : ParameterType) : String := parameter.ty.display ++ " " ++ parameter.name

end ParameterType

structure Signature where
  name : String
  returnTy : Ty
  params : List ParameterType
  line : UInt64
  deriving DecidableEq, Repr

namespace Signature

def display (signature : Signature) : String :=
  signature.returnTy.display ++ " " ++ signature.name ++ "(" ++
    ", ".intercalate (signature.params.map ParameterType.display) ++ ")"

end Signature

/-- A method of the name is declared at the line already. -/
structure AlreadyDeclared where
  line : UInt64
  deriving DecidableEq, Repr

structure Catalogue where
  signatures : Bindings String Signature

namespace Catalogue

def empty : Catalogue := ⟨.empty⟩

def size (catalogue : Catalogue) : Nat := catalogue.signatures.size

def find? (catalogue : Catalogue) (name : String) : Option Signature :=
  catalogue.signatures.find? name

def add (catalogue : Catalogue) (signature : Signature) : Except AlreadyDeclared Catalogue :=
  match catalogue.find? signature.name with
  | some first => .error ⟨first.line⟩
  | none => .ok ⟨catalogue.signatures.bind signature.name signature⟩

end Catalogue

end Sema
