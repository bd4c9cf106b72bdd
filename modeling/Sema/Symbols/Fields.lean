import Sema.Symbols.Basic
import Sema.Tree.Program

/-!
The fields of a program as variables of the root scope, where every method can see them. A field is
declared at the line of its member, and a later field of the same name takes an earlier one's place.
-/

namespace Sema.Symbols

def declareField (symbols : Symbols) (field : Located Field) : Symbols :=
  symbols.declare field.data.name field.data.ty field.line

def declareFields (symbols : Symbols) (program : Program) : Symbols :=
  program.fields.foldl declareField symbols

end Sema.Symbols
