/-!
The arguments of a command line by their form alone: files, options, and the mark after which every
argument is a file. What an equals sign attaches to an option is its value, and further equals signs
before the value count for nothing.
-/

namespace Sema.Cli

inductive Argument where
  | file (path : String)
  | option (name : String) (attached : Option String)
  | endOfOptions
  deriving DecidableEq, Repr

namespace Argument

/-- The value in what follows the name of an option, if anything does. -/
def attached? (rest : List Char) : Option String :=
  if rest.isEmpty then none else some (String.ofList (rest.dropWhile (· == '=')))

/-- A long name reaches to the first equals sign. Of the dashes in front only two count. -/
def ofLong (text : List Char) : Argument :=
  let text := text.dropWhile (· == '-')
  .option (String.ofList ('-' :: '-' :: text.takeWhile (· != '=')))
    (attached? (text.dropWhile (· != '=')))

/-- A short name is a single character. A dash on its own is a file. -/
def ofText (text : String) : Argument :=
  match text.toList with
  | ['-', '-'] => .endOfOptions
  | '-' :: '-' :: rest => ofLong rest
  | '-' :: name :: rest => .option (String.ofList ['-', name]) (attached? rest)
  | _ => .file text

def ofTexts : List String → List Argument
  | [] => []
  | text :: rest =>
      match ofText text with
      | .endOfOptions => .endOfOptions :: rest.map .file
      | argument => argument :: ofTexts rest

end Argument

end Sema.Cli
