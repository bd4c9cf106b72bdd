/-!
The lexical tokens of a file, kept for display only: nothing in a check looks at them.
-/

namespace Sema

structure TokenEntry where
  kind : String
  lexeme : String
  line : UInt64
  column : UInt64
  deriving DecidableEq, Repr

end Sema
