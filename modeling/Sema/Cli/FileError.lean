/-!
Why a file could not be read or written, and the words for it.
-/

namespace Sema.Cli

inductive FileError where
  | notFound
  | isDirectory
  | notDirectory
  | nameTooLong
  | noDevice
  | noSpace
  | notText
  | other (detail : String)
  deriving DecidableEq, Repr

namespace FileError

def message : FileError → String
  | .notFound => "No such file or directory (os error 2)"
  | .isDirectory => "Is a directory (os error 21)"
  | .notDirectory => "Not a directory (os error 20)"
  | .nameTooLong => "File name too long (os error 36)"
  | .noDevice => "No such device or address (os error 6)"
  | .noSpace => "No space left on device (os error 28)"
  | .notText => "stream did not contain valid UTF-8"
  | .other detail => detail

end FileError

end Sema.Cli
