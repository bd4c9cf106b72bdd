import Sema.Bindings
import Sema.Cli.Place

/-!
The working directory: files by their names, and no directory inside it. Paths are resolved from it
name by name. What is written to a file outside it leaves no trace here.
-/

namespace Sema.Cli

structure Directory where
  files : Bindings String ByteArray

namespace Directory

def empty : Directory := ⟨.empty⟩

/-- What a name stands for in a place. One dot stays there, and two dots climb. -/
def entry? (directory : Directory) (place : Place) (name : String) : Option Entry :=
  if name = "." then some (.directory place)
  else if name = ".." then some (.directory place.parent)
  else
    match place with
    | .working => (directory.files.find? name).map .file
    | .above => none
    | .standing names => Entry.standing? (names ++ [name])

def find (directory : Directory) (place : Place) (name : String) :
    Except FileError (Option Entry) :=
  if Path.longestName < name.utf8ByteSize then .error .nameTooLong
  else .ok (directory.entry? place name)

/-- Goes on through a name, which must stand for a directory. -/
def enter (directory : Directory) (place : Place) (name : String) : Except FileError Place := do
  match ← directory.find place name with
  | none => .error .notFound
  | some (.directory place) => .ok place
  | some _ => .error .notDirectory

/-- The place in which the last name of a path is looked up. -/
def locate (directory : Directory) (text : String) : Except FileError Place :=
  let path := Path.ofText text
  if text = "" then .error .notFound
  else if Path.longest < text.utf8ByteSize then .error .nameTooLong
  else path.parents.foldlM directory.enter (.start path)

/-- What a path leads to is read if it is no directory. A path to a file has no slash at its end. -/
def read (directory : Directory) (text : String) : Except FileError ByteArray := do
  let path := Path.ofText text
  let place ← directory.locate text
  match ← directory.find place path.last with
  | none => .error .notFound
  | some (.directory _) => .error .isDirectory
  | some (.device device) => if path.closed then .error .notDirectory else device.content
  | some (.file content) => if path.closed then .error .notDirectory else .ok content

/-- Where writing to a path leads. A slash at its end asks for a directory, whatever the name before
it, and a file that does not exist is created where that is possible. -/
def destination (directory : Directory) (text : String) : Except FileError Destination := do
  let path := Path.ofText text
  let place ← directory.locate text
  if path.closed then .error .isDirectory
  else
    match ← directory.find place path.last with
    | some (.directory _) => .error .isDirectory
    | some (.device device) => device.destination
    | some (.file _) => .ok (.file path.last)
    | none =>
        if place = .working then .ok (.file path.last)
        else if place.takesFiles then .ok .nowhere
        else .error .notFound

/-- Only what goes to a file of this directory leaves a trace here. -/
def receive (directory : Directory) (content : ByteArray) : Destination → Directory
  | .file name => ⟨directory.files.bind name content⟩
  | .standardOutput | .standardError | .nowhere => directory

/-- Creates the file that a path leads to, or replaces its content. -/
def write (directory : Directory) (text : String) (content : ByteArray) :
    Except FileError Directory :=
  (directory.destination text).map (directory.receive content)

end Directory

end Sema.Cli
