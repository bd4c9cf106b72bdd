import Sema.Cli.FileError
import Sema.Cli.Path

/-!
Places that a path can lead through, and the devices that it can lead to. Outside the working
directory only what every system has is known.
-/

namespace Sema.Cli

inductive Device where
  | sink
  | full
  | terminal
  | standardOutput
  | standardError
  deriving DecidableEq, Repr

/-- A directory that exists: the working one, one above it, or one named from the root. -/
inductive Place where
  | working
  | above
  | standing (names : List String)
  deriving DecidableEq, Repr

namespace Place

def root : Place := .standing []

def start (path : Path) : Place := if path.absolute then root else .working

def parent : Place → Place
  | .working | .above => .above
  | .standing names => .standing names.dropLast

def directories : List (List String) :=
  [["boot"], ["dev"], ["dev", "pts"], ["dev", "shm"], ["etc"], ["home"], ["media"], ["mnt"],
    ["opt"], ["proc"], ["proc", "self"], ["proc", "self", "fd"], ["proc", "self", "fdinfo"],
    ["proc", "self", "task"], ["root"], ["run"], ["srv"], ["sys"], ["tmp"], ["usr"],
    ["usr", "bin"], ["usr", "lib"], ["usr", "sbin"], ["var"], ["var", "tmp"]]

/-- Names that lead to a directory elsewhere, so that climbing from there does not lead back. -/
def links : List (List String × Place) :=
  [(["bin"], .standing ["usr", "bin"]), (["lib"], .standing ["usr", "lib"]),
    (["sbin"], .standing ["usr", "sbin"]), (["var", "run"], .standing ["run"]),
    (["dev", "fd"], .standing ["proc", "self", "fd"]), (["proc", "self", "cwd"], .working),
    (["proc", "self", "root"], root)]

/-- The standard streams have names among the devices, and numbers among the open files. -/
def devices : List (List String × Device) :=
  [(["dev", "null"], .sink), (["dev", "zero"], .sink), (["dev", "random"], .sink),
    (["dev", "urandom"], .sink), (["dev", "full"], .full), (["dev", "tty"], .terminal),
    (["dev", "stdin"], .sink), (["dev", "stdout"], .standardOutput),
    (["dev", "stderr"], .standardError), (["proc", "self", "fd", "0"], .sink),
    (["proc", "self", "fd", "1"], .standardOutput), (["proc", "self", "fd", "2"], .standardError)]

/-- Whether files can be created here. What is listed of processes and their open files is fixed. -/
def takesFiles : Place → Bool
  | .working | .above => true
  | .standing names => names.head? ≠ some "proc"

end Place

/-- What a name stands for. -/
inductive Entry where
  | file (content : ByteArray)
  | device (device : Device)
  | directory (place : Place)

namespace Entry

/-- What names from the root stand for. -/
def standing? (names : List String) : Option Entry :=
  if names ∈ Place.directories then some (.directory (.standing names))
  else ((Place.links.lookup names).map .directory).or ((Place.devices.lookup names).map .device)

end Entry

/-- Where goes what is written to a path. -/
inductive Destination where
  | file (name : String)
  | standardOutput
  | standardError
  | nowhere
  deriving DecidableEq, Repr

namespace Device

/-- The full device has no room for anything, and there is no terminal behind its device. -/
def destination : Device → Except FileError Destination
  | .sink => .ok .nowhere
  | .full => .error .noSpace
  | .terminal => .error .noDevice
  | .standardOutput => .ok .standardOutput
  | .standardError => .ok .standardError

/-- Nothing comes from a device. -/
def content : Device → Except FileError ByteArray
  | .terminal => .error .noDevice
  | _ => .ok .empty

end Device

end Sema.Cli
