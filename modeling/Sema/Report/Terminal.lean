/-!
What a report sends to a terminal: resets, styles and texts. A styled part resets the style before
and after its content, and the reset at its end is sent even if one of its texts is refused. After
a refused text nothing more of the report is written.
-/

namespace Sema

inductive Colour where
  | red
  | green
  | yellow
  deriving DecidableEq, Repr

/-- No colour is the terminal's own. -/
structure Style where
  bold : Bool := false
  colour : Option Colour := none
  deriving DecidableEq, Repr

inductive Event where
  | reset
  | style (style : Style)
  | text (text : String)
  deriving DecidableEq, Repr

/-- A part of a report: a section with styles of its own, or a text in the style that is in effect. -/
inductive Part where
  | styled (content : List Event)
  | bare (text : String)
  deriving DecidableEq, Repr

/-- The events that a terminal has received, and how many texts it takes before it refuses one. A
terminal without a limit takes all. -/
structure Terminal where
  received : List Event
  room : Option Nat
  deriving DecidableEq, Repr

namespace Terminal

def unlimited : Terminal := ⟨[], none⟩

def receive (terminal : Terminal) (event : Event) : Terminal :=
  { terminal with received := terminal.received ++ [event] }

/-- Styles and resets are never refused: a report without them is still worth writing. -/
def put (terminal : Terminal) : Event → Bool × Terminal
  | .text content =>
      match terminal.room with
      | none => (true, terminal.receive (.text content))
      | some 0 => (false, terminal)
      | some (room + 1) => (true, { terminal.receive (.text content) with room := some room })
  | event => (true, terminal.receive event)

/-- Sends events up to the first refused text, and tells whether all were sent. -/
def send (terminal : Terminal) : List Event → Bool × Terminal
  | [] => (true, terminal)
  | event :: rest =>
      match terminal.put event with
      | (true, terminal) => terminal.send rest
      | (false, terminal) => (false, terminal)

/-- A styled part stands between two resets. -/
def sendPart (terminal : Terminal) : Part → Bool × Terminal
  | .styled content =>
      let (sent, terminal) := (terminal.receive .reset).send content
      (sent, terminal.receive .reset)
  | .bare content => terminal.put (.text content)

/-- Sends parts up to the first that is not sent whole. -/
def sendParts (terminal : Terminal) : List Part → Bool × Terminal
  | [] => (true, terminal)
  | part :: rest =>
      match terminal.sendPart part with
      | (true, terminal) => terminal.sendParts rest
      | (false, terminal) => (false, terminal)

end Terminal

namespace Event

/-- The texts alone, for a file. -/
def plain : Event → String
  | .text content => content
  | .reset | .style _ => ""

def foreground : Colour → String
  | .red => "\x1b[31m"
  | .green => "\x1b[32m"
  | .yellow => "\x1b[33m"

/-- The events with escape sequences for the styles. A style starts from the default one. -/
def escaped : Event → String
  | .text content => content
  | .reset => "\x1b[0m"
  | .style chosen =>
      "\x1b[0m" ++ (if chosen.bold then "\x1b[1m" else "") ++
        match chosen.colour with
        | none => ""
        | some colour => foreground colour

def render (coloured : Bool) (events : List Event) : String :=
  String.join (events.map fun event => if coloured then event.escaped else event.plain)

end Event

namespace Part

/-- A line in bold. The colour is set first and the weight is added. -/
def boldLine (colour : Colour) (text : String) : List Event :=
  [.style ⟨false, some colour⟩, .style ⟨true, some colour⟩, .text (text ++ "\n")]

/-- A part of one bold line. -/
def notice (colour : Colour) (text : String) : Part := .styled (boldLine colour text)

def entryLine (entry : String) : Event := .text ("  " ++ entry ++ "\n")

/-- A bold line, and below it the entries in the terminal's own style. -/
def listing (colour : Colour) (title : String) (entries : List String) : Part :=
  .styled (boldLine colour title ++ .reset :: entries.map entryLine)

end Part

/-- What a report looks like when all of it is written. -/
def renderParts (coloured : Bool) (parts : List Part) : String :=
  Event.render coloured (Terminal.unlimited.sendParts parts).2.received

end Sema
