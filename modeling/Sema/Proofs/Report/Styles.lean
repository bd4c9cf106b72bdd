import Sema.Report.Log

/-!
# Styles of a report

A report reaches its receiver as resets, styles and texts. What a text looks like depends on all
that was sent before it, so the texts are read here together with the style in effect. Each section
resets the style on its way in and on its way out, also when a text is refused halfway. So a section
shows its lines as they are meant whatever came before, and leaves nothing behind.
-/

namespace Sema

/-! ### Texts with their styles -/

namespace Style

def after (style : Style) : Event → Style
  | .reset => {}
  | .style chosen => chosen
  | .text _ => style

/-- The style in effect after some events. -/
def afterAll (style : Style) (events : List Event) : Style := events.foldl after style

/-- The texts among some events, each with the style that is in effect when it is written. -/
def shown (style : Style) : List Event → List (Style × String)
  | [] => []
  | .reset :: rest => shown {} rest
  | .style chosen :: rest => shown chosen rest
  | .text content :: rest => (style, content) :: style.shown rest

theorem afterAll_append (style : Style) (first second : List Event) :
    style.afterAll (first ++ second) = (style.afterAll first).afterAll second :=
  List.foldl_append

theorem shown_append (style : Style) (first second : List Event) :
    style.shown (first ++ second) = style.shown first ++ (style.afterAll first).shown second := by
  induction first generalizing style with
  | nil => rfl
  | cons event rest previous =>
      cases event with
      | reset => exact previous {}
      | style chosen => exact previous chosen
      | text content => exact congrArg ((style, content) :: ·) (previous style)

theorem shown_texts (style : Style) (texts : List String) :
    style.shown (texts.map .text) = texts.map fun content => (style, content) := by
  induction texts with
  | nil => rfl
  | cons content rest previous => exact congrArg ((style, content) :: ·) previous

theorem afterAll_texts (style : Style) (texts : List String) :
    style.afterAll (texts.map .text) = style := by
  induction texts with
  | nil => rfl
  | cons content rest previous => exact previous

end Style

namespace Event

def text? : Event → Option String
  | .text content => some content
  | .reset | .style _ => none

/-- What is left of some events without resets and styles. -/
def texts (events : List Event) : List String := events.filterMap text?

/-- The texts alone do not depend on the style that is in effect at first. -/
theorem texts_eq_shown (events : List Event) (style : Style) :
    texts events = (style.shown events).map Prod.snd := by
  induction events generalizing style with
  | nil => rfl
  | cons event rest previous =>
      cases event with
      | reset => exact previous {}
      | style chosen => exact previous chosen
      | text content => exact congrArg (content :: ·) (previous style)

theorem render_plain (events : List Event) : render false events = String.join (texts events) := by
  unfold render
  induction events with
  | nil => rfl
  | cons event rest previous =>
      rw [List.map_cons, String.join_cons, previous]
      cases event with
      | reset => exact String.empty_append
      | style chosen => exact String.empty_append
      | text content => exact (String.join_cons).symm

end Event

/-! ### Room for texts -/

namespace Room

variable {Item : Type}

/-- As many items as there is room for. Without a limit there is room for all. -/
def upTo : Option Nat → List Item → List Item
  | none, items => items
  | some room, items => items.take room

def fits : Option Nat → Nat → Bool
  | none, _ => true
  | some room, count => count ≤ room

/-- The room that is left after some texts. -/
def spend : Option Nat → Nat → Option Nat
  | none, _ => none
  | some room, count => some (room - count)

/-- The events that a terminal takes, those before the first text that it refuses. -/
def taken : Option Nat → List Event → List Event
  | _, [] => []
  | some 0, .text _ :: _ => []
  | room, .text content :: rest => .text content :: taken (spend room 1) rest
  | room, event :: rest => event :: taken room rest

theorem upTo_map {Other : Type} (room : Option Nat) (items : List Item) (change : Item → Other) :
    upTo room (items.map change) = (upTo room items).map change := by
  cases room with
  | none => rfl
  | some room => exact List.map_take.symm

theorem upTo_of_fits {room : Option Nat} {items : List Item} (enough : fits room items.length) :
    upTo room items = items := by
  cases room with
  | none => rfl
  | some room => exact List.take_of_length_le (of_decide_eq_true enough)

theorem upTo_append_of_fits {room : Option Nat} {items : List Item} (others : List Item)
    (enough : fits room items.length) :
    upTo room (items ++ others) = items ++ upTo (spend room items.length) others := by
  cases room with
  | none => rfl
  | some room =>
      have within : items.length ≤ room := of_decide_eq_true enough
      change (items ++ others).take room = items ++ others.take (room - items.length)
      rw [List.take_append, List.take_of_length_le within]

theorem upTo_append_of_not_fits {room : Option Nat} {items : List Item} (others : List Item)
    (scarce : fits room items.length = false) :
    upTo room (items ++ others) = upTo room items := by
  cases room with
  | none => cases scarce
  | some room =>
      have beyond : room < items.length := Nat.lt_of_not_le (of_decide_eq_false scarce)
      exact List.take_append_of_le_length (Nat.le_of_lt beyond)

end Room

namespace Terminal

/-- What a terminal does with events: it tells whether it had room for their texts, and keeps what
it takes of them. -/
theorem send_eq (terminal : Terminal) (events : List Event) :
    terminal.send events = (Room.fits terminal.room (Event.texts events).length,
      ⟨terminal.received ++ Room.taken terminal.room events,
        Room.spend terminal.room (Event.texts events).length⟩) := by
  obtain ⟨received, room⟩ := terminal
  induction events generalizing received room with
  | nil => cases room <;> simp [send, Room.fits, Room.spend, Room.taken, Event.texts]
  | cons event rest previous =>
      cases event with
      | reset =>
          change send ⟨received ++ [.reset], room⟩ rest = _
          rw [previous, List.append_assoc]
          cases room <;> rfl
      | style chosen =>
          change send ⟨received ++ [.style chosen], room⟩ rest = _
          rw [previous, List.append_assoc]
          cases room <;> rfl
      | text content =>
          have count : (Event.texts (.text content :: rest)).length =
              (Event.texts rest).length + 1 := rfl
          rw [count]
          match room with
          | none =>
              change send ⟨received ++ [.text content], none⟩ rest = _
              rw [previous, List.append_assoc]
              rfl
          | some 0 =>
              simp [send, put, Room.fits, Room.spend, Room.taken]
          | some (room + 1) =>
              change send ⟨received ++ [.text content], some room⟩ rest = _
              rw [previous, List.append_assoc]
              simp [Room.fits, Room.spend, Room.taken]

end Terminal

theorem Style.shown_taken (style : Style) (room : Option Nat) (events : List Event) :
    style.shown (Room.taken room events) = Room.upTo room (style.shown events) := by
  induction events generalizing style room with
  | nil => cases room <;> simp [Style.shown, Room.taken, Room.upTo]
  | cons event rest previous =>
      cases event with
      | reset => exact previous {} room
      | style chosen => exact previous chosen room
      | text content =>
          match room with
          | none => exact congrArg ((style, content) :: ·) (previous style none)
          | some 0 => rfl
          | some (room + 1) => exact congrArg ((style, content) :: ·) (previous style (some room))

/-! ### Sections -/

/-- What a terminal with some room receives of a report. -/
def sent (room : Option Nat) (parts : List Part) : List Event :=
  ((⟨[], room⟩ : Terminal).sendParts parts).2.received

namespace Sections

/-- The texts of some sections, with the styles in which they are written. -/
def shown (contents : List (List Event)) : List (Style × String) :=
  contents.flatMap fun content => ({} : Style).shown content

/-- What is received of some sections: each between two resets, up to a refused text. -/
def taken : Option Nat → List (List Event) → List Event
  | _, [] => []
  | room, content :: rest =>
      .reset :: Room.taken room content ++ .reset ::
        if Room.fits room (Event.texts content).length then
          taken (Room.spend room (Event.texts content).length) rest
        else []

theorem sendParts_received (terminal : Terminal) (contents : List (List Event)) :
    (terminal.sendParts (contents.map .styled)).2.received =
      terminal.received ++ taken terminal.room contents := by
  induction contents generalizing terminal with
  | nil => exact (List.append_nil _).symm
  | cons content rest previous =>
      have first := (terminal.receive .reset).send_eq content
      rw [List.map_cons, Terminal.sendParts, Terminal.sendPart, first, taken]
      dsimp only [Terminal.receive]
      cases enough : Room.fits terminal.room (Event.texts content).length with
      | false => simp
      | true => simp [previous]

theorem sent_eq (room : Option Nat) (contents : List (List Event)) :
    sent room (contents.map .styled) = taken room contents :=
  sendParts_received ⟨[], room⟩ contents

theorem shown_section (style : Style) (content later : List Event) (room : Option Nat) :
    style.shown (.reset :: Room.taken room content ++ .reset :: later) =
      Room.upTo room (({} : Style).shown content) ++ ({} : Style).shown later := by
  change ({} : Style).shown (Room.taken room content ++ .reset :: later) = _
  rw [Style.shown_append, Style.shown_taken]
  rfl

/-- The sections show their texts as they would alone, as far as there is room for them. -/
theorem shown_taken (style : Style) (room : Option Nat) (contents : List (List Event)) :
    style.shown (taken room contents) = Room.upTo room (shown contents) := by
  induction contents generalizing style room with
  | nil => cases room <;> simp [Style.shown, taken, Room.upTo, shown]
  | cons content rest previous =>
      have count : (Event.texts content).length = (({} : Style).shown content).length := by
        rw [Event.texts_eq_shown content {}, List.length_map]
      rw [taken, shown_section, count]
      change _ = Room.upTo room (({} : Style).shown content ++ shown rest)
      cases enough : Room.fits room (({} : Style).shown content).length with
      | false =>
          rw [Room.upTo_append_of_not_fits _ enough, if_neg Bool.false_ne_true]
          exact List.append_nil _
      | true =>
          rw [Room.upTo_append_of_fits _ enough, Room.upTo_of_fits enough, if_pos rfl, previous]

/-- The last thing sent is a reset, whether or not a section was taken whole. -/
theorem getLast?_taken (room : Option Nat) {contents : List (List Event)}
    (present : contents ≠ []) : (taken room contents).getLast? = some .reset := by
  induction contents generalizing room with
  | nil => exact absurd rfl present
  | cons content rest previous =>
      rw [taken, List.getLast?_append]
      cases enough : Room.fits room (Event.texts content).length with
      | false => rfl
      | true =>
          cases rest with
          | nil => rfl
          | cons second others =>
              have last := previous (Room.spend room (Event.texts content).length)
                (List.cons_ne_nil second others)
              rw [if_pos rfl, List.getLast?_cons, last]
              rfl

theorem head?_taken (room : Option Nat) {contents : List (List Event)} (present : contents ≠ []) :
    (taken room contents).head? = some .reset := by
  cases contents with
  | nil => exact absurd rfl present
  | cons content rest => rfl

end Sections

theorem Style.afterAll_of_getLast? {events : List Event} (last : events.getLast? = some .reset)
    (style : Style) : style.afterAll events = {} := by
  obtain ⟨front, rfl⟩ := List.getLast?_eq_some_iff.mp last
  rw [Style.afterAll_append]
  rfl

/-! ### Texts in pieces -/

/-- How texts are handed over: each at once or in several pieces. -/
structure Pieces where
  cut : String → List String
  whole : ∀ text, String.join (cut text) = text

namespace Pieces

variable (pieces : Pieces)

/-- Every text at once. -/
def single : Pieces where
  cut text := [text]
  whole text := by rw [String.join_cons, String.join_nil, String.append_empty]

def event : Event → List Event
  | .text content => (pieces.cut content).map .text
  | event => [event]

def part : Part → List Part
  | .styled content => [.styled (content.flatMap pieces.event)]
  | .bare content => (pieces.cut content).map .bare

/-- Lines in pieces, each in the style of its line. -/
def lines (lines : List (Style × String)) : List (Style × String) :=
  lines.flatMap fun line => (pieces.cut line.2).map fun piece => (line.1, piece)

theorem join_lines (lines : List (Style × String)) :
    String.join ((pieces.lines lines).map Prod.snd) = String.join (lines.map Prod.snd) := by
  induction lines with
  | nil => rfl
  | cons line rest previous =>
      have first : ((pieces.cut line.2).map fun piece => (line.1, piece)).map Prod.snd =
          pieces.cut line.2 := by
        rw [List.map_map]
        exact List.map_id _
      have step : (pieces.lines (line :: rest)).map Prod.snd =
          pieces.cut line.2 ++ (pieces.lines rest).map Prod.snd := by
        unfold lines
        rw [List.flatMap_cons, List.map_append, first]
      rw [step, String.join_append, pieces.whole, previous, List.map_cons, String.join_cons]

theorem shown_events (style : Style) (events : List Event) :
    style.shown (events.flatMap pieces.event) = pieces.lines (style.shown events) := by
  induction events generalizing style with
  | nil => rfl
  | cons event rest previous =>
      cases event with
      | reset => exact previous {}
      | style chosen => exact previous chosen
      | text content =>
          have first : pieces.event (.text content) = (pieces.cut content).map .text := rfl
          rw [List.flatMap_cons, first, Style.shown_append, Style.shown_texts,
            Style.afterAll_texts, previous]
          rfl

theorem part_single (part : Part) : single.part part = [part] := by
  cases part with
  | bare content => rfl
  | styled content =>
      have events : content.flatMap single.event = content.flatMap fun event => [event] := by
        congr 1
        funext event
        cases event <;> rfl
      rw [Pieces.part, events, List.flatMap_singleton']

theorem parts_styled (contents : List (List Event)) :
    (contents.map Part.styled).flatMap pieces.part =
      (contents.map fun content => content.flatMap pieces.event).map .styled := by
  induction contents with
  | nil => rfl
  | cons content rest previous =>
      exact congrArg (.styled (content.flatMap pieces.event) :: ·) previous

theorem shown_sections (contents : List (List Event)) :
    Sections.shown (contents.map fun content => content.flatMap pieces.event) =
      pieces.lines (Sections.shown contents) := by
  induction contents with
  | nil => rfl
  | cons content rest previous =>
      unfold Sections.shown lines at previous ⊢
      rw [List.map_cons, List.flatMap_cons, previous, pieces.shown_events, List.flatMap_cons,
        List.flatMap_append]
      rfl

end Pieces

/-! ### Reports, summaries and lists -/

/-- The texts of a part, which are all that a plain writer gets. -/
def Part.texts : Part → List String
  | .styled content => Event.texts content
  | .bare content => [content]

/-- What is written to a plain writer, which might refuse a text too. -/
def plainly (room : Option Nat) (parts : List Part) : List String :=
  Event.texts ((⟨[], room⟩ : Terminal).send ((parts.flatMap Part.texts).map .text)).2.received

theorem plainly_eq (room : Option Nat) (parts : List Part) :
    plainly room parts = Room.upTo room (parts.flatMap Part.texts) := by
  have received := (⟨[], room⟩ : Terminal).send_eq ((parts.flatMap Part.texts).map .text)
  unfold plainly
  rw [received, List.nil_append, Event.texts_eq_shown _ {}, Style.shown_taken, Style.shown_texts,
    ← Room.upTo_map, List.map_map]
  exact congrArg (Room.upTo room) (List.map_id _)

theorem Sections.texts_styled (contents : List (List Event)) :
    (contents.map Part.styled).flatMap Part.texts = (Sections.shown contents).map Prod.snd := by
  unfold Sections.shown
  rw [List.flatMap_map, List.map_flatMap]
  exact congrArg (contents.flatMap ·) (funext fun content => Event.texts_eq_shown content {})

/-- What is to be seen of parts that show some lines, on any receiver and in any pieces. -/
structure Shows (pieces : Pieces) (parts : List Part) (lines : List (Style × String)) : Prop where
  /-- Every text stands in the style of its line, whatever style is in effect before. -/
  styled : ∀ (room : Option Nat) (before : Style),
    before.shown (sent room (parts.flatMap pieces.part)) = Room.upTo room (pieces.lines lines)
  /-- Without resets and styles it is what a plain writer gets. -/
  plain : ∀ room, Event.texts (sent room (parts.flatMap pieces.part)) =
    plainly room (parts.flatMap pieces.part)
  /-- All of it reads like the lines, one after the other. -/
  whole : Event.render false (sent none (parts.flatMap pieces.part)) =
    String.join (lines.map Prod.snd)
  opened : ∀ room, (sent room (parts.flatMap pieces.part)).head? = some .reset
  closed : ∀ room, (sent room (parts.flatMap pieces.part)).getLast? = some .reset

theorem Sections.shows (pieces : Pieces) {contents : List (List Event)} (present : contents ≠ []) :
    Shows pieces (contents.map .styled) (Sections.shown contents) := by
  let cut := contents.map fun content => content.flatMap pieces.event
  have parts : (contents.map Part.styled).flatMap pieces.part = cut.map .styled :=
    pieces.parts_styled contents
  have shown : Sections.shown cut = pieces.lines (Sections.shown contents) :=
    pieces.shown_sections contents
  have cutPresent : cut ≠ [] := fun empty => present (List.map_eq_nil_iff.mp empty)
  have received : ∀ room, sent room (cut.map .styled) = Sections.taken room cut :=
    fun room => Sections.sent_eq room cut
  have texts : ∀ room, Event.texts (Sections.taken room cut) =
      (Room.upTo room (Sections.shown cut)).map Prod.snd := by
    intro room
    rw [Event.texts_eq_shown _ {}, Sections.shown_taken]
  constructor
  case styled =>
    intro room before
    rw [parts, received, Sections.shown_taken, shown]
  case plain =>
    intro room
    rw [parts, received, texts, plainly_eq, Sections.texts_styled, Room.upTo_map]
  case whole =>
    rw [parts, received, Event.render_plain, texts, shown]
    exact pieces.join_lines (Sections.shown contents)
  case opened =>
    intro room
    rw [parts, received]
    exact Sections.head?_taken room cutPresent
  case closed =>
    intro room
    rw [parts, received]
    exact Sections.getLast?_taken room cutPresent

/-- What is written with styles: a report, a summary or a list of unused variables. -/
inductive Display (Failure Caution : Type) where
  | report (log : Log Failure Caution)
  | summary (log : Log Failure Caution)
  | unused (entries : List String)

namespace Display

def heading (colour : Colour) (text : String) : Style × String :=
  (⟨true, some colour⟩, text ++ "\n")

def entry (text : String) : Style × String := ({}, "  " ++ text ++ "\n")

def listing (colour : Colour) (title : String) (entries : List String) : List (Style × String) :=
  heading colour title :: entries.map entry

variable {Failure Caution : Type} [Described Failure] [Described Caution]

def parts : Display Failure Caution → List Part
  | .report log => log.report
  | .summary log => log.summary
  | .unused entries => unusedReport entries

/-- The messages of one level below their heading, if there are any. -/
def levelLines (log : Log Failure Caution) (level : Level) : List (Style × String) :=
  match log.atLevel level with
  | [] => []
  | messages => listing level.colour level.title (messages.map Message.display)

/-- The lines that are meant: headings in bold and in colour, entries in the default style. -/
def lines : Display Failure Caution → List (Style × String)
  | .report [] => [heading .green "No type errors found!"]
  | .report log => levelLines log .error ++ levelLines log .warning
  | .summary log => [heading log.summaryColour log.summaryText]
  | .unused [] => [heading .green "No unused variables!"]
  | .unused entries => listing .yellow "UNUSED VARIABLES:" entries

theorem shown_listing (style : Style) (colour : Colour) (title : String) (entries : List String) :
    style.shown (Part.boldLine colour title ++ .reset :: entries.map Part.entryLine) =
      listing colour title entries := by
  have below := Style.shown_texts {} (entries.map fun entry => "  " ++ entry ++ "\n")
  rw [List.map_map, List.map_map] at below
  exact congrArg (heading colour title :: ·) below

/-- Everything that is written with styles consists of sections, at least one. -/
def Sectioned (parts : List Part) (lines : List (Style × String)) : Prop :=
  ∃ contents, parts = contents.map .styled ∧ Sections.shown contents = lines

theorem sectioned_level (log : Log Failure Caution) (level : Level) :
    Sectioned (log.levelPart level) (levelLines log level) := by
  unfold Log.levelPart levelLines
  cases log.atLevel level with
  | nil => exact ⟨[], rfl, rfl⟩
  | cons message rest =>
      refine ⟨[_], rfl, ?_⟩
      unfold Sections.shown
      rw [List.flatMap_singleton]
      exact shown_listing {} _ _ _

theorem Sectioned.append {first second : List Part} {above below : List (Style × String)}
    (upper : Sectioned first above) (lower : Sectioned second below) :
    Sectioned (first ++ second) (above ++ below) := by
  obtain ⟨contents, rfl, rfl⟩ := upper
  obtain ⟨others, rfl, rfl⟩ := lower
  exact ⟨contents ++ others, List.map_append.symm, List.flatMap_append⟩

theorem sectioned (display : Display Failure Caution) : Sectioned display.parts display.lines := by
  cases display with
  | report log =>
      cases log with
      | nil => exact ⟨[_], rfl, rfl⟩
      | cons message rest => exact (sectioned_level _ .error).append (sectioned_level _ .warning)
  | summary log => exact ⟨[_], rfl, rfl⟩
  | unused entries =>
      cases entries with
      | nil => exact ⟨[_], rfl, rfl⟩
      | cons entry rest =>
          refine ⟨[_], rfl, ?_⟩
          unfold Sections.shown
          rw [List.flatMap_singleton]
          exact shown_listing {} _ _ _

theorem levelLines_ne_nil {log : Log Failure Caution} {message : Message Failure Caution}
    (recorded : message ∈ log) : levelLines log message.level ≠ [] := by
  unfold levelLines
  have present : message ∈ log.atLevel message.level :=
    List.mem_filter.mpr ⟨recorded, beq_self_eq_true _⟩
  cases found : log.atLevel message.level with
  | nil =>
      rw [found] at present
      cases present
  | cons first rest => exact List.cons_ne_nil _ _

theorem lines_ne_nil (display : Display Failure Caution) : display.lines ≠ [] := by
  cases display with
  | report log =>
      cases log with
      | nil => exact List.cons_ne_nil _ _
      | cons message rest =>
          have present := levelLines_ne_nil (List.mem_cons_self (a := message) (l := rest))
          change levelLines _ .error ++ levelLines _ .warning ≠ []
          intro none
          obtain ⟨errors, warnings⟩ := List.append_eq_nil_iff.mp none
          cases level : message.level with
          | error =>
              rw [level] at present
              exact present errors
          | warning =>
              rw [level] at present
              exact present warnings
  | summary log => exact List.cons_ne_nil _ _
  | unused entries => cases entries <;> exact List.cons_ne_nil _ _

theorem shows (pieces : Pieces) (display : Display Failure Caution) :
    Shows pieces display.parts display.lines := by
  obtain ⟨contents, parts, lines⟩ := display.sectioned
  have present : contents ≠ [] := by
    intro none
    rw [none] at lines
    exact display.lines_ne_nil lines.symm
  rw [parts, ← lines]
  exact Sections.shows pieces present

/-- What a receiver gets of a display. It might refuse a text. -/
def sent (display : Display Failure Caution) (pieces : Pieces) (room : Option Nat) : List Event :=
  Sema.sent room (display.parts.flatMap pieces.part)

end Display

/-- A receiver that gets every text at once gets what the display itself consists of. -/
theorem Display.sent_single {Failure Caution : Type} [Described Failure] [Described Caution]
    (display : Display Failure Caution) (room : Option Nat) :
    display.sent .single room = Sema.sent room display.parts := by
  have parts : display.parts.flatMap Pieces.single.part = display.parts := by
    rw [show Pieces.single.part = fun part => [part] from funext Pieces.part_single,
      List.flatMap_singleton']
  unfold Display.sent
  rw [parts]

/-- Reports, summaries and lists of unused variables show their lines in the styles that are meant
for them, wherever they end, and leave the default style to whatever comes after them. -/
theorem styles_contained {Failure Caution : Type} [Described Failure] [Described Caution]
    (pieces : Pieces) :
    (∀ display : Display Failure Caution, Shows pieces display.parts display.lines) ∧
      ∀ displays : List (Display Failure Caution × Option Nat),
        ({} : Style).afterAll (displays.flatMap fun (display, room) => display.sent pieces room) =
            {} ∧
          ({} : Style).shown (displays.flatMap fun (display, room) => display.sent pieces room) =
            displays.flatMap fun (display, room) =>
              Room.upTo room (pieces.lines display.lines) := by
  refine ⟨Display.shows pieces, ?_⟩
  intro displays
  induction displays with
  | nil => exact ⟨rfl, rfl⟩
  | cons first rest previous =>
      obtain ⟨display, room⟩ := first
      have shows := display.shows pieces
      have after : ({} : Style).afterAll (display.sent pieces room) = {} :=
        Style.afterAll_of_getLast? (shows.closed room) {}
      have shown : ({} : Style).shown (display.sent pieces room) = _ := shows.styled room {}
      rw [List.flatMap_cons, List.flatMap_cons, Style.afterAll_append, Style.shown_append, after,
        shown, previous.1, previous.2]
      exact ⟨rfl, rfl⟩

end Sema
