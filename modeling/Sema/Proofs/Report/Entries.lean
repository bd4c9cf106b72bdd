import Mathlib.Data.List.TakeWhile
import Sema.Proofs.Report.Styles
import Sema.Proofs.Text.Lines

/-!
# Reading a report back

In a report without styles only messages are indented, so a text of a message cannot pass for a
heading. The indented lines right below the heading of a level are the messages of the level. Each
message has a line of its own, whose number is the place of its section and the rank of the message
among those of its level.
-/

namespace Sema

def indented (text : String) : String := "  " ++ text

def isIndented (line : String) : Bool := line.toList.take 2 == [' ', ' ']

def unindented (line : String) : String := String.ofList (line.toList.drop 2)

/-- The entries below a heading are the indented lines that come right after it. -/
def entriesBelow (title : String) (lines : List String) : List String :=
  ((lines.dropWhile fun line => line != title).tail.takeWhile isIndented).map unindented

/-- The lines of a section. Without entries it has no heading either. -/
def sectionLines (title : String) (entries : List String) : List String :=
  match entries with
  | [] => []
  | entries => title :: entries.map indented

@[simp] theorem sectionLines_cons (title entry : String) (others : List String) :
    sectionLines title (entry :: others) = title :: (entry :: others).map indented := rfl

namespace Log

variable {Failure Caution : Type} [Described Failure] [Described Caution]

/-- The report as it is written without styles. -/
def plainReport (log : Log Failure Caution) : String := renderParts false log.report

/-- The messages of a level as they are shown. -/
def entries (log : Log Failure Caution) (level : Level) : List String :=
  (log.atLevel level).map Message.display

def reportLines (log : Log Failure Caution) : List String :=
  match log with
  | [] => ["No type errors found!"]
  | log => sectionLines Level.error.title (log.entries .error) ++
      sectionLines Level.warning.title (log.entries .warning)

/-- Every message stands on a line of its own, and no other line is indented. Errors stand before
warnings, and messages of one level in the order in which they were recorded. -/
structure Listing (log : Log Failure Caution) (lines : List String) (place : Nat → Nat) :
    Prop where
  shown : ∀ index message, log[index]? = some message →
    lines[place index]? = some (indented message.display)
  only : ∀ number line, lines[number]? = some line → isIndented line = true →
    ∃! index, index < log.length ∧ place index = number
  order : ∀ first second earlier later, log[first]? = some earlier → log[second]? = some later →
    (place first < place second ↔
      earlier.level = .error ∧ later.level = .warning ∨
        earlier.level = later.level ∧ first < second)

/-! ### Lines of a report -/

theorem levelLines_eq (log : Log Failure Caution) (level : Level) :
    (Display.levelLines log level).map Prod.snd =
      (sectionLines level.title (log.entries level)).map fun line => line ++ "\n" := by
  unfold Display.levelLines entries
  cases log.atLevel level with
  | nil => rfl
  | cons message rest =>
      simp [Display.listing, Display.heading, Display.entry, sectionLines, indented]

theorem plainReport_eq (log : Log Failure Caution) :
    log.plainReport = String.join (log.reportLines.map fun line => line ++ "\n") := by
  -- The report is one of the parted texts whose plain lines are known: each part is one piece.
  have shown := ((Display.report log).shows .single).whole
  have whole : (Display.report log).parts.flatMap Pieces.single.part = log.report := by
    rw [show Pieces.single.part = fun part => [part] from funext Pieces.part_single,
      List.flatMap_singleton']
    rfl
  rw [whole] at shown
  refine (show log.plainReport = _ from shown).trans (congrArg String.join ?_)
  cases log with
  | nil => rfl
  | cons message rest =>
      have level := levelLines_eq (message :: rest)
      simp only [Display.lines, reportLines, List.map_append, level]

end Log

/-! ### Reading sections -/

theorem isIndented_indented (text : String) : isIndented (indented text) = true := by
  simp [isIndented, indented]

theorem unindented_indented (text : String) : unindented (indented text) = text := by
  simp [unindented, indented]

theorem title_flush (level : Level) : isIndented level.title = false := by
  cases level <;> decide

theorem bne_of_not_mem {title : String} {lines : List String} (absent : title ∉ lines) :
    ∀ line ∈ lines, (line != title) = true := by
  intro line member
  apply bne_iff_ne.mpr
  intro same
  exact absent (same ▸ member)

theorem entriesBelow_absent {title : String} {lines : List String} (absent : title ∉ lines) :
    entriesBelow title lines = [] := by
  have none : lines.dropWhile (fun line => line != title) = [] :=
    List.dropWhile_eq_nil_iff.mpr (bne_of_not_mem absent)
  rw [entriesBelow, none]
  rfl

/-- The entries of a section are read back from a text that has the heading nowhere else. -/
theorem entriesBelow_section {title : String} {front rest : List String} (entries : List String)
    (before : title ∉ front) (after : title ∉ rest)
    (apart : ∀ line ∈ rest.head?, isIndented line = false) :
    entriesBelow title (front ++ (sectionLines title entries ++ rest)) = entries := by
  cases entries with
  | nil =>
      apply entriesBelow_absent
      intro member
      cases List.mem_append.mp member with
      | inl front => exact before front
      | inr rest => exact after rest
  | cons entry others =>
      have skipped : (front ++ (sectionLines title (entry :: others) ++ rest)).dropWhile
          (fun line => line != title) = title :: ((entry :: others).map indented ++ rest) := by
        rw [List.dropWhile_append_of_pos (bne_of_not_mem before), sectionLines_cons,
          List.cons_append, List.dropWhile_cons_of_neg]
        simp
      -- What follows a section starts with a line that is not indented, so the reading stops there.
      have below : ((entry :: others).map indented ++ rest).takeWhile isIndented =
          (entry :: others).map indented := by
        rw [List.takeWhile_append_of_pos]
        · cases rest with
          | nil => exact List.append_nil _
          | cons line rest =>
              rw [List.takeWhile_cons_of_neg, List.append_nil]
              rw [apart line rfl]
              exact Bool.false_ne_true
        · exact List.forall_mem_map.mpr fun entry _ => isIndented_indented entry
      rw [entriesBelow, skipped, List.tail_cons, below, List.map_map]
      calc (entry :: others).map (unindented ∘ indented)
          = (entry :: others).map id :=
            List.map_congr_left fun entry _ => unindented_indented entry
        _ = entry :: others := List.map_id _

/-- A section holds its own heading and indented lines. -/
theorem not_mem_section {title line : String} (entries : List String) (other : line ≠ title)
    (flush : isIndented line = false) : line ∉ sectionLines title entries := by
  intro member
  cases entries with
  | nil => cases member
  | cons entry others =>
      rw [sectionLines_cons, List.mem_cons] at member
      cases member with
      | inl heading => exact other heading
      | inr below =>
          obtain ⟨text, -, same⟩ := List.mem_map.mp below
          rw [← same, isIndented_indented] at flush
          cases flush

/-- What comes first in a section is its heading. -/
theorem head_section (level : Level) (entries : List String) :
    ∀ line ∈ (sectionLines level.title entries ++ [""]).head?, isIndented line = false := by
  cases entries with
  | nil =>
      intro line first
      cases first
      decide
  | cons entry others =>
      intro line first
      cases first
      exact title_flush level

namespace Log

variable {Failure Caution : Type} [Described Failure] [Described Caution]

theorem reportLines_eq {log : Log Failure Caution} (present : log ≠ []) :
    log.reportLines = sectionLines Level.error.title (log.entries .error) ++
      sectionLines Level.warning.title (log.entries .warning) := by
  cases log with
  | nil => exact absurd rfl present
  | cons message rest => rfl

/-- Both levels are read back from the lines of a report. -/
theorem entriesBelow_report (log : Log Failure Caution) (level : Level) :
    entriesBelow level.title (log.reportLines ++ [""]) = log.entries level := by
  cases log with
  | nil =>
      apply entriesBelow_absent
      cases level <;> simp [reportLines, Level.title]
  | cons message rest =>
      rw [reportLines_eq (List.cons_ne_nil message rest), List.append_assoc]
      cases level with
      | error =>
          have after : Level.error.title ∉
              sectionLines Level.warning.title (entries (message :: rest) .warning) ++ [""] := by
            intro member
            cases List.mem_append.mp member with
            | inl other =>
                exact not_mem_section _ (by decide) (title_flush .error) other
            | inr last => exact absurd last (by decide)
          exact entriesBelow_section (entries (message :: rest) .error) List.not_mem_nil after
            (head_section .warning _)
      | warning =>
          have before : Level.warning.title ∉
              sectionLines Level.error.title (entries (message :: rest) .error) :=
            not_mem_section _ (by decide) (title_flush .warning)
          exact entriesBelow_section (entries (message :: rest) .warning) before (by decide)
            (head_section .error [])

theorem oneLine_section {level : Level} {entries : List String}
    (apart : ∀ entry ∈ entries, Text.OneLine entry) :
    ∀ line ∈ sectionLines level.title entries, Text.OneLine line := by
  cases entries with
  | nil => exact fun line member => nomatch member
  | cons entry others =>
      have heading : Text.OneLine level.title := by cases level <;> decide
      have space : Text.OneLine "  " := by decide
      rw [sectionLines_cons]
      exact List.forall_mem_cons.mpr ⟨heading,
        List.forall_mem_map.mpr fun entry member => space.append (apart entry member)⟩

/-- A report is made of its lines, if no message has a line feed. -/
theorem lines_plainReport {log : Log Failure Caution}
    (apart : ∀ message ∈ log, Text.OneLine message.display) :
    Text.lines log.plainReport = log.reportLines ++ [""] := by
  have level : ∀ level, ∀ entry ∈ log.entries level, Text.OneLine entry := fun level =>
    List.forall_mem_map.mpr fun message member => apart message (List.mem_of_mem_filter member)
  rw [plainReport_eq]
  apply Text.lines_ended
  cases log with
  | nil =>
      intro line member
      cases List.mem_singleton.mp member
      decide
  | cons message rest =>
      exact List.forall_mem_append.mpr
        ⟨oneLine_section (level .error), oneLine_section (level .warning)⟩

end Log

/-! ### Ranks -/

section Ranks

variable {Item : Type} {keep : Item → Bool}

/-- A kept item is found among the kept ones at its rank, the number of those before it. -/
theorem filter_at_rank {items : List Item} {index : Nat} {item : Item}
    (found : items[index]? = some item) (kept : keep item = true) :
    (items.filter keep)[(items.take index).countP keep]? = some item := by
  induction items generalizing index with
  | nil => cases found
  | cons first rest induction =>
      cases index with
      | zero =>
          cases found
          rw [List.filter_cons_of_pos kept]
          rfl
      | succ index =>
          have later := induction found
          rw [List.take_succ_cons]
          cases own : keep first with
          | false =>
              rw [List.filter_cons_of_neg (Bool.eq_false_iff.mp own),
                List.countP_cons_of_neg (Bool.eq_false_iff.mp own)]
              exact later
          | true =>
              rw [List.filter_cons_of_pos own, List.countP_cons_of_pos own]
              exact later

/-- Every rank is that of a kept item. -/
theorem at_rank_of_filter {items : List Item} {rank : Nat} {item : Item}
    (found : (items.filter keep)[rank]? = some item) :
    ∃ index, items[index]? = some item ∧ (items.take index).countP keep = rank := by
  induction items generalizing rank with
  | nil => cases found
  | cons first rest induction =>
      cases own : keep first with
      | false =>
          rw [List.filter_cons_of_neg (Bool.eq_false_iff.mp own)] at found
          obtain ⟨index, there, counted⟩ := induction found
          refine ⟨index + 1, there, ?_⟩
          rw [List.take_succ_cons, List.countP_cons_of_neg (Bool.eq_false_iff.mp own), counted]
      | true =>
          rw [List.filter_cons_of_pos own] at found
          cases rank with
          | zero => exact ⟨0, found, rfl⟩
          | succ rank =>
              obtain ⟨index, there, counted⟩ := induction found
              refine ⟨index + 1, there, ?_⟩
              rw [List.take_succ_cons, List.countP_cons_of_pos own, counted]

theorem rank_lt {items : List Item} {first second : Nat} {item : Item}
    (found : items[first]? = some item) (kept : keep item = true) (before : first < second) :
    (items.take first).countP keep < (items.take second).countP keep := by
  have own : (items.take (first + 1)).countP keep = (items.take first).countP keep + 1 := by
    rw [List.take_add_one, found, List.countP_append]
    exact congrArg _ (List.countP_cons_of_pos kept)
  calc (items.take first).countP keep
      < (items.take (first + 1)).countP keep := by omega
    _ ≤ (items.take second).countP keep :=
        ((List.take_prefix_take_left (Nat.succ_le_of_lt before)).sublist).countP_le

end Ranks

/-! ### Places of messages -/

namespace Log

variable {Failure Caution : Type}

theorem atLevel_at_rank {log : Log Failure Caution} {index : Nat}
    {message : Message Failure Caution} (found : log[index]? = some message) :
    (log.atLevel message.level)[
      (log.take index).countP fun other => other.level == message.level]? = some message :=
  filter_at_rank found (beq_self_eq_true message.level)

variable [Described Failure] [Described Caution]

/-- The number of the line that has the heading of a level. -/
def headingPlace (log : Log Failure Caution) : Level → Nat
  | .error => 0
  | .warning => (sectionLines Level.error.title (log.entries .error)).length

/-- The number of the line that has the message of a rank. -/
def entryPlace (log : Log Failure Caution) (level : Level) (rank : Nat) : Nat :=
  log.headingPlace level + 1 + rank

def place (log : Log Failure Caution) (index : Nat) : Nat :=
  match log[index]? with
  | none => 0
  | some message =>
      log.entryPlace message.level
        ((log.take index).countP fun other => other.level == message.level)

theorem place_eq {log : Log Failure Caution} {index : Nat} {message : Message Failure Caution}
    (found : log[index]? = some message) : log.place index =
      log.entryPlace message.level
        ((log.take index).countP fun other => other.level == message.level) := by
  rw [place, found]

/-- The entries of a section come right after its heading. -/
theorem section_entry {title entry : String} {entries : List String} {rank : Nat}
    (found : entries[rank]? = some entry) :
    (sectionLines title entries)[rank + 1]? = some (indented entry) := by
  cases entries with
  | nil => cases found
  | cons first others =>
      rw [sectionLines_cons, List.getElem?_cons_succ, List.getElem?_map, found]
      rfl

theorem entry_section {level : Level} {line : String} {entries : List String} {number : Nat}
    (found : (sectionLines level.title entries)[number]? = some line)
    (below : isIndented line = true) :
    ∃ rank entry, entries[rank]? = some entry ∧ rank + 1 = number := by
  cases entries with
  | nil => cases found
  | cons first others =>
      cases number with
      | zero =>
          cases found
          rw [title_flush] at below
          cases below
      | succ rank =>
          rw [sectionLines_cons, List.getElem?_cons_succ, List.getElem?_map] at found
          obtain ⟨entry, there, -⟩ := Option.map_eq_some_iff.mp found
          exact ⟨rank, entry, there, rfl⟩

theorem entries_found {log : Log Failure Caution} {level : Level} {rank : Nat}
    {message : Message Failure Caution} (found : (log.atLevel level)[rank]? = some message) :
    (log.entries level)[rank]? = some message.display := by
  rw [entries, List.getElem?_map, found]
  rfl

theorem found_entries {log : Log Failure Caution} {level : Level} {rank : Nat} {entry : String}
    (found : (log.entries level)[rank]? = some entry) :
    ∃ message, (log.atLevel level)[rank]? = some message := by
  rw [entries, List.getElem?_map] at found
  obtain ⟨message, there, -⟩ := Option.map_eq_some_iff.mp found
  exact ⟨message, there⟩

/-- Errors have their places before the heading of the warnings. -/
theorem errorPlace_lt {log : Log Failure Caution} {rank : Nat} {message : Message Failure Caution}
    (found : (log.atLevel .error)[rank]? = some message) :
    log.entryPlace .error rank < log.headingPlace .warning := by
  have own : (sectionLines Level.error.title (log.entries .error))[rank + 1]? =
      some (indented message.display) := section_entry (entries_found found)
  have within := (List.getElem?_eq_some_iff.mp own).1
  rw [entryPlace, headingPlace, headingPlace]
  omega

/-- The line of a message, at the place of its rank. -/
theorem shown_entry {log : Log Failure Caution} {level : Level} {rank : Nat}
    {message : Message Failure Caution} (found : (log.atLevel level)[rank]? = some message) :
    log.reportLines[log.entryPlace level rank]? = some (indented message.display) := by
  have present : log ≠ [] := by
    intro empty
    rw [empty] at found
    cases found
  rw [reportLines_eq present]
  cases level with
  | error =>
      rw [List.getElem?_append_left (errorPlace_lt found), entryPlace, headingPlace, Nat.zero_add,
        Nat.add_comm]
      exact section_entry (entries_found found)
  | warning =>
      rw [entryPlace, headingPlace, List.getElem?_append_right (by omega),
        show _ + 1 + rank - _ = rank + 1 by omega]
      exact section_entry (entries_found found)

/-- Every indented line is that of a message. -/
theorem entry_shown {log : Log Failure Caution} {number : Nat} {line : String}
    (found : log.reportLines[number]? = some line) (below : isIndented line = true) :
    ∃ level rank message, (log.atLevel level)[rank]? = some message ∧
      log.entryPlace level rank = number := by
  cases log with
  | nil =>
      have only := List.mem_of_getElem? found
      cases List.mem_singleton.mp only
      exact absurd below (by decide)
  | cons first rest =>
      rw [reportLines_eq (List.cons_ne_nil first rest)] at found
      by_cases front : number < headingPlace (first :: rest) .warning
      · rw [List.getElem?_append_left front] at found
        obtain ⟨rank, entry, there, same⟩ := entry_section found below
        obtain ⟨message, recorded⟩ := found_entries there
        refine ⟨.error, rank, message, recorded, ?_⟩
        rw [entryPlace, headingPlace, ← same]
        omega
      · rw [List.getElem?_append_right (Nat.le_of_not_lt front)] at found
        obtain ⟨rank, entry, there, same⟩ := entry_section found below
        obtain ⟨message, recorded⟩ := found_entries there
        refine ⟨.warning, rank, message, recorded, ?_⟩
        unfold headingPlace at front
        rw [entryPlace, headingPlace]
        omega

theorem place_lt {log : Log Failure Caution} {first second : Nat}
    {earlier later : Message Failure Caution} (found : log[first]? = some earlier)
    (foundLater : log[second]? = some later) (same : earlier.level = later.level)
    (before : first < second) : log.place first < log.place second := by
  rw [place_eq found, place_eq foundLater, ← same]
  apply Nat.add_lt_add_left
  exact rank_lt found (beq_self_eq_true earlier.level) before

/-- Errors have their places before warnings. -/
theorem place_lt_of_levels {log : Log Failure Caution} {first second : Nat}
    {earlier later : Message Failure Caution} (found : log[first]? = some earlier)
    (foundLater : log[second]? = some later) (error : earlier.level = .error)
    (warning : later.level = .warning) : log.place first < log.place second := by
  have own := atLevel_at_rank found
  rw [place_eq found, place_eq foundLater]
  rw [error] at own ⊢
  rw [warning]
  calc log.entryPlace .error _
      < log.headingPlace .warning := errorPlace_lt own
    _ ≤ log.entryPlace .warning _ := by
        rw [entryPlace]
        omega

theorem place_lt_iff {log : Log Failure Caution} {first second : Nat}
    {earlier later : Message Failure Caution} (found : log[first]? = some earlier)
    (foundLater : log[second]? = some later) :
    log.place first < log.place second ↔
      earlier.level = .error ∧ later.level = .warning ∨
        earlier.level = later.level ∧ first < second := by
  constructor
  · intro before
    by_cases same : earlier.level = later.level
    · refine .inr ⟨same, Nat.lt_of_not_le fun back => ?_⟩
      cases Nat.lt_or_eq_of_le back with
      | inl back =>
          exact Nat.lt_asymm before (place_lt foundLater found same.symm back)
      | inr equal =>
          rw [equal] at before
          exact Nat.lt_irrefl _ before
    · cases level : earlier.level with
      | error =>
          cases other : later.level with
          | error => exact absurd (level.trans other.symm) same
          | warning => exact .inl ⟨rfl, rfl⟩
      | warning =>
          cases other : later.level with
          | error =>
              exact absurd (place_lt_of_levels foundLater found other level) (Nat.lt_asymm before)
          | warning => exact absurd (level.trans other.symm) same
  · intro ordered
    cases ordered with
    | inl levels => exact place_lt_of_levels found foundLater levels.1 levels.2
    | inr same => exact place_lt found foundLater same.1 same.2

/-- No two messages share a place. -/
theorem place_injective {log : Log Failure Caution} {first second : Nat}
    {earlier later : Message Failure Caution} (found : log[first]? = some earlier)
    (foundLater : log[second]? = some later) (same : log.place first = log.place second) :
    first = second := by
  -- The order of the places is that of the messages, so equal places leave no order between them.
  have forth := mt (place_lt_iff found foundLater).mpr (Nat.not_lt_of_le (Nat.le_of_eq same.symm))
  have back := mt (place_lt_iff foundLater found).mpr (Nat.not_lt_of_le (Nat.le_of_eq same))
  have level : earlier.level = later.level := by
    cases own : earlier.level with
    | error =>
        cases other : later.level with
        | error => rfl
        | warning => exact absurd (.inl ⟨own, other⟩) forth
    | warning =>
        cases other : later.level with
        | error => exact absurd (.inl ⟨other, own⟩) back
        | warning => rfl
  apply Nat.le_antisymm
  · exact Nat.le_of_not_lt fun before => back (.inr ⟨level.symm, before⟩)
  · exact Nat.le_of_not_lt fun before => forth (.inr ⟨level, before⟩)

/-- The lines of a report list its messages. -/
theorem listing_reportLines (log : Log Failure Caution) :
    log.Listing (log.reportLines ++ [""]) log.place where
  shown index message found := by
    have line := shown_entry (atLevel_at_rank found)
    have within := (List.getElem?_eq_some_iff.mp line).1
    rw [place_eq found, List.getElem?_append_left within]
    exact line
  only number line found below := by
    have front : number < log.reportLines.length := by
      apply Nat.lt_of_not_le
      intro last
      rw [List.getElem?_append_right last] at found
      cases List.mem_singleton.mp (List.mem_of_getElem? found)
      exact absurd below (by decide)
    rw [List.getElem?_append_left front] at found
    obtain ⟨level, rank, message, ranked, placed⟩ := entry_shown found below
    obtain ⟨index, recorded, counted⟩ := at_rank_of_filter ranked
    have kept : message.level = level :=
      eq_of_beq (List.mem_filter.mp (List.mem_of_getElem? ranked)).2
    refine ⟨index, ⟨(List.getElem?_eq_some_iff.mp recorded).1, ?_⟩, fun other at_place => ?_⟩
    · rw [place_eq recorded, kept, counted, placed]
    · have there := List.getElem?_eq_getElem at_place.1
      apply place_injective there recorded
      rw [at_place.2, place_eq recorded, kept, counted, placed]
  order first second earlier later := place_lt_iff

/-- A report can be read back if no message has a line feed. Each message has an indented line of
its own, errors before warnings and otherwise in the order in which they were recorded. Logs with
the same report have the same errors and the same warnings, however these are interleaved. -/
theorem report_read_back (log : Log Failure Caution)
    (apart : ∀ message ∈ log, Text.OneLine message.display) :
    (∃ place, log.Listing (Text.lines log.plainReport) place) ∧
      ∀ {Error Warning : Type} [Described Error] [Described Warning] (other : Log Error Warning),
        (∀ message ∈ other, Text.OneLine message.display) →
        log.plainReport = other.plainReport →
        log.errors.map Message.display = other.errors.map Message.display ∧
          log.warnings.map Message.display = other.warnings.map Message.display := by
  constructor
  · rw [lines_plainReport apart]
    exact ⟨log.place, listing_reportLines log⟩
  · intro Error Warning _ _ other otherApart same
    have read : ∀ level, log.entries level = other.entries level := by
      intro level
      calc log.entries level
          = entriesBelow level.title (Text.lines log.plainReport) := by
            rw [lines_plainReport apart, entriesBelow_report]
        _ = entriesBelow level.title (Text.lines other.plainReport) := by rw [same]
        _ = other.entries level := by rw [lines_plainReport otherApart, entriesBelow_report]
    exact ⟨read .error, read .warning⟩

/-- Texts that look like a heading or like the number of a line. -/
def disguised : Log String String :=
  [.warning none "TYPE ERRORS:", .error (some 3) "x", .error none "No type errors found!"]

def disguisedAgain : Log String String :=
  [.error none "Line 3: x", .error none "No type errors found!", .warning none "TYPE ERRORS:"]

theorem disguised_read_back :
    ((∀ message ∈ disguised, Text.OneLine message.display) ∧
      (∀ message ∈ disguisedAgain, Text.OneLine message.display) ∧
      disguised.plainReport = disguisedAgain.plainReport) ∧
    (∃ place, disguised.Listing (Text.lines disguised.plainReport) place) ∧
      disguised.errors.map Message.display = disguisedAgain.errors.map Message.display ∧
      disguised.warnings.map Message.display = disguisedAgain.warnings.map Message.display := by
  have apart : ∀ message ∈ disguised, Text.OneLine message.display := by decide
  have apartAgain : ∀ message ∈ disguisedAgain, Text.OneLine message.display := by decide
  have same : disguised.plainReport = disguisedAgain.plainReport := by decide
  have read := report_read_back disguised apart
  exact ⟨⟨apart, apartAgain, same⟩, read.1, read.2 disguisedAgain apartAgain same⟩

end Log

end Sema
