import Sema.Cli.Run
import Sema.Proofs.Report.Styles
import Sema.Proofs.Symbols.Frame
import Sema.Proofs.Tree.Lossless
import Sema.Proofs.Walk.Dressed

/-!
# The verdict of a run

The command line checks the program of a document and then shows what it is asked to show. The
tokens of the document stand in the table that the check works on, but no check looks at them, so
the findings are those of the program alone. What a run shows beyond its report, and where it shows
it, has no part in its exit code.
-/

namespace Sema.Cli

/-! ### The analysis behind a check -/

namespace Settings

/-- The table that an analysis starts with if there are no tokens. -/
def fields (settings : Settings) (program : Program) : Symbols :=
  if settings.noFields then Symbols.empty else Symbols.empty.declareFields program

/-- The analysis that some settings ask for. -/
def analysis (settings : Settings) (program : Program) : Session :=
  (Session.start (settings.fields program) settings.options).analyse program

end Settings

theorem tokens_declareFields (symbols : Symbols) (fields : List (Located Field)) :
    (fields.foldl Symbols.declareField symbols).tokens = symbols.tokens := by
  induction fields generalizing symbols with
  | nil => rfl
  | cons field rest previous =>
      rw [List.foldl_cons, previous, Symbols.declareField, Symbols.declare]
      cases symbols.scopes.local? field.data.name <;> rfl

theorem symbols_with_tokens (tokens : List TokenEntry) (symbols : Symbols) :
    symbols.inGuise (.withTokens tokens) = { symbols with tokens } := by
  have each : Variable.inGuise (.withTokens tokens) = fun entry => entry := rfl
  rw [Symbols.inGuise, each, List.map_id']
  rfl

theorem log_with_tokens (tokens : List TokenEntry) (log : FindingLog) :
    logInGuise (.withTokens tokens) log = log := log_in_guise_bare log

theorem Settings.symbols_eq (settings : Settings) (document : Document) :
    settings.symbols document =
      (settings.fields document.program).inGuise (.withTokens document.tokens) := by
  have none : (settings.fields document.program).tokens = [] := by
    unfold Settings.fields
    cases settings.noFields with
    | true => rfl
    | false => exact tokens_declareFields Symbols.empty document.program.fields
  change document.tokens.foldl Symbols.addToken (settings.fields document.program) = _
  rw [Symbols.addTokens_eq, symbols_with_tokens, none, List.nil_append]

/-- A check is the analysis of its program, with the tokens of the document in its table. -/
theorem Settings.check_eq (settings : Settings) (document : Document) :
    settings.check document =
      (settings.analysis document.program).inGuise (.withTokens document.tokens) := by
  have dressed := @analyse_in_guise (.withTokens document.tokens)
    (.start (settings.fields document.program) settings.options) document.program
  rw [Guise.program_with_tokens, start_in_guise] at dressed
  rw [Settings.check, Settings.symbols_eq]
  exact dressed

namespace Settings

variable (settings : Settings) (document : Document)

theorem check_log :
    (settings.check document).log = (settings.analysis document.program).log := by
  rw [check_eq]
  exact log_with_tokens document.tokens _

theorem check_symbols :
    (settings.check document).symbols =
      { (settings.analysis document.program).symbols with tokens := document.tokens } := by
  rw [check_eq]
  exact symbols_with_tokens document.tokens _

end Settings

/-! ### What is shown -/

/-- The events of a part, which a receiver that refuses nothing gets all of. -/
def partEvents : Part → List Event
  | .styled content => .reset :: content ++ [.reset]
  | .bare content => [.text content]

theorem taken_unlimited (events : List Event) : Room.taken none events = events := by
  induction events with
  | nil => rfl
  | cons event rest previous => cases event <;> exact congrArg (_ :: ·) previous

theorem sendPart_unlimited (received : List Event) (part : Part) :
    (⟨received, none⟩ : Terminal).sendPart part = (true, ⟨received ++ partEvents part, none⟩) := by
  cases part with
  | bare content => rfl
  | styled content =>
      have inner := (⟨received ++ [.reset], none⟩ : Terminal).send_eq content
      rw [taken_unlimited] at inner
      change ((Terminal.send ⟨received ++ [.reset], none⟩ content).1,
        (Terminal.send ⟨received ++ [.reset], none⟩ content).2.receive .reset) = _
      rw [inner]
      simp [Terminal.receive, partEvents, Room.fits, Room.spend]

theorem sendParts_unlimited (received : List Event) (parts : List Part) :
    (⟨received, none⟩ : Terminal).sendParts parts =
      (true, ⟨received ++ parts.flatMap partEvents, none⟩) := by
  induction parts generalizing received with
  | nil => rw [Terminal.sendParts, List.flatMap_nil, List.append_nil]
  | cons part rest previous =>
      rw [Terminal.sendParts, sendPart_unlimited]
      dsimp only
      rw [previous, List.flatMap_cons, List.append_assoc]

theorem sent_eq_flatMap (parts : List Part) : sent none parts = parts.flatMap partEvents := by
  rw [sent, sendParts_unlimited, List.nil_append]

theorem sent_append (first second : List Part) :
    sent none (first ++ second) = sent none first ++ sent none second := by
  rw [sent_eq_flatMap, List.flatMap_append, ← sent_eq_flatMap, ← sent_eq_flatMap]

/-- What follows the report of a run: the unused variables, the tokens and the summary, each only if
it is asked for. -/
def Settings.sequel (settings : Settings) (session : Session) (tokens : List TokenEntry) :
    List Event :=
  (if settings.unused then sent none (unusedReport session.symbols.unused) else []) ++
    (if settings.tokens ∧ tokens ≠ [] then [.text (TokenTable.render tokens ++ "\n")] else []) ++
    (if settings.statistics then sent none session.log.summary else [])

theorem Settings.sent_report (settings : Settings) (document : Document) :
    sent none (settings.report (settings.check document)) =
      sent none (settings.analysis document.program).log.report ++
        settings.sequel (settings.analysis document.program) document.tokens := by
  have unused : (settings.check document).symbols.unused =
      (settings.analysis document.program).symbols.unused := by
    rw [settings.check_symbols]
    rfl
  have tokens : (settings.check document).symbols.tokens = document.tokens := by
    rw [settings.check_symbols]
  have unusedPart : sent none (settings.unusedPart (settings.check document)) =
      if settings.unused then
        sent none (unusedReport (settings.analysis document.program).symbols.unused)
      else [] := by
    rw [Settings.unusedPart, unused]
    cases settings.unused <;> rfl
  have tokenPart : sent none (settings.tokenPart (settings.check document)) =
      if settings.tokens ∧ document.tokens ≠ [] then
        [.text (TokenTable.render document.tokens ++ "\n")]
      else [] := by
    rw [Settings.tokenPart, tokens]
    cases settings.tokens with
    | false => rfl
    | true => cases document.tokens <;> rfl
  have summaryPart : sent none (settings.summaryPart (settings.check document)) =
      if settings.statistics then sent none (settings.analysis document.program).log.summary
      else [] := by
    rw [Settings.summaryPart, settings.check_log]
    cases settings.statistics <;> rfl
  rw [Settings.report, sent_append, sent_append, sent_append, unusedPart, tokenPart, summaryPart,
    settings.check_log, Settings.sequel, List.append_assoc, List.append_assoc, List.append_assoc]

/-- Events reach who asked for them: as they are on standard output, or else as plain text at the
path that is named. -/
structure Delivered (settings : Settings) (directory : Directory) (events : List Event)
    (result : Result) : Prop where
  printed : settings.output = none →
    result.output = events ∧ result.errorText = "" ∧ result.directory = directory
  stored : ∀ path destination, settings.output = some path →
    directory.destination path = .ok destination →
      let plain := Event.render false events
      result.directory = directory.receive plain.toUTF8 destination ∧
        result.output = (if destination = .standardOutput then [.text plain] else []) ∧
        result.errorText = if destination = .standardError then plain else ""

/-- The input is a text, and the report can be written where it is asked for. -/
structure Usable (invocation : Invocation) (directory : Directory) (text : String) : Prop where
  input : ∃ bytes, directory.read invocation.file = .ok bytes ∧ String.fromUTF8? bytes = some text
  output : ∀ path, invocation.settings.output = some path →
    ∃ destination, directory.destination path = .ok destination

theorem Usable.run_eq {invocation : Invocation} {directory : Directory} {text : String}
    (usable : Usable invocation directory text) :
    run invocation directory =
      match Document.parse? text with
      | none => .ofFailure (.cannotDecode invocation.file) directory
      | some document =>
          deliver invocation.settings (invocation.settings.check document) directory := by
  obtain ⟨bytes, read, decoded⟩ := usable.input
  unfold run Invocation.examine
  rw [read]
  dsimp only
  rw [decoded]
  dsimp only
  cases Document.parse? text <;> rfl

theorem Usable.delivered {invocation : Invocation} {directory : Directory} {text : String}
    (usable : Usable invocation directory text) (session : Session) :
    (deliver invocation.settings session directory).exitCode = exitCode session ∧
      Delivered invocation.settings directory (sent none (invocation.settings.report session))
        (deliver invocation.settings session directory) := by
  unfold deliver
  cases output : invocation.settings.output with
  | none =>
      refine ⟨rfl, ⟨fun _ => ⟨rfl, rfl, rfl⟩, ?_⟩⟩
      intro path destination named
      rw [output] at named
      cases named
  | some path =>
      obtain ⟨destination, leads⟩ := usable.output path output
      dsimp only
      rw [leads]
      refine ⟨rfl, ⟨?_, ?_⟩⟩
      · intro unnamed
        rw [output] at unnamed
        cases unnamed
      · intro other target named found
        rw [output] at named
        cases named
        rw [leads] at found
        cases found
        exact ⟨rfl, rfl, rfl⟩

theorem exitCode_eq (settings : Settings) (document : Document) :
    exitCode (settings.check document) =
      if (settings.analysis document.program).log.hasErrors then 1 else 0 := by
  unfold exitCode
  rw [settings.check_log]

theorem hasErrors_iff {Failure Caution : Type} (log : Log Failure Caution) :
    log.hasErrors = true ↔ ∃ message ∈ log, message.level = .error := by
  unfold Log.hasErrors Log.errors Log.atLevel
  rw [Bool.not_eq_true', List.isEmpty_eq_false_iff_exists_mem]
  constructor
  · rintro ⟨message, kept⟩
    obtain ⟨recorded, level⟩ := List.mem_filter.mp kept
    exact ⟨message, recorded, eq_of_beq level⟩
  · rintro ⟨message, recorded, level⟩
    exact ⟨message, List.mem_filter.mpr ⟨recorded, beq_iff_eq.mpr level⟩⟩

theorem Settings.analysis_congr {first second : Settings} (options : second.options = first.options)
    (noFields : second.noFields = first.noFields) (program : Program) :
    second.analysis program = first.analysis program := by
  unfold Settings.analysis Settings.fields
  rw [options, noFields]

/-! ### Verdicts -/

theorem Usable.run_document {invocation : Invocation} {directory : Directory} {text : String}
    (usable : Usable invocation directory text) {document : Document}
    (parsed : Document.parse? text = some document) :
    (run invocation directory).exitCode =
        (if (invocation.settings.analysis document.program).log.hasErrors then 1 else 0) ∧
      Delivered invocation.settings directory
        (sent none (invocation.settings.analysis document.program).log.report ++
          invocation.settings.sequel (invocation.settings.analysis document.program)
            document.tokens)
        (run invocation directory) := by
  have delivered := usable.delivered (invocation.settings.check document)
  rw [invocation.settings.sent_report, exitCode_eq] at delivered
  rw [usable.run_eq, parsed]
  exact delivered

theorem Usable.run_undecoded {invocation : Invocation} {directory : Directory} {text : String}
    (usable : Usable invocation directory text) (undecoded : Document.parse? text = none) :
    run invocation directory = .ofFailure (.cannotDecode invocation.file) directory := by
  rw [usable.run_eq, undecoded]

/-- The exit code tells whether there is a document and whether its program has an error. -/
theorem Usable.exitCode_iff {invocation : Invocation} {directory : Directory} {text : String}
    (usable : Usable invocation directory text) :
    ((run invocation directory).exitCode = 1 ↔ Document.parse? text = none ∨
      ∃ document, Document.parse? text = some document ∧
        ∃ message ∈ (invocation.settings.analysis document.program).log, message.level = .error) ∧
    (run invocation directory).exitCode ≤ 1 := by
  cases parsed : Document.parse? text with
  | none =>
      rw [usable.run_undecoded parsed]
      exact ⟨⟨fun _ => .inl rfl, fun _ => rfl⟩, Nat.le_refl 1⟩
  | some document =>
      obtain ⟨code, -⟩ := usable.run_document parsed
      rw [code]
      refine ⟨?_, by split <;> omega⟩
      constructor
      · intro failed
        have errors : (invocation.settings.analysis document.program).log.hasErrors = true := by
          by_contra passes
          rw [if_neg passes] at failed
          cases failed
        exact .inr ⟨document, rfl, (hasErrors_iff _).mp errors⟩
      · rintro (none | ⟨found, same, errors⟩)
        · cases none
        · cases same
          exact if_pos ((hasErrors_iff _).mpr errors)

/-- A run fails exactly if its input is no document or its program has an error. It shows the report
of its program, and then what else it is asked for. Another run for this program has the same
verdict and the same report, whatever else it shows. -/
theorem verdict_of_program {invocation : Invocation} {directory : Directory} {text : String}
    (usable : Usable invocation directory text) :
    ((run invocation directory).exitCode = 1 ↔ Document.parse? text = none ∨
      ∃ document, Document.parse? text = some document ∧
        ∃ message ∈ (invocation.settings.analysis document.program).log, message.level = .error) ∧
    (run invocation directory).exitCode ≤ 1 ∧
    (Document.parse? text = none →
      run invocation directory = .ofFailure (.cannotDecode invocation.file) directory) ∧
    ∀ document, Document.parse? text = some document →
      let analysis := invocation.settings.analysis document.program
      let report := sent none analysis.log.report
      Delivered invocation.settings directory
        (report ++ invocation.settings.sequel analysis document.tokens)
        (run invocation directory) ∧
      ∀ other place content, Usable other place content →
        ∀ second, Document.parse? content = some second → second.program = document.program →
          other.settings.options = invocation.settings.options →
          other.settings.noFields = invocation.settings.noFields →
            (run other place).exitCode = (run invocation directory).exitCode ∧
            Delivered other.settings place
              (report ++ other.settings.sequel analysis second.tokens) (run other place) := by
  refine ⟨usable.exitCode_iff.1, usable.exitCode_iff.2, usable.run_undecoded, ?_⟩
  intro document parsed
  obtain ⟨code, delivered⟩ := usable.run_document parsed
  refine ⟨delivered, ?_⟩
  intro other place content usableToo second parsedToo program options noFields
  have further := usableToo.run_document parsedToo
  rw [program, Settings.analysis_congr options noFields] at further
  exact ⟨further.1.trans code.symm, further.2⟩

/-- A method that returns a value of another type. -/
def misreturn : Program :=
  let method : Method :=
    { returnTy := "int", name := "m", params := [],
      body := [.place 3 1 (.returning (some (.place 3 8 (.literal "String" "a"))))] }
  ⟨[.place 1 1 ⟨"A", "", [.place 2 3 (.method method)]⟩]⟩

/-- A document of that program and some tokens. -/
def misreturnText (tokens : List TokenEntry) : String :=
  (Json.record [("program", misreturn.toJson),
    ("tokens", .ofList TokenEntry.toJson tokens)]).render

def keyword : TokenEntry := ⟨"Keyword", "class", 1, 1⟩

def inputs : Directory :=
  ⟨⟨[("a", (misreturnText []).toUTF8), ("b", (misreturnText [keyword]).toUTF8)]⟩⟩

def plainRun : Invocation := ⟨"a", {}⟩

def fullRun : Invocation :=
  ⟨"b", { output := some "c", unused := true, tokens := true, statistics := true }⟩

theorem fromUTF8?_toUTF8 (text : String) : String.fromUTF8? text.toUTF8 = some text := by
  unfold String.fromUTF8?
  exact dif_pos text.isValidUTF8

/-- The names of the files have no slashes in them. -/
theorem path_of_name : ∀ name ∈ ["a", "b", "c"], Path.ofText name = ⟨false, [], name, false⟩ := by
  have whole : ∀ name ∈ ["a", "b", "c"], name.splitOn "/" = [name] := by
    intro name member
    change name.splitOnAux "/" 0 0 0 [] = [name]
    rw [String.splitOnAux, String.splitOnAux]
    revert name
    decide +kernel
  intro name member
  unfold Path.ofText
  rw [whole name member]
  revert name
  decide +kernel

theorem usable_plainRun : Usable plainRun inputs (misreturnText []) := by
  have read : inputs.read "a" = .ok (misreturnText []).toUTF8 := by
    unfold Directory.read Directory.locate
    rw [path_of_name "a" (by decide)]
    rfl
  refine ⟨⟨_, read, fromUTF8?_toUTF8 _⟩, ?_⟩
  intro path named
  cases named

theorem usable_fullRun : Usable fullRun inputs (misreturnText [keyword]) := by
  have read : inputs.read "b" = .ok (misreturnText [keyword]).toUTF8 := by
    unfold Directory.read Directory.locate
    rw [path_of_name "b" (by decide)]
    rfl
  have free : inputs.destination "c" = .ok (.file "c") := by
    unfold Directory.destination Directory.locate
    rw [path_of_name "c" (by decide)]
    rfl
  refine ⟨⟨_, read, fromUTF8?_toUTF8 _⟩, ?_⟩
  intro path named
  cases named
  exact ⟨_, free⟩

theorem misreturn_fails :
    (run plainRun inputs).exitCode = 1 ∧ (run fullRun inputs).exitCode = 1 ∧
      (run plainRun inputs).output = [.reset, .style ⟨false, some .red⟩, .style ⟨true, some .red⟩,
        .text "TYPE ERRORS:\n", .reset, .text ("  Line 3: Incompatible return type. " ++
          "Expected 'int' but got 'String' in method 'm'\n"), .reset] := by
  have parsed := document_read misreturn []
  have parsedToo := document_read misreturn [keyword]
  obtain ⟨code, _, _, shown⟩ := verdict_of_program usable_plainRun
  obtain ⟨delivered, others⟩ := shown _ parsed
  have further := others fullRun inputs _ usable_fullRun _ parsedToo rfl rfl rfl
  have fails : (run plainRun inputs).exitCode = 1 := by
    apply code.mpr
    refine .inr ⟨_, parsed, ?_⟩
    exact (hasErrors_iff _).mp (by decide +kernel)
  refine ⟨fails, further.1.trans fails, ?_⟩
  rw [(delivered.printed rfl).1]
  decide +kernel

end Sema.Cli
