import Sema.Proofs.Walk.Alike
import Sema.Proofs.Walk.Findings
import Sema.Proofs.Walk.MethodVisit
import Mathlib.Data.List.Basic
import Mathlib.Data.List.Flatten

/-!
# What a first pass changes

A check looks at the signatures only if it is the check of a call, and then only at the one of the
name called. So two analyses of a program, one with a first pass and one without, say the same of
every body but at the calls of methods that are declared further down.
-/

namespace Sema

/-! ### Remarks and signatures -/

/-- Two sets of signatures make a difference only at a call of a name in which they differ. -/
theorem site_findings_congr {first second : String → Option Signature} {site : Site}
    (same : ∀ name args, site.check = .call name args → first name = second name) :
    site.findings first = site.findings second := by
  obtain ⟨types, method, line, check⟩ := site
  cases check with
  | assignment | initializer | binary | condition | returning => rfl
  | call name args =>
      have own := same name args rfl
      have counted : ∀ (params : List ParameterType) (args : List (Located Expr)) (position : Nat),
          Context.arguments ⟨types, first, some method⟩ name line position params args =
            Context.arguments ⟨types, second, some method⟩ name line position params args := by
        intro params
        induction params with
        | nil => intros; rfl
        | cons param params induction =>
            intro args position
            cases args with
            | nil => rfl
            | cons arg args => exact congrArg _ (induction args (position + 1))
      simp only [Site.findings, Context.findings, Context.call, own, counted]

theorem findings_no_redeclaration (signature? : String → Option Signature) (limit : Nat)
    (remark : Remark) : (remark.findings limit signature?).filter Message.redeclares = [] := by
  cases remark with
  | refused => rfl
  | checked site =>
      have raised := Context.findings_raised ⟨site.types, signature?, some site.method⟩ site.line
        site.check
      exact raised.filter_eq_nil fun _ => Check.raises_not_redeclares

/-- Only a call may name a method that is not found. -/
theorem findings_resolved (signature? : String → Option Signature) (limit : Nat) {remark : Remark}
    (other : ∀ site name args, remark = .checked site → site.check ≠ .call name args) :
    (remark.findings limit signature?).filter Message.unresolved = [] := by
  cases remark with
  | refused => rfl
  | checked site =>
      have raised := Context.findings_raised ⟨site.types, signature?, some site.method⟩ site.line
        site.check
      apply raised.filter_eq_nil
      intro message kind
      by_contra unresolved
      rw [Bool.not_eq_false] at unresolved
      obtain ⟨name, args, call⟩ := Check.raises_unresolved kind unresolved
      exact other site name args rfl call

/-- A remark with the method in which it stands. -/
structure Noted where
  place : Placed
  remark : Remark

def Program.noted (program : Program) (types : Typing) (limit : Nat) : List Noted :=
  program.placed.flatMap fun place =>
    (place.method.data.remarks types limit).map fun remark => ⟨place, remark⟩

namespace Noted

/-- What is reported if the body sees the methods above it and itself. -/
def single (noted : Noted) (limit : Nat) : FindingLog :=
  noted.remark.findings limit (declaredIn noted.place.sofar)

/-- What is reported if the body sees all methods. -/
def ahead (noted : Noted) (program : Program) (limit : Nat) : FindingLog :=
  noted.remark.findings limit (declaredIn program.methods)

/-- The name that is called, with the line, if the remark is about a call. -/
def call? (noted : Noted) : Option (String × UInt64) :=
  match noted.remark with
  | .checked ⟨_, _, line, .call name _⟩ => some (name, line)
  | _ => none

/-- The call of a method whose first declaration stands below the body. -/
structure Forward (noted : Noted) (program : Program) (site : Site) (name : String)
    (args : List (Located Expr)) (signature : Signature) : Prop where
  remark : noted.remark = .checked site
  check : site.check = .call name args
  above : declaredIn noted.place.sofar name = none
  below : ∃ below, program.methods = noted.place.sofar ++ below ∧
    declaredIn below name = some signature

variable {noted : Noted} {program : Program} {types : Typing} {limit : Nat}

/-- A forward call is not found without a first pass, and checked against its method with one. -/
theorem Forward.findings {site : Site} {name : String} {args : List (Located Expr)}
    {signature : Signature} (forward : noted.Forward program site name args signature) :
    noted.single limit = warningAt site.line (.methodNotFound name) ∧
      noted.ahead program limit =
        Context.call ⟨site.types, fun _ => some signature, some site.method⟩ name args
          site.line := by
  obtain ⟨remark, check, above, below, split, found⟩ := forward
  have all : declaredIn program.methods name = some signature := by
    rw [split, declaredIn_append, above, found]
    rfl
  constructor
  · rw [single, remark, Remark.findings, Site.findings, check, Context.findings, Context.call]
    simp only [above]
  · have known : site.findings (declaredIn program.methods) =
        site.findings fun _ => some signature := by
      apply site_findings_congr
      intro other others same
      rw [check] at same
      cases same
      exact all
    rw [ahead, remark, Remark.findings, known, Site.findings, check]
    rfl

theorem sofar_of_member (member : noted ∈ program.noted types limit) :
    ∃ below, program.methods = noted.place.sofar ++ below := by
  obtain ⟨place, known, inside⟩ := List.mem_flatMap.mp member
  obtain ⟨remark, -, rfl⟩ := List.mem_map.mp inside
  obtain ⟨front, below, split, above⟩ := mem_placed.mp known
  refine ⟨below, ?_⟩
  rw [split, Placed.sofar, above]
  simp

/-- Everywhere else a first pass makes no difference. -/
theorem same_or_forward (member : noted ∈ program.noted types limit) :
    noted.single limit = noted.ahead program limit ∨
      ∃ site name args signature, noted.Forward program site name args signature := by
  obtain ⟨below, split⟩ := sofar_of_member member
  cases remark : noted.remark with
  | refused => exact .inl (by rw [single, ahead, remark]; rfl)
  | checked site =>
      by_cases differ : ∃ name args, site.check = .call name args ∧
          declaredIn noted.place.sofar name = none ∧ declaredIn below name ≠ none
      · obtain ⟨name, args, check, above, found⟩ := differ
        obtain ⟨signature, found⟩ := Option.ne_none_iff_exists'.mp found
        exact .inr ⟨site, name, args, signature, remark, check, above, below, split, found⟩
      · refine .inl ?_
        rw [single, ahead, remark]
        apply site_findings_congr
        intro name args check
        rw [split, declaredIn_append]
        cases above : declaredIn noted.place.sofar name with
        | some signature => rfl
        | none =>
            by_contra different
            exact differ ⟨name, args, check, above, fun none => different (by rw [none]; rfl)⟩

theorem errors_sublist (member : noted ∈ program.noted types limit) :
    ((noted.single limit).errors).Sublist (noted.ahead program limit).errors := by
  rcases same_or_forward member with same | ⟨site, name, args, signature, forward⟩
  · rw [same]
  · have nothing : (noted.single limit).errors = [] := by
      rw [forward.findings.1]
      rfl
    rw [nothing]
    exact List.nil_sublist _

theorem call_of_some {name : String} {line : UInt64} (calls : noted.call? = some (name, line)) :
    ∃ types method args, noted.remark = .checked ⟨types, method, line, .call name args⟩ := by
  unfold call? at calls
  split at calls
  · rename_i types method place called args remark
    obtain ⟨rfl, rfl⟩ := Prod.mk.inj (Option.some.inj calls)
    exact ⟨types, method, args, remark⟩
  · cases calls

/-- With a first pass the methods that are not found are declared nowhere. -/
theorem unresolved_ahead (noted : Noted) (program : Program) (limit : Nat) :
    (noted.ahead program limit).filter Message.unresolved =
      match noted.call? with
      | some (name, line) =>
          if name ∈ program.methods.map fun method => method.data.name then []
          else [.warning (some line) (.methodNotFound name)]
      | none => [] := by
  cases calls : noted.call? with
  | none =>
      apply findings_resolved
      rintro ⟨types, method, line, check⟩ name args remark rfl
      simp [call?, remark] at calls
  | some call =>
      obtain ⟨name, line⟩ := call
      obtain ⟨types, method, args, remark⟩ := call_of_some calls
      have findings : noted.ahead program limit =
          Context.call ⟨types, declaredIn program.methods, some method⟩ name args line := by
        rw [ahead, remark]
        rfl
      rw [findings]
      cases found : declaredIn program.methods name with
      | some signature =>
          have known : name ∈ program.methods.map fun method => method.data.name := by
            by_contra absent
            rw [declaredIn_eq_none.mpr absent] at found
            cases found
          have resolved := Context.call_resolved
            ⟨types, declaredIn program.methods, some method⟩ line found args
          rw [resolved.filter_eq_nil (by simp)]
          simp only [if_pos known]
      | none =>
          simp only [if_neg (declaredIn_eq_none.mp found), Context.call, found]
          rfl

end Noted

/-- How the analyses without and with a first pass differ. -/
structure ForwardCallsOnly (program : Program) (types : Typing) (limit : Nat)
    (single ahead : Session) : Prop where
  catalogue : single.catalogue = ahead.catalogue
  locals : single.locals = ahead.locals
  symbols : single.symbols = ahead.symbols
  redeclarations :
    single.log.filter Message.redeclares = ahead.log.filter Message.redeclares
  in_front : ahead.log = ahead.log.filter Message.redeclares ++
    ahead.log.filter fun message => !message.redeclares
  others_single : (single.log.filter fun message => !message.redeclares) =
    (program.noted types limit).flatMap fun noted => noted.single limit
  others_ahead : (ahead.log.filter fun message => !message.redeclares) =
    (program.noted types limit).flatMap fun noted => noted.ahead program limit
  forward : ∀ noted ∈ program.noted types limit, ∀ site name args signature,
    noted.Forward program site name args signature →
      noted.single limit = [.warning (some site.line) (.methodNotFound name)] ∧
      noted.ahead program limit =
        Context.call ⟨site.types, fun _ => some signature, some site.method⟩ name args site.line
  elsewhere : ∀ noted ∈ program.noted types limit,
    (∀ site name args signature, ¬ noted.Forward program site name args signature) →
      noted.single limit = noted.ahead program limit
  not_found : ahead.log.filter Message.unresolved =
    (program.noted types limit).flatMap fun noted =>
      match noted.call? with
      | some (name, line) =>
          if name ∈ program.methods.map fun method => method.data.name then []
          else [.warning (some line) (.methodNotFound name)]
      | none => []
  errors : (single.log.errors.filter fun message => !message.redeclares).Sublist
    (ahead.log.errors.filter fun message => !message.redeclares)

theorem redeclaration_redeclares (earlier : List (Located Method)) (method : Located Method) :
    ∀ message ∈ redeclaration earlier method, message.redeclares = true := by
  unfold redeclaration
  cases declaredIn earlier method.data.name with
  | none => simp
  | some first => simp [errorAt, Message.redeclares]

theorem messages_not_redeclaring (place : Placed) (types : Typing) (limit : Nat)
    (signature? : String → Option Signature) :
    ∀ message ∈ place.messages types limit signature?, message.redeclares = false := by
  intro message member
  obtain ⟨remark, -, inside⟩ := List.mem_flatMap.mp member
  have none := findings_no_redeclaration signature? limit remark
  have kind := List.filter_eq_nil_iff.mp none message inside
  simpa using kind

theorem filter_redeclares {front rest : FindingLog}
    (redeclaring : ∀ message ∈ front, message.redeclares = true)
    (other : ∀ message ∈ rest, message.redeclares = false) :
    (front ++ rest).filter Message.redeclares = front ∧
      ((front ++ rest).filter fun message => !message.redeclares) = rest := by
  rw [List.filter_append, List.filter_append, List.filter_eq_self.mpr redeclaring]
  constructor
  · rw [List.filter_eq_nil_iff.mpr fun message member => by simp [other message member],
      List.append_nil]
  · rw [List.filter_eq_nil_iff.mpr fun message member => by simp [redeclaring message member],
      List.filter_eq_self.mpr fun message member => by simp [other message member],
      List.nil_append]

theorem flatMap_noted (program : Program) (types : Typing) (limit : Nat)
    (findings : Noted → FindingLog) :
    (program.noted types limit).flatMap findings = program.placed.flatMap fun place =>
      (place.method.data.remarks types limit).flatMap fun remark => findings ⟨place, remark⟩ := by
  rw [Program.noted, List.flatMap_assoc]
  simp only [List.flatMap_map]

/-- Redeclarations and other messages of an analysis without a first pass. -/
theorem filter_single (program : Program) (types : Typing) (limit : Nat) {log : FindingLog}
    (whole : log = program.placed.flatMap fun place => place.redeclaration ++
      place.messages types limit (declaredIn place.sofar)) :
    log.filter Message.redeclares = program.placed.flatMap Placed.redeclaration ∧
      (log.filter fun message => !message.redeclares) =
        (program.noted types limit).flatMap fun noted => noted.single limit := by
  have parts : ∀ place : Placed, _ ∧ _ := fun place =>
    filter_redeclares (redeclaration_redeclares place.earlier place.method)
      (messages_not_redeclaring place types limit (declaredIn place.sofar))
  rw [whole, List.filter_flatMap, List.filter_flatMap, flatMap_noted]
  exact ⟨List.flatMap_congr fun place _ => (parts place).1,
    List.flatMap_congr fun place _ => (parts place).2⟩

/-- Redeclarations and other messages of an analysis with a first pass. -/
theorem filter_ahead (program : Program) (types : Typing) (limit : Nat) {log : FindingLog}
    (whole : log = program.placed.flatMap Placed.redeclaration ++ program.placed.flatMap
      fun place => place.messages types limit (declaredIn program.methods)) :
    log.filter Message.redeclares = program.placed.flatMap Placed.redeclaration ∧
      (log.filter fun message => !message.redeclares) =
        (program.noted types limit).flatMap fun noted => noted.ahead program limit := by
  rw [whole, flatMap_noted]
  apply filter_redeclares
  · intro message member
    obtain ⟨place, -, inside⟩ := List.mem_flatMap.mp member
    exact redeclaration_redeclares place.earlier place.method message inside
  · intro message member
    obtain ⟨place, -, inside⟩ := List.mem_flatMap.mp member
    exact messages_not_redeclaring place types limit _ message inside

theorem redeclares_not_unresolved {message : Message Violation Doubt}
    (redeclares : message.redeclares = true) : message.unresolved = false := by
  cases message with
  | error line cause => rfl
  | warning line doubt => cases redeclares

/-- A redeclaration is not a call that is not found. -/
theorem filter_unresolved (log : FindingLog) :
    log.filter Message.unresolved =
      (log.filter fun message => !message.redeclares).filter Message.unresolved := by
  rw [List.filter_filter]
  apply List.filter_congr
  intro message _
  cases kind : message.redeclares with
  | true => rw [redeclares_not_unresolved kind]; rfl
  | false => simp

theorem errors_others (log : FindingLog) :
    (log.errors.filter fun message => !message.redeclares) =
      Log.errors (log.filter fun message => !message.redeclares) := by
  simp only [Log.errors, Log.atLevel, List.filter_filter]
  exact List.filter_congr fun message _ => Bool.and_comm _ _

/-- A first pass makes a difference at forward calls and nowhere else. -/
theorem first_pass_changes_forward_calls_only {symbols : Symbols} (reachable : symbols.Reachable)
    {limit : Nat} (positive : 0 < limit) (program : Program) :
    ForwardCallsOnly program symbols.typeOf? limit
      ((Session.start symbols ⟨false, limit⟩).analyse program)
      ((Session.start symbols ⟨true, limit⟩).analyse program) := by
  have stored := reachable.in_store
  have alike := Session.alike_analyses symbols program ⟨false, limit⟩ ⟨true, limit⟩ rfl
  obtain ⟨singleCatalogue, singleLog⟩ :
      ((Session.start symbols ⟨false, limit⟩).analyse program).catalogue = _ ∧ _ :=
    Session.log_single rfl positive stored program
  obtain ⟨aheadCatalogue, aheadLog⟩ :
      ((Session.start symbols ⟨true, limit⟩).analyse program).catalogue = _ ∧ _ :=
    Session.log_ahead rfl stored program
  obtain ⟨singleRedeclares, singleOthers⟩ := filter_single program symbols.typeOf? limit singleLog
  obtain ⟨aheadRedeclares, aheadOthers⟩ := filter_ahead program symbols.typeOf? limit aheadLog
  exact {
    catalogue := singleCatalogue.trans aheadCatalogue.symm
    locals := alike.locals
    symbols := alike.symbols
    redeclarations := singleRedeclares.trans aheadRedeclares.symm
    in_front := by
      rw [aheadRedeclares, aheadOthers, flatMap_noted]
      exact aheadLog
    others_single := singleOthers
    others_ahead := aheadOthers
    forward := fun noted _ site name args signature forward => forward.findings
    elsewhere := by
      intro noted member elsewhere
      rcases Noted.same_or_forward member with same | ⟨site, name, args, signature, forward⟩
      · exact same
      · exact absurd forward (elsewhere site name args signature)
    not_found := by
      rw [filter_unresolved, aheadOthers, List.filter_flatMap]
      exact List.flatMap_congr fun noted _ => Noted.unresolved_ahead noted program limit
    errors := by
      rw [errors_others, errors_others, singleOthers, aheadOthers]
      simp only [Log.errors, Log.atLevel, List.filter_flatMap]
      exact List.Sublist.flatMap_right _ fun noted member => Noted.errors_sublist member }

/-- A call of a name that is declared nowhere, above a method that is declared twice. -/
def calledAndRedeclared : Program :=
  let call (name : String) : Located Stmt :=
    .place 2 5 (.expression (.place 2 5 (.call name [])))
  let method (line : UInt64) (name : String) (body : List (Located Stmt)) : Located Member :=
    .place line 1 (.method { returnTy := "void", name, params := [], body })
  ⟨[.place 1 1 ⟨"Sample", "",
    [method 1 "first" [call "second", call "nowhere"], method 4 "second" [], method 6 "second" []]⟩]⟩

theorem first_pass_called_and_redeclared :
    ForwardCallsOnly calledAndRedeclared Symbols.empty.typeOf? 3
        ((Session.start .empty ⟨false, 3⟩).analyse calledAndRedeclared)
        ((Session.start .empty ⟨true, 3⟩).analyse calledAndRedeclared) ∧
      ((Session.start .empty ⟨false, 3⟩).analyse calledAndRedeclared).log =
        [.warning (some 2) (.methodNotFound "second"),
          .warning (some 2) (.methodNotFound "nowhere"),
          .error (some 6) (.duplicateMethod "second" 4)] ∧
      ((Session.start .empty ⟨true, 3⟩).analyse calledAndRedeclared).log =
        [.error (some 6) (.duplicateMethod "second" 4),
          .warning (some 2) (.methodNotFound "nowhere")] :=
  ⟨first_pass_changes_forward_calls_only .empty (by decide) calledAndRedeclared,
    by decide, by decide⟩

end Sema
