import Sema.Proofs.Walk.Guise
import Mathlib.Data.List.Basic

/-!
# What a check does not look at

Each rule, on a construct in a guise, finds the guise of what it finds on the plain construct, since
types and names stay as they are. Each operation on the table, on the catalogue and on the log
commutes with the guise.
-/

namespace Sema

variable {guise : Guise}

/-! ### Types -/

mutual

theorem type_in_guise (resolve? : String → Option Ty) :
    ∀ expr : Expr, (expr.inGuise guise).typeIn resolve? = expr.typeIn resolve?
  | .literal _ _ => rfl
  | .identifier _ => rfl
  | .binary op lhs rhs => by
      rw [Expr.inGuise, Expr.typeIn, Expr.typeIn, located_type_in_guise resolve? lhs,
        located_type_in_guise resolve? rhs]
  | .unary op operand leading => by
      have inside := located_type_in_guise resolve? operand
      cases op <;> simp [Expr.inGuise, Expr.typeIn, inside]
  | .call _ _ => rfl
  | .member _ => rfl
  | .memberCall _ _ _ => rfl

theorem located_type_in_guise (resolve? : String → Option Ty) :
    ∀ expr : Located Expr, typeOfLocated resolve? (exprInGuise guise expr) =
      typeOfLocated resolve? expr
  | ⟨_, expr⟩ => type_in_guise resolve? expr

end

@[simp] theorem data_exprInGuise (expr : Located Expr) :
    (exprInGuise guise expr).data = expr.data.inGuise guise := by
  cases expr
  rfl

theorem exprsInGuise_eq (exprs : List (Located Expr)) :
    exprsInGuise guise exprs = exprs.map (exprInGuise guise) := by
  induction exprs with
  | nil => rfl
  | cons expr rest induction => rw [exprsInGuise, induction, List.map_cons]

/-! ### Rules -/

/-- The check of the same construct in the guise. -/
def Check.inGuise (guise : Guise) : Check → Check
  | .assignment target value => .assignment target (value.inGuise guise)
  | .initializer name target value => .initializer name target (value.inGuise guise)
  | .binary op lhs rhs => .binary op (lhs.inGuise guise) (rhs.inGuise guise)
  | .condition cond construct => .condition (cond.inGuise guise) construct
  | .returning value => .returning (value.map (Expr.inGuise guise))
  | .call name args => .call name (exprsInGuise guise args)

@[simp] theorem log_in_guise_nil : logInGuise guise [] = [] := rfl

@[simp] theorem log_in_guise_append (front rest : FindingLog) :
    logInGuise guise (front ++ rest) = logInGuise guise front ++ logInGuise guise rest :=
  List.map_append

@[simp] theorem log_in_guise_warningAt (line : UInt64) (cause : Doubt) :
    logInGuise guise (warningAt line cause) = warningAt (guise.line line) cause := rfl

@[simp] theorem log_in_guise_errorAt (line : UInt64) (cause : Violation) :
    logInGuise guise (errorAt line cause) = errorAt (guise.line line) (cause.inGuise guise) := rfl

theorem log_in_guise_ite {fits : Prop} [Decidable fits] (front rest : FindingLog) :
    logInGuise guise (if fits then front else rest) =
      if fits then logInGuise guise front else logInGuise guise rest := by
  split <;> rfl

namespace Context

/-- The context in which the signatures have the guise. -/
def inGuise (guise : Guise) (context : Context) : Context :=
  { context with
    signature? := fun name => (context.signature? name).map (Signature.inGuise guise) }

variable {context : Context} {line : UInt64}

@[simp] theorem typeOf_in_guise (expr : Expr) :
    (context.inGuise guise).typeOf (expr.inGuise guise) = context.typeOf expr :=
  type_in_guise context.variableType? expr

@[simp] theorem variableType_in_guise :
    (context.inGuise guise).variableType? = context.variableType? := rfl

@[simp] theorem method_in_guise : (context.inGuise guise).method = context.method := rfl

theorem assignment_in_guise (target : String) (value : Expr) :
    (context.inGuise guise).assignment target (value.inGuise guise) (guise.line line) =
      logInGuise guise (context.assignment target value line) := by
  simp only [assignment, variableType_in_guise, typeOf_in_guise]
  cases context.variableType? target with
  | none => rfl
  | some ty =>
      simp only [log_in_guise_ite]
      rfl

theorem initializer_in_guise (name : String) (target : Ty) (value : Expr) :
    (context.inGuise guise).initializer name target (value.inGuise guise) (guise.line line) =
      logInGuise guise (context.initializer name target value line) := by
  simp only [initializer, typeOf_in_guise, log_in_guise_ite]
  rfl

theorem operands_in_guise (op : BinaryOp) (lhs rhs : Ty) :
    Rule.operands op lhs rhs (guise.line line) =
      logInGuise guise (Rule.operands op lhs rhs line) := by
  unfold Rule.operands Rule.logicalOperand Rule.arithmeticOperand
  cases op.family with
  | relational | equality =>
      simp only [log_in_guise_ite]
      rfl
  | logical | arithmetic =>
      simp only [log_in_guise_append, log_in_guise_ite]
      rfl
  | bitwise => rfl

theorem binary_in_guise (op : BinaryOp) (lhs rhs : Expr) :
    (context.inGuise guise).binary op (lhs.inGuise guise) (rhs.inGuise guise) (guise.line line) =
      logInGuise guise (context.binary op lhs rhs line) := by
  simp only [binary, typeOf_in_guise, log_in_guise_ite, operands_in_guise]
  rfl

theorem condition_in_guise (cond : Expr) (construct : Construct) :
    (context.inGuise guise).condition (cond.inGuise guise) construct (guise.line line) =
      logInGuise guise (context.condition cond construct line) := by
  simp only [condition, typeOf_in_guise, log_in_guise_ite]
  rfl

theorem returnedValue_in_guise (method : MethodContext) (value : Expr) :
    (context.inGuise guise).returnedValue method (value.inGuise guise) (guise.line line) =
      logInGuise guise (context.returnedValue method value line) := by
  simp only [returnedValue, typeOf_in_guise, log_in_guise_ite]
  rfl

theorem returning_in_guise (value : Option Expr) :
    (context.inGuise guise).returning (value.map (Expr.inGuise guise)) (guise.line line) =
      logInGuise guise (context.returning value line) := by
  simp only [returning, method_in_guise]
  cases context.method with
  | none => rfl
  | some method =>
      dsimp only
      cases method.returnTy == .void with
      | true => cases value <;> rfl
      | false =>
          cases value with
          | none => rfl
          | some value => exact returnedValue_in_guise method value

theorem argument_in_guise (method : String) (position : Nat) (param : ParameterType) (arg : Expr) :
    (context.inGuise guise).argument method position (param.inGuise guise) (arg.inGuise guise)
        (guise.line line) =
      logInGuise guise (context.argument method position param arg line) := by
  simp only [argument, typeOf_in_guise, log_in_guise_ite]
  rfl

theorem arguments_in_guise (method : String) (position : Nat) (params : List ParameterType)
    (args : List (Located Expr)) :
    (context.inGuise guise).arguments method (guise.line line) position
        (params.map (ParameterType.inGuise guise)) (exprsInGuise guise args) =
      logInGuise guise (context.arguments method line position params args) := by
  induction params generalizing position args with
  | nil => simp [arguments]
  | cons param params induction =>
      cases args with
      | nil => simp [arguments, exprsInGuise]
      | cons arg args =>
          rw [exprsInGuise, List.map_cons, arguments, arguments, induction, data_exprInGuise,
            argument_in_guise, log_in_guise_append]

theorem call_in_guise (name : String) (args : List (Located Expr)) :
    (context.inGuise guise).call name (exprsInGuise guise args) (guise.line line) =
      logInGuise guise (context.call name args line) := by
  have count : (exprsInGuise guise args).length = args.length := by
    rw [exprsInGuise_eq, List.length_map]
  unfold call
  cases found : context.signature? name with
  | none => simp [inGuise, found]
  | some signature =>
      simp only [inGuise, found, Option.map_some, Signature.inGuise, List.length_map, count,
        log_in_guise_ite]
      rw [← arguments_in_guise]
      rfl

/-- A check of the guise finds at the image of the line what the plain check finds there. -/
theorem findings_in_guise (check : Check) :
    (context.inGuise guise).findings (guise.line line) (check.inGuise guise) =
      logInGuise guise (context.findings line check) := by
  cases check with
  | assignment target value => exact assignment_in_guise target value
  | initializer name target value => exact initializer_in_guise name target value
  | binary op lhs rhs => exact binary_in_guise op lhs rhs
  | condition cond construct => exact condition_in_guise cond construct
  | returning value => exact returning_in_guise value
  | call name args => exact call_in_guise name args

end Context

/-! ### Tables and catalogues -/

namespace Symbols

theorem declare_in_guise (symbols : Symbols) (name ty : String) (line : UInt64) :
    (symbols.inGuise guise).declare name ty (guise.line line) =
      (symbols.declare name ty line).inGuise guise := by
  unfold declare
  cases found : symbols.scopes.local? name with
  | some slot => simp [inGuise, found, List.map_set, Variable.inGuise, scopeDepth]
  | none => simp [inGuise, found, Variable.inGuise, scopeDepth]

theorem markUsed_in_guise (symbols : Symbols) (name : String) :
    (symbols.inGuise guise).markUsed name = (symbols.markUsed name).inGuise guise := by
  unfold markUsed
  cases found : symbols.scopes.visible? name with
  | none => simp [inGuise, found]
  | some slot =>
      have entries : (symbols.entries.map (Variable.inGuise guise)).modify slot
            (fun entry => { entry with used := true }) =
          (symbols.entries.modify slot fun entry => { entry with used := true }).map
            (Variable.inGuise guise) := by
        apply List.ext_getElem?
        intro place
        rw [List.getElem?_modify, List.getElem?_map, List.getElem?_map, List.getElem?_modify]
        cases symbols.entries[place]? with
        | none => rfl
        | some entry => by_cases marked : slot = place <;> simp [marked, Variable.inGuise]
      simp [inGuise, found, entries]

theorem lookup_in_guise (symbols : Symbols) (name : String) :
    (symbols.inGuise guise).lookup? name = (symbols.lookup? name).map (Variable.inGuise guise) := by
  simp only [lookup?, inGuise, List.getElem?_map]
  cases symbols.scopes.visible? name <;> rfl

theorem leave_in_guise (symbols : Symbols) :
    (symbols.inGuise guise).leave = symbols.leave.map (Symbols.inGuise guise) := by
  unfold leave
  cases left : symbols.scopes.leave <;> simp [inGuise, left, Except.map]

end Symbols

namespace Bindings

variable {Key Value Other : Type} [DecidableEq Key] (change : Value → Other)

theorem find_mapValues (bindings : Bindings Key Value) (key : Key) :
    (bindings.mapValues change).find? key = (bindings.find? key).map change := by
  obtain ⟨entries⟩ := bindings
  simp only [mapValues, find?]
  induction entries with
  | nil => rfl
  | cons entry rest induction =>
      rw [List.map_cons, findIn, findIn, induction]
      split <;> rfl

theorem bind_mapValues (bindings : Bindings Key Value) (key : Key) (value : Value) :
    (bindings.mapValues change).bind key (change value) =
      (bindings.bind key value).mapValues change := by
  obtain ⟨entries⟩ := bindings
  simp only [mapValues, bind, mk.injEq]
  induction entries with
  | nil => rfl
  | cons entry rest induction =>
      rw [List.map_cons, bindIn, bindIn, induction]
      split <;> rfl

end Bindings

theorem Catalogue.add_in_guise (catalogue : Catalogue) (signature : Signature) :
    (catalogue.inGuise guise).add (signature.inGuise guise) =
      match catalogue.add signature with
      | .ok after => .ok (after.inGuise guise)
      | .error first => .error ⟨guise.line first.line⟩ := by
  have known : (catalogue.inGuise guise).find? signature.name =
      (catalogue.find? signature.name).map (Signature.inGuise guise) :=
    Bindings.find_mapValues _ catalogue.signatures signature.name
  have name : (signature.inGuise guise).name = signature.name := rfl
  rw [add, add, name, known]
  cases catalogue.find? signature.name with
  | some first => rfl
  | none =>
      have bound := Bindings.bind_mapValues (Signature.inGuise guise) catalogue.signatures
        signature.name signature
      exact congrArg (fun map => Except.ok (Catalogue.mk map)) bound

namespace Session

variable (session : Session)

@[simp] theorem note_in_guise (messages : FindingLog) :
    (session.inGuise guise).note (logInGuise guise messages) =
      (session.note messages).inGuise guise := by
  simp [note, inGuise]

theorem registerMethod_in_guise (name returnTy : String) (params : List ParameterType)
    (line : UInt64) :
    (session.inGuise guise).registerMethod name returnTy
        (params.map (ParameterType.inGuise guise)) (guise.line line) =
      (session.registerMethod name returnTy params line).inGuise guise := by
  have added : (session.inGuise guise).catalogue.add
      ⟨name, .ofName returnTy, params.map (ParameterType.inGuise guise), guise.line line⟩ = _ :=
    Catalogue.add_in_guise session.catalogue ⟨name, .ofName returnTy, params, line⟩
  unfold registerMethod
  rw [added]
  cases session.catalogue.add ⟨name, .ofName returnTy, params, line⟩ with
  | ok catalogue => rfl
  | error first => exact session.note_in_guise (errorAt line (.duplicateMethod name first.line))

theorem resolve_in_guise : (session.inGuise guise).resolve? = session.resolve? := by
  funext name
  have known : (session.inGuise guise).currentLocals = session.currentLocals := rfl
  have stored : (session.inGuise guise).symbols.lookup? name =
      (session.symbols.lookup? name).map (Variable.inGuise guise) :=
    Symbols.lookup_in_guise session.symbols name
  rw [resolve?, resolve?, known, stored, Option.map_map]
  rfl

theorem context_in_guise : (session.inGuise guise).context = session.context.inGuise guise := by
  have signatures : (session.inGuise guise).catalogue.find? =
      fun name => (session.catalogue.find? name).map (Signature.inGuise guise) :=
    funext (Bindings.find_mapValues _ session.catalogue.signatures)
  rw [context, resolve_in_guise, signatures]
  rfl

/-- What a check adds to the log of the guise is the guise of what it adds to the log. -/
theorem check_in_guise (line : UInt64) (check : Check) :
    (session.inGuise guise).note
        ((session.inGuise guise).context.findings (guise.line line) (check.inGuise guise)) =
      (session.note (session.context.findings line check)).inGuise guise := by
  rw [context_in_guise, Context.findings_in_guise, note_in_guise]

/-- One level deeper. -/
def entered : Session := { session with depth := session.depth + 1 }

/-- The end of a visit: back to the level before, with a warning if the analysis failed. -/
def finish (outcome : Outcome) : Session :=
  match outcome.1 with
  | none => { outcome.2 with depth := outcome.2.depth - 1 }
  | some reason =>
      { outcome.2 with depth := outcome.2.depth - 1 }.note [.warning none (.notAnalysed reason)]

theorem visit_eq (analyse : Session → Outcome) :
    session.visit analyse = finish
      (if session.options.maxNestingDepth < session.depth + 1 then
        (some (.nestingTooDeep session.options.maxNestingDepth), session.entered)
      else analyse session.entered) := rfl

theorem finish_in_guise (outcome : Outcome) :
    finish (outcome.1, outcome.2.inGuise guise) = (finish outcome).inGuise guise := by
  obtain ⟨failure, after⟩ := outcome
  cases failure with
  | none => rfl
  | some reason =>
      exact note_in_guise { after with depth := after.depth - 1 }
        [.warning none (.notAnalysed reason)]

end Session

end Sema
