import Sema.Proofs.Walk.MethodVisit

/-!
# Retained locals

The locals of a method outlive its analysis. They know nothing of scopes: a name has the type of its
last declaration in the order of the walk, wherever that stands. `stmtLocals` lists the declarations
of a statement with their depths, and `Keeps` relates the list to the script of the same piece: with
some room a script declares exactly what stands no deeper than the limit.
-/

namespace Sema

/-- A declaration of a local, with the depth of the node that it is. -/
structure LocalDecl where
  depth : Nat
  name : String
  ty : String
  deriving DecidableEq, Repr

def LocalDecl.binding (decl : LocalDecl) : String × Ty := (decl.name, .ofName decl.ty)

/-- The declarations that a nesting limit leaves. -/
def reached (limit : Nat) (decls : List LocalDecl) : List LocalDecl :=
  decls.filter fun decl => decl.depth ≤ limit

/-- The last declaration of the name gives it the type. -/
def LastGives (decls : List LocalDecl) (name : String) (type : Ty) : Prop :=
  ∃ front decl rest, decls = front ++ decl :: rest ∧ decl.name = name ∧ .ofName decl.ty = type ∧
    ∀ later ∈ rest, later.name ≠ name

/-- The locals know the declared names and no others, each by its last declaration. -/
structure Retains (decls : List LocalDecl) (env : LocalEnv) : Prop where
  names : ∀ name, (env.find? name).isSome ↔ ∃ decl ∈ decls, decl.name = name
  types : ∀ name type, env.find? name = some type ↔ LastGives decls name type

/-! ### Declarations of statements -/

mutual

def stmtLocals : Located Stmt → Nat → List LocalDecl
  | ⟨_, stmt⟩, level => stmt.locals level

/-- The declarations in a statement that stands at the given depth, in the order of a walk. -/
def Stmt.locals : Stmt → Nat → List LocalDecl
  | .declare ty name _ _, level => [⟨level, name, ty⟩]
  | .ifElse _ thenBranch elseBranch, level =>
      stmtLocals thenBranch (level + 1) ++ optionalStmtLocals elseBranch (level + 1)
  | .whileLoop _ body, level => stmtLocals body (level + 1)
  | .doWhileLoop body _, level => stmtLocals body (level + 1)
  | .forLoop init _ update body, level =>
      optionalStmtLocals init (level + 1) ++
        (optionalStmtLocals update (level + 1) ++ stmtLocals body (level + 1))
  | .switch _ arms otherwise, level =>
      armsLocals arms (level + 1) ++ otherwiseLocals otherwise (level + 1)
  | .block statements, level => stmtsLocals statements (level + 1)
  | .assign _ _, _ | .returning _, _ | .breaking, _ | .continuing, _ | .expression _, _ => []

def stmtsLocals : List (Located Stmt) → Nat → List LocalDecl
  | [], _ => []
  | stmt :: rest, level => stmtLocals stmt level ++ stmtsLocals rest level

def optionalStmtLocals : Option (Located Stmt) → Nat → List LocalDecl
  | none, _ => []
  | some stmt, level => stmtLocals stmt level

def armsLocals : List (Located (Arm Stmt)) → Nat → List LocalDecl
  | [], _ => []
  | ⟨_, _, body⟩ :: rest, level => stmtsLocals body level ++ armsLocals rest level

def otherwiseLocals : Option (Located (List (Located Stmt))) → Nat → List LocalDecl
  | none, _ => []
  | some ⟨_, statements⟩, level => stmtsLocals statements level

end

namespace Method

/-- The parameters as declarations. They stand with the method itself. -/
def parameterDecls (method : Method) : List LocalDecl :=
  method.params.map fun param => ⟨1, param.data.name, param.data.ty⟩

/-- The parameters of a method, and the declarations in its body that a nesting limit leaves. -/
def declaredWithin (method : Method) (limit : Nat) : List LocalDecl :=
  method.parameterDecls ++ reached limit (stmtsLocals method.body 2)

end Method

/-! ### Declarations of scripts -/

def Action.binding? : Action → Option (String × Ty)
  | .declare name ty _ => some (name, .ofName ty)
  | .enter | .leave | .mention _ => none

/-- What a script binds, in order. -/
def bindings (script : List Step) : List (String × Ty) :=
  (actions script).filterMap Action.binding?

theorem bindings_append (front rest : List Step) :
    bindings (front ++ rest) = bindings front ++ bindings rest := by
  rw [bindings, actions_append, List.filterMap_append]
  rfl

theorem reached_append (limit : Nat) (front rest : List LocalDecl) :
    reached limit (front ++ rest) = reached limit front ++ reached limit rest :=
  List.filter_append front rest

/-- A script whose node stands at a level binds, given the room for the parts of the node, what the
limit leaves of the declarations. -/
structure Keeps (decls : Nat → List LocalDecl) (script : Nat → List Step) : Prop where
  deep : ∀ level, ∀ decl ∈ decls level, level ≤ decl.depth
  bound : ∀ level room,
    bindings (script room) = (reached (level + room) (decls level)).map LocalDecl.binding

namespace Keeps

variable {decls later : Nat → List LocalDecl} {script next : Nat → List Step}

theorem nil : Keeps (fun _ => []) fun _ => [] := ⟨by simp, fun _ _ => rfl⟩

/-- Expressions declare nothing. -/
theorem quiet {nesting : Nat} {outline : List Action} (renders : Renders nesting outline script)
    (silent : ∀ action ∈ outline, action.binding? = none) : Keeps (fun _ => []) script where
  deep := by simp
  bound level room := by
    have thin := renders.thinned room
    apply List.filterMap_eq_nil_iff.mpr
    intro action member
    obtain ⟨front, rest, split⟩ := List.append_of_mem member
    obtain ⟨before, after, whole, -, -⟩ := thin.split split
    exact silent action (by simp [whole])

theorem append (first : Keeps decls script) (second : Keeps later next) :
    Keeps (fun level => decls level ++ later level) fun room => script room ++ next room where
  deep level decl member := by
    rcases List.mem_append.mp member with front | rest
    · exact first.deep level decl front
    · exact second.deep level decl rest
  bound level room := by
    rw [bindings_append, first.bound level room, second.bound level room, reached_append,
      List.map_append]

theorem before (silent : Keeps (fun _ => []) script) (second : Keeps later next) :
    Keeps later fun room => script room ++ next room := silent.append second

theorem after (first : Keeps decls script) (silent : Keeps (fun _ => []) next) :
    Keeps decls fun room => script room ++ next room := by
  simpa using first.append silent

theorem check (keeps : Keeps decls script) (line : UInt64) (check : Check) :
    Keeps decls fun room => .check line check :: script room := ⟨keeps.deep, keeps.bound⟩

theorem scope (keeps : Keeps decls script) :
    Keeps decls fun room => scopeScript (script room) where
  deep := keeps.deep
  bound level room := by
    have parts : bindings (scopeScript (script room)) = bindings (script room) := by
      rw [scopeScript, List.cons_append, bindings, actions_act, actions_append,
        List.filterMap_cons_none rfl, List.filterMap_append]
      exact List.append_nil _
    rw [parts, keeps.bound level room]

theorem declare (silent : Keeps (fun _ => []) script) (name ty : String) (line : UInt64) :
    Keeps (fun level => [⟨level, name, ty⟩])
      fun room => .act (.declare name ty line) :: script room where
  deep := by simp
  bound level room := by
    have nothing : bindings (script room) = [] := silent.bound level room
    have within : level ≤ level + room := Nat.le_add_right level room
    have own : reached (level + room) [⟨level, name, ty⟩] = [⟨level, name, ty⟩] := by
      simp [reached, within]
    rw [own]
    exact congrArg (List.cons (name, Ty.ofName ty)) nothing

/-- Seen from the node it belongs to, a visited node stands one level deeper. Without room it is
refused, and all its declarations lie below the limit. -/
theorem visit (keeps : Keeps decls script) (node : Node) :
    Keeps (fun level => decls (level + 1)) (visitScript node script) where
  deep level decl member := Nat.le_of_succ_le (keeps.deep (level + 1) decl member)
  bound level room := by
    cases room with
    | zero =>
        have nothing : reached level (decls (level + 1)) = [] := by
          apply List.filter_eq_nil_iff.mpr
          intro decl member
          have deeper := keeps.deep (level + 1) decl member
          simp only [decide_eq_true_eq]
          omega
        rw [Nat.add_zero, nothing]
        rfl
    | succ room =>
        have limit : level + (room + 1) = level + 1 + room := by omega
        rw [limit, ← keeps.bound (level + 1) room, bindings, actions_visit_script]
        rfl

end Keeps

theorem mention_binds_nothing {outline : List Action}
    (mentions : ∀ action ∈ outline, ∃ name, action = .mention name) :
    ∀ action ∈ outline, action.binding? = none := by
  intro action member
  obtain ⟨name, rfl⟩ := mentions action member
  rfl

theorem expr_keeps (expr : Located Expr) : Keeps (fun _ => []) (exprScript expr) :=
  .quiet (expr_renders expr) (mention_binds_nothing (expr_outline_mentions expr))

theorem optional_expr_keeps : ∀ expr, Keeps (fun _ => []) (optionalExprScript expr)
  | none => .nil
  | some expr => expr_keeps expr

theorem initializer_keeps (name ty : String) (line : UInt64) : ∀ init,
    Keeps (fun _ => []) (initializerScript name ty line init)
  | none => .nil
  | some value => (expr_keeps value).check line (.initializer name (.ofName ty) value.data)

theorem condition_keeps (construct : Construct) (line : UInt64) (cond : Located Expr) :
    Keeps (fun _ => []) (conditionScript construct line cond) :=
  (expr_keeps cond).check line (.condition cond.data construct)

theorem optional_condition_keeps (line : UInt64) : ∀ cond,
    Keeps (fun _ => []) (optionalConditionScript line cond)
  | none => .nil
  | some cond => condition_keeps .forLoop line cond

mutual

theorem stmt_keeps : ∀ stmt, Keeps (fun level => stmtLocals stmt (level + 1)) (stmtScript stmt)
  | ⟨pos, stmt⟩ => (stmt_inside_keeps stmt pos.line).visit _

theorem stmt_inside_keeps :
    ∀ (stmt : Stmt) (line : UInt64), Keeps stmt.locals (stmt.script line)
  | .declare ty name _ init, line => (initializer_keeps name ty line init).declare name ty line
  | .assign target value, line => (expr_keeps value).check line (.assignment target value.data)
  | .ifElse cond thenBranch elseBranch, line =>
      (condition_keeps .ifElse line cond).before
        ((stmt_keeps thenBranch).append (optional_stmt_keeps elseBranch))
  | .whileLoop cond body, line => (condition_keeps .whileLoop line cond).before (stmt_keeps body)
  | .doWhileLoop body cond, line =>
      (stmt_keeps body).after (condition_keeps .doWhileLoop line cond)
  | .forLoop init cond update body, line =>
      ((optional_stmt_keeps init).append ((optional_condition_keeps line cond).before
        ((optional_stmt_keeps update).append (stmt_keeps body)))).scope
  | .switch scrutinee arms otherwise, _ =>
      (expr_keeps scrutinee).before ((arms_keep arms).append (otherwise_keeps otherwise))
  | .returning value, line =>
      (optional_expr_keeps value).check line (.returning (value.map Located.data))
  | .breaking, _ => .nil
  | .continuing, _ => .nil
  | .block statements, _ => (stmts_keep statements).scope
  | .expression value, _ => expr_keeps value

theorem stmts_keep : ∀ stmts,
    Keeps (fun level => stmtsLocals stmts (level + 1)) (stmtsScript stmts)
  | [] => .nil
  | stmt :: rest => (stmt_keeps stmt).append (stmts_keep rest)

theorem optional_stmt_keeps : ∀ stmt,
    Keeps (fun level => optionalStmtLocals stmt (level + 1)) (optionalStmtScript stmt)
  | none => .nil
  | some stmt => stmt_keeps stmt

theorem arms_keep : ∀ arms,
    Keeps (fun level => armsLocals arms (level + 1)) (armsScript arms)
  | [] => .nil
  | ⟨_, value, body⟩ :: rest =>
      ((expr_keeps value).before (stmts_keep body).scope).append (arms_keep rest)

theorem otherwise_keeps : ∀ otherwise,
    Keeps (fun level => otherwiseLocals otherwise (level + 1)) (otherwiseScript otherwise)
  | none => .nil
  | some ⟨_, statements⟩ => (stmts_keep statements).scope

end

/-! ### Locals -/

theorem ofList_concat (pairs : List (String × Ty)) (name : String) (type : Ty) :
    Bindings.ofList (pairs ++ [(name, type)]) = (Bindings.ofList pairs).bind name type := by
  rw [Bindings.ofList, List.foldl_concat]
  rfl

theorem bind_actions (pairs : List (String × Ty)) (history : List Action) :
    history.foldl Action.bindIn (Bindings.ofList pairs) =
      Bindings.ofList (pairs ++ history.filterMap Action.binding?) := by
  induction history using List.reverseRecOn with
  | nil => simp
  | append_singleton history action induction =>
      rw [List.foldl_concat, induction, List.filterMap_append, ← List.append_assoc]
      cases action with
      | enter | leave | mention => exact congrArg Bindings.ofList (List.append_nil _).symm
      | declare name ty line => exact (ofList_concat _ name (.ofName ty)).symm

theorem last_gives_concat {decls : List LocalDecl} {decl : LocalDecl} {name : String} {type : Ty} :
    LastGives (decls ++ [decl]) name type ↔
      if decl.name = name then .ofName decl.ty = type else LastGives decls name type := by
  constructor
  · rintro ⟨front, last, rest, split, named, given, final⟩
    rcases concat_eq_append_cons.mp split with ⟨-, rfl, -⟩ | ⟨earlier, rfl, rfl⟩
    · rw [if_pos named]
      exact given
    · obtain ⟨within, other⟩ := List.forall_mem_append.mp final
      rw [if_neg (other decl List.mem_cons_self)]
      exact ⟨front, last, earlier, rfl, named, given, within⟩
  · intro known
    split at known
    · rename_i named
      exact ⟨decls, decl, [], rfl, named, known, by simp⟩
    · rename_i other
      obtain ⟨front, last, rest, rfl, named, given, final⟩ := known
      refine ⟨front, last, rest ++ [decl], by simp, named, given, ?_⟩
      exact List.forall_mem_append.mpr ⟨final, by simpa using other⟩

theorem retains_bound (decls : List LocalDecl) :
    Retains decls (Bindings.ofList (decls.map LocalDecl.binding)) := by
  induction decls using List.reverseRecOn with
  | nil => exact ⟨by simp [Bindings.ofList], by simp [Bindings.ofList, LastGives]⟩
  | append_singleton decls decl induction =>
      rw [List.map_append, List.map_singleton, LocalDecl.binding, ofList_concat]
      constructor
      · intro name
        rw [Bindings.find?_bind]
        by_cases named : decl.name = name
        · simp [named]
        · simp [named, induction.names name]
      · intro name type
        rw [Bindings.find?_bind, last_gives_concat, ← induction.types]
        by_cases named : decl.name = name <;> simp [named]

/-- The locals that the visit of a method leaves are its declarations within the limit. -/
theorem Method.locals_eq (method : Method) {limit : Nat} (positive : 0 < limit) :
    method.locals limit =
      some (Bindings.ofList ((method.declaredWithin limit).map LocalDecl.binding)) := by
  obtain ⟨room, rfl⟩ := Nat.exists_eq_add_one.mpr positive
  have params : method.parameterEnv =
      Bindings.ofList (method.parameterDecls.map LocalDecl.binding) := by
    simp [parameterEnv, parameterTypes, parameterDecls, ParameterType.ofParameter,
      LocalDecl.binding, Function.comp_def]
  have body : (actions (method.script room)).filterMap Action.binding? = _ :=
    (stmts_keep method.body).bound 1 room
  rw [locals, params, bind_actions, body, declaredWithin, List.map_append, Nat.add_comm 1 room]

theorem last_locals_append (room : Nat) (front rest : List (Located Method)) (name : String) :
    lastLocals room (front ++ rest) name =
      (lastLocals room rest name).or (lastLocals room front name) := by
  induction front with
  | nil => exact (Option.or_none).symm
  | cons method front induction =>
      rw [List.cons_append, lastLocals, induction, Option.or_assoc]
      rfl

theorem last_locals_absent (room : Nat) {methods : List (Located Method)} {name : String}
    (absent : ∀ method ∈ methods, method.data.name ≠ name) :
    lastLocals room methods name = none := by
  induction methods with
  | nil => rfl
  | cons method rest induction =>
      obtain ⟨own, others⟩ := List.forall_mem_cons.mp absent
      rw [lastLocals, induction others, if_neg own]
      rfl

theorem last_locals_known {room : Nat} (positive : 0 < room) (methods : List (Located Method))
    (name : String) :
    (lastLocals room methods name).isSome ↔ ∃ method ∈ methods, method.data.name = name := by
  induction methods with
  | nil => simp [lastLocals]
  | cons method rest induction =>
      rw [lastLocals, Option.isSome_or, Bool.or_eq_true, induction, List.exists_mem_cons_iff,
        or_comm, method.data.locals_eq positive]
      by_cases named : method.data.name = name <;> simp [named]

/-- After an analysis exactly the names of methods have locals. Those of a name are known from the
last method of the name alone: each name that the method declares within the limit has the type of
its last declaration there. -/
theorem locals_retained (symbols : Symbols) (options : Options)
    (positive : 1 ≤ options.maxNestingDepth) (program : Program) :
    (∀ name, (((Session.start symbols options).analyse program).locals.find? name).isSome ↔
      ∃ method ∈ program.methods, method.data.name = name) ∧
    ∀ front method rest, program.methods = front ++ method :: rest →
      (∀ later ∈ rest, later.data.name ≠ method.data.name) →
      ∃ env, ((Session.start symbols options).analyse program).locals.find? method.data.name =
          some env ∧ Retains (method.data.declaredWithin options.maxNestingDepth) env := by
  have retained : ∀ name,
      ((Session.start symbols options).analyse program).locals.find? name =
        lastLocals options.maxNestingDepth program.methods name := by
    intro name
    rw [(Session.between_start symbols options).locals_analyse]
    exact Option.or_none
  constructor
  · intro name
    rw [retained]
    exact last_locals_known positive program.methods name
  · intro front method rest split last
    have env := method.data.locals_eq positive
    refine ⟨_, ?_, retains_bound (method.data.declaredWithin options.maxNestingDepth)⟩
    rw [retained, split, last_locals_append, lastLocals, last_locals_absent _ last, if_pos rfl, env]
    rfl

/-- The second method declares a name in the body of a loop, again in its own scope, and once more
below the limit. -/
def overwritten : Program :=
  ⟨[.place 1 1 ⟨"Sample", "", [
    .place 2 5 (.method
      { returnTy := "void", name := "run", params := [.place 2 14 { ty := "int", name := "gone" }],
        body := [] }),
    .place 3 5 (.field { ty := "long", name := "count" }),
    .place 4 5 (.method
      { returnTy := "void", name := "run", params := [.place 4 14 { ty := "int", name := "first" }],
        body := [
          .place 5 9 (.forLoop (some (.place 5 14 (.declare "int" "step" false none))) none
            (some (.place 5 30 (.declare "char" "step" false none)))
            (.place 5 40 (.block [.place 6 13 (.declare "boolean" "first" false none),
              .place 7 13 (.block [.place 8 17 (.declare "String" "step" false none)])])))] })]⟩]⟩

theorem overwritten_retained :
    ∃ env, ((Session.start .empty ⟨false, 4⟩).analyse overwritten).locals.find? "run" = some env ∧
      env.find? "first" = some (.primitive .boolean) ∧
      env.find? "step" = some (.primitive .char) ∧ (env.find? "gone").isSome = false := by
  obtain ⟨-, last⟩ := locals_retained .empty ⟨false, 4⟩ (by decide) overwritten
  obtain ⟨env, found, retains⟩ := last [_] _ [] rfl (by simp)
  refine ⟨env, found, ?_, ?_, ?_⟩
  · exact (retains.types _ _).mpr ⟨[⟨1, "first", "int"⟩, ⟨3, "step", "int"⟩, ⟨3, "step", "char"⟩],
      ⟨4, "first", "boolean"⟩, [], by decide, rfl, rfl, by simp⟩
  · exact (retains.types _ _).mpr ⟨[⟨1, "first", "int"⟩, ⟨3, "step", "int"⟩],
      ⟨3, "step", "char"⟩, [⟨4, "first", "boolean"⟩], by decide, rfl, rfl, by simp⟩
  · rw [Bool.eq_false_iff, Ne, retains.names]
    decide

end Sema
