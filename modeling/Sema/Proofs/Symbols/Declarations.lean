import Sema.Proofs.Symbols.Live

/-!
# Declarations and references

The declarations of a history with what follows each of them. A mention of the name refers to a
declaration as long as the scope of the declaration is open and no scope inside it has declared the
name too. So whether a declaration is referenced can be read off what follows it. A mention is free
if no open scope of the history has declared the name.
-/

namespace Sema

/-- A scope inside that is still open has declared the name. -/
def Hidden (between : List Action) (name : String) : Prop :=
  ∃ depth, depth < height between ∧ LiveAt between name depth

/-- After a declaration of the name comes a mention that refers to it. -/
def Referenced (rest : List Action) (name : String) : Prop :=
  ∃ between later, rest = between ++ .mention name :: later ∧ StaysOpen between ∧
    ¬ Hidden between name

/-- No scope declares a name twice. -/
def DeclaresOnce (history : List Action) : Prop :=
  EachDeclaration history fun front name => ¬ LiveAt front name 0

instance (between : List Action) (name : String) : Decidable (Hidden between name) :=
  liveDecidable (fun depth => depth < height between) name between

instance (rest : List Action) (name : String) : Decidable (Referenced rest name) :=
  decidable_of_iff
    (∃ place : Fin rest.length, rest[place] = .mention name ∧ StaysOpen (rest.take place) ∧
      ¬ Hidden (rest.take place) name) (by
    constructor
    · rintro ⟨place, mention, stays, seen⟩
      refine ⟨rest.take place, rest.drop (place + 1), ?_, stays, seen⟩
      rw [← mention]
      simp
    · rintro ⟨between, later, rfl, stays, seen⟩
      exact ⟨⟨between.length, by simp⟩, by simpa using ⟨stays, seen⟩⟩)

instance (history : List Action) : Decidable (DeclaresOnce history) := eachDecidable history _

theorem not_referenced_nil (name : String) : ¬ Referenced [] name := by
  rintro ⟨between, later, impossible, -, -⟩
  simp at impossible

theorem referenced_concat {rest : List Action} {action : Action} {name : String} :
    Referenced (rest ++ [action]) name ↔
      Referenced rest name ∨ (action = .mention name ∧ StaysOpen rest ∧ ¬ Hidden rest name) := by
  constructor
  · rintro ⟨between, later, split, stays, seen⟩
    rcases concat_eq_append_cons.mp split with ⟨rfl, same, -⟩ | ⟨earlier, rfl, rfl⟩
    · exact .inr ⟨same.symm, stays, seen⟩
    · exact .inl ⟨between, earlier, rfl, stays, seen⟩
  · rintro (⟨between, later, rfl, stays, seen⟩ | ⟨rfl, stays, seen⟩)
    · exact ⟨between, later ++ [action], by simp, stays, seen⟩
    · exact ⟨rest, [], rfl, stays, seen⟩

/-! ### Free mentions -/

def freeFrom (front : List Action) : List Action → List String
  | [] => []
  | .mention name :: rest =>
      let later := freeFrom (front ++ [.mention name]) rest
      if ∃ depth, 0 ≤ depth ∧ LiveAt front name depth then later else name :: later
  | .enter :: rest => freeFrom (front ++ [.enter]) rest
  | .leave :: rest => freeFrom (front ++ [.leave]) rest
  | .declare name ty line :: rest => freeFrom (front ++ [.declare name ty line]) rest

/-- The names of the free mentions of a history. -/
def freeMentions (history : List Action) : List String := freeFrom [] history

theorem freeFrom_append (front history later : List Action) :
    freeFrom front (history ++ later) =
      freeFrom front history ++ freeFrom (front ++ history) later := by
  induction history generalizing front with
  | nil => rw [List.nil_append, List.append_nil, freeFrom, List.nil_append]
  | cons action history induction =>
      have regroup : front ++ action :: history = (front ++ [action]) ++ history := by simp
      rw [List.cons_append, regroup]
      cases action with
      | enter | leave | declare => exact induction _
      | mention name =>
          rw [freeFrom, freeFrom, induction]
          split
          · rfl
          · rw [List.cons_append]

theorem freeMentions_concat (history : List Action) (action : Action) :
    freeMentions (history ++ [action]) = freeMentions history ++ freeFrom history [action] :=
  freeFrom_append [] history [action]

theorem freeFrom_mention_of_live {history : List Action} {name : String} {depth : Int}
    (live : LiveAt history name depth) : freeFrom history [.mention name] = [] := by
  have known : ∃ depth, 0 ≤ depth ∧ LiveAt history name depth := ⟨depth, live.nonneg, live⟩
  simp [freeFrom, known]

theorem freeFrom_mention_of_free {history : List Action} {name : String}
    (free : ∀ depth, ¬ LiveAt history name depth) :
    freeFrom history [.mention name] = [name] := by
  simp [freeFrom, free]

/-! ### Lists of declarations -/

/-- A declaration with the number of scopes around it and with what follows it. -/
structure Declaration where
  name : String
  ty : String
  line : UInt64
  scopes : Nat
  rest : List Action

def declarationsFrom (level : Int) : List Action → List Declaration
  | [] => []
  | .declare name ty line :: rest =>
      ⟨name, ty, line, level.toNat, rest⟩ :: declarationsFrom level rest
  | .enter :: rest => declarationsFrom (level + 1) rest
  | .leave :: rest => declarationsFrom (level - 1) rest
  | .mention _ :: rest => declarationsFrom level rest

def declarations (history : List Action) : List Declaration := declarationsFrom 0 history

namespace Declaration

def followed (declaration : Declaration) (later : List Action) : Declaration :=
  { declaration with rest := declaration.rest ++ later }

/-- A mention of the name, here and now, refers to the declaration. -/
structure Visible (declaration : Declaration) (name : String) : Prop where
  named : declaration.name = name
  stays : StaysOpen declaration.rest
  seen : ¬ Hidden declaration.rest name

/-- What the store holds of a declaration in the end, given the depth of the outermost scope. -/
def entry (depth : Nat) (declaration : Declaration) : Variable where
  name := declaration.name
  ty := declaration.ty
  line := declaration.line
  used := decide (Referenced declaration.rest declaration.name)
  scopeDepth := depth + declaration.scopes

end Declaration

theorem declarationsFrom_append (level : Int) (front later : List Action) :
    declarationsFrom level (front ++ later) =
      (declarationsFrom level front).map (fun declaration => declaration.followed later) ++
        declarationsFrom (level + height front) later := by
  induction front generalizing level with
  | nil => simp [declarationsFrom]
  | cons action front induction =>
      have deeper : level + height (action :: front) = level + action.rise + height front := by
        rw [height_cons]
        omega
      rw [deeper]
      cases action with
      | enter => exact induction (level + 1)
      | leave => exact induction (level - 1)
      | mention name => simpa [Action.rise, declarationsFrom] using induction level
      | declare name ty line =>
          simp [Action.rise, declarationsFrom, induction level, Declaration.followed]

theorem declarations_concat (history : List Action) (action : Action) :
    declarations (history ++ [action]) =
      (declarations history).map (fun declaration => declaration.followed [action]) ++
        declarationsFrom (height history) [action] := by
  rw [declarations, declarationsFrom_append, Int.zero_add]
  rfl

/-- A declaration of the list is one of the history, which is split there. -/
theorem declaration_split {level : Int} {history : List Action} {index : Nat}
    {declaration : Declaration}
    (found : (declarationsFrom level history)[index]? = some declaration) :
    ∃ front, history =
        front ++ .declare declaration.name declaration.ty declaration.line :: declaration.rest ∧
      (declarationsFrom level front).length = index ∧
      declaration.scopes = (level + height front).toNat := by
  induction history generalizing level index with
  | nil => simp [declarationsFrom] at found
  | cons action history induction =>
      cases action with
      | enter | leave | mention =>
          obtain ⟨front, rfl, count, scopes⟩ := induction found
          refine ⟨_ :: front, rfl, count, ?_⟩
          rw [scopes, height_cons, Action.rise]
          congr 1
          omega
      | declare name ty line =>
          cases index with
          | zero =>
              obtain rfl := Option.some.inj found
              exact ⟨[], rfl, rfl, by simp⟩
          | succ index =>
              obtain ⟨front, rfl, count, scopes⟩ := induction found
              refine ⟨_ :: front, rfl, congrArg Nat.succ count, ?_⟩
              rw [scopes, height_cons, Action.rise, Int.zero_add]

theorem declarations_of_split (front : List Action) (name ty : String) (line : UInt64)
    (rest : List Action) :
    (declarations (front ++ .declare name ty line :: rest))[(declarations front).length]? =
      some ⟨name, ty, line, (height front).toNat, rest⟩ := by
  rw [declarations, declarationsFrom_append, List.getElem?_append_right (by simp [declarations])]
  simp [declarations, declarationsFrom]

/-! ### Visible declarations -/

theorem Declaration.Visible.live {history front : List Action} {declaration : Declaration}
    {name : String} (visible : declaration.Visible name)
    (split : history =
      front ++ .declare declaration.name declaration.ty declaration.line :: declaration.rest) :
    LiveAt history name (height declaration.rest) := by
  rw [visible.named] at split
  exact ⟨front, declaration.ty, declaration.line, declaration.rest, split, visible.stays, rfl⟩

/-- Of two declarations that a mention might refer to, the earlier would be hidden by the later, or
their scope would declare the name twice. -/
theorem not_visible_before {history : List Action} (once : DeclaresOnce history)
    {first second : Nat} {left right : Declaration} {name : String}
    (leftAt : (declarations history)[first]? = some left)
    (rightAt : (declarations history)[second]? = some right)
    (leftVisible : left.Visible name) (rightVisible : right.Visible name) : ¬ first < second := by
  intro before
  obtain ⟨front, leftSplit, leftCount, -⟩ := declaration_split leftAt
  obtain ⟨later, rightSplit, rightCount, -⟩ := declaration_split rightAt
  obtain ⟨between, reached⟩ : ∃ between,
      later = front ++ .declare left.name left.ty left.line :: between := by
    rcases List.append_eq_append_iff.mp (leftSplit.symm.trans rightSplit) with
      ⟨gap, rfl, gapSplit⟩ | ⟨gap, rfl, -⟩
    · cases gap with
      | nil =>
          rw [List.append_nil, leftCount] at rightCount
          omega
      | cons action gap =>
          obtain ⟨rfl, -⟩ := List.cons.inj gapSplit
          exact ⟨gap, rfl⟩
    · rw [declarationsFrom_append, List.length_append, List.length_map, rightCount] at leftCount
      omega
  have rest : left.rest =
      between ++ .declare right.name right.ty right.line :: right.rest := by
    rw [leftSplit, reached, List.append_assoc, List.cons_append] at rightSplit
    exact (List.cons.inj (List.append_cancel_left rightSplit)).2
  have live := rightVisible.live rest
  have stays := leftVisible.stays
  rw [rest] at stays
  have bottom := stays.front.nonneg
  have level : height left.rest = height between + height right.rest := by
    rw [rest, height_append, height_cons, Action.rise, Int.zero_add]
  have same : height between = 0 := by
    have seen : ¬ height right.rest < height left.rest :=
      fun deeper => leftVisible.seen ⟨height right.rest, deeper, live⟩
    omega
  apply once later right.name right.ty right.line right.rest rightSplit
  rw [rightVisible.named, reached, leftVisible.named]
  exact ⟨front, left.ty, left.line, between, rfl, stays.front, same⟩

/-- A mention refers to one declaration at most. -/
theorem visible_unique {history : List Action} (once : DeclaresOnce history) {first second : Nat}
    {left right : Declaration} {name : String}
    (leftAt : (declarations history)[first]? = some left)
    (rightAt : (declarations history)[second]? = some right)
    (leftVisible : left.Visible name) (rightVisible : right.Visible name) : first = second := by
  have left_first := not_visible_before once leftAt rightAt leftVisible rightVisible
  have right_first := not_visible_before once rightAt leftAt rightVisible leftVisible
  omega

end Sema
