import Sema.Symbols.Basic
import Mathlib.Data.List.Induction

/-!
# Histories of a symbol table

A history is the list of what was done to a table: scopes entered and left, declarations, mentions
of names. Its height counts the scopes that it leaves open. Whether the scope of a declaration is
still open is read off the heights of what follows the declaration, so no table is needed for it.
-/

namespace Sema

inductive Action where
  | enter
  | leave
  | declare (name ty : String) (line : UInt64)
  | mention (name : String)
  deriving DecidableEq, Repr

namespace Action

def rise : Action → Int
  | .enter => 1
  | .leave => -1
  | .declare _ _ _ | .mention _ => 0

end Action

def scopeAround (inner : List Action) : List Action := .enter :: inner ++ [.leave]

/-- The scopes opened less the scopes closed. -/
def height : List Action → Int
  | [] => 0
  | action :: rest => action.rise + height rest

/-- The scope that is innermost at first stays open throughout. -/
def StaysOpen (actions : List Action) : Prop := ∀ front, front <+: actions → 0 ≤ height front

/-- Every scope opened is closed again, and none besides. -/
structure Closed (actions : List Action) : Prop where
  open_throughout : StaysOpen actions
  level : height actions = 0

/-- No scope is left that was open before, and nothing is declared there. -/
structure Lawful (history : List Action) : Prop where
  stays : StaysOpen history
  inside : ∀ front name ty line rest,
    history = front ++ .declare name ty line :: rest → 0 < height front

/-- A leave at the root is refused and changes nothing. -/
def Symbols.act (symbols : Symbols) : Action → Symbols
  | .enter => symbols.enter
  | .leave =>
      match symbols.leave with
      | .ok outer => outer
      | .error _ => symbols
  | .declare name ty line => symbols.declare name ty line
  | .mention name => symbols.markUsed name

def Symbols.acts (symbols : Symbols) (actions : List Action) : Symbols :=
  actions.foldl Symbols.act symbols

/-- The tables that the operations of a symbol table can produce from the empty one. -/
inductive Symbols.Reachable : Symbols → Prop
  | empty : Reachable .empty
  | enter {symbols : Symbols} : Reachable symbols → Reachable symbols.enter
  | leave {symbols outer : Symbols} :
      Reachable symbols → symbols.leave = .ok outer → Reachable outer
  | declare {symbols : Symbols} (name ty : String) (line : UInt64) :
      Reachable symbols → Reachable (symbols.declare name ty line)
  | markUsed {symbols : Symbols} (name : String) :
      Reachable symbols → Reachable (symbols.markUsed name)
  | addToken {symbols : Symbols} (token : TokenEntry) :
      Reachable symbols → Reachable (symbols.addToken token)

/-! ### Heights -/

/-- Where the last element of a list can be when the list is split. -/
theorem concat_eq_append_cons {Item : Type} {items front rest : List Item} {last middle : Item} :
    items ++ [last] = front ++ middle :: rest ↔
      (front = items ∧ middle = last ∧ rest = []) ∨
        ∃ earlier, rest = earlier ++ [last] ∧ items = front ++ middle :: earlier := by
  rcases List.eq_nil_or_concat rest with rfl | ⟨earlier, final, rfl⟩
  · constructor
    · intro split
      obtain ⟨rfl, same⟩ := List.append_inj' split rfl
      exact .inl ⟨rfl, (List.cons.inj same).1.symm, rfl⟩
    · rintro (⟨rfl, rfl, -⟩ | ⟨earlier, impossible, -⟩)
      · rfl
      · simp at impossible
  · have regroup : front ++ middle :: (earlier ++ [final]) =
        (front ++ middle :: earlier) ++ [final] := by simp
    rw [List.concat_eq_append, regroup]
    constructor
    · intro split
      obtain ⟨rfl, same⟩ := List.append_inj' split rfl
      exact .inr ⟨earlier, by rw [(List.cons.inj same).1], rfl⟩
    · rintro (⟨-, -, impossible⟩ | ⟨other, same, rfl⟩)
      · simp at impossible
      · obtain ⟨rfl, last⟩ := List.append_inj' same rfl
        rw [(List.cons.inj last).1]

@[simp] theorem height_nil : height [] = 0 := rfl

@[simp] theorem height_cons (action : Action) (rest : List Action) :
    height (action :: rest) = action.rise + height rest := rfl

@[simp] theorem height_append (front rest : List Action) :
    height (front ++ rest) = height front + height rest := by
  induction front with
  | nil => simp
  | cons action front induction =>
      rw [List.cons_append, height_cons, height_cons, induction, Int.add_assoc]

theorem stays_open_nil : StaysOpen [] := by
  intro front isPrefix
  simp [List.prefix_nil.mp isPrefix]

theorem StaysOpen.front {front rest : List Action} (stays : StaysOpen (front ++ rest)) :
    StaysOpen front := by
  intro earlier isPrefix
  exact stays earlier (isPrefix.trans (List.prefix_append front rest))

theorem StaysOpen.nonneg {actions : List Action} (stays : StaysOpen actions) :
    0 ≤ height actions := stays actions (List.prefix_refl actions)

/-- A later part may close scopes, as many as the part before it leaves open. -/
theorem stays_open_append {front rest : List Action} :
    StaysOpen (front ++ rest) ↔
      StaysOpen front ∧ ∀ later, later <+: rest → 0 ≤ height front + height later := by
  constructor
  · intro stays
    refine ⟨stays.front, fun later isPrefix => ?_⟩
    have reached := stays (front ++ later) ((List.prefix_append_right_inj front).mpr isPrefix)
    rwa [height_append] at reached
  · rintro ⟨stays, above⟩ earlier isPrefix
    rcases List.prefix_or_prefix_of_prefix isPrefix (List.prefix_append front rest) with
      within | ⟨later, rfl⟩
    · exact stays earlier within
    · rw [height_append]
      exact above later ((List.prefix_append_right_inj front).mp isPrefix)

theorem StaysOpen.append {front rest : List Action} (stays : StaysOpen front)
    (later : StaysOpen rest) : StaysOpen (front ++ rest) := by
  refine stays_open_append.mpr ⟨stays, fun part isPrefix => ?_⟩
  have bottom := stays.nonneg
  have above := later part isPrefix
  omega

theorem stays_open_concat {front : List Action} {action : Action} :
    StaysOpen (front ++ [action]) ↔ StaysOpen front ∧ 0 ≤ height front + action.rise := by
  rw [stays_open_append]
  constructor
  · rintro ⟨stays, above⟩
    exact ⟨stays, by simpa using above [action] (List.prefix_refl _)⟩
  · rintro ⟨stays, enough⟩
    refine ⟨stays, fun later isPrefix => ?_⟩
    have bottom := stays.nonneg
    rcases List.prefix_cons_iff.mp isPrefix with rfl | ⟨tail, rfl, isTail⟩
    · simpa using bottom
    · rw [List.prefix_nil.mp isTail]
      simpa using enough

/-! ### Closed pieces -/

theorem closed_nil : Closed [] := ⟨stays_open_nil, rfl⟩

theorem closed_mention (name : String) : Closed [.mention name] :=
  ⟨stays_open_concat.mpr ⟨stays_open_nil, by simp [Action.rise]⟩, by simp [Action.rise]⟩

theorem closed_declare (name ty : String) (line : UInt64) : Closed [.declare name ty line] :=
  ⟨stays_open_concat.mpr ⟨stays_open_nil, by simp [Action.rise]⟩, by simp [Action.rise]⟩

theorem Closed.append {front rest : List Action} (first : Closed front) (second : Closed rest) :
    Closed (front ++ rest) where
  open_throughout := first.open_throughout.append second.open_throughout
  level := by simp [first.level, second.level]

theorem Closed.scope {inner : List Action} (closed : Closed inner) :
    Closed (scopeAround inner) where
  open_throughout := by
    have entered : StaysOpen [.enter] :=
      stays_open_concat.mpr ⟨stays_open_nil, by simp [Action.rise]⟩
    refine stays_open_concat.mpr ⟨entered.append closed.open_throughout, ?_⟩
    simp [Action.rise, closed.level]
  level := by simp [scopeAround, Action.rise, closed.level]

/-! ### Lawful histories -/

theorem lawful_nil : Lawful [] := ⟨stays_open_nil, by simp⟩

theorem Lawful.front {front rest : List Action} (lawful : Lawful (front ++ rest)) :
    Lawful front where
  stays := lawful.stays.front
  inside := by
    intro earlier name ty line later split
    exact lawful.inside earlier name ty line (later ++ rest) (by simp [split])

theorem Lawful.append {front rest : List Action} (first : Lawful front) (second : Lawful rest) :
    Lawful (front ++ rest) where
  stays := first.stays.append second.stays
  inside := by
    intro earlier name ty line later split
    rcases List.append_eq_append_iff.mp split with ⟨gap, rfl, restSplit⟩ | ⟨gap, rfl, gapSplit⟩
    · have bottom := first.stays.nonneg
      have above := second.inside gap name ty line later restSplit
      rw [height_append]
      omega
    · cases gap with
      | nil =>
          have above := second.inside [] name ty line later gapSplit.symm
          simp at above
      | cons action gap =>
          obtain ⟨rfl, -⟩ := List.cons.inj gapSplit
          exact first.inside earlier name ty line gap rfl

/-- What is declared between an `enter` and its `leave` is declared inside. -/
theorem Closed.lawful_scope {inner : List Action} (closed : Closed inner) :
    Lawful (scopeAround inner) where
  stays := closed.scope.open_throughout
  inside := by
    intro front name ty line rest split
    rw [scopeAround] at split
    have within : front <+: .enter :: inner := by
      have isPrefix : front <+: (.enter :: inner) ++ [.leave] := ⟨_, split.symm⟩
      rcases List.prefix_concat_iff.mp isPrefix with rfl | within
      · have lengths := congrArg List.length split
        simp at lengths
      · exact within
    rcases List.prefix_cons_iff.mp within with rfl | ⟨tail, rfl, isTail⟩
    · simp at split
    · have above := closed.open_throughout tail isTail
      simp only [height_cons, Action.rise]
      omega

/-! ### Histories with pieces left out -/

/-- The second history is the first without some closed pieces. -/
inductive Thinned : List Action → List Action → Prop
  | nil : Thinned [] []
  | keep {whole rest : List Action} (action : Action) :
      Thinned whole rest → Thinned (action :: whole) (action :: rest)
  | drop {whole rest : List Action} {piece : List Action} :
      Closed piece → Thinned whole rest → Thinned (piece ++ whole) rest

namespace Thinned

variable {whole later rest next : List Action}

theorem refl (history : List Action) : Thinned history history := by
  induction history with
  | nil => exact .nil
  | cons action rest induction => exact .keep action induction

theorem append (first : Thinned whole rest) (second : Thinned later next) :
    Thinned (whole ++ later) (rest ++ next) := by
  induction first with
  | nil => exact second
  | keep action _ induction => exact .keep action induction
  | drop closed _ induction =>
      rw [List.append_assoc]
      exact .drop closed induction

theorem height_eq (thinned : Thinned whole rest) : height whole = height rest := by
  induction thinned with
  | nil => rfl
  | keep action _ induction => rw [height_cons, height_cons, induction]
  | drop closed _ induction =>
      rw [height_append, closed.level, induction]
      omega

theorem above (thinned : Thinned whole rest) (level : Int)
    (stays : ∀ front, front <+: rest → 0 ≤ level + height front) :
    ∀ front, front <+: whole → 0 ≤ level + height front := by
  induction thinned generalizing level with
  | nil => exact stays
  | keep action _ induction =>
      intro front isPrefix
      rcases List.prefix_cons_iff.mp isPrefix with rfl | ⟨tail, rfl, isTail⟩
      · exact stays [] List.nil_prefix
      · have deeper := induction (level + action.rise) (fun later isLater => by
          have kept := stays (action :: later) ((List.prefix_cons_inj action).mpr isLater)
          rw [height_cons] at kept
          omega) tail isTail
        rw [height_cons]
        omega
  | @drop whole rest piece closed _ induction =>
      intro front isPrefix
      have bottom := stays [] List.nil_prefix
      rw [height_nil] at bottom
      rcases List.prefix_or_prefix_of_prefix isPrefix (List.prefix_append piece whole) with
        within | ⟨tail, rfl⟩
      · have inside := closed.open_throughout front within
        omega
      · have later := induction level stays tail ((List.prefix_append_right_inj piece).mp isPrefix)
        rw [height_append, closed.level]
        omega

theorem stays_open (thinned : Thinned whole rest) (stays : StaysOpen rest) : StaysOpen whole := by
  intro front isPrefix
  have above := thinned.above 0 (fun front isPrefix => by
    have nonneg := stays front isPrefix
    omega) front isPrefix
  omega

/-- What stands before and after an action that is left comes from what stood there. -/
theorem split {thin front : List Action} {action : Action} (thinned : Thinned whole thin)
    (parts : thin = front ++ action :: rest) :
    ∃ before after, whole = before ++ action :: after ∧ Thinned before front ∧
      Thinned after rest := by
  induction thinned generalizing front with
  | nil => simp at parts
  | @keep whole thin kept thinned induction =>
      cases front with
      | nil =>
          obtain ⟨rfl, rfl⟩ := List.cons.inj parts
          exact ⟨[], whole, rfl, .nil, thinned⟩
      | cons head front =>
          obtain ⟨rfl, rfl⟩ := List.cons.inj parts
          obtain ⟨before, after, rfl, first, second⟩ := induction rfl
          exact ⟨kept :: before, after, rfl, .keep kept first, second⟩
  | @drop whole thin piece closed _ induction =>
      obtain ⟨before, after, rfl, first, second⟩ := induction parts
      exact ⟨piece ++ before, after, by rw [List.append_assoc], .drop closed first, second⟩

end Thinned

end Sema
