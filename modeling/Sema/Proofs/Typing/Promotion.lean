import Sema.Checker.Session
import Sema.Proofs.Typing.Rules
import Mathlib.Logic.Relation

/-!
# Promotion

The type of an arithmetic or bitwise expression depends only on its leaves: what is left when such
operators, and the operators with one operand other than negation, are taken away. It is the type of
a leaf that ranks highest, if all leaves are numeric, and unknown otherwise. So the operators, their
order, and how the operands are put together make no difference.
-/

namespace Sema

/-- The operators whose operands are promoted. -/
def BinaryOp.Promotes (op : BinaryOp) : Prop := op.family = .arithmetic ∨ op.family = .bitwise

instance (op : BinaryOp) : Decidable op.Promotes :=
  inferInstanceAs (Decidable (op.family = .arithmetic ∨ op.family = .bitwise))

mutual

def leavesOf : Located Expr → List Expr
  | ⟨_, expr⟩ => expr.leaves

/-- The operands at the ends of arithmetic, bitwise and unary operators. -/
def Expr.leaves : Expr → List Expr
  | .binary op lhs rhs =>
      if op.Promotes then leavesOf lhs ++ leavesOf rhs else [.binary op lhs rhs]
  | .unary .not operand leading => [.unary .not operand leading]
  | .unary _ operand _ => leavesOf operand
  | .literal ty value => [.literal ty value]
  | .identifier name => [.identifier name]
  | .call name args => [.call name args]
  | .member path => [.member path]
  | .memberCall path name args => [.memberCall path name args]

end

/-- At the root, or below unary operators there, stands an operator that promotes. -/
def Expr.Compound : Expr → Prop
  | .binary op _ _ => op.Promotes
  | .unary op ⟨_, operand⟩ _ => op ≠ .not ∧ operand.Compound
  | .literal _ _ | .identifier _ | .call _ _ | .member _ | .memberCall _ _ _ => False

/-- The place of a type in the order of promotion. -/
def Ty.rank? : Ty → Option Nat
  | .primitive type => type.rank?
  | .void | .named _ | .unknown => none

/-- The type is one of the given ones, which are all numeric, and none of them ranks higher. -/
def Ty.Highest (types : List Ty) (type : Ty) : Prop :=
  type ∈ types ∧ ∃ rank, type.rank? = some rank ∧
    ∀ other ∈ types, ∃ lower, other.rank? = some lower ∧ lower ≤ rank

/-- One change in how operands are put together. -/
inductive Regroups : Expr → Expr → Prop
  | exchange {op other : BinaryOp} (lhs rhs : Located Expr) :
      op.Promotes → other.Promotes → Regroups (.binary op lhs rhs) (.binary other lhs rhs)
  | swap {op : BinaryOp} (lhs rhs : Located Expr) :
      op.Promotes → Regroups (.binary op lhs rhs) (.binary op rhs lhs)
  | rotate {outer inner : BinaryOp} (first second third : Located Expr) (left right : Position) :
      outer.Promotes → inner.Promotes →
      Regroups (.binary outer ⟨left, .binary inner first second⟩ third)
        (.binary inner first ⟨right, .binary outer second third⟩)
  | duplicate {op other : BinaryOp} (lhs rhs : Located Expr) (pos : Position) :
      op.Promotes → other.Promotes →
      Regroups (.binary op lhs rhs) (.binary op ⟨pos, .binary other lhs lhs⟩ rhs)
  | insert {op : UnaryOp} (operand : Located Expr) (leading : Bool) :
      op ≠ .not → Regroups operand.data (.unary op operand leading)
  | left {op : BinaryOp} {lhs changed : Located Expr} (rhs : Located Expr) :
      op.Promotes → Regroups lhs.data changed.data →
      Regroups (.binary op lhs rhs) (.binary op changed rhs)
  | right {op : BinaryOp} (lhs : Located Expr) {rhs changed : Located Expr} :
      op.Promotes → Regroups rhs.data changed.data →
      Regroups (.binary op lhs rhs) (.binary op lhs changed)
  | under {op : UnaryOp} {operand changed : Located Expr} (leading : Bool) :
      op ≠ .not → Regroups operand.data changed.data →
      Regroups (.unary op operand leading) (.unary op changed leading)

/-! ### Leaves -/

theorem leavesOf_eq (expr : Located Expr) : leavesOf expr = expr.data.leaves := by
  cases expr
  rfl

theorem leaves_binary {op : BinaryOp} (promotes : op.Promotes) (lhs rhs : Located Expr) :
    (Expr.binary op lhs rhs).leaves = lhs.data.leaves ++ rhs.data.leaves := by
  rw [Expr.leaves, if_pos promotes, leavesOf_eq, leavesOf_eq]

theorem leaves_unary {op : UnaryOp} (other : op ≠ .not) (operand : Located Expr)
    (leading : Bool) : (Expr.unary op operand leading).leaves = operand.data.leaves := by
  rw [← leavesOf_eq]
  cases op with
  | not => exact absurd rfl other
  | neg | plus | increment | decrement | bitNot => simp [Expr.leaves]

theorem compound_unary {op : UnaryOp} (operand : Located Expr) (leading : Bool) :
    (Expr.unary op operand leading).Compound ↔ op ≠ .not ∧ operand.data.Compound := by
  cases operand
  rfl

mutual

/-- An expression is a leaf, or it is put together from what has its leaves. -/
theorem Expr.leaf_induction {motive : Expr → Prop}
    (leaf : ∀ expr : Expr, expr.leaves = [expr] → ¬ expr.Compound → motive expr)
    (binary : ∀ {op : BinaryOp} (lhs rhs : Located Expr), op.Promotes → motive lhs.data →
      motive rhs.data → motive (.binary op lhs rhs))
    (unary : ∀ {op : UnaryOp} (operand : Located Expr) (leading : Bool), op ≠ .not →
      motive operand.data → motive (.unary op operand leading)) :
    ∀ expr : Expr, motive expr
  | .binary op lhs rhs =>
      if promotes : op.Promotes then
        binary lhs rhs promotes (located_leaf_induction leaf binary unary lhs)
          (located_leaf_induction leaf binary unary rhs)
      else leaf _ (by rw [Expr.leaves, if_neg promotes]) promotes
  | .unary op operand leading =>
      if negates : op = .not then
        leaf _ (by rw [negates, Expr.leaves]) (by simp [compound_unary, negates])
      else unary operand leading negates (located_leaf_induction leaf binary unary operand)
  | .literal _ _ => leaf _ (by rw [Expr.leaves]) (by simp [Expr.Compound])
  | .identifier _ => leaf _ (by rw [Expr.leaves]) (by simp [Expr.Compound])
  | .call _ _ => leaf _ (by rw [Expr.leaves]) (by simp [Expr.Compound])
  | .member _ => leaf _ (by rw [Expr.leaves]) (by simp [Expr.Compound])
  | .memberCall _ _ _ => leaf _ (by rw [Expr.leaves]) (by simp [Expr.Compound])

theorem located_leaf_induction {motive : Expr → Prop}
    (leaf : ∀ expr : Expr, expr.leaves = [expr] → ¬ expr.Compound → motive expr)
    (binary : ∀ {op : BinaryOp} (lhs rhs : Located Expr), op.Promotes → motive lhs.data →
      motive rhs.data → motive (.binary op lhs rhs))
    (unary : ∀ {op : UnaryOp} (operand : Located Expr) (leading : Bool), op ≠ .not →
      motive operand.data → motive (.unary op operand leading)) :
    ∀ expr : Located Expr, motive expr.data
  | ⟨_, expr⟩ => Expr.leaf_induction leaf binary unary expr

end

/-! ### The order of promotion -/

namespace Ty

theorem isNumeric_iff {type : Ty} : type.isNumeric = true ↔ ∃ rank, type.rank? = some rank := by
  cases type with
  | primitive type => exact Option.isSome_iff_exists
  | void | named | unknown => simp [isNumeric, rank?]

/-- No two types have one rank. -/
theorem rank_injective {first second : Ty} {rank : Nat} (left : first.rank? = some rank)
    (right : second.rank? = some rank) : first = second := by
  have same : first.rank? = second.rank? := left.trans right.symm
  cases first with
  | void | named | unknown => cases left
  | primitive first =>
      cases second with
      | void | named | unknown => cases right
      | primitive second =>
          revert left same
          cases first <;> cases second <;> simp [rank?, Primitive.rank?]

theorem highest_singleton {type : Ty} (numeric : type.isNumeric = true) : Highest [type] type := by
  obtain ⟨rank, known⟩ := isNumeric_iff.mp numeric
  refine ⟨List.mem_singleton_self type, rank, known, fun other member => ⟨rank, ?_, Nat.le_refl _⟩⟩
  rw [List.mem_singleton.mp member, known]

theorem wider_of_rank {left right : Ty} {low high : Nat} (leftRank : left.rank? = some low)
    (rightRank : right.rank? = some high) :
    wider left right = if high ≤ low then left else right := by
  cases left with
  | void | named | unknown => cases leftRank
  | primitive left =>
      cases right with
      | void | named | unknown => cases rightRank
      | primitive right =>
          rw [wider_of_ranks leftRank rightRank]
          split <;> rfl

theorem Highest.append {front rest : List Ty} {left right : Ty} (first : Highest front left)
    (second : Highest rest right) : Highest (front ++ rest) (wider left right) := by
  obtain ⟨inFront, low, leftRank, below⟩ := first
  obtain ⟨inRest, high, rightRank, beneath⟩ := second
  rw [wider_of_rank leftRank rightRank]
  split
  · rename_i order
    refine ⟨List.mem_append_left rest inFront, low, leftRank,
      List.forall_mem_append.mpr ⟨below, fun other member => ?_⟩⟩
    obtain ⟨lower, known, least⟩ := beneath other member
    exact ⟨lower, known, least.trans order⟩
  · rename_i order
    refine ⟨List.mem_append_right front inRest, high, rightRank,
      List.forall_mem_append.mpr ⟨fun other member => ?_, beneath⟩⟩
    obtain ⟨lower, known, least⟩ := below other member
    exact ⟨lower, known, by omega⟩

/-- The highest type depends on which types there are, and not on their order or number. -/
theorem Highest.unique {types others : List Ty} {first second : Ty} (left : Highest types first)
    (right : Highest others second) (same : ∀ type, type ∈ types ↔ type ∈ others) :
    first = second := by
  obtain ⟨inTypes, high, firstRank, below⟩ := left
  obtain ⟨inOthers, top, secondRank, beneath⟩ := right
  obtain ⟨lower, known, least⟩ := below second ((same second).mpr inOthers)
  obtain ⟨under, found, most⟩ := beneath first ((same first).mp inTypes)
  obtain rfl : top = lower := Option.some.inj (secondRank.symm.trans known)
  obtain rfl : high = under := Option.some.inj (firstRank.symm.trans found)
  have level : high = top := by omega
  exact rank_injective firstRank (level ▸ secondRank)

theorem Highest.numeric {types : List Ty} {type : Ty} (highest : Highest types type) :
    ∀ other ∈ types, other.isNumeric = true := by
  obtain ⟨-, rank, -, below⟩ := highest
  intro other member
  obtain ⟨lower, known, -⟩ := below other member
  exact isNumeric_iff.mpr ⟨lower, known⟩

end Ty

/-! ### Types by leaves -/

variable {types : Typing}

theorem typeIn_binary {op : BinaryOp} (promotes : op.Promotes) (lhs rhs : Located Expr) :
    Expr.typeIn types (.binary op lhs rhs) =
      Ty.wider (lhs.data.typeIn types) (rhs.data.typeIn types) := by
  have promoted : op.yieldsBoolean = false := by
    rcases promotes with arithmetic | bitwise
    · rw [BinaryOp.yieldsBoolean, arithmetic]
    · rw [BinaryOp.yieldsBoolean, bitwise]
  rw [← typeOfLocated_eq, ← typeOfLocated_eq]
  simp [Expr.typeIn, promoted]

theorem highest_leaf (expr : Expr)
    (numeric : ∀ leaf ∈ expr.leaves, (leaf.typeIn types).isNumeric = true) :
    Ty.Highest (expr.leaves.map (Expr.typeIn types)) (expr.typeIn types) := by
  induction expr using Expr.leaf_induction with
  | leaf expr alone =>
      rw [alone] at numeric ⊢
      exact Ty.highest_singleton (numeric expr (List.mem_singleton_self expr))
  | binary lhs rhs promotes left right =>
      rw [leaves_binary promotes] at numeric ⊢
      obtain ⟨inLeft, inRight⟩ := List.forall_mem_append.mp numeric
      rw [List.map_append, typeIn_binary promotes]
      exact (left inLeft).append (right inRight)
  | unary operand leading other induction =>
      rw [leaves_unary other] at numeric ⊢
      rw [typeIn_unary types operand leading other]
      exact induction numeric

/-- A known type of a compound expression is numeric, and so are then the types of all leaves. -/
theorem numeric_leaves (expr : Expr)
    (known : expr.Compound ∧ expr.typeIn types ≠ .unknown ∨ (expr.typeIn types).isNumeric = true) :
    ∀ leaf ∈ expr.leaves, (leaf.typeIn types).isNumeric = true := by
  induction expr using Expr.leaf_induction with
  | leaf expr alone simple =>
      rw [alone]
      rcases known with ⟨compound, -⟩ | numeric
      · exact absurd compound simple
      · exact fun leaf member => List.mem_singleton.mp member ▸ numeric
  | binary lhs rhs promotes left right =>
      have wide : Ty.wider (lhs.data.typeIn types) (rhs.data.typeIn types) ≠ .unknown := by
        rw [← typeIn_binary promotes]
        rcases known with ⟨-, known⟩ | numeric
        · exact known
        · intro unknown
          rw [unknown] at numeric
          cases numeric
      obtain ⟨first, second, low, high, leftType, rightType, leftRank, rightRank⟩ :=
        ranks_of_wider wide
      rw [leaves_binary promotes]
      refine List.forall_mem_append.mpr ⟨left (.inr ?_), right (.inr ?_)⟩
      · rw [leftType]
        exact Ty.isNumeric_iff.mpr ⟨low, leftRank⟩
      · rw [rightType]
        exact Ty.isNumeric_iff.mpr ⟨high, rightRank⟩
  | unary operand leading other induction =>
      rw [typeIn_unary types operand leading other, compound_unary] at known
      rw [leaves_unary other]
      exact induction (known.imp_left fun compound => ⟨compound.1.2, compound.2⟩)

theorem unknown_of_leaf {expr leaf : Expr} (compound : expr.Compound) (member : leaf ∈ expr.leaves)
    (other : (leaf.typeIn types).isNumeric = false) : expr.typeIn types = .unknown := by
  by_contra known
  have numeric := numeric_leaves expr (.inl ⟨compound, known⟩) leaf member
  rw [other] at numeric
  cases numeric

/-- Compound expressions whose leaves have the same types have one type. -/
theorem typeIn_of_leaves {first second : Expr} (left : first.Compound) (right : second.Compound)
    (same : ∀ type, type ∈ first.leaves.map (Expr.typeIn types) ↔
      type ∈ second.leaves.map (Expr.typeIn types)) :
    first.typeIn types = second.typeIn types := by
  by_cases numeric : ∀ type ∈ first.leaves.map (Expr.typeIn types), type.isNumeric = true
  · have others : ∀ type ∈ second.leaves.map (Expr.typeIn types), type.isNumeric = true :=
      fun type member => numeric type ((same type).mpr member)
    rw [List.forall_mem_map] at numeric others
    exact (highest_leaf first numeric).unique (highest_leaf second others) same
  · push Not at numeric
    obtain ⟨type, member, other⟩ := numeric
    obtain ⟨leaf, inFirst, rfl⟩ := List.mem_map.mp member
    obtain ⟨twin, inSecond, alike⟩ := List.mem_map.mp ((same _).mp member)
    rw [Ne, Bool.not_eq_true] at other
    rw [unknown_of_leaf left inFirst other, unknown_of_leaf right inSecond (alike ▸ other)]

/-! ### Regrouping -/

namespace Regroups

variable {first second : Expr}

theorem leaves (regroups : Regroups first second) :
    ∀ leaf, leaf ∈ first.leaves ↔ leaf ∈ second.leaves := by
  intro leaf
  induction regroups with
  | exchange lhs rhs promotes other => rw [leaves_binary promotes, leaves_binary other]
  | swap lhs rhs promotes =>
      rw [leaves_binary promotes, leaves_binary promotes, List.mem_append, List.mem_append, or_comm]
  | rotate one two three left right outer inner =>
      simp only [leaves_binary outer, leaves_binary inner, List.append_assoc]
  | duplicate lhs rhs pos promotes other =>
      simp only [leaves_binary promotes, leaves_binary other, List.mem_append, or_self]
  | insert operand leading other => rw [leaves_unary other]
  | left rhs promotes _ induction =>
      simp only [leaves_binary promotes, List.mem_append, induction]
  | right lhs promotes _ induction =>
      simp only [leaves_binary promotes, List.mem_append, induction]
  | under leading other _ induction => rw [leaves_unary other, leaves_unary other, induction]

theorem compound (regroups : Regroups first second) : first.Compound ↔ second.Compound := by
  induction regroups with
  | exchange lhs rhs promotes other => exact iff_of_true promotes other
  | swap lhs rhs promotes => exact iff_of_true promotes promotes
  | rotate one two three left right outer inner => exact iff_of_true outer inner
  | duplicate lhs rhs pos promotes other => exact iff_of_true promotes promotes
  | insert operand leading other => simp [compound_unary, other]
  | left rhs promotes => exact iff_of_true promotes promotes
  | right lhs promotes => exact iff_of_true promotes promotes
  | under leading other _ induction => rw [compound_unary, compound_unary, induction]

/-- Any number of changes, made or taken back, leave the leaves what they are. -/
theorem chain (regrouped : Relation.EqvGen Regroups first second) :
    (∀ leaf, leaf ∈ first.leaves ↔ leaf ∈ second.leaves) ∧
      (first.Compound ↔ second.Compound) := by
  induction regrouped with
  | rel first second step => exact ⟨step.leaves, step.compound⟩
  | refl expr => exact ⟨fun _ => Iff.rfl, Iff.rfl⟩
  | symm first second _ induction =>
      exact ⟨fun leaf => (induction.1 leaf).symm, induction.2.symm⟩
  | trans first second third _ _ left right =>
      exact ⟨fun leaf => (left.1 leaf).trans (right.1 leaf), left.2.trans right.2⟩

end Regroups

/-- The type of an arithmetic or bitwise expression is that of its highest leaf if all leaves are
numeric, and unknown otherwise. It is the type of every such expression whose leaves have the same
types, and it stays when the expression is regrouped. -/
theorem promotion_by_leaves (session : Session) {op : BinaryOp} (promotes : op.Promotes)
    (lhs rhs : Located Expr) :
    ((∀ leaf ∈ (Expr.binary op lhs rhs).leaves, (session.typeOf leaf).isNumeric = true) →
      Ty.Highest ((Expr.binary op lhs rhs).leaves.map session.typeOf)
        (session.typeOf (.binary op lhs rhs))) ∧
    ((∃ leaf ∈ (Expr.binary op lhs rhs).leaves, (session.typeOf leaf).isNumeric = false) →
      session.typeOf (.binary op lhs rhs) = .unknown) ∧
    (∀ other : Expr, other.Compound →
      (∀ type, type ∈ (Expr.binary op lhs rhs).leaves.map session.typeOf ↔
        type ∈ other.leaves.map session.typeOf) →
      session.typeOf other = session.typeOf (.binary op lhs rhs)) ∧
    ∀ other : Expr, Relation.EqvGen Regroups (.binary op lhs rhs) other →
      session.typeOf other = session.typeOf (.binary op lhs rhs) := by
  have compound : (Expr.binary op lhs rhs).Compound := promotes
  have alike : ∀ other : Expr, other.Compound →
      (∀ type, type ∈ (Expr.binary op lhs rhs).leaves.map session.typeOf ↔
        type ∈ other.leaves.map session.typeOf) →
      session.typeOf other = session.typeOf (.binary op lhs rhs) :=
    fun other whole same => (typeIn_of_leaves compound whole same).symm
  refine ⟨highest_leaf _, ?_, alike, ?_⟩
  · rintro ⟨leaf, member, other⟩
    exact unknown_of_leaf compound member other
  · intro other regrouped
    obtain ⟨leaves, whole⟩ := Regroups.chain regrouped
    refine alike other (whole.mp compound) fun type => ?_
    simp only [List.mem_map, leaves]

/-- A negated byte with a char added to it. -/
def mixedSum : Located Expr :=
  .place 2 1 (.binary .add (.place 2 1 (.unary .neg (.place 2 2 (.identifier "low")) true))
    (.place 2 8 (.literal "char" "'c'")))

def longAmount : Located Expr := .place 2 15 (.literal "long" "2")

def lowKnown : Session := .start (Symbols.empty.declare "low" "byte" 1) {}

theorem shifted_sum_long :
    BinaryOp.Promotes .shiftLeft ∧
      Ty.Highest [.primitive .byte, .primitive .char, .primitive .long]
        (lowKnown.typeOf (.binary .shiftLeft mixedSum longAmount)) ∧
      lowKnown.typeOf (.binary .mul longAmount mixedSum) =
        lowKnown.typeOf (.binary .shiftLeft mixedSum longAmount) := by
  obtain ⟨highest, -, -, regrouped⟩ :=
    promotion_by_leaves lowKnown (show BinaryOp.Promotes .shiftLeft by decide) mixedSum longAmount
  have exchanged : Regroups (.binary .shiftLeft mixedSum longAmount)
      (.binary .mul mixedSum longAmount) := .exchange mixedSum longAmount (by decide) (by decide)
  have swapped : Regroups (.binary .mul mixedSum longAmount) (.binary .mul longAmount mixedSum) :=
    .swap mixedSum longAmount (by decide)
  exact ⟨by decide, highest (by decide),
    regrouped _ (.trans _ _ _ (.rel _ _ exchanged) (.rel _ _ swapped))⟩

end Sema
