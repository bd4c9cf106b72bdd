import Sema.Proofs.Walk.Visits

/-!
# The two ways to resolve a name

The type of a local comes from the locals of its method, which are flat and forget nothing; the table
has scopes. If no declaration hides a name that can be seen where it stands, both give the same
answer for every name that the table has. The reason is that a declaration of a visible name can only
be one in the scope of the visible one, and there it takes over the slot as well.
-/

namespace Sema

/-- No declaration takes a name that the table has or that an outer open scope has. -/
def Unshadowed (symbols : Symbols) (outline : List Action) : Prop :=
  EachDeclaration outline fun front name =>
    symbols.lookup? name = none ∧ ¬ ∃ depth, 0 < depth ∧ LiveAt front name depth

instance (symbols : Symbols) (outline : List Action) : Decidable (Unshadowed symbols outline) :=
  eachDecidable outline _

/-- The locals and the table agree on every name that the table has. -/
def Session.Agrees (session : Session) : Prop :=
  ∀ name entry, session.symbols.lookup? name = some entry →
    session.resolve? name = some (.ofName entry.ty)

/-! ### Histories of an unshadowed outline -/

theorem Thinned.live {whole thin : List Action} (thinned : Thinned whole thin) {name : String}
    {depth : Int} (live : LiveAt thin name depth) : LiveAt whole name depth := by
  obtain ⟨front, ty, line, rest, parts, stays, level⟩ := live
  obtain ⟨before, after, rfl, -, later⟩ := thinned.split parts
  exact ⟨before, ty, line, after, rfl, later.stays_open stays, later.height_eq.trans level⟩

variable {symbols : Symbols}

theorem Unshadowed.thinned {whole thin : List Action} (unshadowed : Unshadowed symbols whole)
    (thinned : Thinned whole thin) : Unshadowed symbols thin := by
  intro front name ty line rest parts
  obtain ⟨before, after, split, first, -⟩ := thinned.split parts
  obtain ⟨outside, inside⟩ := unshadowed before name ty line after split
  refine ⟨outside, ?_⟩
  rintro ⟨depth, deeper, live⟩
  exact inside ⟨depth, deeper, first.live live⟩

/-- A name that is live in an unshadowed history is declared later in the scope that it is live in,
if at all. -/
theorem LatestAt.last {history : List Action} {name ty : String}
    {depth : Int} {line : UInt64} (latest : LatestAt history name depth ty line)
    (unshadowed : Unshadowed symbols history) :
    ∃ front rest, history = front ++ .declare name ty line :: rest ∧ ¬ Declares rest name := by
  obtain ⟨front, rest, rfl, stays, level, last⟩ := latest
  refine ⟨front, rest, rfl, ?_⟩
  rintro ⟨otherTy, otherLine, member⟩
  obtain ⟨between, later, rfl⟩ := List.append_of_mem member
  have open_between := stays.front
  have outer : ¬ 0 < height between := by
    intro deeper
    have split : front ++ .declare name ty line ::
        (between ++ .declare name otherTy otherLine :: later) =
          (front ++ .declare name ty line :: between) ++
            .declare name otherTy otherLine :: later := by
      simp
    apply (unshadowed _ name otherTy otherLine later split).2
    exact ⟨height between, deeper, front, ty, line, between, rfl, open_between, rfl⟩
  -- So the second declaration stands in the scope of the first, which is then not the latest.
  have same : height between = 0 := by
    have bottom := open_between.nonneg
    omega
  apply last
  refine ⟨between, otherTy, otherLine, later, rfl, ?_, ?_⟩
  · intro part isPrefix
    have reached := (stays_open_append.mp stays).2 (.declare name otherTy otherLine :: part)
      ((List.prefix_cons_inj _).mpr isPrefix)
    rw [height_cons, same, Action.rise] at reached
    omega
  · rw [height_append, height_cons, same, Action.rise] at level
    omega

/-! ### Agreement -/

/-- The visible slot of a local holds its last declaration. -/
theorem overlay_of_visible {base table current : Symbols} {history : List Action}
    {opened : List (Bindings String Nat)} (built : table.Built history opened current)
    (unshadowed : Unshadowed base history) (types : Typing) {name : String} {slot : Nat}
    {entry : Variable} (visible : opened.findSome? (fun scope => scope.find? name) = some slot)
    (found : current.lookup? name = some entry) :
    overlay types history name = some (.ofName entry.ty) := by
  obtain ⟨scope, member, bound⟩ := List.exists_of_findSome?_eq_some visible
  obtain ⟨depth, place⟩ := List.mem_iff_getElem?.mp member
  obtain ⟨ty, line, latest, content⟩ := built.latest depth scope name slot place bound
  have stored : current.entries[slot]? = some entry := by
    rw [Symbols.lookup?, built.toOver.visible, visible] at found
    exact found
  rw [stored] at content
  have same : entry.ty = ty := congrArg Variable.ty (Option.some.inj content)
  obtain ⟨front, rest, split, last⟩ := latest.last unshadowed
  rw [split, overlay_last types last, same]

/-- A name that no local has stands for what it stood for before the method. -/
theorem overlay_of_outside {base : Symbols} {history : List Action}
    (unshadowed : Unshadowed base history) {name : String} {ty : Ty}
    (outside : base.typeOf? name = some ty) : overlay base.typeOf? history name = some ty := by
  have undeclared : ¬ Declares history name := by
    rintro ⟨declaredTy, line, member⟩
    obtain ⟨front, rest, split⟩ := List.append_of_mem member
    rw [Symbols.typeOf?, (unshadowed front name declaredTy line rest split).1] at outside
    cases outside
  rw [overlay_apply, overlay_eq_none.mpr undeclared, Option.none_or, outside]

/-- At every moment of a body whose history is unshadowed the table and the locals agree. -/
theorem Session.Inside.agrees {base table : Symbols} {session : Session} {method : MethodContext}
    {history : List Action} (inside : session.Inside table method history)
    (stored : base.InStore) (stacked : base.Over [] table) (lawful : Lawful (.enter :: history))
    (unshadowed : Unshadowed base (.enter :: history)) : session.Agrees := by
  intro name entry found
  have tableStored := stacked.in_store stored
  obtain ⟨opened, built⟩ := Symbols.acts_built table lawful
  rw [← inside.symbols] at built
  rw [inside.resolve tableStored lawful, stacked.typeOf stored]
  have entered : overlay base.typeOf? history = overlay base.typeOf? (.enter :: history) := rfl
  rw [entered]
  cases visible : opened.findSome? fun scope => scope.find? name with
  | some slot => exact overlay_of_visible built unshadowed base.typeOf? visible found
  | none =>
      apply overlay_of_outside unshadowed
      have same := Symbols.typeOf_eq_of_unmarked
        (built.toOver.lookup_outside tableStored (List.findSome?_eq_none_iff.mp visible))
      rw [stacked.typeOf stored] at same
      rw [← same, Symbols.typeOf?, found]
      rfl

/-- Without shadowing the table and the locals agree at the start and at the end of every visit. -/
theorem agrees_at_visits {symbols : Symbols} (reachable : symbols.Reachable) {options : Options}
    {program : Program}
    (unshadowed : ∀ method ∈ program.methods, Unshadowed symbols method.data.outline)
    {visit : Visit} (visits : (Session.start symbols options).Visits program visit) :
    visit.before.Agrees ∧ visit.after.Agrees := by
  obtain ⟨session, method, room, front, tail, within⟩ := visits.within
  have stored := reachable.in_store
  have body := stmts_render method.data.body
  have lawful := Session.lawful_inMethod method.data room
  have thinned : Thinned method.data.outline (scopeAround
      (parametersOutline method.data.params ++ actions (method.data.script room))) := by
    have inside := (Thinned.refl (parametersOutline method.data.params)).append (body.thinned room)
    exact .keep .enter (inside.append (.refl [.leave]))
  have kept := (unshadowed method within.member).thinned thinned
  have parts : scopeAround (parametersOutline method.data.params ++
      actions (method.data.script room)) =
        ((.enter :: (parametersOutline method.data.params ++ actions front)) ++
          actions (visit.node.script visit.before.room)) ++ (actions tail ++ [.leave]) := by
    rw [within.place]
    simp [scopeAround]
  rw [parts] at lawful kept
  constructor
  · exact within.inside_before.agrees stored within.stacked lawful.front.front kept.front.front
  · exact within.inside_after.agrees stored within.stacked lawful.front kept.front

/-- A parameter that is declared twice, and a name with two types in sibling scopes. -/
def siblings : Located Method :=
  let scope (ty : String) : Located Stmt :=
    .place 2 5 (.block [.place 2 7 (.declare ty "local" false none),
      .place 3 7 (.assign "local" (.place 3 15 (.identifier "local")))])
  .place 1 1
    { returnTy := "void", name := "both", body := [scope "int", scope "String"],
      params := [.place 1 6 { ty := "int", name := "twice" },
        .place 1 17 { ty := "long", name := "twice" }] }

def siblingsOnly : Program :=
  ⟨[.place 1 1 ⟨"Sample", "", [.place 1 1 (.method siblings.data)]⟩]⟩

theorem agrees_in_second_sibling :
    ∃ visit : Visit, (Session.start .empty {}).Visits siblingsOnly visit ∧
      visit.node = .expr (.place 3 15 (.identifier "local")) ∧
      visit.before.resolve? "local" = some (.primitive .string) ∧
      visit.before.resolve? "twice" = some (.primitive .long) ∧
      visit.before.Agrees ∧ visit.after.Agrees := by
  have methods : siblingsOnly.methods = [] ++ siblings :: [] := rfl
  have second : (Session.start .empty {}).Visits siblingsOnly _ :=
    .body methods rfl (by decide) (List.mem_cons_of_mem _ List.mem_cons_self)
  have assignment := second.part (by decide) (List.mem_cons_of_mem _ List.mem_cons_self)
  have value := assignment.part (by decide) List.mem_cons_self
  have unshadowed : ∀ method ∈ siblingsOnly.methods, Unshadowed .empty method.data.outline := by
    decide
  exact ⟨_, value, rfl, by decide, by decide, agrees_at_visits .empty unshadowed value⟩

end Sema
