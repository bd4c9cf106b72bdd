import Sema.Proofs.Symbols.Lookup
import Sema.Proofs.Symbols.Declarations

/-!
# What the store records

If no scope declares a name twice, a lawful history adds one entry for each of its declarations, in
order, and an entry is marked as used if and only if its declaration is referenced. Of the entries
that were there before, the free mentions mark those that they mean.
-/

namespace Sema.Symbols

/-- The table after all free mentions of a history and nothing else of it. -/
def marked (base : Symbols) (history : List Action) : Symbols :=
  (freeMentions history).foldl markUsed base

structure Recorded (base : Symbols) (history : List Action)
    (opened : List (Bindings String Nat)) (symbols : Symbols) : Prop
    extends Built base history opened symbols where
  stored : symbols.entries = (base.marked history).entries ++
    (declarations history).map (Declaration.entry base.scopeDepth)
  slots : ∀ (depth : Nat) scope name slot, opened[depth]? = some scope →
    scope.find? name = some slot → ∃ index declaration,
      (declarations history)[index]? = some declaration ∧ declaration.name = name ∧
        StaysOpen declaration.rest ∧ height declaration.rest = depth ∧
        slot = base.entries.length + index

variable {base symbols : Symbols} {history : List Action} {scope : Bindings String Nat}
  {opened : List (Bindings String Nat)}

theorem recorded_nil (base : Symbols) : base.Recorded [] [] base where
  toBuilt := built_nil base
  stored := (List.append_nil base.entries).symm
  slots := by simp

/-! ### Marks of the base -/

theorem marked_concat (base : Symbols) (history : List Action) (action : Action) :
    base.marked (history ++ [action]) =
      (freeFrom history [action]).foldl markUsed (base.marked history) := by
  rw [marked, freeMentions_concat, List.foldl_append]
  rfl

theorem length_marks (base : Symbols) (names : List String) :
    (names.foldl markUsed base).entries.length = base.entries.length := by
  induction names generalizing base with
  | nil => rfl
  | cons name rest induction => rw [List.foldl_cons, induction, length_markUsed]

theorem scopes_marks (base : Symbols) (names : List String) :
    (names.foldl markUsed base).scopes = base.scopes := by
  induction names generalizing base with
  | nil => rfl
  | cons name rest induction => rw [List.foldl_cons, induction, scopes_markUsed]

theorem length_marked (base : Symbols) (history : List Action) :
    (base.marked history).entries.length = base.entries.length :=
  length_marks base (freeMentions history)

theorem scopes_marked (base : Symbols) (history : List Action) :
    (base.marked history).scopes = base.scopes :=
  scopes_marks base (freeMentions history)

theorem modify_append_left {Item : Type} (mark : Item → Item) {front rest : List Item} {place : Nat}
    (within : place < front.length) :
    (front ++ rest).modify place mark = front.modify place mark ++ rest := by
  rw [List.modify_eq_take_cons_drop within, List.modify_eq_take_cons_drop (by simp; omega),
    List.getElem_append_left within, List.take_append_of_le_length (by omega),
    List.drop_append_of_le_length (by omega)]
  simp

theorem modify_append_right {Item : Type} (mark : Item → Item) (front rest : List Item)
    (place : Nat) :
    (front ++ rest).modify (front.length + place) mark = front ++ rest.modify place mark := by
  rw [List.modify_eq_take_drop, List.modify_eq_take_drop, List.take_length_add_append,
    List.drop_length_add_append, List.append_assoc]

theorem InStore.marks (inStore : base.InStore) (names : List String) :
    (names.foldl Symbols.markUsed base).InStore := by
  induction names generalizing base with
  | nil => exact inStore
  | cons name rest induction => exact induction (inStore.markUsed name)

/-- A mark of a variable in front leaves what stands behind. -/
theorem entries_markUsed (inStore : base.InStore) {name : String}
    (visible : symbols.scopes.visible? name = base.scopes.visible? name) {rest : List Variable}
    (stored : symbols.entries = base.entries ++ rest) :
    (symbols.markUsed name).entries = (base.markUsed name).entries ++ rest := by
  rw [markUsed, markUsed, visible]
  cases outside : base.scopes.visible? name with
  | none => exact stored
  | some slot => simp only [stored, modify_append_left _ (inStore.visible_lt outside)]

theorem entries_marks (inStore : base.InStore) (scopes : symbols.scopes = base.scopes)
    {rest : List Variable} (stored : symbols.entries = base.entries ++ rest)
    (names : List String) :
    (names.foldl markUsed symbols).entries = (names.foldl markUsed base).entries ++ rest := by
  induction names generalizing base symbols with
  | nil => exact stored
  | cons name later induction =>
      exact induction (inStore.markUsed name) (by rw [scopes_markUsed, scopes_markUsed, scopes])
        (entries_markUsed inStore (by rw [scopes]) stored)

/-! ### Actions that declare nothing -/

theorem declarations_concat_silent {action : Action}
    (silent : ∀ name ty line, action ≠ .declare name ty line) (history : List Action) :
    declarations (history ++ [action]) =
      (declarations history).map fun declaration => declaration.followed [action] := by
  rw [declarations_concat]
  cases action with
  | enter | leave | mention => simp [declarationsFrom]
  | declare name ty line => exact absurd rfl (silent name ty line)

theorem declaration_concat {index : Nat} {declaration : Declaration}
    (found : (declarations history)[index]? = some declaration) (action : Action) :
    (declarations (history ++ [action]))[index]? = some (declaration.followed [action]) := by
  have within := (List.getElem?_eq_some_iff.mp found).1
  rw [declarations_concat, List.getElem?_append_left (by simpa using within), List.getElem?_map,
    found, Option.map_some]

/-- An action that is no mention leaves the marks of use as they are. -/
theorem entry_followed {action : Action} (silent : ∀ name, action ≠ .mention name) (depth : Nat)
    (declaration : Declaration) :
    (declaration.followed [action]).entry depth = declaration.entry depth := by
  have same : Referenced (declaration.rest ++ [action]) declaration.name ↔
      Referenced declaration.rest declaration.name := by
    rw [referenced_concat]
    simp [silent]
  simp [Declaration.entry, Declaration.followed, same]

theorem entries_followed {action : Action} (silent : ∀ name, action ≠ .mention name) (depth : Nat)
    (items : List Declaration) :
    (items.map fun declaration => declaration.followed [action]).map (Declaration.entry depth) =
      items.map (Declaration.entry depth) := by
  rw [List.map_map]
  apply List.map_congr_left
  intro declaration _
  exact entry_followed silent depth declaration

theorem Recorded.length (recorded : base.Recorded history opened symbols) :
    symbols.entries.length = base.entries.length + (declarations history).length := by
  rw [recorded.stored, List.length_append, List.length_map, length_marked]

/-- The slots after an action that binds nothing, for scopes that were open before. -/
theorem Recorded.slots_concat (recorded : base.Recorded history opened symbols) (action : Action)
    {depth after : Nat} {name : String} {slot : Nat} (place : opened[depth]? = some scope)
    (found : scope.find? name = some slot) (moved : (after : Int) = depth + action.rise) :
    ∃ index declaration, (declarations (history ++ [action]))[index]? = some declaration ∧
      declaration.name = name ∧ StaysOpen declaration.rest ∧
      height declaration.rest = after ∧ slot = base.entries.length + index := by
  obtain ⟨index, declaration, foundAt, named, stays, level, slotAt⟩ :=
    recorded.slots depth scope name slot place found
  refine ⟨index, declaration.followed [action], declaration_concat foundAt action, named, ?_, ?_,
    slotAt⟩
  · exact stays_open_concat.mpr ⟨stays, by omega⟩
  · simp [Declaration.followed, level, moved]

theorem Recorded.enter (recorded : base.Recorded history opened symbols) :
    base.Recorded (history ++ [.enter]) (.empty :: opened) (symbols.act .enter) where
  toBuilt := recorded.toBuilt.enter
  stored := by
    rw [declarations_concat_silent (by simp), entries_followed (by simp), marked_concat]
    exact recorded.stored
  slots := by
    intro depth inside name slot place found
    cases depth with
    | zero =>
        simp only [List.getElem?_cons_zero, Option.some.injEq] at place
        subst place
        simp at found
    | succ depth =>
        exact recorded.slots_concat .enter (by simpa using place) found (by simp [Action.rise])

theorem Recorded.leave (recorded : base.Recorded history (scope :: opened) symbols) :
    base.Recorded (history ++ [.leave]) opened (symbols.act .leave) where
  toBuilt := recorded.toBuilt.leave
  stored := by
    rw [declarations_concat_silent (by simp), entries_followed (by simp), marked_concat,
      act_leave_of_inner recorded.inner]
    exact recorded.stored
  slots := by
    intro depth inside name slot place found
    have outer : (scope :: opened)[depth + 1]? = some inside := by simpa using place
    refine recorded.slots_concat .leave outer found ?_
    rw [Action.rise]
    omega

/-! ### Declarations -/

theorem Recorded.declare (recorded : base.Recorded history (scope :: opened) symbols)
    {name : String} (unbound : scope.find? name = none) (ty : String) (line : UInt64) :
    base.Recorded (history ++ [.declare name ty line])
      (scope.bind name symbols.entries.length :: opened)
      (symbols.act (.declare name ty line)) where
  toBuilt := recorded.toBuilt.declare unbound ty line
  stored := by
    have level := recorded.level
    have depth : symbols.scopeDepth = base.scopeDepth + (height history).toNat := by
      rw [recorded.toOver.scope_depth]
      omega
    rw [declarations_concat, List.map_append, entries_followed (by simp), marked_concat, act,
      declare_of_unbound recorded.inner unbound]
    simp [recorded.stored, freeFrom, declarationsFrom, Declaration.entry, depth,
      not_referenced_nil]
  slots := by
    intro depth inside sought slot place found
    have moved : ∀ place : Nat, (place : Int) = place + Action.rise (.declare name ty line) := by
      simp [Action.rise]
    cases depth with
    | zero =>
        simp only [List.getElem?_cons_zero, Option.some.injEq] at place
        subst place
        rw [Bindings.find?_bind] at found
        by_cases same : name = sought
        · rw [if_pos same, Option.some.injEq] at found
          exact ⟨(declarations history).length, _, declarations_of_split history name ty line [],
            same, stays_open_nil, rfl, by rw [← found, recorded.length]⟩
        · rw [if_neg same] at found
          exact recorded.slots_concat _ List.getElem?_cons_zero found (moved 0)
    | succ depth =>
        have outer : (scope :: opened)[depth + 1]? = some inside := by simpa using place
        exact recorded.slots_concat _ outer found (moved (depth + 1))

/-! ### Mentions -/

/-- What is declared in a scope is not hidden as long as no scope inside of it binds the name. -/
theorem Built.not_hidden (built : base.Built history opened symbols) {front rest : List Action}
    {action : Action} (split : history = front ++ action :: rest) {name : String} {place : Nat}
    (own : opened[place]? = some scope) (level : height rest = place)
    (unbound : ∀ (depth : Nat) scope, opened[depth]? = some scope → depth < place →
      scope.find? name = none) : ¬ Hidden rest name := by
  rintro ⟨depth, deeper, live⟩
  have above := live.nonneg
  have liveAt : LiveAt history name depth.toNat := by
    rw [Int.toNat_of_nonneg above, split]
    exact (live.append_left [action]).append_left front
  have inside := (List.getElem?_eq_some_iff.mp own).1
  have within : depth.toNat < opened.length := by omega
  have here : opened[depth.toNat]? = some opened[depth.toNat] := List.getElem?_eq_getElem within
  obtain ⟨other, found⟩ := built.bound depth.toNat _ name here liveAt
  rw [unbound depth.toNat _ here (by omega)] at found
  cases found

/-- The innermost binding of a name stands for the declaration that a mention refers to. -/
theorem Recorded.visible_of_bound (recorded : base.Recorded history opened symbols) {name : String}
    {slot : Nat} (bound : opened.findSome? (fun scope => scope.find? name) = some slot) :
    ∃ index declaration, (declarations history)[index]? = some declaration ∧
      declaration.Visible name ∧ slot = base.entries.length + index := by
  obtain ⟨inner, scope, outer, rfl, found, unbound⟩ := List.findSome?_eq_some_iff.mp bound
  have own : (inner ++ scope :: outer)[inner.length]? = some scope := by simp
  obtain ⟨index, declaration, foundAt, named, stays, level, slotAt⟩ :=
    recorded.slots inner.length scope name slot own found
  obtain ⟨front, split, -, -⟩ := declaration_split foundAt
  refine ⟨index, declaration, foundAt, ⟨named, stays, ?_⟩, slotAt⟩
  apply recorded.toBuilt.not_hidden split own level
  intro depth inside place deeper
  rw [List.getElem?_append_left deeper] at place
  exact unbound inside (List.mem_of_getElem? place)

/-- An open scope binds a name that has a live declaration. -/
theorem Built.free_of_unbound (built : base.Built history opened symbols)
    (lawful : Lawful history) {name : String}
    (unbound : opened.findSome? (fun scope => scope.find? name) = none) (depth : Int) :
    ¬ LiveAt history name depth := by
  intro live
  have above := live.nonneg
  have level := built.level
  have within : depth.toNat < opened.length := by
    obtain ⟨front, ty, line, rest, split, -, rfl⟩ := live
    have inside := lawful.inside front name ty line rest split
    rw [split, height_append, height_cons, Action.rise] at level
    omega
  rw [← Int.toNat_of_nonneg above] at live
  obtain ⟨slot, bound⟩ := built.bound _ _ name (List.getElem?_eq_getElem within) live
  rw [List.findSome?_eq_none_iff.mp unbound _ (List.getElem_mem within)] at bound
  cases bound

theorem entry_of_visible {declaration : Declaration} {name : String}
    (visible : declaration.Visible name) (depth : Nat) :
    (declaration.followed [.mention name]).entry depth =
      { declaration.entry depth with used := true } := by
  obtain ⟨rfl, stays, seen⟩ := visible
  have referenced : Referenced (declaration.rest ++ [.mention declaration.name])
      declaration.name := referenced_concat.mpr (.inr ⟨rfl, stays, seen⟩)
  simp [Declaration.entry, Declaration.followed, referenced]

theorem entry_of_not_visible {declaration : Declaration} {name : String}
    (hidden : ¬ declaration.Visible name) (depth : Nat) :
    (declaration.followed [.mention name]).entry depth = declaration.entry depth := by
  have same : Referenced (declaration.rest ++ [.mention name]) declaration.name ↔
      Referenced declaration.rest declaration.name := by
    rw [referenced_concat, or_iff_left_iff_imp]
    rintro ⟨mention, stays, seen⟩
    have named : declaration.name = name := (Action.mention.inj mention).symm
    exact absurd ⟨named, stays, named ▸ seen⟩ hidden
  simp [Declaration.entry, Declaration.followed, same]

/-- Marking the one visible declaration gives the entries after the mention. -/
theorem entries_of_visible (once : DeclaresOnce history) {name : String} {index : Nat}
    {declaration : Declaration} (found : (declarations history)[index]? = some declaration)
    (visible : declaration.Visible name) (depth : Nat) :
    ((declarations history).map (Declaration.entry depth)).modify index
        (fun entry => { entry with used := true }) =
      (declarations (history ++ [.mention name])).map (Declaration.entry depth) := by
  rw [declarations_concat_silent (by simp)]
  apply List.ext_getElem?
  intro place
  rw [List.getElem?_modify, List.getElem?_map, List.getElem?_map, List.getElem?_map]
  cases here : (declarations history)[place]? with
  | none => rfl
  | some other =>
      by_cases same : index = place
      · subst same
        obtain rfl : declaration = other := by rwa [found, Option.some.injEq] at here
        simp [entry_of_visible visible]
      · have hidden : ¬ other.Visible name :=
          fun seen => same (visible_unique once found here visible seen)
        simp [same, entry_of_not_visible hidden]

theorem entries_of_hidden {name : String}
    (hidden : ∀ declaration ∈ declarations history, ¬ declaration.Visible name) (depth : Nat) :
    (declarations (history ++ [.mention name])).map (Declaration.entry depth) =
      (declarations history).map (Declaration.entry depth) := by
  rw [declarations_concat_silent (by simp), List.map_map]
  apply List.map_congr_left
  intro declaration member
  exact entry_of_not_visible (hidden declaration member) depth

/-- A mention that means nothing of the history means what it would mean without it. -/
theorem Recorded.entries_of_free (recorded : base.Recorded history opened symbols)
    (inStore : base.InStore) {name : String}
    (unbound : opened.findSome? (fun scope => scope.find? name) = none) :
    (symbols.markUsed name).entries = ((base.marked history).markUsed name).entries ++
      (declarations history).map (Declaration.entry base.scopeDepth) := by
  have visible := recorded.toOver.visible name
  rw [unbound, Option.none_or, ← scopes_marked base history] at visible
  exact entries_markUsed (inStore.marks _) visible recorded.stored

theorem Recorded.mention (recorded : base.Recorded history opened symbols) (inStore : base.InStore)
    (lawful : Lawful history) (once : DeclaresOnce history) (name : String) :
    base.Recorded (history ++ [.mention name]) opened (symbols.act (.mention name)) where
  toBuilt := recorded.toBuilt.mention name
  stored := by
    rw [act, marked_concat]
    cases bound : opened.findSome? fun scope => scope.find? name with
    | some slot =>
        have visible := recorded.toOver.visible name
        rw [bound, Option.some_or] at visible
        obtain ⟨index, declaration, found, seen, slotAt⟩ := recorded.visible_of_bound bound
        obtain ⟨front, split, -, -⟩ := declaration_split found
        rw [freeFrom_mention_of_live (seen.live split), ← entries_of_visible once found seen,
          markUsed, visible]
        simp only [slotAt, recorded.stored, ← length_marked base history, modify_append_right,
          List.foldl_nil]
    | none =>
        have free := recorded.toBuilt.free_of_unbound lawful bound
        have hidden : ∀ declaration ∈ declarations history, ¬ declaration.Visible name := by
          intro declaration member seen
          obtain ⟨index, found⟩ := List.mem_iff_getElem?.mp member
          obtain ⟨front, split, -, -⟩ := declaration_split found
          exact free _ (seen.live split)
        rw [freeFrom_mention_of_free free, entries_of_hidden hidden]
        exact recorded.entries_of_free inStore bound
  slots := by
    intro depth inside sought slot place found
    exact recorded.slots_concat (.mention name) place found (by simp [Action.rise])

/-! ### Whole histories -/

theorem Recorded.act (recorded : base.Recorded history opened symbols) (inStore : base.InStore)
    {action : Action} (lawful : Lawful (history ++ [action]))
    (once : DeclaresOnce (history ++ [action])) :
    ∃ next, base.Recorded (history ++ [action]) next (symbols.act action) := by
  cases action with
  | enter => exact ⟨_, recorded.enter⟩
  | leave =>
      obtain ⟨scope, outer, rfl⟩ := recorded.toBuilt.leaves_own lawful
      exact ⟨outer, recorded.leave⟩
  | mention name => exact ⟨opened, recorded.mention inStore lawful.front once.front name⟩
  | declare name ty line =>
      obtain ⟨scope, outer, rfl⟩ := recorded.toBuilt.declares_own lawful
      have unbound : scope.find? name = none := by
        cases found : scope.find? name with
        | none => rfl
        | some slot =>
            obtain ⟨_, _, latest, -⟩ := recorded.latest 0 scope name slot rfl found
            exact absurd latest.live (once history name ty line [] rfl)
      exact ⟨_, recorded.declare unbound ty line⟩

theorem acts_recorded {base : Symbols} (inStore : base.InStore) {history : List Action}
    (lawful : Lawful history) (once : DeclaresOnce history) :
    ∃ opened, base.Recorded history opened (base.acts history) := by
  induction history using List.reverseRecOn with
  | nil => exact ⟨[], recorded_nil base⟩
  | append_singleton history action induction =>
      obtain ⟨opened, recorded⟩ := induction lawful.front once.front
      rw [acts_concat]
      exact recorded.act inStore lawful once

end Sema.Symbols
