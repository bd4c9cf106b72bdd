import Sema.Proofs.Symbols.Store
import Sema.Symbols.Fields

/-!
# Fields in the root scope

The fields of a program are declared in an empty table before its methods are walked. Each name has
one entry there. Its place is that of the first field of the name, and what it says comes from the
last one, whatever classes the two belong to.
-/

namespace Sema

/-- The names of some fields, each at its first appearance. -/
def namesOf (fields : List (Located Field)) : List String :=
  (fields.map fun field => field.data.name).eraseDups

def lastNamed? (fields : List (Located Field)) (name : String) : Option (Located Field) :=
  fields.findRev? fun field => field.data.name == name

/-- A field as a variable of the root scope. -/
def fieldEntry (used : Bool) (field : Located Field) : Variable where
  name := field.data.name
  ty := field.data.ty
  line := field.line
  used := used
  scopeDepth := 0

/-- The table in which the analysis of a program begins if its fields are declared. -/
def Program.seeded (program : Program) : Symbols := Symbols.empty.declareFields program

/-- The table has the given fields and nothing else. -/
structure Seeded (fields : List (Located Field)) (symbols : Symbols) : Prop where
  lookups : ∀ name, symbols.lookup? name = (lastNamed? fields name).map (fieldEntry false)
  order : symbols.entries.map Variable.name = namesOf fields
  unused : ∀ entry ∈ symbols.entries, entry.scopeDepth = 0 ∧ entry.used = false

variable {fields : List (Located Field)} {symbols : Symbols}

/-! ### Names of fields -/

theorem eraseDups_concat {Item : Type} [BEq Item] [LawfulBEq Item] (items : List Item)
    (item : Item) [Decidable (item ∈ items)] : (items ++ [item]).eraseDups =
      if item ∈ items then items.eraseDups else items.eraseDups ++ [item] := by
  rw [List.eraseDups_append]
  split
  · rename_i known
    simp [List.removeAll, known]
  · rename_i new
    simp [List.removeAll, new, List.eraseDups_cons]

theorem mem_namesOf {name : String} :
    name ∈ namesOf fields ↔ ∃ field ∈ fields, field.data.name = name := by
  rw [namesOf, List.mem_eraseDups, List.mem_map]

theorem namesOf_known {field : Located Field} (known : field.data.name ∈ namesOf fields) :
    namesOf (fields ++ [field]) = namesOf fields := by
  rw [namesOf, List.mem_eraseDups] at known
  rw [namesOf, List.map_append, List.map_singleton, eraseDups_concat, if_pos known]
  rfl

theorem namesOf_new {field : Located Field} (new : field.data.name ∉ namesOf fields) :
    namesOf (fields ++ [field]) = namesOf fields ++ [field.data.name] := by
  rw [namesOf, List.mem_eraseDups] at new
  rw [namesOf, List.map_append, List.map_singleton, eraseDups_concat, if_neg new]
  rfl

theorem namesOf_nodup (fields : List (Located Field)) : (namesOf fields).Nodup := by
  induction fields using List.reverseRecOn with
  | nil => exact List.nodup_nil
  | append_singleton fields field induction =>
      by_cases known : field.data.name ∈ namesOf fields
      · rw [namesOf_known known]
        exact induction
      · rw [namesOf_new known]
        apply List.nodup_append.mpr
        refine ⟨induction, List.nodup_singleton _, ?_⟩
        intro name member other last same
        rw [List.mem_singleton.mp last] at same
        exact known (same ▸ member)

theorem lastNamed_concat (fields : List (Located Field)) (field : Located Field) (name : String) :
    lastNamed? (fields ++ [field]) name =
      if field.data.name = name then some field else lastNamed? fields name := by
  rw [lastNamed?, List.findRev?_eq_find?_reverse, List.reverse_append, List.reverse_singleton,
    List.singleton_append, List.find?_cons, lastNamed?, List.findRev?_eq_find?_reverse]
  by_cases same : field.data.name = name
  · rw [if_pos same, beq_iff_eq.mpr same]
  · rw [if_neg same, beq_false_of_ne same]

theorem lastNamed_eq_none {name : String} :
    lastNamed? fields name = none ↔ name ∉ namesOf fields := by
  rw [lastNamed?, List.findRev?_eq_find?_reverse, List.find?_eq_none, mem_namesOf]
  simp

/-! ### Declarations of fields -/

/-- The root scope leads each name to its place among the names, where the entry of its last field
stands. -/
structure Rooted (fields : List (Located Field)) (symbols : Symbols) : Prop where
  inner : symbols.scopes.inner = []
  slots : ∀ name, symbols.scopes.root.find? name = (namesOf fields).idxOf? name
  order : symbols.entries.map Variable.name = namesOf fields
  stored : ∀ (slot : Nat) entry, symbols.entries[slot]? = some entry →
    (lastNamed? fields entry.name).map (fieldEntry false) = some entry

theorem rooted_empty : Rooted [] .empty where
  inner := rfl
  slots _ := rfl
  order := rfl
  stored _ _ found := nomatch found

theorem Rooted.local_eq (rooted : Rooted fields symbols) (name : String) :
    symbols.scopes.local? name = (namesOf fields).idxOf? name := by
  rw [ScopeStack.local?, rooted.inner]
  exact rooted.slots name

theorem Rooted.scopeDepth_eq (rooted : Rooted fields symbols) : symbols.scopeDepth = 0 := by
  rw [Symbols.scopeDepth, ScopeStack.depth, rooted.inner]
  rfl

theorem Rooted.size (rooted : Rooted fields symbols) :
    symbols.entries.length = (namesOf fields).length := by
  rw [← rooted.order, List.length_map]

theorem Rooted.named (rooted : Rooted fields symbols) {slot : Nat} {entry : Variable}
    (found : symbols.entries[slot]? = some entry) : (namesOf fields)[slot]? = some entry.name := by
  rw [← rooted.order, List.getElem?_map, found]
  rfl

/-- What another field says does not concern an entry of another name. -/
theorem Rooted.stored_other (rooted : Rooted fields symbols) {field : Located Field} {slot : Nat}
    {entry : Variable} (found : symbols.entries[slot]? = some entry)
    (other : field.data.name ≠ entry.name) :
    (lastNamed? (fields ++ [field]) entry.name).map (fieldEntry false) = some entry := by
  rw [lastNamed_concat, if_neg other]
  exact rooted.stored slot entry found

/-- The field that is declared last says what its entry says. -/
theorem stored_last (fields : List (Located Field)) (field : Located Field) :
    (lastNamed? (fields ++ [field]) field.data.name).map (fieldEntry false) =
      some (fieldEntry false field) := by
  rw [lastNamed_concat, if_pos rfl]
  rfl

theorem Rooted.redeclare (rooted : Rooted fields symbols) {field : Located Field} {slot : Nat}
    (known : symbols.scopes.local? field.data.name = some slot) :
    Rooted (fields ++ [field]) (symbols.declareField field) := by
  have declared : symbols.declareField field =
      { symbols with entries := symbols.entries.set slot (fieldEntry false field) } := by
    have redeclared := Symbols.declare_known known field.data.ty field.line
    rw [rooted.scopeDepth_eq] at redeclared
    exact redeclared
  rw [rooted.local_eq, idxOf_eq_some_iff (namesOf_nodup fields)] at known
  have names := namesOf_known (List.mem_of_getElem? known)
  obtain ⟨placed, same⟩ := List.getElem?_eq_some_iff.mp known
  have within : slot < symbols.entries.length := by
    rw [rooted.size]
    exact placed
  rw [declared]
  constructor
  · exact rooted.inner
  · rw [names]
    exact rooted.slots
  · rw [names, List.map_set, rooted.order]
    rw [show (fieldEntry false field).name = (namesOf fields)[slot] from same.symm]
    exact List.set_getElem_self placed
  · intro place entry found
    by_cases here : slot = place
    · rw [← here] at found
      rw [List.getElem?_set_self within] at found
      cases found
      exact stored_last fields field
    · rw [List.getElem?_set_ne here] at found
      apply rooted.stored_other found
      intro equal
      -- An entry of the same name would give the name two places.
      have again := rooted.named found
      rw [← equal, ← known] at again
      exact here ((List.getElem?_inj placed (namesOf_nodup fields)).mp again.symm)

theorem Rooted.declare (rooted : Rooted fields symbols) {field : Located Field}
    (unknown : symbols.scopes.local? field.data.name = none) :
    Rooted (fields ++ [field]) (symbols.declareField field) := by
  have defined : (symbols.scopes.define field.data.name symbols.entries.length).2 =
      ⟨symbols.scopes.root.bind field.data.name symbols.entries.length, []⟩ := by
    rw [ScopeStack.define, rooted.inner]
  have declared : symbols.declareField field =
      { symbols with
        entries := symbols.entries ++ [fieldEntry false field]
        scopes := ⟨symbols.scopes.root.bind field.data.name symbols.entries.length, []⟩ } := by
    have new := Symbols.declare_unknown unknown field.data.ty field.line
    rw [rooted.scopeDepth_eq, defined] at new
    exact new
  rw [rooted.local_eq, List.idxOf?_eq_none_iff] at unknown
  have names := namesOf_new unknown
  rw [declared]
  constructor
  · rfl
  · intro name
    rw [names, Bindings.find?_bind]
    split
    · rename_i same
      rw [← same, idxOf_new unknown, rooted.size]
    · rename_i other
      rw [idxOf_other (Ne.symm other)]
      exact rooted.slots name
  · rw [names, List.map_append, rooted.order]
    rfl
  · intro slot entry found
    by_cases old : slot < symbols.entries.length
    · rw [List.getElem?_append_left old] at found
      apply rooted.stored_other found
      intro equal
      have named := List.mem_of_getElem? (rooted.named found)
      exact unknown (equal ▸ named)
    · rw [List.getElem?_append_right (Nat.le_of_not_lt old)] at found
      cases List.mem_singleton.mp (List.mem_of_getElem? found)
      exact stored_last fields field

theorem Rooted.declareField (rooted : Rooted fields symbols) (field : Located Field) :
    Rooted (fields ++ [field]) (symbols.declareField field) := by
  cases known : symbols.scopes.local? field.data.name with
  | some slot => exact rooted.redeclare known
  | none => exact rooted.declare known

theorem Program.rooted (program : Program) : Rooted program.fields program.seeded := by
  rw [seeded, Symbols.declareFields]
  induction program.fields using List.reverseRecOn with
  | nil => exact rooted_empty
  | append_singleton fields field induction =>
      rw [List.foldl_concat]
      exact induction.declareField field

theorem Program.seeded_reachable (program : Program) : program.seeded.Reachable := by
  rw [seeded, Symbols.declareFields]
  induction program.fields using List.reverseRecOn with
  | nil => exact .empty
  | append_singleton fields field induction =>
      rw [List.foldl_concat]
      exact induction.declare field.data.name field.data.ty field.line

theorem Rooted.lookup (rooted : Rooted fields symbols) (name : String) :
    symbols.lookup? name = (lastNamed? fields name).map (fieldEntry false) := by
  have visible : symbols.scopes.visible? name = (namesOf fields).idxOf? name := by
    rw [ScopeStack.visible?, ScopeStack.outward, rooted.inner, List.nil_append,
      List.findSome?_singleton]
    exact rooted.slots name
  rw [Symbols.lookup?, visible]
  cases place : (namesOf fields).idxOf? name with
  | none =>
      rw [lastNamed_eq_none.mpr (List.idxOf?_eq_none_iff.mp place)]
      rfl
  | some slot =>
      rw [idxOf_eq_some_iff (namesOf_nodup fields)] at place
      have within : slot < symbols.entries.length := by
        rw [rooted.size]
        exact (List.getElem?_eq_some_iff.mp place).1
      have found := List.getElem?_eq_getElem within
      have named := rooted.named found
      rw [place, Option.some.injEq] at named
      rw [Option.bind_some, found, named]
      exact (rooted.stored slot _ found).symm

theorem Rooted.seeded (rooted : Rooted fields symbols) : Seeded fields symbols where
  lookups := rooted.lookup
  order := rooted.order
  unused entry member := by
    obtain ⟨slot, found⟩ := List.mem_iff_getElem?.mp member
    obtain ⟨field, -, same⟩ := Option.map_eq_some_iff.mp (rooted.stored slot entry found)
    rw [← same]
    exact ⟨rfl, rfl⟩

end Sema
