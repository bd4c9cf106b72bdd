/-!
Finite maps in the order of first binding. Binding a key again replaces its value in place, so no
key occurs twice in a map that starts empty. `find?_bind` is what the rest of the library knows
about them.
-/

namespace Sema

structure Bindings (Key Value : Type) where
  entries : List (Key × Value)

namespace Bindings

variable {Key Value : Type} [DecidableEq Key]

def empty : Bindings Key Value := ⟨[]⟩

def size (bindings : Bindings Key Value) : Nat := bindings.entries.length

def keys (bindings : Bindings Key Value) : List Key := bindings.entries.map Prod.fst

/-- The value at the first occurrence of a key. -/
def findIn (key : Key) : List (Key × Value) → Option Value
  | [] => none
  | (bound, value) :: rest => if bound = key then some value else findIn key rest

/-- Replaces the value at the first occurrence of a key, or adds the pair at the end. -/
def bindIn (key : Key) (value : Value) : List (Key × Value) → List (Key × Value)
  | [] => [(key, value)]
  | (bound, old) :: rest =>
      if bound = key then (key, value) :: rest else (bound, old) :: bindIn key value rest

def find? (bindings : Bindings Key Value) (key : Key) : Option Value :=
  findIn key bindings.entries

def bind (bindings : Bindings Key Value) (key : Key) (value : Value) : Bindings Key Value :=
  ⟨bindIn key value bindings.entries⟩

/-- Binds pairs from left to right. -/
def ofList (pairs : List (Key × Value)) : Bindings Key Value :=
  pairs.foldl (fun bindings (key, value) => bindings.bind key value) empty

theorem findIn_bindIn (key sought : Key) (value : Value) (entries : List (Key × Value)) :
    findIn sought (bindIn key value entries) =
      if key = sought then some value else findIn sought entries := by
  induction entries with
  | nil => rfl
  | cons entry rest induction =>
      obtain ⟨bound, old⟩ := entry
      by_cases same : bound = key
      · subst same
        by_cases this : bound = sought <;> simp [bindIn, findIn, this]
      · by_cases this : bound = sought
        · subst this
          simp [bindIn, findIn, same, Ne.symm same]
        · simp [bindIn, findIn, same, this, induction]

@[simp] theorem find?_empty (key : Key) : (empty : Bindings Key Value).find? key = none := rfl

theorem find?_bind (bindings : Bindings Key Value) (key sought : Key) (value : Value) :
    (bindings.bind key value).find? sought =
      if key = sought then some value else bindings.find? sought :=
  findIn_bindIn key sought value bindings.entries

end Bindings

end Sema
