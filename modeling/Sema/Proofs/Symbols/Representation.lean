import Sema.Proofs.Symbols.Store

/-!
# Bindings and entries

The scopes of a table hold slots of its store. After any operations each slot that is bound lies in
the store, the entry there belongs to the binding, and no other binding has the slot.
-/

namespace Sema

namespace Symbols

/-- The scope at the place, counted from the root, binds the name to the slot. -/
def Binds (symbols : Symbols) (place : Nat) (name : String) (slot : Nat) : Prop :=
  ∃ bindings, symbols.scopes.outward.reverse[place]? = some bindings ∧
    bindings.find? name = some slot

/-- Bindings and entries go together. -/
structure Represented (symbols : Symbols) : Prop where
  stored : ∀ {place name slot}, symbols.Binds place name slot →
    ∃ entry, symbols.entries[slot]? = some entry ∧ entry.name = name ∧ entry.scopeDepth = place
  alone : ∀ {place name slot otherPlace otherName}, symbols.Binds place name slot →
    symbols.Binds otherPlace otherName slot → place = otherPlace ∧ name = otherName

variable {symbols : Symbols} {log : TableLog} {place slot : Nat} {name : String}

/-- A binding leads to a variable of the scope that stands there. -/
theorem Tells.born (tells : symbols.Tells log) (binds : symbols.Binds place name slot) :
    ∃ scope, depthOf log scope = place ∧ (births log)[slot]? = some (scope, name) := by
  obtain ⟨bindings, standing, bound⟩ := binds
  have rooted := List.forall₂_reverse_iff.mpr tells.holds
  obtain ⟨within, here⟩ := List.getElem?_eq_some_iff.mp standing
  have numbered : place < (openScopes log).reverse.length := by rwa [rooted.length_eq]
  have content := List.Forall₂.get rooted numbered within name
  rw [List.get_eq_getElem, List.get_eq_getElem, here, bound] at content
  refine ⟨(openScopes log).reverse[place], ?_, ?_⟩
  · exact depthOf_open (List.getElem?_eq_getElem numbered)
  · exact (idxOf_eq_some_iff (births_nodup log)).mp content.symm

theorem Tells.represented (tells : symbols.Tells log) : symbols.Represented where
  stored binds := by
    obtain ⟨scope, depth, born⟩ := tells.born binds
    have within := (List.getElem?_eq_some_iff.mp born).1
    rw [← tells.size] at within
    have found := List.getElem?_eq_getElem within
    have records := tells.entries _ _ _ _ born found
    exact ⟨_, found, records.named, records.deep.trans depth⟩
  alone binds other := by
    obtain ⟨scope, depth, born⟩ := tells.born binds
    obtain ⟨otherScope, otherDepth, otherBorn⟩ := tells.born other
    rw [born, Option.some.injEq, Prod.mk.injEq] at otherBorn
    rw [← depth, ← otherDepth, otherBorn.1]
    exact ⟨rfl, otherBorn.2⟩

theorem Reachable.represented (reachable : symbols.Reachable) : symbols.Represented := by
  obtain ⟨log, same⟩ := reachable_iff_after.mp reachable
  rw [← same, after_eq_built]
  exact (built_tells (sinceClear log)).represented

theorem binds_of_visible (seen : symbols.scopes.visible? name = some slot) :
    ∃ place, symbols.Binds place name slot := by
  obtain ⟨bindings, member, bound⟩ := List.exists_of_findSome?_eq_some seen
  obtain ⟨place, standing⟩ := List.mem_iff_getElem?.mp (List.mem_reverse.mpr member)
  exact ⟨place, bindings, standing, bound⟩

theorem visible_of_local (here : symbols.scopes.local? name = some slot) :
    symbols.scopes.visible? name = some slot := by
  cases inside : symbols.scopes.inner with
  | nil => simpa [ScopeStack.visible?, ScopeStack.outward, ScopeStack.local?, inside] using here
  | cons bindings outer =>
      rw [local_of_inner inside] at here
      simp [ScopeStack.visible?, ScopeStack.outward, inside, here]

theorem Represented.visible (represented : symbols.Represented)
    (seen : symbols.scopes.visible? name = some slot) :
    ∃ entry, symbols.entries[slot]? = some entry ∧ entry.name = name := by
  obtain ⟨place, binds⟩ := binds_of_visible seen
  obtain ⟨entry, found, named, -⟩ := represented.stored binds
  exact ⟨entry, found, named⟩

/-- After any operations a slot that is bound to a name is one of the store, the entry there has the
name, and the place of the scope as its depth; no slot is bound twice. So whatever a search for a
name finds, in the innermost scope or in all of them, is an entry of that name. -/
theorem bindings_represented (log : List (ScopeOperation TableDeed)) :
    (∀ place name slot, (after log).Binds place name slot →
      ∃ entry, (after log).entries[slot]? = some entry ∧ entry.name = name ∧
        entry.scopeDepth = place) ∧
    (∀ place name slot otherPlace otherName, (after log).Binds place name slot →
      (after log).Binds otherPlace otherName slot → place = otherPlace ∧ name = otherName) ∧
    (∀ name slot, (after log).scopes.local? name = some slot ∨
        (after log).scopes.visible? name = some slot →
      ∃ entry, (after log).entries[slot]? = some entry ∧ entry.name = name) := by
  have represented := (reachable_after log).represented
  refine ⟨fun _ _ _ => represented.stored, fun _ _ _ _ _ => represented.alone, ?_⟩
  intro name slot found
  cases found with
  | inl here => exact represented.visible (visible_of_local here)
  | inr seen => exact represented.visible seen

end Symbols

end Sema
