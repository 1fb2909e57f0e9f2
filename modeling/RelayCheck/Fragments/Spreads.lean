import RelayCheck.Language.Document

/-!
# Spreads and the fragments they reach

A spread uses a fragment by name. The spreads of a selection set are found set by set: first
those written directly in the set, then those in the nested sets, the last nested set first. From
the spreads of an operation all fragments that it uses, directly or through others, are found
breadth first.

This module introduces:

- `spreadsOf`, the spreads in a selection set at any depth;
- `Document.unvisited`, the number of fragments that are still to be visited, which bounds every
  walk along spreads;
- `Document.reach`, the fragments reached from given names, each once.
-/

namespace RelayCheck

/-- The spread that a selection is, if it is one. -/
def Selection.spread? : Selection → Option Spread
  | .spread s => some s
  | .field .. | .inlineFragment .. => none

/-- The spreads written directly in a selection set, in order. -/
def directSpreads (selections : List Selection) : List Spread :=
  selections.filterMap Selection.spread?

mutual

/-- The spreads in the selection set of a selection, at any depth. -/
def Selection.innerSpreads : Selection → List Spread
  | .field _ selections => directSpreads selections ++ innerSpreadsOf selections
  | .inlineFragment _ selections => directSpreads selections ++ innerSpreadsOf selections
  | .spread _ => []

/-- The spreads in the nested sets of a selection set, the last nested set first. -/
def innerSpreadsOf : List Selection → List Spread
  | [] => []
  | selection :: rest => innerSpreadsOf rest ++ selection.innerSpreads

end

/-- The spreads in a selection set, at any depth. -/
def spreadsOf (selections : List Selection) : List Spread :=
  directSpreads selections ++ innerSpreadsOf selections

/-- The names of the fragments that a selection set uses, in the order of its spreads. -/
def spreadNames (selections : List Selection) : List String :=
  (spreadsOf selections).map fun spread => spread.name.text

namespace Document

variable (document : Document)

/-- The number of fragments whose names are not among the visited ones. -/
def unvisited (visited : List String) : Nat :=
  (document.fragments.filter fun fragment => !visited.contains fragment.name.text).length

/-- A stricter test keeps no more items. -/
theorem length_filter_le_of_imp {α : Type} {p q : α → Bool} (imp : ∀ a, q a = true → p a = true)
    (items : List α) : (items.filter q).length ≤ (items.filter p).length := by
  induction items with
  | nil => simp
  | cons head tail ih =>
    by_cases hq : q head = true
    · simpa [List.filter_cons, hq, imp head hq] using ih
    · by_cases hp : p head = true
      · simpa [List.filter_cons, hq, hp] using Nat.le_succ_of_le ih
      · simpa [List.filter_cons, hq, hp] using ih

/-- A stricter test that refuses an item which the other accepts keeps fewer items. -/
theorem length_filter_lt_of_imp {α : Type} {p q : α → Bool} (imp : ∀ a, q a = true → p a = true)
    {item : α} {items : List α} (member : item ∈ items) (kept : p item = true)
    (refused : q item = false) : (items.filter q).length < (items.filter p).length := by
  induction items with
  | nil => simp at member
  | cons head tail ih =>
    rcases List.mem_cons.mp member with rfl | member
    · simpa [List.filter_cons, kept, refused] using
        Nat.lt_succ_of_le (length_filter_le_of_imp imp tail)
    · by_cases hq : q head = true
      · simpa [List.filter_cons, hq, imp head hq] using ih member
      · by_cases hp : p head = true
        · simpa [List.filter_cons, hq, hp] using Nat.lt_succ_of_lt (ih member)
        · simpa [List.filter_cons, hq, hp] using ih member

/-- Visiting a fragment that was not visited leaves fewer to visit. -/
theorem unvisited_cons_lt {document : Document} {visited : List String} {name : String}
    {fragment : Fragment} (found : document.fragment? name = some fragment)
    (new : visited.contains name = false) :
    document.unvisited (name :: visited) < document.unvisited visited := by
  obtain ⟨member, named⟩ := mem_fragments_of_fragment? found
  refine length_filter_lt_of_imp ?_ member ?_ ?_
  · intro other
    simp only [List.contains_cons, Bool.not_or, Bool.and_eq_true]
    exact And.right
  · simp [named] at new ⊢
    exact new
  · simp [named]

/-- The fragments reached from the names in the queue without visiting any fragment twice;
names that the document does not define are passed over. -/
def reachFrom (visited : List String) : List String → List Fragment
  | [] => []
  | name :: queue =>
    if _new : visited.contains name then reachFrom visited queue
    else match _found : document.fragment? name with
      | none => reachFrom visited queue
      | some fragment =>
        fragment :: reachFrom (name :: visited) (queue ++ spreadNames fragment.selections)
termination_by queue => (document.unvisited visited, queue.length)
decreasing_by
  · exact Prod.Lex.right _ (by simp)
  · exact Prod.Lex.right _ (by simp)
  · exact Prod.Lex.left _ _ (unvisited_cons_lt _found (by simpa using _new))

/-- The fragments reached from the given names through spreads, each once, breadth first. -/
def reach (names : List String) : List Fragment :=
  document.reachFrom [] names

end Document

end RelayCheck
