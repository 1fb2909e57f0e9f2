/-!
# Sorting by binary insertion

A list is sorted by keeping the run it starts with, turned round if it descends, and putting each
of the other items into its place, which is found by halving. For an order relation this gives the
sorted list. A comparison that is not transitive has no sorted list; then the result depends on
which items are compared, which the definitions here fix.

This module introduces `leadingRun`, `insertionPoint` and `insertionSort`.
-/

namespace RelayCheck

variable {α : Type} (before : α → α → Bool)

/-- The items after `last` for as long as each stands to the one before it as `continues` says,
and the items that are left. -/
def runFrom (continues : (last next : α) → Bool) (last : α) : List α → List α × List α
  | [] => ([], [])
  | next :: rest =>
    if continues last next then
      let (run, left) := runFrom continues next rest
      (next :: run, left)
    else ([], next :: rest)

/-- The run that a list starts with, in ascending order, and the items that are left. A run
descends if its second item comes before its first. -/
def leadingRun : List α → List α × List α
  | [] => ([], [])
  | [first] => ([first], [])
  | first :: second :: rest =>
    if before second first then
      let (run, left) := runFrom (fun last next => before next last) second rest
      ((first :: second :: run).reverse, left)
    else
      let (run, left) := runFrom (fun last next => !before next last) second rest
      (first :: second :: run, left)

/-- The index between `low` and `high` at which an item goes into sorted items, after those that
it does not come before. -/
def insertionPoint (item : α) (items : List α) (low high : Nat) : Nat :=
  if _open : low < high then
    let middle := (low + high) / 2
    if items[middle]?.any (before item) then insertionPoint item items low middle
    else insertionPoint item items (middle + 1) high
  else low
termination_by high - low
decreasing_by
  · omega
  · omega

/-- An item put into sorted items. -/
def insertSorted (items : List α) (item : α) : List α :=
  let index := insertionPoint before item items 0 items.length
  items.take index ++ item :: items.drop index

/-- The items in ascending order. -/
def insertionSort (items : List α) : List α :=
  let (run, rest) := leadingRun before items
  rest.foldl (insertSorted before) run

end RelayCheck
