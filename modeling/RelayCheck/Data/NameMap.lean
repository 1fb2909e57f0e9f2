/-!
# Maps from names, in order of first insertion

Declarations are looked up by name and listed in the order in which their names first appear. A
repeated name keeps the place of its first occurrence and the content of its last one.

This module introduces `NameMap` with `insert`, `get?` and `ofList`, and says how looking up and
listing behave after an insertion.
-/

namespace RelayCheck

/-- Contents by name, in order of first insertion. -/
structure NameMap (α : Type) where
  /-- The names with their contents, in order. -/
  entries : List (String × α)
deriving Inhabited

namespace NameMap

variable {α β : Type}

/-- The map without entries. -/
def empty : NameMap α := ⟨[]⟩

/-- Put `content` in the place of the entry called `name`, or at the end if there is none. -/
def put (name : String) (content : α) : List (String × α) → List (String × α)
  | [] => [(name, content)]
  | (other, old) :: rest =>
    if other = name then (other, content) :: rest else (other, old) :: put name content rest

/-- The content of the first entry called `name`. -/
def find (name : String) : List (String × α) → Option α
  | [] => none
  | (other, content) :: rest => if other = name then some content else find name rest

/-- Set the content of a name. -/
def insert (map : NameMap α) (name : String) (content : α) : NameMap α :=
  ⟨put name content map.entries⟩

/-- The content of a name, if it has one. -/
def get? (map : NameMap α) (name : String) : Option α :=
  find name map.entries

/-- The names, in order. -/
def names (map : NameMap α) : List String :=
  map.entries.map Prod.fst

/-- Whether the name has a content. -/
def contains (map : NameMap α) (name : String) : Bool :=
  (map.get? name).isSome

/-- The map of the given pairs, inserted one after the other. -/
def ofList (pairs : List (String × α)) : NameMap α :=
  pairs.foldl (fun map pair => map.insert pair.1 pair.2) empty

/-- A map has the content just inserted. -/
@[simp]
theorem get?_insert_self (map : NameMap α) (name : String) (content : α) :
    (map.insert name content).get? name = some content := by
  obtain ⟨entries⟩ := map
  simp only [insert, get?]
  induction entries with
  | nil => simp [put, find]
  | cons entry rest ih =>
    obtain ⟨other, old⟩ := entry
    by_cases h : other = name <;> simp [put, find, h, ih]

/-- Inserting under one name leaves the content of every other name as it was. -/
theorem get?_insert_of_ne (map : NameMap α) {name other : String} (content : α)
    (h : other ≠ name) : (map.insert name content).get? other = map.get? other := by
  obtain ⟨entries⟩ := map
  simp only [insert, get?]
  induction entries with
  | nil => simp [put, find, h.symm]
  | cons entry rest ih =>
    obtain ⟨first, old⟩ := entry
    by_cases hf : first = name
    · simp [put, find, hf, h.symm]
    · simp [put, find, hf, ih]

end NameMap

end RelayCheck
