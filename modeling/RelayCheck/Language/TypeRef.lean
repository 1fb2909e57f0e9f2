/-!
# Type references

How a type is named where it is used: a name, or a list of a type, or a type without null. The
same shape serves references in a document, whose names have positions, and the types of a
schema, whose names are plain text.

This module introduces `TypeRef`, its rendering, and the operations on its outermost layer:
`nullable`, `nonNull?` and `required`.
-/

namespace RelayCheck

/-- A reference to a type, with names of type `α`. -/
inductive TypeRef (α : Type)
  /-- The type of this name. -/
  | named (name : α)
  /-- The lists of a type. -/
  | list (item : TypeRef α)
  /-- A type without null. -/
  | nonNull (inner : TypeRef α)
deriving DecidableEq, Inhabited

namespace TypeRef

variable {α β : Type}

/-- The same reference with other names. -/
def map (f : α → β) : TypeRef α → TypeRef β
  | named name => named (f name)
  | list item => list (item.map f)
  | nonNull inner => nonNull (inner.map f)

/-- The name inside all lists and non-null layers. -/
def baseName : TypeRef α → α
  | named name => name
  | list item => item.baseName
  | nonNull inner => inner.baseName

/-- Whether the outermost layer excludes null. -/
def isNonNull : TypeRef α → Bool
  | nonNull _ => true
  | named _ | list _ => false

/-- The type with null allowed in the outermost layer. -/
def nullable : TypeRef α → TypeRef α
  | nonNull inner => inner
  | named name => named name
  | list item => list item

/-- The type with null excluded from the outermost layer. -/
def required : TypeRef α → TypeRef α
  | nonNull inner => nonNull inner
  | named name => nonNull (named name)
  | list item => nonNull (list item)

/-- How a type is written. -/
def render : TypeRef String → String
  | named name => name
  | list item => "[" ++ item.render ++ "]"
  | nonNull inner => inner.render ++ "!"

/-- The number of nested lists. -/
def listDepth : TypeRef α → Nat
  | named _ => 0
  | list item => item.listDepth + 1
  | nonNull inner => inner.listDepth

/-- No non-null layer is directly inside another. -/
def WellFormed : TypeRef α → Prop
  | named _ => True
  | list item => item.WellFormed
  | nonNull inner => inner.isNonNull = false ∧ inner.WellFormed

/-- Renaming keeps the outermost layer. -/
@[simp]
theorem isNonNull_map (f : α → β) (type : TypeRef α) : (type.map f).isNonNull = type.isNonNull := by
  cases type <;> rfl

/-- A type that excludes null is its own required form. -/
theorem required_eq_self_iff (type : TypeRef α) :
    type.required = type ↔ type.isNonNull = true := by
  cases type <;> simp [required, isNonNull]

/-- Excluding null keeps the innermost name. -/
@[simp]
theorem baseName_required (type : TypeRef α) : type.required.baseName = type.baseName := by
  cases type <;> rfl

/-- Excluding null keeps a reference well formed. -/
theorem WellFormed.required {type : TypeRef α} (h : type.WellFormed) :
    type.required.WellFormed := by
  cases type with
  | named name => exact ⟨rfl, trivial⟩
  | list item => exact ⟨rfl, h⟩
  | nonNull inner => exact h

/-- Renaming keeps a reference well formed. -/
@[simp]
theorem wellFormed_map (f : α → β) (type : TypeRef α) :
    (type.map f).WellFormed ↔ type.WellFormed := by
  induction type with
  | named name => rfl
  | list item ih => exact ih
  | nonNull inner ih => simp [map, WellFormed, ih]

end TypeRef

end RelayCheck
