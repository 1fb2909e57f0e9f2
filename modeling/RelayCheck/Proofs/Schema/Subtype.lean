import RelayCheck.Schema.Basic
import Mathlib.Tactic.ByContra

/-!
# Subtyping of input types

Abstract types have other types below them, but no input type is abstract. Below an input type
there is therefore nothing but what lists and non-null layers make of the same names.

The module introduces `TypeRef.bare`, a type with null allowed in every layer.

The module shows:

- `isSubtype_refl` and `isSubtype_trans`: subtyping is a preorder, as far as the type in the middle
  is an input type;
- `isSubtype_antisymm`: it is an order, as far as the types are input types;
- `isSubtype_required`, `isSubtype_of_required`: how excluding null on either side changes it;
- `isSubtype_bare` and `bare_eq_of_isSubtype`: the types below an input type are among those that
  have its bare form, and the bare form is above all of them.
-/

namespace RelayCheck

/-- A type that allows null is required by one more layer. -/
theorem TypeRef.required_of_nullable {type : TypeRef String} (h : type.isNonNull = false) :
    type.required = .nonNull type := by
  cases type with
  | named name => rfl
  | list item => rfl
  | nonNull inner => cases h

/-- The type with null allowed in every layer: its lists around its name. -/
def TypeRef.bare : TypeRef String → TypeRef String
  | named name => named name
  | list item => list item.bare
  | nonNull inner => inner.bare

/-- A bare form allows null. -/
@[simp]
theorem TypeRef.isNonNull_bare (type : TypeRef String) : type.bare.isNonNull = false := by
  induction type with
  | named name => rfl
  | list item => rfl
  | nonNull inner ih => exact ih

/-- Allowing null keeps the innermost name. -/
@[simp]
theorem TypeRef.baseName_bare (type : TypeRef String) : type.bare.baseName = type.baseName := by
  induction type with
  | named name => rfl
  | list item ih => exact ih
  | nonNull inner ih => exact ih

/-- Excluding null keeps the bare form. -/
@[simp]
theorem TypeRef.bare_required (type : TypeRef String) : type.required.bare = type.bare := by
  cases type <;> rfl

namespace Schema

variable {schema : Schema}

/-! ## Outermost layers -/

/-- Where null is allowed, a type without null is judged by what it excludes null from. -/
theorem isSubtype_nonNull_left {super : TypeRef String} (hsuper : super.isNonNull = false)
    (sub : TypeRef String) :
    schema.isSubtype (.nonNull sub) super = schema.isSubtype sub super := by
  cases super with
  | named name => rfl
  | list item => rfl
  | nonNull inner => cases hsuper

/-- No type that allows null is below one that excludes it. -/
theorem isSubtype_nonNull_right {sub : TypeRef String} (hsub : sub.isNonNull = false)
    (super : TypeRef String) : schema.isSubtype sub (.nonNull super) = false := by
  cases sub with
  | named name => rfl
  | list item => rfl
  | nonNull inner => cases hsub

/-- What is below a type that excludes null excludes null as well. -/
theorem isNonNull_of_isSubtype {sub super : TypeRef String} (hsuper : super.isNonNull = true)
    (h : schema.isSubtype sub super = true) : sub.isNonNull = true := by
  cases super with
  | named name => cases hsuper
  | list item => cases hsuper
  | nonNull inner =>
    by_contra hsub
    rw [Bool.not_eq_true] at hsub
    rw [isSubtype_nonNull_right hsub] at h
    cases h

/-- Where null is allowed, excluding it below makes no difference. -/
theorem isSubtype_of_required {sub super : TypeRef String} (hsuper : super.isNonNull = false) :
    schema.isSubtype sub.required super = schema.isSubtype sub super := by
  cases sub with
  | named name => exact isSubtype_nonNull_left hsuper _
  | list item => exact isSubtype_nonNull_left hsuper _
  | nonNull inner => rfl

/-- Excluding null on both sides keeps the order. -/
theorem isSubtype_required {sub super : TypeRef String}
    (h : schema.isSubtype sub super = true) :
    schema.isSubtype sub.required super.required = true := by
  by_cases hsuper : super.isNonNull = true
  · rw [(TypeRef.required_eq_self_iff super).mpr hsuper,
      (TypeRef.required_eq_self_iff sub).mpr (isNonNull_of_isSubtype hsuper h)]
    exact h
  · rw [Bool.not_eq_true] at hsuper
    rw [TypeRef.required_of_nullable hsuper]
    by_cases hsub : sub.isNonNull = true
    · -- the layer that `sub` has is the one that `super` gets
      cases sub with
      | named name => cases hsub
      | list item => cases hsub
      | nonNull inner =>
        rw [isSubtype_nonNull_left hsuper] at h
        exact h
    · rw [Bool.not_eq_true] at hsub
      rw [TypeRef.required_of_nullable hsub]
      exact h

/-! ## The order -/

/-- Every type is below itself. -/
@[simp]
theorem isSubtype_refl (type : TypeRef String) : schema.isSubtype type type = true := by
  induction type with
  | named name => simp [isSubtype]
  | list item ih => exact ih
  | nonNull inner ih => exact ih

/-- An input type is not abstract, so it includes no other type. -/
theorem includesName_eq_false {super : String} (sub : String)
    (hsuper : schema.baseIs NamedType.isInput (.named super) = true) :
    schema.includesName super sub = false := by
  obtain ⟨type, htype, hinput⟩ := (Option.any_eq_true _ _).mp hsuper
  have hfound : schema.type? super = some type := htype
  rw [includesName, hfound]
  cases schema.type? sub with
  | none => rfl
  | some other =>
    unfold NamedType.isInput at hinput
    simp only [NamedType.includes]
    split at hinput <;> simp_all

/-- Subtyping is transitive through an input type. -/
theorem isSubtype_trans {sub mid super : TypeRef String}
    (hmid : schema.baseIs NamedType.isInput mid = true)
    (h₁ : schema.isSubtype sub mid = true) (h₂ : schema.isSubtype mid super = true) :
    schema.isSubtype sub super = true := by
  fun_induction Schema.isSubtype schema sub mid generalizing super with
  | case1 sub mid ih =>
    -- both exclude null: the layer of `super`, if it has one, goes with them
    cases super with
    | nonNull inner => exact ih hmid h₁ h₂
    | named name => exact ih hmid h₁ h₂
    | list item => exact ih hmid h₁ h₂
  | case2 sub mid hnullable ih =>
    have hmid' : mid.isNonNull = false := by
      cases mid with
      | nonNull inner => exact absurd rfl (hnullable inner)
      | named name => rfl
      | list item => rfl
    cases super with
    | nonNull inner =>
      rw [isSubtype_nonNull_right hmid'] at h₂
      cases h₂
    | named name => exact ih hmid h₁ h₂
    | list item => exact ih hmid h₁ h₂
  | case3 => cases h₁
  | case4 sub mid ih =>
    cases super with
    | nonNull inner => cases h₂
    | named name => cases h₂
    | list item => exact ih hmid h₁ h₂
  | case5 sub mid =>
    -- names of input types are only below themselves
    rw [includesName_eq_false sub hmid, Bool.or_false, beq_iff_eq] at h₁
    rw [h₁]
    exact h₂
  | case6 => cases h₁
  | case7 => cases h₁

/-- Input types that are below each other are the same. -/
theorem isSubtype_antisymm {sub super : TypeRef String}
    (hsuper : schema.baseIs NamedType.isInput super = true)
    (h₁ : schema.isSubtype sub super = true) (h₂ : schema.isSubtype super sub = true) :
    sub = super := by
  fun_induction Schema.isSubtype schema sub super with
  | case1 sub super ih => rw [ih hsuper h₁ h₂]
  | case2 sub super hnullable ih =>
    -- only the lower type excludes null, so the other is not below it
    have hsuper' : super.isNonNull = false := by
      cases super with
      | nonNull inner => exact absurd rfl (hnullable inner)
      | named name => rfl
      | list item => rfl
    rw [isSubtype_nonNull_right hsuper'] at h₂
    cases h₂
  | case3 => cases h₁
  | case4 sub super ih => rw [ih hsuper h₁ h₂]
  | case5 sub super =>
    rw [includesName_eq_false sub hsuper, Bool.or_false, beq_iff_eq] at h₁
    rw [h₁]
  | case6 => cases h₁
  | case7 => cases h₁

/-! ## Bare forms -/

/-- Every type is below its bare form. -/
theorem isSubtype_bare (type : TypeRef String) : schema.isSubtype type type.bare = true := by
  induction type with
  | named name => exact isSubtype_refl _
  | list item ih => exact ih
  | nonNull inner ih =>
    rw [TypeRef.bare, isSubtype_nonNull_left inner.isNonNull_bare]
    exact ih

/-- What is below an input type has the same bare form. -/
theorem bare_eq_of_isSubtype {sub super : TypeRef String}
    (hsuper : schema.baseIs NamedType.isInput super = true)
    (h : schema.isSubtype sub super = true) : sub.bare = super.bare := by
  fun_induction Schema.isSubtype schema sub super with
  | case1 sub super ih => exact ih hsuper h
  | case2 sub super hnullable ih => exact ih hsuper h
  | case3 => cases h
  | case4 sub super ih => exact congrArg TypeRef.list (ih hsuper h)
  | case5 sub super =>
    rw [includesName_eq_false sub hsuper, Bool.or_false, beq_iff_eq] at h
    rw [h]
  | case6 => cases h
  | case7 => cases h

/-- Of two types that are no lists and have the same name, one is below the other. -/
theorem isSubtype_total_of_bare_named {type other : TypeRef String} {name : String}
    (htype : type.bare = .named name) (hother : other.bare = .named name) :
    schema.isSubtype type other = true ∨ schema.isSubtype other type = true := by
  induction type generalizing other with
  | named first =>
    -- a name alone is the bare form of both
    refine Or.inr ?_
    rw [show TypeRef.named first = other.bare from htype.trans hother.symm]
    exact isSubtype_bare other
  | list item => cases htype
  | nonNull inner ih =>
    cases other with
    | named second =>
      refine Or.inl ?_
      rw [show TypeRef.named second = inner.bare from hother.trans htype.symm]
      exact isSubtype_bare inner.nonNull
    | list item => cases hother
    | nonNull second => exact ih htype hother

end Schema

end RelayCheck
