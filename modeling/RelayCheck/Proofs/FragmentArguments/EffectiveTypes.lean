import RelayCheck.Proofs.FragmentArguments.Positions

/-!
# Effective types at positions

The check of a position looks at the layers of two types and at two defaults. What it decides can be
said in one step: the type that the variable has at the position, with null excluded by a default,
is below the expected one. So a better variable or a wider position never turns an accepted use into
a refused one.

The module introduces:

- `TypeRef.IsBelow`: the order of input types, by its rules;
- `Schema.isSubtype_iff_isBelow`: on input types, subtyping is this order.

The main result is `allowedUsage_iff_isBelow`.
-/

namespace RelayCheck

/-! ## The order of input types -/

/-- Every value of the first type is one of the second, if both are made of names of input types:
names are below themselves only, lists go with their items, and excluding null gives a type below
the one that allows it. -/
inductive TypeRef.IsBelow : TypeRef String → TypeRef String → Prop
  | named (name : String) : IsBelow (.named name) (.named name)
  | list {sub super : TypeRef String} (hitem : IsBelow sub super) : IsBelow (.list sub) (.list super)
  | nonNull {sub super : TypeRef String} (hinner : IsBelow sub super) :
      IsBelow (.nonNull sub) (.nonNull super)
  | nullable {sub super : TypeRef String} (hsuper : super.isNonNull = false)
      (hinner : IsBelow sub super) : IsBelow (.nonNull sub) super

namespace Schema

variable {schema : Schema}

/-- A type that is below another in the order is a subtype of it, whatever the names stand for. -/
theorem isSubtype_of_isBelow {sub super : TypeRef String} (h : sub.IsBelow super) :
    schema.isSubtype sub super = true := by
  induction h with
  | named name => exact isSubtype_refl _
  | list hitem ih => exact ih
  | nonNull hinner ih => exact ih
  | nullable hsuper hinner ih =>
    rw [isSubtype_nonNull_left hsuper]
    exact ih

/-- Below an input type, subtyping is the order. -/
theorem isSubtype_iff_isBelow {sub super : TypeRef String}
    (hsuper : schema.baseIs NamedType.isInput super = true) :
    schema.isSubtype sub super = true ↔ sub.IsBelow super := by
  refine ⟨fun h => ?_, isSubtype_of_isBelow⟩
  fun_induction Schema.isSubtype schema sub super with
  | case1 sub super ih => exact .nonNull (ih hsuper h)
  | case2 sub super hnullable ih =>
    refine .nullable ?_ (ih hsuper h)
    cases super with
    | nonNull inner => exact absurd rfl (hnullable inner)
    | named name | list item => rfl
  | case4 sub super ih => exact .list (ih hsuper h)
  | case5 sub super =>
    -- an input type is not abstract, so that only the name itself is left
    rw [includesName_eq_false sub hsuper, Bool.or_false, beq_iff_eq] at h
    rw [h]
    exact .named super
  | case3 | case6 | case7 => cases h

/-- What is below an input type is an input type. -/
theorem isInput_of_isSubtype {sub super : TypeRef String}
    (hsuper : schema.baseIs NamedType.isInput super = true)
    (h : schema.isSubtype sub super = true) : schema.baseIs NamedType.isInput sub = true := by
  have hbase : sub.baseName = super.baseName := by
    rw [← TypeRef.baseName_bare sub, bare_eq_of_isSubtype hsuper h, TypeRef.baseName_bare]
  rwa [baseIs, hbase]

end Schema

/-! ## Accepted uses -/

section Accepted

variable {schema : Schema} {type sub : TypeRef String} {default better : Option Value}
  {positionHasDefault more : Bool}

/-- Defaults keep the innermost name of a type. -/
@[simp]
theorem baseName_effectiveType (type : TypeRef String) (default : Option Value)
    (positionHasDefault : Bool) :
    (effectiveType type default positionHasDefault).baseName = type.baseName := by
  rw [effectiveType]
  split
  · exact type.baseName_required
  · rfl

/-- An effective type is below the declared one. -/
theorem isSubtype_effectiveType_self :
    schema.isSubtype (effectiveType type default positionHasDefault) type = true := by
  cases hnonNull : type.isNonNull with
  | true => rw [effectiveType_of_isNonNull hnonNull, Schema.isSubtype_refl]
  | false =>
    rw [effectiveType]
    split
    · rw [Schema.isSubtype_of_required hnonNull, Schema.isSubtype_refl]
    · exact Schema.isSubtype_refl type

/-- A lower type, a default other than null and a default of the position lower the effective
type. -/
theorem isSubtype_effectiveType (hinput : schema.baseIs NamedType.isInput type = true)
    (hsub : schema.isSubtype sub type = true)
    (hbetter : better = default ∨ (better.any fun value => !value.isNull) = true)
    (hmore : positionHasDefault = true → more = true) :
    schema.isSubtype (effectiveType sub better more)
      (effectiveType type default positionHasDefault) = true := by
  by_cases hexcludes : (positionHasDefault || default.any fun value => !value.isNull) = true
  · -- null is excluded above, and what excludes it there does so below
    have hbelow : more = true ∨ (better.any fun value => !value.isNull) = true := by
      rcases hbetter with rfl | hnonNull
      · rw [Bool.or_eq_true] at hexcludes
        exact hexcludes.imp_left hmore
      · exact Or.inr hnonNull
    rw [effectiveType_of_default hbelow, effectiveType, if_pos hexcludes]
    exact Schema.isSubtype_required hsub
  · -- above is the declared type itself
    rw [effectiveType.eq_1 type, if_neg hexcludes]
    exact Schema.isSubtype_trans (Schema.isInput_of_isSubtype hinput hsub)
      isSubtype_effectiveType_self hsub

end Accepted

/-- A variable of an input type may stand where an input type is expected exactly if its effective
type is below the expected one. So a use that is accepted stays accepted with a subtype for the
variable, with a default other than null for the variable, with a default for the position, with a
wider expected type, and with all of these at once. -/
theorem allowedUsage_iff_isBelow {schema : Schema} {type expected : TypeRef String}
    (htype : schema.baseIs NamedType.isInput type = true)
    (hexpected : schema.baseIs NamedType.isInput expected = true) :
    (∀ default positionHasDefault,
      allowedUsage schema type default expected positionHasDefault = true ↔
        (effectiveType type default positionHasDefault).IsBelow expected) ∧
    ∀ sub super default better positionHasDefault more,
      schema.isSubtype sub type = true → schema.isSubtype expected super = true →
      better = default ∨ (better.any fun value => !value.isNull) = true →
      (positionHasDefault = true → more = true) →
      allowedUsage schema type default expected positionHasDefault = true →
        allowedUsage schema sub better super more = true := by
  constructor
  · intro default positionHasDefault
    rw [allowedUsage_eq, Schema.isSubtype_iff_isBelow hexpected]
  · intro sub super default better positionHasDefault more hsub hsuper hbetter hmore hallowed
    rw [allowedUsage_eq] at hallowed ⊢
    have heffective : schema.baseIs NamedType.isInput
        (effectiveType type default positionHasDefault) = true := by
      rwa [Schema.baseIs, baseName_effectiveType]
    -- along the chain: better variable, variable, position, wider position
    have hvariable := Schema.isSubtype_trans heffective
      (isSubtype_effectiveType htype hsub hbetter hmore) hallowed
    exact Schema.isSubtype_trans hexpected hvariable hsuper

/-- A variable of type `[Int]` may not stand where `[Int]!` is expected. With the default `[3]` it
may, so a variable of type `[Int!]` with this default may stand where `[Int]` is expected. -/
theorem allowedUsage_iff_isBelow_numbers :
    let int : TypeRef String := .named "Int"
    let default : Value := .list [.int "3" ⟨1, 20⟩] ⟨1, 19⟩
    let allowed := allowedUsage pictureSchema
    pictureSchema.baseIs NamedType.isInput (.list int) = true ∧
      pictureSchema.baseIs NamedType.isInput (.nonNull (.list int)) = true ∧
      ¬(TypeRef.list int).IsBelow (.nonNull (.list int)) ∧
      allowed (.list int) none (.nonNull (.list int)) false = false ∧
      allowed (.list int) (some default) (.nonNull (.list int)) false = true ∧
      allowed (.list (.nonNull int)) (some default) (.list int) true = true := by
  intro int default allowed
  have htype : pictureSchema.baseIs NamedType.isInput (.list int) = true := by decide
  have hexpected : pictureSchema.baseIs NamedType.isInput (.nonNull (.list int)) = true := by decide
  have hbelow : ¬(TypeRef.list int).IsBelow (.nonNull (.list int)) := by
    rintro ⟨⟩
  have hmain := allowedUsage_iff_isBelow htype hexpected
  have hallowed : allowed (.list int) (some default) (.nonNull (.list int)) false = true :=
    (hmain.1 _ _).mpr (.nonNull (.list (.named "Int")))
  refine ⟨htype, hexpected, hbelow, ?_, hallowed, ?_⟩
  · rw [← Bool.not_eq_true]
    exact fun h => hbelow ((hmain.1 none false).mp h)
  · exact hmain.2 _ _ _ _ _ _ rfl rfl (Or.inl rfl) (fun _ => rfl) hallowed

end RelayCheck
