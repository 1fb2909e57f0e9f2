import RelayCheck.FragmentArguments.Positions
import RelayCheck.Proofs.Schema.Subtype

/-!
# The unified declaration of a variable

A variable that several operations declare is checked once, against the declaration that they
agree on. This module shows that nothing is lost and nothing is added by that.

Where a variable stands, a default of its own or of the position excludes null from its type. The
check of a position compares the type that results, the effective one, with the expected type. The
effective type of the unified declaration is above those of all declarations, and below every
expected type that is above all of them.

The module introduces:

- `effectiveType`, with `allowedUsage_eq`, which reduces the check of a position to subtyping;
- `Declaration.Allows`, whether a declaration lets its variable stand at a position;
- `unifyDeclarations_eq_some`, the forms that a unified declaration has.

The main result is `unified_allows_iff_forall_allows`: the unified declaration allows exactly what
all declarations allow.
-/

namespace RelayCheck

/-! ## Effective types -/

/-- The type that a variable has at a position: null is excluded by a default of the position, and
by a default of the variable other than null. -/
def effectiveType (type : TypeRef String) (default : Option Value) (positionHasDefault : Bool) :
    TypeRef String :=
  if positionHasDefault || default.any fun value => !value.isNull then type.required else type

/-- With a default other than null, or at a position with a default, null is excluded. -/
theorem effectiveType_of_default {type : TypeRef String} {default : Option Value}
    {positionHasDefault : Bool}
    (h : positionHasDefault = true ∨ (default.any fun value => !value.isNull) = true) :
    effectiveType type default positionHasDefault = type.required := by
  rw [effectiveType, if_pos]
  rcases h with h | h <;> simp [h]

/-- Without such a default a variable has its declared type. -/
theorem effectiveType_of_noDefault {type : TypeRef String} {default : Option Value}
    (h : (default.any fun value => !value.isNull) = false) :
    effectiveType type default false = type := by
  simp [effectiveType, h]

/-- A type that excludes null is its own effective type. -/
theorem effectiveType_of_isNonNull {type : TypeRef String} (h : type.isNonNull = true)
    (default : Option Value) (positionHasDefault : Bool) :
    effectiveType type default positionHasDefault = type := by
  rw [effectiveType, (TypeRef.required_eq_self_iff type).mpr h, ite_self]

/-- A variable may stand at a position exactly if its effective type is below the expected one. -/
theorem allowedUsage_eq (schema : Schema) (type : TypeRef String) (default : Option Value)
    (expected : TypeRef String) (positionHasDefault : Bool) :
    allowedUsage schema type default expected positionHasDefault =
      schema.isSubtype (effectiveType type default positionHasDefault) expected := by
  have hnullable : expected.isNonNull = false →
      schema.isSubtype type expected =
        schema.isSubtype (effectiveType type default positionHasDefault) expected := by
    intro hexpected
    rw [effectiveType]
    split
    · exact (Schema.isSubtype_of_required hexpected).symm
    · rfl
  cases expected with
  | named name => exact hnullable rfl
  | list item => exact hnullable rfl
  | nonNull inner =>
    rw [allowedUsage]
    by_cases htype : type.isNonNull = true
    · rw [if_pos htype, effectiveType_of_isNonNull htype]
    · rw [if_neg htype, effectiveType, Bool.or_comm]
      rw [Bool.not_eq_true] at htype
      split
      · -- the layer that the default adds is the one that the position expects
        rw [TypeRef.required_of_nullable htype]
        rfl
      · exact (Schema.isSubtype_nonNull_right htype _).symm

/-! ## Declarations -/

namespace Declaration

/-- The declared type is known, and an input type of the schema. -/
def HasInputType (schema : Schema) (declaration : Declaration) : Prop :=
  ∃ type, declaration.type = some type ∧ schema.baseIs NamedType.isInput type = true

/-- The declaration lets its variable stand where a type is expected, with or without a default of
the position. -/
def Allows (schema : Schema) (declaration : Declaration) (expected : TypeRef String)
    (positionHasDefault : Bool) : Prop :=
  ∃ type, declaration.type = some type ∧
    allowedUsage schema type declaration.default expected positionHasDefault = true

/-- A type that is known is one of the schema's input types. -/
theorem hasInputType_ofVariable {schema : Schema} {declared : VariableDefinition}
    (h : (ofVariable schema declared).type.isSome = true) :
    (ofVariable schema declared).HasInputType schema := by
  obtain ⟨type, htype⟩ := Option.isSome_iff_exists.mp h
  refine ⟨type, htype, ?_⟩
  obtain ⟨hinput, rfl⟩ := Schema.inputType?_eq_some_iff.mp htype
  exact hinput

/-- Where the type of a declaration is known, it is the input type that is asked for. -/
theorem HasInputType.baseIs {schema : Schema} {declaration : Declaration} {type : TypeRef String}
    (h : declaration.HasInputType schema) (htype : declaration.type = some type) :
    schema.baseIs NamedType.isInput type = true := by
  obtain ⟨other, hother, hinput⟩ := h
  rw [htype, Option.some_inj] at hother
  rwa [hother]

/-- For a declaration of a known type, allowing is subtyping of the effective type. -/
theorem allows_iff {schema : Schema} {declaration : Declaration} {type : TypeRef String}
    (htype : declaration.type = some type) (expected : TypeRef String)
    (positionHasDefault : Bool) :
    declaration.Allows schema expected positionHasDefault ↔
      schema.isSubtype (effectiveType type declaration.default positionHasDefault) expected =
        true := by
  rw [← allowedUsage_eq]
  constructor
  · rintro ⟨other, hother, hallowed⟩
    rw [htype, Option.some_inj] at hother
    rw [hother]
    exact hallowed
  · exact fun hallowed => ⟨type, htype, hallowed⟩

end Declaration

/-! ## The widest declaration -/

/-- The type of the declaration is known and above the types of the given declarations, which are
known, too. -/
def Declaration.IsAbove (schema : Schema) (declaration : Declaration)
    (others : List Declaration) : Prop :=
  ∃ super, declaration.type = some super ∧
    ∀ other ∈ others, ∃ sub, other.type = some sub ∧ schema.isSubtype sub super = true

/-- The test that the search for the widest declaration makes. -/
theorem all_below_iff_isAbove {schema : Schema} {declarations : List Declaration}
    {declaration : Declaration} (hmem : declaration ∈ declarations) :
    (declarations.all fun other => match other.type, declaration.type with
      | some sub, some super => schema.isSubtype sub super
      | _, _ => false) = true ↔ declaration.IsAbove schema declarations := by
  rw [List.all_eq_true]
  constructor
  · intro hall
    cases hsuper : declaration.type with
    | none =>
      -- the declaration is one of those that are compared with it
      have hself := hall declaration hmem
      simp [hsuper] at hself
    | some super =>
      refine ⟨super, hsuper, fun other hother => ?_⟩
      have hbelow := hall other hother
      cases hsub : other.type with
      | none => simp [hsub] at hbelow
      | some sub => exact ⟨sub, rfl, by simpa [hsub, hsuper] using hbelow⟩
  · rintro ⟨super, hsuper, hbelow⟩ other hother
    obtain ⟨sub, hsub, h⟩ := hbelow other hother
    simpa [hsub, hsuper] using h

/-- The widest declaration is one of the given ones and above all of them. -/
theorem widest?_eq_some {schema : Schema} {declarations : List Declaration}
    {widest : Declaration} (h : widest? schema declarations = some widest) :
    widest ∈ declarations ∧ widest.IsAbove schema declarations := by
  rw [widest?] at h
  have hmem := List.mem_of_find?_eq_some h
  have hall := List.find?_some h
  exact ⟨hmem, (all_below_iff_isAbove hmem).mp hall⟩

/-- There is no widest declaration exactly if no declaration is above all. -/
theorem widest?_eq_none_iff {schema : Schema} {declarations : List Declaration} :
    widest? schema declarations = none ↔
      ∀ declaration ∈ declarations, ¬ declaration.IsAbove schema declarations := by
  rw [widest?, List.find?_eq_none]
  refine forall₂_congr fun declaration hmem => ?_
  rw [not_iff_not]
  exact all_below_iff_isAbove hmem

/-- Declarations do not unify exactly if all their types are known and none of them is above all
the others. -/
theorem unifyDeclarations_eq_none_iff {schema : Schema} {declarations : List Declaration}
    (hne : declarations ≠ []) :
    unifyDeclarations schema declarations = none ↔
      (∀ declaration ∈ declarations, declaration.type.isSome = true) ∧
        ∀ declaration ∈ declarations, ¬ declaration.IsAbove schema declarations := by
  cases declarations with
  | nil => exact absurd rfl hne
  | cons first rest =>
    rw [unifyDeclarations]
    split
    next hunknown =>
      -- a declaration of unknown type makes all of them unify, to one of unknown type
      obtain ⟨other, hother, hnone⟩ := List.any_eq_true.mp hunknown
      constructor
      · intro h
        cases h
      · rintro ⟨hknown, -⟩
        have hsome := hknown other hother
        rw [Option.isNone_iff_eq_none] at hnone
        simp [hnone] at hsome
    next hknown =>
      rw [Bool.not_eq_true, List.any_eq_false] at hknown
      rw [Option.map_eq_none_iff, widest?_eq_none_iff]
      refine (and_iff_right fun other hother => ?_).symm
      have hother := hknown other hother
      rwa [Bool.not_eq_true, Option.isNone_eq_false_iff] at hother

/-- What unifying declarations of known types amounts to, if they agree: the widest declaration,
with a default only where its type excludes null, and made non-null where it allows null but no
operation can leave the variable null. -/
theorem unifyDeclarations_eq_some {schema : Schema} {declarations : List Declaration}
    {unified : Declaration} (hknown : ∀ other ∈ declarations, other.HasInputType schema)
    (h : unifyDeclarations schema declarations = some unified) :
    ∃ widest ∈ declarations, ∃ top, widest.type = some top ∧
      (∀ other ∈ declarations, ∀ type, other.type = some type →
        schema.isSubtype type top = true) ∧
      (top.isNonNull = true ∧
          unified = { widest with
            default :=
              if declarations.all Declaration.hasNonNullDefault then widest.default else none } ∨
        top.isNonNull = false ∧ (∀ other ∈ declarations, other.isAlwaysProvided = true) ∧
          unified = { widest with
            written := widest.written.map TypeRef.nonNull
            type := some (.nonNull top)
            default := none } ∨
        top.isNonNull = false ∧ (∃ other ∈ declarations, other.isAlwaysProvided = false) ∧
          unified = { widest with default := none }) := by
  cases declarations with
  | nil => cases h
  | cons first rest =>
    have hall : ((first :: rest).any fun declaration => declaration.type.isNone) = false := by
      rw [List.any_eq_false]
      intro other hother
      obtain ⟨type, htype, -⟩ := hknown other hother
      simp [htype]
    rw [unifyDeclarations, if_neg (by rw [hall]; exact Bool.false_ne_true)] at h
    obtain ⟨widest, hwidest, hunified⟩ := Option.map_eq_some_iff.mp h
    obtain ⟨hmem, top, htop, hbelow⟩ := widest?_eq_some hwidest
    refine ⟨widest, hmem, top, htop, fun other hother type htype => ?_, ?_⟩
    · obtain ⟨sub, hsub, h⟩ := hbelow other hother
      rw [htype, Option.some_inj] at hsub
      rw [hsub]
      exact h
    -- the forms are the branches that are taken after the widest declaration was found
    simp only [htop, Option.any_some, Option.map_some] at hunified
    split at hunified
    next hnonNull => exact Or.inl ⟨hnonNull, by rw [← hunified, htop]⟩
    next hnullable =>
      rw [Bool.not_eq_true] at hnullable
      split at hunified
      next hprovided =>
        rw [List.all_eq_true] at hprovided
        exact Or.inr (Or.inl ⟨hnullable, hprovided, hunified.symm⟩)
      next hmissing =>
        rw [Bool.not_eq_true, List.all_eq_false] at hmissing
        obtain ⟨other, hother, hnot⟩ := hmissing
        exact Or.inr (Or.inr ⟨hnullable, ⟨other, hother, by simpa using hnot⟩, by
          rw [← hunified, htop]⟩)

/-! ## What the declarations allow together -/

/-- The effective type of a variable that cannot be null excludes null. -/
theorem effectiveType_of_isAlwaysProvided {declaration : Declaration} {type : TypeRef String}
    (htype : declaration.type = some type) (h : declaration.isAlwaysProvided = true)
    (positionHasDefault : Bool) :
    effectiveType type declaration.default positionHasDefault = type.required := by
  rw [Declaration.isAlwaysProvided, htype, Option.any_some, Bool.or_eq_true] at h
  rcases h with h | h
  · rw [effectiveType_of_isNonNull h, (TypeRef.required_eq_self_iff type).mpr h]
  · exact effectiveType_of_default (Or.inr h)

section Together

variable {schema : Schema} {declarations : List Declaration} {widest : Declaration}
  {top : TypeRef String}
  (hknown : ∀ other ∈ declarations, other.HasInputType schema)
  (hmem : widest ∈ declarations) (htop : widest.type = some top)
  (hbelow : ∀ other ∈ declarations, ∀ type, other.type = some type →
    schema.isSubtype type top = true)

include hknown hmem htop hbelow

/-- If null is excluded everywhere, the widest type without null stands for all declarations. -/
theorem isSubtype_required_iff_forall_allows {positionHasDefault : Bool}
    (hrequired : ∀ other ∈ declarations, ∀ type, other.type = some type →
      effectiveType type other.default positionHasDefault = type.required)
    (expected : TypeRef String) :
    schema.isSubtype top.required expected = true ↔
      ∀ other ∈ declarations, other.Allows schema expected positionHasDefault := by
  constructor
  · intro h other hother
    obtain ⟨type, htype, -⟩ := hknown other hother
    rw [Declaration.allows_iff htype, hrequired other hother type htype]
    -- the widest type without null lies between the effective type and the expected one
    refine Schema.isSubtype_trans ?_ (Schema.isSubtype_required (hbelow other hother type htype)) h
    rw [Schema.baseIs, TypeRef.baseName_required]
    exact (hknown widest hmem).baseIs htop
  · intro h
    have hwidest := (Declaration.allows_iff htop _ _).mp (h widest hmem)
    rwa [hrequired widest hmem top htop] at hwidest

/-- If null is allowed by the widest type and excluded neither by the position nor in all
declarations, the widest type stands for all declarations. -/
theorem isSubtype_iff_forall_allows (hnullable : top.isNonNull = false)
    (hmissing : ∃ other ∈ declarations, other.isAlwaysProvided = false)
    (expected : TypeRef String) :
    schema.isSubtype top expected = true ↔
      ∀ other ∈ declarations, other.Allows schema expected false := by
  have hinput := (hknown widest hmem).baseIs htop
  constructor
  · intro h other hother
    obtain ⟨type, htype, -⟩ := hknown other hother
    rw [Declaration.allows_iff htype]
    refine Schema.isSubtype_trans hinput ?_ h
    have htypeTop := hbelow other hother type htype
    rw [effectiveType]
    split
    · rw [Schema.isSubtype_of_required hnullable]
      exact htypeTop
    · exact htypeTop
  · intro h
    -- the declaration that may be null shows that null is allowed at the position
    obtain ⟨other, hother, hnot⟩ := hmissing
    obtain ⟨type, htype, -⟩ := hknown other hother
    rw [Declaration.isAlwaysProvided, htype, Option.any_some, Bool.or_eq_false_iff] at hnot
    have hexpected : expected.isNonNull = false := by
      by_contra hexpected
      rw [Bool.not_eq_false] at hexpected
      have hallowed := (Declaration.allows_iff htype _ _).mp (h other hother)
      rw [effectiveType_of_noDefault hnot.2] at hallowed
      have hnonNull := Schema.isNonNull_of_isSubtype hexpected hallowed
      rw [hnot.1] at hnonNull
      cases hnonNull
    have hwidest := (Declaration.allows_iff htop _ _).mp (h widest hmem)
    rw [effectiveType] at hwidest
    split at hwidest
    · rwa [Schema.isSubtype_of_required hexpected] at hwidest
    · exact hwidest

end Together

/-- The declaration that unifies declarations of known types has a known type itself. -/
theorem hasInputType_of_unifyDeclarations {schema : Schema} {declarations : List Declaration}
    {unified : Declaration} (hknown : ∀ other ∈ declarations, other.HasInputType schema)
    (h : unifyDeclarations schema declarations = some unified) : unified.HasInputType schema := by
  obtain ⟨widest, hmem, top, htop, -, hcases⟩ := unifyDeclarations_eq_some hknown h
  have hinput := (hknown widest hmem).baseIs htop
  rcases hcases with ⟨-, rfl⟩ | ⟨-, -, rfl⟩ | ⟨-, -, rfl⟩
  · exact ⟨top, htop, hinput⟩
  · exact ⟨.nonNull top, rfl, hinput⟩
  · exact ⟨top, htop, hinput⟩

/-- The declaration that unifies declarations of known types allows its variable to stand exactly
where all of them do. -/
theorem allows_iff_of_unifyDeclarations {schema : Schema} {declarations : List Declaration}
    {unified : Declaration} (hknown : ∀ other ∈ declarations, other.HasInputType schema)
    (h : unifyDeclarations schema declarations = some unified) (expected : TypeRef String)
    (positionHasDefault : Bool) :
    unified.Allows schema expected positionHasDefault ↔
      ∀ other ∈ declarations, other.Allows schema expected positionHasDefault := by
  obtain ⟨widest, hmem, top, htop, hbelow, hcases⟩ := unifyDeclarations_eq_some hknown h
  rcases hcases with ⟨htopNonNull, hunified⟩ | ⟨hnullable, hprovided, hunified⟩ |
    ⟨hnullable, hmissing, hunified⟩
  · have htype : unified.type = some top := by rw [hunified]; exact htop
    -- what is below a type that excludes null excludes null, whatever the defaults
    have hrequired : ∀ other ∈ declarations, ∀ type, other.type = some type →
        effectiveType type other.default positionHasDefault = type.required := by
      intro other hother type htype
      have hnonNull := Schema.isNonNull_of_isSubtype htopNonNull (hbelow other hother type htype)
      rw [effectiveType_of_isNonNull hnonNull, (TypeRef.required_eq_self_iff type).mpr hnonNull]
    rw [Declaration.allows_iff htype, effectiveType_of_isNonNull htopNonNull,
      ← isSubtype_required_iff_forall_allows hknown hmem htop hbelow hrequired,
      (TypeRef.required_eq_self_iff top).mpr htopNonNull]
  · -- the layer that unification adds is the one that every declaration has or gets by its default
    have htype : unified.type = some (.nonNull top) := by rw [hunified]
    have hrequired : ∀ other ∈ declarations, ∀ type, other.type = some type →
        effectiveType type other.default positionHasDefault = type.required :=
      fun other hother type htype =>
        effectiveType_of_isAlwaysProvided htype (hprovided other hother) positionHasDefault
    rw [Declaration.allows_iff htype, effectiveType_of_isNonNull rfl,
      ← isSubtype_required_iff_forall_allows hknown hmem htop hbelow hrequired,
      TypeRef.required_of_nullable hnullable]
  · have htype : unified.type = some top := by rw [hunified]; exact htop
    have hdefault : unified.default = none := by rw [hunified]
    rw [Declaration.allows_iff htype, hdefault]
    cases positionHasDefault with
    | true =>
      have hrequired : ∀ other ∈ declarations, ∀ type, other.type = some type →
          effectiveType type other.default true = type.required :=
        fun _ _ _ _ => effectiveType_of_default (Or.inl rfl)
      rw [effectiveType_of_default (Or.inl rfl),
        isSubtype_required_iff_forall_allows hknown hmem htop hbelow hrequired]
    | false =>
      rw [effectiveType_of_noDefault rfl,
        isSubtype_iff_forall_allows hknown hmem htop hbelow hnullable hmissing]

/-- Unification is exact for the check of positions: if the variable definitions of operations,
all of known types, have a unified declaration, its type is known, and it allows the variable to
stand exactly where every one of them does. -/
theorem unified_allows_iff_forall_allows {schema : Schema} {definitions : List VariableDefinition}
    {unified : Declaration}
    (hknown : ∀ declared ∈ definitions, (Declaration.ofVariable schema declared).type.isSome = true)
    (h : unifyDeclarations schema (definitions.map (Declaration.ofVariable schema)) =
      some unified) :
    unified.type.isSome = true ∧ ∀ expected positionHasDefault,
      (unified.Allows schema expected positionHasDefault ↔
        ∀ declared ∈ definitions,
          (Declaration.ofVariable schema declared).Allows schema expected positionHasDefault) := by
  have hinput : ∀ other ∈ definitions.map (Declaration.ofVariable schema),
      other.HasInputType schema := by
    intro other hother
    obtain ⟨declared, hdeclared, rfl⟩ := List.mem_map.mp hother
    exact Declaration.hasInputType_ofVariable (hknown declared hdeclared)
  obtain ⟨type, htype, -⟩ := hasInputType_of_unifyDeclarations hinput h
  refine ⟨by rw [htype, Option.isSome_some], ?_⟩
  intro expected positionHasDefault
  rw [allows_iff_of_unifyDeclarations hinput h, List.forall_mem_map]

/-- A schema with identifiers only. -/
def identifierSchema : Schema where
  types := [⟨"ID", .scalar⟩]
  directives := []
  query := none
  mutation := none
  subscription := none

/-- The declaration of the variable `$id` with the given type and default. -/
def identifierVariable (type : TypeRef Name) (default : Option Value) : VariableDefinition where
  name := ⟨"id", ⟨1, 10⟩⟩
  variablePos := ⟨1, 9⟩
  type
  typePos := ⟨1, 14⟩
  default
  directives := []
  pos := ⟨1, 9⟩

/-- `$id: ID!` and `$id: ID = "1"` have a unified declaration, which is `ID!`, and it allows
the variable to stand where null is excluded as both of them do. -/
theorem unified_allows_iff_forall_allows_identifier :
    let definitions := [
      identifierVariable (.nonNull (.named ⟨"ID", ⟨1, 14⟩⟩)) none,
      identifierVariable (.named ⟨"ID", ⟨1, 14⟩⟩) (some (.string "1" false ⟨1, 19⟩))]
    ∃ unified,
      unifyDeclarations identifierSchema
          (definitions.map (Declaration.ofVariable identifierSchema)) = some unified ∧
        unified.type = some (.nonNull (.named "ID")) ∧
        (∀ declared ∈ definitions,
          (Declaration.ofVariable identifierSchema declared).type.isSome = true) ∧
        (unified.Allows identifierSchema (.nonNull (.named "ID")) false ↔
          ∀ declared ∈ definitions, (Declaration.ofVariable identifierSchema declared).Allows
            identifierSchema (.nonNull (.named "ID")) false) := by
  intro definitions
  have hknown : ∀ declared ∈ definitions,
      (Declaration.ofVariable identifierSchema declared).type.isSome = true := by decide
  have h : ∃ unified, unifyDeclarations identifierSchema
        (definitions.map (Declaration.ofVariable identifierSchema)) = some unified ∧
      unified.type = some (.nonNull (.named "ID")) := ⟨_, rfl, rfl⟩
  obtain ⟨unified, h, htype⟩ := h
  exact ⟨unified, h, htype, hknown, (unified_allows_iff_forall_allows hknown h).2 _ _⟩

end RelayCheck
