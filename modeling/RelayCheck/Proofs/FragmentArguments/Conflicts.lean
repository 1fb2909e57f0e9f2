import RelayCheck.Proofs.FragmentArguments.Unification

/-!
# Declarations in conflict

Declarations of one variable are in conflict if none of their types is above all the others. A type
that is above all of them is looked for among their own types only, so that one may be missed: both
`[ID!]` and `[ID]!` are below `[ID]`. This happens with lists alone, and only if the declarations
differ in nothing but where they exclude null. In every other conflict there is no such type, and no
position accepts the variable from all declarations.

The module introduces:

- `Schema.Bounds`: an input type is above the types of declarations;
- `HaveBareForm`: the types of declarations are the same apart from where they exclude null.

The main result is `conflict_iff_and_bounds_iff`.
-/

namespace RelayCheck

/-! ## Types above all declarations -/

/-- The type is an input type, and above the types of the given declarations, which are known. -/
structure Schema.Bounds (schema : Schema) (declarations : List Declaration)
    (upper : TypeRef String) : Prop where
  isInput : schema.baseIs NamedType.isInput upper = true
  above : ∀ declaration ∈ declarations,
    ∃ type, declaration.type = some type ∧ schema.isSubtype type upper = true

/-- The types of the declarations are known and have the given bare form. -/
def HaveBareForm (declarations : List Declaration) (bare : TypeRef String) : Prop :=
  ∀ declaration ∈ declarations, declaration.type.map TypeRef.bare = some bare

/-- Defaults keep the bare form of a type. -/
@[simp]
theorem bare_effectiveType (type : TypeRef String) (default : Option Value)
    (positionHasDefault : Bool) :
    (effectiveType type default positionHasDefault).bare = type.bare := by
  rw [effectiveType]
  split
  · exact type.bare_required
  · rfl

section Shape

variable {schema : Schema} {declarations : List Declaration}

/-- A type above all declarations gives them its bare form. -/
theorem Schema.Bounds.haveBareForm {upper : TypeRef String}
    (h : schema.Bounds declarations upper) : HaveBareForm declarations upper.bare := by
  intro declaration hmem
  obtain ⟨type, htype, hbelow⟩ := h.above declaration hmem
  rw [htype, Option.map_some, Schema.bare_eq_of_isSubtype h.isInput hbelow]

/-- A position that accepts a variable from all declarations gives them the bare form of its
type. -/
theorem haveBareForm_of_allows {expected : TypeRef String} {positionHasDefault : Bool}
    (hinput : schema.baseIs NamedType.isInput expected = true)
    (h : ∀ declaration ∈ declarations, declaration.Allows schema expected positionHasDefault) :
    HaveBareForm declarations expected.bare := by
  intro declaration hmem
  obtain ⟨type, htype, hallowed⟩ := h declaration hmem
  rw [allowedUsage_eq] at hallowed
  rw [htype, Option.map_some, ← Schema.bare_eq_of_isSubtype hinput hallowed, bare_effectiveType]

variable {bare : TypeRef String} (hbare : HaveBareForm declarations bare)

include hbare

/-- The type of each declaration has the common bare form. -/
theorem HaveBareForm.bare_eq {declaration : Declaration} {type : TypeRef String}
    (hmem : declaration ∈ declarations) (htype : declaration.type = some type) :
    type.bare = bare := by
  have hform := hbare declaration hmem
  rwa [htype, Option.map_some, Option.some_inj] at hform

/-- A common bare form is above all declarations. -/
theorem HaveBareForm.bounds (hne : declarations ≠ [])
    (hknown : ∀ declaration ∈ declarations, declaration.HasInputType schema) :
    schema.Bounds declarations bare := by
  constructor
  · obtain ⟨declaration, hmem⟩ := List.exists_mem_of_ne_nil _ hne
    obtain ⟨type, htype, hinput⟩ := hknown declaration hmem
    rwa [← hbare.bare_eq hmem htype, Schema.baseIs, TypeRef.baseName_bare]
  · intro declaration hmem
    obtain ⟨type, htype, hform⟩ := Option.map_eq_some_iff.mp (hbare declaration hmem)
    exact ⟨type, htype, hform ▸ Schema.isSubtype_bare type⟩

/-- A position of a common bare form accepts the variable from all declarations. -/
theorem HaveBareForm.allows :
    ∀ declaration ∈ declarations, declaration.Allows schema bare false := by
  intro declaration hmem
  obtain ⟨type, htype, hform⟩ := Option.map_eq_some_iff.mp (hbare declaration hmem)
  -- a default can only take null away, which the bare form does not see
  rw [Declaration.allows_iff htype, ← hform, ← bare_effectiveType type declaration.default false]
  exact Schema.isSubtype_bare _

end Shape

/-! ## Types that are no lists -/

/-- Of declarations whose types are no lists and have one name, one is above all the others. -/
theorem exists_isAbove_of_haveBareForm_named {schema : Schema} {declarations : List Declaration}
    {name : String} (hne : declarations ≠ [])
    (hknown : ∀ declaration ∈ declarations, declaration.HasInputType schema)
    (hbare : HaveBareForm declarations (.named name)) :
    ∃ declaration ∈ declarations, declaration.IsAbove schema declarations := by
  induction declarations with
  | nil => exact absurd rfl hne
  | cons first rest ih =>
    obtain ⟨hfirst, hrest⟩ := List.forall_mem_cons.mp hknown
    obtain ⟨-, hrestBare⟩ := List.forall_mem_cons.mp hbare
    obtain ⟨type, htype, -⟩ := hfirst
    by_cases hnil : rest = []
    · subst hnil
      refine ⟨first, List.mem_singleton_self _, type, htype, ?_⟩
      rw [List.forall_mem_singleton]
      exact ⟨type, htype, Schema.isSubtype_refl type⟩
    · obtain ⟨widest, hwidest, top, htop, habove⟩ := ih hnil hrest hrestBare
      have htypeForm := hbare.bare_eq List.mem_cons_self htype
      have htopForm := hbare.bare_eq (List.mem_cons_of_mem _ hwidest) htop
      -- the first declaration is compared with the one that is above the others
      rcases Schema.isSubtype_total_of_bare_named htypeForm htopForm with hbelow | hbelow
      · refine ⟨widest, List.mem_cons_of_mem _ hwidest, top, htop, ?_⟩
        exact List.forall_mem_cons.mpr ⟨⟨type, htype, hbelow⟩, habove⟩
      · refine ⟨first, List.mem_cons_self, type, htype, ?_⟩
        refine List.forall_mem_cons.mpr ⟨⟨type, htype, Schema.isSubtype_refl type⟩, ?_⟩
        intro other hother
        obtain ⟨sub, hsub, hsubTop⟩ := habove other hother
        have htopInput := (hrest widest hwidest).baseIs htop
        exact ⟨sub, hsub, Schema.isSubtype_trans htopInput hsubTop hbelow⟩

/-- Declarations in conflict that have one bare form are declarations of lists. -/
theorem exists_list_of_unifyDeclarations_eq_none {schema : Schema}
    {declarations : List Declaration} {bare : TypeRef String} (hne : declarations ≠ [])
    (hknown : ∀ declaration ∈ declarations, declaration.HasInputType schema)
    (hnone : unifyDeclarations schema declarations = none)
    (hbare : HaveBareForm declarations bare) : ∃ item, bare = .list item := by
  cases bare with
  | list item => exact ⟨item, rfl⟩
  | named name =>
    -- types of one name are ordered linearly, so that some declaration is above all the others
    obtain ⟨-, hnotAbove⟩ := (unifyDeclarations_eq_none_iff hne).mp hnone
    obtain ⟨widest, hmem, habove⟩ := exists_isAbove_of_haveBareForm_named hne hknown hbare
    exact absurd habove (hnotAbove widest hmem)
  | nonNull inner =>
    -- no type has a bare form that excludes null
    obtain ⟨declaration, hmem⟩ := List.exists_mem_of_ne_nil _ hne
    obtain ⟨type, -, hform⟩ := Option.map_eq_some_iff.mp (hbare declaration hmem)
    have hnullable := type.isNonNull_bare
    rw [hform] at hnullable
    cases hnullable

/-! ## Conflicts -/

/-- Definitions of a variable by operations, all of known types, are in conflict exactly if none of
their types is above all the others. If they are, some input type is above all of them exactly if
they are lists that differ only in where they exclude null, and exactly then some position accepts
the variable from all of them. -/
theorem conflict_iff_and_bounds_iff {schema : Schema} {definitions : List VariableDefinition}
    (hne : definitions ≠ [])
    (hknown : ∀ declared ∈ definitions,
      (Declaration.ofVariable schema declared).type.isSome = true) :
    let declarations := definitions.map (Declaration.ofVariable schema)
    (unifyDeclarations schema declarations = none ↔
      ∀ declaration ∈ declarations, ¬declaration.IsAbove schema declarations) ∧
    (unifyDeclarations schema declarations = none →
      ((∃ upper, schema.Bounds declarations upper) ↔
        ∃ item, HaveBareForm declarations (.list item)) ∧
      ((∃ expected positionHasDefault, schema.baseIs NamedType.isInput expected = true ∧
          ∀ declaration ∈ declarations,
            declaration.Allows schema expected positionHasDefault) ↔
        ∃ item, HaveBareForm declarations (.list item))) := by
  intro declarations
  have hne' : declarations ≠ [] := mt List.map_eq_nil_iff.mp hne
  have hknown' : ∀ declaration ∈ declarations, declaration.type.isSome = true :=
    List.forall_mem_map.mpr hknown
  have hinput : ∀ declaration ∈ declarations, declaration.HasInputType schema :=
    List.forall_mem_map.mpr fun declared hmem =>
      Declaration.hasInputType_ofVariable (hknown declared hmem)
  refine ⟨(unifyDeclarations_eq_none_iff hne').trans (and_iff_right hknown'), fun hnone => ?_⟩
  -- bounds and positions are used for the bare form that they give only, which is one of lists
  have hlist {bare : TypeRef String} (hbare : HaveBareForm declarations bare) :
      ∃ item, HaveBareForm declarations (.list item) := by
    obtain ⟨item, rfl⟩ := exists_list_of_unifyDeclarations_eq_none hne' hinput hnone hbare
    exact ⟨item, hbare⟩
  constructor
  · constructor
    · rintro ⟨upper, hbounds⟩
      exact hlist hbounds.haveBareForm
    · rintro ⟨item, hbare⟩
      exact ⟨_, hbare.bounds hne' hinput⟩
  · constructor
    · rintro ⟨expected, positionHasDefault, hexpected, hallows⟩
      exact hlist (haveBareForm_of_allows hexpected hallows)
    · rintro ⟨item, hbare⟩
      exact ⟨_, false, (hbare.bounds hne' hinput).isInput, hbare.allows⟩

/-- `$id: ID` and `$id: [ID]` are in conflict, no type is above both of them, and no position
accepts the variable from both. -/
theorem conflict_iff_and_bounds_iff_identifier :
    let id : TypeRef Name := .named ⟨"ID", ⟨1, 14⟩⟩
    let definitions := [identifierVariable id none, identifierVariable (.list id) none]
    let declarations := definitions.map (Declaration.ofVariable identifierSchema)
    definitions ≠ [] ∧
      (∀ declared ∈ definitions,
        (Declaration.ofVariable identifierSchema declared).type.isSome = true) ∧
      unifyDeclarations identifierSchema declarations = none ∧
      (¬∃ upper, identifierSchema.Bounds declarations upper) ∧
      ¬∃ expected positionHasDefault,
        identifierSchema.baseIs NamedType.isInput expected = true ∧
          ∀ declaration ∈ declarations,
            declaration.Allows identifierSchema expected positionHasDefault := by
  intro id definitions declarations
  have hne : definitions ≠ [] := List.cons_ne_nil _ _
  have hknown : ∀ declared ∈ definitions,
      (Declaration.ofVariable identifierSchema declared).type.isSome = true := by decide
  have hnone : unifyDeclarations identifierSchema declarations = none := rfl
  have hnotLists : ¬∃ item, HaveBareForm declarations (.list item) := by
    rintro ⟨item, hbare⟩
    have hform := hbare _ List.mem_cons_self
    cases hform
  obtain ⟨hbounds, hpositions⟩ := (conflict_iff_and_bounds_iff hne hknown).2 hnone
  exact ⟨hne, hknown, hnone, mt hbounds.mp hnotLists, mt hpositions.mp hnotLists⟩

/-- `$id: [ID!]` and `$id: [ID]!` are in conflict, although `[ID]` is above both of them and a
position of this type accepts the variable from both. -/
theorem exists_bounds_of_conflict_identifier :
    let id : TypeRef Name := .named ⟨"ID", ⟨1, 14⟩⟩
    let definitions := [identifierVariable (.list (.nonNull id)) none,
      identifierVariable (.nonNull (.list id)) none]
    let declarations := definitions.map (Declaration.ofVariable identifierSchema)
    (∀ declared ∈ definitions,
        (Declaration.ofVariable identifierSchema declared).type.isSome = true) ∧
      unifyDeclarations identifierSchema declarations = none ∧
      identifierSchema.Bounds declarations (.list (.named "ID")) ∧
      ∀ declaration ∈ declarations,
        declaration.Allows identifierSchema (.list (.named "ID")) false := by
  intro id definitions declarations
  have hknown : ∀ declared ∈ definitions,
      (Declaration.ofVariable identifierSchema declared).type.isSome = true := by decide
  have hinput : ∀ declaration ∈ declarations, declaration.HasInputType identifierSchema :=
    List.forall_mem_map.mpr fun declared hmem =>
      Declaration.hasInputType_ofVariable (hknown declared hmem)
  have hbare : HaveBareForm declarations (.list (.named "ID")) :=
    List.forall_mem_map.mpr
      (List.forall_mem_cons.mpr ⟨rfl, List.forall_mem_singleton.mpr rfl⟩)
  exact ⟨hknown, rfl, hbare.bounds (List.cons_ne_nil _ _) hinput, hbare.allows⟩

end RelayCheck
