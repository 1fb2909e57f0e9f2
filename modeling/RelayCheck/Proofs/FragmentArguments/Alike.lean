import RelayCheck.Proofs.FragmentArguments.Positions

/-!
# Declarations that checks do not tell apart

The declaration that operations agree on is one of theirs, and which one it is depends on the order
of the operations. The order also decides which default is kept. Neither matters: subtyping of input
types is antisymmetric, so that the widest type is the same in every order, and where a default is
kept null is excluded already.

The module introduces:

- `Declaration.Alike`: two declarations have the same type and are allowed at the same positions;
- `Declarations.Alike`, the same of all names.

The main results are `Context.unify_alike`, which compares what operations agree on for two lists
with the same members, and `map_snd_mismatch?_of_alike`, which says that positions do not tell the
results apart.
-/

namespace RelayCheck

/-- Two declarations have the same type and are allowed at the same positions. -/
structure Declaration.Alike (schema : Schema) (declaration other : Declaration) : Prop where
  type_eq : other.type = declaration.type
  allows_iff : ∀ expected positionHasDefault,
    other.Allows schema expected positionHasDefault ↔
      declaration.Allows schema expected positionHasDefault

/-- The same names are declared, and alike. -/
def Declarations.Alike (schema : Schema) (declarations others : Declarations) : Prop :=
  ∀ name, Option.Rel (Declaration.Alike schema) (declarations.get? name) (others.get? name)

variable {schema : Schema}

/-- A declaration is like itself. -/
theorem Declaration.Alike.refl (declaration : Declaration) : declaration.Alike schema declaration :=
  ⟨rfl, fun _ _ => Iff.rfl⟩

/-- Of two lists with the same members, one is empty exactly if the other is. -/
theorem eq_nil_congr {α : Type} {items others : List α}
    (hmembers : ∀ item, item ∈ others ↔ item ∈ items) : others = [] ↔ items = [] := by
  simp only [List.eq_nil_iff_forall_not_mem, hmembers]

/-! ## Unified declarations -/

section Unified

variable {declarations others : List Declaration} {unified other : Declaration}

/-- At a position without a default, a unified declaration is judged by its type alone. -/
theorem allows_false_iff_of_unifyDeclarations
    (hknown : ∀ declaration ∈ declarations, declaration.HasInputType schema)
    (h : unifyDeclarations schema declarations = some unified) {type : TypeRef String}
    (htype : unified.type = some type) (expected : TypeRef String) :
    unified.Allows schema expected false ↔ schema.isSubtype type expected = true := by
  rw [Declaration.allows_iff htype]
  obtain ⟨widest, -, top, htop, -, hcases⟩ := unifyDeclarations_eq_some hknown h
  -- without a default of the position, only a kept default could make a difference, and where one is
  -- kept the type excludes null already
  rcases hcases with ⟨hnonNull, rfl⟩ | ⟨-, -, rfl⟩ | ⟨-, -, rfl⟩
  · rw [htop, Option.some_inj] at htype
    rw [effectiveType_of_isNonNull (htype ▸ hnonNull)]
  · rw [effectiveType_of_noDefault rfl]
  · rw [effectiveType_of_noDefault rfl]

/-- Declarations of known types unify to the same type whatever their order. -/
theorem type_eq_of_unifyDeclarations
    (hknown : ∀ declaration ∈ declarations, declaration.HasInputType schema)
    (hmembers : ∀ declaration, declaration ∈ others ↔ declaration ∈ declarations)
    (h : unifyDeclarations schema declarations = some unified)
    (hother : unifyDeclarations schema others = some other) : other.type = unified.type := by
  have hknown' : ∀ declaration ∈ others, declaration.HasInputType schema :=
    fun declaration hmem => hknown declaration ((hmembers declaration).mp hmem)
  obtain ⟨type, htype, hinput⟩ := hasInputType_of_unifyDeclarations hknown h
  obtain ⟨otherType, hotherType, hotherInput⟩ := hasInputType_of_unifyDeclarations hknown' hother
  have hallows (expected : TypeRef String) :
      schema.isSubtype otherType expected = true ↔ schema.isSubtype type expected = true := by
    rw [← allows_false_iff_of_unifyDeclarations hknown' hother hotherType,
      ← allows_false_iff_of_unifyDeclarations hknown h htype,
      allows_iff_of_unifyDeclarations hknown' hother, allows_iff_of_unifyDeclarations hknown h]
    simp only [hmembers]
  -- each type is allowed where it stands itself, and so the other one is
  have hbelow := (hallows type).mpr (Schema.isSubtype_refl type)
  have habove := (hallows otherType).mp (Schema.isSubtype_refl otherType)
  rw [htype, hotherType, Schema.isSubtype_antisymm hinput hbelow habove]

/-- Declarations unify alike whatever their order. -/
theorem alike_of_unifyDeclarations
    (hvariables : ∀ declaration ∈ declarations, declaration.type.isSome = true →
      declaration.HasInputType schema)
    (hmembers : ∀ declaration, declaration ∈ others ↔ declaration ∈ declarations)
    (h : unifyDeclarations schema declarations = some unified)
    (hother : unifyDeclarations schema others = some other) : unified.Alike schema other := by
  by_cases hknown : ∀ declaration ∈ declarations, declaration.type.isSome = true
  · have hinput : ∀ declaration ∈ declarations, declaration.HasInputType schema :=
      fun declaration hmem => hvariables declaration hmem (hknown declaration hmem)
    have hinput' : ∀ declaration ∈ others, declaration.HasInputType schema :=
      fun declaration hmem => hinput declaration ((hmembers declaration).mp hmem)
    refine ⟨type_eq_of_unifyDeclarations hinput hmembers h hother, ?_⟩
    intro expected positionHasDefault
    rw [allows_iff_of_unifyDeclarations hinput' hother, allows_iff_of_unifyDeclarations hinput h]
    simp only [hmembers]
  · -- a declaration of unknown type makes the unified type unknown in any order
    have hunknown : unified.type = none := by
      refine Option.not_isSome_iff_eq_none.mp fun hsome => hknown ?_
      exact isSome_type_of_unifyDeclarations h hsome
    have hunknown' : other.type = none := by
      refine Option.not_isSome_iff_eq_none.mp fun hsome => hknown fun declaration hmem => ?_
      exact isSome_type_of_unifyDeclarations hother hsome declaration
        ((hmembers declaration).mpr hmem)
    refine ⟨by rw [hunknown, hunknown'], fun expected positionHasDefault => ?_⟩
    simp [Declaration.Allows, hunknown, hunknown']

/-- Whether declarations unify does not depend on their order. -/
theorem unifyDeclarations_eq_none_congr
    (hmembers : ∀ declaration, declaration ∈ others ↔ declaration ∈ declarations) :
    unifyDeclarations schema others = none ↔ unifyDeclarations schema declarations = none := by
  by_cases hnil : declarations = []
  · rw [hnil, (eq_nil_congr hmembers).mpr hnil]
  · rw [unifyDeclarations_eq_none_iff hnil,
      unifyDeclarations_eq_none_iff (mt (eq_nil_congr hmembers).mp hnil)]
    simp only [hmembers, Declaration.IsAbove]

end Unified

/-! ## Unified variables -/

section Operations

variable {operations others : List Operation}
  (hmembers : ∀ operation, operation ∈ others ↔ operation ∈ operations)

include hmembers

/-- The declarations that operations have of a name do not depend on their order. -/
theorem mem_declarationsOf_congr (name : String) (declaration : Declaration) :
    declaration ∈ declarationsOf schema others name ↔
      declaration ∈ declarationsOf schema operations name := by
  simp only [declarationsOf, List.mem_filterMap, hmembers]

/-- Whether all operations declare a name does not depend on their order. -/
theorem declaredByAll_congr (name : String) :
    DeclaredByAll schema others name ↔ DeclaredByAll schema operations name := by
  simp only [DeclaredByAll, hmembers]

namespace Context

variable {context : Context}

/-- What operations agree on, they agree on alike in another order. -/
theorem exists_alike_of_unify {name : String} {unified : Declaration}
    (h : (context.unify operations).declarations.get? name = some unified) :
    ∃ other, (context.unify others).declarations.get? name = some other ∧
      unified.Alike context.schema other := by
  obtain ⟨hall, hunify⟩ := get?_unify_eq_some_iff.mp h
  have hsame : ∀ declaration, declaration ∈ declarationsOf context.schema others name ↔
      declaration ∈ declarationsOf context.schema operations name :=
    mem_declarationsOf_congr hmembers name
  have hsome : unifyDeclarations context.schema (declarationsOf context.schema others name) ≠
      none := by
    intro hnone
    rw [unifyDeclarations_eq_none_congr hsame, hunify] at hnone
    cases hnone
  obtain ⟨other, hother⟩ := Option.ne_none_iff_exists'.mp hsome
  have hall' := (declaredByAll_congr hmembers name).mpr hall
  refine ⟨other, get?_unify_eq_some_iff.mpr ⟨hall', hother⟩, ?_⟩
  exact alike_of_unifyDeclarations (fun _ => hasInputType_of_mem_declarationsOf) hsame hunify
    hother

/-- Operations agree on the same variables, declared alike, whatever their order. -/
theorem unify_alike :
    Declarations.Alike context.schema (context.unify operations).declarations
      (context.unify others).declarations := by
  intro name
  cases hget : (context.unify operations).declarations.get? name with
  | some unified =>
    obtain ⟨other, hother, halike⟩ := exists_alike_of_unify hmembers hget
    rw [hother]
    exact .some halike
  | none =>
    cases hother : (context.unify others).declarations.get? name with
    | none => exact .none
    | some other =>
      have hmembers' := fun operation => (hmembers operation).symm
      obtain ⟨unified, hunified, -⟩ := exists_alike_of_unify hmembers' hother
      rw [hget] at hunified
      cases hunified

/-- Operations declare the same variables in conflict whatever their order. -/
theorem mem_unify_conflicting_congr (name : String) :
    name ∈ (context.unify others).conflicting ↔ name ∈ (context.unify operations).conflicting := by
  by_cases hnil : operations = []
  · rw [hnil, (eq_nil_congr hmembers).mpr hnil]
  · rw [mem_unify_conflicting_iff hnil,
      mem_unify_conflicting_iff (mt (eq_nil_congr hmembers).mp hnil), declaredByAll_congr hmembers,
      unifyDeclarations_eq_none_congr (mem_declarationsOf_congr hmembers name)]

end Context

end Operations

/-! ## Positions -/

/-- The check of positions does not tell declarations apart that are alike. -/
theorem Declaration.Alike.allowedUsage_eq {declaration other : Declaration}
    (h : declaration.Alike schema other) {type : TypeRef String}
    (htype : declaration.type = some type) (expected : TypeRef String)
    (positionHasDefault : Bool) :
    allowedUsage schema type other.default expected positionHasDefault =
      allowedUsage schema type declaration.default expected positionHasDefault := by
  have hallows := h.allows_iff expected positionHasDefault
  rw [Declaration.allows_iff htype, Declaration.allows_iff (h.type_eq.trans htype)] at hallows
  rw [RelayCheck.allowedUsage_eq, RelayCheck.allowedUsage_eq, Bool.eq_iff_iff, hallows]

/-- Uses that are governed alike show the same mismatch, if they show one. -/
theorem map_snd_mismatch?_of_alike {governed other : GovernedUsage}
    (husage : other.usage = governed.usage)
    (halike : Option.Rel (Declaration.Alike schema) governed.declaration? other.declaration?) :
    (other.mismatch? schema).map Prod.snd = (governed.mismatch? schema).map Prod.snd := by
  rw [GovernedUsage.mismatch?, GovernedUsage.mismatch?, husage]
  generalize governed.declaration? = first at halike
  generalize other.declaration? = second at halike
  cases halike with
  | none => rfl
  | @some first second halike =>
    cases governed.usage.type with
    | none => rfl
    | some expected =>
      dsimp only
      rw [halike.type_eq]
      cases htype : first.type with
      | none => rfl
      | some type =>
        dsimp only
        rw [halike.allowedUsage_eq htype]
        split <;> rfl

/-- A use is governed alike if the enclosing declarations are alike. -/
theorem govern_alike (own : Declarations) {enclosing others : Declarations}
    (halike : enclosing.Alike schema others) (usage : Usage) :
    Option.Rel (Declaration.Alike schema) (govern own enclosing usage).declaration?
        (govern own others usage).declaration? ∧
      (govern own others usage).origin? = (govern own enclosing usage).origin? := by
  have hname := halike usage.name
  rw [govern, govern]
  cases own.get? usage.name with
  | some declaration => exact ⟨.some (.refl declaration), rfl⟩
  | none =>
    generalize enclosing.get? usage.name = first at hname
    generalize others.get? usage.name = second at hname
    cases hname with
    | none => exact ⟨.none, rfl⟩
    | some hdeclaration => exact ⟨.some hdeclaration, rfl⟩

end RelayCheck
