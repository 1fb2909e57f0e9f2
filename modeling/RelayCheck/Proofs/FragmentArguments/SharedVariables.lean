import RelayCheck.Proofs.Data.NameMap
import RelayCheck.Proofs.FragmentArguments.Unification

/-!
# The variables that operations share

Every name that all operations of a group declare is decided once: either its declarations unify,
and the name is declared for the group, or they do not, and the name is in conflict. Other names
are neither.

The main results are `get?_unify_eq_some_iff` and `mem_unify_conflicting_iff`, with
`unifyDeclarations_eq_none_iff`, which says when declarations of one variable do not unify.
-/

namespace RelayCheck

/-! ## Declared variables -/

/-- What an operation declares is a variable, by one of its variable definitions. -/
theorem Operation.exists_ofVariable {schema : Schema} {operation : Operation} {name : String}
    {declaration : Declaration}
    (h : (operation.declarations schema).get? name = some declaration) :
    ∃ declared ∈ operation.variableDefinitions,
      declaration = Declaration.ofVariable schema declared := by
  have hmem := NameMap.mem_of_get?_ofList h
  obtain ⟨declared, hdeclared, heq⟩ := List.mem_map.mp hmem
  rw [Prod.mk.injEq] at heq
  exact ⟨declared, hdeclared, heq.2.symm⟩

/-- A variable that an operation declares is no argument of a fragment. -/
theorem Operation.isArgument_eq_false {schema : Schema} {operation : Operation} {name : String}
    {declaration : Declaration}
    (h : (operation.declarations schema).get? name = some declaration) :
    declaration.isArgument = false := by
  obtain ⟨declared, -, rfl⟩ := Operation.exists_ofVariable h
  rfl

/-- If the type of a variable that an operation declares is known, it is an input type. -/
theorem Operation.hasInputType {schema : Schema} {operation : Operation} {name : String}
    {declaration : Declaration}
    (h : (operation.declarations schema).get? name = some declaration)
    (hknown : declaration.type.isSome = true) : declaration.HasInputType schema := by
  obtain ⟨declared, -, rfl⟩ := Operation.exists_ofVariable h
  exact Declaration.hasInputType_ofVariable hknown

/-! ## Adding names one after the other -/

namespace UnifiedVariables

variable {schema : Schema} {declarations : String → List Declaration}

/-- The declared names after adding some: the added ones whose declarations unify, and those
declared before. -/
theorem get?_foldl_add (names : List String) (unified : UnifiedVariables) (name : String) :
    (names.foldl (fun unified name => unified.add schema name (declarations name))
        unified).declarations.get? name =
      (if name ∈ names then unifyDeclarations schema (declarations name) else none).or
        (unified.declarations.get? name) := by
  induction names generalizing unified with
  | nil => rfl
  | cons first rest ih =>
    rw [List.foldl_cons, ih, add]
    by_cases hname : name = first
    · -- a name that comes again later is declared in the same way again
      subst hname
      cases hfirst : unifyDeclarations schema (declarations name) with
      | none => simp
      | some declaration => by_cases hrest : name ∈ rest <;> simp [hrest]
    · cases hfirst : unifyDeclarations schema (declarations first) with
      | none => simp [hname]
      | some declaration => simp [hname, NameMap.get?_insert]

/-- The names in conflict after adding some: the added ones whose declarations do not unify, and
those in conflict before. -/
theorem mem_conflicting_foldl_add (names : List String) (unified : UnifiedVariables)
    (name : String) :
    name ∈ (names.foldl (fun unified name => unified.add schema name (declarations name))
        unified).conflicting ↔
      name ∈ unified.conflicting ∨
        name ∈ names ∧ unifyDeclarations schema (declarations name) = none := by
  induction names generalizing unified with
  | nil => simp
  | cons first rest ih =>
    rw [List.foldl_cons, ih, add]
    by_cases hname : name = first
    · subst hname
      cases hfirst : unifyDeclarations schema (declarations name) with
      | none => simp
      | some declaration => simp
    · cases hfirst : unifyDeclarations schema (declarations first) with
      | none => simp [hname]
      | some declaration => simp [hname]

end UnifiedVariables

/-! ## Unified variables -/

/-- The declarations that operations have of one name. -/
def declarationsOf (schema : Schema) (operations : List Operation) (name : String) :
    List Declaration :=
  operations.filterMap fun operation => (operation.declarations schema).get? name

/-- Where the type that an operation declares is known, it is an input type. -/
theorem hasInputType_of_mem_declarationsOf {schema : Schema} {operations : List Operation}
    {name : String} {declaration : Declaration}
    (hmem : declaration ∈ declarationsOf schema operations name)
    (hknown : declaration.type.isSome = true) : declaration.HasInputType schema := by
  obtain ⟨operation, -, hget⟩ := List.mem_filterMap.mp hmem
  exact Operation.hasInputType hget hknown

/-- All operations declare a name. -/
def DeclaredByAll (schema : Schema) (operations : List Operation) (name : String) : Prop :=
  ∀ operation ∈ operations, (operation.declarations schema).contains name = true

/-- A name that all of some operations declare has declarations. -/
theorem DeclaredByAll.declarationsOf_ne_nil {schema : Schema} {operations : List Operation}
    {name : String} (hall : DeclaredByAll schema operations name) (hne : operations ≠ []) :
    declarationsOf schema operations name ≠ [] := by
  obtain ⟨operation, hoperation⟩ := List.exists_mem_of_ne_nil _ hne
  obtain ⟨declaration, hget⟩ := Option.isSome_iff_exists.mp (hall operation hoperation)
  exact List.ne_nil_of_mem (List.mem_filterMap.mpr ⟨operation, hoperation, hget⟩)

/-- The names that a first operation and all others declare, in the order of the first. -/
def sharedNames (schema : Schema) (first : Operation) (rest : List Operation) : List String :=
  (first.declarations schema).names.filter fun name =>
    (first :: rest).all fun other => (other.declarations schema).contains name

/-- The shared names are those that all operations declare. -/
theorem mem_sharedNames_iff {schema : Schema} {first : Operation} {rest : List Operation}
    {name : String} :
    name ∈ sharedNames schema first rest ↔ DeclaredByAll schema (first :: rest) name := by
  rw [sharedNames, List.mem_filter, NameMap.mem_names_iff, List.all_eq_true]
  exact and_iff_right_of_imp fun h => h first List.mem_cons_self

namespace Context

variable {context : Context} {operations : List Operation} {name : String}

/-- Unifying the variables of operations adds the names that all of them declare. -/
theorem unify_cons (first : Operation) (rest : List Operation) :
    context.unify (first :: rest) =
      (sharedNames context.schema first rest).foldl (fun unified name =>
        unified.add context.schema name (declarationsOf context.schema (first :: rest) name))
        .empty := by
  rw [unify, List.map_cons]
  simp only [← List.map_cons, List.filterMap_map, Function.comp_def, List.all_map]
  rfl

/-- A name is declared for a group of operations exactly if all of them declare it and their
declarations unify. -/
theorem get?_unify_eq_some_iff {declaration : Declaration} :
    (context.unify operations).declarations.get? name = some declaration ↔
      DeclaredByAll context.schema operations name ∧
        unifyDeclarations context.schema (declarationsOf context.schema operations name) =
          some declaration := by
  cases operations with
  | nil => simp [unify, UnifiedVariables.empty, declarationsOf, unifyDeclarations]
  | cons first rest =>
    rw [unify_cons, UnifiedVariables.get?_foldl_add, ← mem_sharedNames_iff]
    simp [UnifiedVariables.empty]

/-- A name is in conflict for a group of operations exactly if all of them declare it and their
declarations do not unify. -/
theorem mem_unify_conflicting_iff (hne : operations ≠ []) :
    name ∈ (context.unify operations).conflicting ↔
      DeclaredByAll context.schema operations name ∧
        unifyDeclarations context.schema (declarationsOf context.schema operations name) =
          none := by
  cases operations with
  | nil => exact absurd rfl hne
  | cons first rest =>
    rw [unify_cons, UnifiedVariables.mem_conflicting_foldl_add, ← mem_sharedNames_iff]
    simp [UnifiedVariables.empty]

/-- A name in conflict is not declared for the group. -/
theorem contains_unify_eq_false (h : name ∈ (context.unify operations).conflicting) :
    (context.unify operations).declarations.contains name = false := by
  have hne : operations ≠ [] := by
    rintro rfl
    cases h
  rw [mem_unify_conflicting_iff hne] at h
  rw [NameMap.contains, Option.isSome_eq_false_iff, Option.isNone_iff_eq_none,
    Option.eq_none_iff_forall_ne_some]
  intro declaration hdeclaration
  rw [get?_unify_eq_some_iff, h.2] at hdeclaration
  cases hdeclaration.2

end Context

end RelayCheck
