import RelayCheck.Proofs.FragmentArguments.Conflicts
import RelayCheck.Proofs.FragmentArguments.Alike

/-!
# What operations agree on

The names that all operations of a group declare fall into two parts: those on whose declarations
the operations agree, and those in conflict. Where they agree and all types are known, the type is
the least one above theirs, without null if no operation can leave the variable null. This fixes
the type, and whether a default is kept, by the set of the operations alone. The type as it is
written is fixed in this way only if it is known: otherwise it is taken from the first operation.

The module introduces:

- `Schema.IsLeastBound`: the least type above the types of declarations;
- `Declaration.Reconciles`, a declaration with that type.

The main results are `unify_splits_names` and `unify_same_of_same_members`.
-/

namespace RelayCheck

/-! ## Least types -/

/-- The type is above the types of the given declarations, and below every other input type that
is. -/
structure Schema.IsLeastBound (schema : Schema) (declarations : List Declaration)
    (top : TypeRef String) : Prop extends schema.Bounds declarations top where
  least : ∀ upper, schema.Bounds declarations upper → schema.isSubtype top upper = true

namespace Schema

variable {schema : Schema} {declarations others : List Declaration} {top other : TypeRef String}

/-- There is one least type at most. -/
theorem IsLeastBound.unique (htop : schema.IsLeastBound declarations top)
    (hother : schema.IsLeastBound declarations other) : top = other :=
  isSubtype_antisymm hother.isInput (htop.least other hother.toBounds)
    (hother.least top htop.toBounds)

/-- What is above declarations is above some of them. -/
theorem Bounds.mono (hsubset : declarations ⊆ others) (h : schema.Bounds others top) :
    schema.Bounds declarations top :=
  ⟨h.isInput, fun declaration hmem => h.above declaration (hsubset hmem)⟩

/-- The least type above declarations does not depend on their order. -/
theorem IsLeastBound.congr (hsubset : declarations ⊆ others) (hsubset' : others ⊆ declarations)
    (h : schema.IsLeastBound others top) : schema.IsLeastBound declarations top :=
  ⟨h.toBounds.mono hsubset, fun upper hupper => h.least upper (hupper.mono hsubset')⟩

end Schema

/-! ## Reconciled declarations -/

/-- The declaration has the least type above those of the given ones, which is made non-null if it
allows null but none of the given declarations leaves the variable null. It is written as this type.
It has a default exactly if the least type excludes null and all given declarations have defaults
other than null, and the default is that of a given one with the least type. -/
structure Declaration.Reconciles (schema : Schema) (unified : Declaration)
    (declarations : List Declaration) (top : TypeRef String) : Prop where
  isLeastBound : schema.IsLeastBound declarations top
  type_eq : unified.type =
    if top.isNonNull = false ∧ ∀ declaration ∈ declarations, declaration.isAlwaysProvided = true
    then some (.nonNull top) else some top
  written_eq : unified.written = unified.type
  default_isSome_iff : unified.default.isSome = true ↔
    top.isNonNull = true ∧ ∀ declaration ∈ declarations, declaration.hasNonNullDefault = true
  exists_of_default : ∀ value, unified.default = some value →
    ∃ declaration ∈ declarations, declaration.type = some top ∧ declaration.default = some value

section Reconciled

variable {schema : Schema} {declarations others : List Declaration} {unified other : Declaration}

/-- A type of one of the declarations that is above all of them is the least one. -/
theorem isLeastBound_of_mem {widest : Declaration} {top : TypeRef String}
    (hknown : ∀ declaration ∈ declarations, declaration.HasInputType schema)
    (hmem : widest ∈ declarations) (htop : widest.type = some top)
    (hbelow : ∀ declaration ∈ declarations, ∀ type, declaration.type = some type →
      schema.isSubtype type top = true) : schema.IsLeastBound declarations top := by
  refine ⟨⟨(hknown widest hmem).baseIs htop, fun declaration hdeclaration => ?_⟩,
    fun upper hupper => ?_⟩
  · obtain ⟨type, htype, -⟩ := hknown declaration hdeclaration
    exact ⟨type, htype, hbelow declaration hdeclaration type htype⟩
  · obtain ⟨type, htype, hupper⟩ := hupper.above widest hmem
    rw [htop, Option.some_inj] at htype
    rwa [htype]

/-- Declarations of known types that unify are reconciled. -/
theorem exists_reconciles_of_unifyDeclarations
    (hknown : ∀ declaration ∈ declarations, declaration.HasInputType schema)
    (hwritten : ∀ declaration ∈ declarations, declaration.written = declaration.type)
    (h : unifyDeclarations schema declarations = some unified) :
    ∃ top, unified.Reconciles schema declarations top := by
  obtain ⟨widest, hmem, top, htop, hbelow, hcases⟩ := unifyDeclarations_eq_some hknown h
  have hleast := isLeastBound_of_mem hknown hmem htop hbelow
  refine ⟨top, ?_⟩
  rcases hcases with ⟨hnonNull, rfl⟩ | ⟨hnullable, hprovided, rfl⟩ | ⟨hnullable, hmissing, rfl⟩
  · -- the least type excludes null by itself
    refine ⟨hleast, ?_, hwritten widest hmem, ?_, ?_⟩
    · exact htop.trans (if_neg fun h => Bool.false_ne_true (h.1.symm.trans hnonNull)).symm
    · -- the default is kept if all declarations have one, the widest one included
      by_cases hall : declarations.all Declaration.hasNonNullDefault = true
      · have hsome : widest.default.isSome = true :=
          Option.isSome_of_any (List.all_eq_true.mp hall widest hmem)
        simp only [hall, if_true, hsome, hnonNull, true_and, true_iff]
        exact List.all_eq_true.mp hall
      · rw [if_neg hall, ← List.all_eq_true]
        simp [hall]
    · intro value hvalue
      dsimp only at hvalue
      split at hvalue
      · exact ⟨widest, hmem, htop, hvalue⟩
      · cases hvalue
  · -- every declaration excludes null, and so does the type made of the least one
    refine ⟨hleast, ?_, ?_, ?_, ?_⟩
    · rw [if_pos ⟨hnullable, hprovided⟩]
    · rw [hwritten widest hmem, htop, Option.map_some]
    · simp [hnullable]
    · intro value hvalue
      cases hvalue
  · -- some declaration leaves the variable null
    refine ⟨hleast, ?_, hwritten widest hmem, ?_, ?_⟩
    · obtain ⟨missing, hmissing, hnot⟩ := hmissing
      exact htop.trans (if_neg fun h =>
        Bool.false_ne_true (hnot.symm.trans (h.2 missing hmissing))).symm
    · simp [hnullable]
    · intro value hvalue
      cases hvalue

/-- A reconciled declaration has a type. -/
theorem Declaration.Reconciles.isSome_type {top : TypeRef String}
    (h : unified.Reconciles schema declarations top) : unified.type.isSome = true := by
  rw [h.type_eq]
  split <;> rfl

/-- Declarations one of which has an unknown type unify to the first one, without type and
default. -/
theorem unifyDeclarations_of_unknown
    (hunknown : ∃ declaration ∈ declarations, declaration.type = none) :
    ∃ first, declarations.head? = some first ∧
      unifyDeclarations schema declarations =
        some { first with type := none, default := none } := by
  obtain ⟨declaration, hmem, hnone⟩ := hunknown
  cases declarations with
  | nil => cases hmem
  | cons first rest =>
    refine ⟨first, rfl, ?_⟩
    rw [unifyDeclarations, if_pos]
    exact List.any_eq_true.mpr ⟨declaration, hmem, by rw [hnone]; rfl⟩

/-- Reconciled declarations have the same type, written in the same way, and the same is true of
having a default, if they reconcile the same declarations. -/
theorem Declaration.Reconciles.congr {top otherTop : TypeRef String}
    (hmembers : ∀ declaration, declaration ∈ others ↔ declaration ∈ declarations)
    (hunified : unified.Reconciles schema declarations top)
    (hother : other.Reconciles schema others otherTop) :
    other.type = unified.type ∧ other.written = unified.written ∧
      other.default.isSome = unified.default.isSome := by
  -- the least type depends on the members alone, and so does all that is read off from it
  obtain rfl := hunified.isLeastBound.unique (hother.isLeastBound.congr
    (fun declaration => (hmembers declaration).mpr) fun declaration => (hmembers declaration).mp)
  have htype : other.type = unified.type := by
    rw [hother.type_eq, hunified.type_eq]
    simp only [hmembers]
  refine ⟨htype, ?_, ?_⟩
  · rw [hother.written_eq, hunified.written_eq, htype]
  · rw [Bool.eq_iff_iff, hother.default_isSome_iff, hunified.default_isSome_iff]
    simp only [hmembers]

end Reconciled

/-! ## Names -/

namespace UnifiedVariables

variable {schema : Schema} {declarations : String → List Declaration}

/-- The names in conflict after adding some are listed in the order in which they are added. -/
theorem conflicting_foldl_add (names : List String) (unified : UnifiedVariables) :
    (names.foldl (fun unified name => unified.add schema name (declarations name))
        unified).conflicting =
      unified.conflicting ++
        names.filter fun name => !(unifyDeclarations schema (declarations name)).isSome := by
  induction names generalizing unified with
  | nil => exact (List.append_nil _).symm
  | cons first rest ih =>
    rw [List.foldl_cons, ih, add]
    cases hfirst : unifyDeclarations schema (declarations first) with
    | none => simp [hfirst]
    | some declaration => simp [hfirst]

/-- The declared names after adding new ones are listed in the order in which they are added. -/
theorem names_foldl_add {names : List String} {unified : UnifiedVariables} (hnodup : names.Nodup)
    (hnew : ∀ name ∈ names, unified.declarations.contains name = false) :
    (names.foldl (fun unified name => unified.add schema name (declarations name))
        unified).declarations.names =
      unified.declarations.names ++
        names.filter fun name => (unifyDeclarations schema (declarations name)).isSome := by
  induction names generalizing unified with
  | nil => exact (List.append_nil _).symm
  | cons first rest ih =>
    -- a name that came before would be declared again in its old place
    obtain ⟨hfirst, hrest⟩ := List.nodup_cons.mp hnodup
    obtain ⟨hfirstNew, hrestNew⟩ := List.forall_mem_cons.mp hnew
    rw [List.foldl_cons, add]
    cases hunify : unifyDeclarations schema (declarations first) with
    | none =>
      dsimp only
      rw [ih hrest]
      · simp [hunify]
      · exact hrestNew
    | some declaration =>
      dsimp only
      rw [ih hrest, NameMap.names_insert, hfirstNew]
      · simp [hunify]
      · -- the names after the first one are still new
        intro name hname
        have hne : name ≠ first := fun h => hfirst (h ▸ hname)
        rw [NameMap.contains, NameMap.get?_insert_of_ne _ _ hne]
        exact hrestNew name hname

end UnifiedVariables

/-- The names that a first operation and all others declare are listed once. -/
theorem nodup_sharedNames (schema : Schema) (first : Operation) (rest : List Operation) :
    (sharedNames schema first rest).Nodup :=
  (NameMap.nodup_names_ofList _).filter _

/-- If the type of a variable that an operation declares is known, it is the type as written. -/
theorem Operation.written_eq_type {schema : Schema} {operation : Operation} {name : String}
    {declaration : Declaration}
    (h : (operation.declarations schema).get? name = some declaration)
    (hknown : declaration.type.isSome = true) : declaration.written = declaration.type := by
  obtain ⟨declared, -, rfl⟩ := Operation.exists_ofVariable h
  obtain ⟨type, htype⟩ := Option.isSome_iff_exists.mp hknown
  obtain ⟨-, hsame⟩ := Schema.inputType?_eq_some_iff.mp htype
  rw [htype, ← hsame]
  rfl

namespace Context

variable {context : Context}

/-- The names that operations agree on are the shared ones whose declarations unify. -/
theorem names_unify_cons (first : Operation) (rest : List Operation) :
    (context.unify (first :: rest)).declarations.names =
      (sharedNames context.schema first rest).filter fun name =>
        (unifyDeclarations context.schema
          (declarationsOf context.schema (first :: rest) name)).isSome := by
  rw [unify_cons, UnifiedVariables.names_foldl_add (nodup_sharedNames _ _ _) fun _ _ => rfl]
  rfl

/-- The names in conflict are the shared ones whose declarations do not unify. -/
theorem conflicting_unify_cons (first : Operation) (rest : List Operation) :
    (context.unify (first :: rest)).conflicting =
      (sharedNames context.schema first rest).filter fun name =>
        !(unifyDeclarations context.schema
          (declarationsOf context.schema (first :: rest) name)).isSome := by
  rw [unify_cons, UnifiedVariables.conflicting_foldl_add]
  rfl

/-- Together, the names that operations agree on and those in conflict are the shared ones. -/
theorem names_append_conflicting_perm (first : Operation) (rest : List Operation) :
    ((context.unify (first :: rest)).declarations.names ++
      (context.unify (first :: rest)).conflicting).Perm
        (sharedNames context.schema first rest) := by
  rw [names_unify_cons, conflicting_unify_cons]
  exact List.filter_append_perm _ _

/-! ## Agreement -/

section Shared

variable {operations : List Operation} {name : String}

/-- The types of declarations are known, or one of them is not. -/
theorem known_or_unknown (declarations : List Declaration) :
    (∀ declaration ∈ declarations, declaration.type.isSome = true) ∨
      ∃ declaration ∈ declarations, declaration.type = none := by
  by_cases h : ∀ declaration ∈ declarations, declaration.type.isSome = true
  · exact Or.inl h
  · simp only [not_forall, Option.not_isSome_iff_eq_none, exists_prop] at h
    exact Or.inr h

/-- What operations agree on of a name whose types are known reconciles their declarations. -/
theorem exists_reconciles_of_get?_unify {unified : Declaration}
    (hget : (context.unify operations).declarations.get? name = some unified)
    (hknown : ∀ declaration ∈ declarationsOf context.schema operations name,
      declaration.type.isSome = true) :
    ∃ top, unified.Reconciles context.schema
      (declarationsOf context.schema operations name) top := by
  obtain ⟨-, hunify⟩ := get?_unify_eq_some_iff.mp hget
  refine exists_reconciles_of_unifyDeclarations
    (fun declaration hmem => hasInputType_of_mem_declarationsOf hmem (hknown declaration hmem))
    (fun declaration hmem => ?_) hunify
  obtain ⟨operation, -, hdeclared⟩ := List.mem_filterMap.mp hmem
  exact Operation.written_eq_type hdeclared (hknown declaration hmem)

/-- What operations agree on of a name with an unknown type is what the first of them declares,
without type and default. -/
theorem get?_unify_of_unknown (hall : DeclaredByAll context.schema operations name)
    (hunknown : ∃ declaration ∈ declarationsOf context.schema operations name,
      declaration.type = none) :
    ∃ first, (declarationsOf context.schema operations name).head? = some first ∧
      (context.unify operations).declarations.get? name =
        some { first with type := none, default := none } := by
  obtain ⟨first, hfirst, hunify⟩ := unifyDeclarations_of_unknown hunknown
  exact ⟨first, hfirst, get?_unify_eq_some_iff.mpr ⟨hall, hunify⟩⟩

end Shared

/-- The names that all of some operations declare are split, without repetition, into those that
they agree on, in the order of the first operation, and those in conflict. A name is in conflict
exactly if all its types are known and none of them is above all the others. A name with an unknown
type is declared without type and default, and any other name with the least type above those of
the operations. -/
theorem unify_splits_names (context : Context) (first : Operation) (rest : List Operation) :
    let operations := first :: rest
    let unified := context.unify operations
    (unified.declarations.names ++ unified.conflicting).Nodup ∧
    unified.declarations.names.Sublist (first.declarations context.schema).names ∧
    (∀ name, name ∈ unified.declarations.names ++ unified.conflicting ↔
      DeclaredByAll context.schema operations name) ∧
    ∀ name, DeclaredByAll context.schema operations name →
      let declared := declarationsOf context.schema operations name
      (name ∈ unified.conflicting ↔
        (∀ declaration ∈ declared, declaration.type.isSome = true) ∧
          ∀ declaration ∈ declared, ¬declaration.IsAbove context.schema declared) ∧
      ((∃ declaration ∈ declared, declaration.type = none) →
        ∃ declaration, unified.declarations.get? name = some declaration ∧
          declaration.type = none ∧ declaration.default = none) ∧
      ((∀ declaration ∈ declared, declaration.type.isSome = true) →
        (∃ declaration ∈ declared, declaration.IsAbove context.schema declared) →
        ∃ declaration top, unified.declarations.get? name = some declaration ∧
          declaration.Reconciles context.schema declared top) := by
  intro operations unified
  have hperm := context.names_append_conflicting_perm first rest
  have hne : operations ≠ [] := List.cons_ne_nil _ _
  refine ⟨hperm.nodup_iff.mpr (nodup_sharedNames _ _ _), ?_, ?_, ?_⟩
  · rw [show unified.declarations.names = _ from context.names_unify_cons first rest]
    exact List.filter_sublist.trans List.filter_sublist
  · intro name
    rw [hperm.mem_iff, mem_sharedNames_iff]
  · intro name hall declared
    have hconflict : name ∈ unified.conflicting ↔
        unifyDeclarations context.schema declared = none :=
      (mem_unify_conflicting_iff hne).trans (and_iff_right hall)
    have hnone : unifyDeclarations context.schema declared = none ↔
        (∀ declaration ∈ declared, declaration.type.isSome = true) ∧
          ∀ declaration ∈ declared, ¬declaration.IsAbove context.schema declared :=
      unifyDeclarations_eq_none_iff (hall.declarationsOf_ne_nil hne)
    refine ⟨hconflict.trans hnone, fun hunknown => ?_, fun hknown hwidest => ?_⟩
    · obtain ⟨first, -, hget⟩ := get?_unify_of_unknown hall hunknown
      exact ⟨_, hget, rfl, rfl⟩
    · -- declarations one of which is above the others unify
      obtain ⟨widest, hmem, habove⟩ := hwidest
      have hsome : unifyDeclarations context.schema declared ≠ none :=
        fun hunified => (hnone.mp hunified).2 widest hmem habove
      obtain ⟨declaration, hunify⟩ := Option.ne_none_iff_exists'.mp hsome
      have hget := get?_unify_eq_some_iff.mpr ⟨hall, hunify⟩
      obtain ⟨top, hreconciles⟩ := exists_reconciles_of_get?_unify hget hknown
      exact ⟨declaration, top, hget, hreconciles⟩

/-- `$size: Int!` and `$size: Int = 1` agree, since none of them leaves the size open. -/
theorem unify_splits_names_picture :
    let size : TypeRef Name := .named ⟨"Int", ⟨1, 16⟩⟩
    let first := pictureQuery "A" "P" (.nonNull size) 1
    let second := { pictureQuery "B" "P" size 2 with
      variableDefinitions := [⟨⟨"size", ⟨2, 10⟩⟩, ⟨2, 9⟩, size, ⟨2, 16⟩,
        some (.int "1" ⟨2, 22⟩), [], ⟨2, 9⟩⟩] }
    let context := fresh pictureSchema ⟨[.operation first, .operation second]⟩
    let declared := declarationsOf pictureSchema [first, second] "size"
    DeclaredByAll pictureSchema [first, second] "size" ∧
      (∀ declaration ∈ declared, declaration.type.isSome = true) ∧
      (∃ declaration ∈ declared, declaration.IsAbove pictureSchema declared) ∧
      ∃ declaration top,
        (context.unify [first, second]).declarations.get? "size" = some declaration ∧
          declaration.Reconciles pictureSchema declared top := by
  intro size first second context declared
  have hall : DeclaredByAll pictureSchema [first, second] "size" :=
    List.forall_mem_cons.mpr ⟨rfl, List.forall_mem_singleton.mpr rfl⟩
  have hknown : ∀ declaration ∈ declared, declaration.type.isSome = true :=
    List.forall_mem_cons.mpr ⟨rfl, List.forall_mem_singleton.mpr rfl⟩
  have hwidest : ∃ declaration ∈ declared, declaration.IsAbove pictureSchema declared := by
    refine ⟨_, List.mem_cons_of_mem _ (List.mem_singleton_self _), .named "Int", rfl, ?_⟩
    exact List.forall_mem_cons.mpr
      ⟨⟨_, rfl, rfl⟩, List.forall_mem_singleton.mpr ⟨_, rfl, rfl⟩⟩
  exact ⟨hall, hknown, hwidest,
    ((context.unify_splits_names first [second]).2.2.2 "size" hall).2.2 hknown hwidest⟩

/-! ## The set of the operations -/

/-- Lists of the same operations agree on the same names and have the same names in conflict. A
name they agree on has the same type, and a default in both or in neither. It is written in the same
way if the type is known, and otherwise as in the first operation of each list. -/
theorem unify_same_of_same_members {operations others : List Operation}
    (hmembers : ∀ operation, operation ∈ others ↔ operation ∈ operations) :
    (∀ name, name ∈ (context.unify others).declarations.names ↔
      name ∈ (context.unify operations).declarations.names) ∧
    (∀ name, name ∈ (context.unify others).conflicting ↔
      name ∈ (context.unify operations).conflicting) ∧
    ∀ name unified other, (context.unify operations).declarations.get? name = some unified →
      (context.unify others).declarations.get? name = some other →
        other.type = unified.type ∧ other.default.isSome = unified.default.isSome ∧
        (unified.type.isSome = true → other.written = unified.written) ∧
        (unified.type = none →
          unified.written = (declarationsOf context.schema operations name).head?.bind
            Declaration.written ∧
          other.written = (declarationsOf context.schema others name).head?.bind
            Declaration.written) := by
  refine ⟨fun name => ?_, mem_unify_conflicting_congr hmembers, ?_⟩
  · have halike : Option.Rel (Declaration.Alike context.schema)
        ((context.unify operations).declarations.get? name)
        ((context.unify others).declarations.get? name) := unify_alike hmembers name
    rw [NameMap.mem_names_iff, NameMap.mem_names_iff, NameMap.contains, NameMap.contains]
    generalize (context.unify operations).declarations.get? name = unified at halike
    generalize (context.unify others).declarations.get? name = other at halike
    cases halike with
    | none => rfl
    | some => rfl
  · intro name unified other hunified hother
    have hsame : ∀ declaration, declaration ∈ declarationsOf context.schema others name ↔
        declaration ∈ declarationsOf context.schema operations name :=
      mem_declarationsOf_congr hmembers name
    rcases known_or_unknown (declarationsOf context.schema operations name) with hknown | hunknown
    · obtain ⟨top, hreconciles⟩ := exists_reconciles_of_get?_unify hunified hknown
      obtain ⟨otherTop, hotherReconciles⟩ := exists_reconciles_of_get?_unify hother
        fun declaration hmem => hknown declaration ((hsame declaration).mp hmem)
      obtain ⟨htype, hwritten, hdefault⟩ := hreconciles.congr hsame hotherReconciles
      refine ⟨htype, hdefault, fun _ => hwritten, fun hnone => ?_⟩
      exact absurd hnone (Option.isSome_iff_ne_none.mp hreconciles.isSome_type)
    · -- both are what the first operation of each list declares, without type and default
      have hotherUnknown : ∃ declaration ∈ declarationsOf context.schema others name,
          declaration.type = none := by
        simpa only [hsame] using hunknown
      obtain ⟨first, hfirst, hget⟩ :=
        get?_unify_of_unknown (get?_unify_eq_some_iff.mp hunified).1 hunknown
      obtain ⟨otherFirst, hotherFirst, hotherGet⟩ :=
        get?_unify_of_unknown (get?_unify_eq_some_iff.mp hother).1 hotherUnknown
      obtain rfl := Option.some_inj.mp (hunified.symm.trans hget)
      obtain rfl := Option.some_inj.mp (hother.symm.trans hotherGet)
      rw [hfirst, hotherFirst]
      exact ⟨rfl, rfl, fun hsome => absurd rfl (Option.isSome_iff_ne_none.mp hsome),
        fun _ => ⟨rfl, rfl⟩⟩

/-- `$size: Int!` and `$size: Int` agree on the same type in any order and with repetitions. -/
theorem unify_same_of_same_members_picture :
    let size : TypeRef Name := .named ⟨"Int", ⟨1, 16⟩⟩
    let first := pictureQuery "A" "P" (.nonNull size) 1
    let second := pictureQuery "B" "P" size 2
    let context := fresh pictureSchema ⟨[.operation first, .operation second]⟩
    (∀ operation, operation ∈ [second, first, second] ↔ operation ∈ [first, second]) ∧
      ∃ unified other,
        (context.unify [first, second]).declarations.get? "size" = some unified ∧
        (context.unify [second, first, second]).declarations.get? "size" = some other ∧
        other.type = unified.type ∧ other.default.isSome = unified.default.isSome := by
  intro size first second context
  have hmembers : ∀ operation,
      operation ∈ [second, first, second] ↔ operation ∈ [first, second] := by
    intro operation
    simp only [List.mem_cons, List.not_mem_nil, or_false]
    tauto
  have hunified : ((context.unify [first, second]).declarations.get? "size").isSome := rfl
  have hother : ((context.unify [second, first, second]).declarations.get? "size").isSome := rfl
  obtain ⟨unified, hunified⟩ := Option.isSome_iff_exists.mp hunified
  obtain ⟨other, hother⟩ := Option.isSome_iff_exists.mp hother
  obtain ⟨htype, hdefault, -⟩ :=
    (unify_same_of_same_members hmembers).2.2 "size" unified other hunified hother
  exact ⟨hmembers, unified, other, hunified, hother, htype, hdefault⟩

/-- `$size: Int` and `$size: Size`, a type that the schema does not define, agree in both orders,
but the type is written differently. -/
theorem exists_written_ne_of_same_members_picture :
    let first := pictureQuery "A" "P" (.named ⟨"Int", ⟨1, 16⟩⟩) 1
    let second := pictureQuery "B" "P" (.named ⟨"Size", ⟨2, 16⟩⟩) 2
    let context := fresh pictureSchema ⟨[.operation first, .operation second]⟩
    (∀ operation, operation ∈ [second, first] ↔ operation ∈ [first, second]) ∧
      ∃ unified other,
        (context.unify [first, second]).declarations.get? "size" = some unified ∧
        (context.unify [second, first]).declarations.get? "size" = some other ∧
        unified.written.map TypeRef.render = some "Int" ∧
        other.written.map TypeRef.render = some "Size" := by
  intro first second context
  have hmembers : ∀ operation, operation ∈ [second, first] ↔ operation ∈ [first, second] :=
    fun operation => (List.Perm.swap first second []).mem_iff
  exact ⟨hmembers, _, _, rfl, rfl, rfl, rfl⟩

end Context

end RelayCheck
