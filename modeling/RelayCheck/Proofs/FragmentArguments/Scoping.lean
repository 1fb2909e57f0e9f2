import RelayCheck.FragmentArguments.Scoping
import RelayCheck.Proofs.FragmentArguments.Positions
import Mathlib.Data.List.Forall2

/-!
# Which uses of variables are reported as undeclared

An operation is checked with the fragments it reaches, and a fragment on its own. The check of a
fragment is silent about names that some operation which uses it does not declare, since the check
of that operation reports them. Together the checks leave nothing out.

The module introduces:

- `Context.IsMissing`, a use in a fragment whose name neither the fragment nor an operation that
  reaches it declares, and `Context.OnceEach`, such uses, one for each name and fragment;
- `Context.TypesConflict`: all operations that use a fragment declare a name with known types, and
  none of the types is above all the others;
- `Context.Undeclared`, the findings about a definition.

The main result is `findings_knownVariableNames`.
-/

namespace RelayCheck

/-! ## Uses that count once in each fragment -/

/-- The name of a use and the fragment that contains it. -/
def Usage.key (usage : Usage) : String × Option String :=
  (usage.name, usage.fragment)

section Uses

variable {seen : List (String × String)} {uses : List GovernedUsage}

/-- The uses without declaration are among those that are looked at. -/
theorem exists_of_mem_undeclaredUses {usage : Usage} (h : usage ∈ undeclaredUses seen uses) :
    ∃ governed ∈ uses, governed.governor = none ∧ governed.usage = usage := by
  fun_induction undeclaredUses seen uses with
  | case1 seen => cases h
  | case2 seen governed rest hgoverned ih =>
    exact List.exists_mem_cons_of_exists (ih h)
  | case3 seen governed rest hgoverned hfragment ih =>
    rcases List.mem_cons.mp h with rfl | h
    · exact ⟨governed, List.mem_cons_self, Option.not_isSome_iff_eq_none.mp hgoverned, rfl⟩
    · exact List.exists_mem_cons_of_exists (ih h)
  | case4 seen governed rest hgoverned fragment hfragment hseen ih =>
    exact List.exists_mem_cons_of_exists (ih h)
  | case5 seen governed rest hgoverned fragment hfragment hnew ih =>
    rcases List.mem_cons.mp h with rfl | h
    · exact ⟨governed, List.mem_cons_self, Option.not_isSome_iff_eq_none.mp hgoverned, rfl⟩
    · exact List.exists_mem_cons_of_exists (ih h)

/-- A name and a fragment occur among the uses without declaration if they do among those that are
looked at and were not seen. -/
theorem mem_keys_undeclaredUses {name fragment : String} :
    (name, some fragment) ∈ (undeclaredUses seen uses).map Usage.key ↔
      (name, fragment) ∉ seen ∧
        ∃ governed ∈ uses, governed.governor = none ∧
          governed.usage.key = (name, some fragment) := by
  fun_induction undeclaredUses seen uses with
  | case1 seen => simp
  | case2 seen governed rest hgoverned ih =>
    have hsome : governed.governor ≠ none := Option.isSome_iff_ne_none.mp hgoverned
    rw [ih, List.exists_mem_cons_iff]
    simp [hsome]
  | case3 seen governed rest hgoverned hfragment ih =>
    have hkey : governed.usage.key ≠ (name, some fragment) := by
      simp [Usage.key, hfragment]
    rw [List.map_cons, List.mem_cons, ih, List.exists_mem_cons_iff]
    simp [hkey, hkey.symm]
  | case4 seen governed rest hgoverned other hfragment hseen ih =>
    -- the use left out has a key that was seen, so it is not the one asked for
    rw [ih, List.exists_mem_cons_iff]
    refine and_congr_right fun hnew => (or_iff_right ?_).symm
    rintro ⟨-, hkey⟩
    rw [Usage.key, hfragment, Prod.mk.injEq, Option.some_inj] at hkey
    rw [List.contains_iff_mem, hkey.1, hkey.2] at hseen
    exact hnew hseen
  | case5 seen governed rest hgoverned other hfragment hnew ih =>
    have hnone := Option.not_isSome_iff_eq_none.mp hgoverned
    have hkey : (name, some fragment) = governed.usage.key ↔
        (name, fragment) = (governed.usage.name, other) := by
      simp [Usage.key, hfragment]
    rw [List.map_cons, List.mem_cons, ih, List.exists_mem_cons_iff, List.mem_cons, hkey]
    rw [List.contains_iff_mem] at hnew
    by_cases hsame : (name, fragment) = (governed.usage.name, other)
    · rw [← hsame] at hnew
      exact iff_of_true (Or.inl hsame) ⟨hnew, Or.inl ⟨hnone, (hkey.mpr hsame).symm⟩⟩
    · have hother : governed.usage.key ≠ (name, some fragment) :=
        fun h => hsame (hkey.mp h.symm)
      simp [hsame, hother]

/-- No name occurs twice in one fragment among the uses without declaration. -/
theorem nodup_keys_undeclaredUses
    (hinside : ∀ governed ∈ uses, governed.usage.fragment.isSome = true) :
    ((undeclaredUses seen uses).map Usage.key).Nodup := by
  fun_induction undeclaredUses seen uses with
  | case1 seen => exact List.nodup_nil
  | case2 seen governed rest hgoverned ih => exact ih (List.forall_mem_of_forall_mem_cons hinside)
  | case3 seen governed rest hgoverned hfragment ih =>
    have hsome := hinside governed List.mem_cons_self
    rw [hfragment] at hsome
    cases hsome
  | case4 seen governed rest hgoverned other hfragment hseen ih =>
    exact ih (List.forall_mem_of_forall_mem_cons hinside)
  | case5 seen governed rest hgoverned other hfragment hnew ih =>
    rw [List.map_cons, List.nodup_cons]
    refine ⟨?_, ih (List.forall_mem_of_forall_mem_cons hinside)⟩
    -- the uses after this one are looked at with its key among those seen
    rw [Usage.key, hfragment, mem_keys_undeclaredUses]
    exact fun h => h.1 List.mem_cons_self

/-- If uses are related where they have no declaration, those without declaration are related. -/
theorem rel_undeclaredUses {R : GovernedUsage → GovernedUsage → Prop} {S : Usage → Usage → Prop}
    (hgoverned : ∀ {governed other}, R governed other →
      other.governor.isSome = governed.governor.isSome ∧
        (governed.governor.isSome = false → S governed.usage other.usage))
    (husage : ∀ {usage other}, S usage other →
      other.name = usage.name ∧ other.fragment = usage.fragment)
    {others : List GovernedUsage} (h : List.Forall₂ R uses others)
    (seen : List (String × String)) :
    List.Forall₂ S (undeclaredUses seen uses) (undeclaredUses seen others) := by
  induction h generalizing seen with
  | nil =>
    rw [undeclaredUses]
    exact .nil
  | @cons governed other rest rest' hfirst _ ih =>
    obtain ⟨hsame, hrel⟩ := hgoverned hfirst
    unfold undeclaredUses
    rw [hsame]
    split
    next => exact ih seen
    next hnone =>
      have hrel := hrel (Bool.eq_false_of_not_eq_true hnone)
      -- both uses were seen before, or neither was
      rw [(husage hrel).1, (husage hrel).2]
      cases governed.usage.fragment with
      | none => exact .cons hrel (ih seen)
      | some fragment =>
        dsimp only
        split
        · exact ih seen
        · exact .cons hrel (ih _)

/-- Uses outside of fragments all count. -/
theorem undeclaredUses_append {own : List GovernedUsage}
    (hown : ∀ governed ∈ own, governed.usage.fragment = none) :
    undeclaredUses seen (own ++ uses) =
      (own.filter fun governed => !governed.governor.isSome).map GovernedUsage.usage ++
        undeclaredUses seen uses := by
  induction own with
  | nil => rfl
  | cons governed rest ih =>
    rw [List.forall_mem_cons] at hown
    rw [List.cons_append, undeclaredUses]
    cases hgoverned : governed.governor with
    | some governor => simp [hgoverned, ih hown.2]
    | none => simp [hgoverned, hown.1, ih hown.2]

end Uses

/-! ## Findings about uses -/

/-- The finding that an operation does not declare the variable of a use. -/
def Operation.undeclaredFinding (operation : Operation) (usage : Usage) : Finding :=
  .relay (.undefinedVariable usage.name (operation.name.map Name.text) usage.fragment)
    [usage.pos, operation.pos]

/-- The finding that a fragment which no operation uses does not declare the variable of a use. -/
def Fragment.undeclaredFinding (fragment : Fragment) (usage : Usage) : Finding :=
  .relay (.undefinedInFragment usage.name fragment.name.text) [usage.pos]

/-- The finding that the operations which use a fragment declare the variable of a use in conflict,
and the fragment does not declare it. -/
def Fragment.conflictFinding (fragment : Fragment) (usage : Usage) : Finding :=
  .relay (.incompatibleInFragment usage.name fragment.name.text) [usage.pos]

/-- A finding says that the variable of a use is not declared where the use stands. -/
inductive Usage.ReportedBy (usage : Usage) : Finding → Prop
  | inOperation {operation : Operation} {other : Usage} (hkey : other.key = usage.key) :
      ReportedBy usage (operation.undeclaredFinding other)
  | inFragment {fragment : Fragment} (hfragment : usage.fragment = some fragment.name.text) :
      ReportedBy usage (fragment.undeclaredFinding usage)
  | conflict {fragment : Fragment} (hfragment : usage.fragment = some fragment.name.text) :
      ReportedBy usage (fragment.conflictFinding usage)

/-! ## Operations -/

namespace Context

variable {context : Context}

/-- The uses in an operation's own body of names that it does not declare. -/
def undeclaredOwn (context : Context) (operation : Operation) : List Usage :=
  (context.usages none (.operation operation)).filter fun usage =>
    !(operation.declarations context.schema).contains usage.name

/-- An operation reaches a fragment that uses a name which neither of them declares. -/
structure IsMissing (context : Context) (operation : Operation) (fragment : Fragment)
    (usage : Usage) : Prop where
  reaches : context.document.Reaches operation.selections fragment
  mem_usages : usage ∈ context.usages (some fragment.name.text) (.fragment fragment)
  fragment_eq_none : (fragment.declarations context.schema).get? usage.name = none
  operation_eq_none : (operation.declarations context.schema).get? usage.name = none

/-- Uses in the fragments of an operation that stand for all missing names: one for each name and
each fragment. -/
structure OnceEach (context : Context) (operation : Operation) (missing : List Usage) : Prop where
  nodup : (missing.map Usage.key).Nodup
  sound : ∀ usage ∈ missing, ∃ fragment, context.IsMissing operation fragment usage
  complete : ∀ fragment usage, context.IsMissing operation fragment usage →
    ∃ other ∈ missing, other.key = usage.key

/-- The uses in the fragments of an operation, with what governs them. -/
def reachedUsages (context : Context) (operation : Operation) : List GovernedUsage :=
  (context.reached operation).flatMap fun fragment =>
    context.fragmentUsages fragment (operation.declarations context.schema)

/-- Nothing governs a use in the fragments of an operation exactly if its name is missing. -/
theorem exists_reachedUsages_iff {operation : Operation} {usage : Usage} :
    (∃ governed ∈ context.reachedUsages operation, governed.governor = none ∧
        governed.usage = usage) ↔
      ∃ fragment, context.IsMissing operation fragment usage := by
  constructor
  · rintro ⟨governed, hgoverned, hnone, rfl⟩
    obtain ⟨fragment, hfragment, hgoverned⟩ := List.mem_flatMap.mp hgoverned
    obtain ⟨usage, husage, rfl⟩ := List.mem_map.mp hgoverned
    rw [governor_govern_eq_none_iff] at hnone
    rw [usage_govern]
    exact ⟨fragment, mem_reached_iff.mp hfragment, husage, hnone.1, hnone.2⟩
  · rintro ⟨fragment, hmissing⟩
    refine ⟨govern (fragment.declarations context.schema) (operation.declarations context.schema)
      usage, ?_, ?_, usage_govern _ _ _⟩
    · rw [reachedUsages, List.mem_flatMap]
      exact ⟨fragment, mem_reached_iff.mpr hmissing.reaches,
        List.mem_map_of_mem hmissing.mem_usages⟩
    · rw [governor_govern_eq_none_iff]
      exact ⟨hmissing.fragment_eq_none, hmissing.operation_eq_none⟩

/-- A use in the fragments of an operation is recorded with its fragment. -/
theorem isSome_fragment_of_reachedUsages {operation : Operation} :
    ∀ governed ∈ context.reachedUsages operation, governed.usage.fragment.isSome = true := by
  intro governed hgoverned
  obtain ⟨fragment, -, hgoverned⟩ := List.mem_flatMap.mp hgoverned
  obtain ⟨usage, husage, rfl⟩ := List.mem_map.mp hgoverned
  rw [usage_govern, fragment_of_mem_usages husage]
  rfl

/-- The uses without declaration in the fragments of an operation stand for all missing names. -/
theorem onceEach_undeclaredUses (operation : Operation) :
    context.OnceEach operation (undeclaredUses [] (context.reachedUsages operation)) where
  nodup := nodup_keys_undeclaredUses isSome_fragment_of_reachedUsages
  sound usage husage := exists_reachedUsages_iff.mp (exists_of_mem_undeclaredUses husage)
  complete fragment usage hmissing := by
    obtain ⟨governed, hgoverned, hnone, husage⟩ := exists_reachedUsages_iff.mpr ⟨_, hmissing⟩
    have hkey : usage.key = (usage.name, some fragment.name.text) := by
      rw [Usage.key, fragment_of_mem_usages hmissing.mem_usages]
    rw [← List.mem_map, hkey, mem_keys_undeclaredUses]
    exact ⟨List.not_mem_nil, governed, hgoverned, hnone, by rw [husage, hkey]⟩

/-- What is found about an operation: a finding for every use in its body of a name that it does
not declare, then one for each missing name and fragment. -/
theorem undeclaredInOperation_eq (context : Context) (operation : Operation) :
    ∃ missing, context.OnceEach operation missing ∧
      context.undeclaredInOperation operation =
        (context.undeclaredOwn operation ++ missing).map operation.undeclaredFinding := by
  refine ⟨_, onceEach_undeclaredUses operation, ?_⟩
  -- the uses of the operation itself come first, and none of them is left out
  have hown : ∀ governed ∈ (context.usages none (.operation operation)).map
      (govern (operation.declarations context.schema) (operation.declarations context.schema)),
      governed.usage.fragment = none := by
    intro governed hgoverned
    obtain ⟨usage, husage, rfl⟩ := List.mem_map.mp hgoverned
    rw [usage_govern, fragment_of_mem_usages husage]
  rw [undeclaredInOperation, operationUsages]
  refine congrArg _ ((undeclaredUses_append hown).trans (congrArg (· ++ _) ?_))
  have hsame : GovernedUsage.usage ∘ govern (operation.declarations context.schema)
      (operation.declarations context.schema) = id := funext fun usage => usage_govern _ _ usage
  rw [List.filter_map, List.map_map, hsame, List.map_id, undeclaredOwn]
  refine List.filter_congr fun usage _ => ?_
  rw [Function.comp_apply, isSome_governor_govern, Bool.or_self]

/-! ## Fragments -/

/-- The uses in a fragment of names that it does not declare. -/
def undeclaredBy (context : Context) (fragment : Fragment) : List Usage :=
  (context.usages (some fragment.name.text) (.fragment fragment)).filter fun usage =>
    !(fragment.declarations context.schema).contains usage.name

/-- An operation that uses the fragment declares the name with the type. -/
def DeclaresFor (context : Context) (fragment : Fragment) (name : String)
    (type : TypeRef String) : Prop :=
  ∃ operation ∈ context.document.operations,
    context.document.Reaches operation.selections fragment ∧
      ∃ declaration, (operation.declarations context.schema).get? name = some declaration ∧
        declaration.type = some type

/-- All operations that use the fragment declare the name with types that are known, and none of
the types is a supertype of all the others. -/
structure TypesConflict (context : Context) (fragment : Fragment) (name : String) : Prop where
  known : ∀ operation ∈ context.document.operations,
    context.document.Reaches operation.selections fragment →
      ∃ declaration, (operation.declarations context.schema).get? name = some declaration ∧
        declaration.type.isSome = true
  noneAbove : ∀ type, context.DeclaresFor fragment name type →
    ∃ other, context.DeclaresFor fragment name other ∧
      context.schema.isSubtype other type = false

/-- What is found about a fragment that no operation uses: a finding for every use of a name that
it does not declare. -/
theorem undeclaredInFragment_nil (fragment : Fragment) :
    context.undeclaredInFragment [] fragment =
      (context.undeclaredBy fragment).map fragment.undeclaredFinding := by
  rw [undeclaredInFragment, fragmentUsages, List.filterMap_map, undeclaredBy,
    ← List.filterMap_eq_map, List.filterMap_filter]
  refine List.filterMap_congr fun usage _ => ?_
  have hnone : (context.unify []).declarations.contains usage.name = false := rfl
  cases hown : (fragment.declarations context.schema).contains usage.name <;>
    simp [isSome_governor_govern, hnone, hown, Fragment.undeclaredFinding]

/-- What is found about a fragment that operations use: a finding for every use of a name that it
does not declare, if the name is in conflict for the operations. -/
theorem undeclaredInFragment_of_ne_nil {operations : List Operation} (hne : operations ≠ [])
    (fragment : Fragment) :
    context.undeclaredInFragment operations fragment =
      ((context.undeclaredBy fragment).filter fun usage =>
        (context.unify operations).conflicting.contains usage.name).map
          fragment.conflictFinding := by
  rw [undeclaredInFragment, fragmentUsages, List.filterMap_map, undeclaredBy, List.filter_filter,
    ← List.filterMap_eq_map, List.filterMap_filter]
  refine List.filterMap_congr fun usage _ => ?_
  cases hown : (fragment.declarations context.schema).contains usage.name with
  | true => simp [isSome_governor_govern, hown]
  | false =>
    by_cases hconflict : usage.name ∈ (context.unify operations).conflicting
    · simp [isSome_governor_govern, hown, hne, hconflict, contains_unify_eq_false hconflict,
        Fragment.conflictFinding]
    · simp [isSome_governor_govern, hown, hne, hconflict]

section Unique

variable {fragment : Fragment}

/-- If names are unique, the declarations that the operations which use a fragment have of a name
are those of the operations that reach it. -/
theorem mem_declarationsOf_iff (hunique : context.document.UniqueFragmentNames)
    (hmem : fragment ∈ context.document.fragments) {name : String} {declaration : Declaration} :
    declaration ∈ declarationsOf context.schema
        (context.operationsReaching fragment.name.text) name ↔
      ∃ operation ∈ context.document.operations,
        context.document.Reaches operation.selections fragment ∧
          (operation.declarations context.schema).get? name = some declaration := by
  rw [declarationsOf, List.mem_filterMap]
  simp only [mem_operationsReaching_name_iff hunique hmem, and_assoc]

/-- If names are unique, the operations that use a fragment declare a name with the types that their
declarations of the name have. -/
theorem declaresFor_iff (hunique : context.document.UniqueFragmentNames)
    (hmem : fragment ∈ context.document.fragments) {name : String} {type : TypeRef String} :
    context.DeclaresFor fragment name type ↔
      ∃ declaration ∈ declarationsOf context.schema
        (context.operationsReaching fragment.name.text) name, declaration.type = some type := by
  constructor
  · rintro ⟨operation, hoperation, hreaches, declaration, hget, htype⟩
    have hdeclaration := (mem_declarationsOf_iff hunique hmem).mpr
      ⟨operation, hoperation, hreaches, hget⟩
    exact ⟨declaration, hdeclaration, htype⟩
  · rintro ⟨declaration, hdeclaration, htype⟩
    obtain ⟨operation, hoperation, hreaches, hget⟩ :=
      (mem_declarationsOf_iff hunique hmem).mp hdeclaration
    exact ⟨operation, hoperation, hreaches, declaration, hget, htype⟩

/-- Declarations that do not unify are in conflict for the fragment. -/
theorem typesConflict_of_unify_eq_none (hunique : context.document.UniqueFragmentNames)
    (hmem : fragment ∈ context.document.fragments)
    (hne : context.operationsReaching fragment.name.text ≠ []) {name : String}
    (hall : DeclaredByAll context.schema (context.operationsReaching fragment.name.text) name)
    (hunify : unifyDeclarations context.schema (declarationsOf context.schema
      (context.operationsReaching fragment.name.text) name) = none) :
    context.TypesConflict fragment name := by
  obtain ⟨hknown, hnone⟩ :=
    (unifyDeclarations_eq_none_iff (hall.declarationsOf_ne_nil hne)).mp hunify
  constructor
  · intro operation hoperation hreaches
    have husing := (mem_operationsReaching_name_iff hunique hmem).mpr ⟨hoperation, hreaches⟩
    obtain ⟨declaration, hget⟩ := Option.isSome_iff_exists.mp (hall operation husing)
    have hdeclaration := (mem_declarationsOf_iff hunique hmem).mpr
      ⟨operation, hoperation, hreaches, hget⟩
    exact ⟨declaration, hget, hknown declaration hdeclaration⟩
  · intro type htype
    by_contra hbelow
    -- a type with all others below it would make its declaration the widest
    obtain ⟨declaration, hdeclaration, htype⟩ := (declaresFor_iff hunique hmem).mp htype
    refine hnone declaration hdeclaration ⟨type, htype, fun other hother => ?_⟩
    obtain ⟨sub, hsub⟩ := Option.isSome_iff_exists.mp (hknown other hother)
    have hfor := (declaresFor_iff hunique hmem).mpr ⟨other, hother, hsub⟩
    refine ⟨sub, hsub, ?_⟩
    by_contra hnot
    rw [Bool.not_eq_true] at hnot
    exact hbelow ⟨sub, hfor, hnot⟩

/-- Declarations that are in conflict for the fragment are there for all operations, and do not
unify. -/
theorem TypesConflict.unify_eq_none (hunique : context.document.UniqueFragmentNames)
    (hmem : fragment ∈ context.document.fragments)
    (hne : context.operationsReaching fragment.name.text ≠ []) {name : String}
    (h : context.TypesConflict fragment name) :
    DeclaredByAll context.schema (context.operationsReaching fragment.name.text) name ∧
      unifyDeclarations context.schema (declarationsOf context.schema
        (context.operationsReaching fragment.name.text) name) = none := by
  have hall : DeclaredByAll context.schema
      (context.operationsReaching fragment.name.text) name := by
    intro operation hoperation
    obtain ⟨hdocument, hreaches⟩ := (mem_operationsReaching_name_iff hunique hmem).mp hoperation
    obtain ⟨declaration, hget, -⟩ := h.known operation hdocument hreaches
    rw [NameMap.contains, hget]
    rfl
  -- all types are known, and none is above all others
  refine ⟨hall, (unifyDeclarations_eq_none_iff (hall.declarationsOf_ne_nil hne)).mpr ⟨?_, ?_⟩⟩
  · intro declaration hdeclaration
    obtain ⟨operation, hoperation, hreaches, hget⟩ :=
      (mem_declarationsOf_iff hunique hmem).mp hdeclaration
    obtain ⟨other, hother, htype⟩ := h.known operation hoperation hreaches
    rw [hget, Option.some_inj] at hother
    rwa [hother]
  · rintro declaration hdeclaration ⟨super, hsuper, habove⟩
    have hfor := (declaresFor_iff hunique hmem).mpr ⟨declaration, hdeclaration, hsuper⟩
    obtain ⟨sub, hsub, hnot⟩ := h.noneAbove super hfor
    obtain ⟨other, hother, htype⟩ := (declaresFor_iff hunique hmem).mp hsub
    obtain ⟨type, hsame, hbelow⟩ := habove other hother
    rw [htype, Option.some_inj] at hsame
    rw [hsame, hbelow] at hnot
    cases hnot

/-- If names are unique, the operations that use a fragment declare a name in ways that are in
conflict exactly if all of them declare it with known types, none of which is above all the
others. -/
theorem mem_conflicting_iff_typesConflict (hunique : context.document.UniqueFragmentNames)
    (hmem : fragment ∈ context.document.fragments)
    (hne : context.operationsReaching fragment.name.text ≠ []) {name : String} :
    name ∈ (context.unifiedVariables fragment.name.text).conflicting ↔
      context.TypesConflict fragment name := by
  rw [unifiedVariables, mem_unify_conflicting_iff hne]
  exact ⟨fun h => typesConflict_of_unify_eq_none hunique hmem hne h.1 h.2,
    fun h => h.unify_eq_none hunique hmem hne⟩

end Unique

/-! ## All findings -/

/-- What is found about a definition: for an operation, a finding for every use in its body of a
name that it does not declare, and one for each missing name and fragment; for a fragment that no
operation uses, a finding for every use of a name that it does not declare; for one that operations
use, only those of names that they declare in conflict; nothing for other definitions. -/
inductive Undeclared (context : Context) : Definition → List Finding → Prop
  | operation {operation : Operation} {missing : List Usage}
      (hmissing : context.OnceEach operation missing) :
      Undeclared context (.operation operation)
        ((context.undeclaredOwn operation ++ missing).map operation.undeclaredFinding)
  | unused {fragment : Fragment}
      (hunused : ∀ operation ∈ context.document.operations,
        ¬context.document.Reaches operation.selections fragment) :
      Undeclared context (.fragment fragment)
        ((context.undeclaredBy fragment).map fragment.undeclaredFinding)
  | used {fragment : Fragment} {operation : Operation} {conflicting : String → Bool}
      (hoperation : operation ∈ context.document.operations)
      (hreaches : context.document.Reaches operation.selections fragment)
      (hconflicting : ∀ name, conflicting name = true ↔ context.TypesConflict fragment name) :
      Undeclared context (.fragment fragment)
        (((context.undeclaredBy fragment).filter fun usage => conflicting usage.name).map
          fragment.conflictFinding)
  | other {definition : Definition} (hoperation : definition.operation? = none)
      (hfragment : definition.fragment? = none) : Undeclared context definition []

/-- What the rule for names finds about a definition. -/
def undeclared (context : Context) : Definition → List Finding
  | .operation operation => context.undeclaredInOperation operation
  | .fragment fragment =>
    context.undeclaredInFragment (context.operationsReaching fragment.name.text) fragment
  | _ => []

/-- The rule for names finds what it finds about each definition. -/
theorem findings_knownVariableNames_eq_flatMap (context : Context) :
    (knownVariableNames context).findings (context.document.events context.schema) =
      context.document.definitions.flatMap context.undeclared := by
  rw [knownVariableNames, Rule.findings_searching]
  refine findings_onLeave ?_ ?_ context.document
  · intro definition scope
    cases definition with
    | _ => rfl
  · rintro ⟨node, scope⟩ hnode
    cases node with
    | definition definition => exact absurd rfl (hnode definition)
    | _ => rfl

/-- If names are unique, what the rule finds about a fragment is what is to be found. -/
theorem undeclared_fragment (hunique : context.document.UniqueFragmentNames) {fragment : Fragment}
    (hmem : fragment ∈ context.document.fragments) :
    context.Undeclared (.fragment fragment) (context.undeclared (.fragment fragment)) := by
  rw [undeclared]
  -- what is found depends on whether any operation uses the fragment
  by_cases hne : context.operationsReaching fragment.name.text = []
  · rw [hne, undeclaredInFragment_nil]
    refine .unused fun operation hoperation hreaches => ?_
    have husing := (mem_operationsReaching_name_iff hunique hmem).mpr ⟨hoperation, hreaches⟩
    rw [hne] at husing
    cases husing
  · rw [undeclaredInFragment_of_ne_nil hne]
    obtain ⟨operation, husing⟩ := List.exists_mem_of_ne_nil _ hne
    obtain ⟨hoperation, hreaches⟩ := (mem_operationsReaching_name_iff hunique hmem).mp husing
    have hconflicting (name : String) :
        (context.unifiedVariables fragment.name.text).conflicting.contains name = true ↔
          context.TypesConflict fragment name := by
      rw [List.contains_iff_mem]
      exact mem_conflicting_iff_typesConflict hunique hmem hne
    exact @Undeclared.used context fragment operation
      (context.unifiedVariables fragment.name.text).conflicting.contains hoperation hreaches
      hconflicting

/-- If names are unique, what the rule finds about a definition of the document is what is to be
found. -/
theorem undeclared_of_mem (hunique : context.document.UniqueFragmentNames)
    {definition : Definition} (hmem : definition ∈ context.document.definitions) :
    context.Undeclared definition (context.undeclared definition) := by
  cases definition with
  | operation operation =>
    obtain ⟨missing, hmissing, heq⟩ := context.undeclaredInOperation_eq operation
    rw [undeclared, heq]
    exact .operation hmissing
  | fragment fragment => exact undeclared_fragment hunique (Document.mem_fragments_iff.mpr hmem)
  | schema | schemaExtension | type | typeExtension | directive => exact .other rfl rfl

/-- Every use of an operation or of a fragment it reaches that nothing governs is found. -/
theorem Undeclared.exists_of_operationUsages {operation : Operation} {found : List Finding}
    (h : context.Undeclared (.operation operation) found) {governed : GovernedUsage}
    (hgoverned : governed ∈ context.operationUsages operation) (hnone : governed.governor = none) :
    ∃ other : Usage, other.key = governed.usage.key ∧
      operation.undeclaredFinding other ∈ found := by
  cases h with
  | other hoperation => cases hoperation
  | @operation _ missing hmissing =>
    -- its own uses are always reported, those in fragments unless one like them was before
    rcases mem_operationUsages_iff.mp hgoverned with ⟨usage, husage, rfl⟩ |
      ⟨fragment, hfragment, usage, husage, rfl⟩
    · rw [governor_govern_eq_none_iff] at hnone
      rw [usage_govern]
      refine ⟨usage, rfl, List.mem_map_of_mem (List.mem_append_left _ ?_)⟩
      rw [undeclaredOwn, List.mem_filter]
      exact ⟨husage, by simp [NameMap.contains, hnone.1]⟩
    · rw [governor_govern_eq_none_iff] at hnone
      rw [usage_govern]
      obtain ⟨other, hother, hkey⟩ := hmissing.complete fragment usage
        ⟨mem_reached_iff.mp hfragment, husage, hnone.1, hnone.2⟩
      exact ⟨other, hkey, List.mem_map_of_mem (List.mem_append_right _ hother)⟩

/-- If names are unique, every use in a fragment that nothing governs is found, about the fragment
or about an operation that uses it. -/
theorem exists_of_fragmentUsages (hunique : context.document.UniqueFragmentNames)
    {fragment : Fragment} (hmem : fragment ∈ context.document.fragments)
    {governed : GovernedUsage}
    (hgoverned : governed ∈ context.fragmentUsages fragment
      (context.unifiedVariables fragment.name.text).declarations)
    (hnone : governed.governor = none) :
    ∃ definition ∈ context.document.definitions,
      ∃ finding ∈ context.undeclared definition, governed.usage.ReportedBy finding := by
  obtain ⟨usage, husage, rfl⟩ := List.mem_map.mp hgoverned
  obtain ⟨hown, hunified⟩ := governor_govern_eq_none_iff.mp hnone
  rw [usage_govern]
  have hundeclared : usage ∈ context.undeclaredBy fragment := by
    rw [undeclaredBy, List.mem_filter]
    exact ⟨husage, by simp [NameMap.contains, hown]⟩
  have hfragment := fragment_of_mem_usages husage
  have hdefinition := Document.mem_fragments_iff.mp hmem
  by_cases hne : context.operationsReaching fragment.name.text = []
  · -- no operation could declare the name, and the finding is about the fragment alone
    refine ⟨_, hdefinition, _, ?_, .inFragment hfragment⟩
    rw [undeclared, hne, undeclaredInFragment_nil, List.mem_map]
    exact ⟨usage, hundeclared, rfl⟩
  · by_cases hall : DeclaredByAll context.schema
        (context.operationsReaching fragment.name.text) usage.name
    · -- all operations declare the name, but not in ways that agree
      refine ⟨_, hdefinition, _, ?_, .conflict hfragment⟩
      rw [undeclared, undeclaredInFragment_of_ne_nil hne, List.mem_map]
      refine ⟨usage, List.mem_filter.mpr ⟨hundeclared, ?_⟩, rfl⟩
      rw [List.contains_iff_mem, mem_unify_conflicting_iff hne]
      refine ⟨hall, Option.eq_none_iff_forall_ne_some.mpr fun declaration hunify => ?_⟩
      have hget := get?_unify_eq_some_iff.mpr ⟨hall, hunify⟩
      rw [← unifiedVariables, hunified] at hget
      cases hget
    · -- some operation does not declare the name, and the finding is about that
      simp only [DeclaredByAll, not_forall, exists_prop] at hall
      obtain ⟨operation, husing, hmissing⟩ := hall
      obtain ⟨hoperation, hreaches⟩ := (mem_operationsReaching_name_iff hunique hmem).mp husing
      have hgovern := mem_operationUsages_of_reached (mem_reached_iff.mpr hreaches) husage
      have hdocument := Document.mem_operations_iff.mp hoperation
      have hungoverned := governor_govern_eq_none_iff.mpr
        ⟨hown, Option.not_isSome_iff_eq_none.mp hmissing⟩
      obtain ⟨other, hkey, hfound⟩ :=
        (undeclared_of_mem hunique hdocument).exists_of_operationUsages hgovern hungoverned
      rw [usage_govern] at hkey
      exact ⟨_, hdocument, _, hfound, .inOperation hkey⟩

/-- In a document with unique fragment names, the rule for names finds what is to be found about
each definition, in order, and nothing else. So every use of an operation, of the fragments that it
reaches, or of a fragment alone that nothing governs is reported. A check by the rule alone gives the
first part of that, and all of it unless it stops early. -/
theorem findings_knownVariableNames (hunique : context.document.UniqueFragmentNames) :
    let reports := (knownVariableNames context).findings (context.document.events context.schema)
    (∃ found, reports = found.flatten ∧
        List.Forall₂ context.Undeclared context.document.definitions found) ∧
      (∀ operation ∈ context.document.operations,
        ∀ governed ∈ context.operationUsages operation, governed.governor = none →
          ∃ other : Usage, other.key = governed.usage.key ∧
            operation.undeclaredFinding other ∈ reports) ∧
      (∀ fragment ∈ context.document.fragments,
        ∀ governed ∈ context.fragmentUsages fragment
          (context.unifiedVariables fragment.name.text).declarations, governed.governor = none →
          ∃ finding ∈ reports, governed.usage.ReportedBy finding) ∧
      ∀ parts, let trail := context.trail [.relay .knownVariableNames parts]
        trail.findings <+: reports ∧ (trail.aborted = false → trail.findings = reports) := by
  intro reports
  have hreports : reports = context.document.definitions.flatMap context.undeclared :=
    context.findings_knownVariableNames_eq_flatMap
  refine ⟨⟨context.document.definitions.map context.undeclared, hreports, ?_⟩, ?_, ?_,
    fun parts => context.isPrefix_findings_trail_singleton _⟩
  · rw [List.forall₂_map_right_iff, List.forall₂_same]
    exact fun definition hmem => undeclared_of_mem hunique hmem
  · intro operation hoperation governed hgoverned hnone
    have hdocument := Document.mem_operations_iff.mp hoperation
    obtain ⟨other, hkey, hfound⟩ :=
      (undeclared_of_mem hunique hdocument).exists_of_operationUsages hgoverned hnone
    exact ⟨other, hkey, hreports ▸ List.mem_flatMap.mpr ⟨_, hdocument, hfound⟩⟩
  · intro fragment hmem governed hgoverned hnone
    obtain ⟨definition, hdefinition, finding, hfound, hsays⟩ :=
      exists_of_fragmentUsages hunique hmem hgoverned hnone
    exact ⟨finding, hreports ▸ List.mem_flatMap.mpr ⟨definition, hdefinition, hfound⟩, hsays⟩

/-- Two queries use one fragment and declare the size as a number and as a list of numbers. Nothing
governs its use in the fragment, and that is reported. -/
theorem findings_knownVariableNames_picture :
    let size : TypeRef Name := .named ⟨"Int", ⟨1, 16⟩⟩
    let context := ofDocument pictureSchema ⟨[
      .operation (pictureQuery "A" "P" size 1), .operation (pictureQuery "B" "P" (.list size) 2),
      .fragment (pictureFragment "P" 3)]⟩
    context.document.UniqueFragmentNames ∧
      ∃ governed ∈ context.fragmentUsages (pictureFragment "P" 3)
          (context.unifiedVariables "P").declarations,
        governed.governor = none ∧
          ∃ finding ∈
            (knownVariableNames context).findings (context.document.events context.schema),
            governed.usage.ReportedBy finding := by
  intro size context
  have hunique : context.document.UniqueFragmentNames := by decide
  have hmem : pictureFragment "P" 3 ∈ context.document.fragments := List.mem_singleton_self _
  have hungoverned : ((context.fragmentUsages (pictureFragment "P" 3)
      (context.unifiedVariables "P").declarations).any fun governed =>
        governed.governor.isNone) = true := by cbv
  obtain ⟨governed, hgoverned, hnone⟩ := List.any_eq_true.mp hungoverned
  rw [Option.isNone_iff_eq_none] at hnone
  exact ⟨hunique, governed, hgoverned, hnone,
    (findings_knownVariableNames hunique).2.2.1 _ hmem governed hgoverned hnone⟩

end Context

end RelayCheck
