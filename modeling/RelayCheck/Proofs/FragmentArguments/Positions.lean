import Mathlib
import RelayCheck.Proofs.FragmentArguments.Reports
import RelayCheck.Proofs.FragmentArguments.SharedVariables
import RelayCheck.Proofs.FragmentArguments.Usage
import RelayCheck.Proofs.Validation.Trail

/-!
# When the rule for positions is silent

The rule for positions checks fragments on their own, with the variables that the operations agree
on, and operations with all fragments they reach. What it looks at twice it accepts twice: a
position accepts a unified variable exactly if it accepts the variable of every operation.

The module introduces:

- `Usage.Accepts`, whether a position takes the variable of a declaration;
- `Context.PositionsAccept`: all positions take the variables of operations and the arguments of
  fragments that govern them.

The main result is `findings_variablesInAllowedPosition_eq_nil_iff`: the rule finds nothing exactly
if all positions accept what governs them.
-/

namespace RelayCheck

/-! ## Accepting positions -/

/-- The position of a use takes the variable of the declaration, as far as both types are known. -/
def Usage.Accepts (schema : Schema) (usage : Usage) (declaration : Declaration) : Prop :=
  ∀ type expected, declaration.type = some type → usage.type = some expected →
    allowedUsage schema type declaration.default expected usage.default.isSome = true

/-- A use shows no mismatch exactly if its position accepts what governs it. -/
theorem GovernedUsage.mismatch?_eq_none_iff {schema : Schema} {governed : GovernedUsage} :
    governed.mismatch? schema = none ↔
      ∀ declaration, governed.declaration? = some declaration →
        governed.usage.Accepts schema declaration := by
  rw [GovernedUsage.mismatch?]
  cases hdeclaration : governed.declaration? with
  | none => simp
  | some declaration =>
    cases hexpected : governed.usage.type with
    | none => simp [Usage.Accepts, hexpected]
    | some expected =>
      cases htype : declaration.type with
      | none => simp [Usage.Accepts, htype]
      | some type =>
        simp only [Usage.Accepts, hexpected, htype, Option.some_inj, forall_eq', ite_eq_left_iff,
          reduceCtorEq, imp_false, not_not]
        exact ⟨fun h _ _ htype hexpected => htype ▸ hexpected ▸ h, fun h => h _ _ rfl rfl⟩

/-- If declarations unify to one of known type, the types of all of them are known. -/
theorem isSome_type_of_unifyDeclarations {schema : Schema} {declarations : List Declaration}
    {unified : Declaration} (h : unifyDeclarations schema declarations = some unified)
    (hknown : unified.type.isSome = true) :
    ∀ declaration ∈ declarations, declaration.type.isSome = true := by
  cases declarations with
  | nil => cases h
  | cons first rest =>
    rw [unifyDeclarations] at h
    split at h
    next =>
      rw [Option.some_inj] at h
      rw [← h] at hknown
      cases hknown
    next hall =>
      rw [Bool.not_eq_true, List.any_eq_false] at hall
      intro declaration hmem
      have hdeclaration := hall declaration hmem
      rwa [Bool.not_eq_true, Option.isNone_eq_false_iff] at hdeclaration

/-- A position that accepts a variable as every operation declares it accepts it as they agree on
it. -/
theorem Usage.accepts_of_unify {context : Context} {operations : List Operation} {usage : Usage}
    {unified : Declaration}
    (h : (context.unify operations).declarations.get? usage.name = some unified)
    (hall : ∀ operation ∈ operations, ∀ declaration,
      (operation.declarations context.schema).get? usage.name = some declaration →
        usage.Accepts context.schema declaration) :
    usage.Accepts context.schema unified := by
  obtain ⟨-, hunify⟩ := Context.get?_unify_eq_some_iff.mp h
  intro type expected htype hexpected
  -- the unified type is known, so all declared types are, and unification is exact for them
  have hknown := isSome_type_of_unifyDeclarations hunify (by rw [htype]; rfl)
  have hinput : ∀ other ∈ declarationsOf context.schema operations usage.name,
      other.HasInputType context.schema :=
    fun other hother => hasInputType_of_mem_declarationsOf hother (hknown other hother)
  have hallows : unified.Allows context.schema expected usage.default.isSome := by
    rw [allows_iff_of_unifyDeclarations hinput hunify]
    intro other hother
    obtain ⟨operation, hoperation, hfound⟩ := List.mem_filterMap.mp hother
    obtain ⟨otherType, hotherType, -⟩ := hinput other hother
    exact ⟨otherType, hotherType,
      hall operation hoperation other hfound otherType expected hotherType hexpected⟩
  obtain ⟨unifiedType, hunifiedType, hallowed⟩ := hallows
  rw [htype, Option.some_inj] at hunifiedType
  rw [hunifiedType]
  exact hallowed

/-! ## Definitions without reports -/

namespace Context

variable {context : Context}

/-- There is nothing to report about an operation exactly if the positions of its uses accept its
variables. -/
theorem reports_operation_eq_nil_iff {operation : Operation} :
    context.reports (.operation operation) = [] ↔
      ∀ governed ∈ context.operationUsages operation, ∀ declaration,
        governed.declaration? = some declaration → declaration.isArgument = false →
          governed.usage.Accepts context.schema declaration := by
  rw [reports, List.filterMap_eq_nil_iff]
  refine forall₂_congr fun governed _ => ?_
  rw [reportInOperation?]
  cases hdeclaration : governed.declaration? with
  | none =>
    have hnone : governed.mismatch? context.schema = none := by
      rw [GovernedUsage.mismatch?_eq_none_iff, hdeclaration]
      intro declaration hnone
      cases hnone
    simp [hnone]
  | some declaration =>
    simp only [GovernedUsage.isOfArgument, hdeclaration, Option.any_some, Option.some_inj,
      forall_eq', ite_eq_left_iff, Option.map_eq_none_iff, Bool.not_eq_true,
      GovernedUsage.mismatch?_eq_none_iff]

/-- There is nothing to report about a fragment exactly if the positions of its uses accept its own
arguments, and the unified variables where it has no argument. -/
theorem reports_fragment_eq_nil_iff {fragment : Fragment} :
    context.reports (.fragment fragment) = [] ↔
      ∀ usage ∈ context.usages (some fragment.name.text) (.fragment fragment), ∀ declaration,
        ((fragment.declarations context.schema).get? usage.name).or
            ((context.unifiedVariables fragment.name.text).declarations.get? usage.name) =
          some declaration → usage.Accepts context.schema declaration := by
  rw [reports, List.filterMap_eq_nil_iff, fragmentUsages, List.forall_mem_map]
  refine forall₂_congr fun usage _ => ?_
  rw [reportInFragment?, Option.map_eq_none_iff, GovernedUsage.mismatch?_eq_none_iff,
    declaration?_govern, usage_govern]

/-- Positions in a fragment that accept the variables of all operations which use it accept the
variables that these agree on. -/
theorem accepts_unifiedVariables {fragment : Fragment} {usage : Usage}
    (hmem : fragment ∈ context.document.fragments)
    (hunique : context.document.UniqueFragmentNames)
    (husage : usage ∈ context.usages (some fragment.name.text) (.fragment fragment))
    (hown : (fragment.declarations context.schema).get? usage.name = none)
    (hoperations : ∀ operation ∈ context.document.operations,
      ∀ governed ∈ context.operationUsages operation, ∀ declaration,
        governed.declaration? = some declaration → declaration.isArgument = false →
          governed.usage.Accepts context.schema declaration)
    {unified : Declaration}
    (hunified : (context.unifiedVariables fragment.name.text).declarations.get? usage.name =
      some unified) : usage.Accepts context.schema unified := by
  refine Usage.accepts_of_unify hunified fun operation hoperation declaration hdeclaration => ?_
  rw [mem_operationsReaching_name_iff hunique hmem, ← mem_reached_iff] at hoperation
  obtain ⟨hdocument, hreached⟩ := hoperation
  have hgoverned := mem_operationUsages_of_reached hreached husage
  have haccepts := hoperations operation hdocument _ hgoverned declaration
  rw [declaration?_govern, hown, Option.none_or, usage_govern] at haccepts
  exact haccepts hdeclaration (Operation.isArgument_eq_false hdeclaration)

end Context

/-- Every use that a variable of an operation governs, in the operation or in a fragment that it
reaches, stands where it may, and so does every use that an argument of the fragment containing it
governs, as far as the types are known. -/
structure Context.PositionsAccept (context : Context) : Prop where
  inOperations : ∀ operation ∈ context.document.operations,
    ∀ governed ∈ context.operationUsages operation, ∀ declaration,
      governed.declaration? = some declaration → declaration.isArgument = false →
        governed.usage.Accepts context.schema declaration
  inFragments : ∀ fragment ∈ context.document.fragments,
    ∀ usage ∈ context.usages (some fragment.name.text) (.fragment fragment), ∀ declaration,
      (fragment.declarations context.schema).get? usage.name = some declaration →
        usage.Accepts context.schema declaration

/-- The rule for positions finds nothing in a document with unique fragment names exactly if all
positions accept the variables and arguments that govern them: neither the check of fragments with
unified variables nor leaving out what was reported before makes a difference to that. A check by the
rule alone gives the first part of what the rule finds, and all of it unless it stops early. -/
theorem findings_variablesInAllowedPosition_eq_nil_iff {context : Context}
    (hunique : context.document.UniqueFragmentNames) :
    let found :=
      (variablesInAllowedPosition context).findings (context.document.events context.schema)
    (found = [] ↔ context.PositionsAccept) ∧
    ∀ parts, let trail := context.trail [.relay .variablesInAllowedPosition parts]
      trail.findings <+: found ∧ (trail.aborted = false → trail.findings = found) := by
  intro found
  refine ⟨?_, fun parts => context.isPrefix_findings_trail_singleton _⟩
  simp only [found, Context.findings_variablesInAllowedPosition, fileReports_eq_nil_iff,
    List.flatMap_eq_nil_iff]
  constructor
  · intro h
    refine ⟨fun operation hoperation => ?_, fun fragment hfragment => ?_⟩
    · exact Context.reports_operation_eq_nil_iff.mp
        (h _ (Document.mem_operations_iff.mp hoperation))
    · intro usage husage declaration hown
      have hreports := Context.reports_fragment_eq_nil_iff.mp
        (h _ (Document.mem_fragments_iff.mp hfragment)) usage husage declaration
      rw [hown] at hreports
      exact hreports rfl
  · rintro ⟨hoperations, hfragments⟩ definition hdefinition
    cases definition with
    | operation operation =>
      rw [Context.reports_operation_eq_nil_iff]
      exact hoperations operation (Document.mem_operations_iff.mpr hdefinition)
    | fragment fragment =>
      rw [Context.reports_fragment_eq_nil_iff]
      have hfragment := Document.mem_fragments_iff.mpr hdefinition
      intro usage husage declaration hgoverns
      cases hown : (fragment.declarations context.schema).get? usage.name with
      | some own =>
        rw [hown, Option.some_or, Option.some_inj] at hgoverns
        exact hgoverns ▸ hfragments fragment hfragment usage husage own hown
      | none =>
        -- a variable of the operations that use the fragment, each of which reaches this use
        rw [hown, Option.none_or] at hgoverns
        exact Context.accepts_unifiedVariables hfragment hunique husage hown hoperations hgoverns
    | schema | schemaExtension | type | typeExtension | directive => rfl

/-! ## Pictures -/

/-- A schema with pictures of a size that has to be given. -/
def pictureSchema : Schema where
  types := [⟨"Int", .scalar⟩, ⟨"Query", .object [] [⟨"picture",
    [⟨"size", .nonNull (.named "Int"), none, none, false⟩], .named "Int"⟩]⟩]
  directives := []
  query := some "Query"
  mutation := none
  subscription := none

/-- The query `query Name($size: type) { ...Fragment }`, on a line of its own. -/
def pictureQuery (name fragment : String) (type : TypeRef Name) (line : Nat) : Operation where
  kind := .query
  name := some ⟨name, ⟨line, 7⟩⟩
  variableDefinitions :=
    [⟨⟨"size", ⟨line, 10⟩⟩, ⟨line, 9⟩, type, ⟨line, 16⟩, none, [], ⟨line, 9⟩⟩]
  directives := []
  selections := [.spread ⟨⟨fragment, ⟨line, 28⟩⟩, [], ⟨line, 25⟩⟩]
  pos := ⟨line, 1⟩

/-- The fragment `fragment Name on Query { picture(size: $size) }`, on a line of its own. -/
def pictureFragment (name : String) (line : Nat) : Fragment where
  name := ⟨name, ⟨line, 10⟩⟩
  typeCondition := ⟨"Query", ⟨line, 15⟩⟩
  directives := []
  selections := [.field ⟨none, ⟨"picture", ⟨line, 23⟩⟩,
    [⟨⟨"size", ⟨line, 31⟩⟩, .variable ⟨"size", ⟨line, 38⟩⟩ ⟨line, 37⟩⟩], [], ⟨line, 23⟩,
    ⟨line, 23⟩⟩ []]
  pos := ⟨line, 1⟩

/-- The fragment `fragment P on Query @argumentDefinitions(size: {type: "Int!"})` with a picture of
this size. -/
def sizedFragment : Fragment :=
  { pictureFragment "P" 2 with
    directives := [⟨⟨argumentDefinitionsName, ⟨2, 22⟩⟩, [⟨⟨"size", ⟨2, 42⟩⟩,
      .object [(⟨typeKey, ⟨2, 49⟩⟩, .string "Int!" false ⟨2, 55⟩)] ⟨2, 48⟩⟩], ⟨2, 21⟩⟩] }

/-- Two queries use one fragment. The picture's size has to be given, which one of them does not
see to: the rule finds that, and so not all positions accept what governs them. -/
theorem findings_variablesInAllowedPosition_eq_nil_iff_picture :
    let size (column : Nat) : TypeRef Name := .named ⟨"Int", ⟨1, column⟩⟩
    let context := Context.ofDocument pictureSchema ⟨[
      .operation (pictureQuery "A" "P" (.nonNull (size 1)) 1),
      .operation (pictureQuery "B" "P" (size 2) 2),
      .fragment (pictureFragment "P" 3)]⟩
    context.document.UniqueFragmentNames ∧
      (variablesInAllowedPosition context).findings
        (context.document.events context.schema) ≠ [] ∧
      ¬context.PositionsAccept := by
  intro size context
  have hunique : context.document.UniqueFragmentNames := by decide
  have hfound : ((variablesInAllowedPosition context).findings
      (context.document.events context.schema)).length = 1 := by cbv
  have hne : (variablesInAllowedPosition context).findings
      (context.document.events context.schema) ≠ [] :=
    List.ne_nil_of_length_pos (by rw [hfound]; decide)
  exact ⟨hunique, hne, fun haccept =>
    hne ((findings_variablesInAllowedPosition_eq_nil_iff hunique).1.mpr haccept)⟩

end RelayCheck
