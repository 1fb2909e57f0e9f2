import RelayCheck.Proofs.FragmentArguments.RequiredArguments
import RelayCheck.Proofs.Validation.Quiet

/-!
# Types of declared arguments

A fragment states the types of its arguments as texts. A text that cannot be read, or names no type
of the schema, leaves the argument without a type, so that nothing is checked against it. The rule
for argument names reports such texts. It does not ask for an input type, though: an argument whose
type is an object, interface or union is not reported, and has no type either.

The main result is `Schema.written_known_of_check`: if a document is checked without errors, the
types of all arguments are types of the schema, and those that have none are not input types.
-/

namespace RelayCheck

variable {schema : Schema}

/-! ## What is stated -/

/-- A type is an input type, or fields can be selected of it, but not both. -/
theorem NamedType.isComposite_iff (type : NamedType) :
    type.isComposite = true ↔ type.isInput = false := by
  obtain ⟨name, shape⟩ := type
  cases shape <;> simp [isComposite, isInput]

/-- A stated type in which nothing is wrong can be read, and names a type of the schema. -/
theorem exists_statedType?_of_quiet {value : Value}
    (hquiet : ∀ finding ∈ statedTypeFindings schema value, finding.diagnostic? = none) :
    ∃ type base, statedType? value = some type ∧ schema.type? type.baseName = some base := by
  -- every way not to state a known type is an error
  cases value with
  | string content block pos =>
    cases hparse : TypeRef.parse content with
    | error error =>
      rw [statedTypeFindings, hparse] at hquiet
      cases hquiet _ List.mem_cons_self
    | ok type =>
      have hstated : statedType? (.string content block pos) = some type := by
        rw [statedType?, hparse]
        rfl
      cases hbase : schema.type? type.baseName with
      | none =>
        simp only [statedTypeFindings, hparse, hbase] at hquiet
        cases hquiet _ List.mem_cons_self
      | some base => exact ⟨type, base, hstated, hbase⟩
  | _ => cases hquiet _ List.mem_cons_self

/-- The declaration of an argument in which nothing is wrong states a type of the schema. -/
theorem exists_written_of_quiet {argument : Argument}
    (hquiet : ∀ finding ∈ declarationFindings schema argument, finding.diagnostic? = none) :
    ∃ type base, (Declaration.ofArgument schema argument).written = some type ∧
      schema.type? type.baseName = some base := by
  rw [declarationFindings] at hquiet
  cases hfield : (argument.value.objectFields?.getD []).find? fun field =>
      field.1.text == typeKey with
  | none =>
    have hmissing : metadata? (argument.value.objectFields?.getD []) typeKey = none := by
      rw [metadata?, hfield, Option.map_none]
    simp only [hmissing] at hquiet
    cases hquiet _ List.mem_cons_self
  | some field =>
    obtain ⟨key, value⟩ := field
    have hstated : metadata? (argument.value.objectFields?.getD []) typeKey = some value := by
      rw [metadata?, hfield, Option.map_some]
    have hkey : (key.text == typeKey) = true :=
      List.find?_some (p := fun field : Name × Value => field.1.text == typeKey) hfield
    simp only [hstated, Option.isNone_some, Bool.false_eq_true, if_false] at hquiet
    -- every field of the object is looked at, and so is this one
    have hvalue : ∀ finding ∈ statedTypeFindings schema value, finding.diagnostic? = none := by
      intro finding hfinding
      refine hquiet finding (List.mem_flatMap.mpr ⟨_, List.mem_of_find?_eq_some hfield, ?_⟩)
      rw [metadataFieldFindings]
      simpa only [hkey, if_true] using hfinding
    obtain ⟨type, base, htype, hbase⟩ := exists_statedType?_of_quiet hvalue
    refine ⟨type, base, ?_, hbase⟩
    rw [Declaration.ofArgument, hstated, Option.bind_some, htype]

/-- An argument of a type of the schema has this type, if it is an input type, and otherwise
none. -/
theorem Declaration.type_ofArgument {argument : Argument} {type : TypeRef String} {base : NamedType}
    (hwritten : (ofArgument schema argument).written = some type)
    (hbase : schema.type? type.baseName = some base) :
    (ofArgument schema argument).type = if base.isInput then some type else none := by
  have htype : (ofArgument schema argument).type =
      (ofArgument schema argument).written.bind schema.inputType? := rfl
  rw [htype, hwritten, Option.bind_some, Schema.inputType?, Schema.baseIs, hbase, Option.any_some]

/-! ## What is declared -/

/-- The walk of a document contains the walk of every directive on every fragment in one piece. -/
theorem Document.exists_directiveEvents_infix_of_fragment (schema : Schema) {document : Document}
    {fragment : Fragment} (hfragment : fragment ∈ document.fragments) {use : DirectiveUse}
    (huse : use ∈ (Carrier.fragment fragment).uses fragment.directives) :
    ∃ scope, use.events schema scope <:+: document.events schema := by
  let scope := Scope.enterFragment schema {} (some fragment.typeCondition)
  have hparts : use.events schema scope <:+:
      typeNameEvents scope [fragment.typeCondition]
        ++ directiveEvents schema scope (.fragment fragment) fragment.directives
        ++ selectionEvents schema (scope.enterSelections schema) fragment.selections :=
    (infix_flatMap_of_mem _ huse).trans (List.infix_append _ _ _)
  have houter : fragment.events schema <:+: document.events schema :=
    (infix_flatMap_of_mem (Definition.events schema) (mem_fragments_iff.mp hfragment)).trans
      (infix_around _ _ _)
  exact ⟨scope, hparts.trans ((infix_around _ _ _).trans houter)⟩

/-- The walk of a document enters every directive on every fragment. -/
theorem Document.exists_enter_directive_of_fragment (schema : Schema) {document : Document}
    {fragment : Fragment} (hfragment : fragment ∈ document.fragments) {use : DirectiveUse}
    (huse : use ∈ (Carrier.fragment fragment).uses fragment.directives) :
    ∃ scope, .enter ⟨.directive use, scope⟩ ∈ document.events schema := by
  obtain ⟨scope, hscope⟩ := exists_directiveEvents_infix_of_fragment schema hfragment huse
  exact ⟨scope.enterDirective schema use, hscope.subset List.mem_cons_self⟩

section Rule

variable {suggest : Suggest} {check : ArgumentCheck} {context : Context} {fragment : Fragment}

/-- If the rule for argument names finds no error, nothing is wrong with any argument that a
fragment declares. -/
theorem declarationFindings_of_quiet
    (hquiet : (knownFragmentArguments suggest check context).IsQuiet
      (context.document.events context.schema))
    (hfragment : fragment ∈ context.document.fragments) {declaring : List Argument}
    (hdeclaring : fragment.declaringArguments? = some declaring) {argument : Argument}
    (hargument : argument ∈ declaring) :
    ∀ finding ∈ declarationFindings context.schema argument, finding.diagnostic? = none := by
  obtain ⟨directive, hfound, rfl⟩ := Option.map_eq_some_iff.mp hdeclaring
  have hname : (directive.name.text == argumentDefinitionsName) = true :=
    List.find?_some (p := fun directive : Directive =>
      directive.name.text == argumentDefinitionsName) hfound
  obtain ⟨index, huse⟩ :=
    (Carrier.fragment fragment).exists_mem_uses (List.mem_of_find?_eq_some hfound)
  obtain ⟨scope, hvisit⟩ :=
    Document.exists_enter_directive_of_fragment context.schema hfragment huse
  have hdirective := Rule.IsQuiet.onEnter hquiet hvisit
  intro finding hfinding
  refine hdirective finding (List.mem_append_left _ ?_)
  simp only [fragmentArgumentFindings, hname, if_true, metadataFindings]
  rw [if_neg (by simpa using List.ne_nil_of_mem hargument)]
  exact List.mem_flatMap.mpr ⟨argument, hargument, hfinding⟩

/-- If the rule for argument names finds no error, every argument that a fragment declares is of a
type of the schema. It has this type exactly if it is an input type, and none exactly if fields can
be selected of it. -/
theorem written_known_of_quiet
    (hquiet : (knownFragmentArguments suggest check context).IsQuiet
      (context.document.events context.schema))
    (hfragment : fragment ∈ context.document.fragments) {name : String} {declaration : Declaration}
    (hget : (fragment.declarations context.schema).get? name = some declaration) :
    ∃ type base, declaration.written = some type ∧
      context.schema.type? type.baseName = some base ∧
      (declaration.type = some type ↔ base.isInput = true) ∧
      (declaration.type = none ↔ base.isComposite = true) := by
  obtain ⟨argument, hargument, hpair⟩ := List.mem_map.mp (NameMap.mem_of_get?_ofList hget)
  injection hpair with _ hdeclaration
  -- the declaration comes from one of the arguments that the rule has looked at
  cases hdeclaring : fragment.declaringArguments? with
  | none =>
    rw [hdeclaring] at hargument
    cases hargument
  | some declaring =>
    rw [hdeclaring] at hargument
    obtain ⟨type, base, hwritten, hbase⟩ := exists_written_of_quiet
      (declarationFindings_of_quiet hquiet hfragment hdeclaring hargument)
    have htype := Declaration.type_ofArgument hwritten hbase
    rw [hdeclaration] at hwritten htype
    refine ⟨type, base, hwritten, hbase, ?_, ?_⟩
    · simp [htype]
    · simp [htype, base.isComposite_iff]

end Rule

/-- If a document is checked with the standard rules and without errors, whatever rules are supplied
from elsewhere, every argument of every fragment states a type that can be read and is one of the
schema. The argument has this type exactly if it is an input type, and has none, so that nothing is
checked against it, exactly if it is an object type, an interface or a union. -/
theorem Schema.written_known_of_check {document : Document} {compat : Bool} {supply : Supply}
    {outcome : Outcome} (hcheck : schema.check document (standardRules compat supply) = .ok outcome)
    (hquiet : outcome.errors = []) {fragment : Fragment} (hfragment : fragment ∈ document.fragments)
    {name : String} {declaration : Declaration}
    (hget : (fragment.declarations schema).get? name = some declaration) :
    ∃ type base, declaration.written = some type ∧ schema.type? type.baseName = some base ∧
      (declaration.type = some type ↔ base.isInput = true) ∧
      (declaration.type = none ↔ base.isComposite = true) := by
  let context := Context.ofDocument schema.withRelayDirectives document
  have halways : RelayRule.knownArgumentNames ∈ RelayRule.always := by decide
  have hrule : (RelayRule.knownArgumentNames.rule {} context).IsQuiet
      (context.document.events context.schema) :=
    Schema.isQuiet_of_check hcheck hquiet (mem_standardRules_of_relay compat supply halways)
  -- the directives that are added to the schema bring no types
  exact written_known_of_quiet hrule hfragment hget

/-! ## An argument without a type -/

/-- The fragment `fragment P on Query @argumentDefinitions(size: {type: "Query"})` with a picture of
this size. -/
def querySizeFragment : Fragment :=
  { pictureFragment "P" 2 with
    directives := [⟨⟨argumentDefinitionsName, ⟨2, 22⟩⟩, [⟨⟨"size", ⟨2, 42⟩⟩,
      .object [(⟨typeKey, ⟨2, 49⟩⟩, .string "Query" false ⟨2, 55⟩)] ⟨2, 48⟩⟩], ⟨2, 21⟩⟩] }

/-- The query `query A($size: Int) { ...P @arguments(size: 1) }`. -/
def givenSizeQuery : Operation :=
  { pictureQuery "A" "P" (.named ⟨"Int", ⟨1, 16⟩⟩) 1 with
    selections := [.spread ⟨⟨"P", ⟨1, 26⟩⟩, [⟨⟨argumentsName, ⟨1, 29⟩⟩,
      [⟨⟨"size", ⟨1, 39⟩⟩, .int "1" ⟨1, 45⟩⟩], ⟨1, 28⟩⟩], ⟨1, 23⟩⟩] }

/-- The query, followed by the fragment. -/
def querySizeDocument : Document :=
  ⟨[.operation givenSizeQuery, .fragment querySizeFragment]⟩

/-- What a rule finds about the document. -/
def querySizeFindings (name : RuleName) : List Finding :=
  (name.rule (.ofDocument pictureSchema.withRelayDirectives querySizeDocument)).findings
    (querySizeDocument.events pictureSchema.withRelayDirectives)

/-- No rule for fragment arguments finds anything. -/
theorem querySizeFindings_relay {rule : RelayRule} (hrule : rule ∈ RelayRule.always) :
    querySizeFindings (.relay rule {}) = [] := by
  cases rule with
  | knownVariableNames | variablesInAllowedPosition => cbv
  | knownArgumentNames | argumentsOfCorrectType | defaultsOfCorrectType | noUnusedArguments
  | requiredPageInfoFields => exact List.isEmpty_iff.mp (by decide +kernel)
  | missingConnectionDirective => exact absurd hrule (by decide)

/-- No rule that holds for all documents finds anything. -/
theorem querySizeFindings_language {rule : LanguageRule} (hrule : rule ∈ LanguageRule.all) :
    querySizeFindings (.language rule {}) = [] := by
  have hfragments : querySizeFindings (.language .noUnusedFragments {}) = [] := by cbv
  have hvariables : querySizeFindings (.language .noUnusedVariables {}) = [] := by cbv
  have hothers : ∀ rule ∈ LanguageRule.all, rule ≠ .noUnusedFragments →
      rule ≠ .noUnusedVariables →
        (querySizeFindings (.language rule {})).isEmpty = true := by decide +kernel
  by_cases hfragment : rule = .noUnusedFragments
  · exact hfragment ▸ hfragments
  · by_cases hvariable : rule = .noUnusedVariables
    · exact hvariable ▸ hvariables
    · exact List.isEmpty_iff.mp (hothers rule hrule hfragment hvariable)

/-- The document is checked without errors. -/
theorem exists_check_querySizeDocument :
    ∃ outcome, pictureSchema.check querySizeDocument (standardRules false) = .ok outcome ∧
      outcome.errors = [] := by
  have hroom : ((Context.fresh pictureSchema.withRelayDirectives querySizeDocument).searchAll?
      querySizeDocument.operations).isSome = true := by cbv
  refine Schema.exists_check_of_isQuiet hroom (by decide +kernel) fun name hname => ?_
  suffices hnothing : querySizeFindings name = [] by
    show ∀ finding ∈ querySizeFindings name, _
    rw [hnothing]
    exact List.forall_mem_nil _
  rcases List.mem_append.mp hname with hmem | hmem
  · obtain ⟨rule, hrule, rfl⟩ := List.mem_map.mp hmem
    exact querySizeFindings_relay (by simpa using hrule)
  · obtain ⟨rule, hrule, rfl⟩ := List.mem_map.mp hmem
    exact querySizeFindings_language hrule

/-- The fragment declares its size, which has no type. -/
theorem exists_get?_querySizeFragment :
    ∃ declaration, (querySizeFragment.declarations pictureSchema).get? "size" =
      some declaration ∧ declaration.type = none := by
  have hsize : ((querySizeFragment.declarations pictureSchema).get? "size").any
      (fun declaration => declaration.type.isNone) = true := by decide +kernel
  obtain ⟨declaration, hget, hnone⟩ := (Option.any_eq_true _ _).mp hsize
  exact ⟨declaration, hget, Option.isNone_iff_eq_none.mp hnone⟩

/-- The size of the picture is a `Query`, which is no input type, and so it has no type. -/
theorem Schema.written_known_of_check_querySize :
    ∃ outcome declaration,
      pictureSchema.check querySizeDocument (standardRules false) = .ok outcome ∧
      outcome.errors = [] ∧ querySizeFragment ∈ querySizeDocument.fragments ∧
      (querySizeFragment.declarations pictureSchema).get? "size" = some declaration ∧
      ∃ type base, declaration.written = some type ∧
        pictureSchema.type? type.baseName = some base ∧
        (declaration.type = some type ↔ base.isInput = true) ∧
        (declaration.type = none ↔ base.isComposite = true) := by
  obtain ⟨outcome, hcheck, hquiet⟩ := exists_check_querySizeDocument
  obtain ⟨declaration, hget, -⟩ := exists_get?_querySizeFragment
  have hmem : querySizeFragment ∈ querySizeDocument.fragments := List.mem_singleton_self _
  exact ⟨outcome, declaration, hcheck, hquiet, hmem, hget,
    Schema.written_known_of_check hcheck hquiet hmem hget⟩

/-- Not every argument has a type in a document that is checked without errors: the size of the
picture has none. -/
theorem Schema.not_isSome_type_of_check_querySize :
    ¬∀ outcome, pictureSchema.check querySizeDocument (standardRules false) = .ok outcome →
      outcome.errors = [] → ∀ fragment ∈ querySizeDocument.fragments, ∀ name declaration,
        (fragment.declarations pictureSchema).get? name = some declaration →
          declaration.type.isSome = true := by
  intro hclaim
  obtain ⟨outcome, hcheck, hquiet⟩ := exists_check_querySizeDocument
  obtain ⟨declaration, hget, hnone⟩ := exists_get?_querySizeFragment
  have hsome := hclaim outcome hcheck hquiet querySizeFragment (List.mem_singleton_self _) "size"
    declaration hget
  rw [hnone] at hsome
  cases hsome

end RelayCheck
