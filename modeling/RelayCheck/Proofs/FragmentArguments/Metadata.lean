import RelayCheck.Proofs.FragmentArguments.DeclaredTypes
import RelayCheck.Proofs.FragmentArguments.GivenArguments
import RelayCheck.Proofs.Language.Constants
import RelayCheck.Proofs.Validation.Directives

/-!
# What declares arguments well

A fragment declares its arguments with objects. Two readers look at these: the rule for names of
arguments looks at all fields of all objects, and reports what is wrong with each; the declarations
are read off the first field of each key, and off the last object for each name. What the rule finds
nothing wrong with, the declarations have understood, and where they have not understood a type, the
rule has an error.

The module introduces:

- `Schema.ReadsField` and `Schema.ReadsDeclaration`, the fields and objects that declare an argument
  as they should;
- `Fragment.declaringUse?`, the directive with which a fragment declares its arguments.

The main result is `Context.errors_of_declaresArguments`.
-/

namespace RelayCheck

/-! ## Declarations that can be read -/

/-- A field of an object that declares an argument states a type of the schema, in a string that
can be read, or a default without variables. -/
inductive Schema.ReadsField (schema : Schema) : Name × Value → Prop
  | type {key : Name} {content : String} {block : Bool} {pos : Position} {type : TypeRef String}
      (hkey : key.text = typeKey) (hparse : TypeRef.parse content = .ok type)
      (hknown : (schema.type? type.baseName).isSome = true) :
      schema.ReadsField (key, .string content block pos)
  | default {key : Name} {value : Value} (hkey : key.text = defaultKey)
      (hconstant : value.IsConstant) : schema.ReadsField (key, value)

/-- An argument is declared by an object that states its type, and perhaps its default, and nothing
else. -/
def Schema.ReadsDeclaration (schema : Schema) (argument : Argument) : Prop :=
  ∃ fields pos, argument.value = .object fields pos ∧
    (∃ field ∈ fields, field.1.text = typeKey) ∧ ∀ field ∈ fields, schema.ReadsField field

/-- Where an argument states its type: at the value of its first type key, and, if it has none, at
its own value. -/
def Argument.typePlace (argument : Argument) : Position :=
  ((metadata? (argument.value.objectFields?.getD []) typeKey).getD argument.value).pos

section Readers

variable {schema : Schema} {value : Value} {field : Name × Value} {argument : Argument}
  {directive : Directive}

/-- The key of a type is not that of a default. -/
theorem typeKey_ne_defaultKey : typeKey ≠ defaultKey := by
  decide

/-- Nothing is wrong with a stated type exactly if it is a string that names a type of the
schema. -/
theorem statedTypeFindings_eq_nil_iff :
    statedTypeFindings schema value = [] ↔ ∃ content block pos type,
      value = .string content block pos ∧ TypeRef.parse content = .ok type ∧
        (schema.type? type.baseName).isSome = true := by
  cases value with
  | string content block pos =>
    rw [statedTypeFindings]
    cases hparse : TypeRef.parse content with
    | error error => simp [hparse]
    | ok type => cases hknown : (schema.type? type.baseName).isSome <;> simp [hparse, hknown]
  | _ => simp [statedTypeFindings]

/-- Nothing is wrong with a field exactly if it can be read. -/
theorem metadataFieldFindings_eq_nil_iff :
    metadataFieldFindings schema field = [] ↔ schema.ReadsField field := by
  obtain ⟨key, value⟩ := field
  rw [metadataFieldFindings]
  -- the two keys differ, so that each field can be read in one way at most
  by_cases htype : key.text = typeKey
  · have hdefault : key.text ≠ defaultKey := fun h => typeKey_ne_defaultKey (htype.symm.trans h)
    rw [if_pos (beq_iff_eq.mpr htype), statedTypeFindings_eq_nil_iff]
    constructor
    · rintro ⟨content, block, pos, type, rfl, hparse, hknown⟩
      exact .type htype hparse hknown
    · rintro (⟨-, hparse, hknown⟩ | ⟨hkey, -⟩)
      · exact ⟨_, _, _, _, rfl, hparse, hknown⟩
      · exact absurd hkey hdefault
  · rw [if_neg (mt beq_iff_eq.mp htype)]
    by_cases hdefault : key.text = defaultKey
    · rw [if_pos (beq_iff_eq.mpr hdefault)]
      trans value.IsConstant
      · rw [← Value.hasVariable_eq_false_iff]
        cases value.hasVariable <;> simp
      · constructor
        · exact .default hdefault
        · rintro (⟨hkey, -, -⟩ | ⟨-, hconstant⟩)
          · exact absurd hkey htype
          · exact hconstant
    · rw [if_neg (mt beq_iff_eq.mp hdefault)]
      constructor
      · rintro ⟨⟩
      · rintro (⟨hkey, -, -⟩ | ⟨hkey, -⟩)
        · exact absurd hkey htype
        · exact absurd hkey hdefault

/-- A key has no value exactly if no field has the key. -/
theorem metadata?_eq_none_iff {fields : List (Name × Value)} {key : String} :
    metadata? fields key = none ↔ ∀ field ∈ fields, field.1.text ≠ key := by
  rw [metadata?, Option.map_eq_none_iff, List.find?_eq_none]
  simp only [beq_iff_eq, ne_eq]

/-- Nothing is wrong with the declaration of an argument exactly if it can be read. -/
theorem declarationFindings_eq_nil_iff :
    declarationFindings schema argument = [] ↔ schema.ReadsDeclaration argument := by
  cases hvalue : argument.value with
  | object fields pos =>
    have hfields : declarationFindings schema argument =
        if (metadata? fields typeKey).isNone then [.relay .invalidMetadata [argument.value.pos]]
        else fields.flatMap (metadataFieldFindings schema) := by
      rw [declarationFindings, hvalue]
      rfl
    rw [hfields]
    -- without a type key, the fields are not looked at
    by_cases hstated : ∃ field ∈ fields, field.1.text = typeKey
    · have hsome : ¬(metadata? fields typeKey).isNone = true := by
        rw [Option.isNone_iff_eq_none, metadata?_eq_none_iff]
        push Not
        exact hstated
      rw [if_neg hsome, List.flatMap_eq_nil_iff]
      simp only [metadataFieldFindings_eq_nil_iff]
      constructor
      · exact fun h => ⟨fields, pos, hvalue, hstated, h⟩
      · rintro ⟨_, _, hobject, -, h⟩
        cases hvalue.symm.trans hobject
        exact h
    · have hnone : (metadata? fields typeKey).isNone = true := by
        rw [Option.isNone_iff_eq_none, metadata?_eq_none_iff]
        push Not at hstated
        exact hstated
      rw [if_pos hnone]
      constructor
      · rintro ⟨⟩
      · rintro ⟨_, _, hobject, hfield, -⟩
        cases hvalue.symm.trans hobject
        exact absurd hfield hstated
  | _ => simp [declarationFindings, Schema.ReadsDeclaration, hvalue, Value.objectFields?, metadata?]

/-- Nothing is wrong with a directive that declares arguments exactly if all of them can be read. -/
theorem metadataFindings_eq_nil_iff (hsome : directive.arguments ≠ []) :
    metadataFindings schema directive = [] ↔
      ∀ argument ∈ directive.arguments, schema.ReadsDeclaration argument := by
  rw [metadataFindings, if_neg (mt List.isEmpty_iff.mp hsome), List.flatMap_eq_nil_iff]
  simp only [declarationFindings_eq_nil_iff]

/-! ## Errors about declarations -/

/-- What is wrong with a stated type is a breach of the rules for fragment arguments. -/
theorem exists_relay_of_mem_statedTypeFindings {finding : Finding}
    (h : finding ∈ statedTypeFindings schema value) :
    ∃ problem places, finding = .relay problem places := by
  unfold statedTypeFindings at h
  split at h
  · split at h
    · exact ⟨_, _, List.mem_singleton.mp h⟩
    · split at h
      · cases h
      · exact ⟨_, _, List.mem_singleton.mp h⟩
  · exact ⟨_, _, List.mem_singleton.mp h⟩

/-- What is wrong with a field of a declaration is such a breach. -/
theorem exists_relay_of_mem_metadataFieldFindings {finding : Finding}
    (h : finding ∈ metadataFieldFindings schema field) :
    ∃ problem places, finding = .relay problem places := by
  obtain ⟨key, value⟩ := field
  rw [metadataFieldFindings] at h
  split at h
  · exact exists_relay_of_mem_statedTypeFindings h
  · split at h
    · split at h
      · exact ⟨_, _, List.mem_singleton.mp h⟩
      · cases h
    · exact ⟨_, _, List.mem_singleton.mp h⟩

/-- What is wrong with a directive that declares arguments is such a breach. -/
theorem exists_relay_of_mem_metadataFindings {finding : Finding}
    (h : finding ∈ metadataFindings schema directive) :
    ∃ problem places, finding = .relay problem places := by
  rw [metadataFindings] at h
  split at h
  · exact ⟨_, _, List.mem_singleton.mp h⟩
  · obtain ⟨argument, -, hargument⟩ := List.mem_flatMap.mp h
    rw [declarationFindings] at hargument
    split at hargument
    · exact ⟨_, _, List.mem_singleton.mp hargument⟩
    · obtain ⟨field, -, hfield⟩ := List.mem_flatMap.mp hargument
      exact exists_relay_of_mem_metadataFieldFindings hfield

/-- Something is wrong with a stated type that cannot be read. -/
theorem exists_mem_statedTypeFindings (schema : Schema) (hstated : statedType? value = none) :
    ∃ problem, Finding.relay problem [value.pos] ∈ statedTypeFindings schema value := by
  cases value with
  | string content block pos =>
    cases hparse : TypeRef.parse content with
    | error error =>
      rw [statedTypeFindings, hparse]
      exact ⟨_, List.mem_singleton_self _⟩
    | ok type =>
      rw [statedType?, hparse] at hstated
      cases hstated
  | _ => exact ⟨_, List.mem_singleton_self _⟩

/-- There is an error where an argument states its type, if the type is not understood. -/
theorem exists_mem_declarationFindings
    (hwritten : (Declaration.ofArgument schema argument).written = none) :
    ∃ problem, Finding.relay problem [argument.typePlace] ∈
      declarationFindings schema argument := by
  rw [Declaration.ofArgument] at hwritten
  dsimp only at hwritten
  rw [declarationFindings, Argument.typePlace]
  cases hstated : metadata? (argument.value.objectFields?.getD []) typeKey with
  | none => exact ⟨_, List.mem_singleton_self _⟩
  | some value =>
    rw [hstated, Option.bind_some] at hwritten
    obtain ⟨problem, hproblem⟩ := exists_mem_statedTypeFindings schema hwritten
    -- the first type key is one of the fields, and all fields are looked at
    obtain ⟨⟨key, _⟩, hfield, rfl⟩ := Option.map_eq_some_iff.mp hstated
    have hkey : (key.text == typeKey) = true :=
      List.find?_some (p := fun field : Name × Value => field.1.text == typeKey) hfield
    refine ⟨problem, List.mem_flatMap.mpr ⟨_, List.mem_of_find?_eq_some hfield, ?_⟩⟩
    rwa [metadataFieldFindings, if_pos hkey]

end Readers

/-! ## The directive that declares arguments -/

/-- The directive with which a fragment declares its arguments, the first of its name. -/
def Fragment.declaringUse? (fragment : Fragment) : Option DirectiveUse :=
  ((Carrier.fragment fragment).uses fragment.directives).find? fun use =>
    use.directive.name.text == argumentDefinitionsName

section Declaring

variable {fragment : Fragment} {use : DirectiveUse}

/-- A fragment declares the arguments of this directive. -/
theorem Fragment.declaringArguments?_eq_map (fragment : Fragment) :
    fragment.declaringArguments? =
      fragment.declaringUse?.map fun use => use.directive.arguments := by
  rw [declaringArguments?, ← (Carrier.fragment fragment).map_directive_uses fragment.directives,
    List.find?_map, Option.map_map, declaringUse?]
  rfl

/-- At the directive with which a fragment declares arguments, the rule for names of arguments
finds what is wrong with the declarations. -/
theorem findings_knownFragmentArguments_declaring (suggest : Suggest) (context : Context)
    (scope : Scope) (huse : fragment.declaringUse? = some use) :
    (knownFragmentArguments suggest LanguageRules.unknownArguments context).findings
        (use.events context.schema scope) = metadataFindings context.schema use.directive := by
  have hname : (use.directive.name.text == argumentDefinitionsName) = true :=
    List.find?_some (p := fun use : DirectiveUse =>
      use.directive.name.text == argumentDefinitionsName) huse
  rw [findings_knownFragmentArguments_directive, Context.directiveFindings, if_pos hname]

/-- What a fragment declares of a name is what the last argument of the name does. -/
theorem Fragment.exists_mem_of_get?_declarations {schema : Schema} {name : String}
    {declaration : Declaration} (huse : fragment.declaringUse? = some use)
    (hget : (fragment.declarations schema).get? name = some declaration) :
    ∃ argument ∈ use.directive.arguments, fragment.lastDeclaring? name = some argument ∧
      Declaration.ofArgument schema argument = declaration := by
  rw [fragment.get?_declarations] at hget
  obtain ⟨argument, hlast, hdeclaration⟩ := Option.map_eq_some_iff.mp hget
  refine ⟨argument, ?_, hlast, hdeclaration⟩
  have hmem := List.mem_reverse.mp (List.mem_of_find?_eq_some hlast)
  rwa [fragment.declaringArguments?_eq_map, huse] at hmem

end Declaring

/-- Take the directive with which a fragment declares its arguments, and let there be some. Its walk
is one piece of that of the document, and what the rule for names of arguments finds there is errors
only. It finds none exactly if every argument is declared by an object that states its type, in
strings that can be read and name types of the schema, that may state defaults without variables,
and that states nothing else. Then all types of arguments are known. And wherever the type of an
argument is not understood, there is an error at that argument. -/
theorem Context.errors_of_declaresArguments (suggest : Suggest) {context : Context}
    {fragment : Fragment} (hfragment : fragment ∈ context.document.fragments) {use : DirectiveUse}
    (huse : fragment.declaringUse? = some use) (hsome : use.directive.arguments ≠ []) :
    let rule := knownFragmentArguments suggest LanguageRules.unknownArguments context
    let walk := context.document.events context.schema
    let declared (name : String) := (fragment.declarations context.schema).get? name
    (∃ before scope after, walk = before ++ use.events context.schema scope ++ after ∧
      rule.findings walk = rule.findings before ++
        rule.findings (use.events context.schema scope) ++ rule.findings after) ∧
    (context.document.isTooDeep = false →
      (context.trail [.relay .knownArgumentNames { suggest }]).findings = rule.findings walk) ∧
    ∀ scope, let found := rule.findings (use.events context.schema scope)
      (∀ finding ∈ found, ∃ problem places, finding = .relay problem places) ∧
      (found = [] ↔ ∀ argument ∈ use.directive.arguments,
        context.schema.ReadsDeclaration argument) ∧
      (found = [] → ∀ name declaration, declared name = some declaration →
        ∃ type, declaration.written = some type ∧
          (context.schema.type? type.baseName).isSome = true) ∧
      ∀ name declaration, declared name = some declaration → declaration.written = none →
        ∃ argument problem, fragment.lastDeclaring? name = some argument ∧
          .relay problem [argument.typePlace] ∈ found := by
  intro rule walk declared
  refine ⟨?_, fun hdeep => ?_, fun scope => ?_⟩
  · obtain ⟨scope, before, after, hevents⟩ :=
      Document.exists_directiveEvents_infix_of_fragment context.schema hfragment
        (List.mem_of_find?_eq_some huse)
    -- the rule keeps nothing in mind, so that pieces of a walk can be looked at one by one
    have happend : rule.IsMemoryless :=
      RelayRule.isMemoryless (by decide : RelayRule.knownArgumentNames ≠ _) suggest denotesValue
        context
    refine ⟨before, scope, after, hevents.symm, ?_⟩
    rw [← happend.append, ← happend.append, hevents]
  · exact congrArg Trail.findings
      (Context.trail_singleton_eq_events (by decide) (by decide) _ hdeep)
  · intro found
    have hfound : found = metadataFindings context.schema use.directive :=
      findings_knownFragmentArguments_declaring suggest context scope huse
    have hdeclared : found = use.directive.arguments.flatMap (declarationFindings context.schema) :=
      hfound.trans (if_neg (mt List.isEmpty_iff.mp hsome))
    refine ⟨fun finding hfinding => ?_, ?_, fun hnone name declaration hget => ?_,
      fun name declaration hget hwritten => ?_⟩
    -- what is found at an argument is found at the directive, so that the last argument of a name
    -- can be looked at alone
    · exact exists_relay_of_mem_metadataFindings (hfound ▸ hfinding)
    · rw [hfound, metadataFindings_eq_nil_iff hsome]
    · obtain ⟨argument, hargument, -, rfl⟩ := Fragment.exists_mem_of_get?_declarations huse hget
      have hquiet := List.flatMap_eq_nil_iff.mp (hdeclared.symm.trans hnone) argument hargument
      obtain ⟨type, base, hwritten, hbase⟩ :=
        exists_written_of_quiet (hquiet ▸ List.forall_mem_nil _)
      exact ⟨type, hwritten, Option.isSome_of_eq_some hbase⟩
    · obtain ⟨argument, hargument, hlast, rfl⟩ :=
        Fragment.exists_mem_of_get?_declarations huse hget
      obtain ⟨problem, hproblem⟩ := exists_mem_declarationFindings hwritten
      exact ⟨argument, problem, hlast,
        hdeclared ▸ List.mem_flatMap.mpr ⟨argument, hargument, hproblem⟩⟩

/-- The declaration `odd: {type: "["}` is reported at its type, which cannot be read. -/
theorem Context.errors_of_declaresArguments_oddFragment :
    let context := Context.ofDocument pictureSchema
      ⟨[.operation (sizeQuery []), .fragment oddFragment]⟩
    ∃ use, oddFragment ∈ context.document.fragments ∧ oddFragment.declaringUse? = some use ∧
      use.directive.arguments ≠ [] ∧
      ∃ declaration, (oddFragment.declarations context.schema).get? "odd" = some declaration ∧
        declaration.written = none ∧
        ∀ scope, ∃ problem, .relay problem [⟨2, 77⟩] ∈
          (knownFragmentArguments suggestions LanguageRules.unknownArguments context).findings
            (use.events context.schema scope) := by
  intro context
  let directive : Directive := oddFragment.directives.head (by decide)
  let use : DirectiveUse := ⟨.fragment oddFragment, 0, directive⟩
  have hfragment : oddFragment ∈ context.document.fragments := List.mem_singleton_self _
  have huse : oddFragment.declaringUse? = some use := rfl
  have hsome : use.directive.arguments ≠ [] := List.cons_ne_nil _ _
  let argument : Argument := use.directive.arguments[1]
  have hlast : oddFragment.lastDeclaring? "odd" = some argument := by cbv
  have hget : (oddFragment.declarations context.schema).get? "odd" =
      some (Declaration.ofArgument context.schema argument) := by
    rw [Fragment.get?_declarations, hlast, Option.map_some]
  have hwritten : (Declaration.ofArgument context.schema argument).written = none := by cbv
  refine ⟨use, hfragment, huse, hsome, _, hget, hwritten, fun scope => ?_⟩
  obtain ⟨stated, problem, hstated, hproblem⟩ :=
    ((Context.errors_of_declaresArguments suggestions hfragment huse hsome).2.2 scope).2.2.2
      "odd" _ hget hwritten
  cases hlast.symm.trans hstated
  exact ⟨problem, hproblem⟩

end RelayCheck
