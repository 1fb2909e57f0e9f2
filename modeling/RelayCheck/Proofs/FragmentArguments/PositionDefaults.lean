import RelayCheck.Check
import RelayCheck.Proofs.FragmentArguments.Positions
import RelayCheck.Proofs.Schema.Defaults

/-!
# Defaults of positions

A variable that may be null is taken where null is excluded if it has a default other than null or
the position has a default. Where the default of the position is that of an argument or input field
of a schema, it is not null either. The default of a fragment argument may be the null literal,
though, and counts as a default all the same.

The module introduces:

- `Scope.DefaultFits`, the places whose position has no default that its type excludes;
- `Context.checkedUsages`, the uses that are checked for a definition;
- `Usage.HasNullLiteral`, the uses that are given to a fragment argument with null as its default.

The main result is `nonNull_default_of_mismatch?_eq_none`.
-/

namespace RelayCheck

/-! ## Places on the walk -/

/-- What the schema says about a place has no default that a type excludes. -/
structure Scope.DefaultFits (schema : Schema) (scope : Scope) : Prop where
  parent : ∀ type, scope.parent = some type → type ∈ schema.types
  field : ∀ field, scope.field = some field →
    ∀ parameter ∈ field.parameters, parameter.defaultFits = true
  directive : ∀ directive, scope.directive = some directive →
    ∀ parameter ∈ directive.parameters, parameter.defaultFits = true
  position : scope.declaring = false → ∀ inner, scope.input = some (.nonNull inner) →
    scope.default ≠ some .null

namespace Schema.DefaultsFit

variable {schema : Schema}

/-- The arguments of a field that can be selected have no default that a type excludes. -/
theorem field (hfits : schema.DefaultsFit) {parent : NamedType} (hparent : parent ∈ schema.types)
    {name : String} {field : OutputField} (hfield : schema.field? parent name = some field) :
    ∀ parameter ∈ field.parameters, parameter.defaultFits = true := by
  unfold Schema.field? at hfield
  dsimp only at hfield
  split at hfield
  next =>
    rw [← Option.some_inj.mp hfield]
    decide
  next =>
    split at hfield
    next =>
      rw [← Option.some_inj.mp hfield]
      decide
    next =>
      split at hfield
      next =>
        rw [← Option.some_inj.mp hfield]
        decide
      next =>
        -- an own field of the type
        intro parameter hparameter
        refine hfits.types parent hparent parameter ?_
        have hmem : field ∈ parent.fields := List.mem_of_find?_eq_some hfield
        rw [NamedType.fields] at hmem
        rw [NamedType.parameters]
        cases hshape : parent.shape with
        | object interfaces fields | interface interfaces fields =>
          rw [hshape] at hmem
          exact List.mem_flatMap_of_mem hmem hparameter
        | scalar | union | enum | inputObject =>
          rw [hshape] at hmem
          cases hmem

/-- The input fields that a type leads to have no default that a type excludes. -/
theorem inputFields (hfits : schema.DefaultsFit) {type : TypeRef String}
    {fields : List Parameter} (hfields : schema.inputFields? type = some fields) :
    ∀ parameter ∈ fields, parameter.defaultFits = true := by
  obtain ⟨named, hnamed, hinput⟩ := Option.bind_eq_some_iff.mp hfields
  have hmem : named ∈ schema.types := List.mem_of_find?_eq_some hnamed
  intro parameter hparameter
  refine hfits.types named hmem parameter ?_
  rw [NamedType.inputFields?] at hinput
  rw [NamedType.parameters]
  cases hshape : named.shape with
  | inputObject declared oneOf =>
    rw [hshape] at hinput
    rwa [Option.some_inj.mp hinput]
  | scalar | object | interface | union | enum =>
    rw [hshape] at hinput
    cases hinput

end Schema.DefaultsFit

/-- The type and default that a place of the schema gives to a position fit. -/
theorem Parameter.position_fits {schema : Schema} {parameters : List Parameter}
    (hfits : ∀ parameter ∈ parameters, parameter.defaultFits = true) (test : Parameter → Bool)
    {inner : TypeRef String}
    (hinput : ((parameters.find? test).map Parameter.type).bind schema.inputType? =
      some (.nonNull inner)) :
    (parameters.find? test).bind Parameter.default ≠ some .null := by
  cases hfound : parameters.find? test with
  | none => exact nofun
  | some parameter =>
    rw [hfound, Option.map_some, Option.bind_some, Schema.inputType?_eq_some_iff] at hinput
    exact parameter.default_ne_null (hfits parameter (List.mem_of_find?_eq_some hfound)) hinput.2

/-- The walk hands down that what the schema says fits. -/
theorem Scope.Inherited.defaultFits {schema : Schema} (hfits : schema.DefaultsFit) :
    Scope.Inherited schema (fun _ => True) (Scope.DefaultFits schema) where
  start _ := ⟨nofun, nofun, nofun, nofun⟩
  enterArgument {scope} argument hscope := by
    refine ⟨hscope.parent, hscope.field, hscope.directive, fun _ inner hinput => ?_⟩
    refine Parameter.position_fits ?_ _ hinput
    -- the argument is one of the directive around it, and without one of the field
    split
    next directive hdirective => exact hscope.directive directive hdirective
    next hdirective =>
      cases hfield : scope.field with
      | none => exact List.forall_mem_nil _
      | some field => exact hscope.field field hfield
  enterList hscope := ⟨hscope.parent, hscope.field, hscope.directive, fun _ _ _ => nofun⟩
  judge _ hscope := ⟨hscope.parent, hscope.field, hscope.directive, hscope.position⟩
  enterObjectField {scope} name hscope := by
    refine ⟨hscope.parent, hscope.field, hscope.directive, fun _ inner hinput => ?_⟩
    refine Parameter.position_fits ?_ _ hinput
    cases hfields : Scope.expectedFields schema scope.input with
    | none => exact List.forall_mem_nil _
    | some fields =>
      obtain ⟨type, -, htype⟩ := Option.bind_eq_some_iff.mp hfields
      exact hfits.inputFields htype
  enterDirective use _ hscope :=
    ⟨hscope.parent, hscope.field,
      fun directive hdirective => hfits.directives directive (List.mem_of_find?_eq_some hdirective),
      hscope.position⟩
  enterSelections hscope := by
    refine ⟨fun type htype => ?_, hscope.field, hscope.directive, hscope.position⟩
    obtain ⟨hfound, -⟩ := Option.filter_eq_some_iff.mp htype
    obtain ⟨output, -, hnamed⟩ := Option.bind_eq_some_iff.mp hfound
    exact List.mem_of_find?_eq_some hnamed
  enterField field hscope := by
    refine ⟨hscope.parent, fun known hknown => ?_, hscope.directive, hscope.position⟩
    obtain ⟨parent, hparent, hfield⟩ := Option.bind_eq_some_iff.mp hknown
    exact hfits.field (hscope.parent parent hparent) hfield
  enterFragment _ hscope := ⟨hscope.parent, hscope.field, hscope.directive, hscope.position⟩
  enterOperation _ hscope := ⟨hscope.parent, hscope.field, hscope.directive, hscope.position⟩
  enterVariableDefinition _ hscope := ⟨hscope.parent, hscope.field, hscope.directive, nofun⟩

/-! ## Defaults of uses -/

/-- The use is given to an argument of a fragment, and the null literal is the default of that. -/
def Usage.HasNullLiteral (context : Context) (usage : Usage) : Prop :=
  ∃ fragment ∈ context.document.fragments, ∃ argument declaration value,
    (fragment.declarations context.schema).get? argument = some declaration ∧
      declaration.default = some value ∧ value.isNull = true ∧
        usage.default = some (.literal value)

namespace Context

variable {context : Context}

/-- Where null is excluded, the default of a position is not null, unless it is that of a fragment
argument. -/
theorem hasNullLiteral_of_position? {scope : Scope} (hscope : scope.DefaultFits context.schema)
    {usage : Usage} (hposition : context.position? scope = some (usage.type, usage.default))
    {inner : TypeRef String} (htype : usage.type = some (.nonNull inner))
    {default : PositionDefault} (hdefault : usage.default = some default)
    (hnull : default.isNull = true) : usage.HasNullLiteral context := by
  unfold position? at hposition
  split at hposition
  next => cases hposition
  next hdeclaring =>
    rw [Bool.not_eq_true] at hdeclaring
    split at hposition
    next =>
      -- a position of the schema
      rw [Option.some_inj, Prod.mk_inj, htype, hdefault] at hposition
      obtain ⟨value, hvalue, rfl⟩ := Option.map_eq_some_iff.mp hposition.2
      refine absurd hvalue ?_
      have hne := hscope.position hdeclaring inner hposition.1
      cases value with
      | null => exact hne
      | _ => cases hnull
    next use _ =>
      obtain ⟨fragment, htarget, hbound⟩ := Option.map_eq_some_iff.mp hposition
      split at hbound
      next =>
        rw [Prod.mk_inj, htype] at hbound
        cases hbound.1
      next =>
        rw [boundPosition] at hbound
        split at hbound
        next declaration hdeclaration =>
          rw [Prod.mk_inj, hdefault] at hbound
          obtain ⟨value, hvalue, rfl⟩ := Option.map_eq_some_iff.mp hbound.2
          obtain ⟨spread, -, hspread⟩ := Option.bind_eq_some_iff.mp htarget
          exact ⟨fragment, (Document.mem_fragments_of_fragment? hspread).1, _, declaration, value,
            hdeclaration, hvalue, hnull, hdefault⟩
        next =>
          rw [Prod.mk_inj, htype] at hbound
          cases hbound.1

/-- A use where null is excluded has no null default, unless it is given to a fragment argument
with that default. -/
theorem hasNullLiteral_of_mem_usages (hfits : context.schema.DefaultsFit)
    {fragment : Option String} {definition : Definition} {usage : Usage}
    (husage : usage ∈ context.usages fragment definition) {inner : TypeRef String}
    (htype : usage.type = some (.nonNull inner)) {default : PositionDefault}
    (hdefault : usage.default = some default) (hnull : default.isNull = true) :
    usage.HasNullLiteral context := by
  obtain ⟨event, hevent, hturn⟩ := List.mem_filterMap.mp husage
  obtain ⟨scope, parts, hevents, hparts⟩ :=
    definition.events_eq_around (.defaultFits hfits) fun _ _ => trivial
  unfold usage? at hturn
  split at hturn
  next name pos place =>
    obtain ⟨⟨type, positionDefault⟩, hposition, rfl⟩ := Option.map_eq_some_iff.mp hturn
    rw [hevents, around, List.mem_cons, List.mem_append, List.mem_singleton] at hevent
    rcases hevent with hevent | hevent | hevent
    · cases hevent
    · exact hasNullLiteral_of_position? (hparts _ hevent).scope hposition htype hdefault hnull
    · cases hevent
  next => cases hturn

/-- The uses that the rule for positions checks when it enters a definition: those of an operation
and all fragments it reaches, or those of a fragment, with the variables on which the operations
agree that use it. -/
def checkedUsages (context : Context) : Definition → List GovernedUsage
  | .operation operation => context.operationUsages operation
  | .fragment fragment =>
    context.fragmentUsages fragment (context.unifiedVariables fragment.name.text).declarations
  | _ => []

/-- What is checked are uses in definitions. -/
theorem mem_usages_of_mem_checkedUsages {definition : Definition} {governed : GovernedUsage}
    (hgoverned : governed ∈ context.checkedUsages definition) :
    ∃ fragment container, governed.usage ∈ context.usages fragment container := by
  cases definition with
  | operation operation =>
    rcases mem_operationUsages_iff.mp hgoverned with
      ⟨usage, husage, rfl⟩ | ⟨fragment, -, usage, husage, rfl⟩
    · exact ⟨_, _, (usage_govern _ _ usage).symm ▸ husage⟩
    · exact ⟨_, _, (usage_govern _ _ usage).symm ▸ husage⟩
  | fragment fragment =>
    obtain ⟨usage, husage, rfl⟩ := List.mem_map.mp hgoverned
    exact ⟨_, _, (usage_govern _ _ usage).symm ▸ husage⟩
  | schema | schemaExtension | type | typeExtension | directive => cases hgoverned

end Context

/-- Where null is excluded, a variable that may be null is allowed only if there is a default: one
of its own other than null, or one of the position. -/
theorem default_of_allowedUsage {schema : Schema} {type expected : TypeRef String}
    {default : Option Value} {positionHasDefault : Bool}
    (hallowed : allowedUsage schema type default expected positionHasDefault = true)
    (htype : type.isNonNull = false) (hexpected : expected.isNonNull = true) :
    default.any (fun value => !value.isNull) = true ∨ positionHasDefault = true := by
  cases expected with
  | nonNull inner =>
    rw [allowedUsage, htype] at hallowed
    cases hdefault : (default.any fun value => !value.isNull) || positionHasDefault with
    | true => exact (Bool.or_eq_true _ _).mp hdefault
    | false =>
      rw [hdefault] at hallowed
      cases hallowed
  | named | list => cases hexpected

/-- Every use that the rule for positions accepts in a document, both types being known: if the
variable may be null and null is excluded at the position, then the variable has a default other
than null or the position has one, unless the use is given to a fragment argument whose default is
the null literal. In the schema, which is read from a text, no position has a null default where
null is excluded. -/
theorem nonNull_default_of_mismatch?_eq_none {source : String} {schema : Schema}
    (hload : Schema.load source = .ok schema) (document : Document) :
    let context := Context.ofDocument schema.withRelayDirectives document
    ∀ definition ∈ document.definitions, ∀ governed ∈ context.checkedUsages definition,
      governed.mismatch? context.schema = none →
        ∀ declaration type expected, governed.declaration? = some declaration →
          declaration.type = some type → governed.usage.type = some expected →
            type.isNonNull = false → expected.isNonNull = true →
              declaration.hasNonNullDefault = true ∨
                (∃ default, governed.usage.default = some default ∧ default.isNull = false) ∨
                  governed.usage.HasNullLiteral context := by
  intro context definition _ governed hgoverned haccepted declaration type expected hdeclaration
    htype hexpected hnullable hnonNull
  have hfits : context.schema.DefaultsFit :=
    (Schema.defaultsFit_of_load hload).withRelayDirectives
  have hallowed := GovernedUsage.mismatch?_eq_none_iff.mp haccepted declaration hdeclaration type
    expected htype hexpected
  -- one of two defaults makes up for the nullable type, and that of the position may be null
  rcases default_of_allowedUsage hallowed hnullable hnonNull with hown | hposition
  · exact .inl hown
  · refine .inr ?_
    obtain ⟨default, hdefault⟩ := Option.isSome_iff_exists.mp hposition
    cases hnull : default.isNull with
    | false => exact .inl ⟨default, hdefault, hnull⟩
    | true =>
      obtain ⟨fragment, container, husage⟩ := Context.mem_usages_of_mem_checkedUsages hgoverned
      cases expected with
      | nonNull inner =>
        exact .inr (Context.hasNullLiteral_of_mem_usages hfits husage hexpected hdefault hnull)
      | named | list => cases hnonNull

/-- A query gives a picture a size that may be null. It has to be given, but has a default in the
schema, so that this is accepted. -/
theorem nonNull_default_of_mismatch?_eq_none_picture :
    let source := "type Query \x7b picture(size: String! = \"large\"): Int \x7d"
    let schema := (Schema.load source).toOption.getD pictureSchema
    let query : Operation :=
      { pictureQuery "A" "P" (.named ⟨"String", ⟨1, 16⟩⟩) 1 with
        selections := (pictureFragment "P" 1).selections }
    let context := Context.ofDocument schema.withRelayDirectives ⟨[.operation query]⟩
    Schema.load source = .ok schema ∧
      ∃ governed ∈ context.checkedUsages (.operation query),
        governed.mismatch? context.schema = none ∧
          ∃ default, governed.usage.default = some default ∧ default.isNull = false := by
  intro source schema query context
  have hload : Schema.load source = .ok schema := by
    have hsome : (Schema.load source).toOption.isSome = true := by decide +kernel
    simp only [schema]
    cases hloaded : Schema.load source with
    | error fault =>
      rw [hloaded] at hsome
      cases hsome
    | ok loaded => rfl
  refine ⟨hload, ?_⟩
  -- the only use in the query, with all that is asked of it
  let declared := query.declarations context.schema
  have hlength : (context.usages none (.operation query)).length = 1 := by decide +kernel
  obtain ⟨usage, husages⟩ := List.length_eq_one_iff.mp hlength
  have hmem : govern declared declared usage ∈ context.checkedUsages (.operation query) :=
    Context.mem_operationUsages_iff.mpr (.inl ⟨usage, husages ▸ List.mem_singleton_self usage, rfl⟩)
  have hall : (context.usages none (.operation query)).all (fun usage =>
      ((govern declared declared usage).mismatch? context.schema).isNone &&
        (usage.type == some (.nonNull (.named "String")) &&
          (declared.get? usage.name).any fun declaration =>
            declaration.type == some (.named "String") && !declaration.hasNonNullDefault)) =
              true := by
    decide +kernel
  simp only [husages, List.all_cons, List.all_nil, Bool.and_true, Bool.and_eq_true,
    Option.isNone_iff_eq_none, beq_iff_eq, Option.any_eq_true, Bool.not_eq_true'] at hall
  obtain ⟨haccepted, hexpected, declaration, hdeclaration, htype, hown⟩ := hall
  have hgoverns : (govern declared declared usage).declaration? = some declaration := by
    rw [declaration?_govern, hdeclaration, Option.some_or]
  have hposition : (govern declared declared usage).usage.type =
      some (.nonNull (.named "String")) := by
    rw [usage_govern, hexpected]
  rcases nonNull_default_of_mismatch?_eq_none hload ⟨[.operation query]⟩ _
    (List.mem_singleton_self _) _ hmem haccepted declaration _ _ hgoverns htype hposition rfl rfl
    with hdefault | hdefault | ⟨fragment, hfragment, -⟩
  · rw [hown] at hdefault
    cases hdefault
  · exact ⟨_, hmem, haccepted, hdefault⟩
  · cases hfragment

/-- The argument of a fragment excludes null and has null as its default. A query gives it a size
that may be null and has no default. Nothing is found: the null literal counts as a default of the
position, so that the use is accepted, though neither the variable nor the position has a default
other than null. -/
theorem accepted_without_nonNull_default_size :
    let size : TypeRef Name := .named ⟨"Int", ⟨1, 16⟩⟩
    let query := { pictureQuery "A" "P" size 1 with
      selections := [.spread ⟨⟨"P", ⟨1, 28⟩⟩, [⟨⟨argumentsName, ⟨1, 31⟩⟩,
        [⟨⟨"size", ⟨1, 41⟩⟩, .variable ⟨"size", ⟨1, 48⟩⟩ ⟨1, 47⟩⟩], ⟨1, 30⟩⟩], ⟨1, 25⟩⟩] }
    let fragment := { pictureFragment "P" 2 with
      directives := [⟨⟨argumentDefinitionsName, ⟨2, 22⟩⟩, [⟨⟨"size", ⟨2, 42⟩⟩,
        .object [(⟨typeKey, ⟨2, 49⟩⟩, .string "Int!" false ⟨2, 55⟩),
          (⟨defaultKey, ⟨2, 63⟩⟩, .null ⟨2, 77⟩)] ⟨2, 48⟩⟩], ⟨2, 21⟩⟩] }
    let context := Context.ofDocument pictureSchema.withRelayDirectives
      ⟨[.operation query, .fragment fragment]⟩
    (variablesInAllowedPosition context).findings (context.document.events context.schema) = [] ∧
      ∃ governed ∈ context.checkedUsages (.operation query), ∃ declaration,
        governed.mismatch? context.schema = none ∧
          governed.declaration? = some declaration ∧ declaration.type = some (.named "Int") ∧
            governed.usage.type = some (.nonNull (.named "Int")) ∧
              declaration.hasNonNullDefault = false ∧
                ¬∃ default, governed.usage.default = some default ∧ default.isNull = false := by
  intro size query fragment context
  have hsilent : (variablesInAllowedPosition context).findings
      (context.document.events context.schema) = [] := by cbv
  let declared := query.declarations context.schema
  let usage : Usage := ⟨"size", ⟨1, 47⟩, some (.nonNull (.named "Int")),
    some (.literal (.null ⟨2, 77⟩)), none⟩
  have husages : context.usages none (.operation query) = [usage] := by cbv
  have hmem : govern declared declared usage ∈ context.checkedUsages (.operation query) :=
    Context.mem_operationUsages_iff.mpr (.inl ⟨usage, husages ▸ List.mem_singleton_self usage, rfl⟩)
  refine ⟨hsilent, _, hmem, _, rfl, rfl, rfl, rfl, rfl, ?_⟩
  rintro ⟨_, ⟨⟩, hnull⟩
  cases hnull

end RelayCheck
