import RelayCheck.Proofs.FragmentArguments.GivenArguments
import RelayCheck.Proofs.FragmentArguments.PlainUsages
import RelayCheck.Proofs.Language.Constants

/-!
# Arguments that are declared in vain

An argument of a fragment is used if a variable of its name is written in the selections of the
fragment. Those that are not used are reported, each once. The rule looks for variables anywhere in
the text, while the uses of the fragment are collected along the schema, and some variables are
dropped there. Every use in the selections is a variable in the text, so an argument that governs
such a use is not reported.

The module introduces:

- `Value.WrittenIn`, the values that are written in selections, at any depth;
- `Fragment.UsesVariable`: a variable of the name is written in the selections of the fragment;
- `Context.directiveUsages` and `Context.selectionUsages`, the uses on a fragment and those in its
  selections.

The main result is `Context.trail_of_unusedArguments`.
-/

namespace RelayCheck

/-! ## Variables in selections -/

/-- The value occurs in an argument of one of the directives. -/
def Value.GivenIn (part : Value) (directives : List Directive) : Prop :=
  ∃ directive ∈ directives, ∃ argument ∈ directive.arguments, part.OccursIn argument.value

/-- The value is written in selections: in an argument of a field, in a directive on a field, a
spread or an inline fragment, or in the selections below. -/
inductive Value.WrittenIn (part : Value) : List Selection → Prop
  | argument {field : Field} {nested rest : List Selection} {argument : Argument}
      (hargument : argument ∈ field.arguments) (hoccurs : part.OccursIn argument.value) :
      WrittenIn part (.field field nested :: rest)
  | onField {field : Field} {nested rest : List Selection}
      (hgiven : part.GivenIn field.directives) : WrittenIn part (.field field nested :: rest)
  | inField {field : Field} {nested rest : List Selection} (hnested : WrittenIn part nested) :
      WrittenIn part (.field field nested :: rest)
  | onSpread {spread : Spread} {rest : List Selection} (hgiven : part.GivenIn spread.directives) :
      WrittenIn part (.spread spread :: rest)
  | onInline {fragment : InlineFragment} {nested rest : List Selection}
      (hgiven : part.GivenIn fragment.directives) :
      WrittenIn part (.inlineFragment fragment nested :: rest)
  | inInline {fragment : InlineFragment} {nested rest : List Selection}
      (hnested : WrittenIn part nested) : WrittenIn part (.inlineFragment fragment nested :: rest)
  | later {selection : Selection} {rest : List Selection} (hrest : WrittenIn part rest) :
      WrittenIn part (selection :: rest)

section Variables

variable {name : Name} {pos : Position}

/-- The variables in arguments are those that occur in their values. -/
theorem mem_argumentVariables_iff {arguments : List Argument} :
    (name, pos) ∈ argumentVariables arguments ↔
      ∃ argument ∈ arguments, (Value.variable name pos).OccursIn argument.value := by
  simp only [argumentVariables, List.mem_flatMap, Value.mem_mentions_iff]

/-- The variables in directives are those that are given there. -/
theorem mem_directiveVariables_iff {directives : List Directive} :
    (name, pos) ∈ directiveVariables directives ↔
      (Value.variable name pos).GivenIn directives := by
  simp only [directiveVariables, List.mem_flatMap, mem_argumentVariables_iff, Value.GivenIn]

/-- The variables in selections are those that are written there. -/
theorem mem_selectionVariables_iff :
    ∀ {selections : List Selection}, (name, pos) ∈ selectionVariables selections ↔
      (Value.variable name pos).WrittenIn selections
  | [] => by
    constructor
    · intro h
      cases h
    · rintro ⟨⟩
  | .field field nested :: rest => by
    rw [selectionVariables, Selection.mentions, List.mem_append, List.mem_append, List.mem_append,
      mem_argumentVariables_iff, mem_directiveVariables_iff, mem_selectionVariables_iff,
      mem_selectionVariables_iff]
    constructor
    · rintro (((⟨argument, hargument, hoccurs⟩ | hgiven) | hnested) | hrest)
      · exact .argument hargument hoccurs
      · exact .onField hgiven
      · exact .inField hnested
      · exact .later hrest
    · rintro (⟨hargument, hoccurs⟩ | hgiven | hnested | _ | _ | _ | hrest)
      · exact Or.inl (Or.inl (Or.inl ⟨_, hargument, hoccurs⟩))
      · exact Or.inl (Or.inl (Or.inr hgiven))
      · exact Or.inl (Or.inr hnested)
      · exact Or.inr hrest
  | .spread spread :: rest => by
    rw [selectionVariables, Selection.mentions, List.mem_append, mem_directiveVariables_iff,
      mem_selectionVariables_iff]
    constructor
    · rintro (hgiven | hrest)
      · exact .onSpread hgiven
      · exact .later hrest
    · rintro (_ | _ | _ | hgiven | _ | _ | hrest)
      · exact Or.inl hgiven
      · exact Or.inr hrest
  | .inlineFragment fragment nested :: rest => by
    rw [selectionVariables, Selection.mentions, List.mem_append, List.mem_append,
      mem_directiveVariables_iff, mem_selectionVariables_iff, mem_selectionVariables_iff]
    constructor
    · rintro ((hgiven | hnested) | hrest)
      · exact .onInline hgiven
      · exact .inInline hnested
      · exact .later hrest
    · rintro (_ | _ | _ | _ | hgiven | hnested | hrest)
      · exact Or.inl (Or.inl hgiven)
      · exact Or.inl (Or.inr hnested)
      · exact Or.inr hrest

end Variables

namespace Fragment

/-- A variable of the name is written in the selections of the fragment. -/
def UsesVariable (fragment : Fragment) (name : String) : Prop :=
  ∃ used pos, used.text = name ∧ (Value.variable used pos).WrittenIn fragment.selections

/-- The rule looks for the name among the variables of the selections. -/
theorem usesVariable_iff {fragment : Fragment} {name : String} :
    fragment.UsesVariable name ↔
      name ∈ (selectionVariables fragment.selections).map fun use => use.1.text := by
  simp only [UsesVariable, List.mem_map, Prod.exists, mem_selectionVariables_iff, and_comm]

instance (fragment : Fragment) : DecidablePred fragment.UsesVariable :=
  fun _ => decidable_of_iff _ usesVariable_iff.symm

/-! ## Reports -/

/-- The names that the fragment declares and does not use, in the order of their first
declarations. -/
def unusedNames (fragment : Fragment) : List String :=
  fragment.declaredNames.filter fun name => decide (¬fragment.UsesVariable name)

/-- The report that an argument of the fragment is not used, at the last declaration of its name. -/
def ReportsUnused (fragment : Fragment) (name : String) (finding : Finding) : Prop :=
  ∃ argument, fragment.lastDeclaring? name = some argument ∧
    finding = .relay (.unusedArgument name fragment.name.text) [argument.name.pos]

variable {schema : Schema} {fragment : Fragment}

/-- There is one report for each name that the fragment declares and does not use. -/
theorem forall₂_reportsUnused (schema : Schema) (fragment : Fragment) :
    List.Forall₂ fragment.ReportsUnused fragment.unusedNames
      (unusedArguments schema fragment) := by
  have hunused : fragment.unusedNames =
      ((fragment.declarations schema).entries.filter fun entry =>
        !((selectionVariables fragment.selections).map fun use => use.1.text).contains
          entry.1).map Prod.fst := by
    rw [unusedNames, ← fragment.names_declarations schema, NameMap.names, List.filter_map]
    refine congrArg (List.map _) (List.filter_congr fun entry _ => ?_)
    rw [Function.comp_apply, Bool.eq_iff_iff, decide_eq_true_eq, usesVariable_iff,
      Bool.not_eq_true', List.contains_eq_mem, decide_eq_false_iff_not]
  rw [hunused, unusedArguments, List.forall₂_map_left_iff, List.forall₂_map_right_iff,
    List.forall₂_same]
  rintro ⟨name, declaration⟩ hentry
  -- what is listed under a name is what its last declaration says
  have hget : (fragment.declarations schema).get? name = some declaration :=
    NameMap.get?_of_mem_entries (NameMap.nodup_names_ofList _) (List.mem_filter.mp hentry).1
  rw [fragment.get?_declarations] at hget
  obtain ⟨argument, hlast, rfl⟩ := Option.map_eq_some_iff.mp hget
  exact ⟨argument, hlast, rfl⟩

/-- Only names that are not used are reported. -/
theorem not_usesVariable_of_mem_unusedArguments {name : String} {places : List Position}
    (h : .relay (.unusedArgument name fragment.name.text) places ∈
      unusedArguments schema fragment) : ¬fragment.UsesVariable name := by
  obtain ⟨entry, hentry, hfinding⟩ := List.mem_map.mp h
  cases hfinding
  rw [usesVariable_iff, ← List.contains_iff_mem, Bool.not_eq_true, ← Bool.not_eq_true']
  exact (List.mem_filter.mp hentry).2

/-- What the fragment says about a name is said of an argument of this name. -/
theorem argument_of_get?_declarations {name : String} {declaration : Declaration}
    (h : (fragment.declarations schema).get? name = some declaration) :
    declaration.isArgument = true ∧ declaration.name = name := by
  rw [fragment.get?_declarations] at h
  obtain ⟨argument, hlast, rfl⟩ := Option.map_eq_some_iff.mp h
  have hname := List.find?_some hlast
  exact ⟨rfl, beq_iff_eq.mp hname⟩

end Fragment

/-! ## Uses in selections -/

/-- A use that an own declaration governs has its name. -/
theorem get?_of_governor_govern {own enclosing : Declarations} {usage : Usage}
    {declaration : Declaration}
    (h : (govern own enclosing usage).governor = some (declaration, .ownDefinition)) :
    own.get? usage.name = some declaration := by
  rw [govern] at h
  split at h
  next found hown =>
    cases h
    exact hown
  next =>
    obtain ⟨found, -, hfound⟩ := Option.map_eq_some_iff.mp h
    cases hfound

namespace Context

/-- The uses in the directives on a fragment. -/
def directiveUsages (context : Context) (fragment : Fragment) : List Usage :=
  let scope := Scope.enterFragment context.schema {} (some fragment.typeCondition)
  (directiveEvents context.schema scope (.fragment fragment) fragment.directives).filterMap
    (context.usage? (some fragment.name.text))

/-- The uses in the selections of a fragment. -/
def selectionUsages (context : Context) (fragment : Fragment) : List Usage :=
  let scope := Scope.enterFragment context.schema {} (some fragment.typeCondition)
  (selectionEvents context.schema (scope.enterSelections context.schema)
    fragment.selections).filterMap (context.usage? (some fragment.name.text))

variable {context : Context} {fragment : Fragment}

/-- The uses in a fragment are those in its directives and those in its selections. -/
theorem usages_fragment (context : Context) (fragment : Fragment) :
    context.usages (some fragment.name.text) (.fragment fragment) =
      context.directiveUsages fragment ++ context.selectionUsages fragment := by
  have hcondition (scope : Scope) : (typeNameEvents scope [fragment.typeCondition]).filterMap
      (context.usage? (some fragment.name.text)) = [] := rfl
  rw [usages, Definition.events, Fragment.events, around, List.filterMap_cons_none rfl,
    List.filterMap_append, List.filterMap_append, List.filterMap_append, hcondition,
    List.nil_append]
  exact List.append_nil _

/-- The uses of a fragment are a piece of those of an operation that reaches it. -/
theorem fragmentUsages_infix_of_mem_reached {operation : Operation}
    (hreached : fragment ∈ context.reached operation) :
    context.fragmentUsages fragment (operation.declarations context.schema) <:+:
      context.operationUsages operation := by
  let block (fragment : Fragment) : List GovernedUsage :=
    context.fragmentUsages fragment (operation.declarations context.schema)
  have hblock : block fragment <:+: (context.reached operation).flatMap block :=
    List.infix_of_mem_flatten (List.mem_map_of_mem hreached)
  rw [operationUsages]
  exact hblock.trans (List.suffix_append _ _).isInfix

/-- A use is a variable on the walk, whatever its role. -/
theorem exists_roleAt?_of_usage? {event : Event} {name : Option String} {usage : Usage}
    (h : context.usage? name event = some usage) :
    ∃ used pos role, used.text = usage.name ∧ roleAt? event = some ((used, pos), role) := by
  unfold usage? at h
  split at h
  next used pos scope =>
    obtain ⟨expected, hposition, rfl⟩ := Option.map_eq_some_iff.mp h
    have hdeclaring : scope.declaring = false := by
      rw [position?] at hposition
      split at hposition
      · cases hposition
      next hdeclaring => exact Bool.eq_false_iff.mpr hdeclaring
    refine ⟨used, pos, scope.role, rfl, ?_⟩
    rw [roleAt?, Scope.role?, hdeclaring]
    rfl
  next => cases h

/-- Every use in the selections of a fragment is a variable in their text. -/
theorem usesVariable_of_mem_selectionUsages {usage : Usage}
    (h : usage ∈ context.selectionUsages fragment) : fragment.UsesVariable usage.name := by
  obtain ⟨event, hevent, husage⟩ := List.mem_filterMap.mp h
  obtain ⟨used, pos, role, hname, hrole⟩ := exists_roleAt?_of_usage? husage
  -- the walk meets the variables of the text, and those only
  have hwalk := walkRoles_selections context.schema fragment.selections
    ((Scope.enterFragment context.schema {} (some fragment.typeCondition)).enterSelections
      context.schema) rfl rfl
  have hmem : ((used, pos), role) ∈ selectionRoles fragment.selections := by
    rw [← hwalk]
    exact List.mem_filterMap.mpr ⟨event, hevent, hrole⟩
  refine ⟨used, pos, hname, mem_selectionVariables_iff.mp ?_⟩
  rw [← map_fst_selectionRoles]
  exact List.mem_map_of_mem hmem

end Context

/-! ## The rule -/

/-- In a definition, the rule for unused arguments reports those of a fragment. -/
theorem findings_noUnusedArguments_definition (context : Context) (definition : Definition) :
    (noUnusedArguments context).findings (definition.events context.schema) =
      definition.fragment?.toList.flatMap (unusedArguments context.schema) := by
  obtain ⟨scope, parts, hevents, hinner⟩ := definition.events_eq_around_inner context.schema
  -- inside of a definition no other one is entered
  have hparts : parts.filterMap Event.definition? = [] := by
    refine List.filterMap_eq_nil_iff.mpr fun event hevent => ?_
    cases hentered : event.definition? with
    | none => rfl
    | some other =>
      have hnode := hinner event hevent
      rw [Event.node_of_definition? hentered] at hnode
      cases hnode
  have hfirst : Event.definition? (.enter ⟨.definition definition, scope⟩) = some definition := rfl
  have hentered : (definition.events context.schema).filterMap Event.definition? =
      [definition] := by
    rw [hevents, around, List.filterMap_cons_some hfirst, List.filterMap_append, hparts]
    rfl
  rw [findings_noUnusedArguments, hentered, List.flatMap_singleton]
  cases definition with
  | fragment fragment => exact (List.append_nil _).symm
  | operation | schema | schemaExtension | type | typeExtension | directive => rfl

/-- In several definitions, the rule reports the unused arguments of the fragments among them. -/
theorem flatMap_findings_noUnusedArguments (context : Context) (definitions : List Definition) :
    (definitions.flatMap fun definition =>
        (noUnusedArguments context).findings (definition.events context.schema)) =
      (definitions.filterMap Definition.fragment?).flatMap (unusedArguments context.schema) := by
  rw [List.filterMap_eq_flatMap_toList, List.flatMap_assoc]
  exact List.flatMap_congr fun definition _ => findings_noUnusedArguments_definition context _

/-- The rule for unused arguments reports, fragment by fragment in the order of the document, one
error for each name that the fragment declares in its first directive that declares arguments, in
the order of first declarations, if no variable of the name is written in the selections of the
fragment. It does so at the last declaration of the name and finds nothing else. Alone, it does so
in the definitions before the first one that is nested too deeply. The uses of a fragment, which are
a piece of those of every operation that reaches it, are those in its directives and those in its
selections. An argument of the fragment that governs one of the latter is not reported, whatever
declarations enclose the fragment. -/
theorem Context.trail_of_unusedArguments (suggest : Suggest) (context : Context) :
    let unused (definitions : List Definition) :=
      (definitions.filterMap Definition.fragment?).flatMap (unusedArguments context.schema)
    (noUnusedArguments context).findings (context.document.events context.schema) =
      unused context.document.definitions ∧
    context.trail [.relay .noUnusedArguments { suggest }] =
      ⟨unused context.document.shallow, context.document.isTooDeep⟩ ∧
    ∀ fragment : Fragment,
      fragment.declaredNames.Nodup ∧
      List.Forall₂ fragment.ReportsUnused fragment.unusedNames
        (unusedArguments context.schema fragment) ∧
      (∀ operation, fragment ∈ context.reached operation →
        context.fragmentUsages fragment (operation.declarations context.schema) <:+:
          context.operationUsages operation) ∧
      ∀ enclosing : Declarations,
        let governed := govern (fragment.declarations context.schema) enclosing
        context.fragmentUsages fragment enclosing =
          (context.directiveUsages fragment).map governed ++
            (context.selectionUsages fragment).map governed ∧
        ∀ usage ∈ context.selectionUsages fragment, ∀ declaration,
          (governed usage).governor = some (declaration, .ownDefinition) →
            declaration.isArgument = true ∧ ∀ places,
              .relay (.unusedArgument declaration.name fragment.name.text) places ∉
                unusedArguments context.schema fragment := by
  intro unused
  have hunused (definitions : List Definition) : unused definitions =
      definitions.flatMap fun definition =>
        (noUnusedArguments context).findings (definition.events context.schema) :=
    (flatMap_findings_noUnusedArguments context definitions).symm
  refine ⟨?_, ?_, fun fragment => ⟨?_, fragment.forall₂_reportsUnused context.schema,
    fun operation hreached => ?_, fun enclosing => ⟨?_, ?_⟩⟩⟩
  · rw [hunused]
    exact (RelayRule.isMemoryless (by decide : RelayRule.noUnusedArguments ≠ _) suggest
      denotesValue context).findings_events _ _
  · rw [hunused]
    exact trail_singleton_eq_shallow (by decide) (by decide) suggest denotesValue
  · rw [← fragment.names_declarations context.schema]
    exact NameMap.nodup_names_ofList _
  · exact fragmentUsages_infix_of_mem_reached hreached
  · rw [fragmentUsages, usages_fragment, List.map_append]
  · intro usage husage declaration hgovernor
    -- the argument has the name of the use, which is that of a variable in the selections
    obtain ⟨hargument, hname⟩ :=
      Fragment.argument_of_get?_declarations (get?_of_governor_govern hgovernor)
    refine ⟨hargument, fun places hreported => ?_⟩
    rw [hname] at hreported
    exact Fragment.not_usesVariable_of_mem_unusedArguments hreported
      (usesVariable_of_mem_selectionUsages husage)

/-- A fragment that declares `size`, `odd` and `width`, and `size` again, shows a picture of this size.
It uses neither `odd` nor `width`, and the size that governs the picture is not reported. -/
theorem Context.trail_of_unusedArguments_oddFragment :
    let context := Context.ofDocument pictureSchema ⟨[.fragment oddFragment]⟩
    let usage : Usage := ⟨"size", ⟨2, 37⟩, some (.nonNull (.named "Int")), none, some "P"⟩
    (context.trail [.relay .noUnusedArguments {}]).findings =
      [.relay (.unusedArgument "odd" "P") [⟨2, 64⟩],
        .relay (.unusedArgument "width" "P") [⟨2, 82⟩]] ∧
    usage ∈ context.selectionUsages oddFragment ∧
    ∃ declaration,
      (govern (oddFragment.declarations context.schema) .empty usage).governor =
        some (declaration, .ownDefinition) ∧
      declaration.name = "size" ∧ ∀ places,
        .relay (.unusedArgument declaration.name "P") places ∉
          unusedArguments context.schema oddFragment := by
  intro context usage
  obtain ⟨-, htrail, hfragments⟩ := context.trail_of_unusedArguments suggestions
  -- the lists are evaluated; what they mean is read off the general result
  have hshallow : context.document.shallow = [.fragment oddFragment] := by cbv
  have hunused : unusedArguments context.schema oddFragment =
      [.relay (.unusedArgument "odd" "P") [⟨2, 64⟩],
        .relay (.unusedArgument "width" "P") [⟨2, 82⟩]] := by cbv
  have husages : context.selectionUsages oddFragment = [usage] := by cbv
  have husage : usage ∈ context.selectionUsages oddFragment := by
    rw [husages]
    exact List.mem_singleton_self _
  have hdeclared : ((oddFragment.declarations context.schema).get? "size").isSome = true := by cbv
  obtain ⟨declaration, hget⟩ := Option.isSome_iff_exists.mp hdeclared
  have hgovernor : (govern (oddFragment.declarations context.schema) .empty usage).governor =
      some (declaration, .ownDefinition) := by
    rw [govern, show (oddFragment.declarations context.schema).get? usage.name = _ from hget]
  obtain ⟨-, -, -, hgoverned⟩ := hfragments oddFragment
  refine ⟨?_, husage, declaration, hgovernor, (Fragment.argument_of_get?_declarations hget).2,
    ((hgoverned .empty).2 usage husage declaration hgovernor).2⟩
  rw [htrail, hshallow]
  exact (List.append_nil _).trans hunused

end RelayCheck
