import RelayCheck.Proofs.FragmentArguments.DirectiveRules
import RelayCheck.Proofs.FragmentArguments.RequiredArguments
import RelayCheck.Proofs.Separation
import RelayCheck.Proofs.Validation.Details

/-!
# What is reported of given arguments

A directive that gives arguments to a fragment leaves some of the names out that the fragment
declares and has to be given, and gives some that the fragment does not declare. Exactly these are
reported, those left out in the order of the declarations and the others in that of the directive.
Of several declarations of one name, the first decides where it is reported and the last whether it
has to be given.

The module introduces:

- `Fragment.declaredNames` and `Fragment.lastDeclaring?`, the names that a fragment declares and
  their last declarations;
- `Fragment.missingNames` and `Fragment.unknownNames`, the names that a directive leaves out and
  those that it should not give.

The main result is `Context.errors_of_givesArguments`.
-/

namespace RelayCheck

/-! ## Names that are declared and given -/

namespace Fragment

variable {schema : Schema} {fragment : Fragment} {directive : Directive} {name : String}

/-- The names that the fragment declares, in the order of their first declarations. -/
def declaredNames (fragment : Fragment) : List String :=
  ((fragment.declaringArguments?.getD []).map fun argument => argument.name.text).eraseDups

/-- The last declaration of a name. -/
def lastDeclaring? (fragment : Fragment) (name : String) : Option Argument :=
  (fragment.declaringArguments?.getD []).reverse.find? fun argument => argument.name.text == name

/-- The declared names that have to be given, as their last declarations say, and that the directive
does not give. -/
def missingNames (schema : Schema) (fragment : Fragment) (directive : Directive) : List String :=
  fragment.declaredNames.filter fun name =>
    ((fragment.lastDeclaring? name).any fun argument =>
      (Declaration.ofArgument schema argument).isRequired) && decide (¬directive.Gives name)

/-- The names that the directive gives and the fragment does not declare. -/
def unknownNames (fragment : Fragment) (directive : Directive) : List String :=
  (directive.arguments.map fun argument => argument.name.text).filter fun name =>
    decide (name ∉ fragment.declaredNames)

/-- A name is declared if it has a last declaration. -/
theorem mem_declaredNames_of_lastDeclaring? {argument : Argument}
    (h : fragment.lastDeclaring? name = some argument) : name ∈ fragment.declaredNames := by
  have hmem := List.mem_reverse.mp (List.mem_of_find?_eq_some h)
  have hname := List.find?_some h
  rw [beq_iff_eq] at hname
  rw [declaredNames, List.mem_eraseDups]
  exact List.mem_map.mpr ⟨argument, hmem, hname⟩

/-- The fragment lists its declarations by their names. -/
theorem names_declarations (schema : Schema) (fragment : Fragment) :
    (fragment.declarations schema).names = fragment.declaredNames := by
  rw [declarations, NameMap.names_ofList, List.map_map]
  rfl

/-- What the fragment says about a name is what its last declaration says. -/
theorem get?_declarations (schema : Schema) (fragment : Fragment) (name : String) :
    (fragment.declarations schema).get? name =
      (fragment.lastDeclaring? name).map (Declaration.ofArgument schema) := by
  rw [declarations, NameMap.get?_ofList, ← List.map_reverse, List.find?_map, Option.map_map]
  rfl

/-- Names that are missing are declared. -/
theorem missingNames_subset : fragment.missingNames schema directive ⊆ fragment.declaredNames :=
  List.filter_sublist.subset

/-- No name is both missing and unknown. -/
theorem disjoint_missingNames_unknownNames :
    (fragment.missingNames schema directive).Disjoint (fragment.unknownNames directive) := by
  intro name hmissing hunknown
  exact of_decide_eq_true (List.mem_filter.mp hunknown).2 (missingNames_subset hmissing)

/-- Directives that give the same names leave out the same. -/
theorem missingNames_congr {other : Directive}
    (hsame : ∀ name, other.Gives name ↔ directive.Gives name) :
    fragment.missingNames schema other = fragment.missingNames schema directive := by
  simp only [missingNames, hsame]

/-- A name whose last declaration states no type is not missing. -/
theorem not_mem_missingNames_of_written_eq_none {argument : Argument}
    (hlast : fragment.lastDeclaring? name = some argument)
    (hwritten : (Declaration.ofArgument schema argument).written = none) :
    name ∉ fragment.missingNames schema directive := by
  intro hmissing
  have hrequired := (List.mem_filter.mp hmissing).2
  rw [hlast, Option.any_some, Declaration.isRequired, hwritten] at hrequired
  cases hrequired

end Fragment

/-! ## Reports -/

section Reports

variable {suggest : Suggest} {schema : Schema} {fragment : Fragment} {directive : Directive}

/-- An entry of the declarations is what the last declaration of its name says. -/
theorem isRequired_of_mem_entries {entry : String × Declaration}
    (hentry : entry ∈ (fragment.declarations schema).entries) :
    ((fragment.lastDeclaring? entry.1).any fun argument =>
      (Declaration.ofArgument schema argument).isRequired) = entry.2.isRequired := by
  have hget : (fragment.declarations schema).get? entry.1 = some entry.2 :=
    NameMap.get?_of_mem_entries (NameMap.nodup_names_ofList _) hentry
  rw [fragment.get?_declarations] at hget
  obtain ⟨argument, hlast, hdeclaration⟩ := Option.map_eq_some_iff.mp hget
  rw [hlast, Option.any_some, hdeclaration]

/-- The names that a directive leaves out are reported in the order of their declarations. -/
theorem missingArguments_declarations :
    missingArguments (fragment.declarations schema) directive =
      (fragment.missingNames schema directive).map fun name =>
        .relay (.missingArgument name) [directive.pos] := by
  rw [missingArguments, Fragment.missingNames, ← fragment.names_declarations schema,
    NameMap.names, List.filter_map, List.map_map]
  refine congrArg (List.map _) (List.filter_congr fun entry hentry => ?_)
  rw [Function.comp_apply, isRequired_of_mem_entries hentry]
  congr 1
  rw [Bool.eq_iff_iff]
  simp [Directive.Gives]

/-- The names that a directive should not give are reported in its order. -/
theorem undeclaredArguments_declarations :
    undeclaredArguments suggest (fragment.declarations schema) directive =
      (fragment.unknownNames directive).map fun name =>
        .relay (.unknownArgument name (suggest name fragment.declaredNames)) [directive.pos] := by
  rw [undeclaredArguments, Fragment.unknownNames, fragment.names_declarations, List.filter_map,
    List.map_map]
  refine congrArg (List.map _) (List.filter_congr fun argument _ => ?_)
  rw [Function.comp_apply, ← fragment.names_declarations schema, Bool.eq_iff_iff]
  simp [NameMap.mem_names_iff]

/-- The errors that are found in a directive that gives arguments: that the fragment declares none,
or the names that are missing, and then those that are unknown. -/
def bindingErrors (suggest : Suggest) (schema : Schema) (fragment : Fragment) (spread : Spread)
    (directive : Directive) : List Diagnostic :=
  match fragment.declaringArguments? with
  | none => [⟨.relay (.noArgumentDefinitions spread.name.text), [spread.pos]⟩]
  | some _ =>
    (fragment.missingNames schema directive).map (fun name =>
        ⟨.relay (.missingArgument name), [directive.pos]⟩)
      ++ (fragment.unknownNames directive).map fun name =>
        ⟨.relay (.unknownArgument name (suggest name fragment.declaredNames)), [directive.pos]⟩

/-- Warnings aside, these errors are what is wrong with a directive. -/
theorem filterMap_diagnostic?_bindingFindings {spread : Spread} :
    (bindingFindings suggest schema fragment spread directive).filterMap Finding.diagnostic? =
      bindingErrors suggest schema fragment spread directive := by
  rw [bindingFindings, bindingErrors]
  cases fragment.declaringArguments? with
  | none => rfl
  | some declaring =>
    have hwarnings : (metadataWarnings spread.name.text declaring).filterMap
        Finding.diagnostic? = [] := by
      rw [metadataWarnings, List.filterMap_map, List.filterMap_eq_nil_iff]
      exact fun argument _ => rfl
    dsimp only
    rw [missingArguments_declarations, undeclaredArguments_declarations, List.filterMap_append,
      List.filterMap_append, hwarnings, List.nil_append, List.filterMap_map, List.filterMap_map,
      ← List.filterMap_eq_map, ← List.filterMap_eq_map]
    rfl

end Reports

/-! ## The rule on the walk of a directive -/

/-- On the walk of a directive, the rule for names of arguments finds what is wrong with the
directive, and nothing else at its arguments. -/
theorem findings_knownFragmentArguments_directive (suggest : Suggest) (context : Context)
    (schema : Schema) (scope : Scope) (use : DirectiveUse) :
    (knownFragmentArguments suggest LanguageRules.unknownArguments context).findings
        (use.events schema scope) = context.directiveFindings suggest use := by
  let inner := scope.enterDirective schema use
  -- in the arguments, the walk meets neither directives nor arguments of fields
  have harguments : ∀ event ∈ argumentEvents schema inner use.directive.arguments,
      event.fieldArgument ++ event.directive?.elim [] (context.directiveFindings suggest) = [] := by
    intro event hevent
    obtain ⟨argument, -, hevent⟩ := List.mem_flatMap.mp hevent
    rw [Argument.events, around, List.mem_cons, List.mem_append, List.mem_singleton] at hevent
    rcases hevent with rfl | hevent | rfl
    · rfl
    · have hvalue := argument.value.meetsOnly _ event hevent
      rcases event with ⟨node, scope⟩ | visit
      · cases node <;> first | rfl | cases hvalue
      · rfl
    · rfl
  rw [findings_knownFragmentArguments, DirectiveUse.events, around, List.flatMap_cons,
    List.flatMap_append, List.flatMap_eq_nil_iff.mpr harguments]
  exact List.append_nil _

/-- At a directive that gives arguments to a fragment of the document, the rule reports what is
wrong with these. -/
theorem errors_knownFragmentArguments_directive (suggest : Suggest) {context : Context}
    {spread : Spread} {use : DirectiveUse}
    (huse : use ∈ (Carrier.spread spread).uses spread.directives)
    (hname : use.directive.name.text = argumentsName) {fragment : Fragment}
    (hfragment : context.fragment? spread.name.text = some fragment) (schema : Schema)
    (scope : Scope) :
    ((knownFragmentArguments suggest LanguageRules.unknownArguments context).findings
        (use.events schema scope)).filterMap Finding.diagnostic? =
      bindingErrors suggest context.schema fragment spread use.directive := by
  have hspread : use.spread? = some spread := by
    obtain ⟨pair, -, rfl⟩ := List.mem_map.mp huse
    rfl
  have htarget : context.target? use = some fragment := by
    rw [Context.target?, hspread, Option.bind_some, hfragment]
  have hgives : use.givesArguments = true := beq_iff_eq.mpr hname
  rw [findings_knownFragmentArguments_directive,
    context.directiveFindings_of_givesArguments suggest hgives, hspread, htarget]
  exact filterMap_diagnostic?_bindingFindings

/-- Take a directive that gives arguments on a spread of a fragment of the document. Its walk is one
piece of that of the document, and there the rule for names of arguments reports, apart from what it
reports before and after: that the fragment declares no arguments, and nothing else; or else the
names that are missing, in the order of their declarations, and then those that are unknown, in the
order of the directive. Which names are missing depends only on the set of names given. None of them
is unknown, and a name whose last declaration states no type is declared, but never missing. -/
theorem Context.errors_of_givesArguments (suggest : Suggest) {context : Context}
    {definition : Definition} (hdefinition : definition ∈ context.document.definitions)
    {spread : Spread} (hspread : spread ∈ spreadsOf definition.selections) {use : DirectiveUse}
    (huse : use ∈ (Carrier.spread spread).uses spread.directives)
    (hname : use.directive.name.text = argumentsName) {fragment : Fragment}
    (hfragment : context.fragment? spread.name.text = some fragment) :
    let rule := knownFragmentArguments suggest LanguageRules.unknownArguments context
    let errors (events : List Event) := (rule.findings events).filterMap Finding.diagnostic?
    let walk := context.document.events context.schema
    let missing := fragment.missingNames context.schema
    (∃ before scope after, walk = before ++ use.events context.schema scope ++ after ∧
      errors walk = errors before ++ errors (use.events context.schema scope) ++ errors after) ∧
    (∀ scope, errors (use.events context.schema scope) =
      bindingErrors suggest context.schema fragment spread use.directive) ∧
    (context.document.isTooDeep = false →
      (context.trail [.relay .knownArgumentNames { suggest }]).findings = rule.findings walk) ∧
    (∀ other : Directive, (∀ name, other.Gives name ↔ use.directive.Gives name) →
      missing other = missing use.directive) ∧
    (missing use.directive).Disjoint (fragment.unknownNames use.directive) ∧
    ∀ name argument, fragment.lastDeclaring? name = some argument →
      (Declaration.ofArgument context.schema argument).written = none →
        name ∈ fragment.declaredNames ∧ name ∉ missing use.directive := by
  intro rule errors walk missing
  refine ⟨?_, ?_, fun hdeep => ?_, fun other => Fragment.missingNames_congr,
    Fragment.disjoint_missingNames_unknownNames, fun name argument hlast hwritten => ?_⟩
  · obtain ⟨scope, before, after, hevents⟩ :=
      Document.exists_directiveEvents_infix context.schema hdefinition hspread huse
    refine ⟨before, scope, after, hevents.symm, ?_⟩
    -- the rule keeps nothing in mind, so that pieces of a walk can be looked at one by one
    have happend : rule.IsMemoryless :=
      RelayRule.isMemoryless (by decide : RelayRule.knownArgumentNames ≠ _) suggest denotesValue
        context
    simp only [errors, walk]
    rw [← hevents, happend.append, happend.append, List.filterMap_append, List.filterMap_append]
  · exact errors_knownFragmentArguments_directive suggest huse hname hfragment context.schema
  · exact congrArg Trail.findings
      (Context.trail_singleton_eq_events (by decide) (by decide) _ hdeep)
  · exact ⟨Fragment.mem_declaredNames_of_lastDeclaring? hlast,
      Fragment.not_mem_missingNames_of_written_eq_none hlast hwritten⟩

/-- The fragment `fragment P on Query @argumentDefinitions(size: {type: "Int!"}, odd: {type: "["},
width: {type: "Int!"}, size: {type: "Int"})` with a picture of this size. -/
def oddFragment : Fragment :=
  let declared (name : String) (column : Nat) (type : String) : Argument :=
    ⟨⟨name, ⟨2, column⟩⟩, .object [(⟨typeKey, ⟨2, column + 7⟩⟩,
      .string type false ⟨2, column + 13⟩)] ⟨2, column + 6⟩⟩
  { pictureFragment "P" 2 with
    directives := [⟨⟨argumentDefinitionsName, ⟨2, 22⟩⟩, [declared "size" 42 "Int!",
      declared "odd" 64 "[", declared "width" 82 "Int!", declared "size" 105 "Int"], ⟨2, 21⟩⟩] }

/-- The spread `...P @arguments(color: 1)` leaves out the width. It may leave out the size, whose
last declaration does not require it, and the argument without type. -/
theorem Context.errors_of_givesArguments_oddFragment :
    let directive : Directive :=
      ⟨⟨argumentsName, ⟨1, 9⟩⟩, [⟨⟨"color", ⟨1, 19⟩⟩, .int "1" ⟨1, 26⟩⟩], ⟨1, 8⟩⟩
    let spread : Spread := ⟨⟨"P", ⟨1, 6⟩⟩, [directive], ⟨1, 3⟩⟩
    let use : DirectiveUse := ⟨.spread spread, 0, directive⟩
    let context := Context.ofDocument pictureSchema
      ⟨[.operation (sizeQuery [directive]), .fragment oddFragment]⟩
    let errors (events : List Event) :=
      ((knownFragmentArguments suggestions LanguageRules.unknownArguments context).findings
        events).filterMap Finding.diagnostic?
    spread ∈ spreadsOf (sizeQuery [directive]).selections ∧
      use ∈ (Carrier.spread spread).uses spread.directives ∧
      directive.name.text = argumentsName ∧
      context.fragment? spread.name.text = some oddFragment ∧
      (∀ scope, errors (use.events context.schema scope) =
        [⟨.relay (.missingArgument "width"), [⟨1, 8⟩]⟩,
          ⟨.relay (.unknownArgument "color" (.ok [])), [⟨1, 8⟩]⟩]) ∧
      oddFragment.declaredNames = ["size", "odd", "width"] := by
  intro directive spread use context errors
  have hspread : spread ∈ spreadsOf (sizeQuery [directive]).selections := List.mem_singleton_self _
  have huse : use ∈ (Carrier.spread spread).uses spread.directives := List.mem_singleton_self _
  have hdefinition : .operation (sizeQuery [directive]) ∈ context.document.definitions :=
    List.mem_cons_self
  have hfragment : context.fragment? spread.name.text = some oddFragment := by rfl
  have herrors := (Context.errors_of_givesArguments suggestions hdefinition hspread huse rfl
    hfragment).2.1
  have hnames : oddFragment.declaredNames = ["size", "odd", "width"] := by cbv
  have hmissing : oddFragment.missingNames context.schema directive = ["width"] := by cbv
  have hunknown : oddFragment.unknownNames directive = ["color"] := by cbv
  have hsimilar : suggestions "color" ["size", "odd", "width"] = .ok [] := by decide +kernel
  refine ⟨hspread, huse, rfl, hfragment, fun scope => ?_, hnames⟩
  rw [← hsimilar, ← hnames]
  refine (herrors scope).trans ?_
  rw [bindingErrors, hmissing, hunknown]
  rfl

end RelayCheck
