import RelayCheck.Proofs.FragmentArguments.GivenArguments
import RelayCheck.Proofs.Language.Constants
import RelayCheck.Proofs.Validation.Directives

/-!
# Constants given to arguments

A directive that gives arguments to a fragment may give constants, or values with variables. The
constants are tested against the types that the fragment declares, and those that do not pass the
test are reported, one by one and in the order of the document. Values with variables are not
tested, whatever the test is.

The module introduces:

- `Fragment.argumentType?`, the type that a fragment declares for an argument;
- `GivenConstant`, a constant that is given to an argument of a type, and
  `Context.givenConstants`, those on a spread.

The main result is `Context.trail_of_givenConstants`.
-/

namespace RelayCheck

/-! ## Constants -/

/-- The type that the fragment declares for an argument: that of the last declaration of the name,
if it is an input type of the schema. -/
def Fragment.argumentType? (schema : Schema) (fragment : Fragment) (name : String) :
    Option (TypeRef String) :=
  (fragment.lastDeclaring? name).bind fun argument => (Declaration.ofArgument schema argument).type

/-- The arguments that a directive gives to a fragment. -/
def Directive.givenArguments (directive : Directive) : List Argument :=
  if directive.name.text == argumentsName then directive.arguments else []

/-- The arguments that a spread gives to its fragment, in order. -/
def Spread.givenArguments (spread : Spread) : List Argument :=
  spread.directives.flatMap Directive.givenArguments

/-- A constant that a spread gives to an argument of its fragment, with the type of that. -/
structure GivenConstant where
  /-- The spread. -/
  spread : Spread
  /-- The argument, with the value that is given. -/
  argument : Argument
  /-- The type that the fragment declares. -/
  type : TypeRef String
  /-- The value is a constant. -/
  isConstant : argument.value.IsConstant

/-- The report that a constant is not of its type. -/
def GivenConstant.report (given : GivenConstant) : Finding :=
  .relay (.badArgumentValue given.argument.name.text given.spread.name.text given.type)
    [given.argument.value.pos]

/-- An argument that a spread gives to a fragment, if it is a constant, and the fragment declares
the argument with a type. -/
def Fragment.givenConstant? (schema : Schema) (fragment : Fragment) (spread : Spread)
    (argument : Argument) : Option GivenConstant :=
  if h : argument.value.IsConstant then
    (fragment.argumentType? schema argument.name.text).map fun type => ⟨spread, argument, type, h⟩
  else none

/-- The constants that a spread gives to arguments of its fragment, if the document defines
that. -/
def Context.givenConstants (context : Context) (spread : Spread) : List GivenConstant :=
  (context.fragment? spread.name.text).toList.flatMap fun fragment =>
    spread.givenArguments.filterMap (fragment.givenConstant? context.schema spread)

/-- The constants that spreads in definitions give to arguments, in order. -/
def Context.constantsIn (context : Context) (definitions : List Definition) : List GivenConstant :=
  definitions.flatMap fun definition =>
    (spreadsInOrder definition.selections).flatMap context.givenConstants

/-- What is reported of constants with the given test: those that do not pass it. -/
def badConstants (schema : Schema) (test : LiteralTest) (constants : List GivenConstant) :
    List Finding :=
  (constants.filter fun given => !test schema given.argument.value given.type).map
    GivenConstant.report

/-! ## The rule -/

section Rule

variable {schema : Schema} {test : LiteralTest} {context : Context} {spread : Spread}
  {fragment : Fragment}

/-- What is reported of several constants is what is reported of each of them. -/
theorem badConstants_flatMap {α : Type} (constants : α → List GivenConstant) (items : List α) :
    badConstants schema test (items.flatMap constants) =
      items.flatMap fun item => badConstants schema test (constants item) := by
  rw [badConstants, List.filter_flatMap, List.map_flatMap]
  rfl

/-- An argument that is given is tested if it is a constant, and the argument has a type. -/
theorem argumentValueFindings_declarations (argument : Argument) :
    argumentValueFindings test schema spread.name.text (fragment.declarations schema) argument =
      badConstants schema test (fragment.givenConstant? schema spread argument).toList := by
  have htype : ((fragment.declarations schema).get? argument.name.text).bind Declaration.type =
      fragment.argumentType? schema argument.name.text := by
    rw [fragment.get?_declarations, Option.bind_map]
    rfl
  rw [argumentValueFindings, htype, Fragment.givenConstant?]
  -- the search for variables comes first, so that the test is asked about constants only
  by_cases hconstant : argument.value.IsConstant
  · rw [dif_pos hconstant, Value.hasVariable_eq_false_iff.mpr hconstant]
    cases fragment.argumentType? schema argument.name.text with
    | none => rfl
    | some type =>
      cases htest : test schema argument.value type <;>
        simp [badConstants, htest, GivenConstant.report]
  · rw [dif_neg hconstant, Value.hasVariable_eq_true_iff.mpr hconstant]
    cases fragment.argumentType? schema argument.name.text <;> rfl

/-- The directives on a spread are applied to it. -/
theorem spread?_of_mem_uses {use : DirectiveUse}
    (huse : use ∈ (Carrier.spread spread).uses spread.directives) : use.spread? = some spread := by
  rw [DirectiveUse.spread?, Carrier.carrier_of_mem_uses huse]

/-- At a directive on a spread of a fragment, the rule for values of arguments reports constants
among the arguments that it gives. -/
theorem givenFindings_of_mem_uses {use : DirectiveUse}
    (huse : use ∈ (Carrier.spread spread).uses spread.directives)
    (hfragment : context.fragment? spread.name.text = some fragment) :
    context.givenFindings test use = use.directive.givenArguments.flatMap fun argument =>
      badConstants context.schema test
        (fragment.givenConstant? context.schema spread argument).toList := by
  rw [Context.givenFindings, Context.target?, spread?_of_mem_uses huse, Option.bind_some, hfragment,
    DirectiveUse.givesArguments, Directive.givenArguments]
  cases use.directive.name.text == argumentsName with
  | false => rfl
  | true => exact List.flatMap_congr fun argument _ => argumentValueFindings_declarations argument

/-- At the directives on a spread, the rule for values of arguments reports constants that do not
pass the test. -/
theorem flatMap_givenFindings_uses (spread : Spread) :
    ((Carrier.spread spread).uses spread.directives).flatMap (context.givenFindings test) =
      badConstants context.schema test (context.givenConstants spread) := by
  cases hfragment : context.fragment? spread.name.text with
  | none =>
    -- arguments of fragments that are not defined are not looked at
    rw [Context.givenConstants, hfragment]
    refine List.flatMap_eq_nil_iff.mpr fun use huse => ?_
    rw [Context.givenFindings, Context.target?, spread?_of_mem_uses huse, Option.bind_some,
      hfragment]
    cases use.givesArguments <;> rfl
  | some fragment =>
    let look (argument : Argument) : List Finding :=
      badConstants context.schema test
        (fragment.givenConstant? context.schema spread argument).toList
    have hconstants : context.givenConstants spread =
        spread.givenArguments.filterMap (fragment.givenConstant? context.schema spread) := by
      rw [Context.givenConstants, hfragment]
      exact List.append_nil _
    calc ((Carrier.spread spread).uses spread.directives).flatMap (context.givenFindings test)
        = ((Carrier.spread spread).uses spread.directives).flatMap fun use =>
            use.directive.givenArguments.flatMap look :=
          List.flatMap_congr fun use huse => givenFindings_of_mem_uses huse hfragment
      _ = spread.directives.flatMap fun directive => directive.givenArguments.flatMap look := by
          conv_rhs => rw [← (Carrier.spread spread).map_directive_uses spread.directives]
          rw [List.flatMap_map]
      _ = spread.givenArguments.flatMap look := by rw [Spread.givenArguments, List.flatMap_assoc]
      _ = badConstants context.schema test (context.givenConstants spread) := by
          rw [hconstants, List.filterMap_eq_flatMap_toList, badConstants_flatMap]

/-- In definitions, the rule for values of arguments reports constants that do not pass the
test. -/
theorem findings_argumentsOfCorrectType_definition (definition : Definition) :
    (argumentsOfCorrectType test context).findings (definition.events context.schema) =
      badConstants context.schema test
        ((spreadsInOrder definition.selections).flatMap context.givenConstants) := by
  -- the rule does not look at directives on anything but a spread
  have hlook (use : DirectiveUse) (huse : ∀ spread, use.carrier ≠ .spread spread) :
      context.givenFindings test use = [] := by
    have hspread : use.spread? = none := by
      rw [DirectiveUse.spread?]
      split
      next spread hcarrier => exact absurd hcarrier (huse spread)
      next => rfl
    rw [Context.givenFindings, hspread]
    split <;> first | rfl | contradiction
  rw [findings_argumentsOfCorrectType, definition.filterMap_directive?_events,
    definition.flatMap_directiveUses_of_spread hlook, badConstants_flatMap]
  exact List.flatMap_congr fun spread _ => flatMap_givenFindings_uses spread

/-- In several definitions, the rule for values of arguments reports constants that do not pass the
test. -/
theorem flatMap_findings_argumentsOfCorrectType (definitions : List Definition) :
    (definitions.flatMap fun definition =>
        (argumentsOfCorrectType test context).findings (definition.events context.schema)) =
      badConstants context.schema test (context.constantsIn definitions) := by
  rw [Context.constantsIn, badConstants_flatMap]
  exact List.flatMap_congr fun definition _ => findings_argumentsOfCorrectType_definition definition

/-- Tests that agree on all constants of a list report the same of them. -/
theorem badConstants_congr {other : LiteralTest} {constants : List GivenConstant}
    (hsame : ∀ given ∈ constants,
      other schema given.argument.value given.type = test schema given.argument.value given.type) :
    badConstants schema other constants = badConstants schema test constants := by
  refine congrArg (List.map _) (List.filter_congr fun given hgiven => ?_)
  rw [hsame given hgiven]

/-- The constants in definitions that are not nested too deeply are some of those in the
document. -/
theorem constantsIn_shallow_subset (context : Context) :
    context.constantsIn context.document.shallow ⊆
      context.constantsIn context.document.definitions :=
  (context.document.isPrefix_shallow.flatMap _).subset

end Rule

/-- Whatever the test of literals is, the rule for values of arguments reports one error for each
constant that does not pass it, in the order of the document, and nothing else: for each argument
that a directive on a spread, at any depth, gives to a fragment of the document, if the fragment
declares the argument with a type, and no variable occurs in the value. Alone, the rule does so in
the definitions before the first one that is nested too deeply. The test is asked about these
constants only: what it says about anything else, and so about values in which variables occur,
makes no difference. -/
theorem Context.trail_of_givenConstants (suggest : Suggest) (test : LiteralTest)
    (context : Context) :
    let found (test : LiteralTest) := (argumentsOfCorrectType test context).findings
      (context.document.events context.schema)
    let trail (test : LiteralTest) :=
      context.trail [.relay .argumentsOfCorrectType { suggest, test }]
    let bad (definitions : List Definition) :=
      badConstants context.schema test (context.constantsIn definitions)
    found test = bad context.document.definitions ∧
    trail test = ⟨bad context.document.shallow, context.document.isTooDeep⟩ ∧
    ∀ other : LiteralTest,
      (∀ given ∈ context.constantsIn context.document.definitions,
        other context.schema given.argument.value given.type =
          test context.schema given.argument.value given.type) →
      found other = found test ∧ trail other = trail test := by
  intro found trail bad
  have hfound (test : LiteralTest) : found test =
      badConstants context.schema test (context.constantsIn context.document.definitions) := by
    rw [← flatMap_findings_argumentsOfCorrectType]
    exact (RelayRule.isMemoryless (by decide : RelayRule.argumentsOfCorrectType ≠ _) suggest test
      context).findings_events _ _
  have htrail (test : LiteralTest) : trail test =
      ⟨badConstants context.schema test (context.constantsIn context.document.shallow),
        context.document.isTooDeep⟩ := by
    rw [← flatMap_findings_argumentsOfCorrectType]
    exact trail_singleton_eq_shallow (by decide) (by decide) suggest test
  refine ⟨hfound test, htrail test, fun other hsame => ⟨?_, ?_⟩⟩
  · rw [hfound, hfound, badConstants_congr hsame]
  · rw [htrail, htrail, badConstants_congr fun given hgiven =>
      hsame given (constantsIn_shallow_subset context hgiven)]

/-- The spread `...P @arguments(size: "big")` gives text for the size. It is reported, too, by a
test that passes all values with variables. -/
theorem Context.trail_of_givenConstants_size :
    let directive : Directive :=
      ⟨⟨argumentsName, ⟨1, 9⟩⟩, [⟨⟨"size", ⟨1, 19⟩⟩, .string "big" false ⟨1, 25⟩⟩], ⟨1, 8⟩⟩
    let context := Context.ofDocument pictureSchema
      ⟨[.operation (sizeQuery [directive]), .fragment sizedFragment]⟩
    let lenient : LiteralTest := fun schema value type =>
      value.hasVariable || denotesValue schema value type
    (∀ given ∈ context.constantsIn context.document.definitions,
      lenient context.schema given.argument.value given.type =
        denotesValue context.schema given.argument.value given.type) ∧
    (argumentsOfCorrectType lenient context).findings (context.document.events context.schema) =
      [.relay (.badArgumentValue "size" "P" (.nonNull (.named "Int"))) [⟨1, 25⟩]] := by
  intro directive context lenient
  have hsame : ∀ given ∈ context.constantsIn context.document.definitions,
      lenient context.schema given.argument.value given.type =
        denotesValue context.schema given.argument.value given.type := by
    intro given _
    show (given.argument.value.hasVariable || _) = _
    rw [Value.hasVariable_eq_false_iff.mpr given.isConstant, Bool.false_or]
  obtain ⟨hfound, -, hother⟩ := context.trail_of_givenConstants suggestions denotesValue
  refine ⟨hsame, (hother lenient hsame).1.trans (hfound.trans ?_)⟩
  -- what is left says which constants there are and that the only one is no integer
  cbv

end RelayCheck
