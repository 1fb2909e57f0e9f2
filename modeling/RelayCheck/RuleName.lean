import RelayCheck.Connections.Rules
import RelayCheck.FragmentArguments.Bindings
import RelayCheck.FragmentArguments.Positions
import RelayCheck.FragmentArguments.Scoping
import RelayCheck.LanguageRules.Directives
import RelayCheck.LanguageRules.Fragments
import RelayCheck.LanguageRules.Names
import RelayCheck.LanguageRules.Types
import RelayCheck.LanguageRules.Values

/-!
# The rules by name

Every rule has a name under which it can be asked for. The rules for fragment arguments and
connections have parts that can be exchanged: the choice of names to offer, the check of other
arguments, and the test of literals. Three of the rules that hold for all documents are not defined
here but supplied: those on the root fields of subscriptions, on fields that share a response name,
and on the depth of introspection. They run in their places among the others, whatever they find.

This module introduces:

- `RelayRule`, `LanguageRule` and `SuppliedRule`, the rules, with their names as text;
- `Parts`, the exchangeable parts, and `Supply`, the rules that are supplied;
- `RuleName` and `standardRules`, the rules in the order in which they run.
-/

namespace RelayCheck

/-- The rules for fragment arguments and connections. -/
inductive RelayRule
  | knownArgumentNames | knownVariableNames | variablesInAllowedPosition
  | argumentsOfCorrectType | defaultsOfCorrectType | noUnusedArguments
  | requiredPageInfoFields | missingConnectionDirective
deriving DecidableEq

/-- The rules that hold for all documents and are defined elsewhere. -/
inductive SuppliedRule
  | singleFieldSubscriptions | overlappingFields | introspectionDepth
deriving DecidableEq

/-- The rules that hold for all documents. -/
inductive LanguageRule
  | executableDefinitions | uniqueOperationNames | loneAnonymousOperation | knownTypeNames
  | fragmentsOnCompositeTypes | variablesAreInputTypes | scalarLeafs | fieldsOnCorrectType
  | uniqueFragmentNames | knownFragmentNames | noUnusedFragments | possibleFragmentSpreads
  | noFragmentCycles | uniqueVariableNames | noUnusedVariables | knownDirectives
  | uniqueDirectives | uniqueArgumentNames | valuesOfCorrectType | providedRequiredArguments
  | uniqueInputFieldNames
  /-- A rule that is defined elsewhere. -/
  | supplied (rule : SuppliedRule)
deriving DecidableEq

namespace RelayRule

/-- The name of the rule. -/
def text : RelayRule → String
  | knownArgumentNames => "RelayKnownArgumentNamesRule"
  | knownVariableNames => "RelayKnownVariableNamesRule"
  | variablesInAllowedPosition => "RelayVariablesInAllowedPositionRule"
  | argumentsOfCorrectType => "RelayArgumentsOfCorrectTypeRule"
  | defaultsOfCorrectType => "RelayDefaultValueOfCorrectTypeRule"
  | noUnusedArguments => "RelayNoUnusedArgumentsRule"
  | requiredPageInfoFields => "RelayRequiredPageInfoFieldsRule"
  | missingConnectionDirective => "RelayCompatMissingConnectionDirectiveRule"

/-- The rules that always run, in order. -/
def always : List RelayRule :=
  [knownArgumentNames, knownVariableNames, variablesInAllowedPosition, argumentsOfCorrectType,
    defaultsOfCorrectType, noUnusedArguments, requiredPageInfoFields]

/-- The rules that run in compatibility mode only, in order. -/
def compatibility : List RelayRule :=
  [missingConnectionDirective]

/-- The rule of the given name. -/
def ofText? (name : String) : Option RelayRule :=
  (always ++ compatibility).find? fun rule => rule.text == name

end RelayRule

/-- The exchangeable parts of the rules for fragment arguments. -/
structure Parts where
  /-- Which names are offered for a misspelled one. -/
  suggest : Suggest := suggestions
  /-- How arguments other than those of fragments are checked. -/
  check : ArgumentCheck := LanguageRules.unknownArguments
  /-- How literals given to fragment arguments, or declared as their defaults, are tested. -/
  test : LiteralTest := denotesValue

/-- The rule, with the given parts. -/
def RelayRule.rule (parts : Parts) (context : Context) : RelayRule → Rule
  | knownArgumentNames => knownFragmentArguments parts.suggest parts.check context
  | knownVariableNames => RelayCheck.knownVariableNames context
  | variablesInAllowedPosition => RelayCheck.variablesInAllowedPosition context
  | argumentsOfCorrectType => RelayCheck.argumentsOfCorrectType parts.test context
  | defaultsOfCorrectType => RelayCheck.defaultsOfCorrectType parts.test context
  | noUnusedArguments => RelayCheck.noUnusedArguments context
  | requiredPageInfoFields => RelayCheck.requiredPageInfoFields context
  | missingConnectionDirective => RelayCheck.missingConnectionDirective

/-- The name of the rule. -/
def SuppliedRule.text : SuppliedRule → String
  | singleFieldSubscriptions => "SingleFieldSubscriptionsRule"
  | overlappingFields => "OverlappingFieldsCanBeMergedRule"
  | introspectionDepth => "MaxIntrospectionDepthRule"

/-- What the rules that are defined elsewhere find on the documents of a context. Where nothing else
is known of them, they find nothing. -/
structure Supply where
  /-- The rule. -/
  rule : SuppliedRule → Context → Rule := fun _ _ => .silent

namespace LanguageRule

/-- The name of the rule. -/
def text : LanguageRule → String
  | executableDefinitions => "ExecutableDefinitionsRule"
  | uniqueOperationNames => "UniqueOperationNamesRule"
  | loneAnonymousOperation => "LoneAnonymousOperationRule"
  | knownTypeNames => "KnownTypeNamesRule"
  | fragmentsOnCompositeTypes => "FragmentsOnCompositeTypesRule"
  | variablesAreInputTypes => "VariablesAreInputTypesRule"
  | scalarLeafs => "ScalarLeafsRule"
  | fieldsOnCorrectType => "FieldsOnCorrectTypeRule"
  | uniqueFragmentNames => "UniqueFragmentNamesRule"
  | knownFragmentNames => "KnownFragmentNamesRule"
  | noUnusedFragments => "NoUnusedFragmentsRule"
  | possibleFragmentSpreads => "PossibleFragmentSpreadsRule"
  | noFragmentCycles => "NoFragmentCyclesRule"
  | uniqueVariableNames => "UniqueVariableNamesRule"
  | noUnusedVariables => "NoUnusedVariablesRule"
  | knownDirectives => "KnownDirectivesRule"
  | uniqueDirectives => "UniqueDirectivesPerLocationRule"
  | uniqueArgumentNames => "UniqueArgumentNamesRule"
  | valuesOfCorrectType => "ValuesOfCorrectTypeRule"
  | providedRequiredArguments => "ProvidedRequiredArgumentsRule"
  | uniqueInputFieldNames => "UniqueInputFieldNamesRule"
  | supplied rule => rule.text

/-- All rules that hold for all documents, in order. -/
def all : List LanguageRule :=
  [executableDefinitions, uniqueOperationNames, loneAnonymousOperation,
    supplied .singleFieldSubscriptions, knownTypeNames, fragmentsOnCompositeTypes,
    variablesAreInputTypes, scalarLeafs, fieldsOnCorrectType, uniqueFragmentNames,
    knownFragmentNames, noUnusedFragments, possibleFragmentSpreads, noFragmentCycles,
    uniqueVariableNames, noUnusedVariables, knownDirectives, uniqueDirectives,
    uniqueArgumentNames, valuesOfCorrectType, providedRequiredArguments,
    supplied .overlappingFields, uniqueInputFieldNames, supplied .introspectionDepth]

/-- The rule, if it is defined elsewhere that of the supply. -/
def rule (supply : Supply) (context : Context) : LanguageRule → Rule
  | executableDefinitions => LanguageRules.executableDefinitions
  | uniqueOperationNames => LanguageRules.uniqueOperationNames
  | loneAnonymousOperation => LanguageRules.loneAnonymousOperation context
  | knownTypeNames => LanguageRules.knownTypeNames context
  | fragmentsOnCompositeTypes => LanguageRules.fragmentsOnCompositeTypes context
  | variablesAreInputTypes => LanguageRules.variablesAreInputTypes context
  | scalarLeafs => LanguageRules.scalarLeafs context
  | fieldsOnCorrectType => LanguageRules.fieldsOnCorrectType context
  | uniqueFragmentNames => LanguageRules.uniqueFragmentNames
  | knownFragmentNames => LanguageRules.knownFragmentNames context
  | noUnusedFragments => LanguageRules.noUnusedFragments context
  | possibleFragmentSpreads => LanguageRules.possibleFragmentSpreads context
  | noFragmentCycles => LanguageRules.noFragmentCycles context
  | uniqueVariableNames => LanguageRules.uniqueVariableNames
  | noUnusedVariables => LanguageRules.noUnusedVariables context
  | knownDirectives => LanguageRules.knownDirectives context
  | uniqueDirectives => LanguageRules.uniqueDirectives context
  | uniqueArgumentNames => LanguageRules.uniqueArgumentNames
  | valuesOfCorrectType => LanguageRules.valuesOfCorrectType context
  | providedRequiredArguments => LanguageRules.providedRequiredArguments context
  | uniqueInputFieldNames => LanguageRules.uniqueInputFieldNames
  | supplied rule => supply.rule rule context

end LanguageRule

/-- A rule by name, with its parts if it has exchangeable ones. -/
inductive RuleName
  /-- A rule for fragment arguments or connections. -/
  | relay (rule : RelayRule) (parts : Parts)
  /-- A rule that holds for all documents. -/
  | language (rule : LanguageRule) (supply : Supply)

namespace RuleName

/-- The name of the rule. -/
def text : RuleName → String
  | relay rule _ => rule.text
  | language rule _ => rule.text

/-- The rule for the documents of a context. -/
def rule (context : Context) : RuleName → Rule
  | relay rule parts => rule.rule parts context
  | language rule supply => rule.rule supply context

end RuleName

/-- The rules that documents are checked with, in order. -/
def standardRules (compat : Bool) (supply : Supply := {}) : List RuleName :=
  let relay := RelayRule.always ++ if compat then RelayRule.compatibility else []
  relay.map (fun rule => RuleName.relay rule {})
    ++ LanguageRule.all.map fun rule => RuleName.language rule supply

end RelayCheck
