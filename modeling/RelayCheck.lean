import RelayCheck.Analysis
import RelayCheck.Check
import RelayCheck.CommandLine
import RelayCheck.Connections.Pagination
import RelayCheck.Connections.Rules
import RelayCheck.Data.InsertionSort
import RelayCheck.Data.NameMap
import RelayCheck.FragmentArguments.Bindings
import RelayCheck.FragmentArguments.Declaration
import RelayCheck.FragmentArguments.Positions
import RelayCheck.FragmentArguments.Scoping
import RelayCheck.FragmentArguments.Unification
import RelayCheck.FragmentArguments.Usage
import RelayCheck.Fragments.Nesting
import RelayCheck.Fragments.Spreads
import RelayCheck.Fragments.Variables
import RelayCheck.Language.Document
import RelayCheck.Language.Lexer
import RelayCheck.Language.Parser.Basic
import RelayCheck.Language.Parser.Document
import RelayCheck.Language.Parser.Executable
import RelayCheck.Language.Parser.TypeSystem
import RelayCheck.Language.Parser.Values
import RelayCheck.Language.Token
import RelayCheck.Language.TypeRef
import RelayCheck.Language.Value
import RelayCheck.LanguageRules.Directives
import RelayCheck.LanguageRules.Fragments
import RelayCheck.LanguageRules.Names
import RelayCheck.LanguageRules.TypeSystem
import RelayCheck.LanguageRules.Types
import RelayCheck.LanguageRules.Values
import RelayCheck.Main
import RelayCheck.Proofs.Connections.Pagination
import RelayCheck.Proofs.Data.NameMap
import RelayCheck.Proofs.FragmentArguments.Alike
import RelayCheck.Proofs.FragmentArguments.ChangedWalk
import RelayCheck.Proofs.FragmentArguments.DirectiveRules
import RelayCheck.Proofs.FragmentArguments.LexicalScope
import RelayCheck.Proofs.FragmentArguments.Parts
import RelayCheck.Proofs.FragmentArguments.PlainUsages
import RelayCheck.Proofs.FragmentArguments.PositionDefaults
import RelayCheck.Proofs.FragmentArguments.Positions
import RelayCheck.Proofs.FragmentArguments.Renaming
import RelayCheck.Proofs.FragmentArguments.RenamingDirectives
import RelayCheck.Proofs.FragmentArguments.RenamingReports
import RelayCheck.Proofs.FragmentArguments.RenamingUsages
import RelayCheck.Proofs.FragmentArguments.RenamingWalk
import RelayCheck.Proofs.FragmentArguments.Reordering
import RelayCheck.Proofs.FragmentArguments.RepeatedReports
import RelayCheck.Proofs.FragmentArguments.Reports
import RelayCheck.Proofs.FragmentArguments.RequiredArguments
import RelayCheck.Proofs.FragmentArguments.Scoping
import RelayCheck.Proofs.FragmentArguments.SharedVariables
import RelayCheck.Proofs.FragmentArguments.Unification
import RelayCheck.Proofs.FragmentArguments.UnknownTypes
import RelayCheck.Proofs.FragmentArguments.UnknownTypesWalk
import RelayCheck.Proofs.FragmentArguments.Usage
import RelayCheck.Proofs.Fragments.Correspondence
import RelayCheck.Proofs.Fragments.Reachability
import RelayCheck.Proofs.Fragments.Reordering
import RelayCheck.Proofs.Fragments.Separation
import RelayCheck.Proofs.Independence
import RelayCheck.Proofs.Language.RenamedVariables
import RelayCheck.Proofs.Renaming
import RelayCheck.Proofs.Reordering
import RelayCheck.Proofs.Schema.Defaults
import RelayCheck.Proofs.Schema.Subtype
import RelayCheck.Proofs.UnknownTypes
import RelayCheck.Proofs.Validation.Reordering
import RelayCheck.Proofs.Validation.Run
import RelayCheck.Proofs.Validation.Searches
import RelayCheck.Proofs.Validation.SideBySide
import RelayCheck.Proofs.Validation.Walk
import RelayCheck.RuleName
import RelayCheck.Schema.Basic
import RelayCheck.Schema.BuiltIn
import RelayCheck.Schema.Coercion
import RelayCheck.Schema.Construction
import RelayCheck.Schema.Definition
import RelayCheck.Schema.Load
import RelayCheck.Schema.RelayDirectives
import RelayCheck.Schema.Validity
import RelayCheck.Text.DecimalDigit
import RelayCheck.Text.Numeral
import RelayCheck.Text.Quoted
import RelayCheck.Text.Source
import RelayCheck.Text.Suggestion
import RelayCheck.Validation.Context
import RelayCheck.Validation.Problem
import RelayCheck.Validation.Rule
import RelayCheck.Validation.Traversal
import RelayCheck.Proofs.Validation.Quiet
import RelayCheck.Proofs.FragmentArguments.DeclaredTypes
import RelayCheck.Proofs.FragmentArguments.UnusedVariables
import RelayCheck.Proofs.Fragments.Nesting
import RelayCheck.Proofs.Separation
import RelayCheck.Proofs.Validation.Placed
import RelayCheck.Proofs.Output
import RelayCheck.Proofs.FragmentArguments.Conflicts
import RelayCheck.Proofs.FragmentArguments.Agreement
import RelayCheck.Proofs.FragmentArguments.NestedFragments
import RelayCheck.Proofs.Connections.Chains
import RelayCheck.Proofs.Connections.Rearrangement
import RelayCheck.Proofs.Validation.Details
import RelayCheck.Proofs.Validation.Fields
import RelayCheck.Proofs.Connections.RequiredFields
import RelayCheck.Proofs.FragmentArguments.GivenArguments
import RelayCheck.Proofs.Language.Constants
import RelayCheck.Proofs.Validation.Directives
import RelayCheck.Proofs.FragmentArguments.Metadata
import RelayCheck.Proofs.FragmentArguments.OtherArguments
import RelayCheck.Proofs.FragmentArguments.GivenValues
import RelayCheck.Proofs.FragmentArguments.DeclaredDefaults
import RelayCheck.Proofs.FragmentArguments.EffectiveTypes
import RelayCheck.Proofs.Language.Lexemes
import RelayCheck.Proofs.Language.TypeTexts
import RelayCheck.Proofs.Fragments.Referencing
import RelayCheck.Proofs.FragmentArguments.UnusedArguments
import RelayCheck.Proofs.Connections.Termination
import RelayCheck.Proofs.Language.VariableTypes
import RelayCheck.Proofs.FragmentArguments.TypedDeclarations
import RelayCheck.Proofs.Schema.RelayDirectives
