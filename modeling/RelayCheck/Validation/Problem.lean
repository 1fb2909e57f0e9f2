import RelayCheck.Schema.Coercion
import RelayCheck.Text.Suggestion

/-!
# What can be wrong with a document

Every way in which a document can break a rule, and the wording of the message that says so. The
rules of the language and those for fragment arguments and connections are kept apart, and so are
rules that are defined elsewhere and bring their own words.

This module introduces `LanguageProblem`, `RelayProblem` and their union `Problem`, each with its
`message`, and `Warning`, for what is odd without breaking a rule.
-/

namespace RelayCheck

/-- A breach of the rules that hold for all documents. -/
inductive LanguageProblem
  /-- A definition other than an operation or fragment, by name; the schema has none. -/
  | notExecutable (name : Option String)
  /-- Two operations have one name. -/
  | repeatedOperation (name : String)
  /-- An operation without name is not alone. -/
  | anonymousNotAlone
  /-- A type is not known. -/
  | unknownType (name : String) (similar : Suggestions)
  /-- A fragment is on a type without fields; an inline fragment has no name. -/
  | fragmentOnLeaf (fragment : Option String) (type : String)
  /-- A variable has a type that is no input type. -/
  | outputVariable (name : String) (type : TypeRef String)
  /-- Selections are made of a field whose type has no fields. -/
  | selectionsOfLeaf (field : String) (type : TypeRef String)
  /-- No selections are made of a field whose type has fields. -/
  | missingSelections (field : String) (type : TypeRef String)
  /-- A type does not have the field; types that do, and similar fields, may be offered. -/
  | unknownField (field type : String) (onTypes : List String) (similar : Suggestions)
  /-- Two fragments have one name. -/
  | repeatedFragment (name : String)
  /-- A fragment is not defined. -/
  | unknownFragment (name : String)
  /-- A fragment is used by no operation. -/
  | unusedFragment (name : String)
  /-- No object can be of both types; an inline fragment has no name. -/
  | impossibleSpread (fragment : Option String) (parent type : String)
  /-- A fragment uses itself by way of others. -/
  | fragmentCycle (name : String) (via : List String)
  /-- Two variables of an operation have one name. -/
  | repeatedVariable (name : String)
  /-- A variable of an operation, by the operation's name, is used nowhere. -/
  | unusedVariable (name : String) (operation : Option String)
  /-- A directive is not known. -/
  | unknownDirective (name : String)
  /-- A directive stands where it may not. -/
  | misplacedDirective (name : String) (location : DirectiveLocation)
  /-- A directive is repeated that may not be. -/
  | repeatedDirective (name : String)
  /-- Two arguments at one place have one name. -/
  | repeatedArgument (name : String)
  /-- Two fields of an object have one name. -/
  | repeatedInputField (name : String)
  /-- A leaf type refuses a literal at a position of the given type. -/
  | badLeaf (expected : TypeRef String) (type : NamedType) (fault : LeafFault) (value : Value)
  /-- A literal is not one of the expected type. -/
  | badValue (type : TypeRef String) (value : Value)
  /-- An input object does not have the field. -/
  | unknownInputField (field type : String) (similar : Suggestions)
  /-- A field that an input object requires is not given. -/
  | missingInputField (field type : String) (fieldType : TypeRef String)
  /-- An input object that takes one field is given none or several. -/
  | notOneField (type : String)
  /-- The one field given to an input object is null. -/
  | nullOneField (field type : String)
  /-- A directive is not given an argument that it requires. -/
  | missingDirectiveArgument (directive argument : String) (type : TypeRef String)
  /-- A field is not given an argument that it requires. -/
  | missingFieldArgument (field argument : String) (type : TypeRef String)
  /-- A field does not take the argument. -/
  | unknownFieldArgument (argument type field : String) (similar : Suggestions)
  /-- A directive does not take the argument. -/
  | unknownDirectiveArgument (argument directive : String) (similar : Suggestions)
  /-- There are two schema definitions. -/
  | repeatedSchema
  /-- There are two types for one kind of operation. -/
  | repeatedRoot (kind : OperationKind)
  /-- Two types have one name. -/
  | repeatedType (name : String)
  /-- Two values of an enum have one name. -/
  | repeatedEnumValue (type value : String)
  /-- Two fields of a type have one name. -/
  | repeatedField (type field : String)
  /-- Two arguments have one name, at a place given as it is written. -/
  | repeatedParameter (place argument : String)
  /-- Two directives have one name. -/
  | repeatedDirectiveDefinition (name : String)
  /-- An extension is of a type that is not defined. -/
  | extendsUnknown (name : String) (similar : Suggestions)
  /-- An extension is of a type of another kind. -/
  | extendsOther (kind : TypeKind) (name : String)

/-- A breach of the rules for fragment arguments and connections. -/
inductive RelayProblem
  /-- Argument definitions are announced, but there are none. -/
  | missingArgumentDefinitions
  /-- An argument definition is no object with a type. -/
  | invalidMetadata
  /-- An argument definition has a key without meaning. -/
  | unknownMetadataKey (key : String)
  /-- The type of an argument definition is no string. -/
  | nonStringType
  /-- The type of an argument definition cannot be read. -/
  | unreadableType (error : SyntaxError)
  /-- The type of an argument definition is not known. -/
  | unknownArgumentType (name : String)
  /-- The default of an argument definition contains a variable. -/
  | variableInDefault
  /-- Arguments are given to a fragment that has none. -/
  | noArgumentDefinitions (fragment : String)
  /-- A required argument is not given to a fragment. -/
  | missingArgument (argument : String)
  /-- A fragment does not take the argument. -/
  | unknownArgument (argument : String) (similar : Suggestions)
  /-- A variable is not defined by an operation; it may be used in a fragment. -/
  | undefinedVariable (name : String) (operation fragment : Option String)
  /-- A variable is not defined by the fragment that uses it, which no operation uses. -/
  | undefinedInFragment (name fragment : String)
  /-- A variable is defined by the operations that use a fragment, but in ways that do not
  agree. -/
  | incompatibleInFragment (name fragment : String)
  /-- A variable of one type stands where another is expected. -/
  | badPosition (name : String) (type expected : TypeRef String)
  /-- A value given to a fragment argument is not of its type. -/
  | badArgumentValue (argument fragment : String) (type : TypeRef String)
  /-- The default of a fragment argument is not of its type. -/
  | badDefault (argument fragment : String) (type : TypeRef String)
  /-- The default of a fragment argument is null. -/
  | nullDefault (argument fragment : String)
  /-- A fragment argument is used nowhere. -/
  | unusedArgument (argument fragment : String)
  /-- A paginated connection does not select its page information. -/
  | missingPageInfo (connection : String)
  /-- A paginated connection does not select a part of its page information. -/
  | missingPageInfoField (field connection : String)
  /-- A paginated field is not marked as a connection. -/
  | missingConnection (connection : String)

/-- Anything that can be wrong with a document. -/
inductive Problem
  /-- A breach of the rules that hold for all documents. -/
  | language (problem : LanguageProblem)
  /-- A breach of the rules for fragment arguments and connections. -/
  | relay (problem : RelayProblem)
  /-- A breach of a rule that is defined elsewhere, in the words of that rule. -/
  | supplied (message : String)
  /-- There are more problems than are reported. -/
  | tooMany
  /-- Selections are nested too deeply, or spread too many fragments, to be looked at. -/
  | aborted

/-- The names that a leaf type has for its values. -/
def NamedType.valueNames (type : NamedType) : List String :=
  match type.shape with
  | .enum values => values
  | _ => []

/-- The words that a literal stands where a value of another type is expected. -/
def unexpectedValue (expected : TypeRef String) (value : Value) : String :=
  s!"Expected value of type '{expected.render}', found {value.render}"

/-- The wording of the reason for which a leaf type refuses a literal at a position. An enum offers
the values that resemble the literal; where that fails, or the literal cannot be read at all, the
position takes the blame. -/
def LeafFault.message (expected : TypeRef String) (type : NamedType) (value : Value)
    (fault : LeafFault) : String :=
  let written := value.render
  let offering : String → String := fun refusal =>
    match suggestions written type.valueNames with
    | .ok names => refusal ++ didYouMean "the enum value" names
    | .error obstacle => s!"{unexpectedValue expected value}; {obstacle.message}"
  match fault with
  | notInteger => s!"Int cannot represent non-integer value: {written}"
  | notInt32 => s!"Int cannot represent non 32-bit signed integer value: {written}"
  | notNumber => s!"Float cannot represent non numeric value: {written}"
  | notString => s!"String cannot represent a non string value: {written}"
  | notBoolean => s!"Boolean cannot represent a non boolean value: {written}"
  | notId => s!"ID cannot represent a non-string and non-integer value: {written}"
  | notEnum => offering s!"Enum '{type.name}' cannot represent non-enum value: {written}."
  | unknownEnumValue => offering s!"Value '{written}' does not exist in '{type.name}' enum."
  | tooManyDigits excess => s!"{unexpectedValue expected value}; {excess.message}"

/-- The words for a kind of type. -/
def TypeKind.phrase : TypeKind → String
  | scalar => "scalar"
  | object => "object"
  | interface => "interface"
  | union => "union"
  | enum => "enum"
  | inputObject => "input object"

/-- The word "fragment" at the start of a sentence, with a name if there is one. -/
def fragmentPhrase : Option String → String
  | none => "Fragment"
  | some name => s!"Fragment '{name}'"

namespace LanguageProblem

/-- The wording of the problem. -/
def message : LanguageProblem → String
  | notExecutable none => "The schema definition is not executable."
  | notExecutable (some name) => s!"The '{name}' definition is not executable."
  | repeatedOperation name => s!"There can be only one operation named '{name}'."
  | anonymousNotAlone => "This anonymous operation must be the only defined operation."
  | unknownType name similar => s!"Unknown type '{name}'." ++ similar.sentence
  | fragmentOnLeaf fragment type =>
    fragmentPhrase fragment ++ s!" cannot condition on non composite type '{type}'."
  | outputVariable name type =>
    s!"Variable '${name}' cannot be non-input type '{type.render}'."
  | selectionsOfLeaf field type =>
    s!"Field '{field}' must not have a selection since type '{type.render}' has no subfields."
  | missingSelections field type =>
    s!"Field '{field}' of type '{type.render}' must have a selection of subfields."
      ++ s!" Did you mean '{field} " ++ "\x7b ... \x7d'?"
  | unknownField field type onTypes similar =>
    let offer :=
      if onTypes.isEmpty then similar.sentence
      else didYouMean "to use an inline fragment on" onTypes
    s!"Cannot query field '{field}' on type '{type}'." ++ offer
  | repeatedFragment name => s!"There can be only one fragment named '{name}'."
  | unknownFragment name => s!"Unknown fragment '{name}'."
  | unusedFragment name => s!"Fragment '{name}' is never used."
  | impossibleSpread fragment parent type =>
    fragmentPhrase fragment ++ " cannot be spread here as objects of type "
      ++ s!"'{parent}' can never be of type '{type}'."
  | fragmentCycle name via =>
    let path := ", ".intercalate (via.map fun other => s!"'{other}'")
    s!"Cannot spread fragment '{name}' within itself"
      ++ (if via.isEmpty then "." else s!" via {path}.")
  | repeatedVariable name => s!"There can be only one variable named '${name}'."
  | unusedVariable name none => s!"Variable '${name}' is never used."
  | unusedVariable name (some operation) =>
    s!"Variable '${name}' is never used in operation '{operation}'."
  | unknownDirective name => s!"Unknown directive '@{name}'."
  | misplacedDirective name location =>
    s!"Directive '@{name}' may not be used on {location.phrase}."
  | repeatedDirective name =>
    s!"The directive '@{name}' can only be used once at this location."
  | repeatedArgument name => s!"There can be only one argument named '{name}'."
  | repeatedInputField name => s!"There can be only one input field named '{name}'."
  | badLeaf expected type fault value => fault.message expected type value
  | badValue expected value => unexpectedValue expected value ++ "."
  | unknownInputField field type similar =>
    s!"Field '{field}' is not defined by type '{type}'." ++ similar.sentence
  | missingInputField field type fieldType =>
    s!"Field '{type}.{field}' of required type '{fieldType.render}' was not provided."
  | notOneField type => s!"OneOf Input Object '{type}' must specify exactly one key."
  | nullOneField field type => s!"Field '{type}.{field}' must be non-null."
  | missingDirectiveArgument directive argument type =>
    s!"Directive '@{directive}' argument '{argument}' of type '{type.render}' is required,"
      ++ " but it was not provided."
  | missingFieldArgument field argument type =>
    s!"Field '{field}' argument '{argument}' of type '{type.render}' is required,"
      ++ " but it was not provided."
  | unknownFieldArgument argument type field similar =>
    s!"Unknown argument '{argument}' on field '{type}.{field}'." ++ similar.sentence
  | unknownDirectiveArgument argument directive similar =>
    s!"Unknown argument '{argument}' on directive '@{directive}'." ++ similar.sentence
  | repeatedSchema => "Must provide only one schema definition."
  | repeatedRoot kind => s!"There can be only one {kind.text} type in schema."
  | repeatedType name => s!"There can be only one type named '{name}'."
  | repeatedEnumValue type value =>
    s!"Enum value '{type}.{value}' can only be defined once."
  | repeatedField type field => s!"Field '{type}.{field}' can only be defined once."
  | repeatedParameter place argument =>
    s!"Argument '{place}({argument}:)' can only be defined once."
  | repeatedDirectiveDefinition name => s!"There can be only one directive named '@{name}'."
  | extendsUnknown name similar =>
    s!"Cannot extend type '{name}' because it is not defined." ++ similar.sentence
  | extendsOther kind name => s!"Cannot extend non-{kind.phrase} type '{name}'."

end LanguageProblem

namespace RelayProblem

/-- The wording of the problem. -/
def message : RelayProblem → String
  | missingArgumentDefinitions => "Missing required argument definitions."
  | invalidMetadata =>
    "Metadata of argument definition should be of type \"Object\" with a \"type\" and "
      ++ "optional \"defaultValue\" key."
  | unknownMetadataKey key => s!"Unknown key \"{key}\" in argument definition metadata."
  | nonStringType =>
    "Value for \"type\" in argument definition metadata must be specified as string literal."
  | unreadableType error => error.message
  | unknownArgumentType name => s!"Unknown type \"{name}\" in argument definition metadata."
  | variableInDefault =>
    "Value for \"defaultValue\" in argument definition metadata cannot contain variables."
  | noArgumentDefinitions fragment =>
    s!"No fragment argument definitions exist for fragment \"{fragment}\"."
  | missingArgument argument => s!"Missing required fragment argument \"{argument}\"."
  | unknownArgument argument similar =>
    s!"Unknown fragment argument \"{argument}\"." ++ similar.sentence
  | undefinedVariable name operation fragment =>
    let byOperation := match operation with
      | none => ""
      | some operation => s!" by operation \"{operation}\""
    let inFragment := match fragment with
      | none => ""
      | some fragment => s!" (used by fragment \"{fragment}\")"
    s!"Variable \"${name}\" is not defined{byOperation}{inFragment}."
  | undefinedInFragment name fragment =>
    s!"Variable \"${name}\" is not defined by fragment \"{fragment}\"."
  | incompatibleInFragment name fragment =>
    s!"Variable \"${name}\" is not defined by fragment \"{fragment}\" or defined "
      ++ s!"in a compatible way across all operations using \"{fragment}\"."
  | badPosition name type expected =>
    s!"Variable \"${name}\" of type \"{type.render}\" used in position "
      ++ s!"expecting type \"{expected.render}\"."
  | badArgumentValue argument fragment type =>
    s!"Argument \"{argument}\" for fragment \"{fragment}\" is expected to be of type "
      ++ s!"\"{type.render}\"."
  | badDefault argument fragment type =>
    s!"defaultValue for argument \"{argument}\" on fragment \"{fragment}\" is expected "
      ++ s!"to be of type \"{type.required.render}\"."
  | nullDefault argument fragment =>
    s!"defaultValue for argument \"{argument}\" on fragment \"{fragment}\" cannot be "
      ++ "null. Instead, omit defaultValue."
  | unusedArgument argument fragment =>
    s!"Argument \"{argument}\" in fragment \"{fragment}\" is never used."
  | missingPageInfo connection =>
    s!"Missing pageInfo selection on connection \"{connection}\"."
  | missingPageInfoField field connection =>
    s!"Missing pageInfo.{field} field on connection \"{connection}\"."
  | missingConnection connection =>
    s!"Missing @connection directive on connection \"{connection}\"."

end RelayProblem

/-- The wording of the problem. -/
def Problem.message : Problem → String
  | language problem => problem.message
  | relay problem => problem.message
  | supplied message => message
  | tooMany => "Too many validation errors, error limit reached. Validation aborted."
  | aborted => "Validation aborted."

/-- Why there is no message for a problem: the names that it should offer cannot be found. The
values that an enum offers are not among them, since their message has other words then. -/
def Problem.suggestionFault? (problem : Problem) : Option SuggestionFault :=
  let ofSimilar : Suggestions → Option SuggestionFault := fun similar =>
    match similar with
    | .ok _ => none
    | .error fault => some fault
  match problem with
  | .language (.unknownType _ similar) | .language (.unknownField _ _ _ similar)
  | .language (.unknownInputField _ _ similar) | .language (.unknownFieldArgument _ _ _ similar)
  | .language (.unknownDirectiveArgument _ _ similar) | .language (.extendsUnknown _ similar)
  | .relay (.unknownArgument _ similar) => ofSimilar similar
  | _ => none

/-- Something odd that breaks no rule: a fragment argument is declared by a value that is no
object. -/
structure Warning where
  /-- The kind of the value. -/
  kind : Value.Kind
  /-- The argument. -/
  argument : String
  /-- The fragment. -/
  fragment : String

/-- The wording of the warning. -/
def Warning.message (warning : Warning) : String :=
  s!"Unexpected metadata of kind \"{warning.kind.text}\" for argument \"{warning.argument}\" "
    ++ s!"of fragment \"{warning.fragment}\"."

end RelayCheck
