import RelayCheck.Data.NameMap
import RelayCheck.Language.Parser.Values
import RelayCheck.Schema.RelayDirectives

/-!
# Declarations of variables and fragment arguments

An operation declares variables; a fragment declares arguments with its first
`@argumentDefinitions` directive, as in

    fragment Profile on User @argumentDefinitions(size: {type: "Int!", defaultValue: 32})

Inside the fragment `$size` stands for the argument. Both kinds of declarations have one form, in
which anything that cannot be understood is left out.

This module introduces:

- `Declaration` and `Declarations`, the declarations of a definition by name;
- `Fragment.declaringArguments?`, the arguments of the declaring directive;
- `Fragment.declarations` and `Operation.declarations`.
-/

namespace RelayCheck

/-- The declaration of a variable or of a fragment argument. -/
structure Declaration where
  /-- The declared name. -/
  name : String
  /-- Whether an argument of a fragment is declared, and not a variable of an operation. -/
  isArgument : Bool
  /-- Where the declaration stands: the name of an argument, the dollar sign of a variable. -/
  pos : Position
  /-- The type as written, if it can be read. -/
  written : Option (TypeRef String)
  /-- The type, if it is an input type of the schema. -/
  type : Option (TypeRef String)
  /-- The default value, if there is one. -/
  default : Option Value

/-- Declarations by name. -/
abbrev Declarations := NameMap Declaration

namespace Declaration

/-- Whether every spread of the fragment has to give the argument. -/
def isRequired (declaration : Declaration) : Bool :=
  declaration.written.any TypeRef.isNonNull && declaration.default.isNone

/-- Whether there is a default value other than null. -/
def hasNonNullDefault (declaration : Declaration) : Bool :=
  declaration.default.any fun value => !value.isNull

end Declaration

/-! ## Fragment arguments -/

/-- The key of the type in the object that declares an argument. -/
def typeKey : String := "type"

/-- The key of the default value in the object that declares an argument. -/
def defaultKey : String := "defaultValue"

/-- The arguments of the first directive of the fragment that declares arguments; nothing if
there is no such directive. -/
def Fragment.declaringArguments? (fragment : Fragment) : Option (List Argument) :=
  (fragment.directives.find? fun directive =>
    directive.name.text == argumentDefinitionsName).map Directive.arguments

/-- The value of the first field with the given key. -/
def metadata? (fields : List (Name × Value)) (key : String) : Option Value :=
  (fields.find? fun field => field.1.text == key).map Prod.snd

/-- The type that a value of the type key states, if it can be read. -/
def statedType? : Value → Option (TypeRef String)
  | .string content _ _ => (TypeRef.parse content).toOption
  | _ => none

/-- The declaration that an argument of the declaring directive makes. -/
def Declaration.ofArgument (schema : Schema) (argument : Argument) : Declaration :=
  let fields := argument.value.objectFields?.getD []
  let written := (metadata? fields typeKey).bind statedType?
  { name := argument.name.text
    isArgument := true
    pos := argument.name.pos
    written
    type := written.bind schema.inputType?
    default := metadata? fields defaultKey }

/-- The arguments that a fragment declares. -/
def Fragment.declarations (schema : Schema) (fragment : Fragment) : Declarations :=
  .ofList ((fragment.declaringArguments?.getD []).map fun argument =>
    (argument.name.text, Declaration.ofArgument schema argument))

/-! ## Variables -/

/-- The declaration of a variable by an operation. -/
def Declaration.ofVariable (schema : Schema) (declared : VariableDefinition) : Declaration :=
  let written := declared.type.map Name.text
  { name := declared.name.text
    isArgument := false
    pos := declared.variablePos
    written := some written
    type := schema.inputType? written
    default := declared.default }

/-- The variables that an operation declares. -/
def Operation.declarations (schema : Schema) (operation : Operation) : Declarations :=
  .ofList (operation.variableDefinitions.map fun declared =>
    (declared.name.text, Declaration.ofVariable schema declared))

/-- What an operation or fragment declares; other definitions declare nothing of the kind. -/
def Definition.declarations? (schema : Schema) : Definition → Option Declarations
  | .operation o => some (o.declarations schema)
  | .fragment f => some (f.declarations schema)
  | _ => none

end RelayCheck
