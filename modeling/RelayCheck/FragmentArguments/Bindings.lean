import RelayCheck.FragmentArguments.Usage
import RelayCheck.LanguageRules.Directives

/-!
# Declaring and giving fragment arguments

The directive that declares arguments holds an object for each, with a type and possibly a
default. The directive that gives arguments names those that the fragment declares, leaves out
none that is required, and gives values of their types. A default is a value of the type without
null.

This module introduces:

- `metadataFindings` and `bindingFindings`, what is wrong with a declaring and with a giving
  directive;
- the rules `knownFragmentArguments`, `argumentsOfCorrectType` and `defaultsOfCorrectType`, with
  the parts that can be exchanged as parameters.
-/

namespace RelayCheck

/-! ## Declaring arguments -/

/-- What is wrong with a stated type. -/
def statedTypeFindings (schema : Schema) (value : Value) : List Finding :=
  match value with
  | .string content _ _ =>
    match TypeRef.parse content with
    | .error error => [.relay (.unreadableType error) [value.pos]]
    | .ok type =>
      if (schema.type? type.baseName).isSome then []
      else [.relay (.unknownArgumentType type.baseName) [value.pos]]
  | _ => [.relay .nonStringType [value.pos]]

/-- What is wrong with a field of the object that declares an argument. -/
def metadataFieldFindings (schema : Schema) (field : Name × Value) : List Finding :=
  let (key, value) := field
  if key.text == typeKey then statedTypeFindings schema value
  else if key.text == defaultKey then
    if value.hasVariable then [.relay .variableInDefault [value.pos]] else []
  else [.relay (.unknownMetadataKey key.text) [key.pos]]

/-- What is wrong with the declaration of an argument. -/
def declarationFindings (schema : Schema) (argument : Argument) : List Finding :=
  let fields := argument.value.objectFields?.getD []
  if (metadata? fields typeKey).isNone then
    [.relay .invalidMetadata [argument.value.pos]]
  else fields.flatMap (metadataFieldFindings schema)

/-- What is wrong with a directive that declares arguments. -/
def metadataFindings (schema : Schema) (directive : Directive) : List Finding :=
  if directive.arguments.isEmpty then
    [.relay .missingArgumentDefinitions [directive.pos]]
  else directive.arguments.flatMap (declarationFindings schema)

/-! ## Giving arguments -/

/-- The choice of names to offer for a misspelled one. -/
abbrev Suggest := (name : String) → (options : List String) → Suggestions

/-- The warnings about arguments of a fragment that are not declared by an object. -/
def metadataWarnings (fragment : String) (declaring : List Argument) : List Finding :=
  (declaring.filter fun argument => argument.value.objectFields?.isNone).map fun argument =>
    .warning ⟨argument.value.kind, argument.name.text, fragment⟩

/-- The findings for required arguments that a directive does not give. -/
def missingArguments (declared : Declarations) (directive : Directive) : List Finding :=
  let given := directive.arguments.map fun argument => argument.name.text
  (declared.entries.filter fun entry =>
    entry.2.isRequired && !given.contains entry.1).map fun entry =>
      .relay (.missingArgument entry.1) [directive.pos]

/-- The findings for arguments that a directive gives and the fragment does not declare. -/
def undeclaredArguments (suggest : Suggest) (declared : Declarations) (directive : Directive) :
    List Finding :=
  (directive.arguments.filter fun argument => !declared.contains argument.name.text).map
    fun argument =>
      let name := argument.name.text
      .relay (.unknownArgument name (suggest name declared.names)) [directive.pos]

/-- What is wrong with a directive that gives arguments to a fragment, on the given spread. -/
def bindingFindings (suggest : Suggest) (schema : Schema) (fragment : Fragment) (spread : Spread)
    (directive : Directive) : List Finding :=
  let name := spread.name.text
  match fragment.declaringArguments? with
  | none => [.relay (.noArgumentDefinitions name) [spread.pos]]
  | some declaring =>
    let declared := fragment.declarations schema
    metadataWarnings name declaring ++ missingArguments declared directive
      ++ undeclaredArguments suggest declared directive

/-! ## Rules -/

/-- What is found about arguments apart from those of fragments. -/
abbrev ArgumentCheck := Context → Visit → List Finding

/-- Whether a visit is to a directive that declares or gives fragment arguments, or to an
argument of any directive. -/
def Visit.concernsDirective (visit : Visit) : Bool :=
  match visit.node with
  | .argument _ => visit.scope.use.isSome
  | .directive use =>
    use.directive.name.text == argumentDefinitionsName || use.givesArguments
  | _ => false

/-- What is found at a directive that declares or gives fragment arguments. -/
def fragmentArgumentFindings (suggest : Suggest) (context : Context) (visit : Visit) :
    List Finding :=
  match visit.node with
  | .directive use =>
    if use.directive.name.text == argumentDefinitionsName then
      metadataFindings context.schema use.directive
    else if use.givesArguments then
      match use.spread?, context.target? use with
      | some spread, some fragment =>
        bindingFindings suggest context.schema fragment spread use.directive
      | _, _ => []
    else []
  | _ => []

/-- Arguments are known: fragment arguments as fragments declare them, all others as `check` finds
them. -/
def knownFragmentArguments (suggest : Suggest) (check : ArgumentCheck) (context : Context) :
    Rule :=
  .onEnter fun visit =>
    fragmentArgumentFindings suggest context visit
      ++ if visit.concernsDirective then [] else check context visit

/-- The test whether a literal is one of a type. -/
abbrev LiteralTest := Schema → Value → TypeRef String → Bool

/-- Whether a literal denotes a value of the type. -/
def denotesValue : LiteralTest := fun schema value type =>
  (schema.coerce value type).isSome

/-- The finding for an argument given to a fragment whose value is not of the declared type.
Values with variables are left to other rules. -/
def argumentValueFindings (test : LiteralTest) (schema : Schema) (fragment : String)
    (declared : Declarations) (argument : Argument) : List Finding :=
  match (declared.get? argument.name.text).bind Declaration.type with
  | none => []
  | some type =>
    if argument.value.hasVariable || test schema argument.value type then []
    else [.relay (.badArgumentValue argument.name.text fragment type) [argument.value.pos]]

/-- Values given to fragment arguments are of the declared types. -/
def argumentsOfCorrectType (test : LiteralTest) (context : Context) : Rule :=
  .onEnter fun visit =>
    match visit.node with
    | .directive use =>
      match use.givesArguments, use.spread?, context.target? use with
      | true, some spread, some fragment =>
        use.directive.arguments.flatMap (argumentValueFindings test context.schema
          spread.name.text (fragment.declarations context.schema))
      | _, _, _ => []
    | _ => []

/-- The arguments that are the last of their names. -/
def lastOfName : List Argument → List Argument
  | [] => []
  | argument :: rest =>
    if rest.any fun later => later.name.text == argument.name.text then lastOfName rest
    else argument :: lastOfName rest

/-- The finding for the declaration of an argument whose default is not of the type without
null. -/
def defaultFindings (test : LiteralTest) (schema : Schema) (fragment : String)
    (argument : Argument) : List Finding :=
  let declaration := Declaration.ofArgument schema argument
  match declaration.default, declaration.type with
  | some value, some type =>
    if value.hasVariable then []
    else if value.isNull then
      [.relay (.nullDefault argument.name.text fragment) [value.pos]]
    else if test schema value type then []
    else [.relay (.badDefault argument.name.text fragment type) [value.pos]]
  | _, _ => []

/-- The fragment whose arguments a directive declares: it is applied to a fragment and is the
first of its name there. -/
def DirectiveUse.declaringFragment? (use : DirectiveUse) : Option Fragment :=
  match use.carrier with
  | .fragment fragment =>
    let first := fragment.directives.findIdx? fun directive =>
      directive.name.text == argumentDefinitionsName
    if first == some use.index then some fragment else none
  | _ => none

/-- Defaults of fragment arguments are of the declared types, and not null. -/
def defaultsOfCorrectType (test : LiteralTest) (context : Context) : Rule :=
  .onEnter fun visit =>
    match visit.node with
    | .directive use =>
      match use.declaringFragment? with
      | some fragment =>
        (lastOfName use.directive.arguments).flatMap
          (defaultFindings test context.schema fragment.name.text)
      | none => []
    | _ => []

end RelayCheck
