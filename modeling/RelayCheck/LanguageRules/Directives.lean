import RelayCheck.Data.NameMap
import RelayCheck.Validation.Rule

/-!
# Directives and arguments

Directives are known, stand where they may, and are repeated only if they may be. Arguments are
known, and those that are required are given. A document that defines a directive itself is held
to its own definition.
-/

namespace RelayCheck.LanguageRules

/-- A directive as the rules of this module see it, wherever it is defined. -/
structure KnownDirective where
  /-- Where it may be applied. -/
  locations : List DirectiveLocation
  /-- Whether it may be applied more than once at one place. -/
  repeatable : Bool
  /-- The names of its arguments. -/
  parameters : List String
  /-- The arguments that have to be given, with their types. -/
  required : NameMap (TypeRef String)

/-- A directive of the schema. -/
def KnownDirective.ofSchema (directive : SchemaDirective) : KnownDirective :=
  { locations := directive.locations
    repeatable := directive.repeatable
    parameters := directive.parameters.map Parameter.name
    required := .ofList ((directive.parameters.filter Parameter.isRequired).map fun parameter =>
      (parameter.name, parameter.type)) }

/-- A directive that the document defines. Of several required arguments of one name the last
counts. -/
def KnownDirective.ofDefinition (directive : DirectiveDefinition) : KnownDirective :=
  { locations := directive.locations
    repeatable := directive.repeatable
    parameters := directive.arguments.map fun declared => declared.name.text
    required := .ofList ((directive.arguments.filter fun declared =>
        declared.type.isNonNull && declared.default.isNone).map fun declared =>
      (declared.name.text, declared.type.map Name.text)) }

/-- The directive of the given name: as the document defines it, of several definitions by the
last one, otherwise as the schema has it. -/
def knownDirective? (context : Context) (name : String) : Option KnownDirective :=
  let own := context.document.directives.reverse.find? fun directive =>
    directive.name.text == name
  match own with
  | some directive => some (.ofDefinition directive)
  | none => (context.schema.directive? name).map .ofSchema

/-- Directives are known and stand where they may. -/
def knownDirectives (context : Context) : Rule :=
  .onEnter fun visit =>
    match visit.node with
    | .directive use =>
      let name := use.directive.name.text
      match knownDirective? context name with
      | none => [.language (.unknownDirective name) [use.directive.pos]]
      | some known =>
        if known.locations.contains use.carrier.location then []
        else [.language (.misplacedDirective name use.carrier.location) [use.directive.pos]]
    | _ => []

/-- The findings for directives that follow others on the same carrier or, for a type system, on
another part of the same definition; the directives seen there are kept, each once. -/
def repeatedAmong (context : Context) (seen : List Directive) (directives : List Directive) :
    List Finding × List Directive :=
  directives.foldl (fun (found, seen) directive =>
    let name := directive.name.text
    match knownDirective? context name with
    | none => (found, seen)
    | some known =>
      if known.repeatable then (found, seen)
      else match seen.find? fun other => other.name.text == name with
        | some first =>
          (found ++ [.language (.repeatedDirective name) [first.pos, directive.pos]], seen)
        | none => (found, seen ++ [directive])) ([], seen)

/-- The directives seen on the definitions and extensions of the schema and of each type. -/
structure SeenDirectives where
  /-- Those of the schema. -/
  schema : List Directive
  /-- Those of the type of the given name. -/
  type : String → List Directive

/-- Directives are repeated only if they may be. -/
def uniqueDirectives (context : Context) : Rule :=
  let alone : List Directive → List Finding := fun directives =>
    (repeatedAmong context [] directives).1
  .remembering (SeenDirectives.mk [] fun _ => []) fun seen visit =>
    match visit.node with
    | .definition (.schema declared) | .definition (.schemaExtension declared) =>
      let (found, after) := repeatedAmong context seen.schema declared.directives
      (found, { seen with schema := after })
    | .definition (.type declared) | .definition (.typeExtension declared) =>
      let name := declared.name.text
      let (found, after) := repeatedAmong context (seen.type name) declared.directives
      (found, { seen with type := fun other => if other == name then after else seen.type other })
    | .definition (.operation operation) => (alone operation.directives, seen)
    | .definition (.fragment fragment) => (alone fragment.directives, seen)
    | .variableDefinition declared => (alone declared.directives, seen)
    | .field field _ => (alone field.directives, seen)
    | .spread spread => (alone spread.directives, seen)
    | .inlineFragment fragment _ => (alone fragment.directives, seen)
    | .typePart directives => (alone directives, seen)
    | _ => ([], seen)

/-! ## Arguments -/

/-- The finding that a field does not take an argument. -/
def unknownFieldArgument (visit : Visit) : List Finding :=
  match visit.node, visit.scope.use, visit.scope.parameter, visit.scope.field,
    visit.scope.parent with
  | .argument argument, none, none, some field, some parent =>
    let name := argument.name.text
    let similar := suggestions name (field.parameters.map Parameter.name)
    [.language (.unknownFieldArgument name parent.name field.name similar) [argument.name.pos]]
  | _, _, _, _, _ => []

/-- The findings that a directive does not take arguments. -/
def unknownDirectiveArguments (context : Context) (visit : Visit) : List Finding :=
  match visit.node with
  | .directive use =>
    match knownDirective? context use.directive.name.text with
    | none => []
    | some known =>
      (use.directive.arguments.filter fun argument =>
        !known.parameters.contains argument.name.text).map fun argument =>
        let name := argument.name.text
        .language (.unknownDirectiveArgument name use.directive.name.text
          (suggestions name known.parameters)) [argument.name.pos]
  | _ => []

/-- What the rule on known argument names finds at a node. -/
def unknownArguments (context : Context) (visit : Visit) : List Finding :=
  unknownFieldArgument visit ++ unknownDirectiveArguments context visit

/-- Arguments are known. -/
def knownArgumentNames (context : Context) : Rule :=
  .onEnter (unknownArguments context)

/-- The findings that a directive is not given arguments that it requires. -/
def missingDirectiveArguments (context : Context) (visit : Visit) : List Finding :=
  match visit.node with
  | .directive use =>
    match knownDirective? context use.directive.name.text with
    | none => []
    | some known =>
      let given := use.directive.arguments.map fun argument => argument.name.text
      (known.required.entries.filter fun parameter => !given.contains parameter.1).map
        fun parameter =>
          .language (.missingDirectiveArgument use.directive.name.text parameter.1 parameter.2)
            [use.directive.pos]
  | _ => []

/-- The findings that a field is not given arguments that it requires. -/
def missingFieldArguments (visit : Visit) : List Finding :=
  match visit.node, visit.scope.field with
  | .field field _, some known =>
    let given := field.arguments.map fun argument => argument.name.text
    (known.parameters.filter fun parameter =>
      parameter.isRequired && !given.contains parameter.name).map fun parameter =>
        .language (.missingFieldArgument field.name.text parameter.name parameter.type)
          [field.pos]
  | _, _ => []

/-- Arguments that are required are given. -/
def providedRequiredArguments (context : Context) : Rule :=
  .onLeave fun visit => missingDirectiveArguments context visit ++ missingFieldArguments visit

end RelayCheck.LanguageRules
