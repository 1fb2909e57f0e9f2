import RelayCheck.Schema.Coercion

/-!
# Schemas from definitions

A document of type definitions defines a schema. Extensions add to the definition of their type.
The schema has the types that the document defines, the built-in scalars that are mentioned, and
the types by which it describes itself. Default values are read at their types; a default that
cannot be read counts as none.

This module introduces:

- `Document.extendedTypes`, the type definitions with what extensions add to them;
- `Document.schema`, the schema that a document defines.
-/

namespace RelayCheck

/-! ## Definitions and their extensions -/

/-- The parts of two bodies of one kind together. -/
def TypeBody.extend : TypeBody → TypeBody → TypeBody
  | object interfaces fields, object moreInterfaces moreFields =>
    object (interfaces ++ moreInterfaces) (fields ++ moreFields)
  | interface interfaces fields, interface moreInterfaces moreFields =>
    interface (interfaces ++ moreInterfaces) (fields ++ moreFields)
  | union members, union more => union (members ++ more)
  | enum values, enum more => enum (values ++ more)
  | inputObject fields, inputObject more => inputObject (fields ++ more)
  | body, _ => body

/-- The type extension that a definition is, if it is one. -/
def Definition.typeExtension? : Definition → Option TypeDefinition
  | typeExtension t => some t
  | _ => none

namespace Document

variable (document : Document)

/-- The type definitions with what extensions add to them. -/
def extendedTypes : List TypeDefinition :=
  let extensions := document.definitions.filterMap Definition.typeExtension?
  document.types.map fun type =>
    let own := extensions.filter fun extension => extension.name.text == type.name.text
    { type with body := own.foldl (fun body extension => body.extend extension.body) type.body }

/-- The root types that schema definitions and extensions state, in order. -/
def statedRoots : List RootDefinition :=
  let ofDefinitions := document.definitions.filterMap fun
    | .schema s => some s.roots
    | _ => none
  let ofExtensions := document.definitions.filterMap fun
    | .schemaExtension s => some s.roots
    | _ => none
  (ofDefinitions ++ ofExtensions).flatten

/-- Whether the schema itself is defined. -/
def definesSchema : Bool :=
  document.definitions.any fun
    | .schema _ => true
    | _ => false

/-- The name that the root type of a kind of operation has unless the schema is defined. -/
def usualRoot : OperationKind → String
  | .query => "Query"
  | .mutation => "Mutation"
  | .subscription => "Subscription"

/-- The name of the type at which operations of a kind start. -/
def rootName? (kind : OperationKind) : Option String :=
  let stated := (document.statedRoots.reverse.find? fun root => root.kind == kind).map fun root =>
    root.type.text
  let usual := usualRoot kind
  if !document.definesSchema && document.types.any fun type => type.name.text == usual then
    some usual
  else stated

end Document

/-! ## Types and directives -/

/-- The type of a reference in a document, with plain names. -/
def plainType (type : TypeRef Name) : TypeRef String :=
  type.map Name.text

namespace InputDefinition

/-- Whether the declaration says that values should no longer be given. A null reason takes that
back. -/
def isDeprecated (declared : InputDefinition) : Bool :=
  match declared.directives.find? fun directive => directive.name.text == deprecatedName with
  | none => false
  | some directive =>
    !directive.arguments.any fun argument =>
      argument.name.text == reasonName && argument.value.isNull

/-- The place that the declaration of an argument or input field describes; its default is read
with the types of the given schema. -/
def parameter (schema : Schema) (declared : InputDefinition) : Parameter :=
  let type := plainType declared.type
  { name := declared.name.text
    type
    default := declared.default.bind fun value => schema.coerce value type
    description := none
    deprecated := declared.isDeprecated }

end InputDefinition

/-- The places that declarations describe. -/
def parameters (schema : Schema) (declared : List InputDefinition) : List Parameter :=
  declared.map (InputDefinition.parameter schema)

/-- The fields that declarations describe. -/
def outputFields (schema : Schema) (declared : List FieldDefinition) : List OutputField :=
  declared.map fun field =>
    ⟨field.name.text, parameters schema field.arguments, plainType field.type⟩

/-- Whether a directive is among those applied. -/
def isApplied (name : String) (directives : List Directive) : Bool :=
  directives.any fun directive => directive.name.text == name

namespace TypeDefinition

/-- What the type consists of. -/
def shape (schema : Schema) (type : TypeDefinition) : TypeShape :=
  let names : List Name → List String := List.map Name.text
  match type.body with
  | .scalar => .scalar
  | .object interfaces fields => .object (names interfaces) (outputFields schema fields)
  | .interface interfaces fields => .interface (names interfaces) (outputFields schema fields)
  | .union members => .union (names members)
  | .enum values => .enum (values.map fun value => value.name.text)
  | .inputObject fields =>
    .inputObject (parameters schema fields) (isApplied "oneOf" type.directives)

/-- The type that the definition describes. The standard types cannot be defined otherwise. -/
def namedType (schema : Schema) (type : TypeDefinition) : NamedType :=
  let name := type.name.text
  if scalarNames.contains name then scalarType name
  else match introspectionTypes.find? fun standard => standard.name == name with
    | some standard => standard
    | none => ⟨name, type.shape schema⟩

end TypeDefinition

/-- The directive that a definition describes. -/
def DirectiveDefinition.schemaDirective (schema : Schema) (directive : DirectiveDefinition) :
    SchemaDirective :=
  { name := directive.name.text
    locations := directive.locations
    parameters := parameters schema directive.arguments
    repeatable := directive.repeatable }

/-- The names of the types that a type mentions. -/
def NamedType.mentions (type : NamedType) : List String :=
  let ofParameters : List Parameter → List String := List.map fun parameter =>
    parameter.type.baseName
  match type.shape with
  | .scalar | .enum _ => []
  | .object interfaces fields | .interface interfaces fields =>
    interfaces ++ fields.flatMap fun field =>
      field.type.baseName :: ofParameters field.parameters
  | .union members => members
  | .inputObject fields _ => ofParameters fields

namespace Document

variable (document : Document)

/-- The directives of the schema that the document defines: its own, then the standard ones that
it does not define. -/
def schemaDirectives (schema : Schema) : List SchemaDirective :=
  let own := document.directives.map (DirectiveDefinition.schemaDirective schema)
  own ++ standardDirectives.filter fun directive =>
    !own.any fun other => other.name == directive.name

/-- The schema that the document defines, where defaults are read with the types of the given
schema. -/
def schemaWith (schema : Schema) : Schema :=
  let own := document.extendedTypes.map (TypeDefinition.namedType schema)
  let directives := document.schemaDirectives schema
  let mentioned := own.flatMap NamedType.mentions
    ++ directives.flatMap (fun directive => directive.parameters.map fun parameter =>
      parameter.type.baseName)
    ++ introspectionTypes.flatMap NamedType.mentions
    ++ OperationKind.all.filterMap document.rootName?
  let isNew : String → Bool := fun name => !own.any fun type => type.name == name
  let scalars := scalarNames.filter fun name => mentioned.contains name && isNew name
  let standard := introspectionTypes.filter fun type => isNew type.name
  { types := own ++ scalars.map scalarType ++ standard
    directives
    query := document.rootName? .query
    mutation := document.rootName? .mutation
    subscription := document.rootName? .subscription }

/-- The schema with defaults read the given number of times, each time with the defaults of the
time before. -/
def schemaAfter : (rounds : Nat) → Schema
  | 0 => ⟨[], [], none, none, none⟩
  | rounds + 1 => document.schemaWith (schemaAfter rounds)

/-- The schema that the document defines. A default may rest on those of input objects, so that
their number bounds how often defaults have to be read. -/
def schema : Schema :=
  let inputs := document.types.countP fun type => type.body.kind == .inputObject
  document.schemaAfter (inputs + 3)

end Document

end RelayCheck
