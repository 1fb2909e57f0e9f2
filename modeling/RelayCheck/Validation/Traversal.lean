import RelayCheck.Schema.BuiltIn

/-!
# Walking a document along a schema

A document is walked in the order in which it is written. Every node is entered, then its parts
are walked, then it is left. On the way down, the walk keeps what the schema says about the place:
the type of the results there, the field, directive and argument it is in, and the type and
default of the input position.

The module introduces:

- `Scope`, what is known about a place;
- `Node`, what can be met, and `Visit`, a node together with its scope;
- `Event` and `Document.events`, the walk of a document;
- `Definition.events`, the walk of one definition, which does not depend on the others.
-/

namespace RelayCheck

/-! ## Scopes -/

/-- What a directive is applied to. -/
inductive Carrier
  /-- An operation. -/
  | operation (operation : Operation)
  /-- The declaration of a variable. -/
  | variableDefinition (declared : VariableDefinition)
  /-- A fragment. -/
  | fragment (fragment : Fragment)
  /-- A field. -/
  | field (field : Field)
  /-- The use of a fragment. -/
  | spread (spread : Spread)
  /-- A fragment written in place. -/
  | inlineFragment (fragment : InlineFragment)
  /-- A part of a type system. -/
  | typeSystem (location : DirectiveLocation)

/-- The location that a directive has on its carrier. -/
def Carrier.location : Carrier → DirectiveLocation
  | operation o => .ofOperation o.kind
  | variableDefinition _ => .variableDefinition
  | fragment _ => .fragmentDefinition
  | field _ => .field
  | spread _ => .fragmentSpread
  | inlineFragment _ => .inlineFragment
  | typeSystem location => location

/-- A directive where it is applied. -/
structure DirectiveUse where
  /-- What it is applied to. -/
  carrier : Carrier
  /-- The number of directives before it on the same carrier. -/
  index : Nat
  /-- The directive itself. -/
  directive : Directive

/-- What is known about a place in a document. -/
structure Scope where
  /-- The type of the results at this place. -/
  output : Option (TypeRef String) := none
  /-- The composite type whose fields are selected at this place. -/
  parent : Option NamedType := none
  /-- The innermost field, if the schema knows it. -/
  field : Option OutputField := none
  /-- The directive that the place is inside of, if the schema knows it. -/
  directive : Option SchemaDirective := none
  /-- What the schema says about the argument that the place is inside of. -/
  parameter : Option Parameter := none
  /-- The type of the input position. -/
  input : Option (TypeRef String) := none
  /-- The type of the input position that encloses this one. -/
  outerInput : Option (TypeRef String) := none
  /-- The default of the input position. -/
  default : Option InputValue := none
  /-- The directive that the place is inside of, as it is applied. -/
  use : Option DirectiveUse := none
  /-- The argument that the place is inside of. -/
  argument : Option Argument := none
  /-- Whether the place is inside a list or object of that argument. -/
  nested : Bool := false
  /-- Whether the place is inside the declaration of a variable. -/
  declaring : Bool := false
  /-- Whether the place is inside a literal that can only be judged as a whole, being a list
  where no list or an object where no input object is expected. -/
  whole : Bool := false
  /-- Whether the place is inside a type system definition. -/
  typeSystem : Bool := false

/-! ## Nodes and events -/

/-- What the walk meets. -/
inductive Node
  /-- The document. -/
  | document (document : Document)
  /-- A definition at the top level. -/
  | definition (definition : Definition)
  /-- The declaration of a variable. -/
  | variableDefinition (declared : VariableDefinition)
  /-- The name of a type. -/
  | typeName (name : Name)
  /-- A field with its selections. -/
  | field (field : Field) (selections : List Selection)
  /-- The use of a fragment. -/
  | spread (spread : Spread)
  /-- A fragment written in place with its selections. -/
  | inlineFragment (fragment : InlineFragment) (selections : List Selection)
  /-- A directive. -/
  | directive (use : DirectiveUse)
  /-- An argument. -/
  | argument (argument : Argument)
  /-- A value. -/
  | value (value : Value)
  /-- A field of an object, with the names of the fields before it. -/
  | objectField (name : Name) (earlier : List Name)
  /-- A part of a type definition that carries directives. -/
  | typePart (directives : List Directive)

/-- A node and what is known about its place. -/
structure Visit where
  /-- The node. -/
  node : Node
  /-- What is known about its place. -/
  scope : Scope

/-- A step of the walk. -/
inductive Event
  /-- A node is entered. -/
  | enter (visit : Visit)
  /-- A node is left. -/
  | leave (visit : Visit)

/-- The walk of a node around the walk of its parts. -/
def around (node : Node) (scope : Scope) (parts : List Event) : List Event :=
  .enter ⟨node, scope⟩ :: (parts ++ [.leave ⟨node, scope⟩])

/-! ## Scopes of parts -/

namespace Scope

variable (schema : Schema)

/-- The scope of an argument of the given name: it belongs to the enclosing directive if the
schema knows that, otherwise to the enclosing field. -/
def enterArgument (scope : Scope) (argument : Argument) : Scope :=
  let parameters := match scope.directive with
    | some directive => directive.parameters
    | none => (scope.field.map OutputField.parameters).getD []
  let parameter := parameters.find? fun parameter => parameter.name == argument.name.text
  { scope with
    parameter
    input := (parameter.map Parameter.type).bind schema.inputType?
    outerInput := scope.input
    default := parameter.bind Parameter.default
    argument := some argument
    nested := false }

/-- The type of the items of a list at the given type: that of a list type's items, and the type
itself if it is not a list type. -/
def itemType (type : TypeRef String) : TypeRef String :=
  match type.nullable with
  | .list item => item
  | other => other

/-- Whether lists are expected at the given type. -/
def expectsList (type : Option (TypeRef String)) : Bool :=
  match type.map TypeRef.nullable with
  | some (.list _) => true
  | _ => false

/-- The scope of the items of a list; they never have a default. -/
def enterList (scope : Scope) : Scope :=
  { scope with
    input := (scope.input.map itemType).bind schema.inputType?
    outerInput := scope.input
    default := none
    nested := true
    whole := scope.whole || !expectsList scope.input }

/-- The input fields expected of an object. -/
def expectedFields (type : Option (TypeRef String)) : Option (List Parameter) :=
  type.bind schema.inputFields?

/-- The scope of the field of the given name in an object. -/
def enterObjectField (scope : Scope) (name : String) : Scope :=
  let fields := expectedFields schema scope.input
  let parameter := (fields.getD []).find? fun parameter => parameter.name == name
  { scope with
    input := (parameter.map Parameter.type).bind schema.inputType?
    outerInput := scope.input
    default := parameter.bind Parameter.default
    nested := true
    whole := scope.whole || fields.isNone }

/-- The scope of a directive. -/
def enterDirective (scope : Scope) (use : DirectiveUse) : Scope :=
  { scope with
    directive := schema.directive? use.directive.name.text
    use := some use }

/-- The scope of the selections below a place. -/
def enterSelections (scope : Scope) : Scope :=
  let type := scope.output.bind fun type => schema.type? type.baseName
  { scope with parent := type.filter NamedType.isComposite }

/-- The scope of a field. -/
def enterField (scope : Scope) (field : Field) : Scope :=
  let known := scope.parent.bind fun parent => schema.field? parent field.name.text
  { scope with
    field := known
    output := (known.map OutputField.type).bind schema.outputType? }

/-- The scope of a fragment with the given type condition; without one, the results keep their
type, apart from lists and null. -/
def enterFragment (scope : Scope) (condition : Option Name) : Scope :=
  let type : Option (TypeRef String) := match condition with
    | some name => some (.named name.text)
    | none => scope.output.map fun type => .named type.baseName
  { scope with output := type.bind schema.outputType? }

/-- The scope of an operation. -/
def enterOperation (scope : Scope) (operation : Operation) : Scope :=
  let root := (schema.root? operation.kind).bind schema.type?
  { scope with output := (root.filter NamedType.isObject).map fun type => .named type.name }

/-- The scope of the declaration of a variable. -/
def enterVariableDefinition (scope : Scope) (declared : VariableDefinition) : Scope :=
  { scope with
    input := schema.inputType? (declared.type.map Name.text)
    outerInput := scope.input
    declaring := true }

end Scope

/-! ## Values, arguments and directives -/

section Events

variable (schema : Schema)

mutual

/-- The walk of a value. The scope of a list is that of its items, except that the list itself
may still be judged. -/
def Value.events (scope : Scope) : Value → List Event
  | .list items pos =>
    let inner := scope.enterList schema
    around (.value (.list items pos)) { inner with whole := scope.whole }
      (itemEvents inner items)
  | .object fields pos =>
    around (.value (.object fields pos)) scope (fieldEvents scope [] fields)
  | .variable name pos => around (.value (.variable name pos)) scope []
  | .int text pos => around (.value (.int text pos)) scope []
  | .float text pos => around (.value (.float text pos)) scope []
  | .string content block pos => around (.value (.string content block pos)) scope []
  | .boolean value pos => around (.value (.boolean value pos)) scope []
  | .null pos => around (.value (.null pos)) scope []
  | .enum name pos => around (.value (.enum name pos)) scope []

/-- The walk of the items of a list. -/
def itemEvents (scope : Scope) : List Value → List Event
  | [] => []
  | item :: rest => Value.events scope item ++ itemEvents scope rest

/-- The walk of the fields of an object, given the names of those before. -/
def fieldEvents (scope : Scope) (earlier : List Name) : List (Name × Value) → List Event
  | [] => []
  | (name, value) :: rest =>
    let inner := scope.enterObjectField schema name.text
    around (.objectField name earlier) inner (Value.events inner value)
      ++ fieldEvents scope (earlier ++ [name]) rest

end

/-- The walk of an argument. -/
def Argument.events (scope : Scope) (argument : Argument) : List Event :=
  let inner := scope.enterArgument schema argument
  around (.argument argument) inner (argument.value.events schema inner)

/-- The walk of arguments. -/
def argumentEvents (scope : Scope) (arguments : List Argument) : List Event :=
  arguments.flatMap (Argument.events schema scope)

/-- The walk of a directive. -/
def DirectiveUse.events (scope : Scope) (use : DirectiveUse) : List Event :=
  let inner := scope.enterDirective schema use
  around (.directive use) inner (argumentEvents schema inner use.directive.arguments)

/-- The directives of a carrier, where they are applied. -/
def Carrier.uses (carrier : Carrier) (directives : List Directive) : List DirectiveUse :=
  directives.zipIdx.map fun (directive, index) => ⟨carrier, index, directive⟩

/-- The walk of the directives of a carrier. -/
def directiveEvents (scope : Scope) (carrier : Carrier) (directives : List Directive) :
    List Event :=
  (carrier.uses directives).flatMap (DirectiveUse.events schema scope)

/-- The walk of the name inside a type. -/
def typeEvents (scope : Scope) (type : TypeRef Name) : List Event :=
  around (.typeName type.baseName) scope []

/-- The walk of names of types. -/
def typeNameEvents (scope : Scope) (names : List Name) : List Event :=
  names.flatMap fun name => around (.typeName name) scope []

/-! ## Executable definitions -/

mutual

/-- The walk of a selection. -/
def Selection.events (scope : Scope) : Selection → List Event
  | .field field selections =>
    let inner := scope.enterField schema field
    around (.field field selections) inner
      (argumentEvents schema inner field.arguments
        ++ directiveEvents schema inner (.field field) field.directives
        ++ selectionEvents (inner.enterSelections schema) selections)
  | .spread spread =>
    around (.spread spread) scope
      (directiveEvents schema scope (.spread spread) spread.directives)
  | .inlineFragment fragment selections =>
    let inner := scope.enterFragment schema fragment.typeCondition
    around (.inlineFragment fragment selections) inner
      (typeNameEvents inner fragment.typeCondition.toList
        ++ directiveEvents schema inner (.inlineFragment fragment) fragment.directives
        ++ selectionEvents (inner.enterSelections schema) selections)

/-- The walk of selections. -/
def selectionEvents (scope : Scope) : List Selection → List Event
  | [] => []
  | selection :: rest => Selection.events scope selection ++ selectionEvents scope rest

end

/-- The walk of the declaration of a variable. -/
def VariableDefinition.events (scope : Scope) (declared : VariableDefinition) : List Event :=
  let inner := scope.enterVariableDefinition schema declared
  around (.variableDefinition declared) inner
    (Value.events schema inner (.variable declared.name declared.variablePos)
      ++ typeEvents inner declared.type
      ++ (declared.default.toList.flatMap (Value.events schema inner))
      ++ directiveEvents schema inner (.variableDefinition declared) declared.directives)

/-- The walk of an operation. -/
def Operation.events (operation : Operation) : List Event :=
  let scope := Scope.enterOperation schema {} operation
  around (.definition (.operation operation)) scope
    (operation.variableDefinitions.flatMap (VariableDefinition.events schema scope)
      ++ directiveEvents schema scope (.operation operation) operation.directives
      ++ selectionEvents schema (scope.enterSelections schema) operation.selections)

/-- The walk of a fragment. -/
def Fragment.events (fragment : Fragment) : List Event :=
  let scope := Scope.enterFragment schema {} (some fragment.typeCondition)
  around (.definition (.fragment fragment)) scope
    (typeNameEvents scope [fragment.typeCondition]
      ++ directiveEvents schema scope (.fragment fragment) fragment.directives
      ++ selectionEvents schema (scope.enterSelections schema) fragment.selections)

/-! ## Type system definitions -/

/-- The walk of the declaration of an argument or input field, whose directives have the given
location. -/
def InputDefinition.events (scope : Scope) (location : DirectiveLocation)
    (declared : InputDefinition) : List Event :=
  around (.typePart declared.directives) scope
    (typeEvents scope declared.type
      ++ (declared.default.toList.flatMap (Value.events schema scope))
      ++ directiveEvents schema scope (.typeSystem location) declared.directives)

/-- The walk of the declaration of a field. -/
def FieldDefinition.events (scope : Scope) (declared : FieldDefinition) : List Event :=
  around (.typePart declared.directives) scope
    (declared.arguments.flatMap (InputDefinition.events schema scope .argumentDefinition)
      ++ typeEvents scope declared.type
      ++ directiveEvents schema scope (.typeSystem .fieldDefinition) declared.directives)

/-- The walk of the declaration of an enum value. -/
def EnumValueDefinition.events (scope : Scope) (declared : EnumValueDefinition) : List Event :=
  around (.typePart declared.directives) scope
    (directiveEvents schema scope (.typeSystem .enumValue) declared.directives)

/-- The walk of the parts of a type definition, where the directives of its input fields have
the given location. -/
def TypeDefinition.partEvents (scope : Scope) (inputLocation : DirectiveLocation)
    (type : TypeDefinition) : List Event :=
  let applied := directiveEvents schema scope (.typeSystem (.ofType type.body.kind))
    type.directives
  match type.body with
  | .scalar => applied
  | .object interfaces fields | .interface interfaces fields =>
    typeNameEvents scope interfaces ++ applied
      ++ fields.flatMap (FieldDefinition.events schema scope)
  | .union members => applied ++ typeNameEvents scope members
  | .enum values => applied ++ values.flatMap (EnumValueDefinition.events schema scope)
  | .inputObject fields =>
    applied ++ fields.flatMap (InputDefinition.events schema scope inputLocation)

/-- The walk of the parts of a schema definition. -/
def SchemaDefinition.partEvents (scope : Scope) (declared : SchemaDefinition) : List Event :=
  directiveEvents schema scope (.typeSystem .schema) declared.directives
    ++ typeNameEvents scope (declared.roots.map RootDefinition.type)

/-! ## Documents -/

/-- The walk of a definition. -/
def Definition.events (definition : Definition) : List Event :=
  let scope : Scope := { typeSystem := true }
  match definition with
  | .operation o => o.events schema
  | .fragment f => f.events schema
  | .schema s | .schemaExtension s =>
    around (.definition definition) scope (s.partEvents schema scope)
  | .type t =>
    around (.definition definition) scope (t.partEvents schema scope .inputFieldDefinition)
  | .typeExtension t =>
    around (.definition definition) scope (t.partEvents schema scope .argumentDefinition)
  | .directive d =>
    around (.definition definition) scope
      (d.arguments.flatMap (InputDefinition.events schema scope .argumentDefinition))

/-- The walk of a document. -/
def Document.events (document : Document) : List Event :=
  around (.document document) {}
    (document.definitions.flatMap (Definition.events schema))

end Events

end RelayCheck
