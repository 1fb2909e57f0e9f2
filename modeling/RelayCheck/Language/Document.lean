import RelayCheck.Language.Value

/-!
# Documents

A document is a list of definitions: operations, fragments, and parts of a type system. Nodes
that messages point to keep the position of their first character.

This module introduces:

- `Selection`, `Operation` and `Fragment`, the executable part of a document;
- `TypeDefinition`, `SchemaDefinition` and `DirectiveDefinition`, the type system part;
- `Definition` and `Document`, with the views `Document.operations`, `Document.fragments` and
  `Document.fragment?`.
-/

namespace RelayCheck

/-! ## Executable definitions -/

/-- The declaration of a variable by an operation. -/
structure VariableDefinition where
  /-- The name after the dollar sign. -/
  name : Name
  /-- Where the dollar sign stands. -/
  variablePos : Position
  /-- The declared type. -/
  type : TypeRef Name
  /-- Where the type starts. -/
  typePos : Position
  /-- The default value, if there is one. -/
  default : Option Value
  /-- The directives applied to the declaration. -/
  directives : List Directive
  /-- Where the declaration starts. -/
  pos : Position

/-- A selected field, without its selections. -/
structure Field where
  /-- The name under which the field is returned, if not its own. -/
  aliasName : Option Name
  /-- The name of the field. -/
  name : Name
  /-- The arguments, in order. -/
  arguments : List Argument
  /-- The directives, in order. -/
  directives : List Directive
  /-- Where the field starts. -/
  pos : Position
  /-- Where its selection set starts; where the field starts if it has none. -/
  setPos : Position
deriving Inhabited

/-- The name under which a field is returned. -/
def Field.responseName (field : Field) : String :=
  match field.aliasName with
  | some name => name.text
  | none => field.name.text

/-- The use of a fragment by name; it starts at its three dots. -/
structure Spread where
  /-- The name of the fragment. -/
  name : Name
  /-- The directives, in order. -/
  directives : List Directive
  /-- Where the spread starts. -/
  pos : Position
deriving Inhabited

/-- A fragment written in place, without its selections; it starts at its three dots. -/
structure InlineFragment where
  /-- The type the selections are made on, if it is stated. -/
  typeCondition : Option Name
  /-- The directives, in order. -/
  directives : List Directive
  /-- Where the fragment starts. -/
  pos : Position
deriving Inhabited

/-- One item of a selection set. A selection set is never empty, so that a field without
selections is a field without a selection set. -/
inductive Selection
  /-- A field and what is selected of it. -/
  | field (field : Field) (selections : List Selection)
  /-- The selections of a named fragment. -/
  | spread (spread : Spread)
  /-- Selections grouped in place. -/
  | inlineFragment (fragment : InlineFragment) (selections : List Selection)
deriving Inhabited

/-- The kinds of operations. -/
inductive OperationKind
  | query | mutation | subscription
deriving DecidableEq, Inhabited

namespace OperationKind

/-- The keyword of a kind of operation. -/
def text : OperationKind → String
  | query => "query"
  | mutation => "mutation"
  | subscription => "subscription"

/-- The kind of operation a keyword stands for. -/
def ofText? : String → Option OperationKind
  | "query" => some query
  | "mutation" => some mutation
  | "subscription" => some subscription
  | _ => none

/-- All kinds, in their usual order. -/
def all : List OperationKind :=
  [query, mutation, subscription]

end OperationKind

/-- An operation. -/
structure Operation where
  /-- What the operation does. -/
  kind : OperationKind
  /-- The name, if it has one. -/
  name : Option Name
  /-- The variables it declares, in order. -/
  variableDefinitions : List VariableDefinition
  /-- The directives, in order. -/
  directives : List Directive
  /-- The selections, in order. -/
  selections : List Selection
  /-- Where the operation starts. -/
  pos : Position
deriving Inhabited

/-- A named fragment. -/
structure Fragment where
  /-- The name of the fragment. -/
  name : Name
  /-- The type the selections are made on. -/
  typeCondition : Name
  /-- The directives, in order. -/
  directives : List Directive
  /-- The selections, in order. -/
  selections : List Selection
  /-- Where the fragment starts. -/
  pos : Position
deriving Inhabited

/-! ## Type system definitions -/

/-- The declaration of an argument or of an input field. -/
structure InputDefinition where
  /-- The declared name. -/
  name : Name
  /-- The declared type. -/
  type : TypeRef Name
  /-- The default value, if there is one. -/
  default : Option Value
  /-- The directives, in order. -/
  directives : List Directive

/-- The declaration of a field. -/
structure FieldDefinition where
  /-- The declared name. -/
  name : Name
  /-- The arguments, in order. -/
  arguments : List InputDefinition
  /-- The declared type. -/
  type : TypeRef Name
  /-- The directives, in order. -/
  directives : List Directive

/-- The declaration of a value of an enum. -/
structure EnumValueDefinition where
  /-- The declared name. -/
  name : Name
  /-- The directives, in order. -/
  directives : List Directive

/-- The kinds of named types. -/
inductive TypeKind
  | scalar | object | interface | union | enum | inputObject
deriving DecidableEq, Inhabited

/-- What a type definition declares, by kind of type. -/
inductive TypeBody
  /-- A scalar declares nothing. -/
  | scalar
  /-- An object has interfaces and fields. -/
  | object (interfaces : List Name) (fields : List FieldDefinition)
  /-- An interface has interfaces and fields. -/
  | interface (interfaces : List Name) (fields : List FieldDefinition)
  /-- A union has member types. -/
  | union (members : List Name)
  /-- An enum has values. -/
  | enum (values : List EnumValueDefinition)
  /-- An input object has input fields. -/
  | inputObject (fields : List InputDefinition)

/-- The kind of type that a body declares. -/
def TypeBody.kind : TypeBody → TypeKind
  | scalar => .scalar
  | object .. => .object
  | interface .. => .interface
  | union _ => .union
  | enum _ => .enum
  | inputObject _ => .inputObject

/-- The definition or extension of a named type. -/
structure TypeDefinition where
  /-- The name of the type. -/
  name : Name
  /-- The directives, in order. -/
  directives : List Directive
  /-- What is declared. -/
  body : TypeBody
  /-- Where the definition starts. -/
  pos : Position

/-- The type at which operations of one kind start. -/
structure RootDefinition where
  /-- The kind of operation. -/
  kind : OperationKind
  /-- The name of the type. -/
  type : Name
  /-- Where the definition starts. -/
  pos : Position

/-- The definition or extension of the schema itself. -/
structure SchemaDefinition where
  /-- The directives, in order. -/
  directives : List Directive
  /-- The root types, in order. -/
  roots : List RootDefinition
  /-- Where the definition starts. -/
  pos : Position

/-- The places at which a directive may be allowed. -/
inductive DirectiveLocation
  | query | mutation | subscription | field | fragmentDefinition | fragmentSpread
  | inlineFragment | variableDefinition | schema | scalar | object | fieldDefinition
  | argumentDefinition | interface | union | enum | enumValue | inputObject
  | inputFieldDefinition | directiveDefinition
deriving DecidableEq

namespace DirectiveLocation

/-- The name of a location in a directive definition. -/
def text : DirectiveLocation → String
  | query => "QUERY"
  | mutation => "MUTATION"
  | subscription => "SUBSCRIPTION"
  | field => "FIELD"
  | fragmentDefinition => "FRAGMENT_DEFINITION"
  | fragmentSpread => "FRAGMENT_SPREAD"
  | inlineFragment => "INLINE_FRAGMENT"
  | variableDefinition => "VARIABLE_DEFINITION"
  | schema => "SCHEMA"
  | scalar => "SCALAR"
  | object => "OBJECT"
  | fieldDefinition => "FIELD_DEFINITION"
  | argumentDefinition => "ARGUMENT_DEFINITION"
  | interface => "INTERFACE"
  | union => "UNION"
  | enum => "ENUM"
  | enumValue => "ENUM_VALUE"
  | inputObject => "INPUT_OBJECT"
  | inputFieldDefinition => "INPUT_FIELD_DEFINITION"
  | directiveDefinition => "DIRECTIVE_DEFINITION"

/-- All locations, those of executable documents first. -/
def all : List DirectiveLocation :=
  [query, mutation, subscription, field, fragmentDefinition, fragmentSpread, inlineFragment,
    variableDefinition, schema, scalar, object, fieldDefinition, argumentDefinition, interface,
    union, enum, enumValue, inputObject, inputFieldDefinition, directiveDefinition]

/-- The location of the given name. -/
def ofText? (name : String) : Option DirectiveLocation :=
  all.find? fun location => location.text == name

/-- The name of a location in lower case, its words separated by blanks. -/
def phrase (location : DirectiveLocation) : String :=
  location.text.map fun c => if c = '_' then ' ' else c.toLower

/-- The location of the directives of an operation. -/
def ofOperation : OperationKind → DirectiveLocation
  | .query => query
  | .mutation => mutation
  | .subscription => subscription

/-- The location of the directives of a type. -/
def ofType : TypeKind → DirectiveLocation
  | .scalar => scalar
  | .object => object
  | .interface => interface
  | .union => union
  | .enum => enum
  | .inputObject => inputObject

end DirectiveLocation

/-- The definition of a directive. -/
structure DirectiveDefinition where
  /-- The name of the directive. -/
  name : Name
  /-- The arguments, in order. -/
  arguments : List InputDefinition
  /-- Whether the directive may be applied more than once at one place. -/
  repeatable : Bool
  /-- Where the directive may be applied. -/
  locations : List DirectiveLocation
  /-- Where the definition starts. -/
  pos : Position

/-! ## Documents -/

/-- A top-level definition. -/
inductive Definition
  /-- An operation. -/
  | operation (operation : Operation)
  /-- A fragment. -/
  | fragment (fragment : Fragment)
  /-- The definition of the schema itself. -/
  | schema (schema : SchemaDefinition)
  /-- An extension of the schema itself. -/
  | schemaExtension (schema : SchemaDefinition)
  /-- The definition of a type. -/
  | type (type : TypeDefinition)
  /-- An extension of a type. -/
  | typeExtension (type : TypeDefinition)
  /-- The definition of a directive. -/
  | directive (directive : DirectiveDefinition)

namespace Definition

/-- The name of the definition, if it has one. -/
def name? : Definition → Option Name
  | operation o => o.name
  | fragment f => some f.name
  | schema _ | schemaExtension _ => none
  | type t | typeExtension t => some t.name
  | directive d => some d.name

/-- Where the definition starts. -/
def pos : Definition → Position
  | operation o => o.pos
  | fragment f => f.pos
  | schema s | schemaExtension s => s.pos
  | type t | typeExtension t => t.pos
  | directive d => d.pos

/-- Whether the definition is part of a type system. -/
def isTypeSystem : Definition → Bool
  | operation _ | fragment _ => false
  | _ => true

/-- The operation that this definition is. -/
def operation? : Definition → Option Operation
  | operation o => some o
  | _ => none

/-- The fragment that this definition is. -/
def fragment? : Definition → Option Fragment
  | fragment f => some f
  | _ => none

/-- The type definition, but not extension, that this definition is. -/
def type? : Definition → Option TypeDefinition
  | type t => some t
  | _ => none

/-- The directive definition that this definition is. -/
def directive? : Definition → Option DirectiveDefinition
  | directive d => some d
  | _ => none

end Definition

/-- A document. -/
structure Document where
  /-- The definitions, in order. -/
  definitions : List Definition

namespace Document

/-- The operations of a document, in order. -/
def operations (document : Document) : List Operation :=
  document.definitions.filterMap Definition.operation?

/-- The fragments of a document, in order. -/
def fragments (document : Document) : List Fragment :=
  document.definitions.filterMap Definition.fragment?

/-- The fragment of the given name; of several the last one. -/
def fragment? (document : Document) (name : String) : Option Fragment :=
  document.fragments.reverse.find? fun fragment => fragment.name.text == name

/-- The type definitions of a document, in order. -/
def types (document : Document) : List TypeDefinition :=
  document.definitions.filterMap Definition.type?

/-- The directive definitions of a document, in order. -/
def directives (document : Document) : List DirectiveDefinition :=
  document.definitions.filterMap Definition.directive?

/-- A fragment found by name has that name and is defined by the document. -/
theorem mem_fragments_of_fragment? {document : Document} {name : String} {fragment : Fragment}
    (h : document.fragment? name = some fragment) :
    fragment ∈ document.fragments ∧ fragment.name.text = name := by
  rw [fragment?] at h
  exact ⟨by simpa using List.mem_of_find?_eq_some h, by simpa using List.find?_some h⟩

end Document

end RelayCheck
