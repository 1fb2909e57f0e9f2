import RelayCheck.Language.Document

/-!
# Schemas

A schema lists the named types and the directives that documents may use, and the types at which
operations start. Types refer to each other by name, names being unique.

This module introduces:

- `InputValue`, the values that input positions take;
- `Parameter`, an argument or input field, and `OutputField`, a field that can be selected;
- `NamedType`, `SchemaDirective` and `Schema`, with the look-ups by name;
- the classes of types: input, output, leaf, composite and abstract types.
-/

namespace RelayCheck

/-- A value that an input position takes, once a literal has been read at the type of the
position. -/
inductive InputValue
  /-- No value. -/
  | null
  /-- An integer. -/
  | int (value : Int)
  /-- The decimal number `digits * 10 ^ exponent`. -/
  | decimal (digits : Int) (exponent : Int)
  /-- A text. -/
  | string (text : String)
  /-- A truth value. -/
  | boolean (value : Bool)
  /-- One of the values of an enum. -/
  | enum (name : String)
  /-- A list of values. -/
  | list (items : List InputValue)
  /-- An object, its fields in order. -/
  | object (fields : List (String × InputValue))
deriving Inhabited

/-- A place that takes an input value: an argument or an input field. -/
structure Parameter where
  /-- The name of the argument or field. -/
  name : String
  /-- The type of the values it takes. -/
  type : TypeRef String
  /-- The value it has if none is given; it may be null, which is not the same as having no
  default. -/
  default : Option InputValue
  /-- What the place is for, where that is stated. -/
  description : Option String
  /-- Whether values should no longer be given. -/
  deprecated : Bool
deriving Inhabited

/-- Whether a value has to be given: null is excluded and there is no default. -/
def Parameter.isRequired (parameter : Parameter) : Bool :=
  parameter.type.isNonNull && parameter.default.isNone

/-- A field that can be selected. -/
structure OutputField where
  /-- The name of the field. -/
  name : String
  /-- The arguments it takes, in order. -/
  parameters : List Parameter
  /-- The type of its results. -/
  type : TypeRef String
deriving Inhabited

/-- What a type consists of, by kind of type. -/
inductive TypeShape
  /-- Values without parts. -/
  | scalar
  /-- Results with fields. -/
  | object (interfaces : List String) (fields : List OutputField)
  /-- Fields that several types share. -/
  | interface (interfaces : List String) (fields : List OutputField)
  /-- Results of one of several object types. -/
  | union (members : List String)
  /-- One of several names. -/
  | enum (values : List String)
  /-- Input values with fields, of which exactly one is given if `oneOf` holds. -/
  | inputObject (fields : List Parameter) (oneOf : Bool)
deriving Inhabited

/-- A type with its name. -/
structure NamedType where
  /-- The name of the type. -/
  name : String
  /-- What the type consists of. -/
  shape : TypeShape
deriving Inhabited

namespace NamedType

/-- Whether values of the type can be given as input. -/
def isInput (type : NamedType) : Bool :=
  match type.shape with
  | .scalar | .enum _ | .inputObject .. => true
  | .object .. | .interface .. | .union _ => false

/-- Whether results can have the type. -/
def isOutput (type : NamedType) : Bool :=
  match type.shape with
  | .inputObject .. => false
  | _ => true

/-- Whether values of the type have no parts. -/
def isLeaf (type : NamedType) : Bool :=
  match type.shape with
  | .scalar | .enum _ => true
  | _ => false

/-- Whether fields can be selected of the type. -/
def isComposite (type : NamedType) : Bool :=
  match type.shape with
  | .object .. | .interface .. | .union _ => true
  | _ => false

/-- Whether results of the type have a more precise object type. -/
def isAbstract (type : NamedType) : Bool :=
  match type.shape with
  | .interface .. | .union _ => true
  | _ => false

/-- Whether the type is an object type. -/
def isObject (type : NamedType) : Bool :=
  match type.shape with
  | .object .. => true
  | _ => false

/-- Whether the type is an interface. -/
def isInterface (type : NamedType) : Bool :=
  match type.shape with
  | .interface .. => true
  | _ => false

/-- The interfaces that the type declares. -/
def interfaces (type : NamedType) : List String :=
  match type.shape with
  | .object interfaces _ | .interface interfaces _ => interfaces
  | _ => []

/-- The fields of an object or interface; other types have none. -/
def fields (type : NamedType) : List OutputField :=
  match type.shape with
  | .object _ fields | .interface _ fields => fields
  | _ => []

/-- The field of the given name. -/
def field? (type : NamedType) (name : String) : Option OutputField :=
  type.fields.find? fun field => field.name == name

/-- The fields of an input object, if the type is one. -/
def inputFields? (type : NamedType) : Option (List Parameter) :=
  match type.shape with
  | .inputObject fields _ => some fields
  | _ => none

/-- Whether the abstract type includes the results of the other, which is an object type or an
interface. -/
def includes (abstract other : NamedType) : Bool :=
  match abstract.shape with
  | .union members => members.contains other.name
  | .interface .. => other.interfaces.contains abstract.name
  | _ => false

end NamedType

/-- A directive that documents may apply. -/
structure SchemaDirective where
  /-- The name of the directive. -/
  name : String
  /-- Where it may be applied. -/
  locations : List DirectiveLocation
  /-- The arguments it takes, in order. -/
  parameters : List Parameter
  /-- Whether it may be applied more than once at one place. -/
  repeatable : Bool
deriving Inhabited

/-- A schema. -/
structure Schema where
  /-- The named types. -/
  types : List NamedType
  /-- The directives, in order. -/
  directives : List SchemaDirective
  /-- The name of the type at which queries start. -/
  query : Option String
  /-- The name of the type at which mutations start. -/
  mutation : Option String
  /-- The name of the type at which subscriptions start. -/
  subscription : Option String
deriving Inhabited

namespace Schema

variable (schema : Schema)

/-- The type of the given name. -/
def type? (name : String) : Option NamedType :=
  schema.types.find? fun type => type.name == name

/-- The directive of the given name. -/
def directive? (name : String) : Option SchemaDirective :=
  schema.directives.find? fun directive => directive.name == name

/-- The name of the type at which operations of a kind start. -/
def root? : OperationKind → Option String
  | .query => schema.query
  | .mutation => schema.mutation
  | .subscription => schema.subscription

/-- Whether the reference leads to a type of which `holds` is true. -/
def baseIs (holds : NamedType → Bool) (type : TypeRef String) : Bool :=
  (schema.type? type.baseName).any holds

/-- The reference, if it leads to an input type of the schema. -/
def inputType? (type : TypeRef String) : Option (TypeRef String) :=
  if schema.baseIs NamedType.isInput type then some type else none

/-- The reference, if it leads to an output type of the schema. -/
def outputType? (type : TypeRef String) : Option (TypeRef String) :=
  if schema.baseIs NamedType.isOutput type then some type else none

/-- The input fields of the input object that the reference leads to, if it does. -/
def inputFields? (type : TypeRef String) : Option (List Parameter) :=
  (schema.type? type.baseName).bind NamedType.inputFields?

/-- The object types whose results an abstract type includes. -/
def possibleTypes (type : NamedType) : List NamedType :=
  match type.shape with
  | .union members => members.filterMap schema.type?
  | .interface .. =>
    schema.types.filter fun other => other.isObject && other.interfaces.contains type.name
  | _ => []

/-- Whether the type called `super` is abstract and includes the one called `sub`. -/
def includesName (super sub : String) : Bool :=
  match schema.type? super, schema.type? sub with
  | some super, some sub => super.includes sub
  | _, _ => false

/-- Whether every value of the first type is one of the second: non-null types are below their
nullable forms, lists go with their items, and object types and interfaces are below the abstract
types that include them. -/
def isSubtype : TypeRef String → TypeRef String → Bool
  | .nonNull sub, .nonNull super => isSubtype sub super
  | .nonNull sub, super => isSubtype sub super
  | _, .nonNull _ => false
  | .list sub, .list super => isSubtype sub super
  | .named sub, .named super => sub == super || schema.includesName super sub
  | .list _, .named _ | .named _, .list _ => false

/-- An input type of the schema is the reference it was asked for. -/
theorem inputType?_eq_some_iff {schema : Schema} {type found : TypeRef String} :
    schema.inputType? type = some found ↔
      schema.baseIs NamedType.isInput type = true ∧ type = found := by
  simp [inputType?]

end Schema

end RelayCheck
