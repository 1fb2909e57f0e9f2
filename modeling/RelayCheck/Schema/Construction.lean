import RelayCheck.Schema.Definition

/-!
# Definitions that make no schema

The parts of a schema are made of their definitions in order. First come the values of enums and
the scalars, then the directives, then the other types, each with its interfaces or members before
its fields. A field comes after its arguments. Of an argument or input field the default value is
read first, then the directive that deprecates it, and then its type has to be an input type. The
first of these parts that cannot be made is the reason why the definitions make no schema.

A default value at an input object needs the fields of that type, so that they are made then,
wherever the type itself is defined. Where the fields of a type cannot be made, the reason tells
the type, one around the other.

This module introduces:

- `ApplicationFault`, why a directive is not given what it takes;
- `ConstructionFault` with its `message`, why a part of a schema cannot be made;
- `Document.constructionFault?`, the first part that cannot be made.
-/

namespace RelayCheck

/-! ## Faults -/

/-- Why a directive is not given what it takes. -/
inductive ApplicationFault
  /-- An argument that excludes null is not given. -/
  | missing (argument : String) (type : TypeRef String)
  /-- An argument that excludes null is null. -/
  | null (argument : String) (type : TypeRef String)
  /-- An argument is given a value that is none of its type. -/
  | invalid (argument : String) (value : Value)

/-- The wording of the fault. -/
def ApplicationFault.message : ApplicationFault → String
  | missing argument type =>
    s!"Argument '{argument}' of required type '{type.render}' was not provided."
  | null argument type =>
    s!"Argument '{argument}' of non-null type '{type.render}' must not be null."
  | invalid argument value => s!"Argument '{argument}' has invalid value {value.render}."

/-- Why a part of a schema cannot be made. -/
inductive ConstructionFault
  /-- An argument has no input type. -/
  | argumentType
  /-- A field has no output type. -/
  | fieldType
  /-- An input field has no input type. -/
  | inputFieldType
  /-- An interface of a type is none. -/
  | interface (type : String)
  /-- A member of a union is no object type. -/
  | member (type : String)
  /-- A default value stands at a type that is no input type. -/
  | outputDefault (type : String)
  /-- A directive, or an argument of it, at the given position is at fault. -/
  | application (fault : ApplicationFault) (pos : Position)
  /-- The fields of a type cannot be made. -/
  | fields (type : String) (cause : ConstructionFault)

/-- The wording of the fault, with an excerpt of the source where it has a position. -/
def ConstructionFault.message (source : String) : ConstructionFault → String
  | argumentType => "Argument type must be a GraphQL input type."
  | fieldType => "Field type must be an output type."
  | inputFieldType => "Input field type must be a GraphQL input type."
  | interface type =>
    s!"{type} interfaces must be specified as a collection of GraphQLInterfaceType instances."
  | member type =>
    s!"{type} types must be specified as a collection of GraphQLObjectType instances."
  | outputDefault type => s!"Unexpected input type: {type}."
  | application fault pos => located fault.message source pos
  | fields type cause => s!"{type} fields cannot be resolved. " ++ cause.message source

namespace Schema

variable (schema : Schema)

/-! ## Directives -/

/-- The fault of a directive with an argument that it takes. -/
def argumentFault? (directive : Directive) (parameter : Parameter) : Option ConstructionFault :=
  let given := directive.arguments.reverse.find? fun argument =>
    argument.name.text == parameter.name
  match given with
  | none =>
    if parameter.isRequired then
      some (.application (.missing parameter.name parameter.type) directive.pos)
    else none
  | some argument =>
    if argument.value.isNull && parameter.type.isNonNull then
      some (.application (.null parameter.name parameter.type) argument.value.pos)
    else if (schema.coerce argument.value parameter.type).isNone then
      some (.application (.invalid parameter.name argument.value) argument.value.pos)
    else none

/-- The fault of the standard directive of the given name where it is applied. It takes what the
standard says, whatever the schema defines under its name. -/
def applicationFault? (name : String) (applied : List Directive) : Option ConstructionFault := do
  let directive ← applied.find? fun directive => directive.name.text == name
  let known ← standardDirectives.find? fun directive => directive.name == name
  known.parameters.findSome? (schema.argumentFault? directive)

/-! ## Default values -/

/-- The fault found on the way down a type, at the items of a list type if there are items, and
otherwise at the named type inside. -/
def faultInside (items : Option (TypeRef String → Option ConstructionFault))
    (named : String → Option ConstructionFault) : TypeRef String → Option ConstructionFault
  | .nonNull type => faultInside items named type
  | .list item =>
    match items with
    | some fault => fault item
    | none => faultInside items named item
  | .named name => named name

/-- A field of an object literal: its name, its value, and the fault of reading it at a type. -/
structure GivenField where
  /-- The name of the field. -/
  name : String
  /-- The value given to it. -/
  value : Value
  /-- The fault of reading the value at a type. -/
  fault : TypeRef String → Option ConstructionFault

/-- The fault of reading the fields of an object literal. They are read in the order of the input
fields, up to one that denotes no value. -/
def givenFault? (given : List GivenField) : List Parameter → Option ConstructionFault
  | [] => none
  | parameter :: rest =>
    match given.reverse.find? fun field => field.name == parameter.name with
    | some field =>
      match field.fault parameter.type with
      | some fault => some fault
      | none =>
        if (schema.coerce field.value parameter.type).isNone then none
        else givenFault? given rest
    | none => if parameter.isRequired then none else givenFault? given rest

/-- The fault of reading a literal at a named type, given the faults of the fields of types and,
if the literal is an object, its fields. -/
def namedFault? (ofFields : String → Option ConstructionFault) (given : Option (List GivenField))
    (name : String) : Option ConstructionFault := do
  let type ← schema.type? name
  if !type.isInput then some (.outputDefault name)
  else
    let parameters ← type.inputFields?
    let given ← given
    (ofFields name).or (schema.givenFault? given parameters)

mutual

/-- The fault of reading a literal at a type, given the faults of the fields of types. -/
def readFault? (ofFields : String → Option ConstructionFault) :
    Value → TypeRef String → Option ConstructionFault
  | .null _, _ => none
  | .list items _, type =>
    faultInside (some (itemsFault? ofFields items)) (schema.namedFault? ofFields none) type
  | .object fields _, type =>
    faultInside none (schema.namedFault? ofFields (some (givenFields ofFields fields))) type
  | .variable .., type | .int .., type | .float .., type | .string .., type | .boolean .., type
  | .enum .., type => faultInside none (schema.namedFault? ofFields none) type

/-- The fault of reading the items of a list, up to one that denotes no value. -/
def itemsFault? (ofFields : String → Option ConstructionFault) :
    List Value → TypeRef String → Option ConstructionFault
  | [], _ => none
  | item :: rest, type =>
    match readFault? ofFields item type with
    | some fault => some fault
    | none => if (schema.coerce item type).isNone then none else itemsFault? ofFields rest type

/-- The fields of an object literal. -/
def givenFields (ofFields : String → Option ConstructionFault) :
    List (Name × Value) → List GivenField
  | [] => []
  | (name, value) :: rest =>
    ⟨name.text, value, fun type => readFault? ofFields value type⟩ :: givenFields ofFields rest

end

/-! ## Fields and types -/

/-- The fault of an argument or input field, which is `misplaced` if it has no input type. -/
def inputFault? (ofFields : String → Option ConstructionFault) (misplaced : ConstructionFault)
    (declared : InputDefinition) : Option ConstructionFault :=
  let type := plainType declared.type
  (declared.default.bind fun value => schema.readFault? ofFields value type)
    |>.or (schema.applicationFault? deprecatedName declared.directives)
    |>.or (if schema.baseIs NamedType.isInput type then none else some misplaced)

/-- The fault of arguments. -/
def parametersFault? (ofFields : String → Option ConstructionFault)
    (declared : List InputDefinition) : Option ConstructionFault :=
  declared.findSome? (schema.inputFault? ofFields .argumentType)

/-- The fault of a field. -/
def fieldFault? (ofFields : String → Option ConstructionFault) (declared : FieldDefinition) :
    Option ConstructionFault :=
  (schema.parametersFault? ofFields declared.arguments)
    |>.or (schema.applicationFault? deprecatedName declared.directives)
    |>.or (if schema.baseIs NamedType.isOutput (plainType declared.type) then none
      else some .fieldType)

/-- Whether all names are names of types of which `holds` is true. -/
def allAre (holds : NamedType → Bool) (names : List Name) : Bool :=
  names.all fun name => (schema.type? name.text).any holds

/-- The fault of a scalar or of the values of an enum. -/
def valuesFault? (type : TypeDefinition) : Option ConstructionFault :=
  match type.body with
  | .scalar => schema.applicationFault? specifiedByName type.directives
  | .enum values =>
    values.findSome? fun value => schema.applicationFault? deprecatedName value.directives
  | .object .. | .interface .. | .union _ | .inputObject _ => none

/-- The fault of the parts of a type that refer to other types. -/
def partsFault? (ofFields : String → Option ConstructionFault) (type : TypeDefinition) :
    Option ConstructionFault :=
  let name := type.name.text
  match type.body with
  | .scalar | .enum _ => none
  | .object interfaces fields | .interface interfaces fields =>
    if schema.allAre NamedType.isInterface interfaces then
      (fields.findSome? (schema.fieldFault? ofFields)).map (.fields name)
    else some (.interface name)
  | .union members =>
    if schema.allAre NamedType.isObject members then none else some (.member name)
  | .inputObject fields =>
    (fields.findSome? (schema.inputFault? ofFields .inputFieldType)).map (.fields name)

/-- The faults of the fields of input objects by name, found with defaults that rest on each
other up to the given number of times. -/
def inputFaults (types : List TypeDefinition) :
    (rounds : Nat) → List (String × ConstructionFault)
  | 0 => []
  | rounds + 1 =>
    let before := inputFaults types rounds
    types.filterMap fun type =>
      (schema.partsFault? (before.lookup ·) type).map fun fault => (type.name.text, fault)

end Schema

namespace Document

variable (document : Document)

/-- The first part of the schema that cannot be made of its definition. The standard types are
not made of definitions. A default rests on those of input objects, so that their number bounds
how often faults have to be looked for. -/
def constructionFault? : Option ConstructionFault :=
  let schema := document.schema
  let types := document.extendedTypes.filter fun type =>
    !standardTypeNames.contains type.name.text
  let inputs := types.filter fun type => type.body.kind == .inputObject
  let faults := schema.inputFaults inputs (inputs.length + 1)
  (types.findSome? schema.valuesFault?)
    |>.or (document.directives.findSome? fun directive =>
      schema.parametersFault? (faults.lookup ·) directive.arguments)
    |>.or (types.findSome? (schema.partsFault? (faults.lookup ·)))

end Document

end RelayCheck
