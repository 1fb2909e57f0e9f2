import RelayCheck.Schema.Definition

/-!
# Valid schemas

What a schema has to satisfy beyond being made of known types: it has a root type for queries,
names are not reserved, types are not empty, types that implement an interface provide its
fields, and no input object requires itself.

This module introduces `SchemaFault` with its `message` and `Schema.faults`, the breaches of
these rules.
-/

namespace RelayCheck

/-- A breach of the rules for schemas. -/
inductive SchemaFault
  /-- There is no type for queries. -/
  | noQueryType
  /-- The root type of a kind of operation is no object type. -/
  | rootNotObject (kind : OperationKind) (type : String)
  /-- A name is reserved. -/
  | reservedName (name : String)
  /-- A required argument, at a place given as it is written, is deprecated. -/
  | deprecatedArgument (place argument : String)
  /-- A required field of an input object is deprecated. -/
  | deprecatedField (type field : String)
  /-- An object or interface has no fields. -/
  | noFields (type : String)
  /-- An input object has no fields. -/
  | noInputFields (type : String)
  /-- A union has no members. -/
  | noMembers (type : String)
  /-- An enum has no values. -/
  | noValues (type : String)
  /-- A union has a member twice. -/
  | repeatedMember (type member : String)
  /-- An interface implements itself. -/
  | implementsItself (type : String)
  /-- A type implements an interface twice. -/
  | repeatedInterface (type interface : String)
  /-- A type does not implement an interface that one of its interfaces implements. -/
  | missingInterface (type interface implied : String)
  /-- Two interfaces implement each other. -/
  | circularInterface (type interface : String)
  /-- A type lacks a field of its interface. -/
  | missingField (type interface field : String)
  /-- A field is of another type than that of the interface. -/
  | fieldType (type interface field : String) (expected found : TypeRef String)
  /-- A field lacks an argument of that of the interface. -/
  | missingArgument (type interface field argument : String)
  /-- An argument is of another type than that of the interface. -/
  | argumentType (type interface field argument : String) (expected found : TypeRef String)
  /-- A field requires an argument that the interface does not have. -/
  | extraRequired (type interface field argument : String)
  /-- A field of an input object that takes one field excludes null. -/
  | requiredOneField (type field : String)
  /-- A field of an input object that takes one field has a default. -/
  | defaultedOneField (type field : String)
  /-- An input object requires itself, along the given fields. -/
  | inputCycle (type : String) (path : List String)

namespace SchemaFault

/-- A keyword with its first letter in upper case. -/
def titled (kind : OperationKind) : String :=
  match kind with
  | .query => "Query"
  | .mutation => "Mutation"
  | .subscription => "Subscription"

/-- The wording of the fault. -/
def message : SchemaFault → String
  | noQueryType => "Query root type must be provided."
  | rootNotObject kind type =>
    let condition := if kind == .query then "" else " if provided"
    s!"{titled kind} root type must be Object type{condition}, it cannot be {type}."
  | reservedName name =>
    s!"Name '{name}' must not begin with '__', which is reserved by GraphQL introspection."
  | deprecatedArgument place argument =>
    s!"Required argument {place}({argument}:) cannot be deprecated."
  | deprecatedField type field =>
    s!"Required input field {type}.{field} cannot be deprecated."
  | noFields type => s!"Type {type} must define one or more fields."
  | noInputFields type => s!"Input Object type {type} must define one or more fields."
  | noMembers type => s!"Union type {type} must define one or more member types."
  | noValues type => s!"Enum type {type} must define one or more values."
  | repeatedMember type member => s!"Union type {type} can only include type {member} once."
  | implementsItself type =>
    s!"Type {type} cannot implement itself because it would create a circular reference."
  | repeatedInterface type interface => s!"Type {type} can only implement {interface} once."
  | missingInterface type interface implied =>
    s!"Type {type} must implement {implied} because it is implemented by {interface}."
  | circularInterface type interface =>
    s!"Type {type} cannot implement {interface} because it would create a circular reference."
  | missingField type interface field =>
    s!"Interface field {interface}.{field} expected but {type} does not provide it."
  | fieldType type interface field expected found =>
    s!"Interface field {interface}.{field} expects type {expected.render} but "
      ++ s!"{type}.{field} is type {found.render}."
  | missingArgument type interface field argument =>
    s!"Interface field argument {interface}.{field}({argument}:) expected but "
      ++ s!"{type}.{field} does not provide it."
  | argumentType type interface field argument expected found =>
    s!"Interface field argument {interface}.{field}({argument}:) expects type "
      ++ s!"{expected.render} but {type}.{field}({argument}:) is type {found.render}."
  | extraRequired type interface field argument =>
    s!"Object field {type}.{field} includes required argument {argument} that is missing "
      ++ s!"from the Interface field {interface}.{field}."
  | requiredOneField type field => s!"OneOf input field {type}.{field} must be nullable."
  | defaultedOneField type field =>
    s!"OneOf input field {type}.{field} cannot have a default value."
  | inputCycle type path =>
    let fields := ".".intercalate path
    s!"Cannot reference Input Object '{type}' within itself through a series of non-null "
      ++ s!"fields: '{fields}'."

end SchemaFault

namespace Schema

variable (schema : Schema)

/-! ## Roots and names -/

/-- The kinds of operations with the types at which they start, where these are known. -/
def roots : List (OperationKind × NamedType) :=
  OperationKind.all.filterMap fun kind =>
    ((schema.root? kind).bind schema.type?).map fun type => (kind, type)

/-- The faults of the root types. -/
def rootFaults : List SchemaFault :=
  let query := if schema.query.isNone then [.noQueryType] else []
  let wrong := (schema.roots.filter fun root => !root.2.isObject).map fun root =>
    SchemaFault.rootNotObject root.1 root.2.name
  query ++ wrong

/-- The fault of a reserved name. -/
def nameFaults (name : String) : List SchemaFault :=
  if isReserved name then [.reservedName name] else []

/-- The faults of the arguments at a place, which is given as it is written. -/
def parameterFaults (place : String) (parameters : List Parameter) : List SchemaFault :=
  parameters.flatMap fun parameter =>
    nameFaults parameter.name
      ++ if parameter.isRequired && parameter.deprecated then
        [.deprecatedArgument place parameter.name] else []

/-! ## Interfaces -/

/-- The faults of a field that an interface asks for. -/
def providedFaults (type interface : NamedType) (asked : OutputField) : List SchemaFault :=
  match type.field? asked.name with
  | none => [.missingField type.name interface.name asked.name]
  | some field =>
    let result :=
      if schema.isSubtype field.type asked.type then []
      else [SchemaFault.fieldType type.name interface.name asked.name asked.type field.type]
    let find : List Parameter → String → Option Parameter := fun parameters name =>
      parameters.find? fun parameter => parameter.name == name
    let taken := asked.parameters.flatMap fun parameter =>
      match find field.parameters parameter.name with
      | none => [SchemaFault.missingArgument type.name interface.name asked.name parameter.name]
      | some found =>
        if found.type == parameter.type then []
        else [.argumentType type.name interface.name asked.name parameter.name parameter.type
          found.type]
    let extra := (field.parameters.filter fun parameter =>
      parameter.isRequired && (find asked.parameters parameter.name).isNone).map fun parameter =>
        SchemaFault.extraRequired type.name interface.name asked.name parameter.name
    result ++ taken ++ extra

/-- The faults of a type with one of its interfaces. -/
def interfaceFaults (type interface : NamedType) : List SchemaFault :=
  let implied := (interface.interfaces.filter fun name =>
    !type.interfaces.contains name).map fun name =>
      if name == type.name then SchemaFault.circularInterface type.name interface.name
      else SchemaFault.missingInterface type.name interface.name name
  implied ++ interface.fields.flatMap (schema.providedFaults type interface)

/-- The faults of the interfaces that a type declares, given those declared before. A type that
declares itself is still compared with itself, the first time. -/
def declaredFaults (type : NamedType) : (before : List String) → List String → List SchemaFault
  | _, [] => []
  | before, name :: rest =>
    let circular :=
      if name == type.name then [SchemaFault.implementsItself type.name] else []
    let found :=
      if before.contains name then [SchemaFault.repeatedInterface type.name name]
      else ((schema.type? name).map (schema.interfaceFaults type)).getD []
    circular ++ found ++ declaredFaults type (before ++ [name]) rest

/-! ## Input objects -/

/-- The input objects that an input object requires, with the fields that require them. -/
def requiredInputs (fields : List Parameter) : List (String × NamedType) :=
  fields.filterMap fun field =>
    match field.type with
    | .nonNull (.named name) =>
      ((schema.type? name).filter fun type => type.inputFields?.isSome).map fun type =>
        (field.name, type)
    | _ => none

/-- The cycles of input objects found on the way down from one, depth first, and the types
visited. The path holds each type with the field that left it; no type is on it twice, so the
number of types bounds its length. -/
def inputCycles : (room : Nat) → (path : List (String × String)) → (visited : List String) →
    NamedType → List SchemaFault × List String
  | 0, _, visited, _ => ([], visited)
  | room + 1, path, visited, type =>
    if visited.contains type.name then ([], visited)
    else (schema.requiredInputs (type.inputFields?.getD [])).foldl
      (fun (found, visited) (field, target) =>
        let longer := path ++ [(type.name, field)]
        let cycle := longer.dropWhile fun step => step.1 != target.name
        if cycle.isEmpty then
          let (more, visited) := inputCycles room longer visited target
          (found ++ more, visited)
        else (found ++ [.inputCycle target.name (cycle.map Prod.snd)], visited))
      ([], type.name :: visited)

/-! ## Types -/

/-- The faults of a type apart from cycles of input objects. -/
def typeFaults (type : NamedType) : List SchemaFault :=
  match type.shape with
  | .scalar => []
  | .object interfaces fields | .interface interfaces fields =>
    (if fields.isEmpty then [SchemaFault.noFields type.name] else [])
      ++ fields.flatMap (fun field => nameFaults field.name
        ++ parameterFaults (type.name ++ "." ++ field.name) field.parameters)
      ++ schema.declaredFaults type [] interfaces
  | .union members =>
    (if members.isEmpty then [SchemaFault.noMembers type.name] else [])
      ++ (members.zipIdx.filter fun (member, index) =>
        (members.take index).contains member).map fun (member, _) =>
          SchemaFault.repeatedMember type.name member
  | .enum values =>
    (if values.isEmpty then [SchemaFault.noValues type.name] else [])
      ++ values.flatMap nameFaults
  | .inputObject fields oneOf =>
    (if fields.isEmpty then [SchemaFault.noInputFields type.name] else [])
      ++ fields.flatMap fun field =>
        nameFaults field.name
          ++ (if field.isRequired && field.deprecated then
            [SchemaFault.deprecatedField type.name field.name] else [])
          ++ (if oneOf && field.type.isNonNull then
            [SchemaFault.requiredOneField type.name field.name] else [])
          ++ (if oneOf && field.default.isSome then
            [SchemaFault.defaultedOneField type.name field.name] else [])

/-- The faults of types in order, cycles of input objects being found at the first type that
leads to them. -/
def allTypeFaults : (visited : List String) → List NamedType → List SchemaFault
  | _, [] => []
  | visited, type :: rest =>
    let isStandard := introspectionTypes.any fun standard => standard.name == type.name
    let name := if isStandard then [] else nameFaults type.name
    let own := if isStandard then [] else schema.typeFaults type
    let (cycles, visited) :=
      if type.inputFields?.isSome then
        schema.inputCycles (schema.types.length + 1) [] visited type
      else ([], visited)
    name ++ own ++ cycles ++ allTypeFaults visited rest

/-- The breaches of the rules for schemas, in order. -/
def faults : List SchemaFault :=
  schema.rootFaults
    ++ schema.directives.flatMap (fun directive =>
      nameFaults directive.name
        ++ parameterFaults ("@" ++ directive.name) directive.parameters)
    ++ schema.allTypeFaults [] schema.types

end Schema

end RelayCheck
