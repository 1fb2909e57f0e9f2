import RelayCheck.Schema.Basic

/-!
# What every schema has

The scalars that every schema may use, the directives that every schema has unless it defines
them itself, and the types by which a schema describes itself, with the fields that lead to them.

This module introduces `scalarNames`, `standardDirectives`, `introspectionTypes` and
`Schema.field?`, the look-up of a field that knows these fields, too.
-/

namespace RelayCheck

/-! ## Scalars -/

/-- The names of the built-in scalars. -/
def scalarNames : List String :=
  ["String", "Int", "Float", "Boolean", "ID"]

/-- A built-in scalar. -/
def scalarType (name : String) : NamedType :=
  ⟨name, .scalar⟩

/-! ## Directives -/

/-- An argument without default. -/
def parameter (name : String) (type : TypeRef String) : Parameter :=
  ⟨name, type, none, none, false⟩

/-- The name of the directive that marks what should no longer be used. -/
def deprecatedName : String := "deprecated"

/-- The argument of this directive that says why. -/
def reasonName : String := "reason"

/-- The name of the directive that tells where a scalar is specified. -/
def specifiedByName : String := "specifiedBy"

/-- The reason that marks what is deprecated without one. -/
def defaultDeprecationReason : String :=
  "No longer supported"

/-- The directives that every schema has unless it defines others of their names. -/
def standardDirectives : List SchemaDirective :=
  let condition := parameter "if" (.nonNull (.named "Boolean"))
  let selections : List DirectiveLocation := [.field, .fragmentSpread, .inlineFragment]
  [⟨"include", selections, [condition], false⟩,
    ⟨"skip", selections, [condition], false⟩,
    ⟨deprecatedName,
      [.fieldDefinition, .argumentDefinition, .inputFieldDefinition, .enumValue,
        .directiveDefinition],
      [⟨reasonName, .named "String", some (.string defaultDeprecationReason), none, false⟩], false⟩,
    ⟨specifiedByName, [.scalar], [parameter "url" (.nonNull (.named "String"))], false⟩,
    ⟨"oneOf", [.inputObject], [], false⟩]

/-! ## Introspection -/

section Introspection

/-- A name as a type reference that excludes null. -/
private def present (name : String) : TypeRef String :=
  .nonNull (.named name)

/-- A list of a type, both without null. -/
private def every (name : String) : TypeRef String :=
  .list (present name)

/-- A field without arguments. -/
private def plainField (name : String) (type : TypeRef String) : OutputField :=
  ⟨name, [], type⟩

/-- A field that leaves out what is deprecated unless an argument of the given type says
otherwise. -/
private def filteredFieldBy (choice : TypeRef String) (name : String) (type : TypeRef String) :
    OutputField :=
  ⟨name, [⟨"includeDeprecated", choice, some (.boolean false), none, false⟩], type⟩

/-- A field that leaves out what is deprecated unless told otherwise; null may be given. -/
private def filteredField : (name : String) → (type : TypeRef String) → OutputField :=
  filteredFieldBy (.named "Boolean")

/-- The types by which a schema describes itself. -/
def introspectionTypes : List NamedType :=
  let text := TypeRef.named "String"
  let deprecation := [plainField "isDeprecated" (present "Boolean"),
    plainField "deprecationReason" text]
  [⟨"__Schema", .object []
      [plainField "description" text,
        plainField "types" (.nonNull (every "__Type")),
        plainField "queryType" (present "__Type"),
        plainField "mutationType" (.named "__Type"),
        plainField "subscriptionType" (.named "__Type"),
        filteredFieldBy (present "Boolean") "directives" (.nonNull (every "__Directive"))]⟩,
    ⟨"__Type", .object []
      [plainField "kind" (present "__TypeKind"),
        plainField "name" text,
        plainField "description" text,
        plainField "specifiedByURL" text,
        filteredField "fields" (every "__Field"),
        plainField "interfaces" (every "__Type"),
        plainField "possibleTypes" (every "__Type"),
        filteredField "enumValues" (every "__EnumValue"),
        filteredField "inputFields" (every "__InputValue"),
        plainField "ofType" (.named "__Type"),
        plainField "isOneOf" (.named "Boolean")]⟩,
    ⟨"__TypeKind", .enum
      ["SCALAR", "OBJECT", "INTERFACE", "UNION", "ENUM", "INPUT_OBJECT", "LIST", "NON_NULL"]⟩,
    ⟨"__Field", .object []
      ([plainField "name" (present "String"),
        plainField "description" text,
        filteredField "args" (.nonNull (every "__InputValue")),
        plainField "type" (present "__Type")] ++ deprecation)⟩,
    ⟨"__InputValue", .object []
      ([plainField "name" (present "String"),
        plainField "description" text,
        plainField "type" (present "__Type"),
        plainField "defaultValue" text] ++ deprecation)⟩,
    ⟨"__EnumValue", .object []
      ([plainField "name" (present "String"),
        plainField "description" text] ++ deprecation)⟩,
    ⟨"__Directive", .object []
      ([plainField "name" (present "String"),
        plainField "description" text,
        plainField "isRepeatable" (present "Boolean"),
        plainField "locations" (.nonNull (every "__DirectiveLocation")),
        filteredField "args" (.nonNull (every "__InputValue"))] ++ deprecation)⟩,
    ⟨"__DirectiveLocation", .enum (DirectiveLocation.all.map DirectiveLocation.text)⟩]

/-- The field of every composite type that tells the name of the object type. -/
def typenameField : OutputField :=
  plainField "__typename" (present "String")

/-- The field at which queries on the schema itself start. -/
def schemaField : OutputField :=
  plainField "__schema" (present "__Schema")

/-- The field at which queries on a single type start. -/
def typeField : OutputField :=
  ⟨"__type", [parameter "name" (present "String")], .named "__Type"⟩

end Introspection

/-- The names that a type system may refer to without defining them. -/
def standardTypeNames : List String :=
  scalarNames ++ introspectionTypes.map NamedType.name

/-- Whether names like this one are reserved for introspection. -/
def isReserved (name : String) : Bool :=
  name.startsWith "__"

/-- The field of the given name that can be selected of a composite type. -/
def Schema.field? (schema : Schema) (parent : NamedType) (name : String) : Option OutputField :=
  let isQuery := schema.query == some parent.name
  if name == schemaField.name && isQuery then some schemaField
  else if name == typeField.name && isQuery then some typeField
  else if name == typenameField.name && parent.isComposite then some typenameField
  else parent.field? name

end RelayCheck
