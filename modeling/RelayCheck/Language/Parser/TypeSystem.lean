import RelayCheck.Language.Parser.Executable

/-!
# Parsing type system definitions

The definitions and extensions of schemas, types and directives. A definition that follows a
description starts at the description.

This module introduces the parsers `Parser.schemaDefinition`, `Parser.typeDefinition`,
`Parser.directiveDefinition` and `Parser.extension`.
-/

namespace RelayCheck.Parser

/-- Take the declaration of an argument or input field. -/
def inputDefinition : Parser InputDefinition := do
  description
  let declared ← name
  discard (expect .colon)
  let declaredType ← type
  let default ← if ← accept .equals then some <$> constantValue else pure none
  let applied ← constantDirectives
  return ⟨declared, declaredType, default, applied⟩

/-- Take the declarations of arguments, if there are any. -/
def argumentDefinitions : Parser (List InputDefinition) :=
  optionalMany .parenL .parenR inputDefinition

/-- Take the declaration of a field. -/
def fieldDefinition : Parser FieldDefinition := do
  description
  let declared ← name
  let given ← argumentDefinitions
  discard (expect .colon)
  let declaredType ← type
  let applied ← constantDirectives
  return ⟨declared, given, declaredType, applied⟩

/-- Take the declaration of an enum value, whose name must not be that of another literal. -/
def enumValueDefinition : Parser EnumValueDefinition := do
  description
  let token ← current
  if token.kind.content?.any fun text => text == "true" || text == "false" || text == "null" then
    failAt token.pos (.reservedEnumValue token.kind)
  let declared ← name
  let applied ← constantDirectives
  return ⟨declared, applied⟩

/-- Take the interfaces of a type, if there are any. -/
def implemented : Parser (List Name) := do
  if ← acceptKeyword "implements" then delimitedMany .amp name else return []

/-- Take the declarations of fields, if there are any. -/
def fieldDefinitions : Parser (List FieldDefinition) :=
  optionalMany .braceL .braceR fieldDefinition

/-- Take the member types of a union, if there are any. -/
def unionMembers : Parser (List Name) := do
  if ← accept .equals then delimitedMany .pipe name else return []

/-- Take the declaration of a root type. -/
def rootDefinition : Parser RootDefinition := do
  let pos := (← current).pos
  let kind ← operationKind
  discard (expect .colon)
  let root ← name
  return ⟨kind, root, pos⟩

/-- The keyword that starts the definitions of a kind of type. -/
def typeKeyword : TypeKind → String
  | .scalar => "scalar"
  | .object => "type"
  | .interface => "interface"
  | .union => "union"
  | .enum => "enum"
  | .inputObject => "input"

/-- The kind of type whose definitions start with a keyword. -/
def typeKind? (word : String) : Option TypeKind :=
  [TypeKind.scalar, .object, .interface, .union, .enum, .inputObject].find? fun kind =>
    typeKeyword kind == word

/-- Take the definition of a type of the given kind, from its keyword on. -/
def typeDefinition (kind : TypeKind) (pos : Position) : Parser TypeDefinition := do
  keyword (typeKeyword kind)
  let declared ← name
  match kind with
  | .scalar =>
    let applied ← constantDirectives
    return ⟨declared, applied, .scalar, pos⟩
  | .object =>
    let interfaces ← implemented
    let applied ← constantDirectives
    let fields ← fieldDefinitions
    return ⟨declared, applied, .object interfaces fields, pos⟩
  | .interface =>
    let interfaces ← implemented
    let applied ← constantDirectives
    let fields ← fieldDefinitions
    return ⟨declared, applied, .interface interfaces fields, pos⟩
  | .union =>
    let applied ← constantDirectives
    let members ← unionMembers
    return ⟨declared, applied, .union members, pos⟩
  | .enum =>
    let applied ← constantDirectives
    let values ← optionalMany .braceL .braceR enumValueDefinition
    return ⟨declared, applied, .enum values, pos⟩
  | .inputObject =>
    let applied ← constantDirectives
    let fields ← optionalMany .braceL .braceR inputDefinition
    return ⟨declared, applied, .inputObject fields, pos⟩

/-- Whether a type extension adds nothing. -/
def isEmptyExtension (type : TypeDefinition) : Bool :=
  type.directives.isEmpty && match type.body with
    | .scalar => true
    | .object interfaces fields | .interface interfaces fields =>
      interfaces.isEmpty && fields.isEmpty
    | .union members => members.isEmpty
    | .enum values => values.isEmpty
    | .inputObject fields => fields.isEmpty

/-- Take the definition of the schema, from its keyword on. -/
def schemaDefinition (pos : Position) : Parser SchemaDefinition := do
  keyword "schema"
  let applied ← constantDirectives
  discard (expect .braceL)
  let roots ← many .braceR rootDefinition
  return ⟨applied, roots, pos⟩

/-- Take the name of a directive location. -/
def directiveLocation : Parser DirectiveLocation := do
  let token ← current
  let location ← name
  match DirectiveLocation.ofText? location.text with
  | some location => return location
  | none => failAt token.pos (.unexpected token.kind)

/-- Take the definition of a directive, from its keyword on. -/
def directiveDefinition (pos : Position) : Parser DirectiveDefinition := do
  keyword "directive"
  discard (expect .atSign)
  let declared ← name
  let given ← argumentDefinitions
  let repeatable ← acceptKeyword "repeatable"
  keyword "on"
  let locations ← delimitedMany .pipe directiveLocation
  return ⟨declared, given, repeatable, locations, pos⟩

/-- Take an extension of the schema or of a type. -/
def extension : Parser Definition := do
  let pos := (← current).pos
  let next ← lookahead
  match next.kind with
  | .name "schema" =>
    advance
    keyword "schema"
    let applied ← constantDirectives
    let roots ← optionalMany .braceL .braceR rootDefinition
    if applied.isEmpty && roots.isEmpty then unexpected
    return .schemaExtension ⟨applied, roots, pos⟩
  | .name word =>
    match typeKind? word with
    | some kind =>
      advance
      let extended ← typeDefinition kind pos
      if isEmptyExtension extended then unexpected
      return .typeExtension extended
    | none => failAt next.pos (.unexpected next.kind)
  | _ => failAt next.pos (.unexpected next.kind)

end RelayCheck.Parser
