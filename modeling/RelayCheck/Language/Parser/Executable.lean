import RelayCheck.Language.Parser.Values

/-!
# Parsing operations and fragments

The executable part of the grammar: selection sets, variable declarations, operations and
fragments. A definition that follows a description starts at the description.

This module introduces the parsers `Parser.selections`, `Parser.operation` and
`Parser.fragment`.
-/

namespace RelayCheck.Parser

/-- Take the name of a fragment, which must not be the word that starts a type condition. -/
def fragmentName : Parser Name := do
  if (← current).kind.content? == some "on" then unexpected
  name

/-- Take a selection, with `room` levels left. A selection set on a level that is not left is
refused before its opening brace is taken. -/
def selection (room : Nat) : Parser Selection := do
  let token ← current
  if token.kind == .punctuator .spread then
    advance
    let conditional ← acceptKeyword "on"
    if !conditional && (← seesName) then
      let target ← fragmentName
      let applied ← directives false room
      return .spread ⟨target, applied, token.pos⟩
    let condition ← if conditional then some <$> name else pure none
    let applied ← directives false room
    match room with
    | 0 => fail .nestedTooDeeply
    | room + 1 => do
      discard (expect .braceL)
      let selected ← many .braceR (selection room)
      return .inlineFragment ⟨condition, applied, token.pos⟩ selected
  else
    let first ← name
    let (aliasName, field) ←
      if ← accept .colon then do
        let field ← name
        pure (some first, field)
      else pure (none, first)
    let given ← arguments false room
    let applied ← directives false room
    let next ← current
    if next.kind == .punctuator .braceL then
      match room with
      | 0 => fail .nestedTooDeeply
      | room + 1 => do
        advance
        let selected ← many .braceR (selection room)
        return .field ⟨aliasName, field, given, applied, token.pos, next.pos⟩ selected
    else return .field ⟨aliasName, field, given, applied, token.pos, token.pos⟩ []

/-- Take the selection set of a definition. -/
def selections : Parser (List Selection) := do
  discard (expect .braceL)
  many .braceR (selection (maxNesting - 1))

/-- Take the keyword of a kind of operation. -/
def operationKind : Parser OperationKind := do
  let token ← current
  let word ← name
  match OperationKind.ofText? word.text with
  | some kind => return kind
  | none => failAt token.pos (.unexpected token.kind)

/-- Whether a token may be a description. -/
def isDescription : TokenKind → Bool
  | .string _ | .blockString _ => true
  | _ => false

/-- Pass over a description if one comes next. -/
def description : Parser Unit := do
  if isDescription (← current).kind then advance

/-- Take the declaration of a variable. -/
def variableDefinition : Parser VariableDefinition := do
  let pos := (← current).pos
  description
  let (declared, variablePos) ← variableReference false
  discard (expect .colon)
  let typePos := (← current).pos
  let declaredType ← type
  let default ← if ← accept .equals then some <$> constantValue else pure none
  let applied ← constantDirectives
  return ⟨declared, variablePos, declaredType, typePos, default, applied, pos⟩

/-- Take an operation that starts at `pos`. -/
def operation (pos : Position) : Parser Operation := do
  if ← sees .braceL then
    let selected ← selections
    return ⟨.query, none, [], [], selected, pos⟩
  let kind ← operationKind
  let given ← if ← seesName then some <$> name else pure none
  let declared ← optionalMany .parenL .parenR variableDefinition
  let applied ← directives false maxNesting
  let selected ← selections
  return ⟨kind, given, declared, applied, selected, pos⟩

/-- Take a fragment that starts at `pos`. -/
def fragment (pos : Position) : Parser Fragment := do
  keyword "fragment"
  let given ← fragmentName
  keyword "on"
  let condition ← name
  let applied ← directives false maxNesting
  let selected ← selections
  return ⟨given, condition, applied, selected, pos⟩

end RelayCheck.Parser
