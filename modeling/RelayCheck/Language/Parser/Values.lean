import RelayCheck.Language.Parser.Basic

/-!
# Parsing types, values, arguments and directives

The parts of the grammar that executable and type system definitions share. A constant value
contains no variable.

This module introduces the parsers `Parser.typeRef`, `Parser.value`, `Parser.arguments` and
`Parser.directives`, and the readers of a whole text, `TypeRef.parse` and `Value.parse`.
-/

namespace RelayCheck

namespace Parser

/-- Take a type, with `room` levels of lists left. A list on a level that is not left is refused
after its opening bracket was taken. -/
def typeRef (room : Nat) : Parser (TypeRef Name) := do
  let base ←
    if ← accept .bracketL then
      match room with
      | 0 => fail .nestedTooDeeply
      | room + 1 => do
        let item ← typeRef room
        discard (expect .bracketR)
        pure (.list item)
    else do
      let base ← name
      pure (.named base)
  if ← accept .bang then return .nonNull base else return base

/-- Take a type of at most the greatest depth. -/
def type : Parser (TypeRef Name) :=
  typeRef maxNesting

/-- Take a variable; the position is that of the dollar sign. In a constant value there may be
none. -/
def variableReference (constant : Bool) : Parser (Name × Position) := do
  let pos ← expect .dollar
  if constant then
    match (← current).kind with
    | .name text => failAt pos (.variableInConstant text)
    | _ => failAt pos (.unexpected (.punctuator .dollar))
  let text ← name
  return (text, pos)

/-- The value that a bare name stands for. -/
def bareValue (text : String) (pos : Position) : Value :=
  match text with
  | "true" => .boolean true pos
  | "false" => .boolean false pos
  | "null" => .null pos
  | _ => .enum text pos

/-- Take a value, with `room` levels of lists and objects left. One on a level that is not left
is refused before its opening bracket is taken. -/
def valueWithin (constant : Bool) (room : Nat) : Parser Value := do
  let token ← current
  match token.kind with
  | .punctuator .bracketL =>
    match room with
    | 0 => fail .nestedTooDeeply
    | room + 1 => do
      advance
      let items ← any .bracketR (valueWithin constant room)
      return .list items token.pos
  | .punctuator .braceL =>
    match room with
    | 0 => fail .nestedTooDeeply
    | room + 1 => do
      advance
      let fields ← any .braceR (do
        let field ← name
        discard (expect .colon)
        let value ← valueWithin constant room
        return (field, value))
      return .object fields token.pos
  | .punctuator .dollar => do
    let (text, pos) ← variableReference constant
    return .variable text pos
  | .int text => do
    advance
    return .int text token.pos
  | .float text => do
    advance
    return .float text token.pos
  | .string content => do
    advance
    return .string content false token.pos
  | .blockString content => do
    advance
    return .string content true token.pos
  | .name text => do
    advance
    return bareValue text token.pos
  | _ => unexpected

/-- Take the arguments, if there are any, with `room` levels of values left. -/
def arguments (constant : Bool) (room : Nat) : Parser (List Argument) :=
  optionalMany .parenL .parenR do
    let argument ← name
    discard (expect .colon)
    let value ← valueWithin constant room
    return ⟨argument, value⟩

/-- Take a directive, with `room` levels of values left. -/
def directive (constant : Bool) (room : Nat) : Parser Directive := do
  let pos ← expect .atSign
  let directive ← name
  let given ← arguments constant room
  return ⟨directive, given, pos⟩

/-- Take the directives, if there are any, with `room` levels of values left. -/
def directives (constant : Bool) (room : Nat) : Parser (List Directive) := do
  whileSees .atSign (directive constant room) ((← get).size + 1)

/-- Take a constant value of at most the greatest depth. -/
def constantValue : Parser Value :=
  valueWithin true maxNesting

/-- Take directives with constant arguments. -/
def constantDirectives : Parser (List Directive) :=
  directives true maxNesting

end Parser

/-- The type that a text denotes. -/
def TypeRef.parse (text : String) : Except SyntaxError (TypeRef String) := do
  let type ← Parser.type.run text
  return type.map Name.text

/-- The value that a text denotes. -/
def Value.parse (text : String) : Except SyntaxError Value :=
  Parser.run (Parser.valueWithin false Parser.maxNesting) text

end RelayCheck
