import RelayCheck.Language.Document
import RelayCheck.Language.Lexer

/-!
# Parsers over token streams

A parser takes tokens from the head of a stream and either gives a result and the stream that is
left or refuses. Taking a token reads the next one, so that a fault in the characters after a
token shows before a fault of the grammar after it.

This module introduces `Parser`, the parsers of single tokens, and the parsers of bracketed and
delimited sequences. Nested constructs count down the levels that may still be opened, of which
there are `maxNesting` at the start.
-/

namespace RelayCheck

/-- A computation that takes tokens from a stream and may refuse it. -/
abbrev Parser := StateT TokenStream (Except SyntaxError)

namespace Parser

variable {α : Type}

/-- How deep selection sets, list and object values, and list types may be nested. -/
def maxNesting : Nat := 200

/-- The token at the head of the stream. -/
def current : Parser Token := fun stream => do
  let token ← stream.head
  return (token, stream)

/-- The token after the one at the head of the stream. -/
def lookahead : Parser Token := fun stream => do
  let rest ← stream.tail
  let token ← rest.head
  return (token, stream)

/-- Pass over the token at the head of the stream. -/
def advance : Parser Unit := fun stream => do
  let rest ← stream.tail
  return ((), rest)

/-- Refuse the stream at a position. -/
def failAt (pos : Position) (fault : SyntaxFault) : Parser α :=
  throw ⟨fault, pos⟩

/-- Refuse the stream at the current token. -/
def fail (fault : SyntaxFault) : Parser α := do
  failAt (← current).pos fault

/-- Refuse the stream because no alternative starts with the current token. -/
def unexpected : Parser α := do
  let token ← current
  failAt token.pos (.unexpected token.kind)

/-- Refuse the stream because the grammar leaves no choice but `what`. -/
def expected (what : Expected) : Parser α := do
  let token ← current
  failAt token.pos (.expected what token.kind)

/-- Whether the current token is the punctuator. -/
def sees (p : Punctuator) : Parser Bool := do
  return (← current).kind == .punctuator p

/-- Whether the current token is a name. -/
def seesName : Parser Bool := do
  match (← current).kind with
  | .name _ => return true
  | _ => return false

/-- Take the punctuator, which has to come next; its position. -/
def expect (p : Punctuator) : Parser Position := do
  let token ← current
  if token.kind == .punctuator p then
    advance
    return token.pos
  else expected (.punctuator p)

/-- Take the punctuator if it comes next. -/
def accept (p : Punctuator) : Parser Bool := do
  if ← sees p then
    advance
    return true
  else return false

/-- Take the keyword, which has to come next. -/
def keyword (word : String) : Parser Unit := do
  if (← current).kind == .name word then advance else expected (.keyword word)

/-- Take the keyword if it comes next. -/
def acceptKeyword (word : String) : Parser Bool := do
  if (← current).kind == .name word then
    advance
    return true
  else return false

/-- Take a name, which has to come next. -/
def name : Parser Name := do
  let token ← current
  match token.kind with
  | .name text =>
    advance
    return ⟨text, token.pos⟩
  | _ => expected .name

/-- Take the end of the source, which has to come next. -/
def endOfInput : Parser Unit := do
  if (← current).kind == .endOfInput then advance else expected .endOfInput

/-- Take items until the closing punctuator, which is taken, too. Every item takes a token, so
the number of tokens bounds the number of rounds. -/
def untilClose (close : Punctuator) (item : Parser α) : (rounds : Nat) → Parser (List α)
  | 0 => unexpected
  | rounds + 1 => do
    if ← accept close then return []
    let first ← item
    let rest ← untilClose close item rounds
    return first :: rest

/-- Take items until the closing punctuator; there may be none. -/
def any (close : Punctuator) (item : Parser α) : Parser (List α) := do
  untilClose close item ((← get).size + 1)

/-- Take items until the closing punctuator; there has to be at least one. -/
def many (close : Punctuator) (item : Parser α) : Parser (List α) := do
  let first ← item
  let rest ← any close item
  return first :: rest

/-- Take a bracketed sequence of at least one item if it comes next. -/
def optionalMany (opening close : Punctuator) (item : Parser α) : Parser (List α) := do
  if ← accept opening then many close item else return []

/-- Take items as long as the delimiter stands between them. -/
def delimitedRest (delimiter : Punctuator) (item : Parser α) : (rounds : Nat) → Parser (List α)
  | 0 => unexpected
  | rounds + 1 => do
    let first ← item
    if ← accept delimiter then
      let rest ← delimitedRest delimiter item rounds
      return first :: rest
    else return [first]

/-- Take a sequence of at least one item with a delimiter between them, and possibly before the
first. -/
def delimitedMany (delimiter : Punctuator) (item : Parser α) : Parser (List α) := do
  discard (accept delimiter)
  delimitedRest delimiter item ((← get).size + 1)

/-- Take items as long as the punctuator that starts each of them comes next. -/
def whileSees (start : Punctuator) (item : Parser α) : (rounds : Nat) → Parser (List α)
  | 0 => unexpected
  | rounds + 1 => do
    if ← sees start then
      let first ← item
      let rest ← whileSees start item rounds
      return first :: rest
    else return []

/-- Run a parser on the tokens of a source, all of which it has to take. -/
def run (parser : Parser α) (source : String) : Except SyntaxError α := do
  let stream := TokenStream.ofString source
  discard stream.head
  let (result, _) ← (do
    let result ← parser
    endOfInput
    return result : Parser α) stream
  return result

end Parser

end RelayCheck
