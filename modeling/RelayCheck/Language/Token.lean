import RelayCheck.Text.Source

/-!
# Tokens

The words of a GraphQL source: punctuators, names, numbers and strings, each with the position
of its first character.

This module introduces `Token`, what its kinds are called in messages, and `SyntaxError`, the
reasons for which a source is refused. `SyntaxError.message` gives the wording and
`SyntaxError.report` adds the excerpt of the source.
-/

namespace RelayCheck

/-- The punctuators of the language. -/
inductive Punctuator
  | bang | dollar | amp | parenL | parenR | spread | colon | equals | atSign
  | bracketL | bracketR | braceL | pipe | braceR
deriving DecidableEq, Inhabited

/-- How a punctuator is written. -/
def Punctuator.text : Punctuator → String
  | bang => "!"
  | dollar => "$"
  | amp => "&"
  | parenL => "("
  | parenR => ")"
  | spread => "..."
  | colon => ":"
  | equals => "="
  | atSign => "@"
  | bracketL => "["
  | bracketR => "]"
  | braceL => "\x7b"
  | pipe => "|"
  | braceR => "\x7d"

/-- The punctuators written with one character. -/
def Punctuator.ofChar? : Char → Option Punctuator
  | '!' => some bang
  | '$' => some dollar
  | '&' => some amp
  | '(' => some parenL
  | ')' => some parenR
  | ':' => some colon
  | '=' => some equals
  | '@' => some atSign
  | '[' => some bracketL
  | ']' => some bracketR
  | '{' => some braceL
  | '|' => some pipe
  | '}' => some braceR
  | _ => none

/-- What a token is, with its content. -/
inductive TokenKind
  /-- A punctuator. -/
  | punctuator (p : Punctuator)
  /-- A name or keyword. -/
  | name (text : String)
  /-- An integer, as written. -/
  | int (text : String)
  /-- A number with a fraction or an exponent, as written. -/
  | float (text : String)
  /-- A string in single quotation marks, with its escapes resolved. -/
  | string (content : String)
  /-- A string in triple quotation marks, with its indentation removed. -/
  | blockString (content : String)
  /-- The end of the source. -/
  | endOfInput
deriving DecidableEq, Inhabited

namespace TokenKind

/-- The text that a token carries besides its kind. -/
def content? : TokenKind → Option String
  | name text | int text | float text | string text | blockString text => some text
  | punctuator _ | endOfInput => none

/-- A token as messages show it: its kind, then its content between quotes. -/
def describe : TokenKind → String
  | punctuator p => s!"'{p.text}'"
  | name text => s!"Name '{text}'"
  | int text => s!"Int '{text}'"
  | float text => s!"Float '{text}'"
  | string content => s!"String '{content}'"
  | blockString content => s!"BlockString '{content}'"
  | endOfInput => "<EOF>"

end TokenKind

/-- A token and where it starts. -/
structure Token where
  /-- What the token is. -/
  kind : TokenKind
  /-- Where its first character stands. -/
  pos : Position
deriving DecidableEq, Inhabited

/-- What the grammar asks for at a place where it leaves no choice. -/
inductive Expected
  /-- This punctuator. -/
  | punctuator (p : Punctuator)
  /-- Any name. -/
  | name
  /-- This keyword. -/
  | keyword (word : String)
  /-- The end of the source. -/
  | endOfInput
deriving DecidableEq

/-- What is expected, as messages show it. -/
def Expected.describe : Expected → String
  | punctuator p => s!"'{p.text}'"
  | name => "Name"
  | keyword word => s!"'{word}'"
  | endOfInput => "<EOF>"

/-- A number in hexadecimal with at least `width` digits. -/
def hexText (width : Nat) (n : Nat) : String :=
  let digits := (Nat.toDigits 16 n).map Char.toUpper
  String.ofList (List.replicate (width - digits.length) '0' ++ digits)

/-- A character of the source as messages show it; `none` is the end of the source. -/
def describeChar : Option Char → String
  | none => "<EOF>"
  | some c => if ' ' ≤ c ∧ c ≤ '~' then s!"'{c}'" else "U+" ++ hexText 4 c.toNat

/-- Why a source is refused. -/
inductive SyntaxFault
  /-- No token starts with this character. -/
  | unexpectedCharacter (c : Char)
  /-- An apostrophe stands where a token should start. -/
  | singleQuote
  /-- A digit follows a leading zero. -/
  | digitAfterZero (c : Option Char)
  /-- A number does not go on with a digit. -/
  | expectedDigit (c : Option Char)
  /-- A string does not end on its line, or before the end of the source. -/
  | unterminatedString
  /-- The escape sequence, as written, has no meaning. -/
  | invalidEscape (text : String)
  /-- The escape sequence, as written, names no character. -/
  | invalidUnicodeEscape (text : String)
  /-- Another token stands where the grammar leaves no choice. -/
  | expected (what : Expected) (found : TokenKind)
  /-- No alternative of the grammar starts with this token. -/
  | unexpected (found : TokenKind)
  /-- A variable stands in a value that has to be constant. -/
  | variableInConstant (name : String)
  /-- A description stands before an operation that is a bare selection set. -/
  | describedShorthand
  /-- A description stands before something that is no describable definition. -/
  | describedOther
  /-- The token is reserved and names no enum value. -/
  | reservedEnumValue (found : TokenKind)
  /-- Selection sets, values or types are nested beyond the limit. -/
  | nestedTooDeeply
deriving DecidableEq

/-- The wording of the fault. -/
def SyntaxFault.describe : SyntaxFault → String
  | unexpectedCharacter c => s!"Unexpected character: {describeChar (some c)}."
  | singleQuote =>
    "Unexpected single quote character ('), did you mean to use a double quote (\")?"
  | digitAfterZero c => s!"Invalid number, unexpected digit after 0: {describeChar c}."
  | expectedDigit c => s!"Invalid number, expected digit but got: {describeChar c}."
  | unterminatedString => "Unterminated string."
  | invalidEscape text => s!"Invalid character escape sequence: '{text}'."
  | invalidUnicodeEscape text => s!"Invalid Unicode escape sequence: '{text}'."
  | expected what found => s!"Expected {what.describe}, found {found.describe}."
  | unexpected found => s!"Unexpected {found.describe}."
  | variableInConstant name => s!"Unexpected variable '${name}' in constant value."
  | describedShorthand =>
    "Unexpected description, descriptions are not supported on shorthand queries."
  | describedOther => "Unexpected description, only GraphQL definitions support descriptions."
  | reservedEnumValue found =>
    s!"{found.describe} is reserved and cannot be used for an enum value."
  | nestedTooDeeply => "Document is nested too deeply. Parsing aborted."

/-- Why and where a source is refused. -/
structure SyntaxError where
  /-- The reason. -/
  fault : SyntaxFault
  /-- Where it shows. -/
  pos : Position
deriving DecidableEq

namespace SyntaxError

/-- The one-line message of the error. -/
def message (error : SyntaxError) : String :=
  "Syntax Error: " ++ error.fault.describe

/-- The message, the position and the excerpt of the source. -/
def report (error : SyntaxError) (source : String) : String :=
  located error.message source error.pos

end SyntaxError

end RelayCheck
