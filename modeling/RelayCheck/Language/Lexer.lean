import RelayCheck.Language.Token

/-!
# From characters to tokens

A source is read one lexeme at a time. A lexeme is a run of ignored characters or a token;
`lexemeAt` tells how many characters it takes, so that what is left is always shorter.

This module introduces:

- `TokenStream`, the tokens of a source up to its end or up to the first character at which no
  token starts;
- `lexemeAt`, the lexeme at the head of a nonempty text;
- `TokenStream.ofChars` and `TokenStream.ofString`, the tokens of a whole text.
-/

namespace RelayCheck

/-- The tokens of a source, as far as they can be read. -/
inductive TokenStream
  /-- The source ends here. -/
  | done (pos : Position)
  /-- No token can be read here. -/
  | broken (error : SyntaxError)
  /-- A token, and those after it. -/
  | more (token : Token) (rest : TokenStream)

namespace Lexer

/-- A lexeme that starts with a given character: how many characters follow that one, and which
token it is, unless it is ignored. -/
structure Lexeme where
  /-- The number of characters after the first. -/
  extra : Nat
  /-- The token, if the lexeme is one. -/
  token : Option TokenKind

/-- A fault at a distance from the start of a lexeme. -/
structure Fault where
  /-- The number of characters before the place of the fault. -/
  offset : Nat
  /-- What is wrong there. -/
  fault : SyntaxFault

/-- Blanks, tabs, commas and byte order marks carry no meaning. -/
def isIgnored (c : Char) : Bool :=
  c == ' ' || c == '\t' || c == ',' || c == '\uFEFF'

/-- Line feeds and carriage returns end a line. -/
def isLineEnd (c : Char) : Bool :=
  c == '\n' || c == '\r'

/-- Names start with an ASCII letter or an underscore. -/
def isNameStart (c : Char) : Bool :=
  c.isAlpha || c == '_'

/-- Names go on with ASCII letters, digits and underscores. -/
def isNameContinue (c : Char) : Bool :=
  isNameStart c || c.isDigit

/-! ## Numbers -/

/-- One or more digits at the head of the text: their number. -/
def digits (offset : Nat) (text : List Char) : Except Fault Nat :=
  match text.takeWhile Char.isDigit with
  | [] => .error ⟨offset, .expectedDigit text.head?⟩
  | found => .ok found.length

/-- The integer part of a number whose text, sign included, starts at `text`: its length. -/
def integerPart (text : List Char) : Except Fault Nat :=
  let sign := if text.head? = some '-' then 1 else 0
  let unsigned := text.drop sign
  match unsigned with
  | '0' :: rest =>
    if rest.head?.any Char.isDigit then .error ⟨sign + 1, .digitAfterZero rest.head?⟩
    else .ok (sign + 1)
  | _ => return sign + (← digits sign unsigned)

/-- The fraction that starts `offset` characters into a number: its length, zero if there is
none. -/
def fractionPart (offset : Nat) : List Char → Except Fault Nat
  | '.' :: rest => return 1 + (← digits (offset + 1) rest)
  | _ => .ok 0

/-- The exponent that starts `offset` characters into a number: its length, zero if there is
none. -/
def exponentPart (offset : Nat) : List Char → Except Fault Nat
  | e :: rest =>
    if e = 'e' ∨ e = 'E' then
      let sign := if rest.head? = some '+' ∨ rest.head? = some '-' then 1 else 0
      return 1 + sign + (← digits (offset + 1 + sign) (rest.drop sign))
    else .ok 0
  | [] => .ok 0

/-- The number at the head of the text, which starts with a digit or a minus sign. -/
def number (text : List Char) : Except Fault Lexeme := do
  let whole ← integerPart text
  let fraction ← fractionPart whole (text.drop whole)
  let exponent ← exponentPart (whole + fraction) (text.drop (whole + fraction))
  let width := whole + fraction + exponent
  let next := (text.drop width).head?
  if next.any fun c => c == '.' || isNameStart c then
    throw ⟨width, .expectedDigit next⟩
  let written := String.ofList (text.take width)
  return ⟨width - 1, some (if fraction + exponent = 0 then .int written else .float written)⟩

/-! ## Strings -/

/-- The value of a hexadecimal digit. -/
def hexDigit? (c : Char) : Option Nat :=
  if c.isDigit then some (c.toNat - '0'.toNat)
  else if 'a' ≤ c ∧ c ≤ 'f' then some (c.toNat - 'a'.toNat + 10)
  else if 'A' ≤ c ∧ c ≤ 'F' then some (c.toNat - 'A'.toNat + 10)
  else none

/-- The value of a run of hexadecimal digits. -/
def hexValue? (text : List Char) : Option Nat :=
  text.foldl (fun value c => do return 16 * (← value) + (← hexDigit? c)) (some 0)

/-- Four hexadecimal digits at the head of the text. -/
def hexQuad? (text : List Char) : Option Nat :=
  if (text.take 4).length = 4 then hexValue? (text.take 4) else none

/-- The character with this number, if it is one and not half of a surrogate pair. -/
def scalar? (n : Nat) : Option Char :=
  if n.isValidChar then some (Char.ofNat n) else none

/-- The character that two halves of a surrogate pair stand for. -/
def surrogatePair? (leading trailing : Nat) : Option Char :=
  if 0xD800 ≤ leading ∧ leading ≤ 0xDBFF ∧ 0xDC00 ≤ trailing ∧ trailing ≤ 0xDFFF then
    scalar? (0x10000 + (leading - 0xD800) * 0x400 + (trailing - 0xDC00))
  else none

/-- The longest escape sequence between braces, from its backslash on. -/
def longestBracedEscape : Nat := 12

/-- Reads the digits and the closing brace of a braced escape, given what was read so far; the
number of characters read is counted from the backslash. Either the value and the length of the
escape, or the length of the text that shows why there is none. -/
def bracedDigits : (room value size : Nat) → List Char → Except Nat (Nat × Nat)
  | 0, _, size, _ => .error size
  | _ + 1, _, size, [] => .error size
  | room + 1, value, size, c :: rest =>
    if c = '}' then
      if size < 4 then .error (size + 1) else .ok (value, size + 1)
    else match hexDigit? c with
      | none => .error (size + 1)
      | some digit => bracedDigits room (16 * value + digit) (size + 1) rest

/-- The escape sequence at the head of the text, which starts with a backslash: the character
it stands for and its length. -/
def escape (text : List Char) : Except SyntaxFault (Char × Nat) :=
  match text.drop 1 with
  | '"' :: _ => .ok ('"', 2)
  | '\\' :: _ => .ok ('\\', 2)
  | '/' :: _ => .ok ('/', 2)
  | 'b' :: _ => .ok ('\x08', 2)
  | 'f' :: _ => .ok ('\x0C', 2)
  | 'n' :: _ => .ok ('\n', 2)
  | 'r' :: _ => .ok ('\r', 2)
  | 't' :: _ => .ok ('\t', 2)
  | 'u' :: '{' :: rest =>
    let refuse : Nat → Except SyntaxFault (Char × Nat) := fun size =>
      .error (.invalidUnicodeEscape (String.ofList (text.take size)))
    match bracedDigits (longestBracedEscape - 3) 0 3 rest with
    | .error size => refuse size
    | .ok (value, size) =>
      match scalar? value with
      | some c => .ok (c, size)
      | none => refuse size
  | 'u' :: rest =>
    let refuse : Except SyntaxFault (Char × Nat) :=
      .error (.invalidUnicodeEscape (String.ofList (text.take 6)))
    match hexQuad? rest with
    | none => refuse
    | some first =>
      match scalar? first with
      | some c => .ok (c, 6)
      | none =>
        match rest.drop 4 with
        | '\\' :: 'u' :: more =>
          match (hexQuad? more).bind (surrogatePair? first) with
          | some c => .ok (c, 12)
          | none => refuse
        | _ => refuse
  | _ => .error (.invalidEscape (String.ofList (text.take 2)))

/-- The rest of a string in single quotation marks: its content and the number of characters up
to and including the closing mark. The first argument counts the characters of an escape that
are still to be passed over, the second those read so far. -/
def stringRest : (pass offset : Nat) → List Char → Except Fault (List Char × Nat)
  | _, offset, [] => .error ⟨offset, .unterminatedString⟩
  | pass + 1, offset, _ :: rest => stringRest pass (offset + 1) rest
  | 0, offset, c :: rest =>
    if c = '"' then .ok ([], offset + 1)
    else if c = '\\' then
      match escape (c :: rest) with
      | .error fault => .error ⟨offset, fault⟩
      | .ok (meant, size) => do
        let (content, width) ← stringRest (size - 1) (offset + 1) rest
        return (meant :: content, width)
    else if isLineEnd c then .error ⟨offset, .unterminatedString⟩
    else do
      let (content, width) ← stringRest 0 (offset + 1) rest
      return (c :: content, width)

/-- Blanks and tabs at the head of a line. -/
def indentation (line : List Char) : Nat :=
  (line.takeWhile fun c => c == ' ' || c == '\t').length

/-- Whether a line holds nothing but blanks and tabs. -/
def isBlankLine (line : List Char) : Bool :=
  indentation line == line.length

/-- The lines of a block string without the indentation that all lines but the first share, and
without blank lines at either end. -/
def dedent (lines : List (List Char)) : List (List Char) :=
  let indents := ((lines.drop 1).filter fun line => !isBlankLine line).map indentation
  let stripped := match indents.min? with
    | none => lines.take 1 ++ (lines.drop 1).map fun _ => []
    | some common => lines.take 1 ++ (lines.drop 1).map (List.drop common)
  ((stripped.dropWhile isBlankLine).reverse.dropWhile isBlankLine).reverse

/-- The rest of a string in triple quotation marks: its lines as written and the number of
characters up to and including the closing marks. The first argument counts the characters that
are already accounted for. -/
def blockRest : (pass offset : Nat) → List Char → Except Fault (List (List Char) × Nat)
  | _, offset, [] => .error ⟨offset, .unterminatedString⟩
  | pass + 1, offset, _ :: rest => blockRest pass (offset + 1) rest
  | 0, offset, '"' :: '"' :: '"' :: _ => .ok ([[]], offset + 3)
  | 0, offset, '\\' :: rest =>
    if rest.take 3 = ['"', '"', '"'] then do
      let (lines, width) ← blockRest 3 (offset + 1) rest
      return (prepend ['"', '"', '"'] lines, width)
    else do
      let (lines, width) ← blockRest 0 (offset + 1) rest
      return (prepend ['\\'] lines, width)
  | 0, offset, c :: rest =>
    if isLineEnd c then do
      let pass := if c = '\r' ∧ rest.head? = some '\n' then 1 else 0
      let (lines, width) ← blockRest pass (offset + 1) rest
      return ([] :: lines, width)
    else do
      let (lines, width) ← blockRest 0 (offset + 1) rest
      return (prepend [c] lines, width)
where
  /-- Put characters before the first line. -/
  prepend (front : List Char) : List (List Char) → List (List Char)
    | [] => [front]
    | line :: lines => (front ++ line) :: lines

/-! ## Lexemes -/

/-- The lexeme that starts with `c` and goes on in `rest`. -/
def lexemeAt (c : Char) (rest : List Char) : Except Fault Lexeme :=
  if isIgnored c || c == '\n' then .ok ⟨0, none⟩
  else if c = '\r' then .ok ⟨if rest.head? = some '\n' then 1 else 0, none⟩
  else if c = '#' then .ok ⟨(rest.takeWhile fun c => !isLineEnd c).length, none⟩
  else match Punctuator.ofChar? c with
  | some p => .ok ⟨0, some (.punctuator p)⟩
  | none =>
    if c.isDigit || c == '-' then number (c :: rest)
    else if isNameStart c then
      let more := rest.takeWhile isNameContinue
      .ok ⟨more.length, some (.name (String.ofList (c :: more)))⟩
    else if c = '.' ∧ rest.take 2 = ['.', '.'] then .ok ⟨2, some (.punctuator .spread)⟩
    else if c = '"' then
      if rest.take 2 = ['"', '"'] then do
        let (lines, width) ← blockRest 0 3 (rest.drop 2)
        return ⟨width - 1, some (.blockString
          (String.ofList (['\n'].intercalate (dedent lines))))⟩
      else do
        let (content, width) ← stringRest 0 1 rest
        return ⟨width - 1, some (.string (String.ofList content))⟩
    else if c = '\'' then .error ⟨0, .singleQuote⟩
    else .error ⟨0, .unexpectedCharacter c⟩

end Lexer

namespace TokenStream

/-- The tokens of a text whose first character stands at `pos`. -/
def ofChars : List Char → Position → TokenStream
  | [], pos => .done pos
  | c :: rest, pos =>
    match Lexer.lexemeAt c rest with
    | .error error => .broken ⟨error.fault, pos.after ((c :: rest).take error.offset)⟩
    | .ok lexeme =>
      let next := ofChars (rest.drop lexeme.extra) (pos.after (c :: rest.take lexeme.extra))
      match lexeme.token with
      | none => next
      | some kind => .more ⟨kind, pos⟩ next
termination_by text => text.length
decreasing_by
  simp only [List.length_drop, List.length_cons]
  omega

/-- The tokens of a whole source. -/
def ofString (source : String) : TokenStream :=
  ofChars source.toList Position.start

/-- The number of tokens. -/
def size : TokenStream → Nat
  | done _ => 0
  | broken _ => 0
  | more _ rest => rest.size + 1

/-- The token at the head, the end of the source counting as one. -/
def head : TokenStream → Except SyntaxError Token
  | done pos => .ok ⟨.endOfInput, pos⟩
  | broken error => .error error
  | more token _ => .ok token

/-- What follows the token at the head; it has to start with a token, too. -/
def tail : TokenStream → Except SyntaxError TokenStream
  | done pos => .ok (done pos)
  | broken error => .error error
  | more _ (broken error) => .error error
  | more _ rest => .ok rest

end TokenStream

end RelayCheck
