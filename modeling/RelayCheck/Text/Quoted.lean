import RelayCheck.Language.Token

/-!
# Strings as they are written

A string literal is written between quotation marks. Quotation marks, backslashes and control
characters are escaped. A block string is written between triple quotation marks, on lines of its
own where its content needs that.

This module introduces `quote` and `quoteBlock`.
-/

namespace RelayCheck

/-- Control characters are those below the blank, and those from delete up to the last of the
second block of controls. -/
def isControl (c : Char) : Bool :=
  c < ' ' || ('\x7F' ≤ c && c ≤ Char.ofNat 0x9F)

/-- A character inside a quoted string. -/
def quoteChar (c : Char) : String :=
  match c with
  | '"' => "\\\""
  | '\\' => "\\\\"
  | '\x08' => "\\b"
  | '\x0C' => "\\f"
  | '\n' => "\\n"
  | '\r' => "\\r"
  | '\t' => "\\t"
  | c => if isControl c then "\\u" ++ hexText 4 c.toNat else String.singleton c

/-- The text between quotation marks. -/
def quote (text : String) : String :=
  "\"" ++ String.join (text.toList.map quoteChar) ++ "\""

/-- Triple quotation marks are escaped inside a block string. -/
def escapeTriple : List Char → List Char
  | '"' :: '"' :: '"' :: rest => '\\' :: '"' :: '"' :: '"' :: escapeTriple rest
  | c :: rest => c :: escapeTriple rest
  | [] => []

/-- Contents longer than this are written on lines of their own. -/
def longBlock : Nat := 70

/-- Whether the text starts with a blank or a tab. -/
def startsBlank (text : List Char) : Bool :=
  text.head?.any fun c => c == ' ' || c == '\t'

/-- The text between triple quotation marks. -/
def quoteBlock (text : String) : String :=
  let content := text.toList
  let escaped := escapeTriple content
  let lines := splitLines escaped
  let single := lines.length == 1
  let leadingNeeded :=
    !single && (lines.drop 1).all fun line => line.isEmpty || startsBlank line
  let endsTriple := ['\\', '"', '"', '"'].isSuffixOf escaped
  let endsQuote := content.getLast? == some '"' && !endsTriple
  let endsSlash := content.getLast? == some '\\'
  let trailingNeeded := endsQuote || endsSlash
  let tall :=
    !single || content.length > longBlock || trailingNeeded || leadingNeeded || endsTriple
  let skipLeading := single && startsBlank content
  let leading := if (tall && !skipLeading) || leadingNeeded then "\n" else ""
  let trailing := if tall || trailingNeeded then "\n" else ""
  "\"\"\"" ++ leading ++ String.ofList escaped ++ trailing ++ "\"\"\""

end RelayCheck
