import RelayCheck.Language.TypeRef
import RelayCheck.Text.Quoted

/-!
# Value literals

The values written in a document: variables and literals, each with the position of its first
character.

This module introduces `Name`, `Value` and `Argument`, the rendering of a value, and the variables
that occur in one, in order.
-/

namespace RelayCheck

/-- A name and where it stands. -/
structure Name where
  /-- The characters of the name. -/
  text : String
  /-- Where the name starts. -/
  pos : Position
deriving DecidableEq, Inhabited

/-- A value in a document. -/
inductive Value
  /-- A reference to a variable; the position is that of the dollar sign. -/
  | variable (name : Name) (pos : Position)
  /-- An integer, as written. -/
  | int (text : String) (pos : Position)
  /-- A number with a fraction or an exponent, as written. -/
  | float (text : String) (pos : Position)
  /-- A string, with a mark for those in triple quotation marks. -/
  | string (content : String) (block : Bool) (pos : Position)
  /-- A truth value. -/
  | boolean (value : Bool) (pos : Position)
  /-- The null literal. -/
  | null (pos : Position)
  /-- Any other bare name. -/
  | enum (name : String) (pos : Position)
  /-- A list of values. -/
  | list (items : List Value) (pos : Position)
  /-- An object, its fields in order. -/
  | object (fields : List (Name × Value)) (pos : Position)
deriving Inhabited

namespace Value

/-- The kinds of values. -/
inductive Kind
  | variable | int | float | string | boolean | null | enum | list | object
deriving DecidableEq

/-- The name of a kind. -/
def Kind.text : Kind → String
  | .variable => "variable"
  | int => "int_value"
  | float => "float_value"
  | string => "string_value"
  | boolean => "boolean_value"
  | null => "null_value"
  | enum => "enum_value"
  | list => "list_value"
  | object => "object_value"

/-- The kind of a value. -/
def kind : Value → Kind
  | .variable .. => .variable
  | .int .. => .int
  | .float .. => .float
  | .string .. => .string
  | .boolean .. => .boolean
  | .null .. => .null
  | .enum .. => .enum
  | .list .. => .list
  | .object .. => .object

/-- Where a value starts. -/
def pos : Value → Position
  | .variable _ p | .int _ p | .float _ p | .string _ _ p | .boolean _ p | .null p | .enum _ p
  | .list _ p | .object _ p => p

/-- Whether the value is the null literal. -/
def isNull : Value → Bool
  | .null _ => true
  | _ => false

/-- The fields of an object; other values have none. -/
def objectFields? : Value → Option (List (Name × Value))
  | .object fields _ => some fields
  | _ => none

mutual

/-- How a value is written. -/
def render : Value → String
  | .variable name _ => "$" ++ name.text
  | .int text _ => text
  | .float text _ => text
  | .string content block _ => if block then quoteBlock content else quote content
  | .boolean value _ => if value then "true" else "false"
  | .null _ => "null"
  | .enum name _ => name
  | .list items _ => "[" ++ ", ".intercalate (renderItems items) ++ "]"
  | .object fields _ => "\x7b" ++ ", ".intercalate (renderFields fields) ++ "\x7d"

/-- How the items of a list are written. -/
def renderItems : List Value → List String
  | [] => []
  | item :: rest => item.render :: renderItems rest

/-- How the fields of an object are written. -/
def renderFields : List (Name × Value) → List String
  | [] => []
  | (name, value) :: rest => (name.text ++ ": " ++ value.render) :: renderFields rest

end

mutual

/-- The variables that occur in a value, in order, each with the position of its dollar sign. -/
def mentions : Value → List (Name × Position)
  | .variable name pos => [(name, pos)]
  | .list items _ => itemVariables items
  | .object fields _ => fieldVariables fields
  | .int .. | .float .. | .string .. | .boolean .. | .null .. | .enum .. => []

/-- The variables that occur in the items of a list. -/
def itemVariables : List Value → List (Name × Position)
  | [] => []
  | item :: rest => item.mentions ++ itemVariables rest

/-- The variables that occur in the fields of an object. -/
def fieldVariables : List (Name × Value) → List (Name × Position)
  | [] => []
  | (_, value) :: rest => value.mentions ++ fieldVariables rest

end

/-- Whether a variable occurs in the value. -/
def hasVariable (value : Value) : Bool :=
  !value.mentions.isEmpty

end Value

/-- An argument of a field or directive. -/
structure Argument where
  /-- The name of the argument, where it starts. -/
  name : Name
  /-- The value given to it. -/
  value : Value
deriving Inhabited

/-- A directive applied to a part of a document; it starts at its at sign. -/
structure Directive where
  /-- The name after the at sign. -/
  name : Name
  /-- The arguments, in order. -/
  arguments : List Argument
  /-- Where the directive starts. -/
  pos : Position
deriving Inhabited

end RelayCheck
