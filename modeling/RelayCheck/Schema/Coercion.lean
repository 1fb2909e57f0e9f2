import RelayCheck.Schema.BuiltIn
import RelayCheck.Text.Numeral

/-!
# Reading literals at a type

A literal is read at the type of its position. Leaf types decide which literals they take; lists
take a single item, too; an input object takes the fields it knows, fills in defaults and leaves
out the rest.

This module introduces:

- `NamedType.readLeaf`, with the reasons for which a leaf type refuses a literal;
- `Reader`, what is left to be known of a literal once its parts have been looked at;
- `Schema.coerce`, the input value that a literal denotes at a type, if it denotes one.
-/

namespace RelayCheck

/-! ## Leaf types -/

/-- The value of a number in decimal notation. -/
def decimalOfText (text : String) : InputValue :=
  let chars := text.toList
  let negative := chars.head? == some '-'
  let unsigned := if negative then chars.drop 1 else chars
  let isExponent : Char → Bool := fun c => c == 'e' || c == 'E'
  let mantissa := unsigned.takeWhile fun c => !isExponent c
  let exponent := (unsigned.dropWhile fun c => !isExponent c).drop 1
  let whole := mantissa.takeWhile (· != '.')
  let fraction := (mantissa.dropWhile (· != '.')).drop 1
  let size : Int := match exponent with
    | '-' :: digits => -(digitsValue digits)
    | '+' :: digits => digitsValue digits
    | digits => digitsValue digits
  let digits : Int := digitsValue (whole ++ fraction)
  .decimal (if negative then -digits else digits) (size - fraction.length)

/-- The value of an integer literal. -/
def integerOfText (text : String) : Int :=
  text.toInt?.getD 0

/-- Whether an integer fits into 32 bits, one of them for the sign. -/
def fitsInt32 (value : Int) : Bool :=
  -2147483648 ≤ value && value ≤ 2147483647

/-- Why a leaf type refuses a literal. -/
inductive LeafFault
  /-- The type takes integers. -/
  | notInteger
  /-- The type takes integers of 32 bits. -/
  | notInt32
  /-- The type takes numbers. -/
  | notNumber
  /-- The type takes strings. -/
  | notString
  /-- The type takes truth values. -/
  | notBoolean
  /-- The type takes strings and integers. -/
  | notId
  /-- The type takes bare names. -/
  | notEnum
  /-- The type has no value of this name. -/
  | unknownEnumValue
  /-- The type takes integers with fewer digits. -/
  | tooManyDigits (excess : TooManyDigits)
deriving DecidableEq

namespace Value

mutual

/-- The value a literal denotes where any literal is taken. -/
def plain : Value → InputValue
  | .variable .. => .null
  | .int text _ => .int (integerOfText text)
  | .float text _ => decimalOfText text
  | .string content _ _ => .string content
  | .boolean value _ => .boolean value
  | .null _ => .null
  | .enum name _ => .enum name
  | .list items _ => .list (plainItems items)
  | .object fields _ => .object (plainFields fields)

/-- The values that the items of a list denote. -/
def plainItems : List Value → List InputValue
  | [] => []
  | item :: rest => item.plain :: plainItems rest

/-- The values that the fields of an object denote. -/
def plainFields : List (Name × Value) → List (String × InputValue)
  | [] => []
  | (name, value) :: rest => (name.text, value.plain) :: plainFields rest

end

end Value

/-- The value that a literal denotes at a leaf type. -/
def NamedType.readLeaf (type : NamedType) (value : Value) : Except LeafFault InputValue :=
  match type.shape with
  | .enum values =>
    match value with
    | .enum name _ =>
      if values.contains name then .ok (.enum name) else .error .unknownEnumValue
    | _ => .error .notEnum
  | _ =>
    match type.name with
    | "Int" =>
      match value with
      | .int text _ =>
        match excess? (text.toList.filter Char.isDigit) with
        | some excess => .error (.tooManyDigits excess)
        | none =>
          if fitsInt32 (integerOfText text) then .ok (.int (integerOfText text))
          else .error .notInt32
      | _ => .error .notInteger
    | "Float" =>
      match value with
      | .int text _ | .float text _ => .ok (decimalOfText text)
      | _ => .error .notNumber
    | "String" =>
      match value with
      | .string content _ _ => .ok (.string content)
      | _ => .error .notString
    | "Boolean" =>
      match value with
      | .boolean value _ => .ok (.boolean value)
      | _ => .error .notBoolean
    | "ID" =>
      match value with
      | .string content _ _ => .ok (.string content)
      | .int text _ => .ok (.string text)
      | _ => .error .notId
    | _ => .ok value.plain

/-! ## All types -/

/-- What is left to be known of a literal once its parts can be read at any type. -/
inductive Reader
  /-- The null literal. -/
  | null
  /-- A variable, which has no value here. -/
  | missing
  /-- A literal without parts. -/
  | leaf (value : Value)
  /-- A list: what its items denote at a type. -/
  | list (value : Value) (items : List (TypeRef String → Option InputValue))
  /-- An object: what its fields denote at a type, with nothing for those given a variable. -/
  | object (value : Value)
    (fields : List (String × Option (TypeRef String → Option InputValue)))

namespace Schema

variable (schema : Schema)

/-- The field of the given name; of several the last one. -/
def lastField? {α : Type} (fields : List (String × Option α)) (name : String) : Option α :=
  (fields.reverse.find? fun field => field.1 == name).bind Prod.snd

/-- The fields of an input object value: those given, and the defaults of the others. -/
def coerceFields (given : List (String × Option (TypeRef String → Option InputValue))) :
    List Parameter → Option (List (String × InputValue))
  | [] => some []
  | parameter :: rest =>
    match lastField? given parameter.name with
    | some read => do
      let value ← read parameter.type
      let others ← coerceFields given rest
      return (parameter.name, value) :: others
    | none =>
      match parameter.default with
      | some value => do
        let others ← coerceFields given rest
        return (parameter.name, value) :: others
      | none => if parameter.type.isNonNull then none else coerceFields given rest

/-- Whether the fields of a value are exactly one field that is not null. -/
def isSingle : List (String × InputValue) → Bool
  | [(_, .null)] => false
  | [_] => true
  | _ => false

/-- The value that a literal other than null denotes at a named type. -/
def coerceNamed (type : NamedType) : Reader → Option InputValue
  | .null | .missing => none
  | .leaf value | .list value _ => if type.isLeaf then (type.readLeaf value).toOption else none
  | .object value given =>
    match type.shape with
    | .inputObject parameters oneOf => do
      let fields ← coerceFields given parameters
      if oneOf && !isSingle fields then none else some (.object fields)
    | _ => if type.isLeaf then (type.readLeaf value).toOption else none

/-- The values that items denote at a type, if all of them denote one. -/
def readAll (type : TypeRef String) :
    List (TypeRef String → Option InputValue) → Option (List InputValue)
  | [] => some []
  | read :: rest => do
    let value ← read type
    let others ← readAll type rest
    return value :: others

/-- The value that a literal denotes at a type. -/
def coerceReader (reader : Reader) : TypeRef String → Option InputValue
  | .nonNull type =>
    match reader with
    | .null | .missing => none
    | _ => coerceReader reader type
  | .list item =>
    match reader with
    | .null => some .null
    | .missing => none
    | .list _ items => (readAll item items).map InputValue.list
    | _ => (coerceReader reader item).map fun value => .list [value]
  | .named name =>
    match reader with
    | .null => some .null
    | _ => (schema.type? name).bind fun type => coerceNamed type reader

mutual

/-- The reader of a literal. -/
def reader : Value → Reader
  | .null _ => .null
  | .variable .. => .missing
  | .list items pos => .list (.list items pos) (itemReaders items)
  | .object fields pos => .object (.object fields pos) (fieldReaders fields)
  | .int text pos => .leaf (.int text pos)
  | .float text pos => .leaf (.float text pos)
  | .string content block pos => .leaf (.string content block pos)
  | .boolean value pos => .leaf (.boolean value pos)
  | .enum name pos => .leaf (.enum name pos)

/-- The readers of the items of a list; a variable counts as null where null is allowed. -/
def itemReaders : List Value → List (TypeRef String → Option InputValue)
  | [] => []
  | item :: rest =>
    let read := match reader item with
      | .missing => fun type => if type.isNonNull then none else some .null
      | itemReader => coerceReader schema itemReader
    read :: itemReaders rest

/-- The readers of the fields of an object; a variable counts as an absent field. -/
def fieldReaders :
    List (Name × Value) → List (String × Option (TypeRef String → Option InputValue))
  | [] => []
  | (name, value) :: rest =>
    let read := match reader value with
      | .missing => none
      | valueReader => some (coerceReader schema valueReader)
    (name.text, read) :: fieldReaders rest

end

/-- The input value that a literal denotes at a type, if it denotes one. -/
def coerce (value : Value) (type : TypeRef String) : Option InputValue :=
  schema.coerceReader (schema.reader value) type

end Schema

end RelayCheck
