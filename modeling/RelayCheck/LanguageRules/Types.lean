import RelayCheck.Data.InsertionSort
import RelayCheck.Validation.Rule

/-!
# Types and fields

Types are known and stand where types of their class may stand; selected fields exist, and
selections are made exactly of the fields whose types have fields.
-/

namespace RelayCheck.LanguageRules

/-- The types that are named are known. A type system may refer to the standard types without
defining them. -/
def knownTypeNames (context : Context) : Rule :=
  let known := context.schema.types.map NamedType.name
    ++ context.document.types.map fun type => type.name.text
  .onEnter fun visit =>
    match visit.node with
    | .typeName name =>
      let standard := if visit.scope.typeSystem then standardTypeNames else []
      if known.contains name.text || standard.contains name.text then []
      else [.language (.unknownType name.text (suggestions name.text (standard ++ known)))
        [name.pos]]
    | _ => []

/-- Whether the schema knows the type and it is none from which fields can be selected. -/
def isLeafName (context : Context) (name : Name) : Bool :=
  (context.schema.type? name.text).any fun type => !type.isComposite

/-- Fragments are on types with fields. -/
def fragmentsOnCompositeTypes (context : Context) : Rule :=
  .onEnter fun visit =>
    match visit.node with
    | .inlineFragment fragment _ =>
      (fragment.typeCondition.toList.filter (isLeafName context)).map fun condition =>
        .language (.fragmentOnLeaf none condition.text) [condition.pos]
    | .definition (.fragment fragment) =>
      if isLeafName context fragment.typeCondition then
        [.language (.fragmentOnLeaf (some fragment.name.text) fragment.typeCondition.text)
          [fragment.typeCondition.pos]]
      else []
    | _ => []

/-- Variables have input types. -/
def variablesAreInputTypes (context : Context) : Rule :=
  .onEnter fun visit =>
    match visit.node with
    | .variableDefinition declared =>
      let type := declared.type.map Name.text
      if context.schema.baseIs (fun base => !base.isInput) type then
        [.language (.outputVariable declared.name.text type) [declared.typePos]]
      else []
    | _ => []

/-- Selections are made of the fields whose types have fields, and of no others. -/
def scalarLeafs (context : Context) : Rule :=
  .onEnter fun visit =>
    match visit.node, visit.scope.output with
    | .field field selections, some type =>
      if context.schema.baseIs NamedType.isLeaf type then
        if selections.isEmpty then []
        else [.language (.selectionsOfLeaf field.name.text type) [field.setPos]]
      else if selections.isEmpty then
        [.language (.missingSelections field.name.text type) [field.pos]]
      else []
    | _, _ => []

/-- The types to offer for a field that an abstract type lacks: each of its possible types that has
the field, followed by those of its interfaces that have it and were not met before. -/
def typesWithField (schema : Schema) (type : NamedType) (field : String) : List NamedType :=
  let having : List NamedType → List NamedType := fun types =>
    types.filter fun other => (other.field? field).isSome
  let met := (having (schema.possibleTypes type)).flatMap fun owner =>
    owner :: having (owner.interfaces.filterMap schema.type?)
  (met.map NamedType.name).eraseDups.filterMap schema.type?

/-- How many of the possible types of an abstract type have the field by the given type: an object
type counts once, an interface once for every possible type that implements it. -/
def usesOfType (schema : Schema) (type : NamedType) (field : String) (offered : NamedType) : Nat :=
  if offered.isInterface then
    (schema.possibleTypes type).countP fun owner =>
      (owner.field? field).isSome && owner.interfaces.contains offered.name
  else 1

/-- Whether the first of two types with their counts is offered before the second: the more common
one, then the more general one, then the first in natural order. -/
def offeredBefore (a b : NamedType × Nat) : Bool :=
  if a.2 != b.2 then a.2 > b.2
  else if a.1.isInterface && a.1.includes b.1 then true
  else if b.1.isInterface && b.1.includes a.1 then false
  else naturalCompare a.1.name b.1.name == .lt

/-- The types below an abstract type to offer for an unknown field. Generality and natural order
together need not be transitive, so that the way of sorting matters. -/
def offeredTypes (schema : Schema) (type : NamedType) (field : String) : List String :=
  let offers := (typesWithField schema type field).map fun offered =>
    (offered, usesOfType schema type field offered)
  (insertionSort offeredBefore offers).map fun offer => offer.1.name

/-- Fields are fields of the type they are selected of. -/
def fieldsOnCorrectType (context : Context) : Rule :=
  .onEnter fun visit =>
    match visit.node, visit.scope.parent, visit.scope.field with
    | .field field _, some parent, none =>
      let onTypes :=
        if parent.isAbstract then offeredTypes context.schema parent field.name.text else []
      let similar :=
        if onTypes.isEmpty then
          suggestions field.name.text (parent.fields.map OutputField.name)
        else .ok []
      [.language (.unknownField field.name.text parent.name onTypes similar) [field.pos]]
    | _, _, _ => []

end RelayCheck.LanguageRules
