import RelayCheck.Fragments.Spreads
import RelayCheck.Schema.RelayDirectives

/-!
# Pagination of connections

A connection is paginated by the cursors and flags of its `pageInfo` field. Forward pagination
needs `hasNextPage` and `endCursor`, backward pagination `hasPreviousPage` and `startCursor`. They
may be selected directly or through inline fragments and spreads, on the connection and inside
`pageInfo`. A field selected in one branch counts as selected. Only fields under their own names
count.

This module introduces:

- `PageFields`, which of these fields are selected, combined by `PageFields.union`;
- `Document.pageInfoFields` and `Document.connectionFields`, those selected by the selections of
  `pageInfo` and of a connection;
- `Directions` and `ConnectionMark`, what the arguments and the directives of a field say.
-/

namespace RelayCheck

/-! ## Selected fields -/

/-- Which of the fields needed for pagination are selected. -/
structure PageFields where
  /-- Whether `pageInfo` is selected. -/
  pageInfo : Bool
  /-- Whether `hasNextPage` is selected. -/
  hasNextPage : Bool
  /-- Whether `hasPreviousPage` is selected. -/
  hasPreviousPage : Bool
  /-- Whether `startCursor` is selected. -/
  startCursor : Bool
  /-- Whether `endCursor` is selected. -/
  endCursor : Bool
deriving DecidableEq

/-- The parts of `pageInfo` that pagination needs. -/
inductive PagePart
  | hasNextPage | hasPreviousPage | startCursor | endCursor
deriving DecidableEq

/-- The name of a part of `pageInfo`. -/
def PagePart.name : PagePart → String
  | hasNextPage => "hasNextPage"
  | hasPreviousPage => "hasPreviousPage"
  | startCursor => "startCursor"
  | endCursor => "endCursor"

/-- The name of the field that holds the state of the pagination. -/
def pageInfoName : String := "pageInfo"

namespace PageFields

/-- Nothing is selected. -/
def empty : PageFields :=
  ⟨false, false, false, false, false⟩

/-- What is selected in either of two branches. -/
def union (a b : PageFields) : PageFields :=
  { pageInfo := a.pageInfo || b.pageInfo
    hasNextPage := a.hasNextPage || b.hasNextPage
    hasPreviousPage := a.hasPreviousPage || b.hasPreviousPage
    startCursor := a.startCursor || b.startCursor
    endCursor := a.endCursor || b.endCursor }

/-- Whether a part of `pageInfo` is selected. -/
def has (fields : PageFields) : PagePart → Bool
  | .hasNextPage => fields.hasNextPage
  | .hasPreviousPage => fields.hasPreviousPage
  | .startCursor => fields.startCursor
  | .endCursor => fields.endCursor

/-- `pageInfo` is selected, and of its parts the one of the given name, if it is one. -/
def ofPart (name : String) : PageFields :=
  { pageInfo := true
    hasNextPage := name == PagePart.hasNextPage.name
    hasPreviousPage := name == PagePart.hasPreviousPage.name
    startCursor := name == PagePart.startCursor.name
    endCursor := name == PagePart.endCursor.name }

/-- `pageInfo` is selected and none of its parts. -/
def pageInfoOnly : PageFields :=
  ⟨true, false, false, false, false⟩

/-- A branch that selects nothing adds nothing. -/
@[simp]
theorem union_empty (a : PageFields) : a.union empty = a := by
  simp [union, empty]

/-- Nothing together with a branch is that branch. -/
@[simp]
theorem empty_union (a : PageFields) : empty.union a = a := by
  simp [union, empty]

/-- A branch that is repeated adds nothing. -/
@[simp]
theorem union_self (a : PageFields) : a.union a = a := by
  simp [union]

/-- The order of two branches does not matter. -/
theorem union_comm (a b : PageFields) : a.union b = b.union a := by
  simp [union, Bool.or_comm]

/-- The grouping of branches does not matter. -/
theorem union_assoc (a b c : PageFields) : (a.union b).union c = a.union (b.union c) := by
  simp [union, Bool.or_assoc]

/-- A part is selected in two branches together if it is in one of them. -/
@[simp]
theorem has_union (a b : PageFields) (part : PagePart) :
    (a.union b).has part = (a.has part || b.has part) := by
  cases part <;> rfl

end PageFields

namespace Document

variable (document : Document)

/-- The fields selected by selections inside `pageInfo`. Fragments among the visited ones are
not followed, and a fragment counts as visited inside itself. -/
def pageInfoFields (visited : List String) : List Selection → PageFields
  | [] => .pageInfoOnly
  | .field field _ :: rest =>
    let own : PageFields :=
      if field.aliasName.isNone then .ofPart field.name.text else .pageInfoOnly
    own.union (pageInfoFields visited rest)
  | .inlineFragment _ selections :: rest =>
    (pageInfoFields visited selections).union (pageInfoFields visited rest)
  | .spread spread :: rest =>
    let own : PageFields :=
      if _new : visited.contains spread.name.text then .empty
      else match _found : document.fragment? spread.name.text with
        | none => .empty
        | some fragment => pageInfoFields (spread.name.text :: visited) fragment.selections
    own.union (pageInfoFields visited rest)
termination_by selections => (document.unvisited visited, sizeOf selections)
decreasing_by
  all_goals first
    | exact Prod.Lex.left _ _ (unvisited_cons_lt _found (by simpa using _new))
    | (apply Prod.Lex.right; simp only [List.cons.sizeOf_spec,
        Selection.inlineFragment.sizeOf_spec]; omega)

/-- The fields selected by selections of a connection. Fragments among the visited ones are not
followed, and a fragment counts as visited inside itself. -/
def connectionFieldsFrom (visited : List String) : List Selection → PageFields
  | [] => .empty
  | .field field selections :: rest =>
    let own : PageFields :=
      if field.name.text == pageInfoName && field.aliasName.isNone && !selections.isEmpty then
        document.pageInfoFields visited selections
      else .empty
    own.union (connectionFieldsFrom visited rest)
  | .inlineFragment _ selections :: rest =>
    (connectionFieldsFrom visited selections).union (connectionFieldsFrom visited rest)
  | .spread spread :: rest =>
    let own : PageFields :=
      if _new : visited.contains spread.name.text then .empty
      else match _found : document.fragment? spread.name.text with
        | none => .empty
        | some fragment =>
          connectionFieldsFrom (spread.name.text :: visited) fragment.selections
    own.union (connectionFieldsFrom visited rest)
termination_by selections => (document.unvisited visited, sizeOf selections)
decreasing_by
  all_goals first
    | exact Prod.Lex.left _ _ (unvisited_cons_lt _found (by simpa using _new))
    | (apply Prod.Lex.right; simp only [List.cons.sizeOf_spec,
        Selection.inlineFragment.sizeOf_spec]; omega)

/-- The fields selected by the selections of a connection. -/
def connectionFields (selections : List Selection) : PageFields :=
  document.connectionFieldsFrom [] selections

end Document

/-! ## Paginated fields -/

/-- The end of the names of connection types. -/
def connectionSuffix : String := "Connection"

/-- Whether a type, null aside, is an object type with the name of a connection. -/
def Schema.isConnection (schema : Schema) (type : TypeRef String) : Bool :=
  match type.nullable with
  | .named name =>
    ((schema.type? name).any NamedType.isObject) && name.endsWith connectionSuffix
  | _ => false

/-- The directions in which a field is paginated. -/
structure Directions where
  /-- Whether it is paginated forward. -/
  forward : Bool
  /-- Whether it is paginated backward. -/
  backward : Bool
deriving DecidableEq

/-- The directions in which the arguments of a field paginate it: forward with `first` and
`after`, backward with `last` and `before`. -/
def Field.directions (field : Field) : Directions :=
  let given := field.arguments.map fun argument => argument.name.text
  { forward := given.contains "first" && given.contains "after"
    backward := given.contains "last" && given.contains "before" }

/-- The parts of `pageInfo` that the directions need, in order. -/
def Directions.parts (directions : Directions) : List PagePart :=
  (if directions.forward then [.hasNextPage, .endCursor] else [])
    ++ if directions.backward then [.hasPreviousPage, .startCursor] else []

/-- The directive that marks a field as a connection. -/
structure ConnectionMark where
  /-- Its key, if that is a string. -/
  key : Option String
  /-- Where it stands. -/
  pos : Position

/-- The key that arguments state: the last string given as one. -/
def keyOf (arguments : List Argument) : Option String :=
  arguments.foldl (fun key argument =>
    match argument.value with
    | .string content _ _ => if argument.name.text == "key" then some content else key
    | _ => key) none

/-- The first directive that marks the field as a connection. -/
def Field.connectionMark? (field : Field) : Option ConnectionMark :=
  (field.directives.find? fun directive => directive.name.text == connectionName).map
    fun directive => ⟨keyOf directive.arguments, directive.pos⟩

end RelayCheck
