import RelayCheck.Fragments.Spreads
import RelayCheck.Schema.Basic

/-!
# Contexts

Rules look at a document with the schema it is written against. To see what an operation does they
look for the fragments that it uses, directly or through others. What was found for an operation
also serves for another that spreads the same names, and the order of its fragments with it.

A search looks at all spreads of the operation and of the fragments it reaches. All searches
together may look at so many spreads only; the one that exceeds this number is given up.

This module introduces:

- `Context`, with `Context.reached`, the fragments that an operation uses, and `Context.reach`, the
  operations with the fragments they use;
- `Context.search` and `Context.givesUp`, a search and whether it fails;
- `Context.searchAll?`, several searches, all of which have to succeed.
-/

namespace RelayCheck

/-- A document, the schema it is written against, and the searches for fragments so far. -/
structure Context where
  /-- The schema. -/
  schema : Schema
  /-- The document. -/
  document : Document
  /-- The operations whose fragments were found, in the order of the searches. -/
  searched : List Operation
  /-- The number of spreads that were looked at. -/
  spent : Nat

/-- Operations with the fragments they use, directly or through others. -/
abbrev Reach := List (Operation × List Fragment)

/-- The operations that use the fragment of the given name, in order. -/
def Reach.operations (reach : Reach) (name : String) : List Operation :=
  (reach.filter fun entry => entry.2.any fun fragment => fragment.name.text == name).map Prod.fst

/-- Whether two lists have the same members. -/
def sameNames (a b : List String) : Bool :=
  a.all b.contains && b.all a.contains

namespace Context

/-- The context in which the fragments of all operations were found in document order, at no
cost. -/
def ofDocument (schema : Schema) (document : Document) : Context :=
  ⟨schema, document, document.operations, 0⟩

/-- The context in which no fragments were looked for yet. -/
def fresh (schema : Schema) (document : Document) : Context :=
  ⟨schema, document, [], 0⟩

/-- The fragment of the given name. -/
def fragment? (context : Context) (name : String) : Option Fragment :=
  context.document.fragment? name

/-! ## Fragments of operations -/

/-- The names spread by the first operation searched that spreads the same names as the given
ones. -/
def foundNames? (context : Context) (names : List String) : Option (List String) :=
  context.searched.findSome? fun other =>
    let found := spreadNames other.selections
    if sameNames found names then some found else none

/-- The names that an operation's own selections spread. They are listed in the order of the
first operation looked at that spreads the same names. -/
def startNames (context : Context) (operation : Operation) : List String :=
  let own := spreadNames operation.selections
  (context.foundNames? own).getD own

/-- The fragments that an operation uses, directly or through others. -/
def reached (context : Context) (operation : Operation) : List Fragment :=
  context.document.reach (context.startNames operation)

/-- The operations of the document with the fragments they use. -/
def reach (context : Context) : Reach :=
  context.document.operations.map fun operation => (operation, context.reached operation)

/-- The operations that use the fragment of the given name, in document order. -/
def operationsReaching (context : Context) (name : String) : List Operation :=
  context.reach.operations name

/-- An operation uses a fragment if it is one of the document and reaches a fragment of this
name. -/
theorem mem_operationsReaching {context : Context} {name : String} {operation : Operation} :
    operation ∈ context.operationsReaching name ↔
      operation ∈ context.document.operations ∧
        ∃ fragment ∈ context.reached operation, fragment.name.text = name := by
  simp only [operationsReaching, Reach.operations, reach, List.mem_map, List.mem_filter,
    List.any_eq_true, beq_iff_eq]
  constructor
  · rintro ⟨_, ⟨⟨other, member, rfl⟩, found⟩, rfl⟩
    exact ⟨member, found⟩
  · rintro ⟨member, found⟩
    exact ⟨_, ⟨⟨operation, member, rfl⟩, found⟩, rfl⟩

/-! ## Searches -/

/-- The number of spreads that all searches together may look at. -/
def searchLimit : Nat := 50000

/-- Whether the fragments of an operation were found before. -/
def isSearched (context : Context) (operation : Operation) : Bool :=
  (context.foundNames? (spreadNames operation.selections)).isSome

/-- The number of spreads that a search for the fragments of an operation looks at. -/
def searchCost (context : Context) (operation : Operation) : Nat :=
  if context.isSearched operation then 0
  else (context.reached operation).foldl
    (fun cost fragment => cost + (spreadNames fragment.selections).length)
    (spreadNames operation.selections).length

/-- Whether a search for the fragments of an operation is given up, since it looks at spreads
beyond the limit. -/
def givesUp (context : Context) (operation : Operation) : Bool :=
  let cost := context.searchCost operation
  cost > 0 && context.spent + cost > searchLimit

/-- The context after a search for the fragments of an operation. -/
def search (context : Context) (operation : Operation) : Context :=
  let spent := context.spent + context.searchCost operation
  if context.isSearched operation || context.givesUp operation then { context with spent }
  else { context with searched := context.searched ++ [operation], spent }

/-- Searching again changes nothing. -/
theorem search_of_isSearched {context : Context} {operation : Operation}
    (known : context.isSearched operation = true) : context.search operation = context := by
  simp [search, searchCost, known]

/-- The context after searches for the fragments of several operations, if none is given up. -/
def searchAll? (context : Context) : List Operation → Option Context
  | [] => some context
  | operation :: rest =>
    if context.givesUp operation then none else (context.search operation).searchAll? rest

end Context

end RelayCheck
