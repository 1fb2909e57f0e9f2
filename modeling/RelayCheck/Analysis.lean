import RelayCheck.Check

/-!
# Questions about a document

Questions about the variables, fragments and fields of a document that can be asked one after the
other. Which operations were asked about is remembered, since the order in which the fragments of
an operation are listed is that of the first operation that spreads the same ones. A question fails
if the search for the fragments of an operation is given up, and the questions after it go on from
there.

This module introduces `Analysis`, a computation that asks, the questions
`Analysis.recursiveUsages`, `Analysis.operationsReaching` and `Analysis.unifiedVariables`, and
`FieldFacts`, what there is to know about the fields of a definition.
-/

namespace RelayCheck

/-- A computation that asks questions about a document. -/
abbrev Analysis := ExceptT Problem (StateM Context)

namespace Analysis

/-- Look for the fragments of an operation. -/
def search (operation : Operation) : Analysis Unit := do
  let context ← get
  set (context.search operation)
  if context.givesUp operation then throw .aborted

/-- Look for the fragments of all operations. -/
def searchAll : Analysis Unit := do
  for operation in (← get).document.operations do
    search operation

/-- The uses of an operation and the fragments it reaches, or those of a fragment, governed by
the variables of the enclosing operation if one is given; other definitions have none. -/
def recursiveUsages (definition : Definition) (enclosing : Option Operation) :
    Analysis (Option (List GovernedUsage)) := do
  match definition with
  | .operation o =>
    search o
    return some ((← get).operationUsages o)
  | .fragment f =>
    let context ← get
    let declared := match enclosing with
      | some operation => operation.declarations context.schema
      | none => .empty
    return some (context.fragmentUsages f declared)
  | _ => return none

/-- The operations that use the fragment of the given name. -/
def operationsReaching (fragment : String) : Analysis (List Operation) := do
  searchAll
  return (← get).operationsReaching fragment

/-- The variables that the operations which use a fragment agree on. -/
def unifiedVariables (fragment : String) : Analysis UnifiedVariables := do
  searchAll
  return (← get).unifiedVariables fragment

end Analysis

/-- What there is to know about a field. -/
structure FieldFacts where
  /-- The field. -/
  field : Field
  /-- Whether its type is that of a connection. -/
  isConnection : Bool
  /-- The fields for pagination that are selected, if it has selections. -/
  selected : Option PageFields

/-- The fields of a definition, in order. -/
def Context.fieldFacts (context : Context) (definition : Definition) : List FieldFacts :=
  (definition.events context.schema).filterMap fun
    | .enter ⟨.field field selections, scope⟩ =>
      some ⟨field, scope.output.any context.schema.isConnection,
        if selections.isEmpty then none
        else some (context.document.connectionFields selections)⟩
    | _ => none

end RelayCheck
