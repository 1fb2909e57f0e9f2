import RelayCheck.Connections.Pagination
import RelayCheck.Validation.Rule

/-!
# Rules for connections

A paginated connection selects the parts of `pageInfo` that its directions need. In compatibility
mode every paginated field is marked with `@connection`.

This module introduces the rules `requiredPageInfoFields` and `missingConnectionDirective`.
-/

namespace RelayCheck

/-- The name of a connection in messages and the place at which it is reported: the key and the
position of its mark, or, where these are missing, those of the field. -/
def Field.connectionPlace (field : Field) : String × Position :=
  match field.connectionMark? with
  | none => (field.responseName, field.pos)
  | some mark =>
    let key := mark.key.getD ""
    (if key.isEmpty then field.responseName else key, mark.pos)

/-- What is found at a connection of which the given parts of `pageInfo` are needed. -/
def pageInfoFindings (document : Document) (field : Field) (selections : List Selection)
    (parts : List PagePart) : List Finding :=
  let (connection, pos) := field.connectionPlace
  let selected := document.connectionFields selections
  if !selected.pageInfo then [.relay (.missingPageInfo connection) [pos]]
  else (parts.filter fun part => !selected.has part).map fun part =>
    .relay (.missingPageInfoField part.name connection) [pos]

/-- Paginated connections select the parts of `pageInfo` that their directions need. -/
def requiredPageInfoFields (context : Context) : Rule :=
  .onEnter fun visit =>
    match visit.node with
    | .field field selections =>
      let parts := field.directions.parts
      if selections.isEmpty || parts.isEmpty
          || !visit.scope.output.any context.schema.isConnection then []
      else pageInfoFindings context.document field selections parts
    | _ => []

/-- Paginated fields are marked as connections. -/
def missingConnectionDirective : Rule :=
  .onEnter fun visit =>
    match visit.node with
    | .field field selections =>
      let directions := field.directions
      if !selections.isEmpty && (directions.forward || directions.backward)
          && field.connectionMark?.isNone then
        [.relay (.missingConnection field.responseName) [field.pos]]
      else []
    | _ => []

end RelayCheck
