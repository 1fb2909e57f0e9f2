import RelayCheck.Language.Document

/-!
# Variables in a document

The variables that occur in a part of a document, in the order in which they are written, each
with the position of its dollar sign. An argument's value, a directive and a nested selection set
contribute theirs; the fragments that are spread do not.

This module introduces `selectionVariables`, and for operations and fragments the variables they
use and all variables they mention, declarations included.
-/

namespace RelayCheck

/-- The variables in the values of arguments. -/
def argumentVariables (arguments : List Argument) : List (Name × Position) :=
  arguments.flatMap fun argument => argument.value.mentions

/-- The variables in directives. -/
def directiveVariables (directives : List Directive) : List (Name × Position) :=
  directives.flatMap fun directive => argumentVariables directive.arguments

mutual

/-- The variables in a selection. -/
def Selection.mentions : Selection → List (Name × Position)
  | .field field selections =>
    argumentVariables field.arguments ++ directiveVariables field.directives
      ++ selectionVariables selections
  | .spread spread => directiveVariables spread.directives
  | .inlineFragment fragment selections =>
    directiveVariables fragment.directives ++ selectionVariables selections

/-- The variables in a selection set. -/
def selectionVariables : List Selection → List (Name × Position)
  | [] => []
  | selection :: rest => selection.mentions ++ selectionVariables rest

end

/-- The variables in the declaration of a variable: itself, and those in what follows. -/
def VariableDefinition.mentions (declared : VariableDefinition) : List (Name × Position) :=
  (declared.name, declared.variablePos) ::
    (declared.default.toList.flatMap Value.mentions ++ directiveVariables declared.directives)

/-- The variables that an operation uses. -/
def Operation.usedVariables (operation : Operation) : List (Name × Position) :=
  directiveVariables operation.directives ++ selectionVariables operation.selections

/-- The variables that a fragment uses. -/
def Fragment.usedVariables (fragment : Fragment) : List (Name × Position) :=
  directiveVariables fragment.directives ++ selectionVariables fragment.selections

/-- The variables that a definition mentions. Values in type system definitions are constant. -/
def Definition.mentions : Definition → List (Name × Position)
  | .operation o => o.variableDefinitions.flatMap VariableDefinition.mentions ++ o.usedVariables
  | .fragment f => f.usedVariables
  | _ => []

end RelayCheck
