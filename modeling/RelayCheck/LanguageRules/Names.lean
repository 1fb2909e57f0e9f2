import RelayCheck.Validation.Rule

/-!
# Unique names

Names that may be used once: those of operations, fragments, variables, arguments and fields of
an object. Where all bearers of a name are known at once they are reported together; elsewhere
the second bearer is reported with the first.

This module introduces `repeatedNames`, which groups names, and the rules that rest on it, together
with the rules that documents hold only executable definitions and that an anonymous operation is
alone.
-/

namespace RelayCheck.LanguageRules

/-- The groups of two or more equal names, in order of their first members. -/
def repeatedNames (names : List Name) : List (List Name) :=
  let texts := (names.map Name.text).eraseDups
  (texts.map fun text => names.filter fun name => name.text == text).filter fun group =>
    group.length > 1

/-- A finding for every group of equal names, at all of them. -/
def reportRepeated (problem : String → LanguageProblem) (names : List Name) : List Finding :=
  (repeatedNames names).map fun group =>
    .language (problem ((group.head?.map Name.text).getD "")) (group.map Name.pos)

/-- A finding at the first bearer of a name and at the name, if there is a bearer already. -/
def reportSecond (problem : String → LanguageProblem) (known : List Name) (name : Name) :
    List Finding :=
  match known.find? fun other => other.text == name.text with
  | some first => [.language (problem name.text) [first.pos, name.pos]]
  | none => []

/-- Documents hold operations and fragments only. -/
def executableDefinitions : Rule :=
  .onEnter fun visit =>
    match visit.node with
    | .document document =>
      (document.definitions.filter Definition.isTypeSystem).map fun definition =>
        .language (.notExecutable (definition.name?.map Name.text)) [definition.pos]
    | _ => []

/-- Operations have different names. -/
def uniqueOperationNames : Rule :=
  .remembering [] fun (known : List Name) visit =>
    match visit.node with
    | .definition (.operation operation) =>
      match operation.name with
      | some name =>
        (reportSecond .repeatedOperation known name, known ++ [name])
      | none => ([], known)
    | _ => ([], known)

/-- An operation without name is the only operation. -/
def loneAnonymousOperation (context : Context) : Rule :=
  .onEnter fun visit =>
    match visit.node with
    | .definition (.operation operation) =>
      if operation.name.isNone && context.document.operations.length > 1 then
        [.language .anonymousNotAlone [operation.pos]]
      else []
    | _ => []

/-- Fragments have different names. -/
def uniqueFragmentNames : Rule :=
  .remembering [] fun (known : List Name) visit =>
    match visit.node with
    | .definition (.fragment fragment) =>
      (reportSecond .repeatedFragment known fragment.name, known ++ [fragment.name])
    | _ => ([], known)

/-- The variables of an operation have different names. A name is placed after its dollar
sign. -/
def uniqueVariableNames : Rule :=
  .onEnter fun visit =>
    match visit.node with
    | .definition (.operation operation) =>
      reportRepeated .repeatedVariable (operation.variableDefinitions.map VariableDefinition.name)
    | _ => []

/-- The arguments at one place have different names. -/
def uniqueArgumentNames : Rule :=
  .onEnter fun visit =>
    match visit.node with
    | .field field _ => reportRepeated .repeatedArgument (field.arguments.map Argument.name)
    | .directive use =>
      reportRepeated .repeatedArgument (use.directive.arguments.map Argument.name)
    | _ => []

/-- The fields of an object have different names. -/
def uniqueInputFieldNames : Rule :=
  .onEnter fun visit =>
    match visit.node with
    | .objectField name earlier => reportSecond .repeatedInputField earlier name
    | _ => []

end RelayCheck.LanguageRules
