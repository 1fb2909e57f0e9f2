import RelayCheck.LanguageRules.Directives
import RelayCheck.LanguageRules.Names
import RelayCheck.LanguageRules.Types

/-!
# Type system documents

The rules for documents that define a schema: names are defined once, extensions are of types of
their kind that the document defines, and the types and directives that are used are known.

This module introduces the rules and their list `typeSystemRules`.
-/

namespace RelayCheck.LanguageRules

/-- The schema is defined once. -/
def loneSchemaDefinition : Rule :=
  .remembering false fun (seen : Bool) visit =>
    match visit.node with
    | .definition (.schema declared) =>
      (if seen then [.language .repeatedSchema [declared.pos]] else [], true)
    | _ => ([], seen)

/-- The findings for root types of kinds that are among those seen before, and the kinds seen
after. -/
def repeatedRoots (seen : List RootDefinition) (roots : List RootDefinition) :
    List Finding × List RootDefinition :=
  roots.foldl (fun (found, seen) root =>
    match seen.find? fun other => other.kind == root.kind with
    | some first => (found ++ [.language (.repeatedRoot root.kind) [first.pos, root.pos]], seen)
    | none => (found, seen ++ [root])) ([], seen)

/-- There is one type for each kind of operation. -/
def uniqueRootTypes : Rule :=
  .remembering [] fun (seen : List RootDefinition) visit =>
    match visit.node with
    | .definition (.schema declared) | .definition (.schemaExtension declared) =>
      repeatedRoots seen declared.roots
    | _ => ([], seen)

/-- Types have different names. -/
def uniqueTypeNames : Rule :=
  .remembering [] fun (known : List Name) visit =>
    match visit.node with
    | .definition (.type declared) =>
      let found := reportSecond .repeatedType known declared.name
      (found, if found.isEmpty then known ++ [declared.name] else known)
    | _ => ([], known)

/-- The findings for names that were seen before as parts of the type of the given name. -/
def repeatedParts (problem : String → LanguageProblem) (type : String)
    (known : List (String × Name)) (names : List Name) :
    List Finding × List (String × Name) :=
  names.foldl (fun (found, known) name =>
    match known.find? fun other => other.1 == type && other.2.text == name.text with
    | some first => (found ++ [.language (problem name.text) [first.2.pos, name.pos]], known)
    | none => (found, known ++ [(type, name)])) ([], known)

/-- The names of the values of an enum. -/
def valueNames : TypeBody → List Name
  | .enum values => values.map EnumValueDefinition.name
  | _ => []

/-- The names of the fields of a type. -/
def fieldNames : TypeBody → List Name
  | .object _ fields | .interface _ fields => fields.map FieldDefinition.name
  | .inputObject fields => fields.map InputDefinition.name
  | _ => []

/-- The rule that the parts of a type, over its definition and extensions, have different
names. -/
def uniqueParts (names : TypeBody → List Name) (problem : (type part : String) → LanguageProblem) :
    Rule :=
  .remembering [] fun (known : List (String × Name)) visit =>
    match visit.node with
    | .definition (.type declared) | .definition (.typeExtension declared) =>
      let type := declared.name.text
      repeatedParts (problem type) type known (names declared.body)
    | _ => ([], known)

/-- The values of an enum have different names. -/
def uniqueEnumValueNames : Rule :=
  uniqueParts valueNames .repeatedEnumValue

/-- The fields of a type have different names. -/
def uniqueFieldNames : Rule :=
  uniqueParts fieldNames .repeatedField

/-- The findings for arguments of one name at the given place. -/
def repeatedParameters (place : String) (parameters : List InputDefinition) : List Finding :=
  reportRepeated (.repeatedParameter place) (parameters.map InputDefinition.name)

/-- The arguments of a field or directive have different names. -/
def uniqueParameterNames : Rule :=
  .onEnter fun visit =>
    match visit.node with
    | .definition (.directive declared) =>
      repeatedParameters ("@" ++ declared.name.text) declared.arguments
    | .definition (.type declared) | .definition (.typeExtension declared) =>
      match declared.body with
      | .object _ fields | .interface _ fields =>
        fields.flatMap fun field =>
          repeatedParameters (declared.name.text ++ "." ++ field.name.text) field.arguments
      | _ => []
    | _ => []

/-- Directives have different names. -/
def uniqueDirectiveNames : Rule :=
  .remembering [] fun (known : List Name) visit =>
    match visit.node with
    | .definition (.directive declared) =>
      let found := reportSecond .repeatedDirectiveDefinition known declared.name
      (found, if found.isEmpty then known ++ [declared.name] else known)
    | _ => ([], known)

/-- Extensions are of types of their kind that the document defines. -/
def possibleTypeExtensions (context : Context) : Rule :=
  let types := context.document.types
  .onEnter fun visit =>
    match visit.node with
    | .definition (.typeExtension extension) =>
      let name := extension.name.text
      match types.reverse.find? fun type => type.name.text == name with
      | none =>
        let similar := suggestions name (types.map fun type => type.name.text)
        [.language (.extendsUnknown name similar) [extension.name.pos]]
      | some type =>
        if type.body.kind == extension.body.kind then []
        else [.language (.extendsOther extension.body.kind name) [type.pos, extension.pos]]
    | _ => []

/-- The rules for documents that define a schema, in order. -/
def typeSystemRules (context : Context) : List Rule :=
  [loneSchemaDefinition, uniqueRootTypes, uniqueTypeNames, uniqueEnumValueNames,
    uniqueFieldNames, uniqueParameterNames, uniqueDirectiveNames, knownTypeNames context,
    knownDirectives context, uniqueDirectives context, possibleTypeExtensions context,
    .onEnter (unknownDirectiveArguments context), uniqueArgumentNames, uniqueInputFieldNames,
    .onLeave (missingDirectiveArguments context)]

end RelayCheck.LanguageRules
