import RelayCheck.Language.Parser.Document
import RelayCheck.LanguageRules.TypeSystem
import RelayCheck.Schema.Construction
import RelayCheck.Schema.Validity

/-!
# Reading a schema

A schema is read from the text of its definitions. The text has to be a document, the document has
to follow the rules for type systems, its definitions have to make a schema, and the schema has to
be valid; the first of these that fails is reported.

This module introduces `SchemaError` with its `message` and `Schema.load`.
-/

namespace RelayCheck

/-- Why a text is refused as a schema. -/
inductive SchemaError
  /-- The text is no document. -/
  | unreadable (error : SyntaxError) (source : String)
  /-- The names that a broken rule should offer cannot be found. -/
  | wordless (fault : SuggestionFault)
  /-- The document breaks rules for type systems. -/
  | refused (problems : List Problem)
  /-- The definitions make no schema. -/
  | unmade (fault : ConstructionFault) (source : String)
  /-- The schema is not valid. -/
  | invalid (faults : List SchemaFault)

/-- The wording of the reason. -/
def SchemaError.message : SchemaError → String
  | unreadable error source => "Could not build schema: " ++ error.report source
  | wordless fault => fault.message
  | refused problems =>
    "Could not build schema: " ++ "\n\n".intercalate (problems.map Problem.message)
  | unmade fault source => "Could not build schema: " ++ fault.message source
  | invalid faults => "Invalid schema: " ++ "; ".intercalate (faults.map SchemaFault.message)

/-- What is known before a schema is read: the standard directives. -/
def Schema.initial : Schema :=
  ⟨[], standardDirectives, none, none, none⟩

/-- The problems of a document under the rules for type systems. -/
def Document.typeSystemProblems (document : Document) : List Problem :=
  let context := Context.ofDocument Schema.initial document
  let found := sideBySide (LanguageRules.typeSystemRules context)
    (document.events Schema.initial)
  (found.filterMap Finding.diagnostic?).map Diagnostic.problem

/-- The schema that a text defines. -/
def Schema.load (source : String) : Except SchemaError Schema :=
  match Document.parse source with
  | .error error => .error (.unreadable error source)
  | .ok document =>
    match document.typeSystemProblems with
    | [] =>
      match document.constructionFault? with
      | some fault => .error (.unmade fault source)
      | none =>
        let schema := document.schema
        match schema.faults with
        | [] => .ok schema
        | faults => .error (.invalid faults)
    | problems =>
      match problems.findSome? Problem.suggestionFault? with
      | some fault => .error (.wordless fault)
      | none => .error (.refused problems)

end RelayCheck
