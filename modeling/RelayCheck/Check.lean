import RelayCheck.Fragments.Nesting
import RelayCheck.RuleName
import RelayCheck.Schema.Load

/-!
# Checking documents

A document is checked against a schema by rules that follow one walk. The check stops early before
the first definition whose selections are nested too deeply, and where a rule gives up its search
for the fragments of operations; that is an error, which does not count towards the number of
errors that are reported. The schema need not know the directives for fragment arguments and
connections; they are added.

This module introduces:

- `Document.walk`, the walk as far as the depth of the document lets rules follow it;
- `Trail`, what rules find and whether they stop early, and `Context.trail`;
- `Outcome`, the errors and warnings of a check, and `CheckFault`, why there is none;
- `Schema.check`, the check of a document with given rules;
- `Schema.checkSource`, the check of a text with the standard rules.
-/

namespace RelayCheck

/-! ## The walk -/

/-- Whether a definition of the document is nested too deeply. -/
def Document.isTooDeep (document : Document) : Bool :=
  let depths := document.fragmentDepths
  document.definitions.any fun definition => definition.isTooDeep depths

/-- The walk of a document as far as rules follow it. A definition that is nested too deeply is not
entered, and then the document is not left. -/
def Document.walk (document : Document) (schema : Schema) : List Event :=
  if document.isTooDeep then
    let depths := document.fragmentDepths
    .enter ⟨.document document, {}⟩ ::
      (document.definitions.takeWhile fun definition => !definition.isTooDeep depths).flatMap
        (Definition.events schema)
  else document.events schema

/-! ## What rules find -/

/-- What rules find on a document. -/
structure Trail where
  /-- The findings, in order. -/
  findings : List Finding
  /-- Whether the rules stop early. -/
  aborted : Bool

/-- What rules find on the document of a context. -/
def Context.trail (context : Context) (rules : List RuleName) : Trail :=
  let rules := rules.map (RuleName.rule context)
  let walk := context.document.walk context.schema
  let halt := Halt.ofWalk? context rules walk
  ⟨sideBySideUntil rules walk halt, halt.isSome || context.document.isTooDeep⟩

/-- What a check finds. -/
structure Outcome where
  /-- The errors, in order. -/
  errors : List Diagnostic
  /-- The warnings, in order. -/
  warnings : List Warning

/-- Why a check has no outcome. -/
inductive CheckFault
  /-- The text is no document. -/
  | unreadable (error : SyntaxError)
  /-- The names that an error should offer cannot be found. -/
  | wordless (fault : SuggestionFault)

/-- The outcome that a trail amounts to, with no more errors than are reported, if all of them can
be put into words. -/
def Outcome.ofTrail (trail : Trail) : Except SuggestionFault Outcome :=
  let atEnd := if trail.aborted then [Finding.error ⟨.aborted, []⟩] else []
  let reported := limited atEnd errorLimit trail.findings
  let errors := reported.filterMap Finding.diagnostic?
  match errors.findSome? fun diagnostic => diagnostic.problem.suggestionFault? with
  | some fault => .error fault
  | none => .ok ⟨errors, reported.filterMap Finding.warning?⟩

namespace Schema

/-- Check a document with the given rules. -/
def check (schema : Schema) (document : Document) (rules : List RuleName) :
    Except SuggestionFault Outcome :=
  Outcome.ofTrail ((Context.ofDocument schema.withRelayDirectives document).trail rules)

/-- Check a text with the standard rules, if it is a document. -/
def checkSource (schema : Schema) (source : String) (compat : Bool) (supply : Supply) :
    Except CheckFault Outcome :=
  match Document.parse source with
  | .error error => .error (.unreadable error)
  | .ok document => (schema.check document (standardRules compat supply)).mapError .wordless

end Schema

end RelayCheck
