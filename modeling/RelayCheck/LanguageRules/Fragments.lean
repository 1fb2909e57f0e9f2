import RelayCheck.Fragments.Variables
import RelayCheck.Validation.Rule

/-!
# Fragments and variables

Fragments that are spread are defined, fragments that are defined are used, and no fragment uses
itself. A fragment is spread only where an object can have its type. Variables of an operation
are used by it or by a fragment it reaches.
-/

namespace RelayCheck.LanguageRules

/-- Spread fragments are defined. -/
def knownFragmentNames (context : Context) : Rule :=
  .onEnter fun visit =>
    match visit.node with
    | .spread spread =>
      if (context.fragment? spread.name.text).isSome then []
      else [.language (.unknownFragment spread.name.text) [spread.name.pos]]
    | _ => []

/-- The findings for fragments of a document that no operation uses. -/
def unusedFragments (context : Context) (document : Document) : List Finding :=
  let used := document.operations.flatMap fun operation =>
    (context.reached operation).map fun fragment => fragment.name.text
  (document.fragments.filter fun fragment => !used.contains fragment.name.text).map
    fun fragment => .language (.unusedFragment fragment.name.text) [fragment.pos]

/-- Fragments are used by an operation. -/
def noUnusedFragments (context : Context) : Rule :=
  (Rule.onLeave fun visit =>
    match visit.node with
    | .document document => unusedFragments context document
    | _ => []).searching fun
      | .leave ⟨.document document, _⟩ => document.operations
      | _ => []

/-- Whether an object can be of both types. -/
def overlap (schema : Schema) (a b : NamedType) : Bool :=
  if a.name == b.name then true
  else if a.isAbstract then
    if b.isAbstract then (schema.possibleTypes a).any b.includes else a.includes b
  else b.isAbstract && b.includes a

/-- The composite type of the given name. -/
def composite? (schema : Schema) (name : String) : Option NamedType :=
  (schema.type? name).filter NamedType.isComposite

/-- The finding that a fragment is spread where no object has its type. -/
def reportImpossible (schema : Schema) (fragment : Option String) (parent type : Option NamedType)
    (pos : Position) : List Finding :=
  match parent, type with
  | some parent, some type =>
    if overlap schema parent type then []
    else [.language (.impossibleSpread fragment parent.name type.name) [pos]]
  | _, _ => []

/-- Fragments are spread where an object can have their type. -/
def possibleFragmentSpreads (context : Context) : Rule :=
  .onEnter fun visit =>
    match visit.node with
    | .inlineFragment fragment _ =>
      let type := visit.scope.output.bind fun type =>
        composite? context.schema type.baseName
      reportImpossible context.schema none visit.scope.parent type fragment.pos
    | .spread spread =>
      let type := (context.fragment? spread.name.text).bind fun fragment =>
        composite? context.schema fragment.typeCondition.text
      reportImpossible context.schema (some spread.name.text) visit.scope.parent type spread.pos
    | _ => []

/-- The cycles found on the way down from a fragment, depth first, and the fragments visited. The
path leads from the first fragment to this one: each fragment's name with the spread that left
it. No name is on a path twice, so the number of fragments bounds its length. -/
def findCycles (document : Document) :
    (room : Nat) → (path : List (String × Spread)) → (visited : List String) →
      (name : String) → List Selection → List Finding × List String
  | 0, _, visited, _, _ => ([], visited)
  | room + 1, path, visited, name, selections =>
    if visited.contains name then ([], visited)
    else (spreadsOf selections).foldl (fun (found, visited) spread =>
      let longer := path ++ [(name, spread)]
      let target := spread.name.text
      let cycle := longer.dropWhile fun step => step.1 != target
      if cycle.isEmpty then
        match document.fragment? target with
        | none => (found, visited)
        | some fragment =>
          let (more, visited) :=
            findCycles document room longer visited target fragment.selections
          (found ++ more, visited)
      else
        let spreads := cycle.map Prod.snd
        let via := spreads.dropLast.map fun step => step.name.text
        (found ++ [.language (.fragmentCycle target via) (spreads.map Spread.pos)], visited))
      ([], name :: visited)

/-- No fragment uses itself, directly or through others. -/
def noFragmentCycles (context : Context) : Rule :=
  let document := context.document
  .remembering [] fun (visited : List String) visit =>
    match visit.node with
    | .definition (.fragment fragment) =>
      findCycles document (document.fragments.length + 1) [] visited fragment.name.text
        fragment.selections
    | _ => ([], visited)

/-- The names of the variables that an operation or a fragment it reaches uses. -/
def usedNames (context : Context) (operation : Operation) : List String :=
  (operation.usedVariables
    ++ (context.reached operation).flatMap Fragment.usedVariables).map fun use => use.1.text

/-- The findings for variables of an operation that are not used. -/
def unusedVariables (context : Context) (operation : Operation) : List Finding :=
  let used := usedNames context operation
  (operation.variableDefinitions.filter fun declared => !used.contains declared.name.text).map
    fun declared =>
      .language (.unusedVariable declared.name.text (operation.name.map Name.text)) [declared.pos]

/-- Variables of an operation are used. -/
def noUnusedVariables (context : Context) : Rule :=
  (Rule.onLeave fun visit =>
    match visit.node with
    | .definition (.operation operation) => unusedVariables context operation
    | _ => []).searching fun
      | .leave ⟨.definition (.operation operation), _⟩ => [operation]
      | _ => []

end RelayCheck.LanguageRules
