import RelayCheck.Language.Parser.TypeSystem

/-!
# Parsing documents

A document is a sequence of at least one definition. The first keyword of a definition, after its
description if it has one, tells what it defines.

This module introduces `Document.parse`.
-/

namespace RelayCheck

namespace Parser

/-- Take the definition that starts with the given keyword, after its description. -/
def describable (word : String) (pos : Position) : Option (Parser Definition) :=
  match typeKind? word with
  | some kind => some (Definition.type <$> typeDefinition kind pos)
  | none =>
    match word with
    | "schema" => some (Definition.schema <$> schemaDefinition pos)
    | "directive" => some (Definition.directive <$> directiveDefinition pos)
    | "fragment" => some (Definition.fragment <$> fragment pos)
    | "query" | "mutation" | "subscription" => some (Definition.operation <$> operation pos)
    | _ => none

/-- Take a definition. -/
def definition : Parser Definition := do
  let first ← current
  let described := isDescription first.kind
  let word ← if described then lookahead else pure first
  match word.kind with
  | .punctuator .braceL =>
    if described then failAt first.pos .describedShorthand
    Definition.operation <$> operation first.pos
  | .name text =>
    match describable text first.pos with
    | some definition =>
      description
      definition
    | none =>
      if described then failAt first.pos .describedOther
      if text == "extend" then extension
      else failAt word.pos (.unexpected word.kind)
  | _ => failAt word.pos (.unexpected word.kind)

/-- Take definitions up to the end of the source; there has to be at least one. -/
def definitions : (rounds : Nat) → Parser (List Definition)
  | 0 => unexpected
  | rounds + 1 => do
    let first ← definition
    if (← current).kind == .endOfInput then return [first]
    let rest ← definitions rounds
    return first :: rest

end Parser

/-- The document that a source holds. -/
def Document.parse (source : String) : Except SyntaxError Document := do
  let definitions ← Parser.run (do Parser.definitions ((← get).size + 1)) source
  return ⟨definitions⟩

end RelayCheck
