import RelayCheck.FragmentArguments.Unification

/-!
# Variables at their positions

A variable may stand where a type is expected if its own type is below that. A variable that may
be null may stand where null is excluded if it has a default other than null or the position has
a default.

A fragment is checked on its own: its arguments as they are declared, and the variables of
operations as all operations that use the fragment agree on them. Every operation is checked
with its body and the fragments it reaches. What is wrong inside a fragment is reported once,
however many operations use it.

This module introduces `allowedUsage` and the rule `variablesInAllowedPosition`.
-/

namespace RelayCheck

/-- Whether a variable of a type, with or without a default, may stand where a type is expected,
with or without a default of the position. -/
def allowedUsage (schema : Schema) (type : TypeRef String) (default : Option Value)
    (expected : TypeRef String) (positionHasDefault : Bool) : Bool :=
  match expected with
  | .nonNull inner =>
    if type.isNonNull then schema.isSubtype type expected
    else if (default.any fun value => !value.isNull) || positionHasDefault then
      schema.isSubtype type inner
    else false
  | _ => schema.isSubtype type expected

/-- A variable of a type that stands where another is expected. -/
structure Mismatch where
  /-- The name of the variable. -/
  name : String
  /-- The type of the variable. -/
  type : TypeRef String
  /-- The expected type. -/
  expected : TypeRef String
deriving DecidableEq

namespace Mismatch

/-- The finding that reports a mismatch. -/
def report (mismatch : Mismatch) (places : List Position) : Finding :=
  .relay (.badPosition mismatch.name mismatch.type mismatch.expected) places

end Mismatch

/-- The declaration and the mismatch of a use that its position does not allow. Nothing is said
about uses without declaration or with unknown types. -/
def GovernedUsage.mismatch? (schema : Schema) (governed : GovernedUsage) :
    Option (Declaration × Mismatch) :=
  match governed.declaration?, governed.usage.type with
  | some declaration, some expected =>
    match declaration.type with
    | some type =>
      if allowedUsage schema type declaration.default expected governed.usage.default.isSome then
        none
      else some (declaration, ⟨governed.usage.name, type, expected⟩)
    | none => none
  | _, _ => none

/-- Report a mismatch inside a fragment unless it was reported before. -/
def reportOnce (reported : List Mismatch) (mismatch : Mismatch) (places : List Position) :
    List Finding × List Mismatch :=
  if reported.contains mismatch then ([], reported)
  else ([mismatch.report places], reported ++ [mismatch])

/-- Check uses one after the other, keeping the mismatches inside fragments that were
reported. -/
def checkUsages (check : List Mismatch → GovernedUsage → List Finding × List Mismatch)
    (reported : List Mismatch) (usages : List GovernedUsage) : List Finding × List Mismatch :=
  usages.foldl (fun (found, reported) governed =>
    let (more, reported) := check reported governed
    (found ++ more, reported)) ([], reported)

namespace Context

/-- Check a use in a fragment that is looked at on its own. -/
def checkInFragment (context : Context) (reported : List Mismatch) (governed : GovernedUsage) :
    List Finding × List Mismatch :=
  match governed.mismatch? context.schema with
  | none => ([], reported)
  | some (declaration, mismatch) =>
    if governed.origin? == some .ownDefinition then
      ([mismatch.report [declaration.pos, governed.usage.pos]], reported)
    else reportOnce reported mismatch [governed.usage.pos]

/-- Check a use of an operation or of a fragment that it reaches; uses of fragment arguments are
left to the fragments. -/
def checkInOperation (context : Context) (operation : Operation) (reported : List Mismatch)
    (governed : GovernedUsage) : List Finding × List Mismatch :=
  if governed.isOfArgument then ([], reported)
  else match governed.mismatch? context.schema with
    | none => ([], reported)
    | some (_, mismatch) =>
      if governed.usage.fragment.isNone then
        ([mismatch.report [governed.usage.pos, operation.pos]], reported)
      else reportOnce reported mismatch [operation.pos]

end Context

/-- Variables and fragment arguments stand where they may. -/
def variablesInAllowedPosition (context : Context) : Rule :=
  let reach := context.reach
  (Rule.remembering [] fun (reported : List Mismatch) visit =>
    match visit.node with
    | .definition (.fragment fragment) =>
      let unified := context.unify (reach.operations fragment.name.text)
      checkUsages context.checkInFragment reported
        (context.fragmentUsages fragment unified.declarations)
    | .definition (.operation operation) =>
      checkUsages (context.checkInOperation operation) reported
        (context.operationUsages operation)
    | _ => ([], reported)).searching fun
      | .enter visit => context.searchesAt visit
      | .leave _ => []

end RelayCheck
