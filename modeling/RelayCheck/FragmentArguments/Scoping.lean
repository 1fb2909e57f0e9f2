import RelayCheck.FragmentArguments.Unification
import RelayCheck.Fragments.Variables

/-!
# Variables and their declarations

Every use of a variable has a declaration, and every argument that a fragment declares is used.

An operation is checked with the fragments it reaches; a name that a fragment uses without a
declaration is reported once for each operation. A fragment is checked on its own, too: that
shows what no operation uses, and what the operations that use it declare in ways that do not
agree.

This module introduces the rules `knownVariableNames` and `noUnusedArguments`.
-/

namespace RelayCheck

/-- The uses without declaration, where a name counts once in each fragment. -/
def undeclaredUses : (seen : List (String × String)) → List GovernedUsage → List Usage
  | _, [] => []
  | seen, governed :: rest =>
    if governed.governor.isSome then undeclaredUses seen rest
    else match governed.usage.fragment with
      | none => governed.usage :: undeclaredUses seen rest
      | some fragment =>
        if seen.contains (governed.usage.name, fragment) then undeclaredUses seen rest
        else governed.usage :: undeclaredUses ((governed.usage.name, fragment) :: seen) rest

namespace Context

/-- The findings for uses of an operation that have no declaration. -/
def undeclaredInOperation (context : Context) (operation : Operation) : List Finding :=
  (undeclaredUses [] (context.operationUsages operation)).map fun usage =>
    .relay (.undefinedVariable usage.name (operation.name.map Name.text) usage.fragment)
      [usage.pos, operation.pos]

/-- The findings for uses in a fragment that have no declaration, given the operations that use the
fragment: all of them if there are none, otherwise those of names on which the operations do not
agree. -/
def undeclaredInFragment (context : Context) (operations : List Operation) (fragment : Fragment) :
    List Finding :=
  let name := fragment.name.text
  let unified := context.unify operations
  (context.fragmentUsages fragment unified.declarations).filterMap fun governed =>
    let usage := governed.usage
    if governed.governor.isSome then none
    else if operations.isEmpty then
      some (.relay (.undefinedInFragment usage.name name) [usage.pos])
    else if unified.conflicting.contains usage.name then
      some (.relay (.incompatibleInFragment usage.name name) [usage.pos])
    else none

end Context

/-- Variables that are used are declared. -/
def knownVariableNames (context : Context) : Rule :=
  let reach := context.reach
  (Rule.onLeave fun visit =>
    match visit.node with
    | .definition (.operation operation) => context.undeclaredInOperation operation
    | .definition (.fragment fragment) =>
      context.undeclaredInFragment (reach.operations fragment.name.text) fragment
    | _ => []).searching fun
      | .enter _ => []
      | .leave visit => context.searchesAt visit

/-- The findings for arguments that a fragment declares and does not use in its selections. -/
def unusedArguments (schema : Schema) (fragment : Fragment) : List Finding :=
  let used := (selectionVariables fragment.selections).map fun use => use.1.text
  ((fragment.declarations schema).entries.filter fun entry => !used.contains entry.1).map
    fun (name, declaration) =>
      .relay (.unusedArgument name fragment.name.text) [declaration.pos]

/-- Arguments that a fragment declares are used in its selections. -/
def noUnusedArguments (context : Context) : Rule :=
  .onEnter fun visit =>
    match visit.node with
    | .definition (.fragment fragment) => unusedArguments context.schema fragment
    | _ => []

end RelayCheck
