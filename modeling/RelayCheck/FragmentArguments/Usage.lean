import RelayCheck.FragmentArguments.Declaration
import RelayCheck.Validation.Rule

/-!
# Uses of variables

Every use of a variable stands at a position with an expected type and possibly a default. Values
given to a fragment with `@arguments` have no position in the schema: their type and default are
those of the fragment's argument.

A use is governed by a declaration of its name. Inside a fragment the fragment's own arguments
come first, then the variables of the operation that uses the fragment.

This module introduces:

- `Usage`, and `Definition.usages`, the uses in a definition;
- `GovernedUsage`, a use with the declaration that governs it;
- `Context.operationUsages`, the uses of an operation and all fragments it reaches, and
  `Context.fragmentUsages`, those of a fragment alone;
- `Context.searchesAt`, the operations whose fragments govern the uses in a definition.
-/

namespace RelayCheck

/-! ## Uses -/

/-- The default of a position. -/
inductive PositionDefault
  /-- The default of an argument or input field of the schema. -/
  | value (value : InputValue)
  /-- The default of a fragment argument, as written. -/
  | literal (value : Value)

/-- Whether the default of a position is null. -/
def PositionDefault.isNull : PositionDefault → Bool
  | value .null => true
  | value _ => false
  | literal v => v.isNull

/-- A use of a variable and what is expected at its position. -/
structure Usage where
  /-- The name of the variable. -/
  name : String
  /-- Where its dollar sign stands. -/
  pos : Position
  /-- The type expected at the position, if it is known. -/
  type : Option (TypeRef String)
  /-- The default of the position, if it has one. -/
  default : Option PositionDefault
  /-- The fragment that contains the use; nothing for a use in an operation. -/
  fragment : Option String

/-- The spread to whose fragment a directive gives arguments, if it does. -/
def DirectiveUse.spread? (use : DirectiveUse) : Option Spread :=
  match use.carrier with
  | .spread spread => some spread
  | _ => none

/-- Whether a directive is the one that gives arguments to a fragment. -/
def DirectiveUse.givesArguments (use : DirectiveUse) : Bool :=
  use.directive.name.text == argumentsName

namespace Context

/-- The fragment to which a directive gives arguments, if the document defines it. -/
def target? (context : Context) (use : DirectiveUse) : Option Fragment :=
  use.spread?.bind fun spread => context.fragment? spread.name.text

/-- The type and default of the value given to the argument of a fragment, if the fragment
declares that. -/
def boundPosition (context : Context) (fragment : Fragment) (argument : String) :
    Option (TypeRef String) × Option PositionDefault :=
  match (fragment.declarations context.schema).get? argument with
  | some declaration => (declaration.type, declaration.default.map PositionDefault.literal)
  | none => (none, none)

/-- What is expected at the position of a variable; nothing if the variable is no use: it is
being declared, or it is given with `@arguments` to anything but a fragment of the document. -/
def position? (context : Context) (scope : Scope) :
    Option (Option (TypeRef String) × Option PositionDefault) :=
  if scope.declaring then none
  else match scope.use.filter DirectiveUse.givesArguments with
    | none => some (scope.input, scope.default.map PositionDefault.value)
    | some use =>
      (context.target? use).map fun fragment =>
        if scope.nested then (none, none)
        else context.boundPosition fragment ((scope.argument.map fun a => a.name.text).getD "")

/-- The use of a variable that an event is, if it is one; `fragment` is recorded as what
contains it. -/
def usage? (context : Context) (fragment : Option String) : Event → Option Usage
  | .enter ⟨.value (.variable name pos), scope⟩ =>
    (context.position? scope).map fun (type, default) => ⟨name.text, pos, type, default, fragment⟩
  | _ => none

/-- The uses in a definition, in order; fragments that it spreads are not followed. -/
def usages (context : Context) (fragment : Option String) (definition : Definition) :
    List Usage :=
  (definition.events context.schema).filterMap (context.usage? fragment)

end Context

/-! ## Governed uses -/

/-- Where the declaration that governs a use comes from. -/
inductive Origin
  /-- From the operation or fragment that contains the use. -/
  | ownDefinition
  /-- From the operation that uses the fragment which contains the use. -/
  | enclosingOperation
deriving DecidableEq

/-- A use of a variable with the declaration that governs it. -/
structure GovernedUsage where
  /-- The use. -/
  usage : Usage
  /-- The declaration, if there is one, and where it comes from. -/
  governor : Option (Declaration × Origin)

namespace GovernedUsage

/-- The declaration that governs the use. -/
def declaration? (governed : GovernedUsage) : Option Declaration :=
  governed.governor.map Prod.fst

/-- Where the declaration comes from. -/
def origin? (governed : GovernedUsage) : Option Origin :=
  governed.governor.map Prod.snd

/-- Whether the use is governed by an argument of the fragment that contains it. -/
def isOfArgument (governed : GovernedUsage) : Bool :=
  governed.declaration?.any Declaration.isArgument

end GovernedUsage

/-- The use with its declaration: an own one before one of the enclosing operation. -/
def govern (own enclosing : Declarations) (usage : Usage) : GovernedUsage :=
  match own.get? usage.name with
  | some declaration => ⟨usage, some (declaration, .ownDefinition)⟩
  | none =>
    ⟨usage, (enclosing.get? usage.name).map fun declaration =>
      (declaration, .enclosingOperation)⟩

namespace Context

/-- The uses of a fragment, governed by its own arguments and then by the given declarations. -/
def fragmentUsages (context : Context) (fragment : Fragment) (enclosing : Declarations) :
    List GovernedUsage :=
  (context.usages (some fragment.name.text) (.fragment fragment)).map
    (govern (fragment.declarations context.schema) enclosing)

/-- The operations whose fragments have to be known to govern the uses in a definition: an
operation itself, and all operations for a fragment. -/
def searchesAt (context : Context) (visit : Visit) : List Operation :=
  match visit.node with
  | .definition (.operation operation) => [operation]
  | .definition (.fragment _) => context.document.operations
  | _ => []

/-- The uses of an operation and of the fragments it reaches. -/
def operationUsages (context : Context) (operation : Operation) : List GovernedUsage :=
  let declared := operation.declarations context.schema
  (context.usages none (.operation operation)).map (govern declared declared)
    ++ (context.reached operation).flatMap fun fragment => context.fragmentUsages fragment declared

end Context

end RelayCheck
