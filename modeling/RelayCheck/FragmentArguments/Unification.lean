import RelayCheck.FragmentArguments.Usage

/-!
# Variables that operations agree on

A fragment may use variables that it does not declare; then every operation that uses the
fragment has to declare them. The operations may declare a variable in different ways. A single
declaration that suits all of them is found, if there is one, so that the fragment can be checked
once.

This module introduces:

- `unifyDeclarations`, the declaration that suits several declarations of one variable;
- `UnifiedVariables`, and `Context.unify`, the variables that operations agree on;
- `Context.unifiedVariables`, those of all operations that use a fragment.
-/

namespace RelayCheck

/-- The first declaration of whose type all others are subtypes. -/
def widest? (schema : Schema) (declarations : List Declaration) : Option Declaration :=
  let below : Declaration → Declaration → Bool := fun other candidate =>
    match other.type, candidate.type with
    | some sub, some super => schema.isSubtype sub super
    | _, _ => false
  declarations.find? fun candidate => declarations.all fun other => below other candidate

/-- Whether the variable cannot be null when the operation runs. -/
def Declaration.isAlwaysProvided (declaration : Declaration) : Bool :=
  declaration.type.any TypeRef.isNonNull || declaration.hasNonNullDefault

/-- The declaration that suits all given ones of one variable, of which there has to be at least
one. If a type is unknown the result has none, so that nothing is checked against it. Otherwise
the widest type is taken. It is made non-null if no operation can leave the variable null. A
default remains only with a type that is non-null by itself, if all declarations have one other
than null. -/
def unifyDeclarations (schema : Schema) (declarations : List Declaration) : Option Declaration :=
  match declarations with
  | [] => none
  | first :: _ =>
    if declarations.any fun declaration => declaration.type.isNone then
      some { first with type := none, default := none }
    else (widest? schema declarations).map fun widest =>
      if widest.type.any TypeRef.isNonNull then
        { widest with
          default :=
            if declarations.all Declaration.hasNonNullDefault then widest.default else none }
      else if declarations.all Declaration.isAlwaysProvided then
        { widest with
          written := widest.written.map TypeRef.nonNull
          type := widest.type.map TypeRef.nonNull
          default := none }
      else { widest with default := none }

/-- The variables that all operations of a group declare. -/
structure UnifiedVariables where
  /-- The declarations that suit all of them, in the order of the first operation. -/
  declarations : Declarations
  /-- The names that they declare in ways that do not agree. -/
  conflicting : List String

namespace UnifiedVariables

/-- No variables. -/
def empty : UnifiedVariables :=
  ⟨.empty, []⟩

/-- The variables with one more that is declared as given. -/
def add (schema : Schema) (unified : UnifiedVariables) (name : String)
    (declarations : List Declaration) : UnifiedVariables :=
  match unifyDeclarations schema declarations with
  | some declaration =>
    { unified with declarations := unified.declarations.insert name declaration }
  | none => { unified with conflicting := unified.conflicting ++ [name] }

end UnifiedVariables

namespace Context

/-- The variables that the given operations all declare, unified. -/
def unify (context : Context) (operations : List Operation) : UnifiedVariables :=
  let declared := operations.map (Operation.declarations context.schema)
  match declared with
  | [] => .empty
  | first :: _ =>
    let shared := first.names.filter fun name => declared.all fun other => other.contains name
    shared.foldl (fun unified name =>
      unified.add context.schema name (declared.filterMap fun other => other.get? name)) .empty

/-- The variables that all operations which use the fragment of the given name declare,
unified. -/
def unifiedVariables (context : Context) (fragment : String) : UnifiedVariables :=
  context.unify (context.operationsReaching fragment)

end Context

end RelayCheck
