import RelayCheck.Proofs.Validation.Walk

/-!
# The walk outside of selections

Fields, spreads and inline fragments are met in selections only. What else the walk meets inside of
a definition are details: its variables and directives, the arguments and values in these and on
fields, names of types, and everything inside of type system definitions.

The module introduces `MeetsOnly` for walks that meet nodes of one kind only, with the kinds
`Node.isInValue` and `Node.isDetail`.

The main results are `Value.meetsOnly`, `directiveEvents_allDetails`,
`VariableDefinition.allDetails` and `Definition.events_eq_around_details`.
-/

namespace RelayCheck

/-- Whether a node stands for no document, no definition and no selection. -/
def Node.isDetail : Node → Bool
  | .document _ | .definition _ | .field _ _ | .spread _ | .inlineFragment _ _ => false
  | .variableDefinition _ | .typeName _ | .directive _ | .argument _ | .value _ | .objectField _ _
  | .typePart _ => true

/-- Whether a node stands for a value or a field of one. -/
def Node.isInValue : Node → Bool
  | .value _ | .objectField _ _ => true
  | _ => false

/-- Values are details. -/
theorem Node.isDetail_of_isInValue {node : Node} (h : node.isInValue = true) :
    node.isDetail = true := by
  cases node <;> first | rfl | cases h

/-- All nodes that the walk meets are of the given kind. -/
def MeetsOnly (kind : Node → Bool) (events : List Event) : Prop :=
  ∀ event ∈ events, kind event.visit.node = true

namespace MeetsOnly

variable {kind other : Node → Bool} {events more : List Event}

/-- Nothing is met where there is nothing. -/
theorem nil : MeetsOnly kind [] := List.forall_mem_nil _

/-- Two walks one after the other. -/
theorem append (h : MeetsOnly kind events) (hmore : MeetsOnly kind more) :
    MeetsOnly kind (events ++ more) :=
  List.forall_mem_append.mpr ⟨h, hmore⟩

/-- The walks of several things. -/
theorem flatMap {α : Type} {walk : α → List Event} {items : List α}
    (h : ∀ item ∈ items, MeetsOnly kind (walk item)) : MeetsOnly kind (items.flatMap walk) := by
  intro event hevent
  obtain ⟨item, hitem, hwalk⟩ := List.mem_flatMap.mp hevent
  exact h item hitem event hwalk

/-- The walk of a node around the walk of its parts. -/
theorem around {node : Node} {scope : Scope} (hnode : kind node = true)
    (h : MeetsOnly kind events) : MeetsOnly kind (RelayCheck.around node scope events) := by
  rw [RelayCheck.around, MeetsOnly, List.forall_mem_cons, List.forall_mem_append,
    List.forall_mem_singleton]
  exact ⟨hnode, h, hnode⟩

/-- Nodes of one kind may all be of another. -/
theorem imp (hkind : ∀ {node}, kind node = true → other node = true)
    (h : MeetsOnly kind events) : MeetsOnly other events :=
  fun event hevent => hkind (h event hevent)

end MeetsOnly

/-- The walk meets details only. -/
abbrev AllDetails (events : List Event) : Prop := MeetsOnly Node.isDetail events

section Walk

variable {schema : Schema}

mutual

/-- Inside of values, there are values only. -/
theorem Value.meetsOnly :
    ∀ (value : Value) (scope : Scope), MeetsOnly Node.isInValue (value.events schema scope)
  | .list items pos, scope => by
    rw [Value.events]
    exact .around rfl (itemEvents_meetsOnly items _)
  | .object fields pos, scope => by
    rw [Value.events]
    exact .around rfl (fieldEvents_meetsOnly fields scope _)
  | .variable name pos, scope => by
    rw [Value.events]
    exact .around rfl .nil
  | .int text pos, scope => by
    rw [Value.events]
    exact .around rfl .nil
  | .float text pos, scope => by
    rw [Value.events]
    exact .around rfl .nil
  | .string content block pos, scope => by
    rw [Value.events]
    exact .around rfl .nil
  | .boolean value pos, scope => by
    rw [Value.events]
    exact .around rfl .nil
  | .null pos, scope => by
    rw [Value.events]
    exact .around rfl .nil
  | .enum name pos, scope => by
    rw [Value.events]
    exact .around rfl .nil

/-- Inside of the items of a list, there are values only. -/
theorem itemEvents_meetsOnly :
    ∀ (items : List Value) (scope : Scope), MeetsOnly Node.isInValue (itemEvents schema scope items)
  | [], scope => by
    rw [itemEvents]
    exact .nil
  | item :: rest, scope => by
    rw [itemEvents]
    exact (Value.meetsOnly item scope).append (itemEvents_meetsOnly rest scope)

/-- Inside of the fields of an object, there are values only. -/
theorem fieldEvents_meetsOnly :
    ∀ (fields : List (Name × Value)) (scope : Scope) (earlier : List Name),
      MeetsOnly Node.isInValue (fieldEvents schema scope earlier fields)
  | [], scope, earlier => by
    rw [fieldEvents]
    exact .nil
  | (name, value) :: rest, scope, earlier => by
    rw [fieldEvents]
    exact (MeetsOnly.around rfl (Value.meetsOnly value _)).append
      (fieldEvents_meetsOnly rest scope _)

end

/-- Values contain details only. -/
theorem Value.allDetails (value : Value) (scope : Scope) :
    AllDetails (value.events schema scope) :=
  (value.meetsOnly scope).imp Node.isDetail_of_isInValue

/-- Arguments contain details only. -/
theorem argumentEvents_allDetails (arguments : List Argument) (scope : Scope) :
    AllDetails (argumentEvents schema scope arguments) :=
  .flatMap fun argument _ => .around rfl (Value.allDetails argument.value _)

/-- Directives contain details only. -/
theorem directiveEvents_allDetails (carrier : Carrier) (directives : List Directive)
    (scope : Scope) : AllDetails (directiveEvents schema scope carrier directives) :=
  .flatMap fun _ _ => .around rfl (argumentEvents_allDetails _ _)

/-- Names of types are details. -/
theorem typeNameEvents_allDetails (names : List Name) (scope : Scope) :
    AllDetails (typeNameEvents scope names) :=
  .flatMap fun _ _ => .around rfl .nil

/-- Declarations of variables contain details only. -/
theorem VariableDefinition.allDetails (declared : VariableDefinition) (scope : Scope) :
    AllDetails (declared.events schema scope) := by
  refine .around rfl (.append (.append (.append ?_ ?_) ?_) ?_)
  · exact Value.allDetails _ _
  · exact .around rfl .nil
  · exact .flatMap fun value _ => Value.allDetails value _
  · exact directiveEvents_allDetails _ _ _

/-! ## Type systems -/

/-- Declarations of arguments and input fields contain details only. -/
theorem InputDefinition.allDetails (location : DirectiveLocation) (declared : InputDefinition)
    (scope : Scope) : AllDetails (declared.events schema scope location) := by
  refine .around rfl (.append (.append ?_ ?_) ?_)
  · exact .around rfl .nil
  · exact .flatMap fun value _ => Value.allDetails value scope
  · exact directiveEvents_allDetails _ _ scope

/-- Declarations of fields contain details only. -/
theorem FieldDefinition.allDetails (declared : FieldDefinition) (scope : Scope) :
    AllDetails (declared.events schema scope) := by
  refine .around rfl (.append (.append ?_ ?_) ?_)
  · exact .flatMap fun argument _ => InputDefinition.allDetails _ argument scope
  · exact .around rfl .nil
  · exact directiveEvents_allDetails _ _ scope

/-- Type definitions contain details only. -/
theorem TypeDefinition.allDetails (inputLocation : DirectiveLocation) (type : TypeDefinition)
    (scope : Scope) : AllDetails (type.partEvents schema scope inputLocation) := by
  have happlied (location : DirectiveLocation) :
      AllDetails (directiveEvents schema scope (.typeSystem location) type.directives) :=
    directiveEvents_allDetails _ _ scope
  rw [TypeDefinition.partEvents]
  cases type.body with
  | scalar => exact happlied _
  | object interfaces fields | interface interfaces fields =>
    exact .append (.append (typeNameEvents_allDetails _ scope) (happlied _))
      (.flatMap fun field _ => FieldDefinition.allDetails field scope)
  | union members => exact (happlied _).append (typeNameEvents_allDetails _ scope)
  | enum values =>
    refine (happlied _).append (.flatMap fun value _ => .around rfl ?_)
    exact directiveEvents_allDetails _ _ scope
  | inputObject fields =>
    exact (happlied _).append (.flatMap fun field _ => InputDefinition.allDetails _ field scope)

/-- A type system definition is met itself, and nothing but details inside of it. -/
theorem Definition.events_eq_around_details {definition : Definition}
    (htypeSystem : definition.isTypeSystem = true) :
    ∃ scope parts, definition.events schema = around (.definition definition) scope parts ∧
      AllDetails parts := by
  cases definition with
  | operation | fragment => cases htypeSystem
  | schema declared | schemaExtension declared =>
    exact ⟨_, _, rfl, .append (directiveEvents_allDetails _ _ _) (typeNameEvents_allDetails _ _)⟩
  | type declared | typeExtension declared =>
    exact ⟨_, _, rfl, TypeDefinition.allDetails _ declared _⟩
  | directive declared =>
    exact ⟨_, _, rfl, .flatMap fun argument _ => InputDefinition.allDetails _ argument _⟩

end Walk

end RelayCheck
