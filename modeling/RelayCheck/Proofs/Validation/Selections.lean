import RelayCheck.Proofs.Fragments.Reachability
import RelayCheck.Proofs.Validation.Details

/-!
# Selections on the walk

The fields and inline fragments that the walk of a definition meets are those of its selections, and
what is spread below them is spread in the definition.

The module introduces:

- `Node.selections`, what is selected below a node;
- `SpreadsAdmitted`, walks on which nothing but fragments of admitted names is spread below any
  node.

The main result is `Definition.spreadsAdmitted`.
-/

namespace RelayCheck

/-- What is selected below a node that the walk meets inside of a definition. -/
def Node.selections : Node → List Selection
  | .field _ selections | .inlineFragment _ selections => selections
  | _ => []

/-- Below every node of the walk, only fragments of admitted names are spread. -/
def SpreadsAdmitted (admitted : String → Prop) (events : List Event) : Prop :=
  ∀ event ∈ events, ∀ name, SpreadIn name event.visit.node.selections → admitted name

namespace SpreadsAdmitted

variable {admitted : String → Prop} {events more : List Event}

/-- Nothing is spread where there is nothing. -/
theorem nil : SpreadsAdmitted admitted [] := List.forall_mem_nil _

/-- Two walks one after the other. -/
theorem append (h : SpreadsAdmitted admitted events) (hmore : SpreadsAdmitted admitted more) :
    SpreadsAdmitted admitted (events ++ more) :=
  List.forall_mem_append.mpr ⟨h, hmore⟩

/-- The walk of a node around the walk of its parts. -/
theorem around {node : Node} {scope : Scope}
    (hnode : ∀ name, SpreadIn name node.selections → admitted name)
    (h : SpreadsAdmitted admitted events) :
    SpreadsAdmitted admitted (RelayCheck.around node scope events) := by
  rw [RelayCheck.around, SpreadsAdmitted, List.forall_mem_cons, List.forall_mem_append,
    List.forall_mem_singleton]
  exact ⟨hnode, h, hnode⟩

/-- The walk of a node below which nothing is selected. -/
theorem around_of_selections_eq_nil {node : Node} {scope : Scope} (hnode : node.selections = [])
    (h : SpreadsAdmitted admitted events) :
    SpreadsAdmitted admitted (RelayCheck.around node scope events) := by
  refine around (fun name hname => ?_) h
  rw [hnode] at hname
  cases hname

/-- Nothing is spread below details. -/
theorem of_allDetails (h : AllDetails events) : SpreadsAdmitted admitted events := by
  intro event hevent name hname
  have hdetail := h event hevent
  cases hnode : event.visit.node with
  | document | definition | field | spread | inlineFragment =>
    simp [hnode, Node.isDetail] at hdetail
  | variableDefinition | typeName | directive | argument | value | objectField | typePart =>
    rw [hnode] at hname
    cases hname

end SpreadsAdmitted

section Walk

variable {admitted : String → Prop} {schema : Schema}

/-- If the names that selections spread are admitted, so are those below any node in them. -/
theorem selectionEvents_spreadsAdmitted :
    ∀ (selections : List Selection) (scope : Scope),
      (∀ name, SpreadIn name selections → admitted name) →
        SpreadsAdmitted admitted (selectionEvents schema scope selections)
  | [], scope, h => by
    rw [selectionEvents]
    exact .nil
  | .field field nested :: rest, scope, h => by
    have hnested (name : String) (hname : SpreadIn name nested) : admitted name :=
      h name (.inField hname)
    rw [selectionEvents, Selection.events]
    refine .append (.around hnested (.append (.append ?_ ?_) ?_)) ?_
    · exact .of_allDetails (argumentEvents_allDetails _ _)
    · exact .of_allDetails (directiveEvents_allDetails _ _ _)
    · exact selectionEvents_spreadsAdmitted nested _ hnested
    · exact selectionEvents_spreadsAdmitted rest scope fun name hname => h name (.later hname)
  | .spread spread :: rest, scope, h => by
    rw [selectionEvents, Selection.events]
    refine .append (.around_of_selections_eq_nil rfl ?_) ?_
    · exact .of_allDetails (directiveEvents_allDetails _ _ _)
    · exact selectionEvents_spreadsAdmitted rest scope fun name hname => h name (.later hname)
  | .inlineFragment fragment nested :: rest, scope, h => by
    have hnested (name : String) (hname : SpreadIn name nested) : admitted name :=
      h name (.inInline hname)
    rw [selectionEvents, Selection.events]
    refine .append (.around hnested (.append (.append ?_ ?_) ?_)) ?_
    · exact .of_allDetails (typeNameEvents_allDetails _ _)
    · exact .of_allDetails (directiveEvents_allDetails _ _ _)
    · exact selectionEvents_spreadsAdmitted nested _ hnested
    · exact selectionEvents_spreadsAdmitted rest scope fun name hname => h name (.later hname)

/-- If the names that an operation or fragment spreads are admitted, so are those below any node in
it. -/
theorem Definition.spreadsAdmitted {definition : Definition}
    (hexecutable : definition.isTypeSystem = false)
    (h : ∀ name, SpreadIn name definition.selections → admitted name) :
    SpreadsAdmitted admitted (definition.events schema) := by
  cases definition with
  | operation operation =>
    refine .around_of_selections_eq_nil rfl (.append (.of_allDetails (.append ?_ ?_)) ?_)
    · exact .flatMap fun declared _ => declared.allDetails _
    · exact directiveEvents_allDetails _ _ _
    · exact selectionEvents_spreadsAdmitted _ _ h
  | fragment fragment =>
    refine .around_of_selections_eq_nil rfl (.append (.of_allDetails (.append ?_ ?_)) ?_)
    · exact typeNameEvents_allDetails _ _
    · exact directiveEvents_allDetails _ _ _
    · exact selectionEvents_spreadsAdmitted _ _ h
  | schema | schemaExtension | type | typeExtension | directive => cases hexecutable

end Walk

end RelayCheck
