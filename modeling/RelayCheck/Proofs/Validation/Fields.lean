import RelayCheck.Proofs.Validation.Details

/-!
# Fields on the walk

The fields that the walk of a document meets are those of its operations and fragments, in the order
in which they are written. The type of a field is what the schema says about it where it is
selected: on the type of the enclosing field or inline fragment, or, at the top, of the operation or
fragment.

The module introduces:

- `Schema.fieldType?`, `Schema.conditionType?` and `Schema.rootType?`, the types of fields, of
  fragments and of operations;
- `FieldPlace`, a field with its type, and `Document.fieldPlaces`, those of a document.

The main result is `Document.filterMap_fieldPlace?_events`.
-/

namespace RelayCheck

/-! ## Types of selections -/

namespace Schema

/-- The composite type to which results of the given type belong, if it is one. -/
def compositeType? (schema : Schema) (output : Option (TypeRef String)) : Option NamedType :=
  (output.bind fun type => schema.type? type.baseName).filter NamedType.isComposite

/-- The type of the field of the given name, where it is selected of results of the given type. -/
def fieldType? (schema : Schema) (output : Option (TypeRef String)) (name : String) :
    Option (TypeRef String) :=
  let known := (schema.compositeType? output).bind fun parent => schema.field? parent name
  (known.map OutputField.type).bind schema.outputType?

/-- The type of the results in a fragment: that of its condition, or, if it has none, that of the
results around it, apart from lists and null. -/
def conditionType? (schema : Schema) (output : Option (TypeRef String)) :
    Option Name → Option (TypeRef String)
  | some condition => schema.outputType? (.named condition.text)
  | none => output.bind fun type => schema.outputType? (.named type.baseName)

/-- The type of the results of operations of a kind. -/
def rootType? (schema : Schema) (kind : OperationKind) : Option (TypeRef String) :=
  (((schema.root? kind).bind schema.type?).filter NamedType.isObject).map fun type =>
    .named type.name

end Schema

/-! ## Fields in order -/

/-- A field where it stands in a document. -/
structure FieldPlace where
  /-- The field. -/
  field : Field
  /-- What is selected of it. -/
  selections : List Selection
  /-- Its type, if that is known to be an output type. -/
  type : Option (TypeRef String)

/-- The fields in selections of results of the given type, at any depth and in order. -/
def fieldPlaces (schema : Schema) (output : Option (TypeRef String)) :
    List Selection → List FieldPlace
  | [] => []
  | .field field nested :: rest =>
    let type := schema.fieldType? output field.name.text
    ⟨field, nested, type⟩ :: (fieldPlaces schema type nested ++ fieldPlaces schema output rest)
  | .spread _ :: rest => fieldPlaces schema output rest
  | .inlineFragment fragment nested :: rest =>
    fieldPlaces schema (schema.conditionType? output fragment.typeCondition) nested
      ++ fieldPlaces schema output rest

/-- The fields of a definition, which are those of an operation or fragment. -/
def Definition.fieldPlaces (schema : Schema) : Definition → List FieldPlace
  | .operation o => RelayCheck.fieldPlaces schema (schema.rootType? o.kind) o.selections
  | .fragment f =>
    RelayCheck.fieldPlaces schema (schema.conditionType? none (some f.typeCondition)) f.selections
  | _ => []

/-- The fields of a document, in order. -/
def Document.fieldPlaces (schema : Schema) (document : Document) : List FieldPlace :=
  document.definitions.flatMap (Definition.fieldPlaces schema)

/-! ## Fields on the walk -/

/-- The field that is entered, with its type. -/
def Event.fieldPlace? : Event → Option FieldPlace
  | .enter ⟨.field field selections, scope⟩ => some ⟨field, selections, scope.output⟩
  | _ => none

/-- There are no fields among details. -/
theorem AllDetails.filterMap_fieldPlace?_eq_nil {events : List Event} (h : AllDetails events) :
    events.filterMap Event.fieldPlace? = [] := by
  rw [List.filterMap_eq_nil_iff]
  intro event hevent
  have hdetail := h event hevent
  rcases event with ⟨node, scope⟩ | visit
  · cases node <;> first | rfl | cases hdetail
  · rfl

section Walk

variable {schema : Schema}

/-- The walk of a node with details and selections meets the node, if that is a field, and then the
fields of the selections. -/
theorem filterMap_fieldPlace?_around {details : List Event} (hdetails : AllDetails details)
    (node : Node) (scope : Scope) (events : List Event) :
    (around node scope (details ++ events)).filterMap Event.fieldPlace? =
      (Event.fieldPlace? (.enter ⟨node, scope⟩)).toList ++ events.filterMap Event.fieldPlace? := by
  have hleave : [Event.leave ⟨node, scope⟩].filterMap Event.fieldPlace? = [] := rfl
  rw [around, List.filterMap_cons, List.filterMap_append, List.filterMap_append, hleave,
    hdetails.filterMap_fieldPlace?_eq_nil, List.append_nil, List.nil_append]
  cases Event.fieldPlace? (.enter ⟨node, scope⟩) <;> rfl

/-- The walk of selections meets their fields, in order. -/
theorem filterMap_fieldPlace?_selectionEvents :
    ∀ (selections : List Selection) (scope : Scope),
      scope.parent = schema.compositeType? scope.output →
        (selectionEvents schema scope selections).filterMap Event.fieldPlace? =
          fieldPlaces schema scope.output selections
  | [], scope, hparent => by
    rw [selectionEvents, fieldPlaces, List.filterMap_nil]
  | .field field nested :: rest, scope, hparent => by
    let inner := scope.enterField schema field
    -- the scope looks the field up in its parent, which is the type of the results around
    have houtput : inner.output = schema.fieldType? scope.output field.name.text := by
      rw [Schema.fieldType?, ← hparent]
      rfl
    have hdetails : AllDetails (argumentEvents schema inner field.arguments
        ++ directiveEvents schema inner (.field field) field.directives) :=
      .append (argumentEvents_allDetails _ _) (directiveEvents_allDetails _ _ _)
    have hnested := filterMap_fieldPlace?_selectionEvents nested (inner.enterSelections schema) rfl
    have hrest := filterMap_fieldPlace?_selectionEvents rest scope hparent
    rw [selectionEvents, Selection.events, List.filterMap_append,
      filterMap_fieldPlace?_around hdetails, hnested, hrest, fieldPlaces, ← houtput]
    rfl
  | .spread spread :: rest, scope, hparent => by
    have hdetails : AllDetails (directiveEvents schema scope (.spread spread) spread.directives) :=
      directiveEvents_allDetails _ _ _
    have hspread := filterMap_fieldPlace?_around hdetails (.spread spread) scope []
    have hrest := filterMap_fieldPlace?_selectionEvents rest scope hparent
    rw [List.append_nil] at hspread
    rw [selectionEvents, Selection.events, List.filterMap_append, hspread, hrest, fieldPlaces]
    rfl
  | .inlineFragment fragment nested :: rest, scope, hparent => by
    let inner := scope.enterFragment schema fragment.typeCondition
    have houtput : inner.output = schema.conditionType? scope.output fragment.typeCondition := by
      cases hcondition : fragment.typeCondition <;> cases hscope : scope.output <;>
        simp [inner, Scope.enterFragment, Schema.conditionType?, hcondition, hscope]
    have hdetails : AllDetails (typeNameEvents inner fragment.typeCondition.toList
        ++ directiveEvents schema inner (.inlineFragment fragment) fragment.directives) :=
      .append (typeNameEvents_allDetails _ _) (directiveEvents_allDetails _ _ _)
    have hnested := filterMap_fieldPlace?_selectionEvents nested (inner.enterSelections schema) rfl
    have hrest := filterMap_fieldPlace?_selectionEvents rest scope hparent
    rw [selectionEvents, Selection.events, List.filterMap_append,
      filterMap_fieldPlace?_around hdetails, hnested, hrest, fieldPlaces, ← houtput]
    rfl

/-- No field is selected in a type system definition. -/
theorem Definition.filterMap_fieldPlace?_events_of_isTypeSystem {definition : Definition}
    (htypeSystem : definition.isTypeSystem = true) :
    (definition.events schema).filterMap Event.fieldPlace? = definition.fieldPlaces schema := by
  obtain ⟨scope, parts, hevents, hparts⟩ := events_eq_around_details htypeSystem
  have hnone : definition.fieldPlaces schema = [] := by
    cases definition <;> first | rfl | cases htypeSystem
  rw [hevents, ← List.append_nil parts, filterMap_fieldPlace?_around hparts, hnone]
  rfl

/-- The walk of a definition meets its fields, in order. -/
theorem Definition.filterMap_fieldPlace?_events (definition : Definition) :
    (definition.events schema).filterMap Event.fieldPlace? = definition.fieldPlaces schema := by
  cases definition with
  | operation operation =>
    let scope := Scope.enterOperation schema {} operation
    -- fields are met among the selections, and not before them
    have hdetails : AllDetails
        (operation.variableDefinitions.flatMap (VariableDefinition.events schema scope)
          ++ directiveEvents schema scope (.operation operation) operation.directives) :=
      .append (.flatMap fun declared _ => declared.allDetails _) (directiveEvents_allDetails _ _ _)
    have hselections := filterMap_fieldPlace?_selectionEvents operation.selections
      (scope.enterSelections schema) rfl
    exact (filterMap_fieldPlace?_around hdetails _ _ _).trans hselections
  | fragment fragment =>
    let scope := Scope.enterFragment schema {} (some fragment.typeCondition)
    have hdetails : AllDetails (typeNameEvents scope [fragment.typeCondition]
        ++ directiveEvents schema scope (.fragment fragment) fragment.directives) :=
      .append (typeNameEvents_allDetails _ _) (directiveEvents_allDetails _ _ _)
    have hselections := filterMap_fieldPlace?_selectionEvents fragment.selections
      (scope.enterSelections schema) rfl
    exact (filterMap_fieldPlace?_around hdetails _ _ _).trans hselections
  | schema declared | schemaExtension declared | type declared | typeExtension declared
  | directive declared => exact filterMap_fieldPlace?_events_of_isTypeSystem rfl

/-- The walk of a document meets its fields, in order. -/
theorem Document.filterMap_fieldPlace?_events (document : Document) :
    (document.events schema).filterMap Event.fieldPlace? = document.fieldPlaces schema := by
  have haround := filterMap_fieldPlace?_around .nil (.document document) {}
    (document.definitions.flatMap (Definition.events schema))
  rw [events, fieldPlaces, ← List.nil_append (document.definitions.flatMap _), haround,
    List.filterMap_flatMap]
  exact List.flatMap_congr fun definition _ => definition.filterMap_fieldPlace?_events

end Walk

end RelayCheck
