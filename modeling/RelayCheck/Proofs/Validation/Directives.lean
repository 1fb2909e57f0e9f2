import RelayCheck.Proofs.FragmentArguments.DirectiveRules
import RelayCheck.Proofs.Validation.Details
import RelayCheck.Proofs.Validation.Trail

/-!
# Directives on the walk

The directives that the walk of a document meets are those of the document, in the order in which
they are written: on operations and fragments, on declarations of variables, on selections at any
depth and on the parts of type systems. The schema has no part in this.

The module introduces:

- `Document.directiveUses`, the directives of a document with what they are applied to;
- `spreadsInOrder`, the spreads in selections, in the order in which they are written.

The main results are `Document.filterMap_directive?_events`, and what it comes to in a definition
for rules that look at the directives of spreads or of fragments only:
`Definition.flatMap_directiveUses_of_spread` and `Definition.flatMap_directiveUses_of_fragment`.
-/

namespace RelayCheck

/-! ## Directives in order -/

/-- The directives on selections, at any depth and in order. -/
def selectionUses : List Selection → List DirectiveUse
  | [] => []
  | .field field nested :: rest =>
    (Carrier.field field).uses field.directives ++ selectionUses nested ++ selectionUses rest
  | .spread spread :: rest =>
    (Carrier.spread spread).uses spread.directives ++ selectionUses rest
  | .inlineFragment fragment nested :: rest =>
    (Carrier.inlineFragment fragment).uses fragment.directives ++ selectionUses nested
      ++ selectionUses rest

/-- The directives on the declaration of a variable. -/
def VariableDefinition.directiveUses (declared : VariableDefinition) : List DirectiveUse :=
  (Carrier.variableDefinition declared).uses declared.directives

/-- The directives on the declaration of an argument or input field, at the given location. -/
def InputDefinition.directiveUses (location : DirectiveLocation) (declared : InputDefinition) :
    List DirectiveUse :=
  (Carrier.typeSystem location).uses declared.directives

/-- The directives on the declaration of a field, those on its arguments first. -/
def FieldDefinition.directiveUses (declared : FieldDefinition) : List DirectiveUse :=
  declared.arguments.flatMap (InputDefinition.directiveUses .argumentDefinition)
    ++ (Carrier.typeSystem .fieldDefinition).uses declared.directives

/-- The directives on the declaration of an enum value. -/
def EnumValueDefinition.directiveUses (declared : EnumValueDefinition) : List DirectiveUse :=
  (Carrier.typeSystem .enumValue).uses declared.directives

/-- The directives on a type and on its parts, where those on input fields have the given
location. -/
def TypeDefinition.directiveUses (inputLocation : DirectiveLocation) (type : TypeDefinition) :
    List DirectiveUse :=
  (Carrier.typeSystem (.ofType type.body.kind)).uses type.directives ++
    match type.body with
    | .scalar | .union _ => []
    | .object _ fields | .interface _ fields => fields.flatMap FieldDefinition.directiveUses
    | .enum values => values.flatMap EnumValueDefinition.directiveUses
    | .inputObject fields => fields.flatMap (InputDefinition.directiveUses inputLocation)

/-- The directives in a definition, in order. -/
def Definition.directiveUses : Definition → List DirectiveUse
  | .operation o =>
    o.variableDefinitions.flatMap VariableDefinition.directiveUses
      ++ (Carrier.operation o).uses o.directives ++ selectionUses o.selections
  | .fragment f => (Carrier.fragment f).uses f.directives ++ selectionUses f.selections
  | .schema s | .schemaExtension s => (Carrier.typeSystem .schema).uses s.directives
  | .type t => t.directiveUses .inputFieldDefinition
  | .typeExtension t => t.directiveUses .argumentDefinition
  | .directive d => d.arguments.flatMap (InputDefinition.directiveUses .argumentDefinition)

/-- The directives in a document, in order. -/
def Document.directiveUses (document : Document) : List DirectiveUse :=
  document.definitions.flatMap Definition.directiveUses

/-! ## Directives on the walk -/

section Walk

variable {schema : Schema}

/-- The walk of a node meets the node, if that is a directive, and then the directives of its
parts. -/
theorem filterMap_directive?_around (node : Node) (scope : Scope) (parts : List Event) :
    (around node scope parts).filterMap Event.directive? =
      (Event.directive? (.enter ⟨node, scope⟩)).toList ++ parts.filterMap Event.directive? := by
  have hleave : [Event.leave ⟨node, scope⟩].filterMap Event.directive? = [] := rfl
  rw [around, List.filterMap_cons, List.filterMap_append, hleave, List.append_nil]
  cases Event.directive? (.enter ⟨node, scope⟩) <;> rfl

/-- The walk of several things meets the directives of each. -/
theorem filterMap_directive?_flatMap {α : Type} {walk : α → List Event}
    {uses : α → List DirectiveUse} {items : List α}
    (h : ∀ item ∈ items, (walk item).filterMap Event.directive? = uses item) :
    (items.flatMap walk).filterMap Event.directive? = items.flatMap uses := by
  rw [List.filterMap_flatMap]
  exact List.flatMap_congr h

/-- There are no directives in values. -/
theorem Value.filterMap_directive?_events (value : Value) (scope : Scope) :
    (value.events schema scope).filterMap Event.directive? = [] := by
  rw [List.filterMap_eq_nil_iff]
  intro event hevent
  have hvalue := value.meetsOnly scope event hevent
  rcases event with ⟨node, scope⟩ | visit
  · cases node <;> first | rfl | cases hvalue
  · rfl

/-- There are no directives in defaults. -/
theorem filterMap_directive?_default (default : Option Value) (scope : Scope) :
    (default.toList.flatMap (Value.events schema scope)).filterMap Event.directive? = [] := by
  rw [filterMap_directive?_flatMap fun value _ => value.filterMap_directive?_events scope,
    List.flatMap_eq_nil_iff]
  exact fun _ _ => rfl

/-- There are no directives in arguments. -/
theorem filterMap_directive?_argumentEvents (arguments : List Argument) (scope : Scope) :
    (argumentEvents schema scope arguments).filterMap Event.directive? = [] := by
  rw [argumentEvents, List.filterMap_flatMap, List.flatMap_eq_nil_iff]
  intro argument _
  rw [Argument.events, filterMap_directive?_around, Value.filterMap_directive?_events]
  rfl

/-- There are no directives at names of types. -/
theorem filterMap_directive?_typeNameEvents (names : List Name) (scope : Scope) :
    (typeNameEvents scope names).filterMap Event.directive? = [] := by
  rw [typeNameEvents, List.filterMap_flatMap, List.flatMap_eq_nil_iff]
  exact fun _ _ => rfl

/-- There are no directives in types. -/
theorem filterMap_directive?_typeEvents (type : TypeRef Name) (scope : Scope) :
    (typeEvents scope type).filterMap Event.directive? = [] :=
  rfl

/-- The walk of the directives of a carrier meets them. -/
theorem filterMap_directive?_directiveEvents (carrier : Carrier) (directives : List Directive)
    (scope : Scope) :
    (directiveEvents schema scope carrier directives).filterMap Event.directive? =
      carrier.uses directives := by
  -- the arguments of a directive bring no further ones, so that each of them is met alone
  have huse : ∀ use ∈ carrier.uses directives,
      (use.events schema scope).filterMap Event.directive? = [use] := by
    intro use _
    rw [DirectiveUse.events, filterMap_directive?_around, filterMap_directive?_argumentEvents]
    rfl
  rw [directiveEvents, filterMap_directive?_flatMap huse, List.flatMap_singleton']

/-- The walk of selections meets the directives on them, in order. -/
theorem filterMap_directive?_selectionEvents :
    ∀ (selections : List Selection) (scope : Scope),
      (selectionEvents schema scope selections).filterMap Event.directive? =
        selectionUses selections
  | [], scope => by rw [selectionEvents, selectionUses, List.filterMap_nil]
  | .field field nested :: rest, scope => by
    rw [selectionEvents, Selection.events, selectionUses, List.filterMap_append,
      filterMap_directive?_around, List.filterMap_append, List.filterMap_append,
      filterMap_directive?_argumentEvents, filterMap_directive?_directiveEvents,
      filterMap_directive?_selectionEvents nested, filterMap_directive?_selectionEvents rest]
    rfl
  | .spread spread :: rest, scope => by
    rw [selectionEvents, Selection.events, selectionUses, List.filterMap_append,
      filterMap_directive?_around, filterMap_directive?_directiveEvents,
      filterMap_directive?_selectionEvents rest]
    rfl
  | .inlineFragment fragment nested :: rest, scope => by
    rw [selectionEvents, Selection.events, selectionUses, List.filterMap_append,
      filterMap_directive?_around, List.filterMap_append, List.filterMap_append,
      filterMap_directive?_typeNameEvents, filterMap_directive?_directiveEvents,
      filterMap_directive?_selectionEvents nested, filterMap_directive?_selectionEvents rest]
    rfl

/-- The walk of the declaration of a variable meets the directives on it. -/
theorem VariableDefinition.filterMap_directive?_events (declared : VariableDefinition)
    (scope : Scope) :
    (declared.events schema scope).filterMap Event.directive? = declared.directiveUses := by
  rw [events, filterMap_directive?_around, List.filterMap_append, List.filterMap_append,
    List.filterMap_append, Value.filterMap_directive?_events, filterMap_directive?_typeEvents,
    filterMap_directive?_default, filterMap_directive?_directiveEvents]
  rfl

/-- The walk of the declaration of an argument or input field meets the directives on it. -/
theorem InputDefinition.filterMap_directive?_events (location : DirectiveLocation)
    (declared : InputDefinition) (scope : Scope) :
    (declared.events schema scope location).filterMap Event.directive? =
      declared.directiveUses location := by
  rw [events, filterMap_directive?_around, List.filterMap_append, List.filterMap_append,
    filterMap_directive?_typeEvents, filterMap_directive?_default,
    filterMap_directive?_directiveEvents]
  rfl

/-- The walk of the declaration of a field meets the directives on it and on its arguments. -/
theorem FieldDefinition.filterMap_directive?_events (declared : FieldDefinition) (scope : Scope) :
    (declared.events schema scope).filterMap Event.directive? = declared.directiveUses := by
  rw [events, filterMap_directive?_around, List.filterMap_append, List.filterMap_append,
    filterMap_directive?_flatMap fun argument _ => argument.filterMap_directive?_events _ scope,
    filterMap_directive?_typeEvents, filterMap_directive?_directiveEvents, List.append_nil]
  rfl

/-- The walk of the declaration of an enum value meets the directives on it. -/
theorem EnumValueDefinition.filterMap_directive?_events (declared : EnumValueDefinition)
    (scope : Scope) :
    (declared.events schema scope).filterMap Event.directive? = declared.directiveUses := by
  rw [events, filterMap_directive?_around, filterMap_directive?_directiveEvents]
  rfl

/-- The walk of the parts of a type meets the directives on it and on them. -/
theorem TypeDefinition.filterMap_directive?_partEvents (inputLocation : DirectiveLocation)
    (type : TypeDefinition) (scope : Scope) :
    (type.partEvents schema scope inputLocation).filterMap Event.directive? =
      type.directiveUses inputLocation := by
  rw [partEvents, directiveUses]
  cases type.body with
  | scalar => rw [filterMap_directive?_directiveEvents, List.append_nil]
  | object interfaces fields | interface interfaces fields =>
    rw [List.filterMap_append, List.filterMap_append, filterMap_directive?_typeNameEvents,
      filterMap_directive?_directiveEvents,
      filterMap_directive?_flatMap fun field _ => field.filterMap_directive?_events scope,
      List.nil_append]
  | union members =>
    rw [List.filterMap_append, filterMap_directive?_directiveEvents,
      filterMap_directive?_typeNameEvents]
  | enum values =>
    rw [List.filterMap_append, filterMap_directive?_directiveEvents,
      filterMap_directive?_flatMap fun value _ => value.filterMap_directive?_events scope]
  | inputObject fields =>
    rw [List.filterMap_append, filterMap_directive?_directiveEvents,
      filterMap_directive?_flatMap fun field _ => field.filterMap_directive?_events _ scope]

/-- The walk of a definition meets its directives, in order. -/
theorem Definition.filterMap_directive?_events (definition : Definition) :
    (definition.events schema).filterMap Event.directive? = definition.directiveUses := by
  cases definition with
  | operation operation =>
    rw [events, Operation.events, filterMap_directive?_around, List.filterMap_append,
      List.filterMap_append,
      filterMap_directive?_flatMap fun declared _ => declared.filterMap_directive?_events _,
      filterMap_directive?_directiveEvents, filterMap_directive?_selectionEvents]
    rfl
  | fragment fragment =>
    rw [events, Fragment.events, filterMap_directive?_around, List.filterMap_append,
      List.filterMap_append, filterMap_directive?_typeNameEvents,
      filterMap_directive?_directiveEvents, filterMap_directive?_selectionEvents]
    rfl
  | schema declared | schemaExtension declared =>
    rw [events, filterMap_directive?_around, SchemaDefinition.partEvents, List.filterMap_append,
      filterMap_directive?_directiveEvents, filterMap_directive?_typeNameEvents, List.append_nil]
    rfl
  | type declared | typeExtension declared =>
    rw [events, filterMap_directive?_around, TypeDefinition.filterMap_directive?_partEvents]
    rfl
  | directive declared =>
    rw [events, filterMap_directive?_around,
      filterMap_directive?_flatMap fun argument _ => argument.filterMap_directive?_events _ _]
    rfl

/-- The walk of a document meets its directives, in order. -/
theorem Document.filterMap_directive?_events (document : Document) :
    (document.events schema).filterMap Event.directive? = document.directiveUses := by
  rw [events, filterMap_directive?_around,
    filterMap_directive?_flatMap fun definition _ => definition.filterMap_directive?_events]
  rfl

/-- As far as rules follow it, the walk of a document meets directives of the document. -/
theorem Document.mem_directiveUses_of_mem_walk {document : Document}
    {event : Event} (hevent : event ∈ document.walk schema) {use : DirectiveUse}
    (huse : event.directive? = some use) : use ∈ document.directiveUses := by
  rw [← filterMap_directive?_events ]
  exact List.mem_filterMap.mpr ⟨event, (document.isPrefix_walk schema).subset hevent, huse⟩

end Walk

/-! ## Directives of spreads and of fragments -/

/-- The spreads in selections, at any depth and in order. -/
def spreadsInOrder : List Selection → List Spread
  | [] => []
  | .field _ nested :: rest => spreadsInOrder nested ++ spreadsInOrder rest
  | .spread spread :: rest => spread :: spreadsInOrder rest
  | .inlineFragment _ nested :: rest => spreadsInOrder nested ++ spreadsInOrder rest

/-- Whether the carrier is a selection. -/
def Carrier.isSelection : Carrier → Bool
  | .field _ | .spread _ | .inlineFragment _ => true
  | .operation _ | .variableDefinition _ | .fragment _ | .typeSystem _ => false

/-- The directives that are used on a carrier are those that are applied to it. -/
theorem Carrier.map_directive_uses (carrier : Carrier) (directives : List Directive) :
    (carrier.uses directives).map DirectiveUse.directive = directives := by
  rw [uses, List.map_map]
  exact List.zipIdx_map_fst 0 directives

/-- Directives are used on the carrier that they are applied to. -/
theorem Carrier.carrier_of_mem_uses {carrier : Carrier} {directives : List Directive}
    {use : DirectiveUse} (huse : use ∈ carrier.uses directives) : use.carrier = carrier := by
  obtain ⟨_, -, rfl⟩ := List.mem_map.mp huse
  rfl

/-- The directives in selections are applied to selections. -/
theorem isSelection_of_mem_selectionUses {use : DirectiveUse} :
    ∀ {selections : List Selection}, use ∈ selectionUses selections →
      use.carrier.isSelection = true
  | [], huse => by
    rw [selectionUses] at huse
    cases huse
  | .field field nested :: rest, huse => by
    rw [selectionUses, List.mem_append, List.mem_append] at huse
    rcases huse with (hfield | hnested) | hrest
    · rw [Carrier.carrier_of_mem_uses hfield]
      rfl
    · exact isSelection_of_mem_selectionUses hnested
    · exact isSelection_of_mem_selectionUses hrest
  | .spread spread :: rest, huse => by
    rw [selectionUses, List.mem_append] at huse
    rcases huse with hspread | hrest
    · rw [Carrier.carrier_of_mem_uses hspread]
      rfl
    · exact isSelection_of_mem_selectionUses hrest
  | .inlineFragment fragment nested :: rest, huse => by
    rw [selectionUses, List.mem_append, List.mem_append] at huse
    rcases huse with (hfragment | hnested) | hrest
    · rw [Carrier.carrier_of_mem_uses hfragment]
      rfl
    · exact isSelection_of_mem_selectionUses hnested
    · exact isSelection_of_mem_selectionUses hrest

/-- The directives on types and their parts are applied to a type system. -/
theorem TypeDefinition.carrier_of_mem_directiveUses {location : DirectiveLocation}
    {type : TypeDefinition} {use : DirectiveUse} (huse : use ∈ type.directiveUses location) :
    ∃ location, use.carrier = .typeSystem location := by
  -- on the type itself, or on a part of its body and on the arguments of a part
  rcases List.mem_append.mp huse with huse | huse
  · exact ⟨_, Carrier.carrier_of_mem_uses huse⟩
  · cases hbody : type.body with
    | scalar | union members =>
      rw [hbody] at huse
      cases huse
    | object interfaces fields | interface interfaces fields =>
      rw [hbody] at huse
      obtain ⟨field, -, huse⟩ := List.mem_flatMap.mp huse
      rcases List.mem_append.mp huse with huse | huse
      · obtain ⟨argument, -, huse⟩ := List.mem_flatMap.mp huse
        exact ⟨_, Carrier.carrier_of_mem_uses huse⟩
      · exact ⟨_, Carrier.carrier_of_mem_uses huse⟩
    | enum values =>
      rw [hbody] at huse
      obtain ⟨value, -, huse⟩ := List.mem_flatMap.mp huse
      exact ⟨_, Carrier.carrier_of_mem_uses huse⟩
    | inputObject fields =>
      rw [hbody] at huse
      obtain ⟨field, -, huse⟩ := List.mem_flatMap.mp huse
      exact ⟨_, Carrier.carrier_of_mem_uses huse⟩

/-- The directives in a type system definition are applied to a type system. -/
theorem Definition.carrier_of_mem_directiveUses {definition : Definition}
    (htypeSystem : definition.isTypeSystem = true) {use : DirectiveUse}
    (huse : use ∈ definition.directiveUses) :
    ∃ location, use.carrier = .typeSystem location := by
  cases definition with
  | operation | fragment => cases htypeSystem
  | schema declared | schemaExtension declared => exact ⟨_, Carrier.carrier_of_mem_uses huse⟩
  | type declared | typeExtension declared =>
    exact TypeDefinition.carrier_of_mem_directiveUses huse
  | directive declared =>
    obtain ⟨argument, -, huse⟩ := List.mem_flatMap.mp huse
    exact ⟨_, Carrier.carrier_of_mem_uses huse⟩

section Looks

variable {β : Type} {look : DirectiveUse → List β}

/-- Where nothing is found at directives on a carrier, nothing is found at all of them. -/
theorem Carrier.flatMap_uses_eq_nil {carrier : Carrier}
    (hlook : ∀ use, use.carrier = carrier → look use = []) (directives : List Directive) :
    (carrier.uses directives).flatMap look = [] :=
  List.flatMap_eq_nil_iff.mpr fun use huse => hlook use (carrier_of_mem_uses huse)

/-- What is found at directives on spreads only is found in selections at their spreads. -/
theorem flatMap_selectionUses_of_spread
    (hlook : ∀ use, (∀ spread, use.carrier ≠ .spread spread) → look use = []) :
    ∀ selections : List Selection, (selectionUses selections).flatMap look =
      (spreadsInOrder selections).flatMap fun spread =>
        ((Carrier.spread spread).uses spread.directives).flatMap look
  | [] => by
    rw [selectionUses, spreadsInOrder]
    rfl
  | .field field nested :: rest => by
    have hfield : ((Carrier.field field).uses field.directives).flatMap look = [] :=
      Carrier.flatMap_uses_eq_nil (fun use huse => hlook use (by simp [huse])) _
    rw [selectionUses, spreadsInOrder, List.flatMap_append, List.flatMap_append, hfield,
      flatMap_selectionUses_of_spread hlook nested, flatMap_selectionUses_of_spread hlook rest,
      List.flatMap_append, List.nil_append]
  | .spread spread :: rest => by
    rw [selectionUses, spreadsInOrder, List.flatMap_append,
      flatMap_selectionUses_of_spread hlook rest, List.flatMap_cons]
  | .inlineFragment fragment nested :: rest => by
    have hfragment :
        ((Carrier.inlineFragment fragment).uses fragment.directives).flatMap look = [] :=
      Carrier.flatMap_uses_eq_nil (fun use huse => hlook use (by simp [huse])) _
    rw [selectionUses, spreadsInOrder, List.flatMap_append, List.flatMap_append, hfragment,
      flatMap_selectionUses_of_spread hlook nested, flatMap_selectionUses_of_spread hlook rest,
      List.flatMap_append, List.nil_append]

/-- Where nothing is found at directives on operations and declared variables, all that is found in
an operation is found in its selections. -/
theorem Definition.flatMap_directiveUses_operation
    (hoperation : ∀ use operation, use.carrier = .operation operation → look use = [])
    (hvariable : ∀ use declared, use.carrier = .variableDefinition declared → look use = [])
    (operation : Operation) :
    (Definition.operation operation).directiveUses.flatMap look =
      (selectionUses operation.selections).flatMap look := by
  -- of the three parts of an operation, only the selections are left
  have hdeclared : (operation.variableDefinitions.flatMap
      VariableDefinition.directiveUses).flatMap look = [] := by
    rw [List.flatMap_assoc, List.flatMap_eq_nil_iff]
    exact fun declared _ => Carrier.flatMap_uses_eq_nil (fun use => hvariable use declared) _
  have hown : ((Carrier.operation operation).uses operation.directives).flatMap look = [] :=
    Carrier.flatMap_uses_eq_nil (fun use => hoperation use operation) _
  rw [directiveUses, List.flatMap_append, List.flatMap_append, hdeclared, hown]
  rfl

/-- Where nothing is found at directives on type systems, nothing is found in their definitions. -/
theorem Definition.flatMap_directiveUses_eq_nil
    (hlook : ∀ use location, use.carrier = .typeSystem location → look use = [])
    {definition : Definition} (htypeSystem : definition.isTypeSystem = true) :
    definition.directiveUses.flatMap look = [] := by
  refine List.flatMap_eq_nil_iff.mpr fun use huse => ?_
  obtain ⟨location, hlocation⟩ := carrier_of_mem_directiveUses htypeSystem huse
  exact hlook use location hlocation

/-- What is found at directives on spreads only is found in a definition at its spreads. -/
theorem Definition.flatMap_directiveUses_of_spread
    (hlook : ∀ use, (∀ spread, use.carrier ≠ .spread spread) → look use = [])
    (definition : Definition) :
    definition.directiveUses.flatMap look =
      (spreadsInOrder definition.selections).flatMap fun spread =>
        ((Carrier.spread spread).uses spread.directives).flatMap look := by
  cases definition with
  | operation operation =>
    rw [flatMap_directiveUses_operation (fun use _ h => hlook use (by simp [h]))
      (fun use _ h => hlook use (by simp [h])), flatMap_selectionUses_of_spread hlook, selections]
  | fragment fragment =>
    have hfragment : ((Carrier.fragment fragment).uses fragment.directives).flatMap look = [] :=
      Carrier.flatMap_uses_eq_nil (fun use h => hlook use (by simp [h])) _
    rw [directiveUses, List.flatMap_append, hfragment, flatMap_selectionUses_of_spread hlook,
      selections, List.nil_append]
  | schema | schemaExtension | type | typeExtension | directive =>
    show _ = (spreadsInOrder []).flatMap _
    rw [spreadsInOrder]
    exact flatMap_directiveUses_eq_nil (fun use _ h => hlook use (by simp [h])) rfl

/-- What is found at directives on fragments only is found in a definition if that is a
fragment. -/
theorem Definition.flatMap_directiveUses_of_fragment
    (hlook : ∀ use, (∀ fragment, use.carrier ≠ .fragment fragment) → look use = [])
    (definition : Definition) :
    definition.directiveUses.flatMap look =
      definition.fragment?.toList.flatMap fun fragment =>
        ((Carrier.fragment fragment).uses fragment.directives).flatMap look := by
  -- what is applied to a selection is not applied to a fragment
  have hselections (selections : List Selection) :
      (selectionUses selections).flatMap look = [] := by
    refine List.flatMap_eq_nil_iff.mpr fun use huse => hlook use fun fragment hfragment => ?_
    have hselection := isSelection_of_mem_selectionUses huse
    rw [hfragment] at hselection
    cases hselection
  cases definition with
  | operation operation =>
    exact (flatMap_directiveUses_operation (fun use _ h => hlook use (by simp [h]))
      (fun use _ h => hlook use (by simp [h])) operation).trans (hselections _)
  | fragment fragment =>
    rw [directiveUses, List.flatMap_append, hselections]
    rfl
  | schema | schemaExtension | type | typeExtension | directive =>
    exact flatMap_directiveUses_eq_nil (fun use _ h => hlook use (by simp [h])) rfl

end Looks

end RelayCheck
