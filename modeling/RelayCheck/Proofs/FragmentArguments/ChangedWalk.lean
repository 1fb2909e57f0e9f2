import RelayCheck.Proofs.FragmentArguments.DirectiveRules
import RelayCheck.Proofs.FragmentArguments.PlainUsages
import RelayCheck.Proofs.Language.RenamedVariables

/-!
# The walk of a changed document

A document may be changed without changing the way in which it is walked. Variables may get other
names, strings other contents, and directives may be applied to something else, as long as the
schema has the same to say about every place. Then the walk meets what has become of the things that
it met before, in the same order, and each variable stands where the schema expects the same.

The module introduces:

- `Change`, what may become of variables, directives and definitions;
- `Event.Changed` and `WalkChanged`, the walk event by event;
- `Value.Changed`, `Argument.Changed` and `DirectiveUse.ChangedIn`, values, arguments and directives
  that are changed in such a way.

The main results are `walkChanged_value`, `walkChanged_arguments` and `walkChanged_directives`.
-/

namespace RelayCheck

/-! ## Events -/

/-- What may become of the parts of a document. -/
structure Change where
  /-- The new names of variables. -/
  rename : String → String
  /-- The first directive, where it is applied, may become the second. -/
  use : DirectiveUse → DirectiveUse → Prop
  /-- The first definition may become the second. -/
  definition : Definition → Definition → Prop

/-- An event and what becomes of it: the same variable at the same position of the schema, by its
new name, what has become of a directive or definition, and the same argument of a field. -/
structure Event.Changed (change : Change) (event other : Event) : Prop where
  plainUsage?_eq : ∀ fragment, plainUsage? fragment other =
    (plainUsage? fragment event).map fun usage => { usage with name := change.rename usage.name }
  directive? : Option.Rel change.use event.directive? other.directive?
  definition? : Option.Rel change.definition event.definition? other.definition?
  leftDefinition? : Option.Rel change.definition event.leftDefinition? other.leftDefinition?
  fieldArgument_eq : other.fieldArgument = event.fieldArgument

/-- A walk and what becomes of it, event by event. -/
abbrev WalkChanged (change : Change) : List Event → List Event → Prop :=
  List.Forall₂ (Event.Changed change)

/-- Whether nothing that may change is met at a node: no variable, no directive, no definition and
no argument. -/
def Node.isSilent : Node → Bool
  | .definition _ | .directive _ | .argument _ | .value (.variable ..) => false
  | _ => true

section Events

variable {change : Change}

/-- Entering a node where nothing that may change is met becomes entering another such node. -/
theorem Node.changed_of_isSilent {node other : Node} {scope scope' : Scope}
    (hnode : node.isSilent = true) (hother : other.isSilent = true) :
    Event.Changed change (.enter ⟨node, scope⟩) (.enter ⟨other, scope'⟩) := by
  -- a silent node shows none of what changes may be about, before and after
  have hsilent {node : Node} (hnode : node.isSilent = true) (scope : Scope) :
      (∀ fragment, plainUsage? fragment (.enter ⟨node, scope⟩) = none) ∧
        Event.directive? (.enter ⟨node, scope⟩) = none ∧
        Event.definition? (.enter ⟨node, scope⟩) = none ∧
        Event.fieldArgument (.enter ⟨node, scope⟩) = [] := by
    cases node with
    | definition | directive | argument => cases hnode
    | value value =>
      cases value with
      | «variable» => cases hnode
      | list | object | int | float | string | boolean | null | enum =>
        exact ⟨fun _ => rfl, rfl, rfl, rfl⟩
    | document | variableDefinition | typeName | field | spread | inlineFragment | objectField
    | typePart => exact ⟨fun _ => rfl, rfl, rfl, rfl⟩
  obtain ⟨husage, hdirective, hdefinition, hargument⟩ := hsilent hnode scope
  obtain ⟨husage', hdirective', hdefinition', hargument'⟩ := hsilent hother scope'
  constructor
  case plainUsage?_eq =>
    intro fragment
    rw [husage, husage']
    rfl
  case directive? =>
    rw [hdirective, hdirective']
    exact .none
  case definition? =>
    rw [hdefinition, hdefinition']
    exact .none
  case leftDefinition? => exact .none
  case fieldArgument_eq => rw [hargument, hargument']

/-- Where nothing has to change, an event may stay as it is. -/
theorem Event.Changed.refl (hrename : change.rename = id) {event : Event}
    (huse : ∀ use, event.directive? = some use → change.use use use)
    (hdefinition : ∀ definition, event.visit.node = .definition definition →
      change.definition definition definition) : event.Changed change event where
  plainUsage?_eq fragment := by
    rw [hrename]
    exact Option.map_id'.symm
  directive? := by
    cases hentered : event.directive? with
    | none => exact .none
    | some use => exact .some (huse use hentered)
  definition? := by
    cases hentered : event.definition? with
    | none => exact .none
    | some definition =>
      exact .some (hdefinition definition (Event.node_of_definition? hentered))
  leftDefinition? := by
    cases hleft : event.leftDefinition? with
    | none => exact .none
    | some definition =>
      exact .some (hdefinition definition (Event.node_of_leftDefinition? hleft))
  fieldArgument_eq := rfl

/-- Entering a definition becomes entering what becomes of the definition. -/
theorem Event.Changed.enterDefinition {definition other : Definition}
    (h : change.definition definition other) (scope scope' : Scope) :
    Event.Changed change (.enter ⟨.definition definition, scope⟩)
      (.enter ⟨.definition other, scope'⟩) where
  plainUsage?_eq _ := rfl
  directive? := .none
  definition? := .some h
  leftDefinition? := .none
  fieldArgument_eq := rfl

/-- Leaving a node changes as entering it does. -/
theorem Event.Changed.leave {visit other : Visit}
    (h : Event.Changed change (.enter visit) (.enter other)) :
    Event.Changed change (.leave visit) (.leave other) where
  plainUsage?_eq _ := rfl
  directive? := .none
  definition? := .none
  leftDefinition? := by
    rw [leftDefinition?_leave, leftDefinition?_leave]
    exact h.definition?
  fieldArgument_eq := rfl

namespace WalkChanged

variable {first second first' second' : List Event}

/-- Where nothing has to change, a walk may stay as it is. -/
theorem refl (hrename : change.rename = id) (huse : ∀ use, change.use use use)
    (hdefinition : ∀ definition, change.definition definition definition) (events : List Event) :
    WalkChanged change events events :=
  List.forall₂_same.mpr fun _ _ =>
    .refl hrename (fun use _ => huse use) fun definition _ => hdefinition definition

/-- Walks one after the other change as each of them does. -/
theorem append (hfirst : WalkChanged change first first')
    (hsecond : WalkChanged change second second') :
    WalkChanged change (first ++ second) (first' ++ second') :=
  List.rel_append hfirst hsecond

/-- The walk of a node changes as entering the node and the walk of its parts do. -/
theorem around {node other : Node} {scope scope' : Scope}
    (henter : Event.Changed change (.enter ⟨node, scope⟩) (.enter ⟨other, scope'⟩))
    (hparts : WalkChanged change first first') :
    WalkChanged change (RelayCheck.around node scope first)
      (RelayCheck.around other scope' first') :=
  .cons henter (List.rel_append hparts (.cons henter.leave .nil))

/-- The walk of a node where nothing that may change is met changes as the walk of its parts does.
-/
theorem around_silent {node other : Node} {scope scope' : Scope} (hnode : node.isSilent = true)
    (hother : other.isSilent = true) (hparts : WalkChanged change first first') :
    WalkChanged change (RelayCheck.around node scope first)
      (RelayCheck.around other scope' first') :=
  around (Node.changed_of_isSilent hnode hother) hparts

/-- The plain uses in a walk are those in the walk before, by their new names. -/
theorem plainUsages_eq {events others : List Event} (h : WalkChanged change events others)
    (fragment : Option String) :
    others.filterMap (plainUsage? fragment) = (events.filterMap (plainUsage? fragment)).map
      fun usage => { usage with name := change.rename usage.name } := by
  induction h with
  | nil => rfl
  | cons hevent _ ih =>
    rw [List.filterMap_cons, List.filterMap_cons, hevent.plainUsage?_eq, ih]
    cases plainUsage? fragment _ <;> rfl

/-- The directives in a walk are what has become of those in the walk before. -/
theorem directives {events others : List Event} (h : WalkChanged change events others) :
    List.Forall₂ change.use (events.filterMap Event.directive?)
      (others.filterMap Event.directive?) :=
  List.rel_filterMap (fun _ _ hevent => Event.Changed.directive? hevent) h

/-- The definitions in a walk are what has become of those in the walk before. -/
theorem definitions {events others : List Event} (h : WalkChanged change events others) :
    List.Forall₂ change.definition (events.filterMap Event.definition?)
      (others.filterMap Event.definition?) :=
  List.rel_filterMap (fun _ _ hevent => Event.Changed.definition? hevent) h

end WalkChanged

/-- The walk of names of types stays as it is. -/
theorem walkChanged_typeNames (scope : Scope) (names : List Name) :
    WalkChanged change (typeNameEvents scope names) (typeNameEvents scope names) := by
  refine List.rel_flatMap (List.forall₂_same.mpr fun _ _ => rfl) ?_
  rintro name _ rfl
  exact WalkChanged.around_silent rfl rfl .nil

end Events

/-! ## Places -/

/-- Places inside the same field and directive of the schema. -/
structure Scope.SameCarrier (scope other : Scope) : Prop where
  field_eq : other.field = scope.field
  parent_eq : other.parent = scope.parent
  directive_eq : other.directive = scope.directive
  use_isSome_eq : other.use.isSome = scope.use.isSome
  declaring_eq : other.declaring = scope.declaring

/-- Such places, where a value outside of declarations has the same position of the schema. -/
structure Scope.SamePlace (scope other : Scope) : Prop extends scope.SameCarrier other where
  position_eq : scope.declaring = false →
    other.input = scope.input ∧ other.default = scope.default

/-- The place is inside a directive that takes no arguments according to the schema. -/
structure Scope.TakesNothing (scope : Scope) : Prop where
  use_isSome : scope.use.isSome = true
  parameters_eq : scope.directive.map SchemaDirective.parameters = some []

section Places

variable {scope other : Scope}

/-- A place is the same as itself. -/
theorem Scope.SameCarrier.refl (scope : Scope) : scope.SameCarrier scope :=
  ⟨rfl, rfl, rfl, rfl, rfl⟩

/-- The items of lists are at the same places if the lists are. -/
theorem Scope.SamePlace.enterList (h : scope.SamePlace other) (schema : Schema) :
    (scope.enterList schema).SamePlace (other.enterList schema) where
  field_eq := h.field_eq
  parent_eq := h.parent_eq
  directive_eq := h.directive_eq
  use_isSome_eq := h.use_isSome_eq
  declaring_eq := h.declaring_eq
  position_eq hdeclaring := by
    rw [Scope.enterList, Scope.enterList, (h.position_eq hdeclaring).1]
    exact ⟨rfl, rfl⟩

/-- The fields of objects are at the same places if the objects are. -/
theorem Scope.SamePlace.enterObjectField (h : scope.SamePlace other) (schema : Schema)
    (name : String) :
    (scope.enterObjectField schema name).SamePlace (other.enterObjectField schema name) where
  field_eq := h.field_eq
  parent_eq := h.parent_eq
  directive_eq := h.directive_eq
  use_isSome_eq := h.use_isSome_eq
  declaring_eq := h.declaring_eq
  position_eq hdeclaring := by
    rw [Scope.enterObjectField, Scope.enterObjectField, (h.position_eq hdeclaring).1]
    exact ⟨rfl, rfl⟩

/-- The schema has the same to say about arguments of one name, and nothing about any argument where
none are taken. -/
theorem Scope.SameCarrier.parameter_eq (h : scope.SameCarrier other) (schema : Schema)
    {argument given : Argument} (hname : given.name = argument.name ∨ scope.TakesNothing) :
    (other.enterArgument schema given).parameter =
      (scope.enterArgument schema argument).parameter := by
  rw [Scope.enterArgument, Scope.enterArgument]
  dsimp only
  rcases hname with hname | hnothing
  · rw [h.field_eq, h.directive_eq, hname]
  · obtain ⟨directive, hdirective, hparameters⟩ :=
      Option.map_eq_some_iff.mp hnothing.parameters_eq
    simp only [h.directive_eq, hdirective, hparameters, List.find?_nil]

/-- Such arguments are at the same places, whatever their values. -/
theorem Scope.SameCarrier.enterArgument (h : scope.SameCarrier other) (schema : Schema)
    {argument given : Argument} (hname : given.name = argument.name ∨ scope.TakesNothing) :
    (scope.enterArgument schema argument).SamePlace (other.enterArgument schema given) where
  field_eq := h.field_eq
  parent_eq := h.parent_eq
  directive_eq := h.directive_eq
  use_isSome_eq := h.use_isSome_eq
  declaring_eq := h.declaring_eq
  position_eq _ := by
    have hparameter := h.parameter_eq schema hname
    exact ⟨congrArg (fun parameter => (parameter.map Parameter.type).bind schema.inputType?)
      hparameter, congrArg (·.bind Parameter.default) hparameter⟩

/-- Directives of one name are at the same places, whatever they are applied to. -/
theorem Scope.SameCarrier.enterDirective (h : scope.SameCarrier other) (schema : Schema)
    {use given : DirectiveUse} (hname : given.directive.name = use.directive.name) :
    (scope.enterDirective schema use).SameCarrier (other.enterDirective schema given) where
  field_eq := h.field_eq
  parent_eq := h.parent_eq
  directive_eq := by rw [Scope.enterDirective, Scope.enterDirective, hname]
  use_isSome_eq := rfl
  declaring_eq := h.declaring_eq

/-- Fields do not take the same arguments. -/
theorem Scope.SameCarrier.unknownFieldArgument_eq (h : scope.SameCarrier other) (schema : Schema)
    {argument given : Argument} (hname : given.name = argument.name ∨ scope.TakesNothing) :
    LanguageRules.unknownFieldArgument ⟨.argument given, other.enterArgument schema given⟩ =
      LanguageRules.unknownFieldArgument
        ⟨.argument argument, scope.enterArgument schema argument⟩ := by
  have huse : (other.enterArgument schema given).use.isSome =
      (scope.enterArgument schema argument).use.isSome := h.use_isSome_eq
  cases hnone : (scope.enterArgument schema argument).use with
  | some use =>
    rw [hnone] at huse
    obtain ⟨use', huse'⟩ := Option.isSome_iff_exists.mp huse
    simp only [LanguageRules.unknownFieldArgument, hnone, huse']
  | none =>
    have hnone' : (other.enterArgument schema given).use = none := by
      rw [hnone] at huse
      exact Option.isSome_eq_false_iff.mp huse |> Option.isNone_iff_eq_none.mp
    -- outside of a directive that takes nothing, the argument keeps its name
    have hsame : given.name = argument.name := by
      refine hname.resolve_right fun hnothing => ?_
      have hsome : (scope.enterArgument schema argument).use.isSome = true := hnothing.use_isSome
      rw [hnone] at hsome
      cases hsome
    have hfield : (other.enterArgument schema given).field =
        (scope.enterArgument schema argument).field := h.field_eq
    have hparent : (other.enterArgument schema given).parent =
        (scope.enterArgument schema argument).parent := h.parent_eq
    simp only [LanguageRules.unknownFieldArgument, hnone, hnone', hfield, hparent,
      h.parameter_eq schema (Or.inl hsame)]
    cases (scope.enterArgument schema argument).parameter with
    | some parameter => rfl
    | none =>
      cases (scope.enterArgument schema argument).field with
      | none => rfl
      | some field =>
        cases (scope.enterArgument schema argument).parent with
        | none => rfl
        | some parent =>
          dsimp only
          rw [hsame]

end Places

/-! ## Values -/

/-- A field of an object. Its variables are renamed, or it is a string with other contents. -/
inductive Field.ChangedValue (rename : String → String) : Name × Value → Name × Value → Prop
  | renamed (name : Name) (value : Value) :
      ChangedValue rename (name, value) (name, value.renameVariables rename)
  | restated (name : Name) (content other : String) (block otherBlock : Bool) (pos : Position) :
      ChangedValue rename (name, .string content block pos) (name, .string other otherBlock pos)

/-- A value. Its variables are renamed, or it is an object with changed fields. -/
inductive Value.Changed (rename : String → String) : Value → Value → Prop
  | renamed (value : Value) : Changed rename value (value.renameVariables rename)
  | object {fields others : List (Name × Value)} {pos : Position}
      (h : List.Forall₂ (Field.ChangedValue rename) fields others) :
      Changed rename (.object fields pos) (.object others pos)

/-- A value stays as it is if names are kept. -/
theorem Value.Changed.refl (value : Value) : value.Changed id value := by
  have h : value.Changed id (value.renameVariables id) := .renamed value
  rwa [Value.renameVariables_id] at h

/-- A field stays as it is if names are kept. -/
theorem Field.ChangedValue.refl (field : Name × Value) : Field.ChangedValue id field field := by
  have h : Field.ChangedValue id field (field.1, field.2.renameVariables id) := .renamed _ _
  rwa [Value.renameVariables_id] at h

/-- The fields of an object whose variables are renamed. -/
theorem Value.rel_renameFields (rename : String → String) (fields : List (Name × Value)) :
    List.Forall₂ (Field.ChangedValue rename) fields (renameFields rename fields) := by
  rw [renameFields_eq_map, List.forall₂_map_right_iff]
  exact List.forall₂_same.mpr fun (name, value) _ => .renamed name value

section Values

variable {change : Change} {schema : Schema}

mutual

/-- The walk of a value whose variables are renamed. -/
theorem walkChanged_renameVariables :
    ∀ (value : Value) {scope other : Scope}, scope.SamePlace other →
      WalkChanged change (value.events schema scope)
        ((value.renameVariables change.rename).events schema other)
  | .variable name pos, scope, other, hscope => by
    rw [Value.renameVariables, Value.events, Value.events]
    refine .around ⟨fun fragment => ?_, .none, .none, .none, rfl⟩ .nil
    -- the variables in declarations are no uses; all others have the same place in both walks
    rw [plainUsage?, plainUsage?, hscope.declaring_eq]
    split
    next => rfl
    next hdeclaring =>
      obtain ⟨hinput, hdefault⟩ := hscope.position_eq (Bool.eq_false_of_not_eq_true hdeclaring)
      rw [hinput, hdefault]
      rfl
  | .list items pos, scope, other, hscope => by
    rw [Value.renameVariables, Value.events, Value.events]
    refine .around_silent rfl rfl ?_
    exact walkChanged_items items (hscope.enterList schema)
  | .object fields pos, scope, other, hscope => by
    rw [Value.renameVariables, Value.events, Value.events]
    refine .around_silent rfl rfl ?_
    exact walkChanged_fields fields (Value.rel_renameFields _ fields) hscope
  | .int text pos, scope, other, hscope => by
    rw [Value.renameVariables, Value.events, Value.events]
    exact .around_silent rfl rfl .nil
  | .float text pos, scope, other, hscope => by
    rw [Value.renameVariables, Value.events, Value.events]
    exact .around_silent rfl rfl .nil
  | .string content block pos, scope, other, hscope => by
    rw [Value.renameVariables, Value.events, Value.events]
    exact .around_silent rfl rfl .nil
  | .boolean value pos, scope, other, hscope => by
    rw [Value.renameVariables, Value.events, Value.events]
    exact .around_silent rfl rfl .nil
  | .null pos, scope, other, hscope => by
    rw [Value.renameVariables, Value.events, Value.events]
    exact .around_silent rfl rfl .nil
  | .enum name pos, scope, other, hscope => by
    rw [Value.renameVariables, Value.events, Value.events]
    exact .around_silent rfl rfl .nil

/-- The walk of the items of a list whose variables are renamed. -/
theorem walkChanged_items :
    ∀ (items : List Value) {scope other : Scope}, scope.SamePlace other →
      WalkChanged change (itemEvents schema scope items)
        (itemEvents schema other (Value.renameItems change.rename items))
  | [], scope, other, hscope => by
    rw [Value.renameItems, itemEvents, itemEvents]
    exact .nil
  | item :: rest, scope, other, hscope => by
    rw [Value.renameItems, itemEvents, itemEvents]
    exact .append (walkChanged_renameVariables item hscope) (walkChanged_items rest hscope)

/-- The walk of the fields of an object that are changed. -/
theorem walkChanged_fields :
    ∀ (fields : List (Name × Value)) {others : List (Name × Value)} {scope other : Scope}
      {earlier earlier' : List Name},
      List.Forall₂ (Field.ChangedValue change.rename) fields others → scope.SamePlace other →
        WalkChanged change (fieldEvents schema scope earlier fields)
          (fieldEvents schema other earlier' others)
  | [], _, scope, other, earlier, earlier', .nil, hscope => by
    rw [fieldEvents, fieldEvents]
    exact .nil
  | (name, value) :: rest, _, scope, other, earlier, earlier', .cons hfield hrest, hscope => by
    have hinner := hscope.enterObjectField schema name.text
    cases hfield with
    | renamed =>
      rw [fieldEvents, fieldEvents]
      refine .append (.around_silent rfl rfl ?_) (walkChanged_fields rest hrest hscope)
      exact walkChanged_renameVariables value hinner
    | restated =>
      rw [fieldEvents, fieldEvents, Value.events, Value.events]
      refine .append (.around_silent rfl rfl ?_) (walkChanged_fields rest hrest hscope)
      exact .around_silent rfl rfl .nil

end

/-- The walk of a changed value. -/
theorem walkChanged_value {value given : Value} (h : value.Changed change.rename given)
    {scope other : Scope} (hscope : scope.SamePlace other) :
    WalkChanged change (value.events schema scope) (given.events schema other) := by
  cases h with
  | renamed => exact walkChanged_renameVariables value hscope
  | object hfields =>
    rw [Value.events, Value.events]
    refine .around_silent rfl rfl ?_
    exact walkChanged_fields _ hfields hscope

end Values

/-! ## Arguments and directives -/

/-- An argument whose value is changed. It keeps its name, if names matter. -/
structure Argument.Changed (rename : String → String) (anyName : Prop)
    (argument given : Argument) : Prop where
  name : given.name = argument.name ∨ anyName
  value : argument.value.Changed rename given.value

/-- A directive, where it is applied, that keeps its name and has changed arguments. They keep their
names if the directive takes arguments according to the schema. -/
structure DirectiveUse.ChangedIn (schema : Schema) (change : Change) (use given : DirectiveUse) :
    Prop where
  changed : change.use use given
  name_eq : given.directive.name = use.directive.name
  arguments : List.Forall₂ (Argument.Changed change.rename
    ((schema.directive? use.directive.name.text).map SchemaDirective.parameters = some []))
      use.directive.arguments given.directive.arguments

section Directives

variable {change : Change} {schema : Schema}

/-- The walk of changed arguments. -/
theorem walkChanged_arguments {scope other : Scope} (hscope : scope.SameCarrier other)
    {anyName : Prop} (hany : anyName → scope.TakesNothing) {arguments given : List Argument}
    (h : List.Forall₂ (Argument.Changed change.rename anyName) arguments given) :
    WalkChanged change (argumentEvents schema scope arguments)
      (argumentEvents schema other given) := by
  refine List.rel_flatMap h fun argument argument' hargument => ?_
  have hname := hargument.name.imp_right hany
  refine WalkChanged.around
    ⟨fun _ => rfl, .none, .none, .none, hscope.unknownFieldArgument_eq schema hname⟩ ?_
  exact walkChanged_value hargument.value (hscope.enterArgument schema hname)

/-- The walk of a changed directive. -/
theorem DirectiveUse.ChangedIn.walkChanged {use given : DirectiveUse}
    (h : use.ChangedIn schema change given) {scope other : Scope}
    (hscope : scope.SameCarrier other) :
    WalkChanged change (use.events schema scope) (given.events schema other) := by
  refine .around ⟨fun _ => rfl, .some h.changed, .none, .none, rfl⟩ ?_
  exact walkChanged_arguments (hscope.enterDirective schema h.name_eq)
    (fun hparameters => ⟨rfl, hparameters⟩) h.arguments

/-- Where directives are related, so are they where they are applied. -/
theorem Carrier.rel_uses {R : Directive → Directive → Prop} {S : DirectiveUse → DirectiveUse → Prop}
    {carrier carrier' : Carrier}
    (hcarrier : ∀ index {directive given}, R directive given →
      S ⟨carrier, index, directive⟩ ⟨carrier', index, given⟩)
    {directives others : List Directive} (h : List.Forall₂ R directives others) :
    List.Forall₂ S (carrier.uses directives) (carrier'.uses others) := by
  have huses (first : Nat) : List.Forall₂ S
      ((directives.zipIdx first).map fun item => ⟨carrier, item.2, item.1⟩)
      ((others.zipIdx first).map fun item => ⟨carrier', item.2, item.1⟩) := by
    induction h generalizing first with
    | nil => exact .nil
    | cons hdirective _ ih => exact .cons (hcarrier first hdirective) (ih (first + 1))
  exact huses 0

/-- The walk of changed directives. -/
theorem walkChanged_directives {carrier carrier' : Carrier} {directives given : List Directive}
    (h : List.Forall₂ (DirectiveUse.ChangedIn schema change) (carrier.uses directives)
      (carrier'.uses given)) {scope other : Scope} (hscope : scope.SameCarrier other) :
    WalkChanged change (directiveEvents schema scope carrier directives)
      (directiveEvents schema other carrier' given) :=
  List.rel_flatMap h fun _ _ huse => huse.walkChanged hscope

/-- The walk of the declaration of a variable, where no variables are renamed. The type does not
matter, since variables are not used in declarations. -/
theorem walkChanged_variableDefinition (hrename : change.rename = id)
    (declared : VariableDefinition) (type : TypeRef Name)
    (huses : List.Forall₂ (DirectiveUse.ChangedIn schema change)
      ((Carrier.variableDefinition declared).uses declared.directives)
      ((Carrier.variableDefinition { declared with type }).uses declared.directives))
    (scope : Scope) :
    WalkChanged change (declared.events schema scope)
      (VariableDefinition.events schema scope { declared with type }) := by
  -- in a declaration no position counts, so that the types need not agree
  have hscope : (scope.enterVariableDefinition schema declared).SamePlace
      (scope.enterVariableDefinition schema { declared with type }) :=
    { Scope.SameCarrier.refl scope with
      declaring_eq := rfl
      position_eq := by rintro ⟨⟩ }
  have hvalue (value : Value) : WalkChanged change
      (value.events schema (scope.enterVariableDefinition schema declared))
      (value.events schema (scope.enterVariableDefinition schema { declared with type })) := by
    have hwalk : WalkChanged change _
        ((value.renameVariables change.rename).events schema _) :=
      walkChanged_renameVariables value hscope
    rwa [hrename, Value.renameVariables_id] at hwalk
  refine .around_silent rfl rfl ?_
  refine .append (.append (.append (hvalue _) ?_) ?_) ?_
  · exact .around_silent rfl rfl .nil
  · refine List.rel_flatMap (List.forall₂_same.mpr fun _ _ => rfl) ?_
    rintro value _ rfl
    exact hvalue value
  · exact walkChanged_directives huses hscope.toSameCarrier

end Directives

end RelayCheck
