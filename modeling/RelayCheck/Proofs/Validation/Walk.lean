import RelayCheck.Proofs.Fragments.Reachability
import RelayCheck.Proofs.Validation.Run

/-!
# What the walk passes on its way down

On its way down the walk hands the scope of a place to the places inside it, with changes. What all
changes keep therefore holds everywhere inside a definition. Definitions themselves are met at the
top only, so that a rule which looks at nothing else sees every definition once.

The module introduces:

- `Scope.Inherited`, a property of scopes that the walk hands down, where spreads may have to be
  of admitted names;
- `Event.Inside`, an event inside a definition at a place with such a property;
- `Definition.events_eq_around`: all parts of a definition are inside;
- `findings_onLeave` and `findings_remembering`: what rules that look at definitions find.
-/

namespace RelayCheck

/-! ## Places inside definitions -/

/-- The node that an event is about and its scope. -/
def Event.visit : Event → Visit
  | .enter visit => visit
  | .leave visit => visit

/-- Whether a node can be met inside a definition. -/
def Node.isInner : Node → Bool
  | .document _ | .definition _ => false
  | _ => true

/-- A property of scopes that the walk hands down. Directives are given it where the spread that
they are applied to, if it is one, is of an admitted name. -/
structure Scope.Inherited (schema : Schema) (admitted : String → Prop) (P : Scope → Prop) :
    Prop where
  start : ∀ typeSystem, P { typeSystem }
  enterArgument : ∀ {scope} argument, P scope → P (scope.enterArgument schema argument)
  enterList : ∀ {scope}, P scope → P (scope.enterList schema)
  judge : ∀ {scope} whole, P scope → P { scope with whole }
  enterObjectField : ∀ {scope} name, P scope → P (scope.enterObjectField schema name)
  enterDirective : ∀ {scope} use, (∀ spread, use.carrier = .spread spread →
    admitted spread.name.text) → P scope → P (scope.enterDirective schema use)
  enterSelections : ∀ {scope}, P scope → P (scope.enterSelections schema)
  enterField : ∀ {scope} field, P scope → P (scope.enterField schema field)
  enterFragment : ∀ {scope} condition, P scope → P (scope.enterFragment schema condition)
  enterOperation : ∀ {scope} operation, P scope → P (scope.enterOperation schema operation)
  enterVariableDefinition : ∀ {scope} declared, P scope →
    P (scope.enterVariableDefinition schema declared)

/-- An event inside a definition, at a place with the property; the place of a directive is inside
of that directive. -/
structure Event.Inside (P : Scope → Prop) (event : Event) : Prop where
  isInner : event.visit.node.isInner = true
  scope : P event.visit.scope
  use_eq : ∀ use, event.visit.node = .directive use → event.visit.scope.use = some use

/-- Events of the walk all of which are inside. -/
def AllInside (P : Scope → Prop) (events : List Event) : Prop :=
  ∀ event ∈ events, event.Inside P

namespace AllInside

variable {P : Scope → Prop}

/-- Nothing is anywhere but inside. -/
theorem nil : AllInside P [] := List.forall_mem_nil _

/-- Walks one after the other are inside if each of them is. -/
theorem append {first second : List Event} (hfirst : AllInside P first)
    (hsecond : AllInside P second) : AllInside P (first ++ second) :=
  List.forall_mem_append.mpr ⟨hfirst, hsecond⟩

/-- The walks of several things are inside if each of them is. -/
theorem flatMap {α : Type} {walk : α → List Event} {items : List α}
    (h : ∀ item ∈ items, AllInside P (walk item)) : AllInside P (items.flatMap walk) := by
  intro event hevent
  obtain ⟨item, hitem, hwalk⟩ := List.mem_flatMap.mp hevent
  exact h item hitem event hwalk

/-- The walk of a node inside a definition is inside if the walk of its parts is. -/
theorem around {node : Node} {scope : Scope} {parts : List Event} (hnode : node.isInner = true)
    (hscope : P scope) (hparts : AllInside P parts)
    (huse : ∀ use, node = .directive use → scope.use = some use := by rintro _ ⟨⟩) :
    AllInside P (RelayCheck.around node scope parts) := by
  rw [RelayCheck.around, AllInside, List.forall_mem_cons, List.forall_mem_append,
    List.forall_mem_singleton]
  exact ⟨⟨hnode, hscope, huse⟩, hparts, hnode, hscope, huse⟩

end AllInside

section Parts

variable {schema : Schema} {admitted : String → Prop} {P : Scope → Prop}

mutual

/-- The walk of a value is inside. -/
theorem Value.allInside (hP : Scope.Inherited schema admitted P) :
    ∀ (value : Value) {scope : Scope}, P scope → AllInside P (value.events schema scope)
  | .list items pos, scope, hscope => by
    rw [Value.events]
    refine .around rfl (hP.judge _ (hP.enterList hscope)) ?_
    exact itemEvents_allInside hP items (hP.enterList hscope)
  | .object fields pos, scope, hscope => by
    rw [Value.events]
    exact .around rfl hscope (fieldEvents_allInside hP fields hscope)
  | .variable name pos, scope, hscope => by
    rw [Value.events]
    exact .around rfl hscope .nil
  | .int text pos, scope, hscope => by
    rw [Value.events]
    exact .around rfl hscope .nil
  | .float text pos, scope, hscope => by
    rw [Value.events]
    exact .around rfl hscope .nil
  | .string content block pos, scope, hscope => by
    rw [Value.events]
    exact .around rfl hscope .nil
  | .boolean value pos, scope, hscope => by
    rw [Value.events]
    exact .around rfl hscope .nil
  | .null pos, scope, hscope => by
    rw [Value.events]
    exact .around rfl hscope .nil
  | .enum name pos, scope, hscope => by
    rw [Value.events]
    exact .around rfl hscope .nil

/-- The walk of the items of a list is inside. -/
theorem itemEvents_allInside (hP : Scope.Inherited schema admitted P) :
    ∀ (items : List Value) {scope : Scope}, P scope →
      AllInside P (itemEvents schema scope items)
  | [], scope, hscope => by
    rw [itemEvents]
    exact .nil
  | item :: rest, scope, hscope => by
    rw [itemEvents]
    exact (Value.allInside hP item hscope).append (itemEvents_allInside hP rest hscope)

/-- The walk of the fields of an object is inside. -/
theorem fieldEvents_allInside (hP : Scope.Inherited schema admitted P) :
    ∀ (fields : List (Name × Value)) {scope : Scope} {earlier : List Name}, P scope →
      AllInside P (fieldEvents schema scope earlier fields)
  | [], scope, earlier, hscope => by
    rw [fieldEvents]
    exact .nil
  | (name, value) :: rest, scope, earlier, hscope => by
    rw [fieldEvents]
    have hinner := hP.enterObjectField name.text hscope
    exact (AllInside.around rfl hinner (Value.allInside hP value hinner)).append
      (fieldEvents_allInside hP rest hscope)

end

/-- The walk of arguments is inside. -/
theorem argumentEvents_allInside (hP : Scope.Inherited schema admitted P)
    (arguments : List Argument) {scope : Scope} (hscope : P scope) :
    AllInside P (argumentEvents schema scope arguments) := by
  refine .flatMap fun argument _ => ?_
  have hinner := hP.enterArgument argument hscope
  exact .around rfl hinner (Value.allInside hP argument.value hinner)

/-- The walk of the directives of a carrier is inside, if the carrier is no spread of a name that
is not admitted. -/
theorem directiveEvents_allInside (hP : Scope.Inherited schema admitted P) {carrier : Carrier}
    (hcarrier : ∀ spread, carrier = .spread spread → admitted spread.name.text)
    (directives : List Directive) {scope : Scope} (hscope : P scope) :
    AllInside P (directiveEvents schema scope carrier directives) := by
  refine .flatMap fun use huse => ?_
  obtain ⟨⟨directive, index⟩, -, rfl⟩ := List.mem_map.mp huse
  have hinner := hP.enterDirective (.mk carrier index directive) hcarrier hscope
  refine .around rfl hinner (argumentEvents_allInside hP _ hinner) ?_
  rintro _ ⟨⟩
  rfl

/-- The walk of names of types is inside. -/
theorem typeNameEvents_allInside (names : List Name) {scope : Scope} (hscope : P scope) :
    AllInside P (typeNameEvents scope names) :=
  .flatMap fun _ _ => .around rfl hscope .nil

/-- The walk of selections is inside, if the names that they spread are admitted. -/
theorem selectionEvents_allInside (hP : Scope.Inherited schema admitted P) :
    ∀ (selections : List Selection) {scope : Scope}, P scope →
    (∀ name, SpreadIn name selections → admitted name) →
      AllInside P (selectionEvents schema scope selections)
  | [], scope, hscope, hspreads => by
    rw [selectionEvents]
    exact .nil
  | .field field nested :: rest, scope, hscope, hspreads => by
    rw [selectionEvents, Selection.events]
    have hinner := hP.enterField field hscope
    refine .append (.around rfl hinner (.append (.append ?_ ?_) ?_)) ?_
    · exact argumentEvents_allInside hP _ hinner
    · exact directiveEvents_allInside hP (by rintro _ ⟨⟩) _ hinner
    · exact selectionEvents_allInside hP nested (hP.enterSelections hinner)
        fun name hname => hspreads name (.inField hname)
    · exact selectionEvents_allInside hP rest hscope fun name hname => hspreads name (.later hname)
  | .spread spread :: rest, scope, hscope, hspreads => by
    rw [selectionEvents, Selection.events]
    refine .append (.around rfl hscope (directiveEvents_allInside hP ?_ _ hscope)) ?_
    · rintro other ⟨⟩
      exact hspreads _ (.here rfl)
    · exact selectionEvents_allInside hP rest hscope fun name hname => hspreads name (.later hname)
  | .inlineFragment fragment nested :: rest, scope, hscope, hspreads => by
    rw [selectionEvents, Selection.events]
    have hinner := hP.enterFragment fragment.typeCondition hscope
    refine .append (.around rfl hinner (.append (.append ?_ ?_) ?_)) ?_
    · exact typeNameEvents_allInside _ hinner
    · exact directiveEvents_allInside hP (by rintro _ ⟨⟩) _ hinner
    · exact selectionEvents_allInside hP nested (hP.enterSelections hinner)
        fun name hname => hspreads name (.inInline hname)
    · exact selectionEvents_allInside hP rest hscope fun name hname => hspreads name (.later hname)

/-- The walk of the declaration of a variable is inside. -/
theorem VariableDefinition.allInside (hP : Scope.Inherited schema admitted P)
    (declared : VariableDefinition) {scope : Scope} (hscope : P scope) :
    AllInside P (declared.events schema scope) := by
  have hinner := hP.enterVariableDefinition declared hscope
  refine .around rfl hinner (.append (.append (.append ?_ ?_) ?_) ?_)
  · exact Value.allInside hP _ hinner
  · exact .around rfl hinner .nil
  · exact .flatMap fun value _ => Value.allInside hP value hinner
  · exact directiveEvents_allInside hP (by rintro _ ⟨⟩) _ hinner

/-- The walk of the declaration of an argument or input field is inside. -/
theorem InputDefinition.allInside (hP : Scope.Inherited schema admitted P)
    (location : DirectiveLocation) (declared : InputDefinition) {scope : Scope}
    (hscope : P scope) : AllInside P (declared.events schema scope location) := by
  refine .around rfl hscope (.append (.append ?_ ?_) ?_)
  · exact .around rfl hscope .nil
  · exact .flatMap fun value _ => Value.allInside hP value hscope
  · exact directiveEvents_allInside hP (by rintro _ ⟨⟩) _ hscope

/-- The walk of the declaration of a field is inside. -/
theorem FieldDefinition.allInside (hP : Scope.Inherited schema admitted P)
    (declared : FieldDefinition) {scope : Scope} (hscope : P scope) :
    AllInside P (declared.events schema scope) := by
  refine .around rfl hscope (.append (.append ?_ ?_) ?_)
  · exact .flatMap fun argument _ => InputDefinition.allInside hP _ argument hscope
  · exact .around rfl hscope .nil
  · exact directiveEvents_allInside hP (by rintro _ ⟨⟩) _ hscope

/-- The walk of the parts of a type definition is inside. -/
theorem TypeDefinition.allInside (hP : Scope.Inherited schema admitted P)
    (inputLocation : DirectiveLocation) (type : TypeDefinition) {scope : Scope}
    (hscope : P scope) : AllInside P (type.partEvents schema scope inputLocation) := by
  have happlied (location : DirectiveLocation) :
      AllInside P (directiveEvents schema scope (.typeSystem location) type.directives) :=
    directiveEvents_allInside hP (by rintro _ ⟨⟩) _ hscope
  rw [TypeDefinition.partEvents]
  cases type.body with
  | scalar => exact happlied _
  | object interfaces fields | interface interfaces fields =>
    exact .append (.append (typeNameEvents_allInside _ hscope) (happlied _))
      (.flatMap fun field _ => FieldDefinition.allInside hP field hscope)
  | union members => exact (happlied _).append (typeNameEvents_allInside _ hscope)
  | enum values =>
    refine (happlied _).append (.flatMap fun value _ => .around rfl hscope ?_)
    exact directiveEvents_allInside hP (by rintro _ ⟨⟩) _ hscope
  | inputObject fields =>
    exact (happlied _).append (.flatMap fun field _ => InputDefinition.allInside hP _ field hscope)

/-- The walk of the parts of a schema definition is inside. -/
theorem SchemaDefinition.allInside (hP : Scope.Inherited schema admitted P)
    (declared : SchemaDefinition) {scope : Scope} (hscope : P scope) :
    AllInside P (declared.partEvents schema scope) :=
  .append (directiveEvents_allInside hP (by rintro _ ⟨⟩) _ hscope)
    (typeNameEvents_allInside _ hscope)

/-- A definition is entered, then everything inside is walked, then it is left. -/
theorem Definition.events_eq_around (hP : Scope.Inherited schema admitted P)
    (definition : Definition)
    (hspreads : ∀ name, SpreadIn name definition.selections → admitted name) :
    ∃ scope parts, definition.events schema = around (.definition definition) scope parts ∧
      AllInside P parts := by
  -- what is walked inside starts from the scope that entering the definition gives
  cases definition with
  | operation operation =>
    have hscope := hP.enterOperation operation (hP.start false)
    refine ⟨_, _, rfl, .append (.append ?_ ?_) ?_⟩
    · exact .flatMap fun declared _ => VariableDefinition.allInside hP declared hscope
    · exact directiveEvents_allInside hP (by rintro _ ⟨⟩) _ hscope
    · exact selectionEvents_allInside hP _ (hP.enterSelections hscope) hspreads
  | fragment fragment =>
    have hscope := hP.enterFragment (some fragment.typeCondition) (hP.start false)
    refine ⟨_, _, rfl, .append (.append ?_ ?_) ?_⟩
    · exact typeNameEvents_allInside _ hscope
    · exact directiveEvents_allInside hP (by rintro _ ⟨⟩) _ hscope
    · exact selectionEvents_allInside hP _ (hP.enterSelections hscope) hspreads
  | schema declared | schemaExtension declared =>
    exact ⟨_, _, rfl, SchemaDefinition.allInside hP declared (hP.start true)⟩
  | type declared | typeExtension declared =>
    exact ⟨_, _, rfl, TypeDefinition.allInside hP _ declared (hP.start true)⟩
  | directive declared =>
    exact ⟨_, _, rfl, .flatMap fun argument _ =>
      InputDefinition.allInside hP _ argument (hP.start true)⟩

end Parts

/-! ## Rules that look at definitions -/

/-- Nothing is asked of any scope. -/
theorem Scope.Inherited.trivial (schema : Schema) :
    Scope.Inherited schema (fun _ => True) fun _ => True := by
  constructor <;> intros <;> exact True.intro

/-- The walk of a definition meets no other. -/
theorem Definition.events_eq_around_inner (schema : Schema) (definition : Definition) :
    ∃ scope parts, definition.events schema = around (.definition definition) scope parts ∧
      ∀ event ∈ parts, event.visit.node.isInner = true := by
  obtain ⟨scope, parts, hevents, hparts⟩ :=
    Definition.events_eq_around (.trivial schema) definition fun _ _ => True.intro
  exact ⟨scope, parts, hevents, fun event hevent => (hparts event hevent).isInner⟩

section Rules

variable {σ : Type} {schema : Schema}

/-- Looking at the walk of a document, where nothing happens but when a definition is entered or
left, is looking at its definitions. -/
theorem collect_document {step : σ → Event → List Finding × σ}
    {look : σ → Definition → List Finding × σ}
    (hlook : ∀ state definition scope, collect step state
      [.enter ⟨.definition definition, scope⟩, .leave ⟨.definition definition, scope⟩] =
        look state definition)
    (hother : ∀ state event, (∀ definition, event.visit.node ≠ .definition definition) →
      step state event = ([], state))
    (state : σ) (document : Document) :
    collect step state (document.events schema) = collect look state document.definitions := by
  -- inside a definition nothing happens, so that entering and leaving it are what counts
  have hdefinition : ∀ definition ∈ document.definitions, ∀ state,
      collect step state (definition.events schema) = look state definition := by
    intro definition _ state
    obtain ⟨scope, parts, hevents, hinner⟩ := definition.events_eq_around_inner schema
    have hparts : ∀ event ∈ parts, ∀ state, step state event = ([], state) := by
      intro event hevent state
      refine hother state event fun other hnode => ?_
      have hevent := hinner event hevent
      rw [hnode] at hevent
      cases hevent
    rw [hevents, ← hlook state definition scope, around, collect, collect_append,
      collect_of_quiet hparts, collect]
    rfl
  have hdocument (event : Event) (hnode : event.visit.node = .document document)
      (state : σ) : step state event = ([], state) := by
    refine hother state event fun definition hdefinition => ?_
    rw [hnode] at hdefinition
    cases hdefinition
  rw [Document.events, around, collect, hdocument _ rfl, collect_append, collect_flatMap,
    collect_congr hdefinition, collect_singleton, hdocument _ rfl]
  simp only [List.nil_append, List.append_nil]

/-- A rule that looks at nothing but the definitions that it leaves finds what it finds at each of
them. -/
theorem findings_onLeave {look : Visit → List Finding} {onDefinition : Definition → List Finding}
    (hlook : ∀ definition scope, look ⟨.definition definition, scope⟩ = onDefinition definition)
    (hother : ∀ visit, (∀ definition, visit.node ≠ .definition definition) → look visit = [])
    (document : Document) :
    (Rule.onLeave look).findings (document.events schema) =
      document.definitions.flatMap onDefinition := by
  have hcollect (definitions : List Definition) :
      (collect (fun state definition => (onDefinition definition, state)) () definitions).1 =
        definitions.flatMap onDefinition := by
    induction definitions with
    | nil => rfl
    | cons definition rest ih => rw [collect, ih, List.flatMap_cons]
  rw [Rule.findings_eq_collect, ← hcollect]
  refine congrArg Prod.fst (collect_document ?_ ?_ () document)
  · intro state definition scope
    exact congrArg (·, ()) ((List.append_nil _).trans (hlook definition scope))
  · intro state event hnode
    cases event with
    | enter visit => rfl
    | leave visit => exact congrArg (·, ()) (hother visit hnode)

/-- A rule that remembers, and looks at nothing but the definitions that it enters, finds what it
finds by looking at them one after the other. -/
theorem findings_remembering {start : σ} {look : σ → Visit → List Finding × σ}
    {onDefinition : σ → Definition → List Finding × σ}
    (hlook : ∀ state definition scope,
      look state ⟨.definition definition, scope⟩ = onDefinition state definition)
    (hother : ∀ state visit, (∀ definition, visit.node ≠ .definition definition) →
      look state visit = ([], state))
    (document : Document) :
    (Rule.remembering start look).findings (document.events schema) =
      (collect onDefinition start document.definitions).1 := by
  rw [Rule.findings_eq_collect]
  refine congrArg Prod.fst (collect_document ?_ ?_ start document)
  · intro state definition scope
    rw [← hlook state definition scope]
    exact Prod.ext (List.append_nil _) rfl
  · intro state event hnode
    cases event with
    | enter visit => exact hother state visit hnode
    | leave visit => rfl

end Rules

end RelayCheck
