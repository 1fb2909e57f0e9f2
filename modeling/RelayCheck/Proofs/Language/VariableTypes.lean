import RelayCheck.Language.Parser.Document
import RelayCheck.Proofs.Language.TypeTexts

/-!
# The types of variables in a document

In the types that are read from a source, no non-null layer is directly inside another. So the
variables that the operations of a document declare have types of this form.

The module introduces:

- `Parser.Gives`, what is true of everything that a parser reads, with a lemma for each way to put
  parsers together;
- `Document.HasWellFormedVariables`, the documents whose variables have types of this form.

The main result is `hasWellFormedVariables_of_parse`.
-/

namespace RelayCheck

namespace Parser

variable {α β : Type} {p : α → Prop} {r : β → Prop}

/-- Whatever the parser reads has the property. -/
def Gives (parser : Parser α) (p : α → Prop) : Prop :=
  ∀ ⦃stream value rest⦄, parser stream = .ok (value, rest) → p value

namespace Gives

/-- A parser that takes nothing gives what it was told to give. -/
theorem pure {value : α} (h : p value) : Gives (Pure.pure value) p := by
  rintro stream _ _ ⟨⟩
  exact h

/-- One parser after another gives what the second one does after what the first one gives. -/
theorem bind {first : Parser α} {next : α → Parser β} (hfirst : first.Gives p)
    (hnext : ∀ value, p value → (next value).Gives r) : (first >>= next).Gives r := by
  intro stream result rest h
  obtain ⟨value, middle, hvalue, hresult⟩ := bind_ok_iff.mp h
  exact hnext value (hfirst hvalue) hresult

/-- One parser after another gives what the second one does, whatever the first one gives. -/
theorem next {first : Parser α} {next : α → Parser β} (h : ∀ value, (next value).Gives r) :
    (first >>= next).Gives r :=
  bind (p := fun _ => True) (fun _ _ _ _ => trivial) fun value _ => h value

/-- What is made of what a parser reads has the properties that it gets by that. -/
theorem map {parser : Parser α} {f : α → β} (h : parser.Gives fun value => r (f value)) :
    (f <$> parser).Gives r := by
  rw [map_eq_pure_bind]
  exact h.bind fun value hvalue => pure hvalue

/-- A parser that refuses gives nothing. -/
theorem failAt {pos : Position} {fault : SyntaxFault} : Gives (failAt pos fault) p := nofun

/-- A parser that refuses the current token gives nothing. -/
theorem unexpected : Gives unexpected p :=
  next fun _ => failAt

variable {item : Parser α} {opening close : Punctuator}

/-- All items up to a closing punctuator are such as a single one. -/
theorem untilClose (hitem : item.Gives p) (rounds : Nat) :
    (untilClose close item rounds).Gives fun items => ∀ value ∈ items, p value := by
  induction rounds with
  | zero => exact unexpected
  | succ rounds ih =>
    refine next fun closed => ?_
    split
    · exact pure nofun
    · refine hitem.bind fun first hfirst => ih.bind fun rest hrest => pure ?_
      exact List.forall_mem_cons.mpr ⟨hfirst, hrest⟩

/-- All items of a bracketed sequence are such as a single one. -/
theorem optionalMany (hitem : item.Gives p) :
    (optionalMany opening close item).Gives fun items => ∀ value ∈ items, p value := by
  refine next fun opened => ?_
  split
  · refine hitem.bind fun first hfirst => bind (next fun size => hitem.untilClose _) ?_
    exact fun rest hrest => pure (List.forall_mem_cons.mpr ⟨hfirst, hrest⟩)
  · exact pure nofun

end Gives

end Parser

/-! ## Declared variables -/

/-- Every variable that the definition declares has a type without a non-null layer directly inside
another. -/
def Definition.HasWellFormedVariables (definition : Definition) : Prop :=
  ∀ operation, definition.operation? = some operation →
    ∀ declared ∈ operation.variableDefinitions, declared.type.WellFormed

/-- Every variable that an operation of the document declares has a type without a non-null layer
directly inside another. -/
def Document.HasWellFormedVariables (document : Document) : Prop :=
  ∀ operation ∈ document.operations, ∀ declared ∈ operation.variableDefinitions,
    declared.type.WellFormed

/-- A definition that is not an operation declares no variables. -/
theorem Definition.HasWellFormedVariables.of_noOperation {definition : Definition}
    (h : definition.operation? = none) : definition.HasWellFormedVariables := by
  intro operation hoperation
  rw [h] at hoperation
  cases hoperation

namespace Parser

/-- The type of a variable is well-formed. -/
theorem gives_variableDefinition :
    variableDefinition.Gives fun declared => declared.type.WellFormed := by
  have htype : type.Gives TypeRef.WellFormed := fun _ _ _ h => (starts_of_typeRef h).2.1
  refine .next fun first => .next fun _ => .next fun declared => .next fun _ => ?_
  refine .next fun start => htype.bind fun declaredType hdeclared => .next fun assigned => ?_
  dsimp only
  split <;> exact .next fun default => .next fun applied => .pure hdeclared

/-- The variables of an operation have well-formed types. -/
theorem gives_operation (pos : Position) : (operation pos).Gives fun operation =>
    ∀ declared ∈ operation.variableDefinitions, declared.type.WellFormed := by
  refine .next fun shorthand => ?_
  dsimp only
  split
  · -- selections alone are a query that declares nothing
    exact .next fun selected => .pure nofun
  · refine .next fun kind => .next fun named => ?_
    split <;>
    · refine .next fun given => ?_
      refine gives_variableDefinition.optionalMany.bind fun declared hdeclared => ?_
      exact .next fun applied => .next fun selected => .pure hdeclared

/-- What is read as a definition other than an operation declares no variables. -/
theorem Gives.noOperation {parser : Parser α} {kind : α → Definition}
    (h : ∀ value, (kind value).operation? = none) :
    Gives (kind <$> parser) Definition.HasWellFormedVariables :=
  map fun _ value _ _ => .of_noOperation (h value)

/-- A definition of an operation declares the variables of the operation. -/
theorem gives_operationDefinition (pos : Position) :
    Gives (Definition.operation <$> operation pos) Definition.HasWellFormedVariables := by
  refine .map fun _ value _ h operation hoperation => ?_
  cases hoperation
  exact gives_operation pos h

/-- The definition after a keyword declares variables with well-formed types. -/
theorem gives_describable {word : String} {pos : Position} {parser : Parser Definition}
    (h : describable word pos = some parser) :
    parser.Gives Definition.HasWellFormedVariables := by
  rw [describable.eq_def] at h
  split at h
  next kind hkind =>
    cases h
    exact .noOperation fun _ => rfl
  next =>
    split at h <;> cases h
    -- the keywords of schemas, directives and fragments, and those of operations
    · exact .noOperation fun _ => rfl
    · exact .noOperation fun _ => rfl
    · exact .noOperation fun _ => rfl
    · exact gives_operationDefinition pos
    · exact gives_operationDefinition pos
    · exact gives_operationDefinition pos

/-- An extension declares no variables. -/
theorem gives_extension : extension.Gives Definition.HasWellFormedVariables := by
  refine .next fun first => .next fun next => ?_
  split
  next =>
    refine .next fun _ => .next fun _ => .next fun applied => .next fun roots => ?_
    split
    next => exact .next fun _ => .pure (.of_noOperation rfl)
    next => exact .pure (.of_noOperation rfl)
  next word hword =>
    split
    next kind hkind =>
      refine .next fun _ => .next fun extended => ?_
      split
      next => exact .next fun _ => .pure (.of_noOperation rfl)
      next => exact .pure (.of_noOperation rfl)
    next => exact .failAt
  next => exact .failAt

/-- A definition declares variables with well-formed types. -/
theorem gives_definition : definition.Gives Definition.HasWellFormedVariables := by
  refine .next fun first => ?_
  dsimp only
  split
  next hdescribed =>
    -- a description stands before a keyword only
    refine .next fun word => ?_
    split
    next => exact .next fun _ => gives_operationDefinition first.pos
    next text hword =>
      split
      next parser hparser => exact .next fun _ => gives_describable hparser
      next => exact nofun
    next => exact .failAt
  next hbare =>
    refine .next fun word => ?_
    split
    next => exact gives_operationDefinition first.pos
    next text hword =>
      split
      next parser hparser => exact .next fun _ => gives_describable hparser
      next =>
        split
        next => exact gives_extension
        next => exact .failAt
    next => exact .failAt

/-- All definitions declare variables with well-formed types. -/
theorem gives_definitions (rounds : Nat) : (definitions rounds).Gives fun definitions =>
    ∀ definition ∈ definitions, definition.HasWellFormedVariables := by
  induction rounds with
  | zero => exact .unexpected
  | succ rounds ih =>
    refine gives_definition.bind fun first hfirst => .next fun token => ?_
    split
    next => exact .pure (List.forall_mem_singleton.mpr hfirst)
    next =>
      exact ih.bind fun rest hrest => .pure (List.forall_mem_cons.mpr ⟨hfirst, hrest⟩)

end Parser

/-- The operations of a document that is read from a source declare variables with well-formed
types. -/
theorem Document.hasWellFormedVariables_of_parse {source : String} {document : Document}
    (h : Document.parse source = .ok document) : document.HasWellFormedVariables := by
  obtain ⟨definitions, hrun, hdone⟩ := bind_eq_ok_iff.mp h
  cases hdone
  obtain ⟨token, rest, left, -, hdefinitions, -⟩ := Parser.run_eq_ok_iff.mp hrun
  have hall := Parser.Gives.next (fun stream => Parser.gives_definitions _) hdefinitions
  intro operation hmem
  obtain ⟨definition, hdefinition, hoperation⟩ := List.mem_filterMap.mp hmem
  exact hall definition hdefinition operation hoperation

end RelayCheck
