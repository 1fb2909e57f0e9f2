import Mathlib.Data.List.Forall2
import Mathlib.Data.Set.Function
import RelayCheck.FragmentArguments.Bindings
import RelayCheck.FragmentArguments.Scoping
import RelayCheck.Proofs.Validation.Walk

/-!
# Rules that look at directives

Some rules for fragment arguments look at single directives, fragments or arguments of fields. What
such a rule finds in a walk is what it finds about each of these, whatever else the walk meets.

The module introduces:

- `Event.directive?`, `Event.definition?`, `Event.leftDefinition?` and `Event.fieldArgument`, all that
  these rules see of an event;
- `Context.directiveFindings`, `Context.givenFindings`, `declaredFindings` and
  `Definition.unusedFindings`, what the rules find about a directive or a definition.

The main results are `findings_knownFragmentArguments`, `findings_argumentsOfCorrectType`,
`findings_defaultsOfCorrectType` and `findings_noUnusedArguments`.
-/

namespace RelayCheck

/-! ## What rules see of an event -/

/-- The directive that is entered, if one is. -/
def Event.directive? : Event → Option DirectiveUse
  | .enter ⟨.directive use, _⟩ => some use
  | _ => none

/-- The definition that is entered, if one is. -/
def Event.definition? : Event → Option Definition
  | .enter ⟨.definition definition, _⟩ => some definition
  | _ => none

/-- The definition that is left, if one is. -/
def Event.leftDefinition? : Event → Option Definition
  | .leave ⟨.definition definition, _⟩ => some definition
  | _ => none

/-- What is found if an argument is entered that its field does not take. -/
def Event.fieldArgument : Event → List Finding
  | .enter visit => LanguageRules.unknownFieldArgument visit
  | .leave _ => []

/-- The node that is entered is the directive. -/
theorem Event.node_of_directive? {event : Event} {use : DirectiveUse}
    (h : event.directive? = some use) : event.visit.node = .directive use := by
  unfold directive? at h
  split at h
  next => exact congrArg Node.directive (Option.some_inj.mp h)
  next => cases h

/-- The node that is entered is the definition. -/
theorem Event.node_of_definition? {event : Event} {definition : Definition}
    (h : event.definition? = some definition) : event.visit.node = .definition definition := by
  unfold definition? at h
  split at h
  next => exact congrArg Node.definition (Option.some_inj.mp h)
  next => cases h

/-- The node that is left is the definition. -/
theorem Event.node_of_leftDefinition? {event : Event} {definition : Definition}
    (h : event.leftDefinition? = some definition) : event.visit.node = .definition definition := by
  unfold leftDefinition? at h
  split at h
  next => exact congrArg Node.definition (Option.some_inj.mp h)
  next => cases h

/-- The definition that is left was entered. -/
theorem Event.leftDefinition?_leave (visit : Visit) :
    (Event.leave visit).leftDefinition? = (Event.enter visit).definition? := by
  obtain ⟨node, scope⟩ := visit
  cases node <;> rfl

/-! ## Directives and definitions -/

/-- What is wrong with the names of arguments in a directive. -/
def Context.directiveFindings (suggest : Suggest) (context : Context) (use : DirectiveUse) :
    List Finding :=
  if use.directive.name.text == argumentDefinitionsName then
    metadataFindings context.schema use.directive
  else if use.givesArguments then
    match use.spread?, context.target? use with
    | some spread, some fragment =>
      bindingFindings suggest context.schema fragment spread use.directive
    | _, _ => []
  else LanguageRules.unknownDirectiveArguments context ⟨.directive use, {}⟩

/-- In a directive that gives arguments, the names are wrong that its fragment does not take. -/
theorem Context.directiveFindings_of_givesArguments (suggest : Suggest) (context : Context)
    {use : DirectiveUse} (hgives : use.givesArguments = true) :
    context.directiveFindings suggest use =
      match use.spread?, context.target? use with
      | some spread, some fragment =>
        bindingFindings suggest context.schema fragment spread use.directive
      | _, _ => [] := by
  have hname : use.directive.name.text = argumentsName := beq_iff_eq.mp hgives
  have hother : ¬(use.directive.name.text == argumentDefinitionsName) = true := by
    rw [hname]
    decide
  rw [directiveFindings, if_neg hother, if_pos hgives]

/-- What is wrong with the values that a directive gives to a fragment of the document. -/
def Context.givenFindings (context : Context) (test : LiteralTest) (use : DirectiveUse) :
    List Finding :=
  match use.givesArguments, use.spread?, context.target? use with
  | true, some spread, some fragment =>
    use.directive.arguments.flatMap (argumentValueFindings test context.schema spread.name.text
      (fragment.declarations context.schema))
  | _, _, _ => []

/-- What is wrong with the defaults in a directive that declares the arguments of a fragment. -/
def declaredFindings (schema : Schema) (test : LiteralTest) (use : DirectiveUse) : List Finding :=
  match use.declaringFragment? with
  | some fragment =>
    (lastOfName use.directive.arguments).flatMap (defaultFindings test schema fragment.name.text)
  | none => []

/-- The findings about arguments that a definition, if it is a fragment, declares in vain. -/
def Definition.unusedFindings (schema : Schema) : Definition → List Finding
  | .fragment f => unusedArguments schema f
  | _ => []

/-- If arguments are related, and different names stay different, the last arguments of each name
are related. -/
theorem rel_lastOfName {R : Argument → Argument → Prop} {f : String → String} {names : Set String}
    (hf : Set.InjOn f names)
    (hname : ∀ {argument other}, R argument other →
      argument.name.text ∈ names ∧ other.name.text = f argument.name.text)
    {arguments others : List Argument} (h : List.Forall₂ R arguments others) :
    List.Forall₂ R (lastOfName arguments) (lastOfName others) := by
  induction h with
  | nil => exact .nil
  | @cons argument other rest rest' hargument hrest ih =>
    -- an argument is given again later exactly if its counterpart is
    have hlater : (rest'.any fun later => later.name.text == other.name.text) =
        rest.any fun later => later.name.text == argument.name.text := by
      clear ih
      induction hrest with
      | nil => rfl
      | cons hlater _ ih =>
        have hsame := hf.eq_iff (hname hlater).1 (hname hargument).1
        rw [List.any_cons, List.any_cons, ih, (hname hlater).2, (hname hargument).2,
          Bool.eq_iff_iff.mpr (beq_iff_eq.trans (hsame.trans beq_iff_eq.symm))]
    rw [lastOfName, lastOfName, hlater]
    split
    · exact ih
    · exact .cons hargument ih

/-! ## Rules -/

/-- A rule that looks at events of one kind only finds what it finds about these. -/
theorem Rule.findings_ofEvent_filterMap {α : Type} {turn : Event → Option α}
    {onItem : α → List Finding} {look : Event → List Finding}
    (hlook : ∀ event, look event = (turn event).elim [] onItem) (events : List Event) :
    (Rule.ofEvent look).findings events = (events.filterMap turn).flatMap onItem := by
  rw [Rule.findings_ofEvent]
  induction events with
  | nil => rfl
  | cons event rest ih =>
    rw [List.flatMap_cons, ih, hlook]
    cases hturn : turn event with
    | none => rw [List.filterMap_cons_none hturn, Option.elim, List.nil_append]
    | some item => rw [List.filterMap_cons_some hturn, List.flatMap_cons, Option.elim]

section Rules

variable (context : Context) (suggest : Suggest) (test : LiteralTest) (events : List Event)

/-- The rule for names of arguments finds what is wrong with each argument of a field and with each
directive. -/
theorem findings_knownFragmentArguments :
    (knownFragmentArguments suggest LanguageRules.unknownArguments context).findings events =
      events.flatMap fun event =>
        event.fieldArgument ++ event.directive?.elim [] (context.directiveFindings suggest) := by
  rw [knownFragmentArguments, Rule.onEnter, Rule.findings_ofEvent]
  refine List.flatMap_congr fun event _ => ?_
  rcases event with ⟨node, scope⟩ | visit
  · cases node with
    | directive use =>
      simp only [fragmentArgumentFindings, Visit.concernsDirective, Event.fieldArgument,
        Event.directive?, Option.elim, Context.directiveFindings, LanguageRules.unknownArguments,
        LanguageRules.unknownFieldArgument, List.nil_append]
      by_cases hdeclares : (use.directive.name.text == argumentDefinitionsName) = true
      · simp only [hdeclares, Bool.true_or, if_true, List.append_nil]
      · by_cases hgives : use.givesArguments = true
        · simp only [hdeclares, hgives, Bool.or_true, if_true, Bool.false_eq_true, if_false]
          exact List.append_nil _
        · simp only [hdeclares, hgives, Bool.or_self, Bool.false_eq_true, if_false,
            List.nil_append]
          rfl
    | argument argument =>
      -- arguments of directives are judged with the directive
      simp only [fragmentArgumentFindings, Visit.concernsDirective, Event.fieldArgument,
        Event.directive?, Option.elim, LanguageRules.unknownArguments,
        LanguageRules.unknownFieldArgument, LanguageRules.unknownDirectiveArguments,
        List.nil_append, List.append_nil]
      cases scope.use with
      | none => rfl
      | some use => rfl
    | _ => rfl
  · rfl

/-- The rule for values of arguments finds what is wrong with each directive. -/
theorem findings_argumentsOfCorrectType :
    (argumentsOfCorrectType test context).findings events =
      (events.filterMap Event.directive?).flatMap (context.givenFindings test) := by
  refine Rule.findings_ofEvent_filterMap ?_ events
  rintro (⟨node, scope⟩ | visit)
  · cases node <;> rfl
  · rfl

/-- The rule for defaults finds what is wrong with each directive. -/
theorem findings_defaultsOfCorrectType :
    (defaultsOfCorrectType test context).findings events =
      (events.filterMap Event.directive?).flatMap (declaredFindings context.schema test) := by
  refine Rule.findings_ofEvent_filterMap ?_ events
  rintro (⟨node, scope⟩ | visit)
  · cases node <;> rfl
  · rfl

/-- The rule for unused arguments finds those of each fragment. -/
theorem findings_noUnusedArguments :
    (noUnusedArguments context).findings events =
      (events.filterMap Event.definition?).flatMap (Definition.unusedFindings context.schema) := by
  refine Rule.findings_ofEvent_filterMap ?_ events
  rintro (⟨node, scope⟩ | visit)
  · cases node with
    | definition definition => cases definition <;> rfl
    | _ => rfl
  · rfl

end Rules

end RelayCheck
