import RelayCheck.Proofs.Connections.Pagination
import RelayCheck.Proofs.FragmentArguments.DirectiveRules
import RelayCheck.Proofs.FragmentArguments.Parts
import RelayCheck.Proofs.FragmentArguments.Scoping
import RelayCheck.Proofs.Fragments.Nesting
import RelayCheck.Proofs.Independence
import RelayCheck.Proofs.Reordering
import RelayCheck.Proofs.Validation.Quiet
import RelayCheck.Proofs.Validation.Selections

/-!
# Separate documents

Two documents that mention no fragments of each other are put together. Apart from the rule for
positions, which reports every message once in a document, the rules for fragment arguments and
connections then find what they find in the first document, followed by what they find in the
second: each of them looks at one definition after the other, and there at nothing but the fragments
and operations that spreads relate to it.

A check of both documents may stop early where the checks of each do not, since the searches for the
fragments of operations share what may be searched, and it does not go beyond a definition that is
nested too deeply. What it finds then is the first part.

The module introduces `Rule.IsMemoryless`, for rules that look at one event after the other.

The main result is `Document.Separate.trail_append`.
-/

namespace RelayCheck

/-! ## Rules that look at one event after the other -/

/-- What the rule finds at an event does not depend on the events before it, and it finds nothing
about documents as a whole. -/
structure Rule.IsMemoryless (rule : Rule) : Prop where
  append : ∀ first second,
    rule.findings (first ++ second) = rule.findings first ++ rule.findings second
  document : ∀ event document, event.visit.node = .document document → rule.findings [event] = []

namespace Rule.IsMemoryless

variable {rule : Rule}

/-- A rule may look at each event alone. -/
theorem ofEvent {look : Event → List Finding}
    (hdocument : ∀ event document, event.visit.node = .document document → look event = []) :
    (Rule.ofEvent look).IsMemoryless where
  append first second := by simp only [findings_ofEvent, List.flatMap_append]
  document event document hnode := by
    rw [findings_ofEvent, List.flatMap_singleton, hdocument event document hnode]

/-- A rule may look at nodes when it enters them. -/
theorem onEnter {look : Visit → List Finding}
    (hdocument : ∀ document scope, look ⟨.document document, scope⟩ = []) :
    (Rule.onEnter look).IsMemoryless := by
  refine ofEvent fun event document hnode => ?_
  cases event with
  | enter visit =>
    obtain ⟨node, scope⟩ := visit
    cases hnode
    exact hdocument document scope
  | leave visit => rfl

/-- A rule may look at nodes when it leaves them. -/
theorem onLeave {look : Visit → List Finding}
    (hdocument : ∀ document scope, look ⟨.document document, scope⟩ = []) :
    (Rule.onLeave look).IsMemoryless := by
  refine ofEvent fun event document hnode => ?_
  cases event with
  | enter visit => rfl
  | leave visit =>
    obtain ⟨node, scope⟩ := visit
    cases hnode
    exact hdocument document scope

/-- A rule may look for the fragments of operations. -/
theorem searching (h : rule.IsMemoryless) (searches : Event → List Operation) :
    (rule.searching searches).IsMemoryless where
  append first second := by simp only [findings_searching, h.append]
  document event document hnode := by rw [findings_searching, h.document event document hnode]

/-- What the rule finds on the walks of several things is what it finds on each of them. -/
theorem flatMap (h : rule.IsMemoryless) {α : Type} (walk : α → List Event) (items : List α) :
    rule.findings (items.flatMap walk) = items.flatMap fun item => rule.findings (walk item) := by
  induction items with
  | nil => rfl
  | cons item rest ih => rw [List.flatMap_cons, List.flatMap_cons, h.append, ih]

/-- What the rule finds on a walk is what it finds at each of its events. -/
theorem findings_eq_flatMap_singleton (h : rule.IsMemoryless) (events : List Event) :
    rule.findings events = events.flatMap fun event => rule.findings [event] := by
  rw [← h.flatMap (fun event => [event]), List.flatMap_singleton']

/-- What the rule finds in a document is what it finds in its definitions. -/
theorem findings_events (h : rule.IsMemoryless) (schema : Schema) (document : Document) :
    rule.findings (document.events schema) =
      document.definitions.flatMap fun definition => rule.findings (definition.events schema) := by
  rw [Document.events, around, ← List.singleton_append, h.append, h.append, h.flatMap,
    h.document _ document rfl, h.document _ document rfl, List.nil_append, List.append_nil]

/-- What the rule finds as far as the depth of a document lets rules follow it is what it finds in
the definitions before the first one that is nested too deeply. -/
theorem findings_walk (h : rule.IsMemoryless) (schema : Schema) (document : Document) :
    rule.findings (document.walk schema) =
      document.shallow.flatMap fun definition => rule.findings (definition.events schema) := by
  cases hdeep : document.isTooDeep with
  | true =>
    rw [Document.walk, if_pos hdeep, ← List.singleton_append, h.append, h.flatMap,
      h.document _ document rfl, List.nil_append, Document.shallow]
  | false =>
    rw [Document.walk_of_not_isTooDeep schema hdeep, h.findings_events,
      Document.shallow_eq_definitions_iff.mpr hdeep]

end Rule.IsMemoryless

/-- The rules for fragment arguments and connections look at one event after the other, apart from
that for positions. -/
theorem RelayRule.isMemoryless {rule : RelayRule} (hrule : rule ≠ .variablesInAllowedPosition)
    (suggest : Suggest) (test : LiteralTest) (context : Context) :
    (rule.rule { suggest, test } context).IsMemoryless := by
  cases rule with
  | variablesInAllowedPosition => exact absurd rfl hrule
  | knownVariableNames => exact .searching (.onLeave fun _ _ => rfl) _
  | knownArgumentNames | argumentsOfCorrectType | defaultsOfCorrectType | noUnusedArguments
  | requiredPageInfoFields | missingConnectionDirective => exact .onEnter fun _ _ => rfl

/-! ## Rules in a part of a document -/

namespace Context.IsPartOf

variable {part whole : Context} (hpart : part.IsPartOf whole) {definition : Definition}
  (hmem : definition ∈ part.document.definitions)

include hpart hmem

/-- A directive in a definition of a part gives arguments to the same fragment as in the whole. -/
theorem target?_eq_of_mem_events {event : Event} (hevent : event ∈ definition.events part.schema)
    {use : DirectiveUse} (huse : event.directive? = some use) :
    whole.target? use = part.target? use := by
  obtain ⟨scope, parts, hevents, hparts⟩ :=
    definition.events_eq_around (.onAdmitted part.schema part.document.Spreads)
      fun name hspread => ⟨definition, hmem, hspread⟩
  rw [hevents, around, List.mem_cons, List.mem_append, List.mem_singleton] at hevent
  rcases hevent with rfl | hevent | rfl
  · cases huse
  · have hinside := hparts event hevent
    exact hpart.target?_eq fun spread =>
      hinside.scope use spread (hinside.use_eq use (Event.node_of_directive? huse))
  · cases huse

/-- A rule that looks at directives finds the same in a definition of a part and of the whole, if it
finds the same about directives that give arguments to the same fragment. -/
theorem flatMap_directive?_eq {look other : DirectiveUse → List Finding}
    (hlook : ∀ use, whole.target? use = part.target? use → other use = look use) :
    ((definition.events part.schema).filterMap Event.directive?).flatMap other =
      ((definition.events part.schema).filterMap Event.directive?).flatMap look := by
  refine List.flatMap_congr fun use huse => hlook use ?_
  obtain ⟨event, hevent, hdirective⟩ := List.mem_filterMap.mp huse
  exact hpart.target?_eq_of_mem_events hmem hevent hdirective

omit hmem in
/-- What is wrong with the names of arguments in a directive is the same in a part, if neither
document defines directives. -/
theorem directiveFindings_eq (suggest : Suggest) (hdirectives : part.document.directives = [])
    (hwhole : whole.document.directives = []) {use : DirectiveUse}
    (htarget : whole.target? use = part.target? use) :
    whole.directiveFindings suggest use = part.directiveFindings suggest use := by
  simp only [directiveFindings, htarget, hpart.schema_eq,
    LanguageRules.unknownDirectiveArguments, LanguageRules.knownDirective?, hdirectives, hwhole]

/-- The rule for names of variables finds the same in a definition of a part. -/
theorem findings_knownVariableNames_eq :
    (knownVariableNames whole).findings (definition.events part.schema) =
      (knownVariableNames part).findings (definition.events part.schema) := by
  obtain ⟨scope, parts, hevents, hinner⟩ := definition.events_eq_around_inner part.schema
  rw [knownVariableNames, knownVariableNames, Rule.findings_searching, Rule.findings_searching,
    Rule.onLeave, Rule.onLeave, Rule.findings_ofEvent, Rule.findings_ofEvent]
  refine List.flatMap_congr fun event hevent => ?_
  rw [hevents, around, List.mem_cons, List.mem_append, List.mem_singleton] at hevent
  -- the rule looks at definitions when it leaves them, and at nothing inside of them
  rcases hevent with rfl | hevent | rfl
  · rfl
  · have hevent := hinner event hevent
    rcases event with visit | ⟨node, scope⟩
    · rfl
    · cases node with
      | definition => cases hevent
      | _ => rfl
  · cases definition with
    | operation operation =>
      have husages := hpart.operationUsages_eq (Document.mem_operations_iff.mpr hmem)
      show whole.undeclaredInOperation operation = part.undeclaredInOperation operation
      rw [undeclaredInOperation, undeclaredInOperation, husages]
    | fragment fragment =>
      have hfragment := Document.mem_fragments_iff.mpr hmem
      show whole.undeclaredInFragment (whole.operationsReaching fragment.name.text) fragment =
        part.undeclaredInFragment (part.operationsReaching fragment.name.text) fragment
      have hunify (operations : List Operation) : whole.unify operations = part.unify operations := by
        simp only [unify, hpart.schema_eq]
      rw [hpart.operationsReaching_eq fragment hfragment, undeclaredInFragment,
        undeclaredInFragment, hunify, hpart.fragmentUsages_eq hfragment]
    | _ => rfl

/-- The rule for connections finds the same in an operation or fragment of a part. -/
theorem findings_requiredPageInfoFields_eq (hexecutable : definition.isTypeSystem = false) :
    (requiredPageInfoFields whole).findings (definition.events part.schema) =
      (requiredPageInfoFields part).findings (definition.events part.schema) := by
  rw [requiredPageInfoFields, requiredPageInfoFields, Rule.onEnter, Rule.onEnter,
    Rule.findings_ofEvent, Rule.findings_ofEvent]
  refine List.flatMap_congr fun event hevent => ?_
  -- below a field of the part, nothing is spread but what the part spreads
  have hdefinition : SpreadsAdmitted part.document.Spreads (definition.events part.schema) :=
    Definition.spreadsAdmitted hexecutable fun name hspread => ⟨definition, hmem, hspread⟩
  have hspreads := hdefinition event hevent
  rcases event with ⟨node, scope⟩ | visit
  · cases node with
    | field field selections =>
      have hfields : whole.document.connectionFields selections =
          part.document.connectionFields selections :=
        Document.connectionFields_eq_of_part hpart.fragment?_eq hspreads
      simp only [pageInfoFindings, hfields, hpart.schema_eq]
    | _ => rfl
  · rfl

/-- A rule for fragment arguments and connections other than that for positions finds the same in an
operation or fragment of a part as in the whole. -/
theorem findings_relayRule_eq (hdirectives : part.document.directives = [])
    (hwhole : whole.document.directives = []) (hexecutable : definition.isTypeSystem = false)
    (suggest : Suggest) (test : LiteralTest) {rule : RelayRule}
    (hrule : rule ≠ .variablesInAllowedPosition) :
    (rule.rule { suggest, test } whole).findings (definition.events part.schema) =
      (rule.rule { suggest, test } part).findings (definition.events part.schema) := by
  -- rules look beyond a definition only where names lead, and those in a part stay in the part
  cases rule with
  | variablesInAllowedPosition => exact absurd rfl hrule
  | knownVariableNames => exact hpart.findings_knownVariableNames_eq hmem
  | knownArgumentNames =>
    rw [RelayRule.rule, RelayRule.rule, findings_knownFragmentArguments,
      findings_knownFragmentArguments]
    refine List.flatMap_congr fun event hevent => ?_
    cases huse : event.directive? with
    | none => rfl
    | some use =>
      have htarget := hpart.target?_eq_of_mem_events hmem hevent huse
      rw [Option.elim, Option.elim,
        hpart.directiveFindings_eq suggest hdirectives hwhole htarget]
  | argumentsOfCorrectType =>
    rw [RelayRule.rule, RelayRule.rule, findings_argumentsOfCorrectType,
      findings_argumentsOfCorrectType]
    refine hpart.flatMap_directive?_eq hmem fun use htarget => ?_
    simp only [givenFindings, htarget, hpart.schema_eq]
  | defaultsOfCorrectType =>
    rw [RelayRule.rule, RelayRule.rule, defaultsOfCorrectType, defaultsOfCorrectType,
      hpart.schema_eq]
  | noUnusedArguments =>
    rw [RelayRule.rule, RelayRule.rule, noUnusedArguments, noUnusedArguments, hpart.schema_eq]
  | requiredPageInfoFields => exact hpart.findings_requiredPageInfoFields_eq hmem hexecutable
  | missingConnectionDirective => rfl

end Context.IsPartOf

/-! ## Checks by a single rule -/

namespace Context

variable {context : Context}

/-- A rule alone that does not stop early finds all that depth lets it find. -/
theorem trail_singleton_of_followed {name : RuleName} (hfollowed : context.halt? [name] = none) :
    context.trail [name] =
      ⟨(name.rule context).findings (context.document.walk context.schema),
        context.document.isTooDeep⟩ := by
  have hfindings := context.findings_trail_singleton name
  rw [hfollowed, Halt.followed] at hfindings
  have haborted : (context.trail [name]).aborted =
      ((context.halt? [name]).isSome || context.document.isTooDeep) := rfl
  rw [hfollowed, Option.isSome_none, Bool.false_or] at haborted
  rw [← hfindings, ← haborted]

/-- A rule for fragment arguments or connections alone stops early only where it searches, as the
rules for names of variables and for positions do. -/
theorem halt?_singleton_eq_none {rule : RelayRule} (hnames : rule ≠ .knownVariableNames)
    (hpositions : rule ≠ .variablesInAllowedPosition) (parts : Parts) :
    context.halt? [.relay rule parts] = none := by
  refine (context.halt?_eq_firstMiss [(rule, parts)]).trans
    (Halt.firstMiss_eq_none_iff.mpr fun event _ => List.forall_mem_singleton.mpr ?_)
  have hsearches : (rule.rule parts context).searches event = [] := by
    cases rule with
    | knownVariableNames => exact absurd rfl hnames
    | variablesInAllowedPosition => exact absurd rfl hpositions
    | _ => rfl
  show context.furthest.misses ((rule.rule parts context).searches event) = false
  rw [hsearches, misses_nil]

/-- A rule for fragment arguments or connections that searches nothing finds alone all that depth
lets it find. -/
theorem trail_singleton_eq_walk {rule : RelayRule} (hnames : rule ≠ .knownVariableNames)
    (hpositions : rule ≠ .variablesInAllowedPosition) (parts : Parts) :
    context.trail [.relay rule parts] =
      ⟨(rule.rule parts context).findings (context.document.walk context.schema),
        context.document.isTooDeep⟩ :=
  trail_singleton_of_followed (halt?_singleton_eq_none hnames hpositions parts)

/-- A rule for fragment arguments or connections that searches nothing finds alone all there is to
find in a document that is not nested too deeply. -/
theorem trail_singleton_eq_events {rule : RelayRule} (hnames : rule ≠ .knownVariableNames)
    (hpositions : rule ≠ .variablesInAllowedPosition) (parts : Parts)
    (hdeep : context.document.isTooDeep = false) :
    context.trail [.relay rule parts] =
      ⟨(rule.rule parts context).findings (context.document.events context.schema), false⟩ := by
  rw [trail_singleton_eq_walk hnames hpositions, Document.walk_of_not_isTooDeep _ hdeep, hdeep]

/-- A rule for fragment arguments or connections that searches nothing finds alone what it finds in
the definitions before the first one that is nested too deeply. -/
theorem trail_singleton_eq_shallow {rule : RelayRule} (hnames : rule ≠ .knownVariableNames)
    (hpositions : rule ≠ .variablesInAllowedPosition) (suggest : Suggest) (test : LiteralTest) :
    context.trail [.relay rule { suggest, test }] =
      ⟨context.document.shallow.flatMap fun definition =>
          (rule.rule { suggest, test } context).findings (definition.events context.schema),
        context.document.isTooDeep⟩ := by
  rw [trail_singleton_eq_walk hnames hpositions,
    (RelayRule.isMemoryless hpositions suggest test context).findings_walk]

end Context

/-! ## Documents put together -/

/-- In operations and fragments of a part of a document of such definitions, a rule for fragment
arguments and connections other than that for positions finds what it finds in the part. -/
theorem Document.flatMap_findings_of_isPartOf {schema : Schema} {part whole : Document}
    (hpart : (Context.ofDocument schema part).IsPartOf (.ofDocument schema whole))
    (hexecutable : ∀ definition ∈ part.definitions, definition.isTypeSystem = false)
    (hwhole : ∀ definition ∈ whole.definitions, definition.isTypeSystem = false)
    (suggest : Suggest) (test : LiteralTest) {rule : RelayRule}
    (hrule : rule ≠ .variablesInAllowedPosition) {definitions : List Definition}
    (hdefinitions : definitions ⊆ part.definitions) :
    (definitions.flatMap fun definition =>
      (rule.rule { suggest, test } (.ofDocument schema whole)).findings
        (definition.events schema)) =
      definitions.flatMap fun definition =>
        (rule.rule { suggest, test } (.ofDocument schema part)).findings
          (definition.events schema) :=
  List.flatMap_congr fun definition hmem =>
    hpart.findings_relayRule_eq (hdefinitions hmem) (directives_eq_nil_of_executable hexecutable)
      (directives_eq_nil_of_executable hwhole) (hexecutable definition (hdefinitions hmem)) suggest
      test hrule

namespace Document.Separate

section Definitions

variable {first second : Document} (hseparate : first.Separate second)
  (hfirst : ∀ definition ∈ first.definitions, definition.isTypeSystem = false)
  (hsecond : ∀ definition ∈ second.definitions, definition.isTypeSystem = false)
  (schema : Schema) (suggest : Suggest) (test : LiteralTest) {rule : RelayRule}
  (hrule : rule ≠ .variablesInAllowedPosition)

include hseparate hfirst hsecond hrule

/-- In both documents put together, a rule finds what it finds in the first, then what it finds in
the second. -/
theorem relayFindings_append :
    relayFindings schema suggest test rule (first ++ second) =
      relayFindings schema suggest test rule first ++
        relayFindings schema suggest test rule second := by
  have hboth := List.forall_mem_append.mpr ⟨hfirst, hsecond⟩
  have hmemoryless := RelayRule.isMemoryless hrule suggest test
  have hleft := flatMap_findings_of_isPartOf (hseparate.isPartOf_left schema) hfirst hboth suggest
    test hrule (List.Subset.refl _)
  have hright := flatMap_findings_of_isPartOf (hseparate.isPartOf_right schema) hsecond hboth
    suggest test hrule (List.Subset.refl _)
  rw [relayFindings, relayFindings, relayFindings, (hmemoryless _).findings_events,
    (hmemoryless _).findings_events, (hmemoryless _).findings_events, definitions_append,
    List.flatMap_append, hleft, hright]

/-- As far as the depth of both documents put together lets it, a rule finds what it finds so in the
first, and then, unless that is nested too deeply, what it finds so in the second. -/
theorem findings_walk_append :
    let walked (document : Document) : List Finding :=
      (rule.rule { suggest, test } (.ofDocument schema document)).findings (document.walk schema)
    walked (first ++ second) =
      if first.isTooDeep then walked first else walked first ++ walked second := by
  intro walked
  have hwalked (document : Document) : walked document = document.shallow.flatMap fun definition =>
      (rule.rule { suggest, test } (.ofDocument schema document)).findings
        (definition.events schema) :=
    (RelayRule.isMemoryless hrule suggest test _).findings_walk schema document
  have hboth := List.forall_mem_append.mpr ⟨hfirst, hsecond⟩
  have hleft := flatMap_findings_of_isPartOf (hseparate.isPartOf_left schema) hfirst hboth suggest
    test hrule first.isPrefix_shallow.subset
  have hright := flatMap_findings_of_isPartOf (hseparate.isPartOf_right schema) hsecond hboth
    suggest test hrule second.isPrefix_shallow.subset
  rw [hwalked, hwalked, hwalked, hseparate.shallow_append]
  cases hdeep : first.isTooDeep with
  | true => exact hleft
  | false =>
    -- all of the first document is followed, and then the second as far as it would be alone
    rw [← shallow_eq_definitions_iff.mpr hdeep]
    simp only [Bool.false_eq_true, if_false, List.flatMap_append]
    rw [hleft, hright]

end Definitions

/-- Take two documents of operations and fragments that mention no fragments of each other. In both
put together, each rule for fragment arguments and connections other than that for positions finds
what it finds in the first, followed by what it finds in the second. A check by the rule alone finds
the first part of that. If the rule gives up no search in any of the documents, which the rule for
names of variables may do, the check finds what a check of the first document finds, and then,
unless that is nested too deeply, what a check of the second finds. -/
theorem trail_append {first second : Document} (hseparate : first.Separate second)
    (hfirst : ∀ definition ∈ first.definitions, definition.isTypeSystem = false)
    (hsecond : ∀ definition ∈ second.definitions, definition.isTypeSystem = false)
    (schema : Schema) (suggest : Suggest) (test : LiteralTest) {rule : RelayRule}
    (hrule : rule ≠ .variablesInAllowedPosition) :
    let found := relayFindings schema suggest test rule
    let check (document : Document) : Trail :=
      (Context.ofDocument schema document).trail [.relay rule { suggest, test }]
    let isFollowed (document : Document) : Prop :=
      rule = .knownVariableNames →
        (Context.ofDocument schema document).halt? [.relay rule { suggest, test }] = none
    found (first ++ second) = found first ++ found second ∧
      (check (first ++ second)).findings <+: found first ++ found second ∧
      (isFollowed first → isFollowed second → isFollowed (first ++ second) →
        check (first ++ second) =
          if first.isTooDeep then check first
          else ⟨(check first).findings ++ (check second).findings, (check second).aborted⟩) := by
  intro found check isFollowed
  have hfound : found (first ++ second) = found first ++ found second :=
    hseparate.relayFindings_append hfirst hsecond schema suggest test hrule
  refine ⟨hfound, ?_, fun hleft hright hboth => ?_⟩
  · rw [← hfound]
    exact ((Context.ofDocument schema (first ++ second)).isPrefix_findings_trail_singleton
      (.relay rule { suggest, test })).1
  · -- a rule that is followed to the end of the walk finds all that the walk shows
    have hcheck {document : Document} (hfollowed : isFollowed document) : check document =
        ⟨(rule.rule { suggest, test } (.ofDocument schema document)).findings
          (document.walk schema), document.isTooDeep⟩ := by
      refine Context.trail_singleton_of_followed ?_
      by_cases hname : rule = .knownVariableNames
      · exact hfollowed hname
      · exact Context.halt?_singleton_eq_none hname hrule _
    have hwalk := hseparate.findings_walk_append hfirst hsecond schema suggest test hrule
    dsimp only at hwalk
    rw [hcheck hleft, hcheck hright, hcheck hboth, hwalk, hseparate.isTooDeep_append]
    cases hdeep : first.isTooDeep <;> rfl

end Document.Separate

/-- The query `query A { ...P }` with the fragment `fragment P on Query { picture(size: $size) }`.
-/
def undeclaredDocument : Document :=
  let query := pictureQuery "A" "P" (.named ⟨"Int", ⟨1, 16⟩⟩) 1
  ⟨[.operation { query with variableDefinitions := [] }, .fragment (pictureFragment "P" 2)]⟩

/-- The fragment `fragment Q on Query { picture(size: $size) }` alone. -/
def strayDocument : Document :=
  ⟨[.fragment (pictureFragment "Q" 3)]⟩

/-- Neither a query that spreads a fragment nor another fragment declares the size. The rule for
names of variables finds the use in the query's fragment and that in the other fragment. -/
theorem Document.Separate.trail_append_undeclared :
    let name : RuleName := .relay .knownVariableNames {}
    let check (document : Document) : Trail :=
      (Context.ofDocument pictureSchema document).trail [name]
    undeclaredDocument.Separate strayDocument ∧
      (∀ definition ∈ (undeclaredDocument ++ strayDocument).definitions,
        definition.isTypeSystem = false) ∧
      (∀ document ∈ [undeclaredDocument, strayDocument, undeclaredDocument ++ strayDocument],
        (Context.ofDocument pictureSchema document).halt? [name] = none) ∧
      check (undeclaredDocument ++ strayDocument) =
        ⟨[.relay (.undefinedVariable "size" (some "A") (some "P")) [⟨2, 37⟩, ⟨1, 1⟩],
          .relay (.undefinedInFragment "size" "Q") [⟨3, 37⟩]], false⟩ := by
  intro name check
  have hseparate : undeclaredDocument.Separate strayDocument := ⟨by decide, by decide⟩
  have hfollowed : ∀ document ∈
      [undeclaredDocument, strayDocument, undeclaredDocument ++ strayDocument],
      (Context.ofDocument pictureSchema document).halt? [name] = none := by
    -- no search is given up if there is room for all of them from the start
    have hroom {document : Document} (h : ((Context.fresh pictureSchema document).searchAll?
        document.operations).isSome = true) :
        (Context.ofDocument pictureSchema document).halt? [name] = none := if_pos h
    rw [List.forall_mem_cons, List.forall_mem_cons, List.forall_mem_singleton]
    exact ⟨hroom (by cbv), hroom (by cbv), hroom (by cbv)⟩
  have hleft : (Context.ofDocument pictureSchema undeclaredDocument).trail
      [.relay .knownVariableNames {}] =
      ⟨[.relay (.undefinedVariable "size" (some "A") (some "P")) [⟨2, 37⟩, ⟨1, 1⟩]], false⟩ := by
    cbv
  have hright : (Context.ofDocument pictureSchema strayDocument).trail
      [.relay .knownVariableNames {}] =
      ⟨[.relay (.undefinedInFragment "size" "Q") [⟨3, 37⟩]], false⟩ := by
    cbv
  have happend := (hseparate.trail_append (by decide) (by decide) pictureSchema suggestions
    denotesValue (by decide : RelayRule.knownVariableNames ≠ _)).2.2
    (fun _ => hfollowed undeclaredDocument (by simp)) (fun _ => hfollowed strayDocument (by simp))
    (fun _ => hfollowed (undeclaredDocument ++ strayDocument) (by simp))
  have hdeep : undeclaredDocument.isTooDeep = false := by decide
  dsimp only at happend
  rw [hdeep, if_neg Bool.false_ne_true, hleft, hright] at happend
  exact ⟨hseparate, by decide, hfollowed, happend⟩

/-! ## A document that is nested too deeply -/

/-- A check by a rule that looks at one event after the other finds nothing if it enters no
definition. -/
theorem trail_of_shallow_eq_nil {schema : Schema} {document : Document} {name : RuleName}
    (hname : (name.rule (.ofDocument schema document)).IsMemoryless)
    (hshallow : document.shallow = []) (hdeep : document.isTooDeep = true) :
    (Context.ofDocument schema document).trail [name] = ⟨[], true⟩ := by
  have hwalk : (name.rule (.ofDocument schema document)).findings (document.walk schema) = [] := by
    rw [hname.findings_walk, hshallow, List.flatMap_nil]
  have hfindings : ((Context.ofDocument schema document).trail [name]).findings = [] := by
    rw [Context.findings_trail_singleton, ← List.prefix_nil, ← hwalk]
    exact Rule.findings_prefix _ (Halt.isPrefix_followed _ _ _)
  have haborted : ((Context.ofDocument schema document).trail [name]).aborted = true :=
    Bool.or_eq_true_iff.mpr (.inr hdeep)
  rw [← hfindings, ← haborted]

/-- The document `query A($size: Int) { ...P } fragment P on Query { picture(size: $size) }`, where
what is selected is nested in fragments written in place, not too deeply in itself. -/
def nestedDocument : Document :=
  let query := pictureQuery "A" "P" (.named ⟨"Int", ⟨1, 16⟩⟩) 1
  let fragment := pictureFragment "P" 2
  ⟨[.operation { query with selections := nestedSelections query.selections 120 },
    .fragment { fragment with selections := nestedSelections fragment.selections 120 }]⟩

/-- The spread leads too deep in a document, and another fragment uses a size without declaration.
If both are put together, their check ends in the first document, so that the error that is found in
the second alone is not found. -/
theorem Document.Separate.not_errors_append_nestedDocument :
    let check (document : Document) : Except SuggestionFault Outcome :=
      pictureSchema.check document [.relay .knownVariableNames {}]
    nestedDocument.Separate strayDocument ∧
      (∀ definition ∈ (nestedDocument ++ strayDocument).definitions,
        definition.isTypeSystem = false) ∧
      ∃ left right both, check nestedDocument = .ok left ∧ check strayDocument = .ok right ∧
        check (nestedDocument ++ strayDocument) = .ok both ∧
          both.errors ≠ left.errors ++ right.errors := by
  intro check
  have hseparate : nestedDocument.Separate strayDocument :=
    ⟨by decide +kernel, by decide +kernel⟩
  have hdeep : nestedDocument.isTooDeep = true := by decide +kernel
  have hshallow : nestedDocument.shallow = [] := by
    rw [← List.isEmpty_iff]
    decide +kernel
  -- no rule gets to see anything if already the first definition is nested too deeply
  have habort {document : Document} (hshallow : document.shallow = [])
      (hdeep : document.isTooDeep = true) :
      check document = .ok ⟨[⟨.aborted, []⟩], []⟩ := by
    have hmemoryless : ((RuleName.relay .knownVariableNames {}).rule
        (.ofDocument pictureSchema.withRelayDirectives document)).IsMemoryless :=
      RelayRule.isMemoryless (by decide : RelayRule.knownVariableNames ≠ _) suggestions
        denotesValue _
    exact congrArg Outcome.ofTrail (trail_of_shallow_eq_nil hmemoryless hshallow hdeep)
  have hright : pictureSchema.check strayDocument [.relay .knownVariableNames {}] =
      .ok ⟨[⟨.relay (.undefinedInFragment "size" "Q"), [⟨3, 37⟩]⟩], []⟩ := by cbv
  have hboth : check (nestedDocument ++ strayDocument) = .ok ⟨[⟨.aborted, []⟩], []⟩ := by
    refine habort ?_ ?_
    · rw [hseparate.shallow_append, if_pos hdeep, hshallow]
    · rw [hseparate.isTooDeep_append, hdeep, Bool.true_or]
  refine ⟨hseparate, by decide +kernel, _, _, _, habort hshallow hdeep, hright, hboth,
    fun heq => ?_⟩
  cases congrArg List.length heq

end RelayCheck
