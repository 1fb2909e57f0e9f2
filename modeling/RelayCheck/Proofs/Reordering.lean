import RelayCheck.Proofs.Connections.Pagination
import RelayCheck.Proofs.FragmentArguments.Reordering
import RelayCheck.Proofs.Fragments.Nesting
import RelayCheck.Proofs.Independence
import RelayCheck.RuleName

/-!
# The order of definitions

A document may list its operations and fragments in any order. The rules for fragment arguments and
connections find the same in all of them, though not at the same places: which of several equal
findings is reported, and at which operation, may depend on the order. A check that stops early finds
the first part of that, and which part that is does depend on the order.

The main result is `messages_perm_of_definitions_perm`.
-/

namespace RelayCheck

namespace Context.Reorders

variable {context other : Context}

/-- What is wrong with fragment arguments is the same. -/
theorem fragmentArgumentFindings_eq (h : context.Reorders other) (suggest : Suggest) :
    fragmentArgumentFindings suggest other = fragmentArgumentFindings suggest context := by
  funext visit
  simp only [fragmentArgumentFindings, target?, fragment?, h.schema_eq, h.fragment?_eq]

/-- Neither document defines directives, so that what is wrong with other arguments is the same. -/
theorem unknownArguments_eq (h : context.Reorders other) :
    LanguageRules.unknownArguments other = LanguageRules.unknownArguments context := by
  funext visit
  simp only [LanguageRules.unknownArguments, LanguageRules.unknownDirectiveArguments,
    LanguageRules.knownDirective?, h.directives_eq_nil, h.symm.directives_eq_nil, h.schema_eq]

/-- A rule that looks at nodes alone, and is the same in both contexts, finds the same in both
documents. -/
theorem saySame_of_rule_eq (h : context.Reorders other) {rule reordered : Rule}
    {look : Visit → List Finding} (hlook : rule = .onEnter look)
    (hdocument : ∀ document scope, look ⟨.document document, scope⟩ = [])
    (hrule : reordered = rule) :
    SaySame (rule.findings (context.document.events context.schema))
      (reordered.findings (other.document.events other.schema)) := by
  rw [hrule, hlook, h.schema_eq]
  exact saySame_findings_onEnter hdocument _ h.definitions_perm

/-- Each rule for fragment arguments and connections finds the same in both documents. -/
theorem saySame_relayRule (h : context.Reorders other) (suggest : Suggest) (test : LiteralTest)
    (rule : RelayRule) :
    SaySame
      ((rule.rule { suggest, test } context).findings (context.document.events context.schema))
      ((rule.rule { suggest, test } other).findings (other.document.events other.schema)) := by
  -- the other rules look at one definition and, beyond it, only at what names of fragments lead to
  cases rule with
  | knownVariableNames => exact h.saySame_knownVariableNames
  | variablesInAllowedPosition => exact h.saySame_variablesInAllowedPosition
  | knownArgumentNames =>
    refine h.saySame_of_rule_eq rfl (fun _ _ => rfl) ?_
    simp only [RelayRule.rule, knownFragmentArguments, h.fragmentArgumentFindings_eq,
      h.unknownArguments_eq]
  | argumentsOfCorrectType =>
    refine h.saySame_of_rule_eq rfl (fun _ _ => rfl) ?_
    simp only [RelayRule.rule, argumentsOfCorrectType, target?, fragment?, h.fragment?_eq,
      h.schema_eq]
  | defaultsOfCorrectType =>
    refine h.saySame_of_rule_eq rfl (fun _ _ => rfl) ?_
    simp only [RelayRule.rule, defaultsOfCorrectType, h.schema_eq]
  | noUnusedArguments =>
    refine h.saySame_of_rule_eq rfl (fun _ _ => rfl) ?_
    simp only [RelayRule.rule, noUnusedArguments, h.schema_eq]
  | requiredPageInfoFields =>
    refine h.saySame_of_rule_eq rfl (fun _ _ => rfl) ?_
    have hfields := Document.connectionFields_congr h.fragment?_eq
    simp only [RelayRule.rule, requiredPageInfoFields, pageInfoFindings, hfields, h.schema_eq]
  | missingConnectionDirective => exact h.saySame_of_rule_eq rfl (fun _ _ => rfl) rfl

end Context.Reorders

/-- What a rule for fragment arguments and connections finds in a document, with the given choice of
names to offer and test of literals. -/
def Document.relayFindings (schema : Schema) (suggest : Suggest) (test : LiteralTest)
    (rule : RelayRule) (document : Document) : List Finding :=
  (rule.rule { suggest, test } (.ofDocument schema document)).findings (document.events schema)

/-- In a document of operations and fragments with unique names of fragments, the order of the
definitions does not matter: if they are listed in another order, each rule for fragment arguments
and connections, followed to the end of the document, gives the same error messages and the same
warnings, each as often as before. A check by the rule alone gives the first part of these, and so
the same for both orders if it stops early in neither. -/
theorem messages_perm_of_definitions_perm {schema : Schema} {document other : Document}
    (hperm : document.definitions.Perm other.definitions)
    (hexecutable : ∀ definition ∈ document.definitions, definition.isTypeSystem = false)
    (hunique : document.UniqueFragmentNames) (suggest : Suggest) (test : LiteralTest)
    (rule : RelayRule) :
    let found := Document.relayFindings schema suggest test rule
    let check (document : Document) : Trail :=
      (Context.ofDocument schema document).trail [.relay rule { suggest, test }]
    let errors (findings : List Finding) : List String :=
      (findings.filterMap Finding.diagnostic?).map fun diagnostic => diagnostic.problem.message
    let warnings (findings : List Finding) : List String :=
      (findings.filterMap Finding.warning?).map Warning.message
    (errors (found document)).Perm (errors (found other)) ∧
    (warnings (found document)).Perm (warnings (found other)) ∧
    (check document).findings <+: found document ∧ (check other).findings <+: found other ∧
    ((check document).aborted = false → (check other).aborted = false →
      (errors (check document).findings).Perm (errors (check other).findings) ∧
      (warnings (check document).findings).Perm (warnings (check other).findings)) := by
  intro found check errors warnings
  have h : (Context.ofDocument schema document).Reorders (Context.ofDocument schema other) :=
    ⟨rfl, hperm, hunique, hexecutable⟩
  have hsame := h.saySame_relayRule suggest test rule
  obtain ⟨hfirst, hall⟩ := (Context.ofDocument schema document).isPrefix_findings_trail_singleton
    (.relay rule { suggest, test })
  obtain ⟨hfirst', hall'⟩ := (Context.ofDocument schema other).isPrefix_findings_trail_singleton
    (.relay rule { suggest, test })
  refine ⟨hsame.errors, hsame.warnings, hfirst, hfirst', fun hfollowed hfollowed' => ?_⟩
  rw [hall hfollowed, hall' hfollowed']
  exact ⟨hsame.errors, hsame.warnings⟩

/-- Two queries use one fragment. The picture's size has to be given, which one of them does not
see to. This is found at that query, or at the fragment if it is listed before the queries, but the
message is the same. -/
theorem messages_perm_of_definitions_perm_picture :
    let size (column : Nat) : TypeRef Name := .named ⟨"Int", ⟨1, column⟩⟩
    let queries : List Definition := [
      .operation (pictureQuery "A" "P" (.nonNull (size 1)) 1),
      .operation (pictureQuery "B" "P" (size 2) 2)]
    let fragment : Definition := .fragment (pictureFragment "P" 3)
    let found := Document.relayFindings pictureSchema suggestions denotesValue
      .variablesInAllowedPosition
    let messages (document : Document) : List String :=
      ((found document).filterMap Finding.diagnostic?).map fun diagnostic =>
        diagnostic.problem.message
    let problem : Problem := .relay (.badPosition "size" (.named "Int") (.nonNull (.named "Int")))
    found ⟨queries ++ [fragment]⟩ = [.error ⟨problem, [⟨2, 1⟩]⟩] ∧
      found ⟨fragment :: queries⟩ = [.error ⟨problem, [⟨3, 37⟩]⟩] ∧
      messages ⟨fragment :: queries⟩ = [problem.message] := by
  intro size queries fragment found messages problem
  have hlast : Document.relayFindings pictureSchema suggestions denotesValue
      .variablesInAllowedPosition ⟨queries ++ [fragment]⟩ = [.error ⟨problem, [⟨2, 1⟩]⟩] := by cbv
  have hfirst : Document.relayFindings pictureSchema suggestions denotesValue
      .variablesInAllowedPosition ⟨fragment :: queries⟩ = [.error ⟨problem, [⟨3, 37⟩]⟩] := by cbv
  have hmessages : messages ⟨queries ++ [fragment]⟩ = [problem.message] := by
    simp only [messages, found, hlast]
    rfl
  have hperm : (messages ⟨queries ++ [fragment]⟩).Perm (messages ⟨fragment :: queries⟩) :=
    (messages_perm_of_definitions_perm (List.perm_append_singleton fragment queries) (by decide)
      (by decide) suggestions denotesValue .variablesInAllowedPosition).1
  rw [hmessages, List.singleton_perm] at hperm
  exact ⟨hlast, hfirst, hperm.symm⟩

/-- A spread leads too deep in one fragment, and another fragment uses a size without declaration.
The check stops before the former, so that the latter is reported only if it is listed first. -/
theorem not_messages_perm_nestedFragments :
    let stray : Definition := .fragment (pictureFragment "Q" 3)
    let last : Document := ⟨nestedFragments.definitions ++ [stray]⟩
    let first : Document := ⟨stray :: nestedFragments.definitions⟩
    let check (document : Document) : Except SuggestionFault Outcome :=
      pictureSchema.check document [.relay .knownVariableNames {}]
    last.definitions.Perm first.definitions ∧
      (∀ definition ∈ last.definitions, definition.isTypeSystem = false) ∧
      last.UniqueFragmentNames ∧
      ∃ outcome other, check last = .ok outcome ∧ check first = .ok other ∧
        ¬(outcome.errors.map fun diagnostic => diagnostic.problem.message).Perm
          (other.errors.map fun diagnostic => diagnostic.problem.message) := by
  intro stray last first check
  have hchecks : (match check last, check first with
      | .ok outcome, .ok other =>
        decide (outcome.errors.length = 1) && decide (other.errors.length = 2)
      | _, _ => false) = true := by decide +kernel
  refine ⟨List.perm_append_singleton _ _, by decide +kernel, by decide +kernel, ?_⟩
  split at hchecks
  next outcome other hlast hfirst =>
    rw [Bool.and_eq_true, decide_eq_true_eq, decide_eq_true_eq] at hchecks
    refine ⟨outcome, other, hlast, hfirst, fun hperm => ?_⟩
    -- one error is reported in one order and two are in the other
    have hlength := hperm.length_eq
    rw [List.length_map, List.length_map, hchecks.1, hchecks.2] at hlength
    cases hlength
  next => cases hchecks

end RelayCheck
