import RelayCheck.Proofs.Validation.Trail

/-!
# Checks without errors

Findings are reported in order as long as there is room for errors, and an error says so where some
are left out or the rules stop early. So a check without errors is complete: all its rules have
followed the whole document, and none of them has found an error.

The module introduces `Rule.IsQuiet`: a rule finds no error on a walk.

The main results are `Schema.isQuiet_of_check` and its converse for documents that can be followed
to their end, `Schema.exists_check_of_isQuiet`.
-/

namespace RelayCheck

/-! ## Rules without errors -/

namespace Rule

/-- The rule finds no error on the walk. It may find something odd. -/
def IsQuiet (rule : Rule) (events : List Event) : Prop :=
  ∀ finding ∈ rule.findings events, finding.diagnostic? = none

variable {look : Visit → List Finding} {events : List Event} {visit : Visit}

/-- A rule without errors that looks at nodes when it enters them finds none at any of them. -/
theorem IsQuiet.onEnter (h : (Rule.onEnter look).IsQuiet events) (hvisit : .enter visit ∈ events) :
    ∀ finding ∈ look visit, finding.diagnostic? = none := by
  intro finding hfinding
  refine h finding ?_
  rw [Rule.onEnter, findings_ofEvent]
  exact List.mem_flatMap.mpr ⟨_, hvisit, hfinding⟩

/-- A rule without errors that looks at nodes when it leaves them finds none at any of them. -/
theorem IsQuiet.onLeave (h : (Rule.onLeave look).IsQuiet events) (hvisit : .leave visit ∈ events) :
    ∀ finding ∈ look visit, finding.diagnostic? = none := by
  intro finding hfinding
  refine h finding ?_
  rw [Rule.onLeave, findings_ofEvent]
  exact List.mem_flatMap.mpr ⟨_, hvisit, hfinding⟩

/-- What a rule looks for does not make it find errors. -/
theorem isQuiet_searching {rule : Rule} {searches : Event → List Operation} :
    (rule.searching searches).IsQuiet events ↔ rule.IsQuiet events := by
  rw [IsQuiet, findings_searching]
  rfl

end Rule

/-! ## Reports without errors -/

/-- No error is reported exactly if there is none to report, neither among the findings nor at their
end: an error that is left out for want of room is replaced by another. -/
theorem filterMap_diagnostic?_limited_eq_nil_iff (atEnd : List Finding) (room : Nat)
    (findings : List Finding) :
    (limited atEnd room findings).filterMap Finding.diagnostic? = [] ↔
      findings.filterMap Finding.diagnostic? = [] ∧
        atEnd.filterMap Finding.diagnostic? = [] := by
  induction findings generalizing room with
  | nil => simp [limited]
  | cons finding rest ih =>
    cases finding with
    | warning warning => simp only [limited, List.filterMap_cons, Finding.diagnostic?, ih]
    | error diagnostic =>
      -- whether there is room for the error or not, one is reported
      cases room <;> simp [limited, Finding.diagnostic?]

/-- The errors of an outcome are those that are reported of a trail. -/
theorem Outcome.errors_of_ofTrail {trail : Trail} {outcome : Outcome}
    (h : Outcome.ofTrail trail = .ok outcome) :
    outcome.errors = (limited (if trail.aborted then [.error ⟨.aborted, []⟩] else []) errorLimit
      trail.findings).filterMap Finding.diagnostic? := by
  simp only [ofTrail] at h
  generalize limited _ errorLimit trail.findings = reported at h ⊢
  split at h
  next => cases h
  next =>
    injection h with houtcome
    rw [← houtcome]

/-- An outcome is without errors exactly if the rules follow the whole document and find none. -/
theorem Outcome.errors_eq_nil_iff {trail : Trail} {outcome : Outcome}
    (h : Outcome.ofTrail trail = .ok outcome) :
    outcome.errors = [] ↔ trail.aborted = false ∧
      ∀ finding ∈ trail.findings, finding.diagnostic? = none := by
  rw [errors_of_ofTrail h, filterMap_diagnostic?_limited_eq_nil_iff, List.filterMap_eq_nil_iff,
    and_comm]
  cases trail.aborted <;> simp [Finding.diagnostic?]

/-! ## Checks without errors -/

/-- Rules find no error side by side exactly if none of them finds one alone. -/
theorem forall_sideBySide_iff {rules : List Rule} {events : List Event} :
    (∀ finding ∈ sideBySide rules events, finding.diagnostic? = none) ↔
      ∀ rule ∈ rules, rule.IsQuiet events := by
  constructor
  · intro hquiet rule hrule finding hfinding
    rw [Rule.findings_eq] at hfinding
    obtain ⟨index, hindex, hfound⟩ := List.mem_flatMap.mp hfinding
    refine hquiet finding ?_
    rw [sideBySide_eq]
    exact List.mem_flatMap.mpr ⟨index, hindex, List.mem_flatMap.mpr ⟨rule, hrule, hfound⟩⟩
  · intro hquiet finding hfinding
    obtain ⟨rule, hrule, hfound⟩ := mem_findings_of_mem_sideBySide hfinding
    exact hquiet rule hrule finding hfound

namespace Schema

variable {schema : Schema} {document : Document} {rules : List RuleName}

/-- If a document is checked without errors, each rule followed to its end finds none. -/
theorem isQuiet_of_check {outcome : Outcome} (hcheck : schema.check document rules = .ok outcome)
    (hquiet : outcome.errors = []) {name : RuleName} (hname : name ∈ rules) :
    (name.rule (.ofDocument schema.withRelayDirectives document)).IsQuiet
      (document.events schema.withRelayDirectives) := by
  obtain ⟨hfollowed, hfindings⟩ := (Outcome.errors_eq_nil_iff hcheck).mp hquiet
  rw [Context.findings_trail_of_followed hfollowed] at hfindings
  exact forall_sideBySide_iff.mp hfindings _ (List.mem_map_of_mem hname)

/-- A document that can be followed to its end is checked without errors if no rule finds one. -/
theorem exists_check_of_isQuiet
    (hroom : ((Context.fresh schema.withRelayDirectives document).searchAll?
      document.operations).isSome = true)
    (hdeep : document.isTooDeep = false)
    (hquiet : ∀ name ∈ rules, (name.rule (.ofDocument schema.withRelayDirectives document)).IsQuiet
      (document.events schema.withRelayDirectives)) :
    ∃ outcome, schema.check document rules = .ok outcome ∧ outcome.errors = [] := by
  let trail := (Context.ofDocument schema.withRelayDirectives document).trail rules
  have hfollowed : trail.aborted = false := Context.aborted_trail_eq_false rules hroom hdeep
  have hfindings : trail.findings.filterMap Finding.diagnostic? = [] := by
    rw [List.filterMap_eq_nil_iff, Context.findings_trail_of_followed hfollowed,
      forall_sideBySide_iff, List.forall_mem_map]
    exact hquiet
  have hreported := (filterMap_diagnostic?_limited_eq_nil_iff [] errorLimit _).mpr ⟨hfindings, rfl⟩
  refine ⟨⟨[], (limited [] errorLimit trail.findings).filterMap Finding.warning?⟩, ?_, rfl⟩
  show Outcome.ofTrail trail = _
  simp only [Outcome.ofTrail, hfollowed, Bool.false_eq_true, if_false, hreported,
    List.findSome?_nil]

end Schema

/-- The rules for fragment arguments are among the standard rules. -/
theorem mem_standardRules_of_relay (compat : Bool) (supply : Supply) {rule : RelayRule}
    (h : rule ∈ RelayRule.always) : .relay rule {} ∈ standardRules compat supply :=
  List.mem_append_left _ (List.mem_map_of_mem (List.mem_append_left _ h))

/-- The rules that hold for all documents are among the standard rules. -/
theorem mem_standardRules_of_language (compat : Bool) (supply : Supply) (rule : LanguageRule) :
    .language rule supply ∈ standardRules compat supply := by
  have hall : rule ∈ LanguageRule.all := by
    cases rule with
    | supplied rule => cases rule <;> decide
    | _ => decide
  exact List.mem_append_right _ (List.mem_map_of_mem hall)

end RelayCheck
