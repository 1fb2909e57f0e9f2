import RelayCheck.Check
import RelayCheck.Proofs.Validation.Run
import RelayCheck.Proofs.Validation.SideBySide

/-!
# Places of findings

Whatever a rule finds wrong with a document shows somewhere in it: an error that a rule reports has
at least one place. Only the errors that end a check early have none.

The module introduces:

- `Finding.IsPlaced` and `AllPlaced`, findings that show somewhere;
- `Rule.FindsPlaced`, for rules at every step of which this is so, and `Supply.FindsPlaced`, for the
  rules that are defined elsewhere on a document.

The main result is `allPlaced_trail`.
-/

namespace RelayCheck

/-- An error shows at some place. Nothing is asked of warnings, which have no places. -/
def Finding.IsPlaced : Finding → Prop
  | .error diagnostic => diagnostic.places ≠ []
  | .warning _ => True

@[simp]
theorem Finding.isPlaced_language {problem : LanguageProblem} {places : List Position} :
    (Finding.language problem places).IsPlaced ↔ places ≠ [] := Iff.rfl

@[simp]
theorem Finding.isPlaced_relay {problem : RelayProblem} {places : List Position} :
    (Finding.relay problem places).IsPlaced ↔ places ≠ [] := Iff.rfl

@[simp]
theorem Finding.isPlaced_warning {warning : Warning} : (Finding.warning warning).IsPlaced :=
  True.intro

/-- All findings are placed. -/
def AllPlaced (findings : List Finding) : Prop :=
  ∀ finding ∈ findings, finding.IsPlaced

namespace AllPlaced

variable {α : Type} {finding : Finding} {findings more : List Finding}

@[simp]
theorem nil : AllPlaced [] := List.forall_mem_nil _

@[simp]
theorem cons_iff : AllPlaced (finding :: findings) ↔ finding.IsPlaced ∧ AllPlaced findings :=
  List.forall_mem_cons

@[simp]
theorem append_iff : AllPlaced (findings ++ more) ↔ AllPlaced findings ∧ AllPlaced more :=
  List.forall_mem_append

@[simp]
theorem map_iff {report : α → Finding} {items : List α} :
    AllPlaced (items.map report) ↔ ∀ item ∈ items, (report item).IsPlaced :=
  List.forall_mem_map

@[simp]
theorem ite_iff {condition : Prop} [Decidable condition] :
    AllPlaced (if condition then findings else more) ↔
      (condition → AllPlaced findings) ∧ (¬condition → AllPlaced more) := by
  split <;> simp_all

/-- What is found about several things is placed if that is so for each of them. -/
theorem flatMap {look : α → List Finding} {items : List α}
    (h : ∀ item ∈ items, AllPlaced (look item)) : AllPlaced (items.flatMap look) := by
  intro finding hfinding
  obtain ⟨item, hitem, hfound⟩ := List.mem_flatMap.mp hfinding
  exact h item hitem finding hfound

/-- What may turn out to be found about several things is placed if it is so wherever it is found.
-/
theorem filterMap {look : α → Option Finding} {items : List α}
    (h : ∀ item finding, look item = some finding → finding.IsPlaced) :
    AllPlaced (items.filterMap look) := by
  intro finding hfinding
  obtain ⟨item, -, hfound⟩ := List.mem_filterMap.mp hfinding
  exact h item finding hfound

/-- Findings that are collected with a state are placed if each step only adds such. -/
theorem foldl {σ : Type} {step : List Finding × σ → α → List Finding × σ} {items : List α}
    {state : σ} (h : ∀ before item, AllPlaced before.1 → AllPlaced (step before item).1) :
    AllPlaced (items.foldl step ([], state)).1 :=
  List.foldlRecOn (motive := fun before : List Finding × σ => AllPlaced before.1) items step nil
    fun before hbefore item _ => h before item hbefore

end AllPlaced

/-! ## Rules -/

/-- Whatever the rule remembers, what it finds at an event is placed. -/
def Rule.FindsPlaced (rule : Rule) : Prop :=
  ∀ state event, AllPlaced (rule.step state event).1

namespace Rule.FindsPlaced

variable {rule : Rule}

/-- What the rule finds on a walk is placed. -/
theorem allPlaced_findings (h : rule.FindsPlaced) (events : List Event) :
    AllPlaced (rule.findings events) := by
  -- the state differs from event to event
  suffices hcollect : ∀ state, AllPlaced (collect rule.step state events).1 by
    rw [findings_eq_collect]
    exact hcollect rule.start
  induction events with
  | nil => exact fun _ => .nil
  | cons event rest ih =>
    intro state
    rw [collect, AllPlaced.append_iff]
    exact ⟨h state event, ih _⟩

/-- A rule that finds nothing. -/
theorem silent : Rule.silent.FindsPlaced := fun _ _ => .nil

/-- A rule that looks at nodes when it enters them. -/
theorem onEnter {look : Visit → List Finding} (h : ∀ visit, AllPlaced (look visit)) :
    (Rule.onEnter look).FindsPlaced
  | _, .enter visit => h visit
  | _, .leave _ => .nil

/-- A rule that looks at nodes when it leaves them. -/
theorem onLeave {look : Visit → List Finding} (h : ∀ visit, AllPlaced (look visit)) :
    (Rule.onLeave look).FindsPlaced
  | _, .enter _ => .nil
  | _, .leave visit => h visit

/-- A rule that looks at nodes when it enters them, and remembers. -/
theorem remembering {σ : Type} {start : σ} {look : σ → Visit → List Finding × σ}
    (h : ∀ state visit, AllPlaced (look state visit).1) :
    (Rule.remembering start look).FindsPlaced
  | state, .enter visit => h state visit
  | _, .leave _ => .nil

/-- A rule that searches. -/
theorem searching (h : rule.FindsPlaced) (searches : Event → List Operation) :
    (rule.searching searches).FindsPlaced := h

end Rule.FindsPlaced

/-! ## Rules that hold for all documents -/

namespace LanguageRules

/-- Equal names are reported where they stand. -/
theorem allPlaced_reportRepeated (problem : String → LanguageProblem) (names : List Name) :
    AllPlaced (reportRepeated problem names) := by
  rw [reportRepeated, AllPlaced.map_iff]
  intro group hgroup
  -- only names that occur more than once are grouped
  have hlength : group.length > 1 := by simpa using (List.mem_filter.mp hgroup).2
  rw [Finding.isPlaced_language, ne_eq, List.map_eq_nil_iff]
  rintro rfl
  cases hlength

/-- The second bearer of a name is reported where both stand. -/
theorem allPlaced_reportSecond (problem : String → LanguageProblem) (known : List Name)
    (name : Name) : AllPlaced (reportSecond problem known name) := by
  rw [reportSecond]
  split <;> simp

/-- Repeated directives are reported where they stand. -/
theorem allPlaced_repeatedAmong (context : Context) (seen directives : List Directive) :
    AllPlaced (repeatedAmong context seen directives).1 := by
  refine AllPlaced.foldl fun before directive hbefore => ?_
  dsimp only
  split
  · exact hbefore
  · split
    · exact hbefore
    · split
      · simpa using hbefore
      · exact hbefore

/-- Unknown arguments of a field are reported where they stand. -/
theorem allPlaced_unknownFieldArgument (visit : Visit) :
    AllPlaced (unknownFieldArgument visit) := by
  rw [unknownFieldArgument]
  split <;> simp

/-- Unknown arguments of a directive are reported where they stand. -/
theorem allPlaced_unknownDirectiveArguments (context : Context) (visit : Visit) :
    AllPlaced (unknownDirectiveArguments context visit) := by
  rw [unknownDirectiveArguments]
  split
  · split <;> simp
  · exact .nil

/-- Arguments that a directive is not given are reported at the directive. -/
theorem allPlaced_missingDirectiveArguments (context : Context) (visit : Visit) :
    AllPlaced (missingDirectiveArguments context visit) := by
  rw [missingDirectiveArguments]
  split
  · split <;> simp
  · exact .nil

/-- Arguments that a field is not given are reported at the field. -/
theorem allPlaced_missingFieldArguments (visit : Visit) :
    AllPlaced (missingFieldArguments visit) := by
  rw [missingFieldArguments]
  split <;> simp

/-- Impossible spreads are reported where they stand. -/
theorem allPlaced_reportImpossible (schema : Schema) (fragment : Option String)
    (parent type : Option NamedType) (pos : Position) :
    AllPlaced (reportImpossible schema fragment parent type pos) := by
  unfold reportImpossible
  split
  · simp
  · exact .nil

/-- Cycles are reported at the spreads along them, of which there is one at least. -/
theorem allPlaced_findCycles (document : Document) (room : Nat) (path : List (String × Spread))
    (visited : List String) (name : String) (selections : List Selection) :
    AllPlaced (findCycles document room path visited name selections).1 := by
  induction room generalizing path visited name selections with
  | zero => exact .nil
  | succ room ih =>
    rw [findCycles]
    split
    · exact .nil
    · refine AllPlaced.foldl fun before spread hbefore => ?_
      dsimp only
      split
      · split
        · exact hbefore
        · exact AllPlaced.append_iff.mpr ⟨hbefore, ih _ _ _ _⟩
      next hcycle =>
        -- the steps along the cycle are the end of the path, and there are some
        rw [List.isEmpty_iff] at hcycle
        rw [AllPlaced.append_iff, AllPlaced.cons_iff, Finding.isPlaced_language, ne_eq,
          List.map_eq_nil_iff, List.map_eq_nil_iff]
        exact ⟨hbefore, hcycle, .nil⟩

/-- Literals that are judged as a whole are reported where they stand. -/
theorem allPlaced_judgeWhole (schema : Schema) (type : Option (TypeRef String)) (value : Value) :
    AllPlaced (judgeWhole schema type value) := by
  unfold judgeWhole
  split
  · exact .nil
  · split
    · exact .nil
    · rw [AllPlaced.ite_iff]
      refine ⟨fun _ => ?_, fun _ => by simp⟩
      split <;> simp

/-- What is wrong with the fields of an object is reported at the object. -/
theorem allPlaced_judgeFields (type : String) (parameters : List Parameter) (oneOf : Bool)
    (fields : List (Name × Value)) (pos : Position) :
    AllPlaced (judgeFields type parameters oneOf fields pos) := by
  rw [judgeFields, AllPlaced.append_iff, AllPlaced.ite_iff]
  refine ⟨by simp, fun _ => .nil, fun _ => ?_⟩
  split <;> simp

/-- Literals are reported where they stand. -/
theorem allPlaced_judgeValue (schema : Schema) (scope : Scope) (value : Value) :
    AllPlaced (judgeValue schema scope value) := by
  unfold judgeValue
  split
  · exact .nil
  · split <;> simp
  · simp [allPlaced_judgeWhole]
  · split
    · exact allPlaced_judgeFields _ _ _ _ _
    · exact allPlaced_judgeWhole _ _ _
  · exact allPlaced_judgeWhole _ _ _

end LanguageRules

open LanguageRules in
/-- The rules that hold for all documents and are defined here report errors where they show. -/
theorem LanguageRule.findsPlaced (supply : Supply) (context : Context) {rule : LanguageRule}
    (hdefined : ∀ other, rule ≠ .supplied other) : (rule.rule supply context).FindsPlaced := by
  -- one way to look at nodes for each rule, split along the nodes that the rule tells apart
  cases rule with
  | supplied other => exact absurd rfl (hdefined other)
  | uniqueOperationNames =>
    refine .remembering fun known visit => ?_
    split
    · split
      · exact allPlaced_reportSecond _ _ _
      · exact .nil
    · exact .nil
  | uniqueFragmentNames =>
    refine .remembering fun known visit => ?_
    split
    · exact allPlaced_reportSecond _ _ _
    · exact .nil
  | noFragmentCycles =>
    refine .remembering fun visited visit => ?_
    split
    · exact allPlaced_findCycles _ _ _ _ _ _
    · exact .nil
  | uniqueDirectives =>
    refine .remembering fun seen visit => ?_
    split <;> first | exact allPlaced_repeatedAmong _ _ _ | exact .nil
  | noUnusedFragments =>
    refine .searching (.onLeave fun visit => ?_) _
    split
    · simp [unusedFragments]
    · exact .nil
  | noUnusedVariables =>
    refine .searching (.onLeave fun visit => ?_) _
    split
    · simp [unusedVariables]
    · exact .nil
  | providedRequiredArguments =>
    exact .onLeave fun visit => AllPlaced.append_iff.mpr
      ⟨allPlaced_missingDirectiveArguments _ _, allPlaced_missingFieldArguments _⟩
  | uniqueVariableNames =>
    refine .onEnter fun visit => ?_
    split
    · exact allPlaced_reportRepeated _ _
    · exact .nil
  | uniqueArgumentNames =>
    refine .onEnter fun visit => ?_
    split
    · exact allPlaced_reportRepeated _ _
    · exact allPlaced_reportRepeated _ _
    · exact .nil
  | uniqueInputFieldNames =>
    refine .onEnter fun visit => ?_
    split
    · exact allPlaced_reportSecond _ _ _
    · exact .nil
  | possibleFragmentSpreads =>
    refine .onEnter fun visit => ?_
    split
    · exact allPlaced_reportImpossible _ _ _ _ _
    · exact allPlaced_reportImpossible _ _ _ _ _
    · exact .nil
  | valuesOfCorrectType =>
    refine .onEnter fun visit => ?_
    split
    · exact .nil
    · split
      · exact allPlaced_judgeValue _ _ _
      · split
        · split <;> simp
        · exact .nil
      · exact .nil
  | executableDefinitions =>
    refine .onEnter fun visit => ?_
    split <;> simp
  | loneAnonymousOperation | knownTypeNames | knownFragmentNames | variablesAreInputTypes
  | fragmentsOnCompositeTypes | fieldsOnCorrectType | scalarLeafs =>
    refine .onEnter fun visit => ?_
    split <;> simp
  | knownDirectives =>
    refine .onEnter fun visit => ?_
    split
    · dsimp only
      split <;> simp
    · exact .nil

/-! ## Rules for fragment arguments and connections -/

/-- What is wrong with a stated type is reported at the value that states it. -/
theorem allPlaced_statedTypeFindings (schema : Schema) (value : Value) :
    AllPlaced (statedTypeFindings schema value) := by
  unfold statedTypeFindings
  split
  · split <;> simp
  · simp

/-- What is wrong with a declaration of a fragment argument is reported there. -/
theorem allPlaced_declarationFindings (schema : Schema) (argument : Argument) :
    AllPlaced (declarationFindings schema argument) := by
  rw [declarationFindings, AllPlaced.ite_iff]
  refine ⟨fun _ => by simp, fun _ => .flatMap fun field _ => ?_⟩
  simp [metadataFieldFindings, allPlaced_statedTypeFindings]

/-- What is wrong with a directive that declares arguments is reported there. -/
theorem allPlaced_metadataFindings (schema : Schema) (directive : Directive) :
    AllPlaced (metadataFindings schema directive) := by
  rw [metadataFindings, AllPlaced.ite_iff]
  exact ⟨fun _ => by simp, fun _ => .flatMap fun argument _ => allPlaced_declarationFindings _ _⟩

/-- What is wrong with a directive that gives arguments is reported there or at the spread. -/
theorem allPlaced_bindingFindings (suggest : Suggest) (schema : Schema) (fragment : Fragment)
    (spread : Spread) (directive : Directive) :
    AllPlaced (bindingFindings suggest schema fragment spread directive) := by
  unfold bindingFindings
  dsimp only
  split
  · simp
  · simp [metadataWarnings, missingArguments, undeclaredArguments]

/-- What is wrong with fragment arguments is reported where it shows. -/
theorem allPlaced_fragmentArgumentFindings (suggest : Suggest) (context : Context)
    (visit : Visit) : AllPlaced (fragmentArgumentFindings suggest context visit) := by
  unfold fragmentArgumentFindings
  split
  · rw [AllPlaced.ite_iff, AllPlaced.ite_iff]
    refine ⟨fun _ => allPlaced_metadataFindings _ _, fun _ => ⟨fun _ => ?_, fun _ => .nil⟩⟩
    split
    · exact allPlaced_bindingFindings _ _ _ _ _
    · exact .nil
  · exact .nil

/-- A value that is not of the type of its argument is reported where it stands. -/
theorem allPlaced_argumentValueFindings (test : LiteralTest) (schema : Schema) (fragment : String)
    (declared : Declarations) (argument : Argument) :
    AllPlaced (argumentValueFindings test schema fragment declared argument) := by
  unfold argumentValueFindings
  split <;> simp

/-- A default that is not of the type of its argument is reported where it stands. -/
theorem allPlaced_defaultFindings (test : LiteralTest) (schema : Schema) (fragment : String)
    (argument : Argument) : AllPlaced (defaultFindings test schema fragment argument) := by
  unfold defaultFindings
  dsimp only
  split <;> simp

/-- Uses without declaration are reported where they stand. -/
theorem allPlaced_undeclaredInFragment (context : Context) (operations : List Operation)
    (fragment : Fragment) : AllPlaced (context.undeclaredInFragment operations fragment) := by
  refine .filterMap fun governed finding hfinding => ?_
  dsimp only at hfinding
  split at hfinding
  · cases hfinding
  · split at hfinding
    · cases hfinding
      simp
    · split at hfinding
      · cases hfinding
        simp
      · cases hfinding

/-- A mismatch is reported once at places where it shows. -/
theorem allPlaced_reportOnce (reported : List Mismatch) (mismatch : Mismatch)
    {places : List Position} (hplaces : places ≠ []) :
    AllPlaced (reportOnce reported mismatch places).1 := by
  rw [reportOnce]
  split
  · exact .nil
  · simpa [Mismatch.report] using hplaces

/-- Checks of uses report where mismatches show if each check does. -/
theorem allPlaced_checkUsages
    {check : List Mismatch → GovernedUsage → List Finding × List Mismatch}
    (hcheck : ∀ reported governed, AllPlaced (check reported governed).1)
    (reported : List Mismatch) (usages : List GovernedUsage) :
    AllPlaced (checkUsages check reported usages).1 :=
  .foldl fun before governed hbefore =>
    AllPlaced.append_iff.mpr ⟨hbefore, hcheck before.2 governed⟩

/-- A mismatch in a fragment is reported at the use. -/
theorem allPlaced_checkInFragment (context : Context) (reported : List Mismatch)
    (governed : GovernedUsage) : AllPlaced (context.checkInFragment reported governed).1 := by
  unfold Context.checkInFragment
  split
  · exact .nil
  · split
    · simp [Mismatch.report]
    · exact allPlaced_reportOnce _ _ (by simp)

/-- A mismatch of an operation is reported at the operation. -/
theorem allPlaced_checkInOperation (context : Context) (operation : Operation)
    (reported : List Mismatch) (governed : GovernedUsage) :
    AllPlaced (context.checkInOperation operation reported governed).1 := by
  unfold Context.checkInOperation
  split
  · exact .nil
  · split
    · exact .nil
    · split
      · simp [Mismatch.report]
      · exact allPlaced_reportOnce _ _ (by simp)

/-- What a connection does not select is reported at one place of it. -/
theorem allPlaced_pageInfoFindings (document : Document) (field : Field)
    (selections : List Selection) (parts : List PagePart) :
    AllPlaced (pageInfoFindings document field selections parts) := by
  simp [pageInfoFindings]

/-- The rules for fragment arguments and connections report errors where they show, if other
arguments are checked by the rule of the language. -/
theorem RelayRule.findsPlaced (suggest : Suggest) (test : LiteralTest) (context : Context)
    (rule : RelayRule) : (rule.rule { suggest, test } context).FindsPlaced := by
  -- each rule looks at nodes of a few kinds, along which its findings are split
  cases rule with
  | knownArgumentNames =>
    refine .onEnter fun visit => ?_
    rw [AllPlaced.append_iff, AllPlaced.ite_iff]
    refine ⟨allPlaced_fragmentArgumentFindings _ _ _, fun _ => .nil, fun _ => ?_⟩
    exact AllPlaced.append_iff.mpr ⟨LanguageRules.allPlaced_unknownFieldArgument _,
      LanguageRules.allPlaced_unknownDirectiveArguments _ _⟩
  | knownVariableNames =>
    refine .searching (.onLeave fun visit => ?_) _
    split
    · simp [Context.undeclaredInOperation]
    · exact allPlaced_undeclaredInFragment _ _ _
    · exact .nil
  | variablesInAllowedPosition =>
    refine .searching (.remembering fun reported visit => ?_) _
    split
    · exact allPlaced_checkUsages (allPlaced_checkInFragment _) _ _
    · exact allPlaced_checkUsages (allPlaced_checkInOperation _ _) _ _
    · exact .nil
  | argumentsOfCorrectType =>
    refine .onEnter fun visit => ?_
    split
    · split
      · exact .flatMap fun argument _ => allPlaced_argumentValueFindings _ _ _ _ _
      · exact .nil
    · exact .nil
  | defaultsOfCorrectType =>
    refine .onEnter fun visit => ?_
    split
    · split
      · exact .flatMap fun argument _ => allPlaced_defaultFindings _ _ _ _
      · exact .nil
    · exact .nil
  | noUnusedArguments =>
    refine .onEnter fun visit => ?_
    split
    · simp [unusedArguments]
    · exact .nil
  | requiredPageInfoFields =>
    refine .onEnter fun visit => ?_
    split
    · simp [allPlaced_pageInfoFindings]
    · exact .nil
  | missingConnectionDirective =>
    refine .onEnter fun visit => ?_
    split <;> simp

/-! ## Checks -/

/-- What the rules that are defined elsewhere find on the document of a context shows somewhere in
it: these rules report their errors at nodes of the document. -/
def Supply.FindsPlaced (supply : Supply) (context : Context) : Prop :=
  ∀ rule, AllPlaced ((supply.rule rule context).findings (context.document.walk context.schema))

/-- The standard rules report errors where they show, if those that are supplied do. -/
theorem allPlaced_of_mem_standardRules {context : Context} {compat : Bool} {supply : Supply}
    (hsupply : supply.FindsPlaced context) {name : RuleName}
    (hname : name ∈ standardRules compat supply) :
    AllPlaced ((name.rule context).findings (context.document.walk context.schema)) := by
  rcases List.mem_append.mp hname with hrelay | hlanguage
  · obtain ⟨rule, -, rfl⟩ := List.mem_map.mp hrelay
    exact (rule.findsPlaced suggestions denotesValue context).allPlaced_findings _
  · obtain ⟨rule, -, rfl⟩ := List.mem_map.mp hlanguage
    by_cases hdefined : ∀ other, rule ≠ .supplied other
    · exact (LanguageRule.findsPlaced supply context hdefined).allPlaced_findings _
    · simp only [not_forall, not_not] at hdefined
      obtain ⟨other, rfl⟩ := hdefined
      exact hsupply other

/-- What the standard rules find on a document is placed, wherever they stop. -/
theorem allPlaced_trail {context : Context} (compat : Bool) {supply : Supply}
    (hsupply : supply.FindsPlaced context) :
    AllPlaced (context.trail (standardRules compat supply)).findings := by
  intro finding hfinding
  obtain ⟨rule, hrule, hfound⟩ := mem_findings_of_mem_sideBySideUntil hfinding
  obtain ⟨name, hname, rfl⟩ := List.mem_map.mp hrule
  exact allPlaced_of_mem_standardRules hsupply hname finding hfound

end RelayCheck
