import RelayCheck.Proofs.FragmentArguments.UnknownTypesWalk
import RelayCheck.Proofs.Reordering

/-!
# Unknown types only silence rules

A type that the schema does not know gives the rules for fragment arguments nothing to compare. If
the type of a variable or of a fragment argument is replaced by such a type, the rules say nothing
that they did not say before. At which place something is said may change, since a mismatch that was
reported at one place may now be reported at another.

The module introduces `SayNoMore`, findings that say nothing but what others say.

The main result is `messages_subset_of_obscured`.
-/

namespace RelayCheck

/-! ## Saying no more -/

/-- What the first findings say, the second say, too, whatever their places. -/
def SayNoMore (found others : List Finding) : Prop :=
  found.map Finding.content ⊆ others.map Finding.content

namespace SayNoMore

/-- Findings say no more than themselves. -/
theorem refl (found : List Finding) : SayNoMore found found :=
  List.Subset.refl _

/-- Saying nothing is saying no more. -/
theorem nil (others : List Finding) : SayNoMore [] others :=
  List.nil_subset _

/-- Findings among others say no more than these. -/
theorem of_subset {found others : List Finding} (h : found ⊆ others) : SayNoMore found others :=
  List.map_subset _ h

/-- The messages of the errors are among those of the others. -/
theorem messages {found others : List Finding} (h : SayNoMore found others) :
    ((found.filterMap Finding.diagnostic?).map fun diagnostic => diagnostic.problem.message) ⊆
      (others.filterMap Finding.diagnostic?).map fun diagnostic => diagnostic.problem.message := by
  rw [map_message_diagnostics, map_message_diagnostics]
  exact List.filterMap_subset _ h

/-- Findings about several things say no more if those about each of them do. -/
theorem flatMap {α β : Type} {R : α → β → Prop} {look : α → List Finding}
    {look' : β → List Finding} {items : List α} {others : List β} (h : List.Forall₂ R items others)
    (hlook : ∀ {item other}, R item other → SayNoMore (look' other) (look item)) :
    SayNoMore (others.flatMap look') (items.flatMap look) := by
  induction h with
  | nil => exact .refl _
  | cons hitem _ ih =>
    rw [SayNoMore, List.flatMap_cons, List.flatMap_cons, List.map_append, List.map_append]
    exact List.append_subset.mpr ⟨List.subset_append_of_subset_left _ (hlook hitem),
      List.subset_append_of_subset_right _ ih⟩

end SayNoMore

/-! ## Values and defaults -/

section Values

variable {schema : Schema} {test : LiteralTest}

/-- A value given to an argument of obscured type is not tested. -/
theorem sayNoMore_argumentValueFindings {declared obscured : Declarations}
    (h : declared.Obscured obscured) (fragment : String) (argument : Argument) :
    SayNoMore (argumentValueFindings test schema fragment obscured argument)
      (argumentValueFindings test schema fragment declared argument) := by
  rw [argumentValueFindings, argumentValueFindings]
  rcases exists_of_rel_option (h.get? argument.name.text) with
    ⟨hbefore, hafter⟩ | ⟨declaration, other, hbefore, hafter, hdeclaration⟩
  · rw [hbefore, hafter]
    exact .refl _
  · rw [hbefore, hafter, Option.bind_some, Option.bind_some]
    cases htype : other.type with
    | none => exact .nil _
    | some type =>
      rw [← htype, hdeclaration.eq_of_known (by rw [htype]; rfl)]
      exact .refl _

/-- A default of an argument of obscured type is not tested. -/
theorem sayNoMore_defaultFindings {argument obscured : Argument}
    (h : argument.Obscured schema obscured) (fragment : String) :
    SayNoMore (defaultFindings test schema fragment obscured)
      (defaultFindings test schema fragment argument) := by
  have hname : obscured.name = argument.name := by cases h <;> rfl
  rw [defaultFindings, defaultFindings, hname]
  cases htype : (Declaration.ofArgument schema obscured).type with
  | none =>
    cases (Declaration.ofArgument schema obscured).default <;> exact .nil _
  | some type =>
    rw [← htype, h.declaration.eq_of_known (by rw [htype]; rfl)]
    exact .refl _

/-- A directive that declares arguments of obscured types has no wrong defaults but those that it
had before. -/
theorem sayNoMore_declaredFindings {use other : DirectiveUse} (h : use.Obscured schema other) :
    SayNoMore (declaredFindings schema test other) (declaredFindings schema test use) := by
  cases h with
  | same => exact .refl _
  | declaring _ _ hfragment hdirective =>
    rw [declaredFindings, declaredFindings]
    rcases exists_of_rel_option hfragment with
      ⟨hbefore, hafter⟩ | ⟨fragment, obscured, hbefore, hafter, hobscured⟩
    · rw [hbefore, hafter]
      exact .refl _
    · rw [hbefore, hafter]
      dsimp only
      rw [(obscuring schema).fragment_name hobscured]
      have hnames : Set.InjOn id (Set.univ : Set String) := Function.injective_id.injOn
      refine .flatMap (rel_lastOfName hnames (fun hargument => ?_) hdirective.arguments)
        fun h => sayNoMore_defaultFindings h _
      exact ⟨Set.mem_univ _, by cases hargument <;> rfl⟩

/-- A fragment with obscured types has the same unused arguments. -/
theorem unusedFindings_eq {definition obscured : Definition}
    (h : definition.Corresponds (obscuring schema) obscured) :
    obscured.unusedFindings schema = definition.unusedFindings schema := by
  cases h with
  | operation | typeSystem => rfl
  | @fragment fragment obscured hfragment =>
    -- the rule looks at names and places of declarations, and not at their types
    have hentries := hfragment.declarations
    have hselections : obscured.selections = fragment.selections := by cases hfragment; rfl
    have hname := (obscuring schema).fragment_name hfragment
    rw [Definition.unusedFindings, Definition.unusedFindings, unusedArguments, unusedArguments,
      hselections, hname]
    refine (eq_of_rel_eq (List.rel_map ?_ (List.rel_filter ?_ hentries))).symm
    · intro entry other hentry
      dsimp only
      rw [hentry.name_eq, hentry.content.pos_eq, id]
    · intro entry other hentry
      dsimp only
      rw [hentry.name_eq, id]

end Values

namespace Context

variable {context other : Context}
  (h : context.Corresponds (obscuring context.schema) other)

include h

/-- A directive on a spread gives no wrong values but those that it gave before. -/
theorem sayNoMore_givenFindings (test : LiteralTest) {use given : DirectiveUse}
    (huse : use.Obscured context.schema given) :
    SayNoMore (other.givenFindings test given) (context.givenFindings test use) := by
  cases huse with
  | declaring _ hspread =>
    rw [givenFindings, target?, hspread]
    cases given.givesArguments <;> exact .nil _
  | same =>
    rw [givenFindings, givenFindings, target?, target?]
    cases use.givesArguments with
    | false => exact .refl _
    | true =>
      cases use.spread? with
      | none => exact .refl _
      | some spread =>
        rw [Option.bind_some, Option.bind_some]
        -- with the same target, it is the types of the declared arguments that may get lost
        rcases exists_of_rel_option (h.fragment? spread.name.text) with
          ⟨hbefore, hafter⟩ | ⟨fragment, obscured, hbefore, hafter, hfragment⟩
        · rw [hbefore, hafter]
          exact .refl _
        · rw [hbefore, hafter, h.schema_eq]
          refine .flatMap (List.forall₂_same.mpr fun _ _ => rfl) ?_
          rintro argument _ rfl
          exact sayNoMore_argumentValueFindings hfragment.declarations _ _

/-! ## Names -/

/-- The same uses of an operation have no declaration. -/
theorem undeclaredInOperation_eq_of_obscured {operation obscured : Operation}
    (hoperation : operation.Obscured context.schema obscured) :
    other.undeclaredInOperation obscured = context.undeclaredInOperation operation := by
  -- what nothing governs before, nothing governs after, whatever happens to types
  have huses : List.Forall₂ Usage.Obscured
      (undeclaredUses [] (context.operationUsages operation))
      (undeclaredUses [] (other.operationUsages obscured)) := by
    refine rel_undeclaredUses (fun hgoverned => ⟨?_, fun _ => hgoverned.usage⟩)
      (fun husage => ⟨husage.name_eq, husage.fragment_eq⟩) (rel_operationUsages h hoperation) []
    rcases exists_of_rel_option hgoverned.governor with
      ⟨hbefore, hafter⟩ | ⟨_, _, hbefore, hafter, -⟩
    · rw [hbefore, hafter]
    · rw [hbefore, hafter]
      rfl
  have hnode : obscured.name = operation.name ∧ obscured.pos = operation.pos := by
    cases hoperation with
    | mk => exact ⟨rfl, rfl⟩
  refine (eq_of_rel_eq (List.rel_map (fun usage usage' husage => ?_) huses)).symm
  rw [husage.name_eq, husage.pos_eq, husage.fragment_eq, hnode.1, hnode.2]

/-- The same uses in a fragment are of no argument. -/
theorem rel_undeclaredBy {fragment obscured : Fragment}
    (hfragment : fragment.Obscured context.schema obscured) :
    List.Forall₂ Usage.Obscured (context.undeclaredBy fragment) (other.undeclaredBy obscured) := by
  rw [undeclaredBy, undeclaredBy, h.schema_eq, (obscuring context.schema).fragment_name hfragment]
  refine List.rel_filter (fun usage usage' husage => ?_) (rel_usages h (.fragment hfragment) rfl _)
  dsimp only
  rw [husage.name_eq, hfragment.declarations.contains_eq]

/-- Of the uses in a fragment, none is newly found to have no declaration. -/
theorem sayNoMore_undeclaredInFragment {fragment obscured : Fragment}
    (hfragment : fragment.Obscured context.schema obscured) {operations others : List Operation}
    (hoperations : List.Forall₂ (Operation.Obscured context.schema) operations others) :
    SayNoMore (other.undeclaredInFragment others obscured)
      (context.undeclaredInFragment operations fragment) := by
  have hname := (obscuring context.schema).fragment_name hfragment
  have huses := rel_undeclaredBy h hfragment
  cases hoperations with
  | nil =>
    -- no operation uses the fragment, and every use that it does not declare is reported
    rw [undeclaredInFragment_nil, undeclaredInFragment_nil]
    refine .of_subset fun finding hfinding => ?_
    obtain ⟨obscuredUsage, hmem, rfl⟩ := List.mem_map.mp hfinding
    obtain ⟨usage, hbefore, husage⟩ := exists_of_mem_rel huses hmem
    refine List.mem_map.mpr ⟨usage, hbefore, ?_⟩
    simp only [Fragment.undeclaredFinding, husage.name_eq, husage.pos_eq, hname]
  | @cons first first' rest rest' hfirst hrest =>
    -- conflicts are reported, and a conflict among known types was one before
    rw [undeclaredInFragment_of_ne_nil (List.cons_ne_nil _ _),
      undeclaredInFragment_of_ne_nil (List.cons_ne_nil _ _)]
    refine .of_subset fun finding hfinding => ?_
    obtain ⟨obscuredUsage, hmem, rfl⟩ := List.mem_map.mp hfinding
    obtain ⟨hmem, hconflict⟩ := List.mem_filter.mp hmem
    obtain ⟨usage, hbefore, husage⟩ := exists_of_mem_rel huses hmem
    rw [List.contains_iff_mem, husage.name_eq] at hconflict
    have hconflicted :=
      mem_conflicting_of_obscured (.cons hfirst hrest) rfl h.schema_eq hconflict
    refine List.mem_map.mpr ⟨usage, List.mem_filter.mpr ⟨hbefore, ?_⟩, ?_⟩
    · exact List.contains_iff_mem.mpr hconflicted
    · simp only [Fragment.conflictFinding, husage.name_eq, husage.pos_eq, hname]

/-- The rule for names says no more about a definition. -/
theorem sayNoMore_undeclared {definition obscured : Definition}
    (hdefinition : definition.Corresponds (obscuring context.schema) obscured) :
    SayNoMore (other.undeclared obscured) (context.undeclared definition) := by
  cases hdefinition with
  | operation hoperation =>
    rw [undeclared, undeclared, undeclaredInOperation_eq_of_obscured h hoperation]
    exact .refl _
  | fragment hfragment =>
    rw [undeclared, undeclared, (obscuring context.schema).fragment_name hfragment]
    exact sayNoMore_undeclaredInFragment h hfragment (h.operationsReaching _)
  | typeSystem htypeSystem =>
    cases definition with
    | operation | fragment => cases htypeSystem
    | schema | schemaExtension | type | typeExtension | directive => exact .refl _

/-! ## Positions -/

omit h in
/-- What governs a use, and the use, settle whether it shows a mismatch. -/
theorem mismatch?_congr (schema : Schema) {governed governed' : GovernedUsage}
    (hdeclaration : governed'.declaration? = governed.declaration?)
    (husage : governed'.usage = governed.usage) :
    governed'.mismatch? schema = governed.mismatch? schema := by
  rw [GovernedUsage.mismatch?, GovernedUsage.mismatch?, hdeclaration, husage]

omit h in
/-- A mismatch is shown by known types. -/
theorem known_of_mismatch? {schema : Schema} {governed : GovernedUsage}
    {found : Declaration × Mismatch} (h : governed.mismatch? schema = some found) :
    governed.declaration? = some found.1 ∧ found.1.type.isSome = true ∧
      governed.usage.type.isSome = true := by
  unfold GovernedUsage.mismatch? at h
  split at h
  next declaration expected hdeclaration hexpected =>
    split at h
    next type htype =>
      split at h
      next => cases h
      next =>
        rw [Option.some_inj] at h
        subst h
        exact ⟨hdeclaration, by rw [htype]; rfl, by rw [hexpected]; rfl⟩
    next => cases h
  next => cases h

omit h in
/-- A use that shows a mismatch is as it was before, and what governs it is, too. -/
theorem eq_of_mismatch? {schema : Schema} {governed obscured : GovernedUsage}
    (h : governed.Obscured obscured) {found : Declaration × Mismatch}
    (hfound : obscured.mismatch? schema = some found) :
    obscured.declaration? = governed.declaration? ∧ obscured.usage = governed.usage := by
  obtain ⟨hdeclaration, hknown, hexpected⟩ := known_of_mismatch? hfound
  refine ⟨?_, h.usage.eq_of_known hexpected⟩
  rcases exists_of_rel_option h.governor with
    ⟨hbefore, hafter⟩ | ⟨before, after, hbefore, hafter, hrel, -⟩
  · rw [GovernedUsage.declaration?, GovernedUsage.declaration?, hbefore, hafter]
  · rw [GovernedUsage.declaration?, hafter, Option.map_some, Option.some_inj] at hdeclaration
    rw [GovernedUsage.declaration?, GovernedUsage.declaration?, hbefore, hafter, Option.map_some,
      Option.map_some, hrel.eq_of_known (by rwa [hdeclaration])]

/-- A mismatch that is reported about a use of an operation was reported before. -/
theorem exists_reportInOperation? {operation obscured : Operation}
    {governed governed' : GovernedUsage} (hgoverned : governed.Obscured governed')
    {report : Report} (hreport : other.reportInOperation? obscured governed' = some report) :
    ∃ before, context.reportInOperation? operation governed = some before ∧
      before.mismatch = report.mismatch := by
  rw [reportInOperation?, h.schema_eq] at hreport
  split at hreport
  next => cases hreport
  next hargument =>
    obtain ⟨found, hfound, hmismatch⟩ := Option.map_eq_some_iff.mp hreport
    obtain ⟨hdeclaration, husage⟩ := eq_of_mismatch? hgoverned hfound
    have hbefore := mismatch?_congr context.schema hdeclaration husage
    rw [GovernedUsage.isOfArgument, hdeclaration, ← GovernedUsage.isOfArgument] at hargument
    rw [reportInOperation?, if_neg hargument, ← hbefore, hfound, Option.map_some]
    refine ⟨_, rfl, ?_⟩
    subst hmismatch
    dsimp only
    split <;> split <;> rfl

/-- A mismatch that is reported about a use in a fragment was reported before. -/
theorem exists_reportInFragment? {fragment obscured : Fragment}
    (hfragment : fragment.Obscured context.schema obscured) {operations others : List Operation}
    (hoperations : List.Forall₂ (Operation.Obscured context.schema) operations others)
    {usage usage' : Usage} (husage : usage.Obscured usage') {report : Report}
    (hreport : other.reportInFragment? (govern (obscured.declarations context.schema)
      (other.unify others).declarations usage') = some report) :
    ∃ before, context.reportInFragment? (govern (fragment.declarations context.schema)
        (context.unify operations).declarations usage) = some before ∧
      before.mismatch = report.mismatch := by
  rw [reportInFragment?, h.schema_eq] at hreport
  obtain ⟨found, hfound, hmismatch⟩ := Option.map_eq_some_iff.mp hreport
  obtain ⟨hdeclaration, hknown, hexpected⟩ := known_of_mismatch? hfound
  rw [usage_govern] at hexpected
  have hsame : usage = usage' := (husage.eq_of_known hexpected).symm
  subst hsame
  -- an own argument of known type is as before, and so is a type on which operations agree
  have hbefore : (govern (fragment.declarations context.schema)
      (context.unify operations).declarations usage).declaration? = some found.1 := by
    rw [declaration?_govern] at hdeclaration ⊢
    rcases exists_of_rel_option (hfragment.declarations.get? usage.name) with
      ⟨hown, hown'⟩ | ⟨own, own', hown, hown', hrel⟩
    · rw [hown', Option.none_or] at hdeclaration
      rw [hown, Option.none_or]
      exact get?_unify_of_obscured hoperations rfl h.schema_eq hdeclaration hknown
    · rw [hown', Option.some_or, Option.some_inj] at hdeclaration
      rw [hown, Option.some_or, ← hrel.eq_of_known (by rwa [hdeclaration]), hdeclaration]
  have hmismatch? := mismatch?_congr context.schema
    (hdeclaration.trans hbefore.symm) (by rw [usage_govern, usage_govern])
  rw [reportInFragment?, ← hmismatch?, hfound, Option.map_some]
  refine ⟨_, rfl, ?_⟩
  subst hmismatch
  dsimp only
  split <;> split <;> rfl

/-- Whatever is reported about a definition was reported before. -/
theorem exists_mem_reports {definition obscured : Definition}
    (hdefinition : definition.Corresponds (obscuring context.schema) obscured) {report : Report}
    (hreport : report ∈ other.reports obscured) :
    ∃ before ∈ context.reports definition, before.mismatch = report.mismatch := by
  cases hdefinition with
  | typeSystem htypeSystem =>
    cases definition with
    | operation | fragment => cases htypeSystem
    | schema | schemaExtension | type | typeExtension | directive => cases hreport
  | operation hoperation =>
    obtain ⟨governed', hgoverned', hreport⟩ := List.mem_filterMap.mp hreport
    obtain ⟨governed, hgoverned, hrel⟩ :=
      exists_of_mem_rel (rel_operationUsages h hoperation) hgoverned'
    obtain ⟨before, hbefore, hmismatch⟩ := exists_reportInOperation? h hrel hreport
    exact ⟨before, List.mem_filterMap.mpr ⟨governed, hgoverned, hbefore⟩, hmismatch⟩
  | @fragment fragment obscured hfragment =>
    obtain ⟨_, hgoverned', hreport⟩ := List.mem_filterMap.mp hreport
    -- the operations may agree on other types, so that something else may govern the use
    obtain ⟨usage', husage', rfl⟩ := List.mem_map.mp hgoverned'
    have hname := (obscuring context.schema).fragment_name hfragment
    rw [hname] at husage'
    obtain ⟨usage, husage, hrel⟩ :=
      exists_of_mem_rel (rel_usages h (.fragment hfragment) rfl _) husage'
    rw [h.schema_eq, unifiedVariables, hname] at hreport
    obtain ⟨before, hbefore, hmismatch⟩ :=
      exists_reportInFragment? h hfragment (h.operationsReaching _) hrel hreport
    exact ⟨before, List.mem_filterMap.mpr ⟨_, List.mem_map_of_mem husage, hbefore⟩, hmismatch⟩

end Context

/-- What is said by filing reports is what each of them says. -/
theorem mem_content_fileReports_iff {reports : List Report} {content : Problem ⊕ Warning} :
    content ∈ (fileReports [] reports).1.map Finding.content ↔
      ∃ report ∈ reports, report.mismatch.content = content := by
  obtain ⟨new, hnew, -, hfound⟩ := exists_new_fileReports [] reports
  rw [List.nil_append] at hnew
  have hmem (mismatch : Mismatch) :
      mismatch ∈ new ↔ ∃ report ∈ reports, report.once = true ∧ report.mismatch = mismatch := by
    rw [← hnew, mem_fileReports_iff]
    simp
  rw [hfound.mem_iff, List.mem_append, List.mem_map, List.mem_map]
  -- reports that are filed once are found through the mismatches that are new
  constructor
  · rintro (⟨report, hreport, hcontent⟩ | ⟨mismatch, hmismatch, hcontent⟩)
    · exact ⟨report, (List.mem_filter.mp hreport).1, hcontent⟩
    · obtain ⟨report, hreport, -, rfl⟩ := (hmem mismatch).mp hmismatch
      exact ⟨report, hreport, hcontent⟩
  · rintro ⟨report, hreport, hcontent⟩
    cases honce : report.once with
    | true => exact Or.inr ⟨_, (hmem _).mpr ⟨report, hreport, honce, rfl⟩, hcontent⟩
    | false => exact Or.inl ⟨report, List.mem_filter.mpr ⟨hreport, by rw [honce]; rfl⟩, hcontent⟩

/-- The rule for names says no more. -/
theorem Context.sayNoMore_knownVariableNames {context other : Context}
    (h : context.Corresponds (obscuring context.schema) other) :
    SayNoMore
      ((knownVariableNames other).findings (other.document.events other.schema))
      ((knownVariableNames context).findings (context.document.events context.schema)) := by
  rw [findings_knownVariableNames_eq_flatMap, findings_knownVariableNames_eq_flatMap]
  exact .flatMap h.definitions fun hdefinition => sayNoMore_undeclared h hdefinition

/-- The rule for positions says no more. -/
theorem Context.sayNoMore_variablesInAllowedPosition {context other : Context}
    (h : context.Corresponds (obscuring context.schema) other) :
    SayNoMore
      ((variablesInAllowedPosition other).findings (other.document.events other.schema))
      ((variablesInAllowedPosition context).findings
        (context.document.events context.schema)) := by
  rw [findings_variablesInAllowedPosition, findings_variablesInAllowedPosition]
  intro content hcontent
  obtain ⟨report, hreport, rfl⟩ := mem_content_fileReports_iff.mp hcontent
  obtain ⟨obscured, hobscured, hreport⟩ := List.mem_flatMap.mp hreport
  obtain ⟨definition, hdefinition, hrel⟩ := exists_of_mem_rel h.definitions hobscured
  obtain ⟨before, hbefore, hmismatch⟩ := exists_mem_reports h hrel hreport
  exact mem_content_fileReports_iff.mpr
    ⟨before, List.mem_flatMap.mpr ⟨definition, hdefinition, hbefore⟩, by rw [hmismatch]⟩

/-! ## Documents -/

/-- In a document let types that operations declare for variables be replaced by others that are no
input types of the schema, such as names of types that the schema does not have, and let texts that
state the types of fragment arguments be replaced by others that cannot be read as input types. Then
every message of an error that a rule for variables and fragment arguments reports was reported by
the same rule before. -/
theorem messages_subset_of_obscured {schema : Schema} {document obscured : Document}
    (h : document.Obscured schema obscured) (suggest : Suggest) (test : LiteralTest)
    {rule : RelayRule}
    (hrule : rule ∈ [.knownVariableNames, .variablesInAllowedPosition, .argumentsOfCorrectType,
      .defaultsOfCorrectType, .noUnusedArguments]) :
    let messages (document : Document) : List String :=
      ((document.relayFindings schema suggest test rule).filterMap Finding.diagnostic?).map
        fun diagnostic => diagnostic.problem.message
    messages obscured ⊆ messages document := by
  refine SayNoMore.messages ?_
  have hcontext : (Context.ofDocument schema document).Corresponds (obscuring schema)
      (Context.ofDocument schema obscured) := .ofDocument schema h
  -- both documents have the same walk, apart from the types, so that rules are compared by event
  have hwalk := walkChanged_document_of_obscured h
  rw [Document.relayFindings, Document.relayFindings]
  cases rule with
  | knownVariableNames => exact Context.sayNoMore_knownVariableNames hcontext
  | variablesInAllowedPosition => exact Context.sayNoMore_variablesInAllowedPosition hcontext
  | argumentsOfCorrectType =>
    rw [RelayRule.rule, RelayRule.rule, findings_argumentsOfCorrectType,
      findings_argumentsOfCorrectType]
    exact .flatMap hwalk.directives fun huse => Context.sayNoMore_givenFindings hcontext test huse
  | defaultsOfCorrectType =>
    rw [RelayRule.rule, RelayRule.rule, findings_defaultsOfCorrectType,
      findings_defaultsOfCorrectType]
    exact .flatMap hwalk.directives fun huse => sayNoMore_declaredFindings huse
  | noUnusedArguments =>
    rw [RelayRule.rule, RelayRule.rule, findings_noUnusedArguments, findings_noUnusedArguments]
    refine .flatMap hwalk.definitions fun hdefinition => ?_
    exact unusedFindings_eq hdefinition ▸ .refl _
  | knownArgumentNames | requiredPageInfoFields | missingConnectionDirective => simp at hrule

/-- A fragment with a picture and two queries that use it, where the first declares the size with
the given type. -/
def pictureDocument (type : TypeRef Name) : Document :=
  ⟨[.fragment (pictureFragment "P" 3), .operation (pictureQuery "A" "P" type 1),
    .operation (pictureQuery "B" "P" (.named ⟨"Int", ⟨2, 16⟩⟩) 2)]⟩

/-- Two queries use one fragment with a picture whose size has to be given, which the second query
does not see to. If the first declares the size with an unknown type, nothing is said about the
fragment any more, but the same is said about the second query. -/
theorem messages_subset_of_obscured_picture :
    let known := pictureDocument (.nonNull (.named ⟨"Int", ⟨1, 16⟩⟩))
    let obscured := pictureDocument (.named ⟨"Size", ⟨1, 16⟩⟩)
    let found (document : Document) : List Finding :=
      document.relayFindings pictureSchema suggestions denotesValue .variablesInAllowedPosition
    let problem : Problem := .relay (.badPosition "size" (.named "Int") (.nonNull (.named "Int")))
    known.Obscured pictureSchema obscured ∧
      found obscured = [.error ⟨problem, [⟨2, 1⟩]⟩] ∧
      problem.message ∈ ((found known).filterMap Finding.diagnostic?).map fun diagnostic =>
        diagnostic.problem.message := by
  intro known obscured found problem
  -- only the variable of the first query gets another type
  have hvariable : VariableDefinition.Obscured pictureSchema
      ⟨⟨"size", ⟨1, 10⟩⟩, ⟨1, 9⟩, .nonNull (.named ⟨"Int", ⟨1, 16⟩⟩), ⟨1, 16⟩, none, [], ⟨1, 9⟩⟩
      ⟨⟨"size", ⟨1, 10⟩⟩, ⟨1, 9⟩, .named ⟨"Size", ⟨1, 16⟩⟩, ⟨1, 16⟩, none, [], ⟨1, 9⟩⟩ :=
    .type _ (Schema.inputType?_eq_none rfl)
  have hobscured : known.Obscured pictureSchema obscured := by
    refine .cons (.fragment (.mk _ .nil)) (.cons (.operation ?_) (.cons (.operation ?_) .nil))
    · exact .mk (pictureQuery "A" "P" (.nonNull (.named ⟨"Int", ⟨1, 16⟩⟩)) 1)
        (.cons hvariable .nil)
    · exact .mk (pictureQuery "B" "P" (.named ⟨"Int", ⟨2, 16⟩⟩) 2) (.cons (.same _) .nil)
  have hfound : Document.relayFindings pictureSchema suggestions denotesValue
      .variablesInAllowedPosition obscured = [.error ⟨problem, [⟨2, 1⟩]⟩] := by cbv
  have hrule : RelayRule.variablesInAllowedPosition ∈ [.knownVariableNames,
    .variablesInAllowedPosition, .argumentsOfCorrectType, .defaultsOfCorrectType,
    .noUnusedArguments] := by decide
  have hsubset := messages_subset_of_obscured hobscured suggestions denotesValue hrule
  refine ⟨hobscured, hfound, hsubset ?_⟩
  have hmessage : problem.message ∈ ((found obscured).filterMap Finding.diagnostic?).map
      fun diagnostic => diagnostic.problem.message := by
    simp only [found, hfound]
    exact List.mem_singleton_self _
  exact hmessage

end RelayCheck
