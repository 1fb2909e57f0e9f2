import RelayCheck.Proofs.FragmentArguments.Alike
import RelayCheck.Proofs.FragmentArguments.RepeatedReports
import RelayCheck.Proofs.FragmentArguments.Scoping
import RelayCheck.Proofs.Fragments.Reordering
import RelayCheck.Proofs.Validation.Reordering

/-!
# Rules for variables and the order of definitions

The rules for names and for positions look at a definition together with others: at an operation
with the fragments it reaches, and at a fragment with the operations that use it. Both are the same
in any order of the definitions. What the order does decide, namely which of equal findings comes
first and is kept, does not show in what the findings say.

The main results are `Reorders.saySame_knownVariableNames` and
`Reorders.saySame_variablesInAllowedPosition`.
-/

namespace RelayCheck

/-! ## Filing reports -/

/-- What the finding for a mismatch says. -/
def Mismatch.content (mismatch : Mismatch) : Problem ⊕ Warning :=
  .inl (.relay (.badPosition mismatch.name mismatch.type mismatch.expected))

/-- What a report is about, apart from the places that show it. -/
def Report.subject (report : Report) : Mismatch × Bool :=
  (report.mismatch, report.once)

/-- Filing finds every report that is not made once, and each mismatch that is reported once for the
first time. -/
theorem exists_new_fileReports (reported : List Mismatch) (reports : List Report) :
    ∃ new, (fileReports reported reports).2 = reported ++ new ∧
      (reported.Nodup → (reported ++ new).Nodup) ∧
      ((fileReports reported reports).1.map Finding.content).Perm
        ((reports.filter fun report => !report.once).map (fun report => report.mismatch.content) ++
          new.map Mismatch.content) := by
  -- `new` are the mismatches that are remembered from here on
  induction reports generalizing reported with
  | nil => exact ⟨[], by simp [fileReports, collect]⟩
  | cons report rest ih =>
    rw [fileReports, collect, Report.file, reportOnce]
    split
    next honce =>
      rw [List.filter_cons_of_neg (by simp [honce])]
      split
      next hreported => exact ih reported
      next hnew =>
        rw [List.contains_iff_mem] at hnew
        obtain ⟨new, hreported, hnodup, hfound⟩ := ih (reported ++ [report.mismatch])
        refine ⟨report.mismatch :: new, ?_, fun hdistinct => ?_, ?_⟩
        · exact hreported.trans (List.append_cons _ _ _).symm
        · rw [List.append_cons]
          refine hnodup ?_
          rw [← List.concat_eq_append]
          exact hdistinct.concat hnew
        · exact (hfound.cons _).trans List.perm_middle.symm
    next honce =>
      rw [List.filter_cons_of_pos (by simp [honce])]
      obtain ⟨new, hreported, hnodup, hfound⟩ := ih reported
      exact ⟨new, hreported, hnodup, hfound.cons _⟩

/-- Filing finds the same for reports about the same subjects, in whatever order they are filed. -/
theorem saySame_fileReports {reports others : List Report}
    (hsubjects : (reports.map Report.subject).Perm (others.map Report.subject)) :
    SaySame (fileReports [] reports).1 (fileReports [] others).1 := by
  obtain ⟨new, hnew, hnodup, hfound⟩ := exists_new_fileReports [] reports
  obtain ⟨new', hnew', hnodup', hfound'⟩ := exists_new_fileReports [] others
  rw [List.nil_append] at hnew hnodup hnew' hnodup'
  have hmany (reports : List Report) :
      (reports.filter fun report => !report.once).map (fun report => report.mismatch.content) =
        ((reports.map Report.subject).filter fun subject => !subject.2).map
          fun subject => subject.1.content := by
    rw [List.filter_map, List.map_map]
    rfl
  have honce (reports : List Report) (mismatch : Mismatch) :
      mismatch ∈ (fileReports [] reports).2 ↔ (mismatch, true) ∈ reports.map Report.subject := by
    rw [mem_fileReports_iff]
    simp [Report.subject, and_comm]
  -- the mismatches found once are those of the reports, each once, whatever was filed first
  have hperm : new.Perm new' := by
    refine (List.perm_ext_iff_of_nodup (hnodup .nil) (hnodup' .nil)).mpr fun mismatch => ?_
    rw [← hnew, ← hnew', honce, honce, hsubjects.mem_iff]
  refine hfound.trans (.trans (.append ?_ (hperm.map _)) hfound'.symm)
  rw [hmany, hmany]
  exact (hsubjects.filter _).map _

namespace Context

/-- What a report about a use in a fragment is about. -/
theorem map_subject_reportInFragment? (context : Context) (governed : GovernedUsage) :
    (context.reportInFragment? governed).map Report.subject =
      ((governed.mismatch? context.schema).map Prod.snd).map fun mismatch =>
        (mismatch, governed.origin? != some .ownDefinition) := by
  rw [reportInFragment?, Option.map_map, Option.map_map]
  refine congrArg (Option.map · _) (funext fun found => ?_)
  cases horigin : governed.origin? == some .ownDefinition <;>
    simp [Report.subject, bne, horigin]

namespace Reorders

variable {context other : Context}

/-! ## Uses -/

/-- The uses in a definition are the same. -/
theorem usages_eq (h : context.Reorders other) : other.usages = context.usages :=
  usages_congr h.schema_eq h.fragment?_eq

/-- The uses in a fragment are the same if the enclosing declarations are. -/
theorem fragmentUsages_eq (h : context.Reorders other) :
    other.fragmentUsages = context.fragmentUsages := by
  funext fragment enclosing
  rw [fragmentUsages, fragmentUsages, h.usages_eq, h.schema_eq]

/-- The uses of an operation are the same in some order. -/
theorem operationUsages_perm (h : context.Reorders other) (operation : Operation) :
    (context.operationUsages operation).Perm (other.operationUsages operation) := by
  rw [operationUsages, operationUsages, h.usages_eq, h.schema_eq, h.fragmentUsages_eq]
  exact (h.reached_perm operation).flatMap_right _ |>.append_left _

/-- Operations agree on the same variables. -/
theorem unify_eq (h : context.Reorders other) : other.unify = context.unify := by
  funext operations
  simp only [unify, h.schema_eq]

/-- The operations that use a fragment agree on the same variables, declared alike. -/
theorem unifiedVariables_alike (h : context.Reorders other) (name : String) :
    Declarations.Alike context.schema (context.unifiedVariables name).declarations
      (other.unifiedVariables name).declarations := by
  rw [unifiedVariables, unifiedVariables, h.unify_eq]
  exact unify_alike fun operation => (h.operationsReaching_perm name).symm.mem_iff

/-- The operations that use a fragment declare the same variables in conflict. -/
theorem mem_conflicting_iff (h : context.Reorders other) (fragment name : String) :
    name ∈ (other.unifiedVariables fragment).conflicting ↔
      name ∈ (context.unifiedVariables fragment).conflicting := by
  rw [unifiedVariables, unifiedVariables, h.unify_eq]
  exact mem_unify_conflicting_congr
    (fun operation => (h.operationsReaching_perm fragment).symm.mem_iff) name

/-! ## Positions -/

/-- What there is to report about a definition is the same in some order. -/
theorem map_subject_reports_perm (h : context.Reorders other) (definition : Definition) :
    ((context.reports definition).map Report.subject).Perm
      ((other.reports definition).map Report.subject) := by
  cases definition with
  | operation operation =>
    have hreport : other.reportInOperation? operation = context.reportInOperation? operation := by
      funext governed
      rw [reportInOperation?, reportInOperation?, h.schema_eq]
    rw [reports, reports, hreport]
    exact ((h.operationUsages_perm operation).filterMap _).map _
  | fragment fragment =>
    -- the uses are the same, and governed alike by what the operations agree on
    have halike := h.unifiedVariables_alike fragment.name.text
    refine .of_eq ?_
    rw [reports, reports, fragmentUsages, fragmentUsages, h.usages_eq, h.schema_eq,
      List.filterMap_map, List.filterMap_map, List.map_filterMap, List.map_filterMap]
    refine List.filterMap_congr fun usage _ => ?_
    obtain ⟨hdeclaration, horigin⟩ :=
      govern_alike (fragment.declarations context.schema) halike usage
    have hmismatch := map_snd_mismatch?_of_alike (by rw [usage_govern, usage_govern]) hdeclaration
    rw [Function.comp_apply, Function.comp_apply, map_subject_reportInFragment?,
      map_subject_reportInFragment?, h.schema_eq, horigin, hmismatch]
  | schema | schemaExtension | type | typeExtension | directive => exact .refl _

/-- The rule for positions finds the same in both documents. -/
theorem saySame_variablesInAllowedPosition (h : context.Reorders other) :
    SaySame
      ((variablesInAllowedPosition context).findings (context.document.events context.schema))
      ((variablesInAllowedPosition other).findings (other.document.events other.schema)) := by
  rw [findings_variablesInAllowedPosition, findings_variablesInAllowedPosition]
  refine saySame_fileReports ?_
  rw [List.map_flatMap, List.map_flatMap]
  exact h.definitions_perm.flatMap fun definition _ => h.map_subject_reports_perm definition

/-! ## Names -/

/-- A name that is missing in one document is missing in the other. -/
theorem isMissing (h : context.Reorders other) {operation : Operation} {fragment : Fragment}
    {usage : Usage} (hmissing : context.IsMissing operation fragment usage) :
    other.IsMissing operation fragment usage where
  reaches := h.reaches_iff.mpr hmissing.reaches
  mem_usages := by
    rw [h.usages_eq]
    exact hmissing.mem_usages
  fragment_eq_none := by
    rw [h.schema_eq]
    exact hmissing.fragment_eq_none
  operation_eq_none := by
    rw [h.schema_eq]
    exact hmissing.operation_eq_none

/-- Uses that stand for all missing names in one document have the keys of such uses in the
other. -/
theorem keys_subset (h : context.Reorders other) {operation : Operation}
    {missing others : List Usage} (hmissing : context.OnceEach operation missing)
    (hothers : other.OnceEach operation others) :
    missing.map Usage.key ⊆ others.map Usage.key := by
  intro key hkey
  obtain ⟨usage, husage, rfl⟩ := List.mem_map.mp hkey
  obtain ⟨fragment, hfragment⟩ := hmissing.sound usage husage
  exact List.mem_map.mpr (hothers.complete fragment usage (h.isMissing hfragment))

/-- What the rule for names finds about an operation is the same. -/
theorem saySame_undeclared_operation (h : context.Reorders other) (operation : Operation) :
    SaySame (context.undeclared (.operation operation))
      (other.undeclared (.operation operation)) := by
  obtain ⟨missing, hmissing, hfound⟩ := context.undeclaredInOperation_eq operation
  obtain ⟨others, hothers, hfound'⟩ := other.undeclaredInOperation_eq operation
  have hkeys : (missing.map Usage.key).Perm (others.map Usage.key) :=
    (List.perm_ext_iff_of_nodup hmissing.nodup hothers.nodup).mpr fun key =>
      ⟨fun hkey => h.keys_subset hmissing hothers hkey,
        fun hkey => h.symm.keys_subset hothers hmissing hkey⟩
  have hown : other.undeclaredOwn operation = context.undeclaredOwn operation := by
    rw [undeclaredOwn, undeclaredOwn, h.usages_eq, h.schema_eq]
  -- a finding says which name is missing in which fragment, and nothing else of the use
  have hcontent (uses : List Usage) :
      (uses.map operation.undeclaredFinding).map Finding.content =
        (uses.map Usage.key).map fun key =>
          .inl (.relay (.undefinedVariable key.1 (operation.name.map Name.text) key.2)) := by
    rw [List.map_map, List.map_map]
    rfl
  rw [undeclared, undeclared, hfound, hfound', hown, SaySame, hcontent, hcontent]
  simp only [List.map_append]
  exact (hkeys.map _).append_left _

/-- What the rule for names finds about a fragment is the same. -/
theorem saySame_undeclared_fragment (h : context.Reorders other) (fragment : Fragment) :
    SaySame (context.undeclared (.fragment fragment)) (other.undeclared (.fragment fragment)) := by
  have hby : other.undeclaredBy fragment = context.undeclaredBy fragment := by
    rw [undeclaredBy, undeclaredBy, h.usages_eq, h.schema_eq]
  have hnil := eq_nil_congr fun operation =>
    (h.operationsReaching_perm fragment.name.text).symm.mem_iff (a := operation)
  rw [undeclared, undeclared]
  by_cases hunused : context.operationsReaching fragment.name.text = []
  · rw [hunused, hnil.mpr hunused, undeclaredInFragment_nil, undeclaredInFragment_nil, hby]
    exact .refl _
  · rw [undeclaredInFragment_of_ne_nil hunused,
      undeclaredInFragment_of_ne_nil (mt hnil.mp hunused), hby]
    -- the operations may come in another order, which leaves the conflicts as they are
    have hconflicting (name : String) :
        (other.unifiedVariables fragment.name.text).conflicting.contains name =
          (context.unifiedVariables fragment.name.text).conflicting.contains name := by
      rw [Bool.eq_iff_iff, List.contains_iff_mem, List.contains_iff_mem]
      exact h.mem_conflicting_iff fragment.name.text name
    rw [← unifiedVariables, ← unifiedVariables]
    simp only [hconflicting]
    exact .refl _

/-- What the rule for names finds about a definition is the same. -/
theorem saySame_undeclared (h : context.Reorders other) (definition : Definition) :
    SaySame (context.undeclared definition) (other.undeclared definition) := by
  cases definition with
  | operation operation => exact h.saySame_undeclared_operation operation
  | fragment fragment => exact h.saySame_undeclared_fragment fragment
  | schema | schemaExtension | type | typeExtension | directive => exact .refl _

/-- The rule for names finds the same in both documents. -/
theorem saySame_knownVariableNames (h : context.Reorders other) :
    SaySame ((knownVariableNames context).findings (context.document.events context.schema))
      ((knownVariableNames other).findings (other.document.events other.schema)) := by
  rw [findings_knownVariableNames_eq_flatMap, findings_knownVariableNames_eq_flatMap]
  exact .flatMap h.definitions_perm fun definition _ => h.saySame_undeclared definition

end Reorders

end Context

end RelayCheck
