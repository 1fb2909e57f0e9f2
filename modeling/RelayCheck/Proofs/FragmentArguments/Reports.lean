import RelayCheck.FragmentArguments.Positions
import RelayCheck.Proofs.Validation.Walk

/-!
# What there is to report about positions

The rule for positions looks at every definition with what it reported before. What is wrong does
not depend on that: the mismatches of a definition, in order, are settled by the definition and
its context, and what was reported before only decides which of those inside fragments are left
out.

The module introduces:

- `Report`, a mismatch with the places that show it, and `Report.file`, its filing with the
  mismatches that were reported before;
- `Context.reports`, the reports about a definition.

The main result is `findings_variablesInAllowedPosition`: the rule finds what filing the reports
of all definitions one after the other leaves.
-/

namespace RelayCheck

/-! ## Reports and their filing -/

/-- A mismatch and the places that show it. One inside a fragment that concerns a variable of an
operation is reported `once`. -/
structure Report where
  /-- The mismatch. -/
  mismatch : Mismatch
  /-- The places that show it. -/
  places : List Position
  /-- Whether the report is left out if the mismatch was reported before. -/
  once : Bool

namespace Report

/-- File a report with the mismatches inside fragments that were reported before. -/
def file (reported : List Mismatch) (report : Report) : List Finding × List Mismatch :=
  if report.once then reportOnce reported report.mismatch report.places
  else ([report.mismatch.report report.places], reported)

end Report

/-- What is found by filing reports one after the other. -/
def fileReports (reported : List Mismatch) (reports : List Report) :
    List Finding × List Mismatch :=
  collect Report.file reported reports

/-- Filing reports for the first time finds nothing exactly if there is none: the first report is
never left out. -/
theorem fileReports_eq_nil_iff (reports : List Report) :
    (fileReports [] reports).1 = [] ↔ reports = [] := by
  cases reports with
  | nil => exact ⟨fun _ => rfl, fun _ => rfl⟩
  | cons report rest =>
    rw [fileReports, collect, Report.file, reportOnce]
    cases report.once with
    | true => simp
    | false => simp

/-! ## The reports about a definition -/

/-- Checking uses is looking at them one after the other. -/
theorem checkUsages_eq_collect
    (check : List Mismatch → GovernedUsage → List Finding × List Mismatch)
    (reported : List Mismatch) (usages : List GovernedUsage) :
    checkUsages check reported usages = collect check reported usages := by
  -- the fold puts what was found before in front, which is nothing at the start
  have hfrom : ∀ found, usages.foldl (fun state governed =>
      (state.1 ++ (check state.2 governed).1, (check state.2 governed).2)) (found, reported) =
        (found ++ (collect check reported usages).1, (collect check reported usages).2) := by
    induction usages generalizing reported with
    | nil =>
      intro found
      rw [List.foldl_nil, collect, List.append_nil]
    | cons governed rest ih =>
      intro found
      rw [List.foldl_cons, ih, collect, List.append_assoc]
  exact (hfrom []).trans (by rw [List.nil_append])

namespace Context

variable (context : Context)

/-- The report about a use in a fragment that is looked at on its own. -/
def reportInFragment? (governed : GovernedUsage) : Option Report :=
  (governed.mismatch? context.schema).map fun (declaration, mismatch) =>
    if governed.origin? == some .ownDefinition then
      ⟨mismatch, [declaration.pos, governed.usage.pos], false⟩
    else ⟨mismatch, [governed.usage.pos], true⟩

/-- The report about a use of an operation or of a fragment that it reaches. -/
def reportInOperation? (operation : Operation) (governed : GovernedUsage) : Option Report :=
  if governed.isOfArgument then none
  else (governed.mismatch? context.schema).map fun (_, mismatch) =>
    if governed.usage.fragment.isNone then
      ⟨mismatch, [governed.usage.pos, operation.pos], false⟩
    else ⟨mismatch, [operation.pos], true⟩

/-- The reports about a definition, in order. -/
def reports : Definition → List Report
  | .fragment fragment =>
    (context.fragmentUsages fragment
      (context.unifiedVariables fragment.name.text).declarations).filterMap
        context.reportInFragment?
  | .operation operation =>
    (context.operationUsages operation).filterMap (context.reportInOperation? operation)
  | _ => []

/-- Checking a use in a fragment is filing the report about it. -/
theorem checkInFragment_eq (reported : List Mismatch) (governed : GovernedUsage) :
    context.checkInFragment reported governed =
      (context.reportInFragment? governed).elim ([], reported) (Report.file reported) := by
  rw [checkInFragment, reportInFragment?]
  cases governed.mismatch? context.schema with
  | none => rfl
  | some found =>
    obtain ⟨declaration, mismatch⟩ := found
    simp only [Option.map_some]
    split
    · rfl
    · rfl

/-- Checking a use of an operation is filing the report about it. -/
theorem checkInOperation_eq (operation : Operation) (reported : List Mismatch)
    (governed : GovernedUsage) :
    context.checkInOperation operation reported governed =
      (context.reportInOperation? operation governed).elim ([], reported)
        (Report.file reported) := by
  rw [checkInOperation, reportInOperation?]
  split
  · rfl
  · cases governed.mismatch? context.schema with
    | none => rfl
    | some found =>
      simp only [Option.map_some]
      split
      · rfl
      · rfl

/-- The rule for positions finds what filing the reports of all definitions, one after the other,
leaves. -/
theorem findings_variablesInAllowedPosition :
    (variablesInAllowedPosition context).findings (context.document.events context.schema) =
      (fileReports [] (context.document.definitions.flatMap context.reports)).1 := by
  rw [variablesInAllowedPosition, Rule.findings_searching, fileReports, collect_flatMap]
  refine findings_remembering ?_ ?_ context.document
  · intro reported definition scope
    cases definition with
    | fragment fragment =>
      rw [reports, collect_filterMap]
      exact (checkUsages_eq_collect _ _ _).trans
        (collect_congr (fun governed _ state => context.checkInFragment_eq state governed) _)
    | operation operation =>
      rw [reports, collect_filterMap]
      exact (checkUsages_eq_collect _ _ _).trans (collect_congr
        (fun governed _ state => context.checkInOperation_eq operation state governed) _)
    | schema | schemaExtension | type | typeExtension | directive => rfl
  · rintro reported ⟨node, scope⟩ hnode
    cases node with
    | definition definition => exact absurd rfl (hnode definition)
    | document | variableDefinition | typeName | field | spread | inlineFragment | directive
    | argument | value | objectField | typePart => rfl

end Context

end RelayCheck
