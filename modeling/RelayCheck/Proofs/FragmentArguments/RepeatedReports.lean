import RelayCheck.Proofs.FragmentArguments.Parts
import RelayCheck.Proofs.FragmentArguments.Positions

/-!
# Reports about separate documents

The rule for positions leaves out a mismatch inside a fragment that it reported before in the same
document. It compares the name of the variable and both types, but not the fragments. So it also
leaves out what an unrelated part of the document reported in the same words, and this is the only
way in which unrelated parts affect each other.

The module introduces:

- `Context.Shares`, a mismatch inside a fragment that is reported once in a document;
- `Document.positionFindings`, what the rule for positions finds in a document.

The main result is `positionFindings_append_eq_iff`: putting separate documents together keeps the
findings in both exactly if no mismatch is shared by both. What is lost otherwise is in the second
document, by `positionFindings_append`.
-/

namespace RelayCheck

/-! ## The reports about a part -/

namespace Context

/-- The reports about a definition of a part are those about it in the whole. -/
theorem IsPartOf.reports_eq {part whole : Context} (hpart : part.IsPartOf whole)
    {definition : Definition} (hmem : definition ∈ part.document.definitions) :
    whole.reports definition = part.reports definition := by
  cases definition with
  | fragment fragment =>
    have hfragment := Document.mem_fragments_iff.mpr hmem
    rw [reports, reports, hpart.unifiedVariables_eq hfragment, hpart.fragmentUsages_eq hfragment]
    refine List.filterMap_congr fun governed _ => ?_
    rw [reportInFragment?, reportInFragment?, hpart.schema_eq]
  | operation operation =>
    rw [reports, reports, hpart.operationUsages_eq (Document.mem_operations_iff.mpr hmem)]
    refine List.filterMap_congr fun governed _ => ?_
    rw [reportInOperation?, reportInOperation?, hpart.schema_eq]
  | schema | schemaExtension | type | typeExtension | directive => rfl

/-- A mismatch of a variable of an operation inside a fragment, which is reported once, however
often it is found. -/
inductive Shares (context : Context) (mismatch : Mismatch) : Prop
  | inFragment {fragment : Fragment} {governed : GovernedUsage} {declaration : Declaration}
      (hfragment : fragment ∈ context.document.fragments)
      (husage : governed ∈ context.fragmentUsages fragment
        (context.unifiedVariables fragment.name.text).declarations)
      (horigin : governed.origin? ≠ some .ownDefinition)
      (hmismatch : governed.mismatch? context.schema = some (declaration, mismatch)) :
      Shares context mismatch
  | inOperation {operation : Operation} {governed : GovernedUsage} {declaration : Declaration}
      (hoperation : operation ∈ context.document.operations)
      (husage : governed ∈ context.operationUsages operation)
      (hargument : governed.isOfArgument = false)
      (hfragment : governed.usage.fragment.isSome = true)
      (hmismatch : governed.mismatch? context.schema = some (declaration, mismatch)) :
      Shares context mismatch

/-- The shared mismatches are those of reports that are left out when repeated. -/
theorem shares_iff {context : Context} {mismatch : Mismatch} :
    context.Shares mismatch ↔
      ∃ report ∈ context.document.definitions.flatMap context.reports,
        report.once = true ∧ report.mismatch = mismatch := by
  constructor
  · intro hshares
    cases hshares with
    | @inFragment fragment governed declaration hfragment husage horigin hmismatch =>
      refine ⟨⟨mismatch, [governed.usage.pos], true⟩, ?_, rfl, rfl⟩
      refine List.mem_flatMap.mpr ⟨.fragment fragment, Document.mem_fragments_iff.mp hfragment, ?_⟩
      refine List.mem_filterMap.mpr ⟨governed, husage, ?_⟩
      simp [reportInFragment?, hmismatch, horigin]
    | @inOperation operation governed declaration hoperation husage hargument hfragment hmismatch =>
      refine ⟨⟨mismatch, [operation.pos], true⟩, ?_, rfl, rfl⟩
      refine List.mem_flatMap.mpr
        ⟨.operation operation, Document.mem_operations_iff.mp hoperation, ?_⟩
      refine List.mem_filterMap.mpr ⟨governed, husage, ?_⟩
      simp [reportInOperation?, hargument, hmismatch, Option.isNone_eq_false_iff.mpr hfragment]
  · rintro ⟨report, hreport, honce, rfl⟩
    obtain ⟨definition, hdefinition, hreport⟩ := List.mem_flatMap.mp hreport
    cases definition with
    | fragment fragment =>
      obtain ⟨governed, husage, hgoverned⟩ := List.mem_filterMap.mp hreport
      obtain ⟨⟨declaration, mismatch⟩, hmismatch, rfl⟩ := Option.map_eq_some_iff.mp hgoverned
      -- a mismatch with an argument of the fragment itself is not among those reported once
      dsimp only at honce ⊢
      split at honce
      · cases honce
      next horigin =>
        rw [if_neg horigin]
        rw [beq_iff_eq] at horigin
        exact .inFragment (Document.mem_fragments_iff.mpr hdefinition) husage horigin hmismatch
    | operation operation =>
      obtain ⟨governed, husage, hgoverned⟩ := List.mem_filterMap.mp hreport
      rw [reportInOperation?] at hgoverned
      split at hgoverned
      · cases hgoverned
      next hargument =>
        obtain ⟨⟨declaration, mismatch⟩, hmismatch, rfl⟩ := Option.map_eq_some_iff.mp hgoverned
        -- neither is one of a use in the operation itself
        dsimp only at honce ⊢
        split at honce
        · cases honce
        next hfragment =>
          rw [if_neg hfragment]
          rw [Bool.not_eq_true] at hargument
          rw [Bool.not_eq_true, Option.isNone_eq_false_iff] at hfragment
          exact .inOperation (Document.mem_operations_iff.mpr hdefinition) husage hargument
            hfragment hmismatch
    | schema | schemaExtension | type | typeExtension | directive => cases hreport

end Context

/-! ## Filing after other reports -/

namespace Report

variable {reported more : List Mismatch} {report : Report}

/-- Filing a report adds its mismatch if it is to be reported once, and nothing else. -/
theorem mem_file_iff {mismatch : Mismatch} :
    mismatch ∈ (report.file reported).2 ↔
      mismatch ∈ reported ∨ report.once = true ∧ report.mismatch = mismatch := by
  rw [file, reportOnce]
  split
  next honce =>
    split
    next hreported =>
      rw [List.contains_iff_mem] at hreported
      constructor
      · exact Or.inl
      · rintro (hmem | ⟨-, rfl⟩)
        · exact hmem
        · exact hreported
    next => simp [honce, eq_comm]
  next honce => simp [honce]

/-- With more reported before, filing a report finds no more. -/
theorem file_sublist (hsubset : reported ⊆ more) :
    (report.file more).1.Sublist (report.file reported).1 := by
  rw [file, file, reportOnce, reportOnce]
  simp only [List.contains_iff_mem]
  split
  · split
    · exact List.nil_sublist _
    next hnew =>
      rw [if_neg fun hmem => hnew (hsubset hmem)]
  · exact List.Sublist.refl _

/-- With more reported before, filing a report finds the same exactly if it need not be left out
for the first time. -/
theorem file_eq_iff (hsubset : reported ⊆ more) :
    (report.file more).1 = (report.file reported).1 ↔
      (report.once = true → report.mismatch ∈ more → report.mismatch ∈ reported) := by
  rw [file, file, reportOnce, reportOnce]
  simp only [List.contains_iff_mem]
  cases report.once with
  | false => simp
  | true =>
    by_cases hmore : report.mismatch ∈ more
    · by_cases hreported : report.mismatch ∈ reported <;> simp [hmore, hreported]
    · have hreported : report.mismatch ∉ reported := fun hmem => hmore (hsubset hmem)
      simp [hmore, hreported]

/-- With more reported before, more has been reported after filing a report. -/
theorem file_subset (hsubset : reported ⊆ more) :
    (report.file reported).2 ⊆ (report.file more).2 := by
  intro mismatch hmem
  rw [mem_file_iff] at hmem ⊢
  exact hmem.imp_left fun hreported => hsubset hreported

end Report

section Filing

variable {reported more : List Mismatch}

/-- After filing, the mismatches of all reports that are made once have been reported, and those
that were reported before. -/
theorem mem_fileReports_iff {reports : List Report} {mismatch : Mismatch} :
    mismatch ∈ (fileReports reported reports).2 ↔
      mismatch ∈ reported ∨
        ∃ report ∈ reports, report.once = true ∧ report.mismatch = mismatch := by
  induction reports generalizing reported with
  | nil => simp [fileReports, collect]
  | cons report rest ih =>
    rw [fileReports, collect]
    refine ih.trans ?_
    rw [Report.mem_file_iff, List.exists_mem_cons_iff, or_assoc]

/-- With more reported before, filing finds no more. -/
theorem fileReports_sublist (hsubset : reported ⊆ more) (reports : List Report) :
    (fileReports more reports).1.Sublist (fileReports reported reports).1 := by
  -- both lists of reported mismatches grow, and one stays within the other
  induction reports generalizing reported more with
  | nil => exact List.Sublist.refl _
  | cons report rest ih =>
    exact (Report.file_sublist hsubset).append (ih (Report.file_subset hsubset))

/-- Lists put together are the same as lists that leave nothing out of theirs exactly if each of
them is. -/
theorem append_eq_append_iff_of_sublist {α : Type} {first second : List α}
    {wholeFirst wholeSecond : List α} (hfirst : first.Sublist wholeFirst)
    (hsecond : second.Sublist wholeSecond) :
    first ++ second = wholeFirst ++ wholeSecond ↔ first = wholeFirst ∧ second = wholeSecond := by
  constructor
  · intro h
    have hlength := congrArg List.length h
    rw [List.length_append, List.length_append] at hlength
    have hle := hfirst.length_le
    have hle' := hsecond.length_le
    exact ⟨hfirst.eq_of_length (by omega), hsecond.eq_of_length (by omega)⟩
  · rintro ⟨rfl, rfl⟩
    rfl

/-- With more reported before, filing finds the same exactly if no report that is made once is
among what was reported in addition. -/
theorem fileReports_eq_iff (hsubset : reported ⊆ more) (reports : List Report) :
    (fileReports more reports).1 = (fileReports reported reports).1 ↔
      ∀ report ∈ reports, report.once = true → report.mismatch ∈ more →
        report.mismatch ∈ reported := by
  induction reports generalizing reported more with
  | nil => simp [fileReports, collect]
  | cons report rest ih =>
    have hlater : (report.file reported).2 ⊆ (report.file more).2 := Report.file_subset hsubset
    rw [fileReports, fileReports, collect, collect]
    refine (append_eq_append_iff_of_sublist (Report.file_sublist hsubset)
      (fileReports_sublist hlater rest)).trans ?_
    rw [Report.file_eq_iff hsubset, List.forall_mem_cons]
    refine and_congr_right fun hhead => (ih hlater).trans ?_
    refine forall₃_congr fun other _ _ => ?_
    rw [Report.mem_file_iff, Report.mem_file_iff]
    constructor
    · intro h hmore
      rcases h (Or.inl hmore) with hreported | ⟨honce, hsame⟩
      · exact hreported
      · -- the head was reported too, or else it would be left out for the first time here
        rw [← hsame] at hmore ⊢
        exact hhead honce hmore
    · intro h
      exact Or.imp_left h

end Filing

/-! ## Separate documents -/

/-- What the rule for positions finds in a document. -/
def Document.positionFindings (schema : Schema) (document : Document) : List Finding :=
  (variablesInAllowedPosition (.ofDocument schema document)).findings (document.events schema)

/-- What the rule for positions finds is what filing the reports about all definitions leaves. -/
theorem Document.positionFindings_eq (schema : Schema) (document : Document) :
    document.positionFindings schema =
      (fileReports []
        (document.definitions.flatMap (Context.ofDocument schema document).reports)).1 :=
  (Context.ofDocument schema document).findings_variablesInAllowedPosition

section Separate

variable {schema : Schema} {first second : Document}

/-- The reports about two separate documents put together are those about the first, then those
about the second. -/
theorem reports_append (hseparate : first.Separate second) :
    (first ++ second).definitions.flatMap (Context.ofDocument schema (first ++ second)).reports =
      first.definitions.flatMap (Context.ofDocument schema first).reports ++
        second.definitions.flatMap (Context.ofDocument schema second).reports := by
  rw [Document.definitions_append, List.flatMap_append]
  congr 1
  · exact List.flatMap_congr fun definition hmem =>
      (hseparate.isPartOf_left schema).reports_eq hmem
  · exact List.flatMap_congr fun definition hmem =>
      (hseparate.isPartOf_right schema).reports_eq hmem

/-- In two separate documents put together, the rule for positions finds what it finds in the first,
then what it finds in the second with the mismatches that the first shares reported before. -/
theorem positionFindings_append_eq (hseparate : first.Separate second) :
    (first ++ second).positionFindings schema =
      first.positionFindings schema ++
        (fileReports
          (fileReports [] (first.definitions.flatMap (Context.ofDocument schema first).reports)).2
          (second.definitions.flatMap (Context.ofDocument schema second).reports)).1 := by
  rw [Document.positionFindings_eq, Document.positionFindings_eq, reports_append hseparate,
    fileReports, collect_append]
  rfl

/-- Whatever separate documents share, nothing in the first is lost when they are put together,
and nothing is found in the second that is not found in it alone. -/
theorem positionFindings_append (hseparate : first.Separate second) :
    ∃ rest, (first ++ second).positionFindings schema = first.positionFindings schema ++ rest ∧
      rest.Sublist (second.positionFindings schema) := by
  refine ⟨_, positionFindings_append_eq hseparate, ?_⟩
  rw [Document.positionFindings_eq]
  exact fileReports_sublist (List.nil_subset _) _

/-- The rule for positions finds in two separate documents put together what it finds in the first
and then what it finds in the second exactly if the two share no mismatch inside their fragments:
no variable of the same name and type stands, inside a fragment of each, where the same type is
expected that it does not fit. -/
theorem positionFindings_append_eq_iff (hseparate : first.Separate second) :
    (first ++ second).positionFindings schema =
        first.positionFindings schema ++ second.positionFindings schema ↔
      ∀ mismatch, (Context.ofDocument schema first).Shares mismatch →
        ¬(Context.ofDocument schema second).Shares mismatch := by
  rw [positionFindings_append_eq hseparate, List.append_cancel_left_eq,
    Document.positionFindings_eq schema second, fileReports_eq_iff (List.nil_subset _)]
  simp only [mem_fileReports_iff, List.not_mem_nil, false_or]
  constructor
  · intro h mismatch hfirst hsecond
    obtain ⟨report, hreport, honce, rfl⟩ := Context.shares_iff.mp hsecond
    exact h report hreport honce (Context.shares_iff.mp hfirst)
  · intro h report hreport honce hfirst
    exact h report.mismatch (Context.shares_iff.mpr hfirst)
      (Context.shares_iff.mpr ⟨report, hreport, honce, rfl⟩)

/-- One of two queries does not see to the size that has to be given, but the fragments have
nothing in common: what the rule finds in either document is all it finds in both. -/
theorem positionFindings_append_eq_picture :
    let size : TypeRef Name := .named ⟨"Int", ⟨1, 16⟩⟩
    let first : Document := ⟨[.operation (pictureQuery "A" "P" size 1),
      .fragment (pictureFragment "P" 2)]⟩
    let second : Document := ⟨[.operation (pictureQuery "B" "Q" (.nonNull size) 3),
      .fragment (pictureFragment "Q" 4)]⟩
    first.Separate second ∧ (first ++ second).positionFindings pictureSchema =
      first.positionFindings pictureSchema ++ second.positionFindings pictureSchema := by
  intro size first second
  have hseparate : first.Separate second := ⟨by decide, by decide⟩
  have hnone : (second.definitions.flatMap
      (Context.ofDocument pictureSchema second).reports).length = 0 := by cbv
  refine ⟨hseparate, (positionFindings_append_eq_iff hseparate).mpr fun mismatch _ hsecond => ?_⟩
  obtain ⟨report, hreport, -⟩ := Context.shares_iff.mp hsecond
  exact List.ne_nil_of_mem hreport (List.eq_nil_of_length_eq_zero hnone)

/-- Neither of two queries sees to the size that has to be given, and their fragments have nothing
in common: what the rule finds in the second document alone, it does not find in both together. -/
theorem positionFindings_append_ne_picture :
    let size : TypeRef Name := .named ⟨"Int", ⟨1, 16⟩⟩
    let first : Document := ⟨[.operation (pictureQuery "A" "P" size 1),
      .fragment (pictureFragment "P" 2)]⟩
    let second : Document := ⟨[.operation (pictureQuery "B" "Q" size 3),
      .fragment (pictureFragment "Q" 4)]⟩
    first.Separate second ∧ (first ++ second).positionFindings pictureSchema ≠
      first.positionFindings pictureSchema ++ second.positionFindings pictureSchema := by
  intro size first second
  have hseparate : first.Separate second := ⟨by decide, by decide⟩
  have hwhole : ((first ++ second).positionFindings pictureSchema).length = 1 := by cbv
  have hfirst : (first.positionFindings pictureSchema).length = 1 := by cbv
  have hsecond : (second.positionFindings pictureSchema).length = 1 := by cbv
  refine ⟨hseparate, fun h => ?_⟩
  have hlength := congrArg List.length h
  rw [List.length_append, hwhole, hfirst, hsecond] at hlength
  cases hlength

end Separate

end RelayCheck
