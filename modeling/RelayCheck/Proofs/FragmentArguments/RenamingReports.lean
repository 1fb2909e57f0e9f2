import RelayCheck.Proofs.FragmentArguments.RenamingDirectives
import RelayCheck.Proofs.FragmentArguments.Reports
import RelayCheck.Proofs.FragmentArguments.Scoping

/-!
# What is reported with a renamed argument

If an argument of a fragment gets another name, the same variables have no declaration: the argument
is declared, so that none of them stands for it. The same variables stand where they may not. Those
that are told by the new name are uses of the argument in its own fragment, each of which is
reported, so that reports which are left out when they are repeated stay as they are.

The module introduces `Report.Renamed`, reports that are the same up to the name of the argument.

The main results are `Context.findings_knownVariableNames_eq_of_renamed` and
`Context.rel_findings_variablesInAllowedPosition`.
-/

namespace RelayCheck

/-! ## Mismatches -/

section Mismatches

variable {f g : String → String}

/-- Names of variables in a default do not matter for where a variable may stand. -/
theorem allowedUsage_renameVariables (schema : Schema) (type : TypeRef String)
    (default : Option Value) (expected : TypeRef String) (positionHasDefault : Bool) :
    allowedUsage schema type (default.map (Value.renameVariables f)) expected positionHasDefault =
      allowedUsage schema type default expected positionHasDefault := by
  have hdefault : ((default.map (Value.renameVariables f)).any fun value => !value.isNull) =
      default.any fun value => !value.isNull := by
    cases default with
    | none => rfl
    | some value => simp only [Option.map_some, Option.any_some, Value.isNull_renameVariables]
  simp only [allowedUsage, hdefault]

/-- A use shows the same mismatch by its new name. -/
theorem Usage.Renamed.rel_mismatch? {names : Set String} {usage other : Usage}
    (h : usage.Renamed f names other) {declaration declaration' : Declaration}
    (hdeclaration : declaration.Renamed g declaration') (schema : Schema) (origin : Origin) :
    Option.Rel (fun found found' => found.1 = declaration ∧ found'.1 = declaration' ∧
        found'.2 = { found.2 with name := f found.2.name })
      (GovernedUsage.mismatch? schema ⟨usage, some (declaration, origin)⟩)
      (GovernedUsage.mismatch? schema ⟨other, some (declaration', origin)⟩) := by
  rw [GovernedUsage.mismatch?, GovernedUsage.mismatch?]
  dsimp only [GovernedUsage.declaration?, Option.map_some]
  rw [h.type_eq, h.name_eq, h.isSome_default_eq]
  cases usage.type with
  | none => exact .none
  | some expected =>
    dsimp only
    rw [hdeclaration.type_eq, hdeclaration.default_eq]
    cases declaration.type with
    | none => exact .none
    | some type =>
      dsimp only
      rw [allowedUsage_renameVariables]
      split
      · exact .none
      · exact .some ⟨rfl, rfl, rfl⟩

/-- A use that keeps its name, and what governs it, shows the same mismatch. -/
theorem Usage.Renamed.mismatch?_eq {names : Set String} {usage other : Usage}
    (h : usage.Renamed id names other) (schema : Schema)
    (governor : Option (Declaration × Origin)) :
    GovernedUsage.mismatch? schema ⟨other, governor⟩ =
      GovernedUsage.mismatch? schema ⟨usage, governor⟩ := by
  rw [GovernedUsage.mismatch?, GovernedUsage.mismatch?]
  dsimp only
  rw [h.type_eq, h.name_eq, h.isSome_default_eq]
  rfl

/-- By its new name, a use is one of an argument of the fragment that contains it if it was
before. -/
theorem GovernedUsage.Renamed.isOfArgument_eq {r : Renaming} {governed governed' : GovernedUsage}
    (h : governed.Renamed r governed') : governed'.isOfArgument = governed.isOfArgument := by
  cases h with
  | own _ _ _ hdeclaration => exact hdeclaration.isArgument_eq
  | same => rfl

end Mismatches

/-! ## Reports -/

/-- Reports that are the same up to the name of the argument. Those about the argument are never
left out. -/
inductive Report.Renamed (r : Renaming) : Report → Report → Prop
  | same (report : Report) : Renamed r report report
  | renamed (fragment : String) (mismatch : Mismatch) (places : List Position) :
      Renamed r ⟨mismatch, places, false⟩
        ⟨{ mismatch with name := r.within fragment mismatch.name }, places, false⟩

section Reports

variable {r : Renaming}

/-- Filing reports that are the same up to the name of the argument has the same effect. -/
theorem Report.Renamed.file {report other : Report} (h : report.Renamed r other)
    (reported : List Mismatch) :
    SameButName r (report.file reported).1 (other.file reported).1 ∧
      (other.file reported).2 = (report.file reported).2 := by
  cases h with
  | same => exact ⟨.refl _, rfl⟩
  | renamed fragment mismatch places =>
    exact ⟨.cons (Finding.renamed_within (mismatch.report places) fragment) .nil, rfl⟩

/-- If reports are the same up to the name of the argument, so is what is found by filing them. -/
theorem rel_fileReports {reports others : List Report}
    (h : List.Forall₂ (Report.Renamed r) reports others) (reported : List Mismatch) :
    SameButName r (fileReports reported reports).1 (fileReports reported others).1 := by
  induction h generalizing reported with
  | nil => exact .nil
  | @cons report other rest rest' hreport _ ih =>
    obtain ⟨hfound, hreported⟩ := hreport.file reported
    rw [fileReports, fileReports, collect, collect]
    dsimp only
    rw [hreported]
    exact List.rel_append hfound (ih _)

end Reports

/-! ## Operations and fragments -/

namespace Context

/-- Operations agree on the same variables. -/
theorem unify_eq_of_renamed {r : Renaming} {context other : Context}
    (hschema : other.schema = context.schema) {operations others : List Operation}
    (h : List.Forall₂ (Operation.Renamed r) operations others) :
    other.unify others = context.unify operations := by
  have hdeclared : List.Forall₂ (· = ·) (operations.map (Operation.declarations context.schema))
      (others.map (Operation.declarations context.schema)) :=
    List.rel_map (fun _ _ hoperation => (hoperation.declarations_eq context.schema).symm) h
  rw [unify, unify, hschema, eq_of_rel_eq hdeclared]

variable {r : Renaming} {context other : Context}

/-- A use in a fragment that is looked at on its own is reported as before, up to the name of the
argument. -/
theorem rel_reportInFragment? (hschema : other.schema = context.schema)
    {governed governed' : GovernedUsage} (h : governed.Renamed r governed') :
    Option.Rel (Report.Renamed r) (context.reportInFragment? governed)
      (other.reportInFragment? governed') := by
  rw [reportInFragment?, reportInFragment?, hschema]
  cases h with
  | own fragment husage hargument hdeclaration =>
    have hown (usage : Usage) (declaration : Declaration) :
        (GovernedUsage.origin? ⟨usage, some (declaration, .ownDefinition)⟩ ==
          some .ownDefinition) = true := rfl
    rcases exists_of_rel_option (husage.rel_mismatch? hdeclaration context.schema .ownDefinition)
      with ⟨hbefore, hafter⟩ | ⟨found, found', hbefore, hafter, hfound, hfound', hmismatch⟩
    · rw [hbefore, hafter]
      exact .none
    · rw [hbefore, hafter, Option.map_some, Option.map_some]
      dsimp only
      rw [if_pos (hown _ _), if_pos (hown _ _), hfound, hfound', hmismatch, husage.pos_eq,
        hdeclaration.pos_eq]
      exact .some (.renamed fragment found.2 _)
  -- a use that no argument of the renamed fragment governs has not changed
  | @same usage _ governor husage =>
    rw [husage.mismatch?_eq]
    dsimp only [GovernedUsage.origin?]
    rw [husage.pos_eq]
    cases GovernedUsage.mismatch? context.schema ⟨usage, governor⟩ with
    | none => exact .none
    | some found => exact .some (.same _)

/-- A use of an operation is reported as before. -/
theorem rel_reportInOperation? (hschema : other.schema = context.schema)
    {operation operation' : Operation} (hoperation : operation.Renamed r operation')
    {governed governed' : GovernedUsage} (h : governed.Renamed r governed') :
    Option.Rel (Report.Renamed r) (context.reportInOperation? operation governed)
      (other.reportInOperation? operation' governed') := by
  have hpos : operation'.pos = operation.pos := by
    cases hoperation with
    | mk => rfl
  rw [reportInOperation?, reportInOperation?, hschema, hpos, h.isOfArgument_eq]
  -- uses of fragment arguments are not reported here, and only these are renamed
  split
  next => exact .none
  next hargument =>
    cases h with
    | own _ _ hisArgument => exact absurd hisArgument hargument
    | @same usage _ governor husage =>
      rw [husage.mismatch?_eq]
      dsimp only
      rw [husage.pos_eq, husage.fragment_eq]
      cases GovernedUsage.mismatch? context.schema ⟨usage, governor⟩ with
      | none => exact .none
      | some found => exact .some (.same _)

variable (h : context.Corresponds r.correspondence other) (hschema : context.schema.LeavesNames)

include h hschema

/-- The same uses of an operation have no declaration. -/
theorem undeclaredInOperation_eq_of_renamed {operation operation' : Operation}
    (hoperation : operation.Renamed r operation') :
    other.undeclaredInOperation operation' = context.undeclaredInOperation operation := by
  -- what the renamed argument governs is not reported, and the rest is as before
  have huses : List.Forall₂ (Usage.Renamed id Set.univ)
      (undeclaredUses [] (context.operationUsages operation))
      (undeclaredUses [] (other.operationUsages operation')) := by
    refine rel_undeclaredUses (fun hgoverned => ?_)
      (fun husage => ⟨husage.name_eq, husage.fragment_eq⟩)
      (rel_operationUsages_of_renamed h hschema hoperation) []
    cases hgoverned with
    | own => exact ⟨rfl, fun hnone => by cases hnone⟩
    | same governor husage => exact ⟨rfl, fun _ => husage⟩
  have hnode : operation'.name = operation.name ∧ operation'.pos = operation.pos := by
    cases hoperation with
    | mk => exact ⟨rfl, rfl⟩
  refine (eq_of_rel_eq (List.rel_map (fun usage usage' husage => ?_) huses)).symm
  rw [husage.name_eq, husage.pos_eq, husage.fragment_eq, hnode.1, hnode.2, id]

/-- The same uses in a fragment have no declaration. -/
theorem undeclaredInFragment_eq_of_renamed {fragment fragment' : Fragment}
    (hfragment : fragment.Renamed r fragment') {operations others : List Operation}
    (hoperations : List.Forall₂ (Operation.Renamed r) operations others) :
    other.undeclaredInFragment others fragment' =
      context.undeclaredInFragment operations fragment := by
  have hname : fragment'.name.text = fragment.name.text :=
    r.correspondence.fragment_name hfragment
  have hempty : others.isEmpty = operations.isEmpty := by
    cases hoperations with
    | nil | cons => rfl
  rw [undeclaredInFragment, undeclaredInFragment, unify_eq_of_renamed h.schema_eq hoperations,
    hempty, hname]
  refine (eq_of_rel_eq (List.rel_filterMap (fun governed governed' hgoverned => ?_)
    (rel_fragmentUsages_of_renamed h hschema hfragment _))).symm
  -- the uses that have new names are governed by the argument, and nothing is found about them
  cases hgoverned with
  | own => exact .none
  | same governor husage =>
    dsimp only
    rw [husage.name_eq, husage.pos_eq, id]
    split
    · exact .none
    · split
      · exact .some rfl
      · split
        · exact .some rfl
        · exact .none

/-- The rule for names finds the same. -/
theorem findings_knownVariableNames_eq_of_renamed :
    (knownVariableNames other).findings (other.document.events other.schema) =
      (knownVariableNames context).findings (context.document.events context.schema) := by
  rw [findings_knownVariableNames_eq_flatMap, findings_knownVariableNames_eq_flatMap]
  refine (eq_of_rel_eq (List.rel_flatMap h.definitions fun definition definition' hdefinition =>
    ?_)).symm
  rw [List.forall₂_eq_eq_eq]
  cases hdefinition with
  | operation hoperation =>
    exact (undeclaredInOperation_eq_of_renamed h hschema hoperation).symm
  | @fragment fragment fragment' hfragment =>
    rw [undeclared, undeclared, r.correspondence.fragment_name hfragment]
    exact (undeclaredInFragment_eq_of_renamed h hschema hfragment (h.operationsReaching _)).symm
  | typeSystem htypeSystem =>
    cases definition with
    | operation | fragment => cases htypeSystem
    | schema | schemaExtension | type | typeExtension | directive => rfl

/-- The same is reported about a definition, up to the name of the argument. -/
theorem rel_reports {definition definition' : Definition}
    (hdefinition : definition.Corresponds r.correspondence definition') :
    List.Forall₂ (Report.Renamed r) (context.reports definition) (other.reports definition') := by
  cases hdefinition with
  | operation hoperation =>
    exact List.rel_filterMap
      (fun _ _ hgoverned => rel_reportInOperation? h.schema_eq hoperation hgoverned)
      (rel_operationUsages_of_renamed h hschema hoperation)
  | @fragment fragment fragment' hfragment =>
    -- the variables of operations keep their names, and with them what operations agree on
    have hunified : other.unifiedVariables fragment'.name.text =
        context.unifiedVariables fragment.name.text := by
      rw [unifiedVariables, unifiedVariables, r.correspondence.fragment_name hfragment]
      exact unify_eq_of_renamed h.schema_eq (h.operationsReaching _)
    rw [reports, reports, hunified]
    exact List.rel_filterMap (fun _ _ hgoverned => rel_reportInFragment? h.schema_eq hgoverned)
      (rel_fragmentUsages_of_renamed h hschema hfragment _)
  | typeSystem htypeSystem =>
    cases definition with
    | operation | fragment => cases htypeSystem
    | schema | schemaExtension | type | typeExtension | directive => exact .nil

/-- The rule for positions finds the same, up to the name of the argument. -/
theorem rel_findings_variablesInAllowedPosition :
    SameButName r
      ((variablesInAllowedPosition context).findings (context.document.events context.schema))
      ((variablesInAllowedPosition other).findings (other.document.events other.schema)) := by
  rw [findings_variablesInAllowedPosition, findings_variablesInAllowedPosition]
  exact rel_fileReports
    (List.rel_flatMap h.definitions fun _ _ hdefinition => rel_reports h hschema hdefinition) []

end Context

end RelayCheck
