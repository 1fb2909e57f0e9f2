import RelayCheck.FragmentArguments.Positions
import RelayCheck.Proofs.Fragments.Separation
import RelayCheck.Proofs.Validation.Walk

/-!
# Uses in a part of a document

What is expected at the position of a variable depends on the document only where the variable is
given to a fragment. So if the spreads in a part of a document lead to the same fragments in the
whole, the uses in the part are the same, and what governs them is the same.

The main results are `IsPartOf.operationUsages_eq`, `IsPartOf.fragmentUsages_eq` and
`IsPartOf.unifiedVariables_eq`.
-/

namespace RelayCheck

/-- The place is inside of no directive on a spread, unless the spread is of an admitted name. -/
def Scope.OnAdmitted (admitted : String → Prop) (scope : Scope) : Prop :=
  ∀ use spread, scope.use = some use → use.carrier = .spread spread → admitted spread.name.text

/-- Below a place, only a directive on a spread leads to directives on spreads. -/
theorem Scope.Inherited.onAdmitted (schema : Schema) (admitted : String → Prop) :
    Scope.Inherited schema admitted (Scope.OnAdmitted admitted) where
  start _ := by rintro _ _ ⟨⟩
  enterArgument _ hscope := hscope
  enterList hscope := hscope
  judge _ hscope := hscope
  enterObjectField _ hscope := hscope
  enterDirective use hcarrier _ := by
    rintro _ spread ⟨⟩ hspread
    exact hcarrier spread hspread
  enterSelections hscope := hscope
  enterField _ hscope := hscope
  enterFragment _ hscope := hscope
  enterOperation _ hscope := hscope
  enterVariableDefinition _ hscope := hscope

namespace Context.IsPartOf

variable {part whole : Context}

/-- A directive gives arguments to the same fragment in a part as in the whole. -/
theorem target?_eq (hpart : part.IsPartOf whole) {use : DirectiveUse}
    (huse : ∀ spread, use.carrier = .spread spread →
      part.document.Spreads spread.name.text) :
    whole.target? use = part.target? use := by
  rw [target?, target?]
  cases hspread : use.spread? with
  | none => rfl
  | some spread =>
    refine hpart.fragment?_eq _ (huse spread ?_)
    rw [DirectiveUse.spread?] at hspread
    split at hspread
    next hcarrier => rw [hcarrier, Option.some_inj.mp hspread]
    next => cases hspread

/-- The same is expected at a position in a part as in the whole. -/
theorem position?_eq (hpart : part.IsPartOf whole) {scope : Scope}
    (hscope : scope.OnAdmitted part.document.Spreads) :
    whole.position? scope = part.position? scope := by
  rw [position?, position?]
  cases huse : scope.use.filter DirectiveUse.givesArguments with
  | none => rfl
  | some use =>
    -- only the fragment that is given arguments is looked up in the document
    have htarget : whole.target? use = part.target? use :=
      hpart.target?_eq fun spread => hscope use spread (Option.filter_eq_some_iff.mp huse).1
    simp only [htarget, boundPosition, hpart.schema_eq]

/-- An event is the same use in a part as in the whole. -/
theorem usage?_eq (hpart : part.IsPartOf whole) {event : Event}
    (hscope : event.visit.scope.OnAdmitted part.document.Spreads) (fragment : Option String) :
    whole.usage? fragment event = part.usage? fragment event := by
  cases event with
  | leave visit => rfl
  | enter visit =>
    obtain ⟨node, scope⟩ := visit
    cases node with
    | value value =>
      cases value with
      | «variable» name pos => exact congrArg (Option.map _) (hpart.position?_eq hscope)
      | _ => rfl
    | _ => rfl

/-- The uses in a definition of a part are those that it has in the whole. -/
theorem usages_eq (hpart : part.IsPartOf whole) {definition : Definition}
    (hmem : definition ∈ part.document.definitions) (fragment : Option String) :
    whole.usages fragment definition = part.usages fragment definition := by
  rw [usages, usages, hpart.schema_eq]
  obtain ⟨scope, parts, hevents, hparts⟩ :=
    definition.events_eq_around (.onAdmitted part.schema part.document.Spreads)
      fun name hspread => ⟨definition, hmem, hspread⟩
  refine List.filterMap_congr fun event hevent => ?_
  rw [hevents, around, List.mem_cons, List.mem_append, List.mem_singleton] at hevent
  rcases hevent with rfl | hevent | rfl
  · rfl
  · exact hpart.usage?_eq (hparts event hevent).scope fragment
  · rfl

/-- The uses of a fragment of a part are those that it has in the whole. -/
theorem fragmentUsages_eq (hpart : part.IsPartOf whole) {fragment : Fragment}
    (hmem : fragment ∈ part.document.fragments) (enclosing : Declarations) :
    whole.fragmentUsages fragment enclosing = part.fragmentUsages fragment enclosing := by
  rw [fragmentUsages, fragmentUsages, hpart.usages_eq (Document.mem_fragments_iff.mp hmem),
    hpart.schema_eq]

/-- The uses of an operation of a part and the fragments it reaches are those of the whole. -/
theorem operationUsages_eq (hpart : part.IsPartOf whole) {operation : Operation}
    (hmem : operation ∈ part.document.operations) :
    whole.operationUsages operation = part.operationUsages operation := by
  rw [operationUsages, operationUsages, hpart.usages_eq (Document.mem_operations_iff.mp hmem),
    hpart.schema_eq, hpart.reached_eq operation hmem]
  congr 1
  exact List.flatMap_congr fun fragment hfragment =>
    hpart.fragmentUsages_eq (mem_fragments_of_mem_reached hfragment) _

/-- The variables that the operations agree on which use a fragment of a part are those on which
they agree in the whole. -/
theorem unifiedVariables_eq (hpart : part.IsPartOf whole) {fragment : Fragment}
    (hmem : fragment ∈ part.document.fragments) :
    whole.unifiedVariables fragment.name.text = part.unifiedVariables fragment.name.text := by
  rw [unifiedVariables, unifiedVariables, hpart.operationsReaching_eq fragment hmem]
  simp only [unify, hpart.schema_eq]

end Context.IsPartOf

end RelayCheck
