import RelayCheck.FragmentArguments.Bindings
import RelayCheck.Proofs.Data.NameMap
import RelayCheck.Proofs.FragmentArguments.Positions
import RelayCheck.Proofs.Fragments.Reachability

/-!
# Required fragment arguments

Every spread of a fragment should give the arguments that the fragment requires. The rule for
argument names looks at the directives that give arguments, wherever the walk meets them, and the
walk meets every directive on every spread. So no such directive leaves out what is required. A
spread without such a directive is not looked at, and may leave out everything.

The module introduces:

- `Fragment.Requires`, an argument that every spread of the fragment has to give;
- `Directive.Gives` and `Spread.Binds`, the arguments that a directive and a spread give.

The main result is `forall_binds_iff_of_quiet`: if the rule finds no error, the spreads that give
all that is required are those with a directive that gives arguments, and those of fragments that
require nothing.
-/

namespace RelayCheck

/-! ## Directives on spreads -/

section Walk

variable {schema : Schema} {spread : Spread}

/-- The walk of a node contains the walk of its parts in one piece. -/
theorem infix_around (node : Node) (scope : Scope) (parts : List Event) :
    parts <:+: around node scope parts :=
  ⟨[.enter ⟨node, scope⟩], [.leave ⟨node, scope⟩], rfl⟩

/-- The walk of a node contains the walk of its parts. -/
theorem subset_around (node : Node) (scope : Scope) (parts : List Event) :
    parts ⊆ around node scope parts :=
  (infix_around node scope parts).subset

/-- The walk of several things contains the walk of each of them in one piece. -/
theorem infix_flatMap_of_mem {α : Type} (walk : α → List Event) {item : α} {items : List α}
    (hitem : item ∈ items) : walk item <:+: items.flatMap walk := by
  rw [List.flatMap_def]
  exact List.infix_of_mem_flatten (List.mem_map_of_mem hitem)

/-- The walk of selections contains the walks of the spreads in them, each in one piece. -/
theorem exists_spreadEvents_infix :
    ∀ {selections : List Selection} (scope : Scope), spread ∈ spreadsOf selections →
      ∃ inner, Selection.events schema inner (.spread spread) <:+:
        selectionEvents schema scope selections
  | [], scope, hspread => by cases hspread
  | .spread other :: rest, scope, hspread => by
    rw [selectionEvents]
    rcases mem_spreadsOf_cons_spread.mp hspread with rfl | hrest
    · exact ⟨scope, (List.prefix_append _ _).isInfix⟩
    · obtain ⟨inner, hinner⟩ := exists_spreadEvents_infix scope hrest
      exact ⟨inner, hinner.trans (List.suffix_append _ _).isInfix⟩
  | .field field nested :: rest, scope, hspread => by
    rw [selectionEvents, Selection.events]
    rcases mem_spreadsOf_cons_field.mp hspread with hnested | hrest
    · obtain ⟨inner, hinner⟩ := exists_spreadEvents_infix _ hnested
      refine ⟨inner, hinner.trans (List.IsInfix.trans ?_ (List.prefix_append _ _).isInfix)⟩
      exact (List.suffix_append _ _).isInfix.trans (infix_around _ _ _)
    · obtain ⟨inner, hinner⟩ := exists_spreadEvents_infix scope hrest
      exact ⟨inner, hinner.trans (List.suffix_append _ _).isInfix⟩
  | .inlineFragment fragment nested :: rest, scope, hspread => by
    rw [selectionEvents, Selection.events]
    rcases mem_spreadsOf_cons_inlineFragment.mp hspread with hnested | hrest
    · obtain ⟨inner, hinner⟩ := exists_spreadEvents_infix _ hnested
      refine ⟨inner, hinner.trans (List.IsInfix.trans ?_ (List.prefix_append _ _).isInfix)⟩
      exact (List.suffix_append _ _).isInfix.trans (infix_around _ _ _)
    · obtain ⟨inner, hinner⟩ := exists_spreadEvents_infix scope hrest
      exact ⟨inner, hinner.trans (List.suffix_append _ _).isInfix⟩

/-- The walk of a definition contains the walks of the spreads in it, each in one piece. -/
theorem Definition.exists_spreadEvents_infix (schema : Schema) {definition : Definition}
    (hspread : spread ∈ spreadsOf definition.selections) :
    ∃ scope, Selection.events schema scope (.spread spread) <:+: definition.events schema := by
  cases definition with
  | operation operation =>
    obtain ⟨scope, hscope⟩ := RelayCheck.exists_spreadEvents_infix _ hspread
    refine ⟨scope, hscope.trans (List.IsInfix.trans ?_ (infix_around _ _ _))⟩
    exact (List.suffix_append _ _).isInfix
  | fragment fragment =>
    obtain ⟨scope, hscope⟩ := RelayCheck.exists_spreadEvents_infix _ hspread
    refine ⟨scope, hscope.trans (List.IsInfix.trans ?_ (infix_around _ _ _))⟩
    exact (List.suffix_append _ _).isInfix
  | schema | schemaExtension | type | typeExtension | directive => cases hspread

/-- Each directive of a carrier is used there, at some index. -/
theorem Carrier.exists_mem_uses (carrier : Carrier) {directives : List Directive}
    {directive : Directive} (h : directive ∈ directives) :
    ∃ index, ⟨carrier, index, directive⟩ ∈ carrier.uses directives := by
  obtain ⟨index, hindex⟩ := List.mem_iff_getElem?.mp h
  exact ⟨index, List.mem_map.mpr
    ⟨(directive, index), List.mem_zipIdx_iff_getElem?.mpr hindex, rfl⟩⟩

/-- The walk of a document contains the walk of every directive on every spread in one piece. -/
theorem Document.exists_directiveEvents_infix (schema : Schema) {document : Document}
    {definition : Definition} (hdefinition : definition ∈ document.definitions)
    (hspread : spread ∈ spreadsOf definition.selections) {use : DirectiveUse}
    (huse : use ∈ (Carrier.spread spread).uses spread.directives) :
    ∃ scope, use.events schema scope <:+: document.events schema := by
  obtain ⟨scope, hscope⟩ := Definition.exists_spreadEvents_infix schema hspread
  have hinner : use.events schema scope <:+: Selection.events schema scope (.spread spread) := by
    rw [Selection.events]
    exact (infix_flatMap_of_mem _ huse).trans (infix_around _ _ _)
  have houter : definition.events schema <:+: document.events schema :=
    (infix_flatMap_of_mem _ hdefinition).trans (infix_around _ _ _)
  exact ⟨scope, hinner.trans (hscope.trans houter)⟩

/-- The walk of a document enters every directive on every spread. -/
theorem Document.exists_enter_directive (schema : Schema) {document : Document}
    {definition : Definition} (hdefinition : definition ∈ document.definitions)
    (hspread : spread ∈ spreadsOf definition.selections) {use : DirectiveUse}
    (huse : use ∈ (Carrier.spread spread).uses spread.directives) :
    ∃ scope, .enter ⟨.directive use, scope⟩ ∈ document.events schema := by
  obtain ⟨scope, hscope⟩ := exists_directiveEvents_infix schema hdefinition hspread huse
  exact ⟨scope.enterDirective schema use, hscope.subset List.mem_cons_self⟩

end Walk

/-! ## What is required and what is given -/

/-- Every spread of the fragment has to give the argument. -/
def Fragment.Requires (fragment : Fragment) (schema : Schema) (name : String) : Prop :=
  ∃ declaration, (fragment.declarations schema).get? name = some declaration ∧
    declaration.isRequired = true

/-- The directive gives the argument of the name. -/
def Directive.Gives (directive : Directive) (name : String) : Prop :=
  ∃ argument ∈ directive.arguments, argument.name.text = name

/-- The spread gives the argument of the name to its fragment, with one of its directives. -/
def Spread.Binds (spread : Spread) (name : String) : Prop :=
  ∃ directive ∈ spread.directives, directive.name.text = argumentsName ∧ directive.Gives name

instance (directive : Directive) (name : String) : Decidable (directive.Gives name) :=
  inferInstanceAs (Decidable (∃ argument ∈ directive.arguments, argument.name.text = name))

instance (spread : Spread) (name : String) : Decidable (spread.Binds name) :=
  inferInstanceAs (Decidable (∃ directive ∈ spread.directives,
    directive.name.text = argumentsName ∧ directive.Gives name))

/-- A directive in which nothing is found wrong gives all that the fragment requires. -/
theorem gives_of_quiet {suggest : Suggest} {schema : Schema} {fragment : Fragment}
    {spread : Spread} {directive : Directive}
    (hquiet : ∀ finding ∈ bindingFindings suggest schema fragment spread directive,
      finding.diagnostic? = none)
    {name : String} (hrequires : fragment.Requires schema name) : directive.Gives name := by
  obtain ⟨declaration, hget, hrequired⟩ := hrequires
  -- an argument that is not given is missing, whatever else is wrong with the directive
  by_contra hgives
  rw [bindingFindings] at hquiet
  cases hdeclaring : fragment.declaringArguments? with
  | none =>
    rw [hdeclaring] at hquiet
    cases hquiet _ List.mem_cons_self
  | some declaring =>
    rw [hdeclaring] at hquiet
    have hmissing : .relay (.missingArgument name) [directive.pos] ∈
        missingArguments (fragment.declarations schema) directive := by
      refine List.mem_map.mpr ⟨(name, declaration), List.mem_filter.mpr ⟨?_, ?_⟩, rfl⟩
      · exact NameMap.mem_entries_of_get? hget
      · simpa [hrequired, Directive.Gives] using hgives
    cases hquiet _ (List.mem_append_left _ (List.mem_append_right _ hmissing))

section Rule

variable {suggest : Suggest} {check : ArgumentCheck} {context : Context} {spread : Spread}
  {fragment : Fragment}

/-- At a directive that gives arguments to a fragment of the document, the rule for argument names
finds what is wrong with these. -/
theorem fragmentArgumentFindings_eq_bindingFindings {use : DirectiveUse} (scope : Scope)
    (hcarrier : use.carrier = .spread spread) (hname : use.directive.name.text = argumentsName)
    (hfragment : context.fragment? spread.name.text = some fragment) :
    fragmentArgumentFindings suggest context ⟨.directive use, scope⟩ =
      bindingFindings suggest context.schema fragment spread use.directive := by
  have hspread : use.spread? = some spread := by rw [DirectiveUse.spread?, hcarrier]
  have htarget : context.target? use = some fragment := by
    rw [Context.target?, hspread, Option.bind_some, hfragment]
  have hother : (argumentsName == argumentDefinitionsName) = false := by decide
  simp [fragmentArgumentFindings, DirectiveUse.givesArguments, hname, hother, hspread, htarget]

/-- If the rule for argument names finds no error, every directive that gives arguments to a
fragment of the document gives all that the fragment requires. -/
theorem gives_of_quiet_rule
    (hquiet : ((knownFragmentArguments suggest check context).findings
      (context.document.events context.schema)).filterMap Finding.diagnostic? = [])
    {definition : Definition} (hdefinition : definition ∈ context.document.definitions)
    (hspread : spread ∈ spreadsOf definition.selections)
    (hfragment : context.fragment? spread.name.text = some fragment)
    {directive : Directive} (hdirective : directive ∈ spread.directives)
    (hname : directive.name.text = argumentsName) {name : String}
    (hrequires : fragment.Requires context.schema name) : directive.Gives name := by
  obtain ⟨index, huse⟩ := (Carrier.spread spread).exists_mem_uses hdirective
  obtain ⟨scope, hvisit⟩ :=
    Document.exists_enter_directive context.schema hdefinition hspread huse
  rw [List.filterMap_eq_nil_iff] at hquiet
  have hbindings : ∀ finding ∈ bindingFindings suggest context.schema fragment spread directive,
      finding.diagnostic? = none := by
    intro finding hfinding
    refine hquiet finding ?_
    rw [knownFragmentArguments, Rule.onEnter, Rule.findings_ofEvent]
    refine List.mem_flatMap.mpr ⟨_, hvisit, List.mem_append_left _ ?_⟩
    rwa [fragmentArgumentFindings_eq_bindingFindings scope rfl hname hfragment]
  exact gives_of_quiet hbindings hrequires

/-- Suppose that the rule for argument names finds no error. Then, on every spread of a fragment of
the document, each directive that gives arguments gives all that the fragment requires, and the
spread gives all that is required exactly if it has such a directive, or nothing is required. -/
theorem forall_binds_iff_of_quiet
    (hquiet : ((knownFragmentArguments suggest check context).findings
      (context.document.events context.schema)).filterMap Finding.diagnostic? = [])
    {definition : Definition} (hdefinition : definition ∈ context.document.definitions)
    (hspread : spread ∈ spreadsOf definition.selections)
    (hfragment : context.fragment? spread.name.text = some fragment) :
    (∀ directive ∈ spread.directives, directive.name.text = argumentsName →
      ∀ name, fragment.Requires context.schema name → directive.Gives name) ∧
    ((∀ name, fragment.Requires context.schema name → spread.Binds name) ↔
      (∃ directive ∈ spread.directives, directive.name.text = argumentsName) ∨
        ∀ name, ¬fragment.Requires context.schema name) := by
  have hgives : ∀ directive ∈ spread.directives, directive.name.text = argumentsName →
      ∀ name, fragment.Requires context.schema name → directive.Gives name :=
    fun _ hdirective hname _ =>
      gives_of_quiet_rule hquiet hdefinition hspread hfragment hdirective hname
  refine ⟨hgives, fun hbinds => ?_, ?_⟩
  · refine or_iff_not_imp_right.mpr fun hsome => ?_
    obtain ⟨name, hrequires⟩ := not_forall_not.mp hsome
    obtain ⟨directive, hdirective, hname, -⟩ := hbinds name hrequires
    exact ⟨directive, hdirective, hname⟩
  · rintro (⟨directive, hdirective, hname⟩ | hnothing) name hrequires
    · exact ⟨directive, hdirective, hname, hgives directive hdirective hname name hrequires⟩
    · exact absurd hrequires (hnothing name)

/-- The query `{ ...P }`, where the spread carries the given directives. -/
def sizeQuery (directives : List Directive) : Operation where
  kind := .query
  name := none
  variableDefinitions := []
  directives := []
  selections := [.spread ⟨⟨"P", ⟨1, 6⟩⟩, directives, ⟨1, 3⟩⟩]
  pos := ⟨1, 1⟩

/-- The spread `...P @arguments(size: 32)` gives the size that the fragment requires. -/
theorem forall_binds_iff_of_quiet_size :
    let directive : Directive :=
      ⟨⟨argumentsName, ⟨1, 9⟩⟩, [⟨⟨"size", ⟨1, 19⟩⟩, .int "32" ⟨1, 25⟩⟩], ⟨1, 8⟩⟩
    let context := Context.ofDocument pictureSchema
      ⟨[.operation (sizeQuery [directive]), .fragment sizedFragment]⟩
    ((knownFragmentArguments suggestions LanguageRules.unknownArguments context).findings
        (context.document.events context.schema)).filterMap Finding.diagnostic? = [] ∧
      sizedFragment.Requires context.schema "size" ∧ directive.Gives "size" := by
  intro directive context
  have hquiet : ((knownFragmentArguments suggestions LanguageRules.unknownArguments
      context).findings (context.document.events context.schema)).filterMap
        Finding.diagnostic? = [] := List.isEmpty_iff.mp (by decide +kernel)
  have hfragment : context.fragment? "P" = some sizedFragment := by rfl
  have hrequires : sizedFragment.Requires context.schema "size" :=
    (Option.any_eq_true Declaration.isRequired _).mp (by decide +kernel)
  have hspread : ⟨⟨"P", ⟨1, 6⟩⟩, [directive], ⟨1, 3⟩⟩ ∈
    spreadsOf (Definition.operation (sizeQuery [directive])).selections := List.mem_singleton_self _
  have hdefinition : .operation (sizeQuery [directive]) ∈ context.document.definitions :=
    List.mem_cons_self
  refine ⟨hquiet, hrequires, ?_⟩
  exact (forall_binds_iff_of_quiet hquiet hdefinition hspread hfragment).1 directive
    (List.mem_singleton_self _) rfl _ hrequires

/-- The spread `...P` does not give the size that the fragment requires, and the rule for argument
names finds nothing. -/
theorem not_binds_of_quiet_size :
    let spread : Spread := ⟨⟨"P", ⟨1, 6⟩⟩, [], ⟨1, 3⟩⟩
    let context := Context.ofDocument pictureSchema
      ⟨[.operation (sizeQuery []), .fragment sizedFragment]⟩
    (knownFragmentArguments suggestions LanguageRules.unknownArguments context).findings
        (context.document.events context.schema) = [] ∧
      spread ∈ spreadsOf (sizeQuery []).selections ∧
      context.fragment? spread.name.text = some sizedFragment ∧
      sizedFragment.Requires context.schema "size" ∧ ¬spread.Binds "size" := by
  intro spread context
  have hquiet : (knownFragmentArguments suggestions LanguageRules.unknownArguments
      context).findings (context.document.events context.schema) = [] :=
    List.isEmpty_iff.mp (by decide +kernel)
  have hrequires : sizedFragment.Requires context.schema "size" :=
    (Option.any_eq_true Declaration.isRequired _).mp (by decide +kernel)
  exact ⟨hquiet, List.mem_singleton_self _, rfl, hrequires, by decide⟩

end Rule

end RelayCheck
