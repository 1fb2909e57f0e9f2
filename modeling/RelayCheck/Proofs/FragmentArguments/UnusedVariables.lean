import RelayCheck.Proofs.FragmentArguments.DeclaredTypes
import RelayCheck.Proofs.FragmentArguments.PlainUsages
import RelayCheck.Proofs.FragmentArguments.RenamingUsages
import RelayCheck.Proofs.FragmentArguments.SharedVariables
import RelayCheck.Proofs.FragmentArguments.Usage
import RelayCheck.Proofs.Schema.RelayDirectives

/-!
# Unused variables

The rule for unused variables goes by names: a variable of an operation counts as used if its name
occurs in the operation or in a fragment that it reaches. What governs an occurrence is another
matter. Inside a fragment that declares an argument of this name, an occurrence is one of the
argument, so that a variable may govern nothing, and still not be reported.

The module introduces:

- `Definition.Uses`, the names that a definition uses;
- `Role.spread?`, the spread on which a variable is given.

The main result is `Schema.governs_iff_uses_of_check`.
-/

namespace RelayCheck

/-- The definition uses a variable of the name, outside of declarations. -/
def Definition.Uses (definition : Definition) (name : String) : Prop :=
  ∃ mention ∈ definition.usedVariables, mention.1.text = name

/-- The spread on which a variable of the role is given, if it is. -/
def Role.spread? : Role → Option Spread
  | .whole spread _ | .part spread => some spread
  | .plain | .misplaced => none

/-! ## Variables that are given -/

section Roles

variable {schema : Schema} {mention : Name × Position} {role : Role}

/-- Variables that are listed with one role have this role. -/
theorem role_eq_of_mem_map {mentions : List (Name × Position)} {other : Role}
    (h : (mention, role) ∈ mentions.map (·, other)) : role = other := by
  obtain ⟨_, -, hpair⟩ := List.mem_map.mp h
  exact (Prod.mk.inj hpair).2.symm

/-- A variable in a value has one of the two roles there are. -/
theorem Value.role_of_mem_roles {whole part : Role} {value : Value}
    (h : (mention, role) ∈ value.roles whole part) : role = whole ∨ role = part := by
  unfold Value.roles at h
  split at h
  · injection List.mem_singleton.mp h with _ hrole
    exact .inl hrole
  · exact .inr (role_eq_of_mem_map h)

/-- A variable in a directive is given on the spread that the directive is applied to, if on any. -/
theorem Directive.spread_of_mem_roles {carrier : Option Spread} {directive : Directive}
    {spread : Spread} (h : (mention, role) ∈ directive.roles carrier)
    (hrole : role.spread? = some spread) : carrier = some spread := by
  unfold Directive.roles at h
  split at h
  · cases carrier with
    | none =>
      rw [role_eq_of_mem_map h] at hrole
      cases hrole
    | some other =>
      obtain ⟨argument, -, hargument⟩ := List.mem_flatMap.mp h
      rcases Value.role_of_mem_roles hargument with rfl | rfl <;> exact hrole
  · rw [role_eq_of_mem_map h] at hrole
    cases hrole

/-- A variable in directives is given on the spread that they are applied to, if on any. -/
theorem spread_of_mem_directiveRoles {carrier : Option Spread} {directives : List Directive}
    {spread : Spread} (h : (mention, role) ∈ directives.flatMap (Directive.roles carrier))
    (hrole : role.spread? = some spread) : carrier = some spread := by
  obtain ⟨directive, -, hmem⟩ := List.mem_flatMap.mp h
  exact Directive.spread_of_mem_roles hmem hrole

/-- A variable in selections is given on one of their spreads, if on any. -/
theorem mem_spreadsOf_of_mem_selectionRoles {spread : Spread}
    (hrole : role.spread? = some spread) :
    ∀ {selections : List Selection}, (mention, role) ∈ selectionRoles selections →
      spread ∈ spreadsOf selections
  | [], h => by
    rw [selectionRoles] at h
    cases h
  | .field field nested :: rest, h => by
    rw [selectionRoles, Selection.roles, List.mem_append, List.mem_append, List.mem_append] at h
    rw [mem_spreadsOf_cons_field]
    rcases h with ((h | h) | h) | h
    · rw [role_eq_of_mem_map h] at hrole
      cases hrole
    · cases spread_of_mem_directiveRoles h hrole
    · exact .inl (mem_spreadsOf_of_mem_selectionRoles hrole h)
    · exact .inr (mem_spreadsOf_of_mem_selectionRoles hrole h)
  | .spread other :: rest, h => by
    rw [selectionRoles, Selection.roles, List.mem_append] at h
    rw [mem_spreadsOf_cons_spread]
    rcases h with h | h
    · exact .inl (Option.some_inj.mp (spread_of_mem_directiveRoles h hrole)).symm
    · exact .inr (mem_spreadsOf_of_mem_selectionRoles hrole h)
  | .inlineFragment fragment nested :: rest, h => by
    rw [selectionRoles, Selection.roles, List.mem_append, List.mem_append] at h
    rw [mem_spreadsOf_cons_inlineFragment]
    rcases h with (h | h) | h
    · cases spread_of_mem_directiveRoles h hrole
    · exact .inl (mem_spreadsOf_of_mem_selectionRoles hrole h)
    · exact .inr (mem_spreadsOf_of_mem_selectionRoles hrole h)

/-- A variable in a definition is given on one of its spreads, if on any. -/
theorem Definition.mem_spreadsOf_of_mem_roles {definition : Definition} {spread : Spread}
    (h : (mention, role) ∈ definition.roles) (hrole : role.spread? = some spread) :
    spread ∈ spreadsOf definition.selections := by
  cases definition with
  | operation operation | fragment fragment =>
    rcases List.mem_append.mp h with h | h
    · cases spread_of_mem_directiveRoles h hrole
    · exact mem_spreadsOf_of_mem_selectionRoles hrole h
  | schema | schemaExtension | type | typeExtension | directive => cases h

/-! ## Variables that are given in vain -/

/-- A directive that gives arguments to no fragment is entered on the walk. -/
def EntersMisplaced (events : List Event) : Prop :=
  ∃ use scope, .enter ⟨.directive use, scope⟩ ∈ events ∧
    use.directive.name.text = argumentsName ∧ use.carrier.location ≠ .fragmentSpread

namespace EntersMisplaced

variable {events more : List Event}

/-- What is entered on the first part of a walk is entered on the walk. -/
theorem left (h : EntersMisplaced events) : EntersMisplaced (events ++ more) := by
  obtain ⟨use, scope, hmem, huse⟩ := h
  exact ⟨use, scope, List.mem_append_left _ hmem, huse⟩

/-- What is entered on the second part of a walk is entered on the walk. -/
theorem right (h : EntersMisplaced events) : EntersMisplaced (more ++ events) := by
  obtain ⟨use, scope, hmem, huse⟩ := h
  exact ⟨use, scope, List.mem_append_right _ hmem, huse⟩

/-- What is entered inside of a node is entered on its walk. -/
theorem around (h : EntersMisplaced events) (node : Node) (scope : Scope) :
    EntersMisplaced (around node scope events) := by
  obtain ⟨use, inner, hmem, huse⟩ := h
  exact ⟨use, inner, subset_around _ _ _ hmem, huse⟩

end EntersMisplaced

/-- A variable that is given in vain is in a directive that gives arguments, on anything but a
spread. -/
theorem exists_directive_of_misplaced {carrier : Option Spread} {directives : List Directive}
    (h : (mention, .misplaced) ∈ directives.flatMap (Directive.roles carrier)) :
    carrier = none ∧ ∃ directive ∈ directives, directive.name.text = argumentsName := by
  obtain ⟨directive, hdirective, h⟩ := List.mem_flatMap.mp h
  unfold Directive.roles at h
  split at h
  next hname =>
    cases carrier with
    | none => exact ⟨rfl, directive, hdirective, hname⟩
    | some spread =>
      obtain ⟨argument, -, hargument⟩ := List.mem_flatMap.mp h
      rcases Value.role_of_mem_roles hargument with hrole | hrole <;> cases hrole
  next =>
    cases role_eq_of_mem_map h

/-- The walk of directives enters each of them. -/
theorem exists_enter_directiveEvents {scope : Scope} {carrier : Carrier}
    {directives : List Directive} {directive : Directive} (h : directive ∈ directives) :
    ∃ index inner, .enter ⟨.directive ⟨carrier, index, directive⟩, inner⟩ ∈
      directiveEvents schema scope carrier directives := by
  obtain ⟨index, huse⟩ := carrier.exists_mem_uses h
  exact ⟨index, _, List.mem_flatMap.mpr ⟨_, huse, List.mem_cons_self⟩⟩

/-- The walk of directives enters a misplaced one if a variable is given in vain. -/
theorem entersMisplaced_directives (schema : Schema) (scope : Scope) {carrier : Carrier}
    (hcarrier : carrier.location ≠ .fragmentSpread) {directives : List Directive}
    (h : (mention, .misplaced) ∈ directives.flatMap (Directive.roles none)) :
    EntersMisplaced (directiveEvents schema scope carrier directives) := by
  obtain ⟨-, directive, hdirective, hname⟩ := exists_directive_of_misplaced h
  obtain ⟨index, inner, henter⟩ := exists_enter_directiveEvents hdirective
  exact ⟨_, inner, henter, hname, hcarrier⟩

/-- The walk of selections enters a misplaced directive if a variable is given in vain. -/
theorem entersMisplaced_selections (schema : Schema) :
    ∀ {selections : List Selection} (scope : Scope),
      (mention, .misplaced) ∈ selectionRoles selections →
        EntersMisplaced (selectionEvents schema scope selections)
  -- only directives misplace variables, and not those on spreads
  | [], scope, h => by
    rw [selectionRoles] at h
    cases h
  | .field field nested :: rest, scope, h => by
    have hcarrier : (Carrier.field field).location ≠ .fragmentSpread := by simp [Carrier.location]
    rw [selectionRoles, Selection.roles, List.mem_append, List.mem_append, List.mem_append] at h
    rw [selectionEvents, Selection.events]
    rcases h with ((h | h) | h) | h
    · cases role_eq_of_mem_map h
    · exact ((entersMisplaced_directives schema _ hcarrier h).right.left.around _ _).left
    · exact ((entersMisplaced_selections schema _ h).right.around _ _).left
    · exact (entersMisplaced_selections schema scope h).right
  | .spread other :: rest, scope, h => by
    rw [selectionRoles, Selection.roles, List.mem_append] at h
    rw [selectionEvents]
    rcases h with h | h
    · cases (exists_directive_of_misplaced h).1
    · exact (entersMisplaced_selections schema scope h).right
  | .inlineFragment fragment nested :: rest, scope, h => by
    have hcarrier : (Carrier.inlineFragment fragment).location ≠ .fragmentSpread := by
      simp [Carrier.location]
    rw [selectionRoles, Selection.roles, List.mem_append, List.mem_append] at h
    rw [selectionEvents, Selection.events]
    rcases h with (h | h) | h
    · exact ((entersMisplaced_directives schema _ hcarrier h).right.left.around _ _).left
    · exact ((entersMisplaced_selections schema _ h).right.around _ _).left
    · exact (entersMisplaced_selections schema scope h).right

/-- The walk of a definition enters a misplaced directive if a variable is given in vain. -/
theorem Definition.entersMisplaced (schema : Schema) {definition : Definition}
    (h : (mention, .misplaced) ∈ definition.roles) :
    EntersMisplaced (definition.events schema) := by
  cases definition with
  | operation operation =>
    have hcarrier : (Carrier.operation operation).location ≠ .fragmentSpread := by
      rw [Carrier.location]
      cases operation.kind <;> decide
    rcases List.mem_append.mp h with h | h
    · exact (entersMisplaced_directives schema _ hcarrier h).right.left.around _ _
    · exact (entersMisplaced_selections schema _ h).right.around _ _
  | fragment fragment =>
    have hcarrier : (Carrier.fragment fragment).location ≠ .fragmentSpread := by
      simp [Carrier.location]
    rcases List.mem_append.mp h with h | h
    · exact (entersMisplaced_directives schema _ hcarrier h).right.left.around _ _
    · exact (entersMisplaced_selections schema _ h).right.around _ _
  | schema | schemaExtension | type | typeExtension | directive => cases h

end Roles

/-! ## Documents without errors -/

section Quiet

variable {context : Context}

/-- In a document without errors, there are operations and fragments only. -/
theorem executable_of_quiet
    (hquiet : LanguageRules.executableDefinitions.IsQuiet
      (context.document.events context.schema)) :
    ∀ definition ∈ context.document.definitions, definition.isTypeSystem = false := by
  have hvisit : .enter ⟨.document context.document, {}⟩ ∈
      context.document.events context.schema := List.mem_cons_self
  have hdocument := hquiet.onEnter hvisit
  intro definition hmem
  by_contra hsystem
  rw [Bool.not_eq_false] at hsystem
  cases hdocument _ (List.mem_map_of_mem (List.mem_filter.mpr ⟨hmem, hsystem⟩))

/-- In a document without errors, the fragments that are spread are defined. -/
theorem isSome_fragment?_of_quiet
    (hquiet : (LanguageRules.knownFragmentNames context).IsQuiet
      (context.document.events context.schema))
    {definition : Definition} (hdefinition : definition ∈ context.document.definitions)
    {spread : Spread} (hspread : spread ∈ spreadsOf definition.selections) :
    (context.fragment? spread.name.text).isSome = true := by
  obtain ⟨scope, hscope⟩ := definition.exists_spreadEvents_infix context.schema hspread
  have hvisit : .enter ⟨.spread spread, scope⟩ ∈ context.document.events context.schema := by
    refine subset_around _ _ _ (List.mem_flatMap.mpr ⟨definition, hdefinition, hscope.subset ?_⟩)
    rw [Selection.events]
    exact List.mem_cons_self
  have hnothing := hquiet.onEnter hvisit
  by_contra hunknown
  dsimp only at hnothing
  rw [if_neg hunknown] at hnothing
  cases hnothing _ List.mem_cons_self

/-- The directive that gives fragment arguments may be applied to spreads only. -/
theorem knownDirective?_arguments {schema : Schema} {document : Document}
    (hdirectives : document.directives = []) :
    LanguageRules.knownDirective? (.ofDocument schema.withRelayDirectives document) argumentsName =
      some (.ofSchema ⟨argumentsName, [.fragmentSpread], [], false⟩) := by
  have hfound : schema.withRelayDirectives.directive? argumentsName =
      some ⟨argumentsName, [.fragmentSpread], [], false⟩ := by
    rw [Schema.directive?_withRelayDirectives]
    rfl
  have hown : (Context.ofDocument schema.withRelayDirectives document).document.directives = [] :=
    hdirectives
  rw [LanguageRules.knownDirective?, hown]
  exact congrArg (Option.map _) hfound

/-- In a document without errors, no directive gives arguments to anything but a spread. -/
theorem not_entersMisplaced_of_quiet {schema : Schema} {document : Document}
    (hdirectives : document.directives = [])
    (hquiet : (LanguageRules.knownDirectives
      (.ofDocument schema.withRelayDirectives document)).IsQuiet
        (document.events schema.withRelayDirectives)) :
    ¬EntersMisplaced (document.events schema.withRelayDirectives) := by
  rintro ⟨use, scope, hvisit, hname, hlocation⟩
  have hnothing := hquiet.onEnter hvisit
  simp only [hname, knownDirective?_arguments hdirectives] at hnothing
  rw [if_neg (by simpa [LanguageRules.KnownDirective.ofSchema] using hlocation)] at hnothing
  cases hnothing _ List.mem_cons_self

/-! ## Uses by name -/

/-- Every variable that a definition uses counts: none is given in vain, and those that are given
are given to fragments of the document. -/
structure Context.CountsAll (context : Context) (definition : Definition) : Prop where
  executable : definition.isTypeSystem = false
  misplaced : ∀ mention, (mention, .misplaced) ∉ definition.roles
  spread : ∀ spread ∈ spreadsOf definition.selections,
    (context.fragment? spread.name.text).isSome = true

/-- In a document without errors, every variable that a definition uses counts. -/
theorem countsAll_of_quiet {schema : Schema} {document : Document} {supply : Supply}
    (hquiet : ∀ rule, (LanguageRule.rule supply (.ofDocument schema.withRelayDirectives document)
      rule).IsQuiet (document.events schema.withRelayDirectives))
    {definition : Definition} (hdefinition : definition ∈ document.definitions) :
    (Context.ofDocument schema.withRelayDirectives document).CountsAll definition := by
  let context := Context.ofDocument schema.withRelayDirectives document
  have hdefinitions : LanguageRules.executableDefinitions.IsQuiet
      (context.document.events context.schema) := hquiet .executableDefinitions
  have hexecutable : ∀ definition ∈ document.definitions, definition.isTypeSystem = false :=
    executable_of_quiet hdefinitions
  have hplaced := not_entersMisplaced_of_quiet
    (Document.directives_eq_nil_of_executable hexecutable) (hquiet .knownDirectives)
  refine ⟨hexecutable definition hdefinition, fun mention hmention => hplaced ?_, ?_⟩
  · obtain ⟨use, scope, hmem, huse⟩ :=
      Definition.entersMisplaced schema.withRelayDirectives hmention
    exact ⟨use, scope, subset_around _ _ _ (List.mem_flatMap.mpr ⟨_, hdefinition, hmem⟩), huse⟩
  · exact fun spread => isSome_fragment?_of_quiet (hquiet .knownFragmentNames) hdefinition

/-- What fragment arguments make of a plain use has the same name. -/
theorem Context.name_of_change {role : Role} {usage changed : Usage}
    (h : context.change role usage = some changed) : changed.name = usage.name := by
  cases role with
  | plain =>
    rw [change, Option.some_inj] at h
    rw [h]
  | misplaced => cases h
  | whole spread argument | part spread =>
    obtain ⟨fragment, -, rfl⟩ := Option.map_eq_some_iff.mp h
    rfl

/-- Fragment arguments drop a plain use only if it is given in vain. -/
theorem Context.isSome_change {role : Role} (hrole : role ≠ .misplaced)
    (hspread : ∀ spread, role.spread? = some spread →
      (context.fragment? spread.name.text).isSome = true) (usage : Usage) :
    (context.change role usage).isSome = true := by
  cases role with
  | plain => rfl
  | misplaced => exact absurd rfl hrole
  | whole spread argument | part spread =>
    rw [change, Option.isSome_map]
    exact hspread spread rfl

/-- An operation or fragment has a plain use of a name in a role exactly if its text mentions the
name in this role. -/
theorem exists_roleUsage_iff (schema : Schema) (fragment : Option String) {definition : Definition}
    (hexecutable : definition.isTypeSystem = false) (role : Role) (name : String) :
    (∃ usage, (role, usage) ∈ (definition.events schema).filterMap (roleUsage? fragment) ∧
      usage.name = name) ↔
      ∃ mention, (mention, role) ∈ definition.roles ∧ mention.1.text = name := by
  have hroles := congrArg (List.map fun item : (String × Position) × Role => (item.2, item.1.1))
    (map_filterMap_roleUsage? schema fragment hexecutable)
  rw [List.map_map, List.map_map] at hroles
  have hmem := Eq.to_iff (congrArg ((role, name) ∈ ·) hroles)
  simpa using hmem

/-- Where every variable counts, a definition uses the names of its uses. -/
theorem Context.CountsAll.uses_iff {definition : Definition} (h : context.CountsAll definition)
    (fragment : Option String) {name : String} :
    definition.Uses name ↔ ∃ usage ∈ context.usages fragment definition, usage.name = name := by
  let plain := (definition.events context.schema).filterMap (roleUsage? fragment)
  have husages : context.usages fragment definition =
      plain.filterMap fun item => context.change item.1 item.2 := by
    rw [usages_eq_filterMap_change h.executable,
      ← filterMap_roleUsage?_eq_zip context.schema fragment h.executable]
  have hplain (role : Role) :=
    exists_roleUsage_iff context.schema fragment h.executable role name
  rw [husages]
  constructor
  · rintro ⟨mention, hmention, hname⟩
    rw [← definition.map_fst_roles] at hmention
    obtain ⟨⟨mention, role⟩, hrole, rfl⟩ := List.mem_map.mp hmention
    obtain ⟨usage, husage, hsame⟩ := (hplain role).mpr ⟨mention, hrole, hname⟩
    -- the role drops no use, since every variable counts
    have hchange := context.isSome_change
      (fun hmisplaced => h.misplaced mention (hmisplaced ▸ hrole))
      (fun spread hspread =>
        h.spread spread (Definition.mem_spreadsOf_of_mem_roles hrole hspread)) usage
    obtain ⟨changed, hchanged⟩ := Option.isSome_iff_exists.mp hchange
    exact ⟨changed, List.mem_filterMap.mpr ⟨_, husage, hchanged⟩,
      (name_of_change hchanged).trans hsame⟩
  · rintro ⟨changed, hchanged, hname⟩
    obtain ⟨⟨role, usage⟩, husage, hchange⟩ := List.mem_filterMap.mp hchanged
    obtain ⟨mention, hrole, hsame⟩ :=
      (hplain role).mp ⟨usage, husage, (name_of_change hchange).symm.trans hname⟩
    refine ⟨mention, ?_, hsame⟩
    rw [← definition.map_fst_roles]
    exact List.mem_map_of_mem hrole

end Quiet

/-! ## Variables of operations -/

/-- Items that are told apart by their names are equal if their names are. -/
theorem eq_of_repeatedNames_eq_nil {α : Type} {name : α → Name} {items : List α}
    (hdistinct : LanguageRules.repeatedNames (items.map name) = []) {item other : α}
    (hitem : item ∈ items) (hother : other ∈ items) (hname : (name other).text = (name item).text) :
    other = item := by
  simp only [LanguageRules.repeatedNames, List.filter_eq_nil_iff, List.forall_mem_map,
    decide_eq_true_eq, Nat.not_lt] at hdistinct
  have hgroup := hdistinct (name item).text
    (List.mem_eraseDups.mpr (List.mem_map_of_mem (List.mem_map_of_mem hitem)))
  rw [List.filter_map, List.length_map] at hgroup
  have hitemGroup := List.mem_filter (p := (fun n : Name => n.text == (name item).text) ∘ name)
    |>.mpr ⟨hitem, beq_self_eq_true _⟩
  have hotherGroup := List.mem_filter (p := (fun n : Name => n.text == (name item).text) ∘ name)
    |>.mpr ⟨hother, beq_iff_eq.mpr hname⟩
  -- a group of one holds nothing but the item
  rcases hitems : items.filter ((fun n : Name => n.text == (name item).text) ∘ name) with
    _ | ⟨first, _ | ⟨second, rest⟩⟩
  · rw [hitems] at hitemGroup
    cases hitemGroup
  · rw [hitems, List.mem_singleton] at hitemGroup hotherGroup
    rw [hitemGroup, hotherGroup]
  · rw [hitems] at hgroup
    simp at hgroup

section Operations

variable {context : Context} {operation : Operation} {declared : VariableDefinition}

/-- A variable is declared under its name. -/
theorem Operation.name_of_get? {schema : Schema} {name : String} {declaration : Declaration}
    (h : (operation.declarations schema).get? name = some declaration) :
    declaration.name = name := by
  obtain ⟨_, -, hpair⟩ := List.mem_map.mp (NameMap.mem_of_get?_ofList h)
  injection hpair with hname hdeclaration
  rw [← hdeclaration, ← hname]
  rfl

/-- An operation whose variables have different names declares each of them. -/
theorem Operation.get?_declarations (schema : Schema)
    (hdistinct : LanguageRules.repeatedNames
      (operation.variableDefinitions.map VariableDefinition.name) = [])
    (hdeclared : declared ∈ operation.variableDefinitions) :
    (operation.declarations schema).get? declared.name.text =
      some (Declaration.ofVariable schema declared) := by
  have hsome : ((operation.declarations schema).get? declared.name.text).isSome = true := by
    rw [declarations, NameMap.get?_ofList, Option.isSome_map, List.find?_isSome]
    exact ⟨(declared.name.text, .ofVariable schema declared),
      List.mem_reverse.mpr (List.mem_map_of_mem hdeclared), beq_self_eq_true _⟩
  obtain ⟨declaration, hget⟩ := Option.isSome_iff_exists.mp hsome
  obtain ⟨other, hother, rfl⟩ := Operation.exists_ofVariable hget
  rw [hget, eq_of_repeatedNames_eq_nil hdistinct hdeclared hother (Operation.name_of_get? hget)]

/-- Where every variable counts, a variable governs a use exactly if its name is used in the
operation, or in a fragment that does not declare an argument of this name. -/
theorem Context.governs_iff_uses
    (hcounts : ∀ definition ∈ context.document.definitions, context.CountsAll definition)
    (hoperation : operation ∈ context.document.operations)
    (hdeclares : (operation.declarations context.schema).get? declared.name.text =
      some (.ofVariable context.schema declared)) :
    (∃ governed ∈ context.operationUsages operation,
      governed.declaration? = some (.ofVariable context.schema declared)) ↔
      (Definition.operation operation).Uses declared.name.text ∨
        ∃ fragment ∈ context.reached operation,
          (fragment.declarations context.schema).contains declared.name.text = false ∧
            (Definition.fragment fragment).Uses declared.name.text := by
  have hown := hcounts _ (Document.mem_operations_iff.mp hoperation)
  have hreached {fragment : Fragment} (h : fragment ∈ context.reached operation) :
      context.CountsAll (.fragment fragment) :=
    hcounts _ (Document.mem_fragments_iff.mp (mem_fragments_of_mem_reached h))
  have hname {usage : Usage} (h : (operation.declarations context.schema).get? usage.name =
      some (.ofVariable context.schema declared)) : usage.name = declared.name.text :=
    (Operation.name_of_get? h).symm
  constructor
  · rintro ⟨governed, hgoverned, hdeclaration⟩
    rcases mem_operationUsages_iff.mp hgoverned with
      ⟨usage, husage, rfl⟩ | ⟨fragment, hfragment, usage, husage, rfl⟩
    · rw [declaration?_govern, Option.or_self] at hdeclaration
      exact .inl ((hown.uses_iff none).mpr ⟨usage, husage, hname hdeclaration⟩)
    · rw [declaration?_govern] at hdeclaration
      cases hargument : (fragment.declarations context.schema).get? usage.name with
      | some argument =>
        -- an argument of the fragment is no variable
        have hisArgument := Fragment.isArgument_of_get? hargument
        rw [hargument, Option.some_or, Option.some_inj] at hdeclaration
        rw [hdeclaration] at hisArgument
        cases hisArgument
      | none =>
        rw [hargument, Option.none_or] at hdeclaration
        refine .inr ⟨fragment, hfragment, ?_, ?_⟩
        · rw [NameMap.contains, ← hname hdeclaration, hargument]
          rfl
        · exact ((hreached hfragment).uses_iff _).mpr ⟨usage, husage, hname hdeclaration⟩
  · rintro (huses | ⟨fragment, hfragment, hother, huses⟩)
    · obtain ⟨usage, husage, hsame⟩ := (hown.uses_iff none).mp huses
      refine ⟨_, mem_operationUsages_iff.mpr (.inl ⟨usage, husage, rfl⟩), ?_⟩
      rw [declaration?_govern, Option.or_self, hsame, hdeclares]
    · obtain ⟨usage, husage, hsame⟩ :=
        ((hreached hfragment).uses_iff (some fragment.name.text)).mp huses
      refine ⟨_, mem_operationUsages_of_reached hfragment husage, ?_⟩
      rw [NameMap.contains, Option.isSome_eq_false_iff, Option.isNone_iff_eq_none] at hother
      rw [declaration?_govern, hsame, hother, Option.none_or, hdeclares]

/-- The walk of a document enters and leaves each definition. -/
theorem Document.exists_visit_definition (schema : Schema) {document : Document}
    {definition : Definition} (h : definition ∈ document.definitions) :
    ∃ scope, .enter ⟨.definition definition, scope⟩ ∈ document.events schema ∧
      .leave ⟨.definition definition, scope⟩ ∈ document.events schema := by
  obtain ⟨scope, parts, hevents, -⟩ := definition.events_eq_around_inner schema
  have hsub : definition.events schema ⊆ document.events schema :=
    List.Subset.trans (fun _ hevent => List.mem_flatMap.mpr ⟨definition, h, hevent⟩)
      (subset_around _ _ _)
  rw [hevents] at hsub
  exact ⟨scope, hsub List.mem_cons_self,
    hsub (List.mem_cons_of_mem _ (List.mem_append_right _ (List.mem_singleton_self _)))⟩

/-- In a document without errors, the variables of an operation have different names. -/
theorem repeatedNames_of_quiet
    (hquiet : LanguageRules.uniqueVariableNames.IsQuiet (context.document.events context.schema))
    (hoperation : operation ∈ context.document.operations) :
    LanguageRules.repeatedNames (operation.variableDefinitions.map VariableDefinition.name) =
      [] := by
  obtain ⟨scope, henter, -⟩ := Document.exists_visit_definition context.schema
    (Document.mem_operations_iff.mp hoperation)
  have hnothing := hquiet.onEnter henter
  rw [List.eq_nil_iff_forall_not_mem]
  intro group hgroup
  cases hnothing _ (List.mem_map_of_mem hgroup)

/-- In a document without errors, the name of every variable of an operation is used in it or in a
fragment that it reaches. -/
theorem uses_of_quiet
    (hquiet : (LanguageRules.noUnusedVariables context).IsQuiet
      (context.document.events context.schema))
    (hoperation : operation ∈ context.document.operations)
    (hdeclared : declared ∈ operation.variableDefinitions) :
    (Definition.operation operation).Uses declared.name.text ∨
      ∃ fragment ∈ context.reached operation,
        (Definition.fragment fragment).Uses declared.name.text := by
  obtain ⟨scope, -, hleave⟩ := Document.exists_visit_definition context.schema
    (Document.mem_operations_iff.mp hoperation)
  have hnothing := (Rule.isQuiet_searching.mp hquiet).onLeave hleave
  -- the rule reports a variable when it leaves the operation, unless it has seen a use
  have hused : declared.name.text ∈ LanguageRules.usedNames context operation := by
    by_contra hunused
    have hmem : declared ∈ operation.variableDefinitions.filter fun declared =>
        !(LanguageRules.usedNames context operation).contains declared.name.text :=
      List.mem_filter.mpr ⟨hdeclared, by simpa using hunused⟩
    cases hnothing _ (List.mem_map_of_mem hmem)
  obtain ⟨mention, hmention, hname⟩ := List.mem_map.mp hused
  rcases List.mem_append.mp hmention with hown | hreached
  · exact .inl ⟨mention, hown, hname⟩
  · obtain ⟨fragment, hfragment, hmem⟩ := List.mem_flatMap.mp hreached
    exact .inr ⟨fragment, hfragment, mention, hmem, hname⟩

end Operations

/-- If a document is checked with the standard rules and without errors, whatever rules are supplied
from elsewhere, the name of every variable that an operation declares is used, in the operation or
in a fragment that it reaches. The variable governs a use exactly if its name is used in the
operation itself, or in such a fragment that does not declare an argument of the same name. -/
theorem Schema.governs_iff_uses_of_check {schema : Schema} {document : Document} {compat : Bool}
    {supply : Supply} {outcome : Outcome}
    (hcheck : schema.check document (standardRules compat supply) = .ok outcome)
    (hquiet : outcome.errors = []) {operation : Operation}
    (hoperation : operation ∈ document.operations) {declared : VariableDefinition}
    (hdeclared : declared ∈ operation.variableDefinitions) :
    let context := Context.ofDocument schema.withRelayDirectives document
    let name := declared.name.text
    ((Definition.operation operation).Uses name ∨
      ∃ fragment ∈ context.reached operation, (Definition.fragment fragment).Uses name) ∧
    ((∃ governed ∈ context.operationUsages operation,
        governed.declaration? = some (.ofVariable context.schema declared)) ↔
      (Definition.operation operation).Uses name ∨
        ∃ fragment ∈ context.reached operation,
          (fragment.declarations context.schema).contains name = false ∧
            (Definition.fragment fragment).Uses name) := by
  intro context name
  have hrules (rule : LanguageRule) :
      (rule.rule supply context).IsQuiet (context.document.events context.schema) :=
    Schema.isQuiet_of_check hcheck hquiet (mem_standardRules_of_language compat supply rule)
  refine ⟨uses_of_quiet (hrules .noUnusedVariables) hoperation hdeclared, ?_⟩
  refine Context.governs_iff_uses (fun definition => countsAll_of_quiet hrules) hoperation ?_
  exact Operation.get?_declarations _
    (repeatedNames_of_quiet (hrules .uniqueVariableNames) hoperation) hdeclared

/-- The size that a query declares is used in the fragment only, where it is that of the picture,
and no rule finds anything about it. -/
theorem Schema.governs_iff_uses_of_check_querySize :
    let context := Context.ofDocument pictureSchema.withRelayDirectives querySizeDocument
    ∃ outcome declared,
      pictureSchema.check querySizeDocument (standardRules false) = .ok outcome ∧
      outcome.errors = [] ∧ givenSizeQuery ∈ querySizeDocument.operations ∧
      declared ∈ givenSizeQuery.variableDefinitions ∧
      let name := declared.name.text
      ((Definition.operation givenSizeQuery).Uses name ∨
        ∃ fragment ∈ context.reached givenSizeQuery, (Definition.fragment fragment).Uses name) ∧
      ((∃ governed ∈ context.operationUsages givenSizeQuery,
          governed.declaration? = some (.ofVariable context.schema declared)) ↔
        (Definition.operation givenSizeQuery).Uses name ∨
          ∃ fragment ∈ context.reached givenSizeQuery,
            (fragment.declarations context.schema).contains name = false ∧
              (Definition.fragment fragment).Uses name) := by
  intro context
  obtain ⟨outcome, hcheck, hquiet⟩ := exists_check_querySizeDocument
  have hoperation : givenSizeQuery ∈ querySizeDocument.operations := List.mem_singleton_self _
  have hdeclared : _ ∈ givenSizeQuery.variableDefinitions := List.mem_singleton_self _
  exact ⟨outcome, _, hcheck, hquiet, hoperation, hdeclared,
    Schema.governs_iff_uses_of_check hcheck hquiet hoperation hdeclared⟩

/-- Not every variable governs a use in a document that is checked without errors and whose
fragments have unique names: the size that the query declares governs none. -/
theorem Schema.not_governs_of_check_querySize :
    let context := Context.ofDocument pictureSchema.withRelayDirectives querySizeDocument
    querySizeDocument.UniqueFragmentNames ∧
    ¬∀ outcome, pictureSchema.check querySizeDocument (standardRules false) = .ok outcome →
      outcome.errors = [] → ∀ operation ∈ querySizeDocument.operations,
        ∀ declared ∈ operation.variableDefinitions,
          ∃ governed ∈ context.operationUsages operation,
            governed.declaration? = some (.ofVariable context.schema declared) := by
  intro context
  refine ⟨by decide, fun hclaim => ?_⟩
  obtain ⟨outcome, hcheck, hquiet⟩ := exists_check_querySizeDocument
  obtain ⟨governed, hgoverned, hdeclaration⟩ := hclaim outcome hcheck hquiet givenSizeQuery
    (List.mem_singleton_self _) _ (List.mem_singleton_self _)
  -- what the query and the fragment use is governed by an argument of the fragment
  have harguments : (context.operationUsages givenSizeQuery).all GovernedUsage.isOfArgument =
      true := by cbv
  have hargument := List.all_eq_true.mp harguments governed hgoverned
  rw [GovernedUsage.isOfArgument, hdeclaration] at hargument
  cases hargument

end RelayCheck
