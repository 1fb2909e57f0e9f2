import RelayCheck.Proofs.FragmentArguments.RenamingWalk
import RelayCheck.Proofs.FragmentArguments.Usage

/-!
# Uses of a renamed argument

If an argument of a fragment gets another name, the variables that stand for it are governed by its
declaration as before. All other variables keep their names, and what governs them is the same. The
values that spreads of the fragment give to the argument are expected to be of the same type.

The module introduces:

- `Role.Renamed`, what becomes of the role of a variable;
- `Usage.Renamed` and `GovernedUsage.Renamed`, what becomes of a use.

The main results are `rel_usages_of_renamed`, `rel_fragmentUsages_of_renamed` and
`rel_operationUsages_of_renamed`.
-/

namespace RelayCheck

/-! ## Roles -/

/-- What becomes of the role of a variable; the argument that is given gets its new name. -/
inductive Role.Renamed (f : String → String) (r : Renaming) : Role → Role → Prop
  | plain : Renamed f r .plain .plain
  | misplaced : Renamed f r .misplaced .misplaced
  | whole (spread : Spread) {argument : String} (h : argument ∈ r.clear spread.name.text) :
      Renamed f r (.whole spread argument)
        (.whole (spread.rename f r) (r.within spread.name.text argument))
  | part (spread : Spread) : Renamed f r (.part spread) (.part (spread.rename f r))

/-- A variable with its role and the same variable by its new name. -/
structure RoleRenamed (f : String → String) (r : Renaming)
    (item other : (Name × Position) × Role) : Prop where
  mention_eq : other.1 = (item.1.1.rename f, item.1.2)
  role : item.2.Renamed f r other.2

section Roles

variable {f g : String → String} {r : Renaming}

/-- Variables of one role get new names. -/
theorem rel_map_role {role other : Role} (h : role.Renamed f r other)
    (mentions : List (Name × Position)) :
    List.Forall₂ (RoleRenamed f r) (mentions.map (·, role))
      ((mentions.map fun (name, pos) => (name.rename f, pos)).map (·, other)) := by
  rw [List.map_map, List.forall₂_map_left_iff, List.forall₂_map_right_iff, List.forall₂_same]
  exact fun _ _ => ⟨rfl, h⟩

/-- The variables in a value get new names. -/
theorem Value.rel_roles {whole whole' part part' : Role} (hwhole : whole.Renamed f r whole')
    (hpart : part.Renamed f r part') (value : Value) :
    List.Forall₂ (RoleRenamed f r) (value.roles whole part)
      ((value.renameVariables f).roles whole' part') := by
  have hinside := rel_map_role hpart value.mentions
  rw [← mentions_renameVariables] at hinside
  cases value with
  | «variable» name pos =>
    rw [renameVariables]
    exact .cons ⟨rfl, hwhole⟩ .nil
  | list | object | int | float | string | boolean | null | enum =>
    rw [renameVariables] at hinside ⊢
    exact hinside

/-- The variables in arguments get new names. -/
theorem argumentVariables_rename (arguments : List Argument) :
    argumentVariables (arguments.map (Argument.rename g f)) =
      (argumentVariables arguments).map fun (name, pos) => (name.rename f, pos) := by
  rw [argumentVariables, argumentVariables, List.flatMap_map, List.map_flatMap]
  exact List.flatMap_congr fun argument _ => Value.mentions_renameVariables f argument.value

/-- The variables in a directive that is on no spread keep their roles. -/
theorem Directive.rel_roles (directive : Directive) :
    List.Forall₂ (RoleRenamed f r) (directive.roles none)
      ((directive.rename g f).roles none) := by
  have hname : (directive.rename g f).name = directive.name := rfl
  have harguments : argumentVariables (directive.rename g f).arguments = _ :=
    argumentVariables_rename directive.arguments
  rw [roles, roles, hname, harguments]
  split
  · exact rel_map_role .misplaced _
  · exact rel_map_role .plain _

/-- The variables in directives that are on no spread keep their roles. -/
theorem rel_directiveRoles (directives : List Directive) :
    List.Forall₂ (RoleRenamed f r) (directives.flatMap (Directive.roles none))
      ((directives.map (Directive.rename g f)).flatMap (Directive.roles none)) := by
  refine List.rel_flatMap (R := fun directive given => given = directive.rename g f)
    (List.forall₂_map_right_iff.mpr (List.forall₂_same.mpr fun _ _ => rfl)) ?_
  rintro directive _ rfl
  exact directive.rel_roles

/-- The variables in the directives of a fragment keep their roles. -/
theorem rel_declaringRoles (directives : List Directive) :
    List.Forall₂ (RoleRenamed f r) (directives.flatMap (Directive.roles none))
      ((renameDeclaring g f directives).flatMap (Directive.roles none)) := by
  induction directives with
  | nil => exact .nil
  | cons directive rest ih =>
    rw [renameDeclaring]
    split
    · exact List.rel_append directive.rel_roles (rel_directiveRoles rest)
    · exact List.rel_append directive.rel_roles ih

/-- The variables that are given on a spread are given to the argument by its new name. -/
theorem Spread.Suits.rel_roles {spread : Spread} (h : spread.Suits r) :
    List.Forall₂ (RoleRenamed f r) (spread.directives.flatMap (Directive.roles (some spread)))
      ((spread.rename f r).directives.flatMap
        (Directive.roles (some (spread.rename f r)))) := by
  refine List.rel_flatMap (R := fun directive given => directive ∈ spread.directives ∧
    given = directive.renameGiven (r.within spread.name.text) f)
    (List.forall₂_map_right_iff.mpr (List.forall₂_same.mpr fun _ hmem => ⟨hmem, rfl⟩)) ?_
  rintro directive _ ⟨hdirective, rfl⟩
  -- only directives that give arguments have their arguments renamed
  rw [Directive.renameGiven]
  split
  next hname =>
    have hname' : (directive.rename (r.within spread.name.text) f).name.text = argumentsName :=
      hname
    rw [Directive.roles, Directive.roles, if_pos hname, if_pos hname']
    refine List.rel_flatMap (R := fun argument given => argument ∈ directive.arguments ∧
      given = argument.rename (r.within spread.name.text) f)
      (List.forall₂_map_right_iff.mpr (List.forall₂_same.mpr fun _ hmem => ⟨hmem, rfl⟩)) ?_
    rintro argument _ ⟨hargument, rfl⟩
    exact argument.value.rel_roles (.whole spread (h directive hdirective hname argument hargument))
      (.part spread)
  next hname =>
    have hname' : ¬(directive.rename id f).name.text = argumentsName := hname
    rw [Directive.roles, Directive.roles, if_neg hname, if_neg hname']
    exact argumentVariables_rename (g := id) directive.arguments ▸ rel_map_role .plain _

/-- The variables in selections get new names. -/
theorem rel_selectionRoles :
    ∀ selections : List Selection, (∀ spread ∈ spreadsOf selections, spread.Suits r) →
      List.Forall₂ (RoleRenamed f r) (selectionRoles selections)
        (selectionRoles (renameSelections f r selections))
  | [], hspreads => by
    rw [renameSelections, selectionRoles]
    exact .nil
  | .field field nested :: rest, hspreads => by
    obtain ⟨hinner, hlater⟩ := forall_spreadsOf_cons_field.mp hspreads
    have harguments : argumentVariables (field.rename f).arguments = _ :=
      argumentVariables_rename field.arguments
    rw [renameSelections, Selection.rename, selectionRoles, selectionRoles, Selection.roles,
      Selection.roles, harguments]
    refine List.rel_append (List.rel_append (List.rel_append ?_ ?_) ?_)
      (rel_selectionRoles rest hlater)
    · exact rel_map_role .plain _
    · exact rel_directiveRoles field.directives
    · exact rel_selectionRoles nested hinner
  | .spread spread :: rest, hspreads => by
    obtain ⟨hhere, hlater⟩ := forall_spreadsOf_cons_spread.mp hspreads
    rw [renameSelections, Selection.rename, selectionRoles, selectionRoles, Selection.roles,
      Selection.roles]
    exact List.rel_append hhere.rel_roles (rel_selectionRoles rest hlater)
  | .inlineFragment fragment nested :: rest, hspreads => by
    obtain ⟨hinner, hlater⟩ := forall_spreadsOf_cons_inlineFragment.mp hspreads
    rw [renameSelections, Selection.rename, selectionRoles, selectionRoles, Selection.roles,
      Selection.roles]
    refine List.rel_append (List.rel_append ?_ ?_) (rel_selectionRoles rest hlater)
    · exact rel_directiveRoles fragment.directives
    · exact rel_selectionRoles nested hinner

/-- The variables that a definition uses get new names. -/
theorem Definition.Corresponds.rel_roles {definition other : Definition}
    (h : definition.Corresponds r.correspondence other) :
    List.Forall₂ (RoleRenamed (r.inside definition) r) definition.roles other.roles := by
  -- variables are renamed inside the fragment only, and names of arguments on its spreads
  cases h with
  | typeSystem htypeSystem =>
    cases definition with
    | operation | fragment => cases htypeSystem
    | schema | schemaExtension | type | typeExtension | directive => exact .nil
  | @operation operation other hoperation =>
    cases hoperation with
    | mk hspreads =>
      have hdirectives : List.Forall₂ (RoleRenamed id r) _
          ((operation.directives.map (Directive.rename id id)).flatMap (Directive.roles none)) :=
        rel_directiveRoles operation.directives
      rw [map_rename_id] at hdirectives
      exact List.rel_append hdirectives (rel_selectionRoles _ hspreads)
  | @fragment fragment other hfragment =>
    cases hfragment with
    | mk hsuits =>
      exact List.rel_append (rel_declaringRoles _) (rel_selectionRoles _ hsuits.spreads)

end Roles

/-! ## Uses -/

/-- A use of one of the given names that has become a use of its new name, at the same position. The
default of the position may have got new names of variables. -/
structure Usage.Renamed (f : String → String) (names : Set String) (usage other : Usage) :
    Prop where
  mem : usage.name ∈ names
  name_eq : other.name = f usage.name
  pos_eq : other.pos = usage.pos
  type_eq : other.type = usage.type
  isSome_default_eq : other.default.isSome = usage.default.isSome
  fragment_eq : other.fragment = usage.fragment

/-- What becomes of a governed use. If an argument of the fragment that contains it governs it, then
so does this argument by its new name; otherwise the use keeps its name and what governs it. -/
inductive GovernedUsage.Renamed (r : Renaming) : GovernedUsage → GovernedUsage → Prop
  | own (fragment : String) {usage other : Usage} {declaration declaration' : Declaration}
      (husage : usage.Renamed (r.within fragment) (r.clear fragment) other)
      (hargument : declaration.isArgument = true)
      (hdeclaration : declaration.Renamed (r.within fragment) declaration') :
      Renamed r ⟨usage, some (declaration, .ownDefinition)⟩
        ⟨other, some (declaration', .ownDefinition)⟩
  | same {usage other : Usage} (governor : Option (Declaration × Origin))
      (husage : usage.Renamed id Set.univ other) : Renamed r ⟨usage, governor⟩ ⟨other, governor⟩

/-- The names of variables in a definition, as long as the new name is not taken there. -/
def Renaming.clearInside (r : Renaming) : Definition → Set String
  | .fragment f => r.clear f.name.text
  | _ => Set.univ

/-- What a fragment declares is an argument. -/
theorem Fragment.isArgument_of_get? {schema : Schema} {fragment : Fragment} {name : String}
    {declaration : Declaration}
    (h : (fragment.declarations schema).get? name = some declaration) :
    declaration.isArgument = true := by
  obtain ⟨argument, -, hargument⟩ := List.mem_map.mp (NameMap.mem_of_get?_ofList h)
  cases hargument
  rfl

/-- A fragment declares the arguments that its declaring directive names. -/
theorem Fragment.isSome_get? (schema : Schema) {fragment : Fragment} {argument : Argument}
    (h : argument ∈ fragment.declaringArguments?.getD []) :
    ((fragment.declarations schema).get? argument.name.text).isSome = true := by
  rw [Fragment.declarations, NameMap.get?_ofList, Option.isSome_map, List.find?_isSome]
  refine ⟨(argument.name.text, Declaration.ofArgument schema argument), ?_, ?_⟩
  · exact List.mem_reverse.mpr (List.mem_map_of_mem h)
  · exact beq_self_eq_true _

section Uses

variable {r : Renaming}

/-- In a fragment, the variables that stand for the argument are governed by its declaration as
before, and all others by what governed them. -/
theorem Fragment.Suits.govern {fragment : Fragment} (h : fragment.Suits r) (schema : Schema)
    (enclosing : Declarations) {usage other : Usage}
    (husage : usage.Renamed (r.within fragment.name.text) (r.clear fragment.name.text) other) :
    (RelayCheck.govern (fragment.declarations schema) enclosing usage).Renamed r
      (RelayCheck.govern ((fragment.rename r).declarations schema) enclosing other) := by
  have hget := NameMap.rel_get? (Renaming.injOn_within _) (h.declarations schema) husage.mem
  rw [← husage.name_eq] at hget
  rw [RelayCheck.govern, RelayCheck.govern]
  rcases exists_of_rel_option hget with
    ⟨hbefore, hafter⟩ | ⟨declaration, declaration', hbefore, hafter, hdeclaration⟩
  · -- the argument is declared, so that the use is of another name
    have hname : r.within fragment.name.text usage.name = usage.name := by
      rw [Renaming.within]
      split
      next hfragment =>
        refine Renaming.apply_of_ne fun hold => ?_
        obtain ⟨argument, hargument, hargumentName⟩ := h.declares hfragment
        have hsome := Fragment.isSome_get? schema hargument
        rw [hargumentName, ← hold, hbefore] at hsome
        cases hsome
      next => rfl
    rw [hbefore, hafter]
    dsimp only
    rw [husage.name_eq, hname]
    exact .same _ { husage with mem := Set.mem_univ _, name_eq := husage.name_eq.trans hname }
  · rw [hbefore, hafter]
    exact .own fragment.name.text husage (isArgument_of_get? hbefore) hdeclaration

/-- What a fragment declares for an argument, it declares for its new name. -/
theorem Fragment.Renamed.rel_get? {fragment other : Fragment} (h : fragment.Renamed r other)
    (schema : Schema) {argument : String} (hargument : argument ∈ r.clear fragment.name.text) :
    Option.Rel (Declaration.Renamed (r.within fragment.name.text))
      ((fragment.declarations schema).get? argument)
      ((other.declarations schema).get? (r.within fragment.name.text argument)) := by
  cases h with
  | mk hsuits =>
    exact NameMap.rel_get? (Renaming.injOn_within _) (hsuits.declarations schema) hargument

/-- In an operation, variables are governed as before. -/
theorem Usage.Renamed.govern {usage other : Usage} (h : usage.Renamed id Set.univ other)
    (own enclosing : Declarations) :
    (RelayCheck.govern own enclosing usage).Renamed r
      (RelayCheck.govern own enclosing other) := by
  have hname : other.name = usage.name := h.name_eq
  rw [RelayCheck.govern, RelayCheck.govern, hname]
  cases own.get? usage.name with
  | some declaration => exact .same _ h
  | none => exact .same _ h

/-- The names of the variables that a definition uses are clear. -/
theorem Definition.Corresponds.mem_clearInside {definition other : Definition}
    (h : definition.Corresponds r.correspondence other) {mention : Name × Position}
    (hmention : mention ∈ definition.usedVariables) :
    mention.1.text ∈ r.clearInside definition := by
  cases h with
  | typeSystem htypeSystem =>
    cases definition with
    | operation | fragment => cases htypeSystem
    | schema | schemaExtension | type | typeExtension | directive => exact Set.mem_univ _
  | operation => exact Set.mem_univ _
  | fragment hfragment =>
    cases hfragment with
    | mk hsuits => exact hsuits.used mention hmention

/-- The plain uses in a definition, with their roles, get new names. -/
theorem rel_roleUsages {schema : Schema} (hschema : schema.LeavesNames)
    {definition other : Definition} (h : definition.Corresponds r.correspondence other)
    (hexecutable : definition.isTypeSystem = false ∧ other.isTypeSystem = false)
    (fragment : Option String) :
    List.Forall₂ (fun item item' : Role × Usage => item.1.Renamed (r.inside definition) r item'.1 ∧
        item.2.Renamed (r.inside definition) (r.clearInside definition) item'.2)
      ((definition.events schema).filterMap (roleUsage? fragment))
      ((other.events schema).filterMap (roleUsage? fragment)) := by
  let f := r.inside definition
  have hplain (definition : Definition) :
      ((definition.events schema).filterMap (roleUsage? fragment)).map Prod.snd =
        (definition.events schema).filterMap (plainUsage? fragment) := by
    simp only [List.map_filterMap, map_snd_roleUsage?]
  -- the walks tell the uses with their new names, and the definitions tell the roles
  have husages : List.Forall₂
      (fun item item' : Role × Usage => item'.2 = { item.2 with name := f item.2.name })
      ((definition.events schema).filterMap (roleUsage? fragment))
      ((other.events schema).filterMap (roleUsage? fragment)) := by
    have hnames := (walkChanged_definition_of_renamed hschema h).plainUsages_eq fragment
    rw [← hplain, ← hplain, List.map_map, eq_comm, ← List.forall₂_eq_eq_eq,
      List.forall₂_map_left_iff, List.forall₂_map_right_iff] at hnames
    exact hnames.imp fun _ _ hitem => hitem.symm
  have hroles : List.Forall₂ (fun item item' : Role × Usage =>
      item.2.name ∈ r.clearInside definition ∧ item.1.Renamed f r item'.1)
      ((definition.events schema).filterMap (roleUsage? fragment))
      ((other.events schema).filterMap (roleUsage? fragment)) := by
    have hboth : List.Forall₂ (fun item item' : (String × Position) × Role =>
        item.1.1 ∈ r.clearInside definition ∧ item.2.Renamed f r item'.2)
        (definition.roles.map fun item => ((item.1.1.text, item.1.2), item.2))
        (other.roles.map fun item => ((item.1.1.text, item.1.2), item.2)) := by
      rw [List.forall₂_map_left_iff, List.forall₂_map_right_iff, List.forall₂_and_left]
      refine ⟨fun item hitem => ?_, h.rel_roles.imp fun _ _ hitem => hitem.role⟩
      have hmention : item.1 ∈ definition.usedVariables :=
        definition.map_fst_roles ▸ List.mem_map_of_mem hitem
      exact h.mem_clearInside hmention
    rw [← map_filterMap_roleUsage? schema fragment hexecutable.1,
      ← map_filterMap_roleUsage? schema fragment hexecutable.2] at hboth
    rwa [List.forall₂_map_left_iff, List.forall₂_map_right_iff] at hboth
  refine List.Forall₂.mp (fun item item' hitem husage => ?_) hroles husages
  obtain ⟨hmem, hrole⟩ := hitem
  refine ⟨hrole, ?_⟩
  rw [husage]
  exact ⟨hmem, rfl, rfl, rfl, rfl, rfl⟩

end Uses

namespace Context

variable {r : Renaming} {context other : Context}
  (h : context.Corresponds r.correspondence other)

include h

/-- Fragment arguments make the same of a use, by its new name. -/
theorem rel_change_of_renamed {f : String → String} {names : Set String} {role role' : Role}
    (hrole : role.Renamed f r role') {usage usage' : Usage}
    (husage : usage.Renamed f names usage') :
    Option.Rel (Usage.Renamed f names) (context.change role usage) (other.change role' usage') := by
  cases hrole with
  | plain => exact .some husage
  | misplaced => exact .none
  | @«whole» spread argument hargument =>
    rw [change, change]
    rcases exists_of_rel_option (h.fragment? spread.name.text) with
      ⟨hbefore, hafter⟩ | ⟨target, target', hbefore, hafter, htarget⟩
    · have hafter' : other.fragment? (spread.rename f r).name.text = none := hafter
      rw [hbefore, hafter']
      exact .none
    · have hafter' : other.fragment? (spread.rename f r).name.text = some target' := hafter
      rw [hbefore, hafter', Option.map_some, Option.map_some]
      -- the argument is looked up in the fragment that the spread names, in both under its name
      have hname : target.name.text = spread.name.text :=
        (Document.mem_fragments_of_fragment? hbefore).2
      rw [← hname] at hargument
      have hget := htarget.rel_get? context.schema hargument
      dsimp only
      rw [h.schema_eq, ← hname]
      rcases exists_of_rel_option hget with
        ⟨hdeclared, hdeclared'⟩ | ⟨declaration, declaration', hdeclared, hdeclared', hdeclaration⟩
      · rw [hdeclared, hdeclared']
        exact .some { husage with type_eq := rfl, isSome_default_eq := rfl }
      · rw [hdeclared, hdeclared']
        refine .some { husage with type_eq := hdeclaration.type_eq, isSome_default_eq := ?_ }
        simp only [Option.bind_some, Option.isSome_map, hdeclaration.default_eq]
  | part spread =>
    rw [change, change]
    rcases exists_of_rel_option (h.fragment? spread.name.text) with
      ⟨hbefore, hafter⟩ | ⟨target, target', hbefore, hafter, -⟩
    · have hafter' : other.fragment? (spread.rename f r).name.text = none := hafter
      rw [hbefore, hafter']
      exact .none
    · have hafter' : other.fragment? (spread.rename f r).name.text = some target' := hafter
      rw [hbefore, hafter']
      exact .some { husage with type_eq := rfl, isSome_default_eq := rfl }

/-- The uses in an operation or fragment get new names. -/
theorem rel_usages_of_renamed (hschema : context.schema.LeavesNames)
    {definition definition' : Definition}
    (hdefinition : definition.Corresponds r.correspondence definition')
    (hexecutable : definition.isTypeSystem = false ∧ definition'.isTypeSystem = false)
    (fragment : Option String) :
    List.Forall₂ (Usage.Renamed (r.inside definition) (r.clearInside definition))
      (context.usages fragment definition) (other.usages fragment definition') := by
  rw [usages_eq_filterMap_change hexecutable.1, usages_eq_filterMap_change hexecutable.2,
    ← filterMap_roleUsage?_eq_zip _ _ hexecutable.1,
    ← filterMap_roleUsage?_eq_zip _ _ hexecutable.2, h.schema_eq]
  refine List.rel_filterMap (fun item item' hitem => ?_)
    (rel_roleUsages hschema hdefinition hexecutable fragment)
  exact rel_change_of_renamed h hitem.1 hitem.2

/-- The uses in a fragment are governed as before, by the new name of the argument. -/
theorem rel_fragmentUsages_of_renamed (hschema : context.schema.LeavesNames)
    {fragment fragment' : Fragment} (hfragment : fragment.Renamed r fragment')
    (enclosing : Declarations) :
    List.Forall₂ (GovernedUsage.Renamed r) (context.fragmentUsages fragment enclosing)
      (other.fragmentUsages fragment' enclosing) := by
  have husages := rel_usages_of_renamed h hschema (.fragment hfragment) ⟨rfl, rfl⟩
    (some fragment.name.text)
  cases hfragment with
  | mk hsuits =>
    rw [fragmentUsages, fragmentUsages, h.schema_eq]
    exact List.rel_map (fun _ _ husage => hsuits.govern context.schema enclosing husage) husages

/-- The uses of an operation are governed as before, by the new name of the argument. -/
theorem rel_operationUsages_of_renamed (hschema : context.schema.LeavesNames)
    {operation operation' : Operation} (hoperation : operation.Renamed r operation') :
    List.Forall₂ (GovernedUsage.Renamed r) (context.operationUsages operation)
      (other.operationUsages operation') := by
  rw [operationUsages, operationUsages, h.schema_eq, hoperation.declarations_eq]
  refine List.rel_append ?_ (List.rel_flatMap (h.reached hoperation) ?_)
  · exact List.rel_map (fun _ _ husage => husage.govern _ _)
      (rel_usages_of_renamed h hschema (.operation hoperation) ⟨rfl, rfl⟩ none)
  · exact fun _ _ hfragment => rel_fragmentUsages_of_renamed h hschema hfragment _

end Context

end RelayCheck
