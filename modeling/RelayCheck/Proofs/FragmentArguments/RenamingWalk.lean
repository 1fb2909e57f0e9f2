import RelayCheck.Proofs.FragmentArguments.ChangedWalk
import RelayCheck.Proofs.FragmentArguments.Parts
import RelayCheck.Proofs.FragmentArguments.Renaming
import RelayCheck.Proofs.Schema.RelayDirectives

/-!
# The walk of a document with a renamed argument

Where an argument of a fragment gets another name, the walk of a document meets the same things as
before, but for that name. The names of arguments that fragments declare and are given are no names
of the schema, so that the schema has the same to say about every place.

The module introduces:

- `DirectiveUse.Renamed`, what becomes of a directive where it is applied, and `Renaming.change`,
  what becomes of the parts of a definition;
- `Renaming.inside`, what becomes of the names of variables in a definition.

The main results are `walkChanged_definition_of_renamed` and `rel_events_of_renamed`.
-/

namespace RelayCheck

/-! ## Directives -/

/-- What becomes of a directive, where it is applied, if variables there get new names. -/
inductive DirectiveUse.Renamed (f : String → String) (r : Renaming) :
    DirectiveUse → DirectiveUse → Prop
  | same (use : DirectiveUse) (hspread : use.spread? = none) : Renamed f r use use
  | plain {use other : DirectiveUse} (hspread : use.spread? = none ∧ other.spread? = none)
      (hfragment : use.declaringFragment? = none ∧ other.declaringFragment? = none)
      (hdirective : other.directive = use.directive.rename id f) : Renamed f r use other
  | onSpread (spread : Spread) (index : Nat) {directive : Directive}
      (h : directive.name.text = argumentsName →
        ∀ argument ∈ directive.arguments, argument.name.text ∈ r.clear spread.name.text) :
      Renamed f r ⟨.spread spread, index, directive⟩
        ⟨.spread (spread.rename f r), index, directive.renameGiven (r.within spread.name.text) f⟩
  | declaring {fragment : Fragment} {use other : DirectiveUse} (hsuits : fragment.Suits r)
      (hspread : use.spread? = none ∧ other.spread? = none)
      (hfragment : use.declaringFragment? = some fragment ∧
        other.declaringFragment? = some (fragment.rename r))
      (hname : use.directive.name.text = argumentDefinitionsName)
      (h : ∀ argument ∈ use.directive.arguments,
        argument.name.text ∈ r.clear fragment.name.text)
      (hdirective : other.directive = use.directive.rename (r.within fragment.name.text) f) :
      Renamed f r use other

/-- What becomes of the parts of a definition in which variables get new names. -/
def Renaming.change (r : Renaming) (f : String → String) : Change where
  rename := f
  use := DirectiveUse.Renamed f r
  definition := Definition.Corresponds r.correspondence

/-- What becomes of the names of variables in a definition. -/
def Renaming.inside (r : Renaming) : Definition → String → String
  | .fragment f => r.within f.name.text
  | _ => id

/-- The schema names no arguments of the directives that declare and give arguments of fragments. -/
def Schema.LeavesNames (schema : Schema) : Prop :=
  ∀ name, name = argumentDefinitionsName ∨ name = argumentsName →
    (schema.directive? name).map SchemaDirective.parameters = some []

/-- A schema with the Relay directives leaves the names of arguments to the fragments. -/
theorem Schema.leavesNames_withRelayDirectives (schema : Schema) :
    schema.withRelayDirectives.LeavesNames := by
  intro name hname
  rw [Schema.directive?_withRelayDirectives]
  rcases hname with rfl | rfl
  · rfl
  · rfl

section Directives

variable {schema : Schema} {f g : String → String} {r : Renaming}

/-- Arguments with new names of variables keep their own names, or these do not matter. -/
theorem changed_arguments {anyName : Prop} (hnames : g = id ∨ anyName)
    (arguments : List Argument) :
    List.Forall₂ (Argument.Changed f anyName) arguments
      (arguments.map (Argument.rename g f)) := by
  rw [List.forall₂_map_right_iff, List.forall₂_same]
  intro argument _
  refine ⟨hnames.imp_left ?_, .renamed _⟩
  rintro rfl
  rfl

/-- A directive becomes another that is walked in the same way if the schema does not care for the
names of arguments that change. -/
theorem changedIn_rename {use other : DirectiveUse} (h : use.Renamed f r other)
    (hdirective : other.directive = use.directive.rename g f)
    (hnames : g = id ∨
      (schema.directive? use.directive.name.text).map SchemaDirective.parameters = some []) :
    use.ChangedIn schema (r.change f) other := by
  refine ⟨h, by rw [hdirective]; rfl, ?_⟩
  rw [hdirective]
  exact changed_arguments hnames _

/-- A directive stays as it is if names are kept. -/
theorem Directive.rename_id (directive : Directive) : directive.rename id id = directive := by
  have hargument : Argument.rename id id = id := by
    funext argument
    rw [Argument.rename, Name.rename_id, Value.renameVariables_id]
    rfl
  rw [Directive.rename, hargument, List.map_id]

/-- Directives stay as they are if names are kept. -/
theorem map_rename_id (directives : List Directive) :
    directives.map (Directive.rename id id) = directives :=
  List.map_id'' Directive.rename_id directives

/-- Directives here neither give arguments to a fragment nor declare those of one. -/
def Carrier.IsPlain (carrier : Carrier) : Prop :=
  ∀ index directive, DirectiveUse.spread? ⟨carrier, index, directive⟩ = none ∧
    DirectiveUse.declaringFragment? ⟨carrier, index, directive⟩ = none

namespace Carrier.IsPlain

theorem operation (operation : Operation) : (Carrier.operation operation).IsPlain :=
  fun _ _ => ⟨rfl, rfl⟩

theorem variableDefinition (declared : VariableDefinition) :
    (Carrier.variableDefinition declared).IsPlain :=
  fun _ _ => ⟨rfl, rfl⟩

theorem field (field : Field) : (Carrier.field field).IsPlain :=
  fun _ _ => ⟨rfl, rfl⟩

theorem inlineFragment (fragment : InlineFragment) : (Carrier.inlineFragment fragment).IsPlain :=
  fun _ _ => ⟨rfl, rfl⟩

end Carrier.IsPlain

/-- Directives on anything but spreads and fragments have new names of variables. -/
theorem uses_changedIn_map {carrier carrier' : Carrier} (hplain : carrier.IsPlain)
    (hplain' : carrier'.IsPlain) (directives : List Directive) :
    List.Forall₂ (DirectiveUse.ChangedIn schema (r.change f)) (carrier.uses directives)
      (carrier'.uses (directives.map (Directive.rename id f))) := by
  refine Carrier.rel_uses (R := fun directive given => given = directive.rename id f) ?_ ?_
  · rintro index directive _ rfl
    obtain ⟨hspread, hfragment⟩ := hplain index directive
    obtain ⟨hspread', hfragment'⟩ := hplain' index (directive.rename id f)
    exact changedIn_rename (.plain ⟨hspread, hspread'⟩ ⟨hfragment, hfragment'⟩ rfl) rfl
      (Or.inl rfl)
  · exact List.forall₂_map_right_iff.mpr (List.forall₂_same.mpr fun _ _ => rfl)

/-- Directives on anything but spreads and fragments stay as they are if names are kept. -/
theorem uses_changedIn_self {carrier carrier' : Carrier} (hplain : carrier.IsPlain)
    (hplain' : carrier'.IsPlain) (directives : List Directive) :
    List.Forall₂ (DirectiveUse.ChangedIn schema (r.change id)) (carrier.uses directives)
      (carrier'.uses directives) := by
  have huses : List.Forall₂ (DirectiveUse.ChangedIn schema (r.change id)) _
      (carrier'.uses (directives.map (Directive.rename id id))) :=
    uses_changedIn_map hplain hplain' directives
  rwa [map_rename_id] at huses

/-- Directives on a spread have new names of variables and of arguments that are given. -/
theorem uses_changedIn_spread (hschema : schema.LeavesNames) {spread : Spread}
    (h : spread.Suits r) :
    List.Forall₂ (DirectiveUse.ChangedIn schema (r.change f))
      ((Carrier.spread spread).uses spread.directives)
      ((Carrier.spread (spread.rename f r)).uses (spread.rename f r).directives) := by
  refine Carrier.rel_uses (R := fun directive given => directive ∈ spread.directives ∧
    given = directive.renameGiven (r.within spread.name.text) f) ?_ ?_
  · rintro index directive _ ⟨hdirective, rfl⟩
    have hchanged : DirectiveUse.Renamed f r ⟨.spread spread, index, directive⟩ _ :=
      .onSpread spread index (h directive hdirective)
    by_cases hname : directive.name.text = argumentsName
    · exact changedIn_rename hchanged (if_pos hname) (Or.inr (hschema _ (Or.inr hname)))
    · exact changedIn_rename hchanged (if_neg hname) (Or.inl rfl)
  · exact List.forall₂_map_right_iff.mpr
      (List.forall₂_same.mpr fun _ hdirective => ⟨hdirective, rfl⟩)

/-- The directives of a fragment keep their names. -/
theorem names_renameDeclaring (directives : List Directive) :
    (renameDeclaring g f directives).map Directive.name = directives.map Directive.name := by
  induction directives with
  | nil => rfl
  | cons directive rest ih =>
    rw [renameDeclaring]
    split
    · rw [List.map_cons, List.map_map]
      rfl
    · rw [List.map_cons, List.map_cons, ih]
      rfl

/-- The same directive of a fragment declares its arguments. -/
theorem findIdx?_renameDeclaring (directives : List Directive) :
    ((renameDeclaring g f directives).findIdx? fun directive =>
      directive.name.text == argumentDefinitionsName) =
        directives.findIdx? fun directive => directive.name.text == argumentDefinitionsName := by
  have hnames (directives : List Directive) :
      (directives.findIdx? fun directive => directive.name.text == argumentDefinitionsName) =
        (directives.map Directive.name).findIdx? fun name =>
          name.text == argumentDefinitionsName := by
    rw [List.findIdx?_map]
    rfl
  rw [hnames, hnames, names_renameDeclaring]

/-- Whether a directive declares arguments if it is on a fragment. -/
def Directive.declares (directive : Directive) : Bool :=
  directive.name.text == argumentDefinitionsName

/-- What becomes of a directive on a fragment with the given directives, where the number is that of
the directives before it. -/
inductive DeclaringAt (g f : String → String) (directives : List Directive) :
    Directive × Nat → Directive × Nat → Prop
  | first {directive : Directive} {index : Nat}
      (hfind : directives.find? Directive.declares = some directive)
      (hindex : directives.findIdx? Directive.declares = some index) :
      DeclaringAt g f directives (directive, index) (directive.rename g f, index)
  | other {directive : Directive} {index : Nat}
      (hindex : directives.findIdx? Directive.declares ≠ some index) :
      DeclaringAt g f directives (directive, index) (directive.rename id f, index)

/-- What becomes of the directives on a fragment from some number on, if none of those before
declares arguments. -/
theorem rel_zipIdx_renameDeclaring (all : List Directive) :
    ∀ (directives : List Directive) (first : Nat),
      all.find? Directive.declares = directives.find? Directive.declares →
      all.findIdx? Directive.declares =
        (directives.findIdx? Directive.declares).map (· + first) →
      List.Forall₂ (DeclaringAt g f all) (directives.zipIdx first)
        ((renameDeclaring g f directives).zipIdx first)
  | [], first, hfind, hindex => .nil
  | directive :: rest, first, hfind, hindex => by
    rw [List.find?_cons] at hfind
    rw [List.findIdx?_cons] at hindex
    rw [renameDeclaring]
    split
    next hname =>
      have hdeclares : directive.declares = true := beq_iff_eq.mpr hname
      simp only [hdeclares, if_true, Option.map_some, Nat.zero_add] at hfind hindex
      refine .cons (.first hfind hindex) ?_
      -- the others come later, so that none of them is the first one
      rw [List.zipIdx_map, List.forall₂_map_right_iff, List.forall₂_same]
      intro item hitem
      have hlater := List.le_snd_of_mem_zipIdx hitem
      refine .other fun hsame => ?_
      rw [hindex, Option.some_inj] at hsame
      omega
    next hname =>
      have hdeclares : directive.declares = false := beq_false_of_ne hname
      simp only [hdeclares, Bool.false_eq_true, if_false, Option.map_map] at hfind hindex
      -- the first one is among the others, which are counted from the next number
      have hlater : all.findIdx? Directive.declares =
          (rest.findIdx? Directive.declares).map (· + (first + 1)) := by
        have hnumber : (· + first) ∘ (· + 1) = fun index : Nat => index + (first + 1) := by
          funext index
          rw [Function.comp_apply]
          omega
        rw [hindex, hnumber]
      refine .cons (.other fun hsame => ?_)
        (rel_zipIdx_renameDeclaring all rest (first + 1) hfind hlater)
      obtain ⟨index, -, hsame⟩ := Option.map_eq_some_iff.mp (hlater ▸ hsame)
      omega

/-- Directives on a fragment have new names of variables, and those of the arguments that the
fragment declares. -/
theorem uses_changedIn_fragment (hschema : schema.LeavesNames) {fragment : Fragment}
    (h : fragment.Suits r) :
    List.Forall₂ (DirectiveUse.ChangedIn schema (r.change (r.within fragment.name.text)))
      ((Carrier.fragment fragment).uses fragment.directives)
      ((Carrier.fragment (fragment.rename r)).uses (fragment.rename r).directives) := by
  have hdeclaring (index : Nat) (directive given : Directive) :
      DirectiveUse.declaringFragment? ⟨.fragment fragment, index, directive⟩ =
          (if fragment.directives.findIdx? Directive.declares == some index then some fragment
            else none) ∧
        DirectiveUse.declaringFragment? ⟨.fragment (fragment.rename r), index, given⟩ =
          if fragment.directives.findIdx? Directive.declares == some index then
            some (fragment.rename r)
          else none := by
    refine ⟨rfl, ?_⟩
    rw [DirectiveUse.declaringFragment?]
    dsimp only
    rw [Fragment.rename, findIdx?_renameDeclaring]
    rfl
  have hindex : fragment.directives.findIdx? Directive.declares =
      (fragment.directives.findIdx? Directive.declares).map (· + 0) := by
    cases fragment.directives.findIdx? Directive.declares <;> rfl
  refine List.rel_map (fun item other hitem => ?_)
    (rel_zipIdx_renameDeclaring _ _ _ rfl hindex)
  cases hitem with
  | @first directive index hfind hindex =>
    -- only this directive declares arguments, and their names change with those of their uses
    have hname := List.find?_some hfind
    rw [Directive.declares, beq_iff_eq] at hname
    have hboth := hdeclaring index directive
      (directive.rename (r.within fragment.name.text) (r.within fragment.name.text))
    simp only [hindex, beq_self_eq_true, if_true] at hboth
    refine changedIn_rename (.declaring h ⟨rfl, rfl⟩ hboth hname ?_ rfl) rfl
      (Or.inr (hschema _ (Or.inl hname)))
    intro argument hargument
    refine h.declared argument ?_
    have hdeclares : fragment.declaringArguments? = some _ := congrArg (Option.map _) hfind
    rwa [hdeclares]
  | @other directive index hindex =>
    have hneither := hdeclaring index directive
      (directive.rename id (r.within fragment.name.text))
    simp only [beq_false_of_ne hindex, Bool.false_eq_true, if_false] at hneither
    exact changedIn_rename (.plain ⟨rfl, rfl⟩ hneither rfl) rfl (Or.inl rfl)

end Directives

/-! ## Selections and definitions -/

section Definitions

variable {schema : Schema} {r : Renaming}

/-- The walk of selections with new names of variables and of the argument on spreads. -/
theorem walkChanged_selections (hschema : schema.LeavesNames) {f : String → String} :
    ∀ (selections : List Selection) {scope : Scope},
      (∀ spread ∈ spreadsOf selections, spread.Suits r) →
        WalkChanged (r.change f) (selectionEvents schema scope selections)
          (selectionEvents schema scope (renameSelections f r selections))
  | [], scope, hspreads => by
    rw [renameSelections, selectionEvents]
    exact .nil
  | .field field nested :: rest, scope, hspreads => by
    obtain ⟨hinner, hlater⟩ := forall_spreadsOf_cons_field.mp hspreads
    rw [renameSelections, Selection.rename, selectionEvents, selectionEvents, Selection.events,
      Selection.events]
    refine .append (.around_silent rfl rfl
      (.append (.append ?_ ?_) ?_)) (walkChanged_selections hschema rest hlater)
    · exact walkChanged_arguments (.refl _) False.elim (changed_arguments (Or.inl rfl) _)
    · exact walkChanged_directives (uses_changedIn_map (.field _) (.field _) _) (.refl _)
    · exact walkChanged_selections hschema nested hinner
  | .spread spread :: rest, scope, hspreads => by
    obtain ⟨hhere, hlater⟩ := forall_spreadsOf_cons_spread.mp hspreads
    rw [renameSelections, Selection.rename, selectionEvents, selectionEvents, Selection.events,
      Selection.events]
    refine .append (.around_silent rfl rfl ?_)
      (walkChanged_selections hschema rest hlater)
    exact walkChanged_directives (uses_changedIn_spread hschema hhere) (.refl _)
  | .inlineFragment fragment nested :: rest, scope, hspreads => by
    obtain ⟨hinner, hlater⟩ := forall_spreadsOf_cons_inlineFragment.mp hspreads
    rw [renameSelections, Selection.rename, selectionEvents, selectionEvents, Selection.events,
      Selection.events]
    refine .append (.around_silent rfl rfl
      (.append (.append ?_ ?_) ?_)) (walkChanged_selections hschema rest hlater)
    · exact walkChanged_typeNames _ _
    · exact walkChanged_directives
        (uses_changedIn_map (.inlineFragment _) (.inlineFragment _) _) (.refl _)
    · exact walkChanged_selections hschema nested hinner

/-- The walk of a definition in a type system is the same. -/
theorem walkChanged_typeSystem {definition : Definition}
    (htypeSystem : definition.isTypeSystem = true) :
    WalkChanged (r.change id) (definition.events schema) (definition.events schema) := by
  -- there are no spreads, so that no directive is on one
  have hnone : ∀ name, SpreadIn name definition.selections → False := by
    intro name hspread
    cases definition with
    | operation | fragment => cases htypeSystem
    | schema | schemaExtension | type | typeExtension | directive => cases hspread
  obtain ⟨scope, parts, hevents, hparts⟩ :=
    definition.events_eq_around (.onAdmitted schema fun _ => False) hnone
  rw [hevents]
  refine .around (.enterDefinition (Definition.Corresponds.typeSystem htypeSystem) _ _) ?_
  refine List.forall₂_same.mpr fun event hevent => .refl rfl ?_ ?_
  · intro use huse
    refine .same use ?_
    have hinside := (hparts event hevent).use_eq use (Event.node_of_directive? huse)
    rw [DirectiveUse.spread?]
    split
    next spread hcarrier => exact ((hparts event hevent).scope use spread hinside hcarrier).elim
    next => rfl
  · intro other hother
    have hinner := (hparts event hevent).isInner
    rw [hother] at hinner
    cases hinner

/-- The walk of an operation, a fragment or a part of a type system in which the argument has its
new name. -/
theorem walkChanged_definition_of_renamed (hschema : schema.LeavesNames)
    {definition other : Definition} (h : definition.Corresponds r.correspondence other) :
    WalkChanged (r.change (r.inside definition)) (definition.events schema)
      (other.events schema) := by
  have henter (scope scope' : Scope) : Event.Changed (r.change (r.inside definition))
      (.enter ⟨.definition definition, scope⟩) (.enter ⟨.definition other, scope'⟩) :=
    .enterDefinition h scope scope'
  cases h with
  | typeSystem htypeSystem =>
    -- variables in a type system have no new names
    have hinside : r.inside definition = id := by
      cases definition with
      | operation | fragment => cases htypeSystem
      | schema | schemaExtension | type | typeExtension | directive => rfl
    rw [hinside]
    exact walkChanged_typeSystem htypeSystem
  | operation hoperation =>
    cases hoperation with
    | mk hspreads =>
      refine .around (henter _ _)
        (.append (.append ?_ ?_) (walkChanged_selections hschema _ hspreads))
      · refine List.rel_flatMap (List.forall₂_same.mpr fun _ _ => rfl) ?_
        rintro declared _ rfl
        refine walkChanged_variableDefinition rfl declared declared.type ?_ _
        exact uses_changedIn_self (.variableDefinition _) (.variableDefinition _) _
      · exact walkChanged_directives (uses_changedIn_self (.operation _) (.operation _) _) (.refl _)
  | fragment hfragment =>
    cases hfragment with
    | mk hsuits =>
      refine .around (henter _ _) (.append (.append (walkChanged_typeNames _ _) ?_)
        (walkChanged_selections hschema _ hsuits.spreads))
      exact walkChanged_directives (uses_changedIn_fragment hschema hsuits) (.refl _)

/-- The walk of a document in which the argument has its new name, event by event. -/
theorem rel_events_of_renamed (hschema : schema.LeavesNames) {document other : Document}
    (h : List.Forall₂ (Definition.Corresponds r.correspondence) document.definitions
      other.definitions) :
    List.Forall₂ (fun event event' : Event => ∃ f, event.Changed (r.change f) event')
      (document.events schema) (other.events schema) := by
  have henter : Event.Changed (r.change id) (.enter ⟨.document document, {}⟩)
      (.enter ⟨.document other, {}⟩) := ⟨fun _ => rfl, .none, .none, .none, rfl⟩
  refine .cons ⟨id, henter⟩ (List.rel_append ?_ (.cons ⟨id, henter.leave⟩ .nil))
  refine List.rel_flatMap h fun definition definition' hdefinition => ?_
  exact (walkChanged_definition_of_renamed hschema hdefinition).imp fun _ _ hevent => ⟨_, hevent⟩

end Definitions

end RelayCheck
