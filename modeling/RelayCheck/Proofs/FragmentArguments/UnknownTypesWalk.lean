import RelayCheck.FragmentArguments.Bindings
import RelayCheck.Proofs.FragmentArguments.ChangedWalk
import RelayCheck.Proofs.FragmentArguments.UnknownTypes

/-!
# The walk of a document with unknown types

Where the types of variables and fragment arguments are obscured, the walk of a document meets the
same things as before, but for the declarations themselves and for what the directives next to them
are applied to. The variables outside of declarations are the same, at the same positions of the
schema. What a fragment expects of a value that it is given may become unknown.

The module introduces:

- `DirectiveUse.Obscured`, what becomes of a directive, and `obscuringChange`, what becomes of the
  parts of a document;
- `Usage.Obscured` and `GovernedUsage.Obscured`, what becomes of a use.

The main results are `walkChanged_document_of_obscured`, `rel_usages` and `rel_operationUsages`.
-/

namespace RelayCheck

/-! ## Directives -/

/-- A directive where it is applied. If it is not the same as before, it is not on a spread. -/
inductive DirectiveUse.Obscured (schema : Schema) : DirectiveUse → DirectiveUse → Prop
  | same (use : DirectiveUse) : Obscured schema use use
  | declaring {use other : DirectiveUse} (hspread : use.spread? = none)
      (hother : other.spread? = none)
      (hfragment : Option.Rel (Fragment.Obscured schema) use.declaringFragment?
        other.declaringFragment?)
      (hdirective : use.directive.Obscured schema other.directive) : Obscured schema use other

/-- What becomes of the parts of a document whose types are obscured. -/
def obscuringChange (schema : Schema) : Change where
  rename := id
  use := DirectiveUse.Obscured schema
  definition := Definition.Corresponds (obscuring schema)

section Walks

variable {schema : Schema}

/-- Nothing has to be obscured in a definition. -/
theorem Definition.corresponds_obscuring_refl (definition : Definition) :
    definition.Corresponds (obscuring schema) definition := by
  cases definition with
  | operation operation =>
    exact .operation (.mk operation (List.forall₂_same.mpr fun declared _ => .same declared))
  | fragment fragment =>
    exact .fragment (.mk fragment (List.forall₂_same.mpr fun directive _ => .same directive))
  | schema | schemaExtension | type | typeExtension | directive => exact .typeSystem rfl

/-- A walk in which nothing is obscured. -/
theorem walkChanged_refl_of_obscuring (events : List Event) :
    WalkChanged (obscuringChange schema) events events :=
  .refl rfl DirectiveUse.Obscured.same Definition.corresponds_obscuring_refl events

/-- Obscuring a type changes what a string contains, and nothing else. -/
theorem Argument.Obscured.changed {argument given : Argument}
    (h : argument.Obscured schema given) (anyName : Prop) :
    argument.Changed id anyName given := by
  cases h with
  | same => exact ⟨Or.inl rfl, .refl _⟩
  | object hfields =>
    refine ⟨Or.inl rfl, .object (hfields.imp fun field other hfield => ?_)⟩
    cases hfield with
    | same => exact .refl field
    | type => exact .restated _ _ _ _ _ _

/-- Where directives are obscured, so are they where they are applied. -/
theorem uses_changedIn_of_obscured {carrier carrier' : Carrier}
    (hcarrier : ∀ index {directive given : Directive}, directive.Obscured schema given →
      (DirectiveUse.mk carrier index directive).Obscured schema ⟨carrier', index, given⟩)
    {directives others : List Directive}
    (h : List.Forall₂ (Directive.Obscured schema) directives others) :
    List.Forall₂ (DirectiveUse.ChangedIn schema (obscuringChange schema))
      (carrier.uses directives) (carrier'.uses others) := by
  refine Carrier.rel_uses (fun index directive given hdirective => ?_) h
  refine ⟨hcarrier index hdirective, hdirective.name_eq, ?_⟩
  exact hdirective.arguments.imp fun _ _ hargument => hargument.changed _

/-! ## Walks of definitions -/

/-- The walk of the declaration of a variable is as before, apart from its type. -/
theorem VariableDefinition.Obscured.walkChanged {declared given : VariableDefinition}
    (h : declared.Obscured schema given) (scope : Scope) :
    WalkChanged (obscuringChange schema) (declared.events schema scope)
      (given.events schema scope) := by
  cases h with
  | same => exact walkChanged_refl_of_obscuring _
  | @type type hunknown =>
    refine walkChanged_variableDefinition rfl declared type ?_ scope
    exact uses_changedIn_of_obscured (fun _ _ _ hdirective => .declaring rfl rfl .none hdirective)
      (List.forall₂_same.mpr fun directive _ => .same directive)

/-- On a fragment, the same directive declares arguments. -/
theorem Fragment.Obscured.declaringFragment? {fragment obscured : Fragment}
    (h : fragment.Obscured schema obscured) (index : Nat) (directive given : Directive) :
    Option.Rel (Fragment.Obscured schema)
      (DirectiveUse.declaringFragment? ⟨.fragment fragment, index, directive⟩)
      (DirectiveUse.declaringFragment? ⟨.fragment obscured, index, given⟩) := by
  -- names of directives stay, so that the first one that declares is at the same index
  have hindex : (obscured.directives.findIdx? fun directive =>
      directive.name.text == argumentDefinitionsName) =
        fragment.directives.findIdx? fun directive =>
          directive.name.text == argumentDefinitionsName := by
    cases h with
    | @mk directives hdirectives =>
      generalize fragment.directives = before at hdirectives ⊢
      induction hdirectives with
      | nil => rfl
      | cons hdirective _ ih => rw [List.findIdx?_cons, List.findIdx?_cons, hdirective.name_eq, ih]
  rw [DirectiveUse.declaringFragment?, DirectiveUse.declaringFragment?]
  dsimp only
  rw [hindex]
  split
  · exact .some h
  · exact .none

/-- The walk of a definition is as before, apart from the types that are obscured. -/
theorem walkChanged_definition_of_obscured {definition obscured : Definition}
    (h : definition.Corresponds (obscuring schema) obscured) :
    WalkChanged (obscuringChange schema) (definition.events schema) (obscured.events schema) := by
  have henter (scope scope' : Scope) : Event.Changed (obscuringChange schema)
      (.enter ⟨.definition definition, scope⟩) (.enter ⟨.definition obscured, scope'⟩) :=
    .enterDefinition h scope scope'
  cases h with
  | typeSystem => exact walkChanged_refl_of_obscuring _
  | operation hoperation =>
    cases hoperation with
    | mk hdeclared =>
      refine .around (henter _ _) (.append (.append ?_ ?_) (walkChanged_refl_of_obscuring _))
      · exact List.rel_flatMap hdeclared fun _ _ hvariable => hvariable.walkChanged _
      · refine walkChanged_directives (uses_changedIn_of_obscured (fun _ _ _ hdirective => ?_)
          (List.forall₂_same.mpr fun directive _ => .same directive)) (.refl _)
        exact .declaring rfl rfl .none hdirective
  | fragment hfragment =>
    -- the directive that declares is told by its name, which has not changed
    have hdeclaring := hfragment.declaringFragment?
    cases hfragment with
    | mk hdirectives =>
      refine .around (henter _ _) (.append (.append (walkChanged_refl_of_obscuring _) ?_)
        (walkChanged_refl_of_obscuring _))
      refine walkChanged_directives (uses_changedIn_of_obscured (fun index _ _ hdirective => ?_)
        hdirectives) (.refl _)
      exact .declaring rfl rfl (hdeclaring index _ _) hdirective

/-- The walk of a document is as before, apart from the types that are obscured. -/
theorem walkChanged_document_of_obscured {document obscured : Document}
    (h : document.Obscured schema obscured) :
    WalkChanged (obscuringChange schema) (document.events schema) (obscured.events schema) := by
  refine .around_silent rfl rfl ?_
  exact List.rel_flatMap h fun _ _ hdefinition => walkChanged_definition_of_obscured hdefinition

end Walks

/-! ## Variables -/

section Variables

variable {schema : Schema}

/-- The variables in the fields of an object are the same. -/
theorem MetadataField.Obscured.fieldVariables_eq {fields others : List (Name × Value)}
    (h : List.Forall₂ (MetadataField.Obscured schema) fields others) :
    Value.fieldVariables others = Value.fieldVariables fields := by
  induction h with
  | nil => rfl
  | cons hfield _ ih =>
    cases hfield with
    | same => rw [Value.fieldVariables, Value.fieldVariables, ih]
    | type => rw [Value.fieldVariables, Value.fieldVariables, Value.mentions, Value.mentions, ih]

/-- The variables in the value of an argument are the same. -/
theorem Argument.Obscured.mentions_eq {argument obscured : Argument}
    (h : argument.Obscured schema obscured) :
    obscured.value.mentions = argument.value.mentions := by
  cases h with
  | same => rfl
  | object hfields =>
    rw [Value.mentions, Value.mentions, MetadataField.Obscured.fieldVariables_eq hfields]

/-- The variables in a directive that is on no spread have the same roles. -/
theorem Directive.Obscured.roles_eq {directive obscured : Directive}
    (h : directive.Obscured schema obscured) : obscured.roles none = directive.roles none := by
  have hvariables : argumentVariables obscured.arguments =
      argumentVariables directive.arguments := by
    have harguments := h.arguments
    rw [argumentVariables, argumentVariables]
    generalize directive.arguments = arguments at harguments ⊢
    generalize obscured.arguments = others at harguments ⊢
    induction harguments with
    | nil => rfl
    | cons hargument _ ih => rw [List.flatMap_cons, List.flatMap_cons, hargument.mentions_eq, ih]
  rw [Directive.roles, Directive.roles, h.name_eq, hvariables]

/-- The variables that a definition uses have the same roles. -/
theorem Definition.Corresponds.roles_eq {definition obscured : Definition}
    (h : definition.Corresponds (obscuring schema) obscured) :
    obscured.roles = definition.roles := by
  cases h with
  | typeSystem => rfl
  | operation hoperation =>
    cases hoperation with
    | mk => rfl
  | fragment hfragment =>
    cases hfragment with
    | @mk directives hdirectives =>
      refine congrArg (· ++ _) ?_
      generalize Fragment.directives _ = before at hdirectives ⊢
      induction hdirectives with
      | nil => rfl
      | cons hdirective _ ih => rw [List.flatMap_cons, List.flatMap_cons, hdirective.roles_eq, ih]

/-- The plain uses in a definition are the same. -/
theorem Definition.Corresponds.plainUsages_eq {definition obscured : Definition}
    (h : definition.Corresponds (obscuring schema) obscured) (fragment : Option String) :
    obscured.plainUsages schema fragment = definition.plainUsages schema fragment := by
  exact ((walkChanged_definition_of_obscured h).plainUsages_eq fragment).trans (List.map_id _)

end Variables

/-! ## Uses -/

/-- A use that stays as it is as long as the expected type is known. -/
structure Usage.Obscured (usage obscured : Usage) : Prop where
  name_eq : obscured.name = usage.name
  pos_eq : obscured.pos = usage.pos
  fragment_eq : obscured.fragment = usage.fragment
  eq_of_known : obscured.type.isSome = true → obscured = usage

/-- A governed use that may be obscured, in itself or in what governs it. -/
structure GovernedUsage.Obscured (governed obscured : GovernedUsage) : Prop where
  usage : governed.usage.Obscured obscured.usage
  governor : Option.Rel (fun governor other =>
    Declaration.Obscured governor.1 other.1 ∧ other.2 = governor.2) governed.governor
      obscured.governor

/-- A use is as it was if nothing about it changed. -/
theorem Usage.Obscured.refl (usage : Usage) : usage.Obscured usage :=
  ⟨rfl, rfl, rfl, fun _ => rfl⟩

/-- What governs a use is as before, or obscured. -/
theorem Usage.Obscured.govern {usage obscured : Usage} (h : usage.Obscured obscured)
    {own own' enclosing enclosing' : Declarations} (hown : own.Obscured own')
    (henclosing : enclosing.Obscured enclosing') :
    (RelayCheck.govern own enclosing usage).Obscured
      (RelayCheck.govern own' enclosing' obscured) := by
  rw [RelayCheck.govern, RelayCheck.govern, h.name_eq]
  rcases exists_of_rel_option (hown.get? usage.name) with
    ⟨hbefore, hafter⟩ | ⟨_, _, hbefore, hafter, hdeclaration⟩
  · rw [hbefore, hafter]
    refine ⟨h, ?_⟩
    rcases exists_of_rel_option (henclosing.get? usage.name) with
      ⟨hbefore, hafter⟩ | ⟨_, _, hbefore, hafter, hdeclaration⟩
    · rw [hbefore, hafter]
      exact .none
    · rw [hbefore, hafter]
      exact .some ⟨hdeclaration, rfl⟩
  · rw [hbefore, hafter]
    exact ⟨h, .some ⟨hdeclaration, rfl⟩⟩

namespace Context

variable {context other : Context}
  (h : context.Corresponds (obscuring context.schema) other)

include h

/-- Fragment arguments make the same of a use, or something obscured. -/
theorem rel_change (role : Role) (usage : Usage) :
    Option.Rel Usage.Obscured (context.change role usage) (other.change role usage) := by
  cases role with
  | plain => exact .some (.refl usage)
  | misplaced => exact .none
  | «whole» spread argument =>
    rw [change, change]
    rcases exists_of_rel_option (h.fragment? spread.name.text) with
      ⟨hbefore, hafter⟩ | ⟨fragment, obscured, hbefore, hafter, hfragment⟩
    · rw [hbefore, hafter]
      exact .none
    · rw [hbefore, hafter]
      refine .some ⟨rfl, rfl, rfl, fun hknown => ?_⟩
      -- an argument whose type is still known is declared as before
      dsimp only at hknown ⊢
      rw [h.schema_eq] at hknown ⊢
      rcases exists_of_rel_option (hfragment.declarations.get? argument) with
        ⟨hdeclared, hdeclared'⟩ | ⟨declaration, declaration', hdeclared, hdeclared', hdeclaration⟩
      · rw [hdeclared, hdeclared']
      · rw [hdeclared'] at hknown
        rw [hdeclared, hdeclared', hdeclaration.eq_of_known hknown]
  | part spread =>
    rw [change, change]
    rcases exists_of_rel_option (h.fragment? spread.name.text) with
      ⟨hbefore, hafter⟩ | ⟨fragment, obscured, hbefore, hafter, -⟩
    · rw [hbefore, hafter]
      exact .none
    · rw [hbefore, hafter]
      exact .some (.refl _)

/-- The uses in an operation or fragment are as before, or obscured. -/
theorem rel_usages {definition obscured : Definition}
    (hdefinition : definition.Corresponds (obscuring context.schema) obscured)
    (hexecutable : definition.isTypeSystem = false) (fragment : Option String) :
    List.Forall₂ Usage.Obscured (context.usages fragment definition)
      (other.usages fragment obscured) := by
  have hexecutable' : obscured.isTypeSystem = false := by
    cases hdefinition with
    | operation | fragment => rfl
    | typeSystem htypeSystem => exact hexecutable
  rw [usages_eq_filterMap_change hexecutable, usages_eq_filterMap_change hexecutable',
    h.schema_eq, hdefinition.roles_eq, hdefinition.plainUsages_eq]
  refine List.rel_filterMap (fun pair _ hpair => ?_) (List.forall₂_same.mpr fun _ _ => rfl)
  subst hpair
  exact rel_change h pair.1 pair.2

/-- The uses in a fragment are as before, or obscured, if the enclosing declarations are. -/
theorem rel_fragmentUsages {fragment obscured : Fragment}
    (hfragment : fragment.Obscured context.schema obscured) {enclosing enclosing' : Declarations}
    (henclosing : enclosing.Obscured enclosing') :
    List.Forall₂ GovernedUsage.Obscured (context.fragmentUsages fragment enclosing)
      (other.fragmentUsages obscured enclosing') := by
  have hname := (obscuring context.schema).fragment_name hfragment
  rw [fragmentUsages, fragmentUsages, h.schema_eq, hname]
  exact List.rel_map (fun _ _ husage => husage.govern hfragment.declarations henclosing)
    (rel_usages h (.fragment hfragment) rfl _)

/-- The uses of an operation are as before, or obscured. -/
theorem rel_operationUsages {operation obscured : Operation}
    (hoperation : operation.Obscured context.schema obscured) :
    List.Forall₂ GovernedUsage.Obscured (context.operationUsages operation)
      (other.operationUsages obscured) := by
  have hdeclared := hoperation.declarations
  rw [operationUsages, operationUsages, h.schema_eq]
  refine List.rel_append ?_ (List.rel_flatMap (h.reached hoperation) ?_)
  · exact List.rel_map (fun _ _ husage => husage.govern hdeclared hdeclared)
      (rel_usages h (.operation hoperation) rfl _)
  · exact fun _ _ hfragment => rel_fragmentUsages h hfragment hdeclared

end Context

end RelayCheck
