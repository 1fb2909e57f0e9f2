import RelayCheck.Proofs.FragmentArguments.RenamingUsages

/-!
# Directives with a renamed argument

If an argument of a fragment gets another name, the same is wrong with the directives that declare
and give arguments. Where a problem is about the argument, it is now told by the new name.

The module introduces:

- `RelayProblem.rename` and `Finding.rename`, a problem and a finding about an argument by another
  name;
- `Finding.Renamed`, findings that are the same up to the name of the argument.

The main results are `rel_directiveFindings`, `rel_givenFindings`, `rel_declaredFindings` and
`rel_unusedFindings`.
-/

namespace RelayCheck

/-! ## Findings -/

/-- The problem with another name of the argument that it is about, or of the variable that stands
for the argument. -/
def RelayProblem.rename (f : String → String) : RelayProblem → RelayProblem
  | .missingArgument argument => .missingArgument (f argument)
  | .unknownArgument argument similar => .unknownArgument (f argument) similar
  | .badPosition name type expected => .badPosition (f name) type expected
  | .badArgumentValue argument fragment type => .badArgumentValue (f argument) fragment type
  | .badDefault argument fragment type => .badDefault (f argument) fragment type
  | .nullDefault argument fragment => .nullDefault (f argument) fragment
  | .unusedArgument argument fragment => .unusedArgument (f argument) fragment
  | problem => problem

/-- The finding with another name of the argument that it is about, at the same places. -/
def Finding.rename (f : String → String) : Finding → Finding
  | .error ⟨.relay problem, places⟩ => .relay (problem.rename f) places
  | .error diagnostic => .error diagnostic
  | .warning ⟨kind, argument, fragment⟩ => .warning ⟨kind, f argument, fragment⟩

/-- Findings that are the same up to the name of the argument. -/
inductive Finding.Renamed (r : Renaming) : Finding → Finding → Prop
  | same (finding : Finding) : Renamed r finding finding
  | renamed (finding : Finding) : Renamed r finding (finding.rename r.apply)

/-- Findings that are the same one by one, up to the name of the argument. -/
abbrev SameButName (r : Renaming) : List Finding → List Finding → Prop :=
  List.Forall₂ (Finding.Renamed r)

section Findings

variable {r : Renaming}

/-- If names are kept, findings are the same. -/
@[simp]
theorem Finding.rename_id (finding : Finding) : finding.rename id = finding := by
  cases finding with
  | warning warning => rfl
  | error diagnostic =>
    obtain ⟨problem, places⟩ := diagnostic
    cases problem with
    | relay problem => cases problem <;> rfl
    | language | supplied | tooMany | aborted => rfl

/-- A finding about a fragment has the new name if it is about the argument. -/
theorem Finding.renamed_within (finding : Finding) (fragment : String) :
    finding.Renamed r (finding.rename (r.within fragment)) := by
  rw [Renaming.within]
  split
  · exact .renamed finding
  · rw [rename_id]
    exact .same finding

/-- Findings are the same as themselves. -/
theorem SameButName.refl (found : List Finding) : SameButName r found found :=
  List.forall₂_same.mpr fun finding _ => .same finding

end Findings

/-! ## Arguments -/

/-- An argument that the fragment called `fragment` declares or is given, and the same argument by
its new name. -/
structure Argument.Renamed (f : String → String) (r : Renaming) (fragment : String)
    (argument other : Argument) : Prop where
  mem : argument.name.text ∈ r.clear fragment
  eq_rename : other = argument.rename (r.within fragment) f

section Arguments

variable {f : String → String} {r : Renaming} {fragment : String}

/-- The arguments of a fragment get their new names one by one. -/
theorem rel_arguments {arguments : List Argument}
    (h : ∀ argument ∈ arguments, argument.name.text ∈ r.clear fragment) :
    List.Forall₂ (Argument.Renamed f r fragment) arguments
      (arguments.map (Argument.rename (r.within fragment) f)) :=
  List.forall₂_map_right_iff.mpr
    (List.forall₂_same.mpr fun argument hargument => ⟨h argument hargument, rfl⟩)

/-- A name is among others by their new names exactly if it was among them. -/
theorem contains_map_of_injOn {f : String → String} {clear : Set String} (hf : Set.InjOn f clear)
    {names : List String} (h : ∀ name ∈ names, name ∈ clear) {name : String}
    (hname : name ∈ clear) : (names.map f).contains (f name) = names.contains name := by
  rw [Bool.eq_iff_iff, List.contains_iff_mem, List.contains_iff_mem, List.mem_map]
  constructor
  · rintro ⟨other, hother, hsame⟩
    exact hf (h other hother) hname hsame ▸ hother
  · exact fun hmem => ⟨name, hmem, rfl⟩

end Arguments

/-! ## Declaring directives -/

section Declaring

variable {f g : String → String} {r : Renaming} (schema : Schema)

/-- Names of variables do not matter for what is wrong with a stated type. -/
theorem statedTypeFindings_renameVariables (value : Value) :
    statedTypeFindings schema (value.renameVariables f) = statedTypeFindings schema value := by
  cases value <;> rw [Value.renameVariables] <;> rfl

/-- Names do not matter for what is wrong with the declaration of an argument. -/
theorem declarationFindings_rename (argument : Argument) :
    declarationFindings schema (argument.rename g f) = declarationFindings schema argument := by
  have hpos : (argument.rename g f).value.pos = argument.value.pos :=
    Value.pos_renameVariables argument.value
  rw [declarationFindings, declarationFindings, fields_rename, metadata?_renameFields,
    Option.isNone_map, hpos, Value.renameFields_eq_map, List.flatMap_map]
  dsimp only
  refine congrArg (ite _ _) (List.flatMap_congr fun field _ => ?_)
  simp only [metadataFieldFindings, statedTypeFindings_renameVariables,
    Value.hasVariable_renameVariables, Value.pos_renameVariables]

/-- Names do not matter for what is wrong with a directive that declares arguments. -/
theorem metadataFindings_rename (directive : Directive) :
    metadataFindings schema (directive.rename g f) = metadataFindings schema directive := by
  rw [metadataFindings, metadataFindings, Directive.rename, List.isEmpty_map, List.flatMap_map]
  refine congrArg (ite _ _) (List.flatMap_congr fun argument _ => ?_)
  exact declarationFindings_rename schema argument

/-- The same is wrong with the default of an argument by its new name. -/
theorem rel_defaultFindings (test : LiteralTest) (fragment : String) (argument : Argument) :
    SameButName r (defaultFindings test schema fragment argument)
      (defaultFindings test schema fragment (argument.rename (r.within fragment) f)) := by
  have hdeclaration : (Declaration.ofArgument schema argument).Renamed f
      (Declaration.ofArgument schema (argument.rename (r.within fragment) f)) :=
    argument.declaration_rename schema
  rw [defaultFindings, defaultFindings, hdeclaration.default_eq, hdeclaration.type_eq]
  cases (Declaration.ofArgument schema argument).default with
  | none => exact .nil
  | some value =>
    cases (Declaration.ofArgument schema argument).type with
    | none => exact .nil
    | some type =>
      simp only [Option.map_some, Value.hasVariable_renameVariables, Value.isNull_renameVariables,
        Value.pos_renameVariables]
      cases hvariable : value.hasVariable with
      | true => exact .nil
      | false =>
        -- only defaults without variables are tested, and these stay as they are
        rw [Value.renameVariables_of_constant hvariable]
        split
        · exact .nil
        · split
          · exact .cons (Finding.renamed_within (.relay (.nullDefault _ _) _) fragment) .nil
          · split
            · exact .nil
            · exact .cons (Finding.renamed_within (.relay (.badDefault _ _ _) _) fragment) .nil

/-- The same is wrong with the defaults in a directive. -/
theorem rel_declaredFindings (test : LiteralTest) {use other : DirectiveUse}
    (h : use.Renamed f r other) :
    SameButName r (declaredFindings schema test use) (declaredFindings schema test other) := by
  cases h with
  | same => exact .refl _
  | plain hspread hfragment =>
    rw [declaredFindings, declaredFindings, hfragment.1, hfragment.2]
    exact .nil
  | onSpread => exact .nil
  | @declaring fragment use other hsuits hspread hfragment hname hclear hdirective =>
    rw [declaredFindings, declaredFindings, hfragment.1, hfragment.2, hdirective]
    -- the last declaration of a name stays the last one, since the new name is not taken
    have hnames : Set.InjOn (r.within fragment.name.text) (r.clear fragment.name.text) :=
      Renaming.injOn_within _
    have harguments : List.Forall₂ (Argument.Renamed f r fragment.name.text)
        use.directive.arguments _ := rel_arguments hclear
    refine List.rel_flatMap (rel_lastOfName hnames (fun hargument => ?_) harguments) ?_
    · rw [hargument.eq_rename]
      exact ⟨hargument.mem, rfl⟩
    · intro argument other hargument
      rw [hargument.eq_rename]
      exact rel_defaultFindings schema test fragment.name.text argument

end Declaring

/-! ## Giving directives -/

section Giving

variable {f : String → String} {r : Renaming}

/-- The same warnings are given about the arguments that a fragment declares. -/
theorem rel_metadataWarnings {fragment : String} (arguments : List Argument) :
    SameButName r (metadataWarnings fragment arguments)
      (metadataWarnings fragment (arguments.map (Argument.rename (r.within fragment) f))) := by
  have harguments : List.Forall₂
      (fun argument other : Argument => other = argument.rename (r.within fragment) f) arguments
      (arguments.map (Argument.rename (r.within fragment) f)) :=
    List.forall₂_map_right_iff.mpr (List.forall₂_same.mpr fun _ _ => rfl)
  refine List.rel_map ?_ (List.rel_filter ?_ harguments)
  · rintro argument _ rfl
    have hkind : (argument.rename (r.within fragment) f).value.kind = argument.value.kind :=
      Value.kind_renameVariables argument.value
    dsimp only
    rw [hkind]
    exact Finding.renamed_within (.warning ⟨_, _, fragment⟩) fragment
  · rintro argument _ rfl
    have hfields : (argument.rename (r.within fragment) f).value.objectFields? = _ :=
      Value.objectFields?_renameVariables argument.value
    dsimp only
    rw [hfields, Option.isNone_map]

variable {fragment : String} {declared declared' : Declarations}
  (h : List.Forall₂ (NameMap.EntryRel (r.within fragment) (r.clear fragment)
    (Declaration.Renamed (r.within fragment))) declared.entries declared'.entries)

include h

/-- The same arguments are missing. -/
theorem rel_missingArguments {directive : Directive}
    (hclear : ∀ argument ∈ directive.arguments, argument.name.text ∈ r.clear fragment) :
    SameButName r (missingArguments declared directive)
      (missingArguments declared' (directive.rename (r.within fragment) f)) := by
  refine List.rel_map ?_ (List.rel_filter ?_ h)
  · intro entry other hentry
    dsimp only
    rw [hentry.name_eq]
    exact Finding.renamed_within (.relay (.missingArgument _) _) fragment
  · intro entry other hentry
    -- the same arguments are required, and the same are given since the new name is not taken
    have hrequired : other.2.isRequired = entry.2.isRequired := by
      rw [Declaration.isRequired, Declaration.isRequired, hentry.content.written_eq,
        hentry.content.default_eq, Option.isNone_map]
    have hnames : ((directive.rename (r.within fragment) f).arguments.map fun argument =>
        argument.name.text) =
          (directive.arguments.map fun argument => argument.name.text).map (r.within fragment) := by
      rw [Directive.rename, List.map_map, List.map_map]
      rfl
    have hclear' : ∀ name ∈ directive.arguments.map fun argument => argument.name.text,
        name ∈ r.clear fragment := List.forall_mem_map.mpr hclear
    dsimp only
    rw [hrequired, hentry.name_eq, hnames,
      contains_map_of_injOn (Renaming.injOn_within _) hclear' hentry.mem]

/-- The same arguments are given without being declared. -/
theorem rel_undeclaredArguments {directive : Directive}
    (hclear : ∀ argument ∈ directive.arguments, argument.name.text ∈ r.clear fragment) :
    SameButName r (undeclaredArguments (fun _ _ => .ok []) declared directive)
      (undeclaredArguments (fun _ _ => .ok []) declared'
        (directive.rename (r.within fragment) f)) := by
  have harguments : List.Forall₂ (Argument.Renamed f r fragment) directive.arguments
      (directive.rename (r.within fragment) f).arguments := rel_arguments hclear
  refine List.rel_map ?_ (List.rel_filter ?_ harguments)
  · intro argument other hargument
    rw [hargument.eq_rename]
    exact Finding.renamed_within (.relay (.unknownArgument _ _) _) fragment
  · intro argument other hargument
    have hget := NameMap.rel_get? (Renaming.injOn_within _) h hargument.mem
    have hname : other.name.text = r.within fragment argument.name.text := by
      rw [hargument.eq_rename]
      rfl
    dsimp only
    rw [hname, NameMap.contains, NameMap.contains]
    rcases exists_of_rel_option hget with ⟨hbefore, hafter⟩ | ⟨_, _, hbefore, hafter, -⟩
    · rw [hbefore, hafter]
    · rw [hbefore, hafter]
      rfl

/-- The same is wrong with a value that is given to an argument. -/
theorem rel_argumentValueFindings (test : LiteralTest) (schema : Schema)
    {argument other : Argument} (hargument : argument.Renamed f r fragment other) :
    SameButName r (argumentValueFindings test schema fragment declared argument)
      (argumentValueFindings test schema fragment declared' other) := by
  have hget := NameMap.rel_get? (Renaming.injOn_within _) h hargument.mem
  have htype : ((declared'.get? (r.within fragment argument.name.text)).bind Declaration.type) =
      (declared.get? argument.name.text).bind Declaration.type := by
    rcases exists_of_rel_option hget with
      ⟨hbefore, hafter⟩ | ⟨_, _, hbefore, hafter, hdeclaration⟩
    · rw [hbefore, hafter]
    · rw [hbefore, hafter]
      exact hdeclaration.type_eq
  rw [argumentValueFindings, argumentValueFindings, hargument.eq_rename]
  simp only [Argument.rename, Name.rename, htype, Value.hasVariable_renameVariables,
    Value.pos_renameVariables]
  cases (declared.get? argument.name.text).bind Declaration.type with
  | none => exact .nil
  | some type =>
    cases hvariable : argument.value.hasVariable with
    | true => exact .nil
    | false =>
      -- a value that is tested has no variables, so that it is still the same value
      rw [Value.renameVariables_of_constant hvariable]
      dsimp only
      split
      · exact .nil
      · exact .cons (Finding.renamed_within (.relay (.badArgumentValue _ _ _) _) fragment) .nil

end Giving

/-! ## Directives in a context -/

/-- The same arguments of a fragment are unused. -/
theorem rel_unusedFindings {r : Renaming} (schema : Schema) {definition other : Definition}
    (h : definition.Corresponds r.correspondence other) :
    SameButName r (definition.unusedFindings schema) (other.unusedFindings schema) := by
  cases h with
  | operation => exact .nil
  | typeSystem => exact .refl _
  | @fragment fragment other hfragment =>
    cases hfragment with
    | mk hsuits =>
      have hroles : List.Forall₂ (RoleRenamed (r.within fragment.name.text) r)
          (selectionRoles fragment.selections)
          (selectionRoles (fragment.rename r).selections) :=
        rel_selectionRoles _ hsuits.spreads
      have hused : ((selectionVariables (fragment.rename r).selections).map fun use => use.1.text) =
          ((selectionVariables fragment.selections).map fun use => use.1.text).map
            (r.within fragment.name.text) := by
        rw [← map_fst_selectionRoles, ← map_fst_selectionRoles, List.map_map, List.map_map,
          List.map_map]
        refine (eq_of_rel_eq (List.rel_map (fun item other hitem => ?_) hroles)).symm
        simp only [Function.comp_apply, hitem.mention_eq, Name.rename]
      -- an argument is unused after the renaming exactly if it was before: no two names are merged
      refine List.rel_map ?_ (List.rel_filter ?_ (hsuits.declarations schema))
      · intro entry other hentry
        dsimp only
        rw [hentry.name_eq, hentry.content.pos_eq]
        exact Finding.renamed_within (.relay (.unusedArgument _ _) _) fragment.name.text
      · intro entry other hentry
        have hclear : ∀ name ∈ (selectionVariables fragment.selections).map fun use => use.1.text,
            name ∈ r.clear fragment.name.text := by
          intro name hname
          obtain ⟨mention, hmention, rfl⟩ := List.mem_map.mp hname
          exact hsuits.used mention (List.mem_append_right _ hmention)
        dsimp only
        rw [hused, hentry.name_eq,
          contains_map_of_injOn (Renaming.injOn_within _) hclear hentry.mem]

/-- The same is wrong with a directive that gives arguments to a fragment, if no names are
offered. -/
theorem Fragment.Renamed.rel_bindingFindings {r : Renaming} {fragment other : Fragment}
    (h : fragment.Renamed r other) (schema : Schema) {f : String → String} {spread : Spread}
    (hname : fragment.name.text = spread.name.text) {directive : Directive}
    (hclear : ∀ argument ∈ directive.arguments, argument.name.text ∈ r.clear spread.name.text) :
    SameButName r (bindingFindings (fun _ _ => .ok []) schema fragment spread directive)
      (bindingFindings (fun _ _ => .ok []) schema other (spread.rename f r)
        (directive.rename (r.within spread.name.text) f)) := by
  cases h with
  | mk hsuits =>
    have hdeclarations := hsuits.declarations schema
    rw [hname] at hdeclarations
    rw [bindingFindings, bindingFindings, Fragment.declaringArguments?_rename, hname]
    cases fragment.declaringArguments? with
    | none => exact .refl _
    | some declaring =>
      exact List.rel_append
        (List.rel_append (rel_metadataWarnings declaring)
          (rel_missingArguments hdeclarations hclear))
        (rel_undeclaredArguments hdeclarations hclear)

/-- The same is wrong with a directive that is held to a definition of its own. -/
theorem unknownDirectiveArguments_rename {f : String → String} {context other : Context}
    {use given : DirectiveUse}
    (hknown : LanguageRules.knownDirective? other = LanguageRules.knownDirective? context)
    (hdirective : given.directive = use.directive.rename id f) :
    LanguageRules.unknownDirectiveArguments other ⟨.directive given, {}⟩ =
      LanguageRules.unknownDirectiveArguments context ⟨.directive use, {}⟩ := by
  simp only [LanguageRules.unknownDirectiveArguments, hknown, hdirective, Directive.rename,
    List.filter_map, List.map_map]
  rfl

/-- A directive on a spread gives arguments if it did before. -/
theorem givesArguments_renameGiven {r : Renaming} {f : String → String} (spread : Spread)
    (index : Nat) (directive : Directive) :
    DirectiveUse.givesArguments ⟨.spread (spread.rename f r), index,
        directive.renameGiven (r.within spread.name.text) f⟩ =
      DirectiveUse.givesArguments ⟨.spread spread, index, directive⟩ := by
  rw [Directive.renameGiven]
  split <;> rfl

namespace Context

variable {r : Renaming} {context other : Context}
  (h : context.Corresponds r.correspondence other)

include h

/-- The documents know the same directives. -/
theorem knownDirective?_of_renamed :
    LanguageRules.knownDirective? other = LanguageRules.knownDirective? context := by
  funext name
  rw [LanguageRules.knownDirective?, LanguageRules.knownDirective?, h.directives_eq, h.schema_eq]

/-- A directive on a spread gives arguments to what has become of the fragment. -/
theorem rel_target? (spread : Spread) (f : String → String) (index : Nat)
    (directive given : Directive) :
    Option.Rel (fun target target' =>
        target.Renamed r target' ∧ target.name.text = spread.name.text)
      (context.target? ⟨.spread spread, index, directive⟩)
      (other.target? ⟨.spread (spread.rename f r), index, given⟩) := by
  have hbefore : context.target? ⟨.spread spread, index, directive⟩ =
      context.fragment? spread.name.text := rfl
  have hafter : other.target? ⟨.spread (spread.rename f r), index, given⟩ =
      other.fragment? spread.name.text := rfl
  rw [hbefore, hafter]
  rcases exists_of_rel_option (h.fragment? spread.name.text) with
    ⟨hnone, hnone'⟩ | ⟨target, target', hfound, hfound', htarget⟩
  · rw [hnone, hnone']
    exact .none
  · rw [hfound, hfound']
    exact .some ⟨htarget, (Document.mem_fragments_of_fragment? hfound).2⟩

/-- A directive on a spread gives the same wrong values. -/
theorem rel_givenFindings (test : LiteralTest) {f : String → String} {use given : DirectiveUse}
    (huse : use.Renamed f r given) :
    SameButName r (context.givenFindings test use) (other.givenFindings test given) := by
  -- values are given on spreads only
  have helsewhere (context : Context) {use : DirectiveUse} (hspread : use.spread? = none) :
      context.givenFindings test use = [] := by
    rw [givenFindings, hspread]
    split
    next hsome _ => cases hsome
    next => rfl
  cases huse with
  | same _ hspread =>
    rw [helsewhere context hspread, helsewhere other hspread]
    exact .nil
  | plain hspread =>
    rw [helsewhere context hspread.1, helsewhere other hspread.2]
    exact .nil
  | declaring _ hspread =>
    rw [helsewhere context hspread.1, helsewhere other hspread.2]
    exact .nil
  | @onSpread spread index directive hclear =>
    rw [givenFindings, givenFindings, givesArguments_renameGiven]
    cases hgives : DirectiveUse.givesArguments ⟨.spread spread, index, directive⟩ with
    | false => exact .nil
    | true =>
      have hname : directive.name.text = argumentsName := beq_iff_eq.mp hgives
      rw [Directive.renameGiven, if_pos hname]
      rcases exists_of_rel_option (rel_target? h spread f index directive _) with
        ⟨hnone, hnone'⟩ | ⟨target, target', hfound, hfound', hrenamed, hsame⟩
      · rw [hnone, hnone']
        exact .nil
      · rw [hfound, hfound', h.schema_eq]
        cases hrenamed with
        | mk hsuits =>
          have hdeclarations := hsuits.declarations context.schema
          rw [hsame] at hdeclarations
          exact List.rel_flatMap (rel_arguments (hclear hname)) fun _ _ hargument =>
            rel_argumentValueFindings hdeclarations test context.schema hargument

/-- The same is wrong with a directive that gives no arguments to a fragment and keeps the names of
its own. -/
theorem directiveFindings_eq_of_rename {f : String → String} {use given : DirectiveUse}
    (hdirective : given.directive = use.directive.rename id f)
    (hspread : use.givesArguments = true → use.spread? = none ∧ given.spread? = none)
    (suggest : Suggest) :
    other.directiveFindings suggest given = context.directiveFindings suggest use := by
  have hname : given.directive.name = use.directive.name := by
    rw [hdirective]
    rfl
  have hgives : given.givesArguments = use.givesArguments := by
    rw [DirectiveUse.givesArguments, DirectiveUse.givesArguments, hname]
  rw [directiveFindings, directiveFindings, hgives, hname, h.schema_eq]
  split
  · rw [hdirective, metadataFindings_rename]
  · split
    next hgives => rw [(hspread hgives).1, (hspread hgives).2]
    next => exact unknownDirectiveArguments_rename (knownDirective?_of_renamed h) hdirective

/-- The same is wrong with the names of arguments in a directive, if no names are offered. -/
theorem rel_directiveFindings {f : String → String} {use given : DirectiveUse}
    (huse : use.Renamed f r given) :
    SameButName r (context.directiveFindings (fun _ _ => .ok []) use)
      (other.directiveFindings (fun _ _ => .ok []) given) := by
  cases huse with
  | same _ hspread =>
    rw [directiveFindings_eq_of_rename h (Directive.rename_id _).symm fun _ => ⟨hspread, hspread⟩]
    exact .refl _
  | plain hspread _ hdirective =>
    rw [directiveFindings_eq_of_rename h hdirective fun _ => hspread]
    exact .refl _
  | declaring _ _ _ hname _ hdirective =>
    have hname' : given.directive.name.text = argumentDefinitionsName := by
      rw [hdirective]
      exact hname
    rw [directiveFindings, directiveFindings, if_pos (beq_iff_eq.mpr hname),
      if_pos (beq_iff_eq.mpr hname'), h.schema_eq, hdirective, metadataFindings_rename]
    exact .refl _
  | @onSpread spread index directive hclear =>
    -- names matter only where arguments are given to a fragment that is found
    by_cases hgives : DirectiveUse.givesArguments ⟨.spread spread, index, directive⟩ = true
    · have hname : directive.name.text = argumentsName := beq_iff_eq.mp hgives
      have hgives' := (givesArguments_renameGiven (r := r) (f := f) spread index directive).trans
        hgives
      rw [directiveFindings_of_givesArguments _ _ hgives,
        directiveFindings_of_givesArguments _ _ hgives', Directive.renameGiven, if_pos hname]
      rcases exists_of_rel_option (rel_target? h spread f index directive _) with
        ⟨hnone, hnone'⟩ | ⟨target, target', hfound, hfound', hrenamed, hsame⟩
      · rw [hnone, hnone']
        exact .nil
      · rw [hfound, hfound', h.schema_eq]
        exact hrenamed.rel_bindingFindings context.schema hsame (hclear hname)
    · have hname : ¬directive.name.text = argumentsName :=
        fun hname => hgives (beq_iff_eq.mpr hname)
      rw [directiveFindings_eq_of_rename h (if_neg hname) fun h => absurd h hgives]
      exact .refl _

end Context

end RelayCheck
