import RelayCheck.Proofs.FragmentArguments.RequiredArguments
import RelayCheck.Proofs.Fragments.Correspondence
import RelayCheck.Proofs.Language.RenamedVariables

/-!
# Another name for an argument of a fragment

An argument of a fragment may get another name. The directive that declares the argument has to use
the new name, and so have the variables inside the fragment, and the directives that give a value to
the argument on spreads of the fragment. Variables of operations and arguments of other fragments
keep their names, even if they had the same name as the argument.

The module introduces:

- `Renaming`, an argument of a fragment with its new name, and `Document.rename`, the document in
  which it has that name;
- `Renaming.Suits`, that the argument is declared in a document, and that the new name is not taken;
- `Renaming.correspondence`, what becomes of operations and fragments.

The main results are `Renaming.Suits.corresponds`, that the definitions of the document become
others of this kind, and `Fragment.Renamed.declarations`, what a fragment then declares.
-/

namespace RelayCheck

/-! ## Names -/

/-- An argument of a fragment that gets another name. -/
structure Renaming where
  /-- The fragment. -/
  fragment : Fragment
  /-- The name of the argument. -/
  old : String
  /-- The name that it gets. -/
  new : String

namespace Renaming

variable (r : Renaming)

/-- The name that replaces a name: the new one for that of the argument, and itself for all
others. -/
def apply (name : String) : String :=
  if name = r.old then r.new else name

/-- What becomes of a name as an argument of the fragment called `fragment`, or as a variable in
it. -/
def within (fragment : String) : String → String :=
  if fragment = r.fragment.name.text then r.apply else id

/-- The names that are used for arguments of the fragment called `fragment` and for variables in it
as long as the new name is not taken. -/
def clear (fragment : String) : Set String :=
  {name | fragment = r.fragment.name.text → name ≠ r.new}

variable {r}

/-- Names other than that of the argument stay as they are. -/
theorem apply_of_ne {name : String} (hne : name ≠ r.old) : r.apply name = name :=
  if_neg hne

/-- Different names stay different, as long as the new name is not taken. -/
theorem injOn_within (fragment : String) : Set.InjOn (r.within fragment) (r.clear fragment) := by
  intro first hfirst second hsecond hsame
  -- the new name is none of the others, so that it comes from the old one only
  rw [within] at hsame
  split at hsame
  next hfragment =>
    rw [apply, apply] at hsame
    split at hsame
    next hold =>
      split at hsame
      next hold' => rw [hold, hold']
      next => exact absurd hsame.symm (hsecond hfragment)
    next =>
      split at hsame
      next => exact absurd hsame (hfirst hfragment)
      next => exact hsame
  next => exact hsame

end Renaming

/-! ## Documents -/

section Documents

variable (g f : String → String) (r : Renaming)

/-- The argument by its new name, and with new names of variables in its value. -/
def Argument.rename (argument : Argument) : Argument :=
  ⟨argument.name.rename g, argument.value.renameVariables f⟩

/-- The directive with new names of its arguments and of the variables in them. -/
def Directive.rename (directive : Directive) : Directive :=
  { directive with arguments := directive.arguments.map (Argument.rename g f) }

/-- The directives of a fragment with new names of variables, and of the arguments that the
fragment declares: these are the arguments of the first directive that declares any. -/
def renameDeclaring : List Directive → List Directive
  | [] => []
  | directive :: rest =>
    if directive.name.text = argumentDefinitionsName then
      directive.rename g f :: rest.map (Directive.rename id f)
    else directive.rename id f :: renameDeclaring rest

/-- A directive on a spread with new names of variables, and of the arguments that are given to the
fragment. -/
def Directive.renameGiven (directive : Directive) : Directive :=
  if directive.name.text = argumentsName then directive.rename g f
  else directive.rename id f

/-- The spread with new names of variables, and of the argument if it is one of the fragment. -/
def Spread.rename (spread : Spread) : Spread :=
  { spread with
    directives := spread.directives.map
      (Directive.renameGiven (r.within spread.name.text) f) }

/-- The field with new names of variables. -/
def Field.rename (field : Field) : Field :=
  { field with
    arguments := field.arguments.map (Argument.rename id f)
    directives := field.directives.map (Directive.rename id f) }

/-- The inline fragment with new names of variables. -/
def InlineFragment.rename (fragment : InlineFragment) : InlineFragment :=
  { fragment with directives := fragment.directives.map (Directive.rename id f) }

mutual

/-- The selection with new names of variables, and of the argument on spreads. -/
def Selection.rename : Selection → Selection
  | .field field selections => .field (field.rename f) (renameSelections selections)
  | .spread spread => .spread (spread.rename f r)
  | .inlineFragment fragment selections =>
    .inlineFragment (fragment.rename f) (renameSelections selections)

/-- The selections with new names of variables, and of the argument on spreads. -/
def renameSelections : List Selection → List Selection
  | [] => []
  | selection :: rest => selection.rename :: renameSelections rest

end

/-- The operation with the new name of the argument on spreads. -/
def Operation.rename (operation : Operation) : Operation :=
  { operation with selections := renameSelections id r operation.selections }

/-- The fragment with the new name of the argument, where it is declared, in variables and on
spreads. -/
def Fragment.rename (fragment : Fragment) : Fragment :=
  let f := r.within fragment.name.text
  { fragment with
    directives := renameDeclaring f f fragment.directives
    selections := renameSelections f r fragment.selections }

/-- The definition with the new name of the argument. -/
def Definition.rename : Definition → Definition
  | .operation o => .operation (o.rename r)
  | .fragment f => .fragment (f.rename r)
  | definition => definition

/-- The document with the new name of the argument. -/
def Document.rename (document : Document) : Document :=
  ⟨document.definitions.map (Definition.rename r)⟩

end Documents

/-- The argument is declared by a fragment of the document, and the new name is taken neither by
another argument that the fragment declares or is given on a spread, nor by a variable in it. -/
structure Renaming.Suits (r : Renaming) (document : Document) : Prop where
  mem_fragments : r.fragment ∈ document.fragments
  declares : ∃ argument ∈ r.fragment.declaringArguments?.getD [], argument.name.text = r.old
  not_declared : ∀ argument ∈ r.fragment.declaringArguments?.getD [], argument.name.text ≠ r.new
  not_used : ∀ mention ∈ r.fragment.usedVariables, mention.1.text ≠ r.new
  not_given : ∀ definition ∈ document.definitions, ∀ spread ∈ spreadsOf definition.selections,
    spread.name.text = r.fragment.name.text → ¬spread.Binds r.new

/-! ## Spreads -/

section Spreads

variable {f : String → String} {r : Renaming}

/-- The spreads written directly in selections get their new names one by one. -/
theorem directSpreads_renameSelections (selections : List Selection) :
    directSpreads (renameSelections f r selections) =
      (directSpreads selections).map (Spread.rename f r) := by
  induction selections with
  | nil =>
    rw [renameSelections]
    rfl
  | cons selection rest ih =>
    simp only [directSpreads] at ih ⊢
    rw [renameSelections, List.filterMap_cons, List.filterMap_cons, ih]
    cases selection <;> rw [Selection.rename] <;> rfl

/-- The spreads nested in selections get their new names one by one. -/
theorem innerSpreadsOf_renameSelections :
    ∀ selections : List Selection,
      innerSpreadsOf (renameSelections f r selections) =
        (innerSpreadsOf selections).map (Spread.rename f r)
  | [] => by rw [renameSelections, innerSpreadsOf, List.map_nil]
  | .field field nested :: rest => by
    rw [renameSelections, Selection.rename, innerSpreadsOf, innerSpreadsOf, Selection.innerSpreads,
      Selection.innerSpreads, innerSpreadsOf_renameSelections rest, List.map_append,
      List.map_append, innerSpreadsOf_renameSelections nested, directSpreads_renameSelections]
  | .spread spread :: rest => by
    rw [renameSelections, Selection.rename, innerSpreadsOf, innerSpreadsOf, Selection.innerSpreads,
      Selection.innerSpreads, innerSpreadsOf_renameSelections rest, List.map_append, List.map_nil]
  | .inlineFragment fragment nested :: rest => by
    rw [renameSelections, Selection.rename, innerSpreadsOf, innerSpreadsOf, Selection.innerSpreads,
      Selection.innerSpreads, innerSpreadsOf_renameSelections rest, List.map_append,
      List.map_append, innerSpreadsOf_renameSelections nested, directSpreads_renameSelections]

/-- Selections spread the same names as before. -/
theorem spreadNames_renameSelections (selections : List Selection) :
    spreadNames (renameSelections f r selections) = spreadNames selections := by
  rw [spreadNames, spreadNames, spreadsOf, spreadsOf, directSpreads_renameSelections,
    innerSpreadsOf_renameSelections, ← List.map_append, List.map_map]
  rfl

end Spreads

/-! ## Operations and fragments -/

/-- On the spread, the new name is not taken. -/
def Spread.Suits (spread : Spread) (r : Renaming) : Prop :=
  ∀ directive ∈ spread.directives, directive.name.text = argumentsName →
    ∀ argument ∈ directive.arguments, argument.name.text ∈ r.clear spread.name.text

/-- If the argument is one of the fragment, it is declared there, and the new name is taken neither
in the fragment nor on its spreads. -/
structure Fragment.Suits (fragment : Fragment) (r : Renaming) : Prop where
  declares : fragment.name.text = r.fragment.name.text →
    ∃ argument ∈ fragment.declaringArguments?.getD [], argument.name.text = r.old
  declared : ∀ argument ∈ fragment.declaringArguments?.getD [],
    argument.name.text ∈ r.clear fragment.name.text
  used : ∀ mention ∈ fragment.usedVariables, mention.1.text ∈ r.clear fragment.name.text
  spreads : ∀ spread ∈ spreadsOf fragment.selections, spread.Suits r

/-- What becomes of an operation on whose spreads the new name is not taken. -/
inductive Operation.Renamed (r : Renaming) : Operation → Operation → Prop
  | mk (operation : Operation) (h : ∀ spread ∈ spreadsOf operation.selections, spread.Suits r) :
      Renamed r operation (operation.rename r)

/-- What becomes of a fragment in which the new name is not taken. -/
inductive Fragment.Renamed (r : Renaming) : Fragment → Fragment → Prop
  | mk (fragment : Fragment) (h : fragment.Suits r) : Renamed r fragment (fragment.rename r)

/-- Another name for an argument changes neither names of fragments nor the names that are
spread. -/
def Renaming.correspondence (r : Renaming) : Correspondence where
  operation := Operation.Renamed r
  fragment := Fragment.Renamed r
  operation_spreadNames h := by
    cases h with
    | mk => exact spreadNames_renameSelections _
  fragment_name h := by
    cases h with
    | mk => rfl
  fragment_spreadNames h := by
    cases h with
    | mk => exact spreadNames_renameSelections _

namespace Renaming.Suits

variable {r : Renaming} {document : Document} (h : r.Suits document)

include h

/-- The new name is taken on no spread in the document. -/
theorem suits_spread {definition : Definition} (hdefinition : definition ∈ document.definitions)
    {spread : Spread} (hspread : spread ∈ spreadsOf definition.selections) : spread.Suits r := by
  intro directive hdirective hname argument hargument hfragment hnew
  exact h.not_given definition hdefinition spread hspread hfragment
    ⟨directive, hdirective, hname, argument, hargument, hnew⟩

/-- The new name is taken in no fragment of the document. -/
theorem suits_fragment (hunique : document.UniqueFragmentNames) {fragment : Fragment}
    (hfragment : fragment ∈ document.fragments) : fragment.Suits r := by
  -- where names are unique, only the fragment itself has its name
  have hsame (hname : fragment.name.text = r.fragment.name.text) : fragment = r.fragment :=
    List.inj_on_of_nodup_map hunique hfragment h.mem_fragments hname
  constructor
  case declares =>
    intro hname
    rw [hsame hname]
    exact h.declares
  case declared =>
    intro argument hargument hname
    rw [hsame hname] at hargument
    exact h.not_declared argument hargument
  case used =>
    intro mention hmention hname
    rw [hsame hname] at hmention
    exact h.not_used mention hmention
  case spreads =>
    exact fun spread hspread => h.suits_spread (Document.mem_fragments_iff.mp hfragment) hspread

/-- The definitions of the document become others of their kind. -/
theorem corresponds (hunique : document.UniqueFragmentNames) :
    List.Forall₂ (Definition.Corresponds r.correspondence) document.definitions
      (document.rename r).definitions := by
  rw [Document.rename, List.forall₂_map_right_iff, List.forall₂_same]
  intro definition hdefinition
  cases definition with
  | operation operation =>
    exact .operation (.mk operation fun spread hspread => h.suits_spread hdefinition hspread)
  | fragment fragment =>
    exact .fragment (.mk fragment
      (h.suits_fragment hunique (Document.mem_fragments_iff.mpr hdefinition)))
  | schema | schemaExtension | type | typeExtension | directive => exact .typeSystem rfl

end Renaming.Suits

/-! ## Declarations -/

/-- The declaration of an argument in whose default variables have new names. -/
structure Declaration.Renamed (f : String → String) (declaration other : Declaration) :
    Prop where
  isArgument_eq : other.isArgument = declaration.isArgument
  pos_eq : other.pos = declaration.pos
  written_eq : other.written = declaration.written
  type_eq : other.type = declaration.type
  default_eq : other.default = declaration.default.map (Value.renameVariables f)

section Declared

variable {g f : String → String} {r : Renaming}

/-- The first field of a key has the same value, but for names of variables. -/
theorem metadata?_renameFields (fields : List (Name × Value)) (key : String) :
    metadata? (Value.renameFields f fields) key =
      (metadata? fields key).map (Value.renameVariables f) := by
  rw [metadata?, metadata?, Value.renameFields_eq_map, List.find?_map, Option.map_map,
    Option.map_map]
  rfl

/-- Names of variables do not matter for the type that is stated. -/
theorem statedType?_renameVariables (value : Value) :
    statedType? (value.renameVariables f) = statedType? value := by
  cases value <;> rw [Value.renameVariables] <;> rfl

/-- The fields of the object that declares an argument have new names of variables. -/
theorem fields_rename (argument : Argument) :
    (argument.rename g f).value.objectFields?.getD [] =
      Value.renameFields f (argument.value.objectFields?.getD []) := by
  rw [Argument.rename, Value.objectFields?_renameVariables]
  cases argument.value.objectFields? with
  | none => exact (Value.renameFields.eq_1 f).symm
  | some fields => rfl

/-- What is declared for an argument by another name. -/
theorem Argument.declaration_rename (schema : Schema) (argument : Argument) :
    (Declaration.ofArgument schema argument).Renamed f
      (Declaration.ofArgument schema (argument.rename g f)) := by
  -- the stated type is a text, in which no variables are renamed
  have hwritten : (metadata? ((argument.rename g f).value.objectFields?.getD [])
      typeKey).bind statedType? =
        (metadata? (argument.value.objectFields?.getD []) typeKey).bind statedType? := by
    rw [fields_rename, metadata?_renameFields]
    cases metadata? (argument.value.objectFields?.getD []) typeKey with
    | none => rfl
    | some value => exact statedType?_renameVariables value
  constructor
  case isArgument_eq => rfl
  case pos_eq => rfl
  case written_eq => exact hwritten
  case type_eq => exact congrArg (·.bind schema.inputType?) hwritten
  case default_eq =>
    rw [Declaration.ofArgument, fields_rename]
    exact metadata?_renameFields _ _

/-- The first directive that declares arguments is the same, with new names of these. -/
theorem find?_renameDeclaring (directives : List Directive) :
    ((renameDeclaring g f directives).find? fun directive =>
      directive.name.text == argumentDefinitionsName) =
        (directives.find? fun directive => directive.name.text == argumentDefinitionsName).map
          (Directive.rename g f) := by
  -- renaming goes along the directives up to the first one that declares
  induction directives with
  | nil => rfl
  | cons directive rest ih =>
    have hname (g : String → String) :
        ((directive.rename g f).name.text == argumentDefinitionsName) =
          (directive.name.text == argumentDefinitionsName) := rfl
    rw [renameDeclaring]
    split
    next hdeclares =>
      rw [← beq_iff_eq] at hdeclares
      rw [List.find?_cons, List.find?_cons, hname, hdeclares]
      rfl
    next hdeclares =>
      rw [← beq_iff_eq, Bool.not_eq_true] at hdeclares
      rw [List.find?_cons, List.find?_cons, hname, hdeclares]
      exact ih

/-- The arguments that a fragment declares have their new names. -/
theorem Fragment.declaringArguments?_rename (fragment : Fragment) :
    (fragment.rename r).declaringArguments? = fragment.declaringArguments?.map
      (List.map (Argument.rename (r.within fragment.name.text) (r.within fragment.name.text))) := by
  rw [declaringArguments?, declaringArguments?, Fragment.rename, find?_renameDeclaring,
    Option.map_map, Option.map_map]
  rfl

/-- A fragment declares the same arguments by their new names. -/
theorem Fragment.Suits.declarations {fragment : Fragment} (h : fragment.Suits r)
    (schema : Schema) :
    List.Forall₂ (NameMap.EntryRel (r.within fragment.name.text) (r.clear fragment.name.text)
        (Declaration.Renamed (r.within fragment.name.text)))
      (fragment.declarations schema).entries ((fragment.rename r).declarations schema).entries := by
  have harguments : (fragment.rename r).declaringArguments?.getD [] =
      (fragment.declaringArguments?.getD []).map
        (Argument.rename (r.within fragment.name.text) (r.within fragment.name.text)) := by
    rw [declaringArguments?_rename]
    cases fragment.declaringArguments? <;> rfl
  rw [Fragment.declarations, Fragment.declarations, harguments, List.map_map]
  refine NameMap.rel_ofList (Renaming.injOn_within _) ?_
  rw [List.forall₂_map_left_iff, List.forall₂_map_right_iff, List.forall₂_same]
  exact fun argument hargument =>
    ⟨h.declared argument hargument, rfl, argument.declaration_rename schema⟩

/-- Operations declare the same variables. -/
theorem Operation.Renamed.declarations_eq {operation other : Operation}
    (h : operation.Renamed r other) (schema : Schema) :
    other.declarations schema = operation.declarations schema := by
  cases h with
  | mk => rfl

end Declared

end RelayCheck
