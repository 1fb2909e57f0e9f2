import Mathlib.Data.Set.Function
import RelayCheck.Proofs.Data.NameMap
import RelayCheck.Proofs.FragmentArguments.Positions
import RelayCheck.Proofs.Fragments.Correspondence

/-!
# Declarations with unknown types

The type that an operation declares for a variable, or that a fragment states for an argument, may
be replaced by one that the schema does not know. Nothing else about the declaration changes: it
keeps its name, its place and its default. What operations agree on is only weakened, since a single
unknown type among several leaves the type on which they agree unknown.

The module introduces:

- `Operation.Obscured` and `Fragment.Obscured`, where types are replaced by unknown ones;
- `Document.Obscured`, a document with such operations and fragments;
- `Declaration.Obscured`, what becomes of a declaration.

The main results are `Fragment.Obscured.declarations`, `Operation.Obscured.declarations` and, for
what operations agree on, `get?_unify_of_obscured` and `mem_conflicting_of_obscured`.
-/

namespace RelayCheck

/-! ## Definitions with obscured types -/

/-- A reference to a type that the schema does not have is no input type of it. -/
theorem Schema.inputType?_eq_none {schema : Schema} {type : TypeRef String}
    (h : schema.type? type.baseName = none) : schema.inputType? type = none := by
  rw [Option.eq_none_iff_forall_ne_some]
  intro found hfound
  obtain ⟨hbase, -⟩ := inputType?_eq_some_iff.mp hfound
  rw [baseIs, h] at hbase
  cases hbase

/-- The declaration of a variable whose type may be replaced by one that is no input type. -/
inductive VariableDefinition.Obscured (schema : Schema) :
    VariableDefinition → VariableDefinition → Prop
  | same (declared : VariableDefinition) : Obscured schema declared declared
  | type (declared : VariableDefinition) {type : TypeRef Name}
      (hunknown : schema.inputType? (type.map Name.text) = none) :
      Obscured schema declared { declared with type }

/-- A field of the object that declares an argument. If it states the type, the text may be
replaced by one that cannot be read as a type, or not as an input type. -/
inductive MetadataField.Obscured (schema : Schema) : Name × Value → Name × Value → Prop
  | same (field : Name × Value) : Obscured schema field field
  | type {key : Name} {content other : String} {block otherBlock : Bool} {pos : Position}
      (hkey : key.text = typeKey)
      (hunknown : ∀ type, TypeRef.parse other = .ok type → schema.inputType? type = none) :
      Obscured schema (key, .string content block pos) (key, .string other otherBlock pos)

/-- The declaration of an argument, where the stated type may be obscured. -/
inductive Argument.Obscured (schema : Schema) : Argument → Argument → Prop
  | same (argument : Argument) : Obscured schema argument argument
  | object {name : Name} {fields others : List (Name × Value)} {pos : Position}
      (h : List.Forall₂ (MetadataField.Obscured schema) fields others) :
      Obscured schema ⟨name, .object fields pos⟩ ⟨name, .object others pos⟩

/-- A directive, where the types of the arguments that it declares may be obscured. -/
inductive Directive.Obscured (schema : Schema) : Directive → Directive → Prop
  | same (directive : Directive) : Obscured schema directive directive
  | declaring {name : Name} {arguments others : List Argument} {pos : Position}
      (hname : name.text = argumentDefinitionsName)
      (h : List.Forall₂ (Argument.Obscured schema) arguments others) :
      Obscured schema ⟨name, arguments, pos⟩ ⟨name, others, pos⟩

/-- A directive keeps its name. -/
theorem Directive.Obscured.name_eq {schema : Schema} {directive obscured : Directive}
    (h : directive.Obscured schema obscured) : obscured.name = directive.name := by
  cases h with
  | same | declaring => rfl

/-- The arguments of a directive are as before, or state types that are obscured. -/
theorem Directive.Obscured.arguments {schema : Schema} {directive obscured : Directive}
    (h : directive.Obscured schema obscured) :
    List.Forall₂ (Argument.Obscured schema) directive.arguments obscured.arguments := by
  cases h with
  | same => exact List.forall₂_same.mpr fun argument _ => .same argument
  | declaring _ harguments => exact harguments

/-- An operation, where the types of its variables may be obscured. -/
inductive Operation.Obscured (schema : Schema) : Operation → Operation → Prop
  | mk (operation : Operation) {declared : List VariableDefinition}
      (h : List.Forall₂ (VariableDefinition.Obscured schema) operation.variableDefinitions
        declared) :
      Obscured schema operation { operation with variableDefinitions := declared }

/-- A fragment, where the types of its arguments may be obscured. -/
inductive Fragment.Obscured (schema : Schema) : Fragment → Fragment → Prop
  | mk (fragment : Fragment) {directives : List Directive}
      (h : List.Forall₂ (Directive.Obscured schema) fragment.directives directives) :
      Obscured schema fragment { fragment with directives }

/-- Obscuring types changes no names and no spreads. -/
def obscuring (schema : Schema) : Correspondence where
  operation := Operation.Obscured schema
  fragment := Fragment.Obscured schema
  operation_spreadNames h := by
    cases h with
    | mk => rfl
  fragment_name h := by
    cases h with
    | mk => rfl
  fragment_spreadNames h := by
    cases h with
    | mk => rfl

/-- A document, where the types of variables and of fragment arguments may be obscured. -/
def Document.Obscured (schema : Schema) (document obscured : Document) : Prop :=
  List.Forall₂ (Definition.Corresponds (obscuring schema)) document.definitions
    obscured.definitions

/-! ## Declarations -/

/-- A declaration that stays as it is as long as its type is known. -/
structure Declaration.Obscured (declaration obscured : Declaration) : Prop where
  pos_eq : obscured.pos = declaration.pos
  isArgument_eq : obscured.isArgument = declaration.isArgument
  eq_of_known : obscured.type.isSome = true → obscured = declaration

/-- Declarations of the same names, each of which may be obscured. -/
def Declarations.Obscured (declared obscured : Declarations) : Prop :=
  List.Forall₂ (NameMap.EntryRel id Set.univ Declaration.Obscured) declared.entries
    obscured.entries

namespace Declarations.Obscured

variable {declared obscured : Declarations}

/-- Obscured declarations of names in order make obscured declarations by name. -/
theorem ofList {pairs others : List (String × Declaration)}
    (h : List.Forall₂ (NameMap.EntryRel id Set.univ Declaration.Obscured) pairs others) :
    Declarations.Obscured (.ofList pairs) (.ofList others) :=
  NameMap.rel_ofList Function.injective_id.injOn h

/-- A name is declared as before, or obscured. -/
theorem get? (h : declared.Obscured obscured) (name : String) :
    Option.Rel Declaration.Obscured (declared.get? name) (obscured.get? name) :=
  NameMap.rel_get? Function.injective_id.injOn h (Set.mem_univ name)

/-- The same names are declared. -/
theorem contains_eq (h : declared.Obscured obscured) (name : String) :
    obscured.contains name = declared.contains name := by
  rw [NameMap.contains, NameMap.contains]
  rcases exists_of_rel_option (h.get? name) with ⟨hbefore, hafter⟩ | ⟨_, _, hbefore, hafter, -⟩
  · rw [hbefore, hafter]
  · rw [hbefore, hafter]
    rfl

end Declarations.Obscured

section Declared

variable {schema : Schema}

/-- The variable of an operation is declared as before, or obscured. -/
theorem VariableDefinition.Obscured.declaration {declared obscured : VariableDefinition}
    (h : declared.Obscured schema obscured) :
    (Declaration.ofVariable schema declared).Obscured (Declaration.ofVariable schema obscured) := by
  cases h with
  | same => exact ⟨rfl, rfl, fun _ => rfl⟩
  | type hunknown =>
    refine ⟨rfl, rfl, fun hknown => ?_⟩
    rw [Declaration.ofVariable, hunknown] at hknown
    cases hknown

/-- The variables of an operation are declared as before, or obscured. -/
theorem Operation.Obscured.declarations {operation obscured : Operation}
    (h : operation.Obscured schema obscured) :
    (operation.declarations schema).Obscured (obscured.declarations schema) := by
  cases h with
  | mk hdeclared =>
    refine .ofList (List.rel_map (fun declared other hother => ?_) hdeclared)
    have hname : other.name = declared.name := by cases hother <;> rfl
    exact ⟨Set.mem_univ _, congrArg Name.text hname, hother.declaration⟩

/-- The first field of a key is as before, or states an unknown type. -/
theorem MetadataField.Obscured.metadata? {fields others : List (Name × Value)}
    (h : List.Forall₂ (MetadataField.Obscured schema) fields others) (key : String) :
    RelayCheck.metadata? others key = RelayCheck.metadata? fields key ∨
      key = typeKey ∧
        ((RelayCheck.metadata? others key).bind statedType?).bind schema.inputType? = none := by
  -- keys stay, so that the first field of the key is found at the same place
  have hfound : Option.Rel
      (fun field other => MetadataField.Obscured schema field other ∧ other.1.text = key)
      (fields.find? fun field => field.1.text == key)
      (others.find? fun field => field.1.text == key) := by
    induction h with
    | nil => exact .none
    | @cons field other _ _ hfield _ ih =>
      have hkey : other.1 = field.1 := by cases hfield <;> rfl
      rw [List.find?_cons, List.find?_cons, hkey]
      cases htest : field.1.text == key with
      | true => exact .some ⟨hfield, hkey ▸ beq_iff_eq.mp htest⟩
      | false => exact ih
  rw [RelayCheck.metadata?, RelayCheck.metadata?]
  rcases exists_of_rel_option hfound with
    ⟨hbefore, hafter⟩ | ⟨field, other, hbefore, hafter, hfield, hkey⟩
  · exact Or.inl (by rw [hbefore, hafter])
  · rw [hbefore, hafter]
    cases hfield with
    | same => exact Or.inl rfl
    | @type _ _ other _ _ _ htypeKey hunknown =>
      refine Or.inr ⟨hkey.symm.trans htypeKey, ?_⟩
      simp only [Option.map_some, Option.bind_some, statedType?]
      cases hparse : TypeRef.parse other with
      | error => rfl
      | ok type => exact hunknown type hparse

/-- The argument of a fragment is declared as before, or obscured. -/
theorem Argument.Obscured.declaration {argument obscured : Argument}
    (h : argument.Obscured schema obscured) :
    (Declaration.ofArgument schema argument).Obscured
      (Declaration.ofArgument schema obscured) := by
  cases h with
  | same => exact ⟨rfl, rfl, fun _ => rfl⟩
  | @object name fields others pos hfields =>
    have hdefault : metadata? others defaultKey = metadata? fields defaultKey :=
      (MetadataField.Obscured.metadata? hfields defaultKey).resolve_right fun h =>
        absurd h.1 (by decide)
    refine ⟨rfl, rfl, fun hknown => ?_⟩
    rcases MetadataField.Obscured.metadata? hfields typeKey with htype | ⟨-, hunknown⟩
    · simp only [Declaration.ofArgument, Value.objectFields?, Option.getD_some, htype, hdefault]
    · simp only [Declaration.ofArgument, Value.objectFields?, Option.getD_some, hunknown] at hknown
      cases hknown

/-- The first directive that declares arguments is as before, or obscures some. -/
theorem Fragment.Obscured.declaringArguments? {fragment obscured : Fragment}
    (h : fragment.Obscured schema obscured) :
    Option.Rel (List.Forall₂ (Argument.Obscured schema)) fragment.declaringArguments?
      obscured.declaringArguments? := by
  let declares : Directive → Bool := fun directive =>
    directive.name.text == argumentDefinitionsName
  cases h with
  | @mk directives hdirectives =>
    have hfound : Option.Rel (Directive.Obscured schema) (fragment.directives.find? declares)
        (directives.find? declares) :=
      rel_find? (fun hdirective => congrArg (·.text == argumentDefinitionsName) hdirective.name_eq)
        hdirectives
    rw [Fragment.declaringArguments?, Fragment.declaringArguments?]
    rcases exists_of_rel_option hfound with
      ⟨hbefore, hafter⟩ | ⟨directive, other, hbefore, hafter, hdirective⟩
    · rw [hbefore, hafter]
      exact .none
    · rw [hbefore, hafter]
      exact .some hdirective.arguments

/-- The arguments of a fragment are declared as before, or obscured. -/
theorem Fragment.Obscured.declarations {fragment obscured : Fragment}
    (h : fragment.Obscured schema obscured) :
    (fragment.declarations schema).Obscured (obscured.declarations schema) := by
  have harguments : List.Forall₂ (Argument.Obscured schema)
      (fragment.declaringArguments?.getD []) (obscured.declaringArguments?.getD []) := by
    rcases exists_of_rel_option h.declaringArguments? with
      ⟨hbefore, hafter⟩ | ⟨_, _, hbefore, hafter, harguments⟩
    · rw [hbefore, hafter]
      exact .nil
    · rw [hbefore, hafter]
      exact harguments
  refine .ofList (List.rel_map (fun argument other hother => ?_) harguments)
  have hname : other.name = argument.name := by cases hother <;> rfl
  exact ⟨Set.mem_univ _, congrArg Name.text hname, hother.declaration⟩

end Declared

/-! ## What operations agree on -/

section Unify

variable {schema : Schema} {operations obscured : List Operation}
  (h : List.Forall₂ (Operation.Obscured schema) operations obscured)

include h

/-- The same names are declared by all operations. -/
theorem declaredByAll_iff_of_obscured (name : String) :
    DeclaredByAll schema obscured name ↔ DeclaredByAll schema operations name := by
  induction h with
  | nil => exact Iff.rfl
  | cons hoperation _ ih =>
    rw [DeclaredByAll, DeclaredByAll, List.forall_mem_cons, List.forall_mem_cons,
      hoperation.declarations.contains_eq, ← DeclaredByAll, ← DeclaredByAll, ih]

/-- If all types that operations declare for a name are known, they declare it as before. -/
theorem declarationsOf_eq_of_obscured {name : String}
    (hknown : ∀ declaration ∈ declarationsOf schema obscured name,
      declaration.type.isSome = true) :
    declarationsOf schema obscured name = declarationsOf schema operations name := by
  induction h with
  | nil => rfl
  | cons hoperation _ ih =>
    rcases exists_of_rel_option (hoperation.declarations.get? name) with
      ⟨hbefore, hafter⟩ | ⟨_, _, hbefore, hafter, hdeclaration⟩
    · simp only [declarationsOf, List.filterMap_cons, hbefore, hafter] at hknown ⊢
      exact ih hknown
    · simp only [declarationsOf, List.filterMap_cons, hbefore, hafter, List.forall_mem_cons]
        at hknown ⊢
      rw [hdeclaration.eq_of_known hknown.1]
      exact congrArg (List.cons _) (ih hknown.2)

/-- If the type on which operations agree is known, they agreed on the same before. -/
theorem get?_unify_of_obscured {context other : Context} (hcontext : context.schema = schema)
    (hother : other.schema = schema) {name : String} {declaration : Declaration}
    (hunified : (other.unify obscured).declarations.get? name = some declaration)
    (hknown : declaration.type.isSome = true) :
    (context.unify operations).declarations.get? name = some declaration := by
  subst hcontext
  rw [Context.get?_unify_eq_some_iff, hother] at hunified
  obtain ⟨hall, hunify⟩ := hunified
  rw [declarationsOf_eq_of_obscured h (isSome_type_of_unifyDeclarations hunify hknown)] at hunify
  exact Context.get?_unify_eq_some_iff.mpr ⟨(declaredByAll_iff_of_obscured h name).mp hall, hunify⟩

/-- Operations that do not agree on a name did not agree on it before. -/
theorem mem_conflicting_of_obscured {context other : Context} (hcontext : context.schema = schema)
    (hother : other.schema = schema) {name : String}
    (hconflict : name ∈ (other.unify obscured).conflicting) :
    name ∈ (context.unify operations).conflicting := by
  subst hcontext
  have hne : obscured ≠ [] := by
    rintro rfl
    cases hconflict
  have hne' : operations ≠ [] := by
    rintro rfl
    exact hne (List.forall₂_nil_left_iff.mp h)
  rw [Context.mem_unify_conflicting_iff hne, hother] at hconflict
  obtain ⟨hall, hunify⟩ := hconflict
  -- with an unknown type among them, declarations unify
  have hknown := ((unifyDeclarations_eq_none_iff (hall.declarationsOf_ne_nil hne)).mp hunify).1
  rw [declarationsOf_eq_of_obscured h hknown] at hunify
  exact (Context.mem_unify_conflicting_iff hne').mpr
    ⟨(declaredByAll_iff_of_obscured h name).mp hall, hunify⟩

end Unify

end RelayCheck
