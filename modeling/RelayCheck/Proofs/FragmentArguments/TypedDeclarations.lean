import RelayCheck.Proofs.FragmentArguments.Agreement
import RelayCheck.Proofs.Language.VariableTypes

/-!
# The types of declarations

A declaration holds a type twice: as it is written, and as a type of the schema. Checks use the
second and messages show the first or the second. Wherever declarations come from, the two are
written in the same way, the type is an input type, and no layer that excludes null is directly
inside another. So the layer that is put on where operations agree, and the one that is put on to
exclude null from an expected type, are always new.

The module introduces `Declaration.IsTyped`, what is true of a declaration with a known type, and
`Declarations.AreTyped`.

The main result is `declarations_areTyped`.
-/

namespace RelayCheck

/-- Where there is a result, it was computed. -/
theorem eq_ok_of_toOption {ε α : Type} {computed : Except ε α} {result : α}
    (h : computed.toOption = some result) : computed = .ok result := by
  cases computed with
  | error fault => cases h
  | ok value => rw [Option.some.inj h]

/-- The declaration is written as the type prints, the innermost name of the type is an input type,
and no non-null layer of the type is directly inside another, also not after null is excluded. -/
structure Declaration.IsTyped (schema : Schema) (declaration : Declaration)
    (type : TypeRef String) : Prop where
  /-- It prints as it is written. -/
  prints : declaration.written.map TypeRef.render = some type.render
  /-- The innermost name is an input type of the schema. -/
  isInput : schema.baseIs NamedType.isInput type = true
  /-- Between two exclusions of null there is a list. -/
  wellFormed : type.WellFormed
  /-- This is so as well if null is excluded. -/
  wellFormed_required : type.required.WellFormed

/-- The declarations of known types are typed. -/
def Declarations.AreTyped (schema : Schema) (declarations : Declarations) : Prop :=
  ∀ name declaration type, declarations.get? name = some declaration →
    declaration.type = some type → declaration.IsTyped schema type

namespace Declaration

variable {schema : Schema}

/-- A well-formed type that is written and found among the input types makes a declaration typed. -/
theorem isTyped_of_inputType? {declaration : Declaration} {written type : TypeRef String}
    (hwritten : declaration.written = some written) (htype : schema.inputType? written = some type)
    (hform : written.WellFormed) : declaration.IsTyped schema type := by
  obtain ⟨hinput, rfl⟩ := Schema.inputType?_eq_some_iff.mp htype
  exact ⟨congrArg (Option.map TypeRef.render) hwritten, hinput, hform, hform.required⟩

/-- An argument of a fragment is typed if its type is known: a type that can be read from a text is
well-formed. -/
theorem isTyped_ofArgument {argument : Argument} {type : TypeRef String}
    (htype : (ofArgument schema argument).type = some type) :
    (ofArgument schema argument).IsTyped schema type := by
  obtain ⟨written, hwritten, hinput⟩ := Option.bind_eq_some_iff.mp htype
  obtain ⟨value, -, hstated⟩ := Option.bind_eq_some_iff.mp hwritten
  refine isTyped_of_inputType? hwritten hinput ?_
  rw [statedType?.eq_def] at hstated
  split at hstated
  next content block pos =>
    exact (TypeRef.parse_eq_ok_iff.mp (eq_ok_of_toOption hstated)).1.wellFormed
  next => cases hstated

/-- A variable is typed if its type is known and well-formed. -/
theorem isTyped_ofVariable {declared : VariableDefinition} (hform : declared.type.WellFormed)
    {type : TypeRef String} (htype : (ofVariable schema declared).type = some type) :
    (ofVariable schema declared).IsTyped schema type :=
  isTyped_of_inputType? rfl htype ((TypeRef.wellFormed_map _ _).mpr hform)

/-- Whether a declaration is typed depends on how it is written, and on nothing else that it says. -/
theorem IsTyped.congr {declaration other : Declaration} {type : TypeRef String}
    (h : declaration.IsTyped schema type) (hwritten : other.written = declaration.written) :
    other.IsTyped schema type :=
  ⟨by rw [hwritten, h.prints], h.isInput, h.wellFormed, h.wellFormed_required⟩

/-- If a type allows null, then null may be excluded from it, and from the type as it is written. -/
theorem IsTyped.nonNull {declaration other : Declaration} {type : TypeRef String}
    (h : declaration.IsTyped schema type) (hnullable : type.isNonNull = false)
    (hwritten : other.written = declaration.written.map TypeRef.nonNull) :
    other.IsTyped schema (.nonNull type) := by
  have hform : (TypeRef.nonNull type).WellFormed := ⟨hnullable, h.wellFormed⟩
  obtain ⟨written, hdeclared, hprints⟩ := Option.map_eq_some_iff.mp h.prints
  refine ⟨?_, h.isInput, hform, hform.required⟩
  rw [hwritten, hdeclared, Option.map_some, Option.map_some, TypeRef.render, hprints,
    TypeRef.render]

/-- The declaration that suits several typed ones is typed. -/
theorem isTyped_unifyDeclarations {declarations : List Declaration} {unified : Declaration}
    (htyped : ∀ declaration ∈ declarations, ∀ type, declaration.type = some type →
      declaration.IsTyped schema type)
    (h : unifyDeclarations schema declarations = some unified) {type : TypeRef String}
    (htype : unified.type = some type) : unified.IsTyped schema type := by
  rcases Context.known_or_unknown declarations with hknown | hunknown
  · have hinput : ∀ declaration ∈ declarations, declaration.HasInputType schema := by
      intro declaration hmem
      obtain ⟨known, hdeclared⟩ := Option.isSome_iff_exists.mp (hknown declaration hmem)
      exact ⟨known, hdeclared, (htyped declaration hmem known hdeclared).isInput⟩
    obtain ⟨widest, hmem, top, htop, -, hcases⟩ := unifyDeclarations_eq_some hinput h
    have hwidest := htyped widest hmem top htop
    rcases hcases with ⟨-, rfl⟩ | ⟨hnullable, -, rfl⟩ | ⟨-, -, rfl⟩
    · obtain rfl := Option.some.inj (htop.symm.trans htype)
      exact hwidest.congr rfl
    · -- the layer is put on a type that allows null
      cases htype
      exact hwidest.nonNull hnullable rfl
    · obtain rfl := Option.some.inj (htop.symm.trans htype)
      exact hwidest.congr rfl
  · -- an unknown type makes the type of the result unknown
    obtain ⟨first, -, hfirst⟩ := unifyDeclarations_of_unknown hunknown
    rw [h, Option.some_inj] at hfirst
    rw [hfirst] at htype
    cases htype

end Declaration

/-! ## The declarations of definitions -/

variable {schema : Schema}

/-- The arguments of every fragment are typed. -/
theorem Fragment.areTyped_declarations (fragment : Fragment) :
    (fragment.declarations schema).AreTyped schema := by
  intro name declaration type hget htype
  obtain ⟨argument, -, heq⟩ := List.mem_map.mp (NameMap.mem_of_get?_ofList hget)
  cases heq
  exact Declaration.isTyped_ofArgument htype

/-- The variables of an operation are typed if their types are well-formed. -/
theorem Operation.areTyped_declarations {operation : Operation}
    (hform : ∀ declared ∈ operation.variableDefinitions, declared.type.WellFormed) :
    (operation.declarations schema).AreTyped schema := by
  intro name declaration type hget htype
  obtain ⟨declared, hmem, rfl⟩ := Operation.exists_ofVariable hget
  exact Declaration.isTyped_ofVariable (hform declared hmem) htype

/-- What operations with typed variables agree on is typed. -/
theorem Context.areTyped_unify {context : Context} {operations : List Operation}
    (htyped : ∀ operation ∈ operations,
      (operation.declarations context.schema).AreTyped context.schema) :
    (context.unify operations).declarations.AreTyped context.schema := by
  intro name unified type hget htype
  obtain ⟨-, hunify⟩ := get?_unify_eq_some_iff.mp hget
  refine Declaration.isTyped_unifyDeclarations (fun declaration hmem type hdeclared => ?_) hunify
    htype
  obtain ⟨operation, hoperation, hdeclaration⟩ := List.mem_filterMap.mp hmem
  exact htyped operation hoperation name declaration type hdeclaration hdeclared

/-- The declarations of all fragments are typed, and those of the operations of a document and of
what some of them agree on, if the types of the variables in the document are well-formed, as they
are in every document that is read from a source. Known types are written as they print, lead to
input types, and have no non-null layer directly inside another. In particular there is none where
operations agree on a type without null, nor where null is excluded from a known type. -/
theorem declarations_areTyped :
    (∀ source document, Document.parse source = .ok document → document.HasWellFormedVariables) ∧
    ∀ context : Context, context.document.HasWellFormedVariables →
      (∀ fragment ∈ context.document.fragments,
        (fragment.declarations context.schema).AreTyped context.schema) ∧
      (∀ operation ∈ context.document.operations,
        (operation.declarations context.schema).AreTyped context.schema) ∧
      ∀ operations ⊆ context.document.operations,
        (context.unify operations).declarations.AreTyped context.schema := by
  refine ⟨fun source document h => Document.hasWellFormedVariables_of_parse h, ?_⟩
  intro context hform
  have hoperations : ∀ operation ∈ context.document.operations,
      (operation.declarations context.schema).AreTyped context.schema :=
    fun operation hmem => Operation.areTyped_declarations (hform operation hmem)
  refine ⟨fun fragment _ => fragment.areTyped_declarations, hoperations, ?_⟩
  intro operations hsubset
  exact Context.areTyped_unify fun operation hmem => hoperations operation (hsubset hmem)

/-- The operations declare `$size` as `Int!` and as `Int = 1`. They agree on `Int!`, which is typed,
and so is the argument of the fragment. -/
theorem declarations_areTyped_size :
    let source := "query A($size: Int!) \x7b a \x7d query B($size: Int = 1) \x7b ...F \x7d " ++
      "fragment F on Query @argumentDefinitions(sizes: \x7btype: \"[Int!]!\"\x7d) \x7b a \x7d"
    let size : TypeRef String := .nonNull (.named "Int")
    let sizes : TypeRef String := .nonNull (.list size)
    ∃ document unified, ∃ fragment ∈ document.fragments, ∃ argument,
      Document.parse source = .ok document ∧
      ((Context.fresh pictureSchema document).unify document.operations).declarations.get? "size" =
        some unified ∧
      unified.type = some size ∧ unified.IsTyped pictureSchema size ∧
      (fragment.declarations pictureSchema).get? "sizes" = some argument ∧
      argument.type = some sizes ∧ argument.IsTyped pictureSchema sizes := by
  intro source size sizes
  let unified (document : Document) : Option Declaration :=
    ((Context.fresh pictureSchema document).unify document.operations).declarations.get? "size"
  let argument (fragment : Fragment) : Option Declaration :=
    (fragment.declarations pictureSchema).get? "sizes"
  -- one evaluation shows the types that are found; that they are typed is the general result
  have hrun : ((Document.parse source).toOption.any fun document =>
      (unified document).bind Declaration.type = some size &&
        document.fragments.any fun fragment =>
          (argument fragment).bind Declaration.type = some sizes) = true := by
    decide +kernel
  obtain ⟨document, hdocument, hrun⟩ := (Option.any_eq_true _ _).mp hrun
  rw [Bool.and_eq_true, decide_eq_true_eq, List.any_eq_true] at hrun
  obtain ⟨hsize, fragment, hfragment, hsizes⟩ := hrun
  obtain ⟨unified, hget, htype⟩ := Option.bind_eq_some_iff.mp hsize
  obtain ⟨argument, hargument, htypes⟩ := Option.bind_eq_some_iff.mp (of_decide_eq_true hsizes)
  obtain ⟨hform, htyped⟩ := declarations_areTyped
  have hparse : Document.parse source = .ok document := eq_ok_of_toOption hdocument
  obtain ⟨hfragments, -, hunify⟩ :=
    htyped (.fresh pictureSchema document) (hform source document hparse)
  exact ⟨document, unified, fragment, hfragment, argument, hparse, hget, htype,
    hunify _ (List.Subset.refl _) _ _ _ hget htype, hargument, htypes,
    hfragments fragment hfragment _ _ _ hargument htypes⟩

end RelayCheck
