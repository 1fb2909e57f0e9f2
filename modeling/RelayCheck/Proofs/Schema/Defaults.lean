import RelayCheck.Schema.Load
import RelayCheck.Schema.RelayDirectives

/-!
# Defaults that types exclude

A type without null excludes null as a default. A literal that is read at such a type never gives
null, so that the places of a schema which is made of definitions have no default that their types
exclude.

The module introduces:

- `Parameter.defaultFits`, whether the type of a place allows null where that is the default;
- `Schema.DefaultsFit`, the schemas all of whose places are like this.

The main result is `Schema.defaultsFit_of_load`.
-/

namespace RelayCheck

/-- Whether the place has no default that its type excludes. -/
def Parameter.defaultFits (parameter : Parameter) : Bool :=
  match parameter.type, parameter.default with
  | .nonNull _, some .null => false
  | _, _ => true

/-- The places of a type: its input fields, and the arguments of its fields. -/
def NamedType.parameters (type : NamedType) : List Parameter :=
  match type.shape with
  | .object _ fields | .interface _ fields => fields.flatMap OutputField.parameters
  | .inputObject fields _ => fields
  | .scalar | .union _ | .enum _ => []

/-- No place of the schema has a default that its type excludes. -/
structure Schema.DefaultsFit (schema : Schema) : Prop where
  types : ∀ type ∈ schema.types, ∀ parameter ∈ type.parameters, parameter.defaultFits = true
  directives : ∀ directive ∈ schema.directives, ∀ parameter ∈ directive.parameters,
    parameter.defaultFits = true

/-- A place whose type excludes null does not have null as its default. -/
theorem Parameter.default_ne_null {parameter : Parameter} (hfits : parameter.defaultFits = true)
    {inner : TypeRef String} (htype : parameter.type = .nonNull inner) :
    parameter.default ≠ some .null := by
  intro hdefault
  rw [defaultFits, htype, hdefault] at hfits
  cases hfits

/-! ## Reading literals -/

/-- A leaf type reads as null only what denotes null anywhere. -/
theorem NamedType.plain_eq_null_of_readLeaf {type : NamedType} {value : Value}
    (hread : type.readLeaf value = .ok .null) : value.plain = .null := by
  unfold readLeaf at hread
  split at hread
  · -- the values of enums
    split at hread
    · split at hread
      · cases hread
      · cases hread
    · cases hread
  · -- the standard scalars, which take what they name, and then all others
    split at hread
    · split at hread
      · split at hread
        · cases hread
        · split at hread
          · cases hread
          · cases hread
      · cases hread
    · split at hread
      · cases hread
      · cases hread
      · cases hread
    · split at hread
      · cases hread
      · cases hread
    · split at hread
      · cases hread
      · cases hread
    · split at hread
      · cases hread
      · cases hread
      · cases hread
    · exact Except.ok.inj hread

/-- Whether what is left to be known of a literal denotes null anywhere. -/
def Reader.DenotesNull : Reader → Prop
  | .null => True
  | .missing => False
  | .leaf value | .list value _ | .object value _ => value.plain = .null

namespace Schema

variable {schema : Schema}

/-- A named type reads as null only what denotes null anywhere. -/
theorem denotesNull_of_coerceNamed {type : NamedType} {reader : Reader}
    (hread : coerceNamed type reader = some .null) : reader.DenotesNull := by
  have hleaf (value : Value)
      (hvalue : (if type.isLeaf then (type.readLeaf value).toOption else none) = some .null) :
      value.plain = .null := by
    split at hvalue
    · cases hresult : type.readLeaf value with
      | ok result =>
        rw [hresult] at hvalue
        exact NamedType.plain_eq_null_of_readLeaf (hresult.trans (congrArg _ (Option.some_inj.mp hvalue)))
      | error fault =>
        rw [hresult] at hvalue
        cases hvalue
    · cases hvalue
  cases reader with
  | null => cases hread
  | missing => cases hread
  | leaf value => exact hleaf value hread
  | list value items => exact hleaf value hread
  | object value given =>
    cases hshape : type.shape with
    | inputObject parameters oneOf =>
      -- an input object reads as an object or not at all
      simp only [coerceNamed, hshape, Option.bind_eq_bind, Option.bind_eq_some_iff] at hread
      obtain ⟨fields, -, hfields⟩ := hread
      split at hfields
      · cases hfields
      · cases hfields
    | scalar | object | interface | union | enum =>
      simp only [coerceNamed, hshape] at hread
      exact hleaf value hread

/-- A type reads as null only what denotes null anywhere. -/
theorem denotesNull_of_coerceReader {reader : Reader} {type : TypeRef String}
    (hread : schema.coerceReader reader type = some .null) : reader.DenotesNull := by
  -- along the type: a list type reads only null as null, a required type what its inner type does
  induction type with
  | named name =>
    cases reader with
    | null => trivial
    | missing | leaf | list | object =>
      obtain ⟨type, -, hnamed⟩ := Option.bind_eq_some_iff.mp hread
      exact denotesNull_of_coerceNamed hnamed
  | list item ih =>
    cases reader with
    | null => trivial
    | missing => cases hread
    | list | leaf | object =>
      obtain ⟨_, -, hlist⟩ := Option.map_eq_some_iff.mp hread
      cases hlist
  | nonNull inner ih =>
    cases reader with
    | null => trivial
    | missing => cases hread
    | list | leaf | object =>
      exact ih hread

/-- A literal never reads as null at a type without null. -/
theorem coerce_nonNull_ne_null (value : Value) (inner : TypeRef String) :
    schema.coerce value (.nonNull inner) ≠ some .null := by
  intro hread
  have hnull : (schema.reader value).DenotesNull := denotesNull_of_coerceReader hread
  cases value with
  | null => cases hread
  | _ =>
    rw [reader, Reader.DenotesNull] at hnull
    cases hnull

end Schema

/-! ## Schemas from definitions -/

/-- The place that a declaration describes has no default that its type excludes. -/
theorem InputDefinition.defaultFits_parameter (schema : Schema) (declared : InputDefinition) :
    (declared.parameter schema).defaultFits = true := by
  unfold Parameter.defaultFits
  split
  next inner htype hdefault =>
    obtain ⟨value, -, hread⟩ := Option.bind_eq_some_iff.mp hdefault
    rw [show plainType declared.type = .nonNull inner from htype] at hread
    exact absurd hread (schema.coerce_nonNull_ne_null value inner)
  next => rfl

/-- The types by which a schema describes itself have no default that a type excludes. -/
theorem defaultFits_introspectionTypes :
    ∀ type ∈ introspectionTypes, ∀ parameter ∈ type.parameters,
      parameter.defaultFits = true := by
  decide

namespace TypeDefinition

/-- The places that declarations describe have no default that a type excludes. -/
theorem defaultFits_parameters {schema : Schema} {declared : List InputDefinition} :
    ∀ parameter ∈ RelayCheck.parameters schema declared, parameter.defaultFits = true := by
  rw [RelayCheck.parameters, List.forall_mem_map]
  exact fun input _ => input.defaultFits_parameter schema

/-- The type that a definition describes has no default that a type excludes. -/
theorem defaultFits_namedType (schema : Schema) (type : TypeDefinition) :
    ∀ parameter ∈ (type.namedType schema).parameters, parameter.defaultFits = true := by
  rw [namedType]
  split
  next => exact List.forall_mem_nil _
  next =>
    split
    next standard hstandard =>
      exact defaultFits_introspectionTypes standard (List.mem_of_find?_eq_some hstandard)
    next =>
      rw [NamedType.parameters, shape]
      cases type.body with
      | object interfaces fields | interface interfaces fields =>
        simp only [outputFields, List.flatMap_map, List.mem_flatMap]
        rintro parameter ⟨field, -, hparameter⟩
        exact defaultFits_parameters parameter hparameter
      | inputObject fields => exact defaultFits_parameters
      | scalar | union members | enum values => exact List.forall_mem_nil _

end TypeDefinition

/-- The standard directives have no default that a type excludes. -/
theorem defaultFits_standardDirectives :
    ∀ directive ∈ standardDirectives, ∀ parameter ∈ directive.parameters,
      parameter.defaultFits = true := by
  decide

/-- The Relay directives have no default that a type excludes. -/
theorem defaultFits_relayDirectives :
    ∀ directive ∈ relayDirectives, ∀ parameter ∈ directive.parameters,
      parameter.defaultFits = true := by
  decide

/-- The schema that a document defines has no default that a type excludes, whatever the schema
with which defaults are read. -/
theorem Document.defaultsFit_schemaWith (document : Document) (schema : Schema) :
    (document.schemaWith schema).DefaultsFit := by
  constructor
  · intro type htype
    simp only [schemaWith, List.mem_append, List.mem_map, List.mem_filter] at htype
    rcases htype with (⟨declared, -, rfl⟩ | ⟨name, -, rfl⟩) | ⟨hstandard, -⟩
    · exact declared.defaultFits_namedType schema
    · exact List.forall_mem_nil _
    · exact defaultFits_introspectionTypes type hstandard
  · intro directive hdirective
    simp only [schemaWith, schemaDirectives, List.mem_append, List.mem_map, List.mem_filter]
      at hdirective
    rcases hdirective with ⟨declared, -, rfl⟩ | ⟨hstandard, -⟩
    · exact TypeDefinition.defaultFits_parameters
    · exact defaultFits_standardDirectives directive hstandard

namespace Schema

/-- A schema that is read from a text is the one that the document in the text defines. -/
theorem exists_document_of_load {source : String} {schema : Schema}
    (hload : Schema.load source = .ok schema) :
    ∃ document, Document.parse source = .ok document ∧ document.schema = schema := by
  unfold Schema.load at hload
  split at hload
  next => cases hload
  next document hparse =>
    -- the checks that follow may refuse the schema, but do not change it
    refine ⟨document, hparse, ?_⟩
    split at hload
    next =>
      split at hload
      next => cases hload
      next =>
        dsimp only at hload
        split at hload
        next => exact Except.ok.inj hload
        next => cases hload
    next =>
      split at hload
      next => cases hload
      next => cases hload

/-- A schema that is read from a text has no default that a type excludes. -/
theorem defaultsFit_of_load {source : String} {schema : Schema}
    (hload : Schema.load source = .ok schema) : schema.DefaultsFit := by
  obtain ⟨document, -, rfl⟩ := exists_document_of_load hload
  exact document.defaultsFit_schemaWith _

/-- The Relay directives add no default that a type excludes. -/
theorem DefaultsFit.withRelayDirectives {schema : Schema} (hfits : schema.DefaultsFit) :
    schema.withRelayDirectives.DefaultsFit := by
  refine ⟨hfits.types, fun directive hdirective => ?_⟩
  rcases List.mem_append.mp hdirective with hown | hrelay
  · exact hfits.directives directive (List.mem_filter.mp hown).1
  · exact defaultFits_relayDirectives directive hrelay

end Schema

end RelayCheck
