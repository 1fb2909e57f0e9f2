import RelayCheck.Proofs.Schema.Defaults
import RelayCheck.Proofs.Schema.Subtype

/-!
# Schemas with the Relay directives

Documents are checked against a copy of their schema that has the Relay directives. The copy is made
anew of types, directives and roots, for which the built-in types are collected that these mention.
Every schema already has those that the Relay directives mention, so that nothing is collected, and
the schema and its copy have the same types.

The module introduces:

- `Schema.completed`, the schema that is made of types, directives and roots;
- `Schema.IsComplete`, the schemas that are made in this way.

The main result is `withRelayDirectives_replaces`.
-/

namespace RelayCheck

/-! ## Making a schema -/

namespace Schema

variable {schema : Schema}

/-- Whether a type of the schema has the given name. -/
def defines (schema : Schema) (name : String) : Bool :=
  schema.types.any fun type => type.name == name

/-- The names of types that the types, the directives and the roots of the schema mention, and those
that every schema mentions where it describes itself. -/
def mentioned (schema : Schema) : List String :=
  schema.types.flatMap NamedType.mentions
    ++ schema.directives.flatMap (fun directive => directive.parameters.map fun parameter =>
      parameter.type.baseName)
    ++ introspectionTypes.flatMap NamedType.mentions
    ++ OperationKind.all.filterMap schema.root?

/-- The built-in types that the schema lacks: the scalars that are mentioned, and the types by which
a schema describes itself. -/
def missing (schema : Schema) : List NamedType :=
  (scalarNames.filter fun name =>
      schema.mentioned.contains name && !schema.defines name).map scalarType
    ++ introspectionTypes.filter fun type => !schema.defines type.name

/-- The schema that is made of the types, directives and roots: built-in types that it lacks come
after its own. -/
def completed (schema : Schema) : Schema :=
  { schema with types := schema.types ++ schema.missing }

/-- The schema has the built-in types that a schema needs. -/
structure IsComplete (schema : Schema) : Prop where
  /-- The scalars that are mentioned are defined. -/
  scalars : ∀ name ∈ scalarNames, name ∈ schema.mentioned → schema.defines name = true
  /-- The schema can describe itself. -/
  introspection : ∀ type ∈ introspectionTypes, schema.defines type.name = true

/-- A schema is complete exactly if it lacks no built-in types. -/
theorem isComplete_iff_missing : schema.IsComplete ↔ schema.missing = [] := by
  rw [missing, List.append_eq_nil_iff, List.map_eq_nil_iff, List.filter_eq_nil_iff,
    List.filter_eq_nil_iff]
  simp only [Bool.and_eq_true, List.contains_iff_mem, Bool.not_eq_true', not_and,
    Bool.not_eq_false]
  exact ⟨fun h => ⟨h.scalars, h.introspection⟩, fun h => ⟨h.1, h.2⟩⟩

/-- A schema is complete exactly if it stays the same when it is made anew. -/
theorem isComplete_iff : schema.IsComplete ↔ schema.completed = schema := by
  rw [isComplete_iff_missing]
  constructor
  · intro h
    rw [completed, h, List.append_nil]
  · intro h
    have htypes : schema.types ++ schema.missing = schema.types := congrArg types h
    exact List.append_right_eq_self.mp htypes

/-- The types that a schema lacks mention nothing but what a schema mentions where it describes
itself. -/
theorem mentions_subset_of_mem_missing {type : NamedType} (h : type ∈ schema.missing) :
    type.mentions ⊆ introspectionTypes.flatMap NamedType.mentions := by
  rcases List.mem_append.mp h with hscalar | hintrospection
  · obtain ⟨name, -, rfl⟩ := List.mem_map.mp hscalar
    exact List.nil_subset _
  · exact fun name hname =>
      List.mem_flatMap.mpr ⟨type, (List.mem_filter.mp hintrospection).1, hname⟩

/-- A schema mentions no more when the types that it lacks are added. -/
theorem mentioned_completed_subset : schema.completed.mentioned ⊆ schema.mentioned := by
  intro name hname
  simp only [mentioned, completed, List.flatMap_append, List.mem_append] at hname ⊢
  rcases hname with (((hown | hmissing) | hdirective) | hstandard) | hroot
  · exact .inl (.inl (.inl hown))
  · obtain ⟨type, htype, hmention⟩ := List.mem_flatMap.mp hmissing
    exact .inl (.inr (mentions_subset_of_mem_missing htype hmention))
  · exact .inl (.inl (.inr hdirective))
  · exact .inl (.inr hstandard)
  · exact .inr hroot

/-- A type that a schema has, or else lacks, is there when the schema is completed. -/
theorem defines_completed (type : NamedType)
    (h : schema.defines type.name = false → type ∈ schema.missing) :
    schema.completed.defines type.name = true := by
  rw [defines, completed, List.any_append, Bool.or_eq_true]
  cases hdefined : schema.defines type.name with
  | true => exact .inl hdefined
  | false => exact .inr (List.any_eq_true.mpr ⟨type, h hdefined, beq_self_eq_true _⟩)

/-- A schema that is made is complete. -/
theorem isComplete_completed (schema : Schema) : schema.completed.IsComplete where
  scalars name hname hmentioned := by
    refine defines_completed (scalarType name) fun hundefined => ?_
    refine List.mem_append_left _ (List.mem_map_of_mem (List.mem_filter.mpr ⟨hname, ?_⟩))
    have hmentioned := List.contains_iff_mem.mpr (mentioned_completed_subset hmentioned)
    rw [hmentioned, show schema.defines name = false from hundefined]
    rfl
  introspection type htype := by
    refine defines_completed type fun hundefined => ?_
    refine List.mem_append_right _ (List.mem_filter.mpr ⟨htype, ?_⟩)
    rw [hundefined, Bool.not_false]

end Schema

/-- The schema that a document defines is made of the types and directives of its definitions. -/
theorem Document.schemaWith_eq_completed (document : Document) (schema : Schema) :
    document.schemaWith schema = Schema.completed
      { types := document.extendedTypes.map (TypeDefinition.namedType schema)
        directives := document.schemaDirectives schema
        query := document.rootName? .query
        mutation := document.rootName? .mutation
        subscription := document.rootName? .subscription } := by
  rw [Schema.completed, Schema.missing, ← List.append_assoc]
  rfl

/-- A schema that is read from a text is complete. -/
theorem Schema.isComplete_of_load {source : String} {schema : Schema}
    (hload : Schema.load source = .ok schema) : schema.IsComplete := by
  obtain ⟨document, -, rfl⟩ := exists_document_of_load hload
  rw [Document.schema, Document.schemaAfter, Document.schemaWith_eq_completed]
  exact isComplete_completed _

/-! ## The Relay directives -/

/-- No two Relay directives have the same name. -/
theorem nodup_names_relayDirectives : (relayDirectives.map SchemaDirective.name).Nodup := by
  decide

/-- The Relay directives mention no types that a schema does not mention where it describes itself.
-/
theorem baseName_mem_of_relayDirectives :
    ∀ directive ∈ relayDirectives, ∀ parameter ∈ directive.parameters,
      parameter.type.baseName ∈ introspectionTypes.flatMap NamedType.mentions := by
  decide

/-- The Relay names are those of the Relay directives. -/
theorem isRelayName_iff {name : String} :
    isRelayName name = true ↔ name ∈ relayDirectives.map SchemaDirective.name := by
  rw [isRelayName, List.any_eq_true, List.mem_map]
  simp only [beq_iff_eq]

/-- The name of a Relay directive leads to this directive. -/
theorem find?_relayDirectives {directive : SchemaDirective} (h : directive ∈ relayDirectives) :
    relayDirectives.find? (fun other => other.name == directive.name) = some directive := by
  simp only [relayDirectives, List.mem_cons, List.not_mem_nil, or_false] at h
  rcases h with rfl | rfl | rfl | rfl | rfl <;> rfl

namespace Schema

variable {schema : Schema}

/-- With the Relay directives, a name of one of them leads to it, and any other name to what it led
to before. -/
theorem directive?_withRelayDirectives (name : String) :
    schema.withRelayDirectives.directive? name =
      if isRelayName name then relayDirectives.find? fun directive => directive.name == name
      else schema.directive? name := by
  rw [directive?, withRelayDirectives, List.find?_append, List.find?_filter]
  cases hrelay : isRelayName name with
  | true =>
    -- a directive of the name that is looked for is one of those that are replaced
    rw [Option.or_eq_right_of_none]
    · rfl
    · refine List.find?_eq_none.mpr fun directive _ => ?_
      rw [decide_eq_true_eq, beq_iff_eq]
      rintro ⟨hother, rfl⟩
      rw [hrelay] at hother
      cases hother
  | false =>
    have hnone : relayDirectives.find? (fun directive => directive.name == name) = none :=
      List.find?_eq_none.mpr fun directive hmem => List.any_eq_false.mp hrelay directive hmem
    rw [hnone, Option.or_none, if_neg Bool.false_ne_true]
    -- a directive of the name that is looked for is kept
    refine congrArg schema.directives.find? (funext fun directive => ?_)
    rw [Bool.eq_iff_iff, decide_eq_true_eq, and_iff_right_iff_imp, beq_iff_eq]
    rintro rfl
    rw [hrelay, Bool.not_false]

/-- Schemas in which names lead to the same types have the same input types. -/
theorem inputType?_congr {other : Schema} (h : ∀ name, other.type? name = schema.type? name)
    (type : TypeRef String) : other.inputType? type = schema.inputType? type := by
  rw [inputType?, inputType?, baseIs, baseIs, h]

/-- Schemas in which names lead to the same types have the same subtypes. -/
theorem isSubtype_congr {other : Schema} (h : ∀ name, other.type? name = schema.type? name)
    (sub super : TypeRef String) : other.isSubtype sub super = schema.isSubtype sub super := by
  fun_induction schema.isSubtype sub super with
  | case1 sub super ih => rw [isSubtype, ih]
  | case2 sub super hsuper ih =>
    rw [isSubtype, ih]
    exact hsuper
  | case3 super sub hsub =>
    rw [isSubtype]
    exact hsub
  | case4 sub super ih => rw [isSubtype, ih]
  | case5 sub super => rw [isSubtype, includesName, includesName, h, h]
  | case6 sub super => rw [isSubtype]
  | case7 sub super => rw [isSubtype]

/-- The Relay directives replace those of their names, so that no two directives have the same name
if this was so before. -/
theorem nodup_names_withRelayDirectives
    (hnodup : (schema.directives.map SchemaDirective.name).Nodup) :
    (schema.withRelayDirectives.directives.map SchemaDirective.name).Nodup := by
  rw [withRelayDirectives, List.map_append, List.nodup_append]
  refine ⟨hnodup.sublist (List.filter_sublist.map _), nodup_names_relayDirectives, ?_⟩
  rintro name hown other hrelay rfl
  obtain ⟨directive, hdirective, rfl⟩ := List.mem_map.mp hown
  have hother := (List.mem_filter.mp hdirective).2
  rw [isRelayName_iff.mpr hrelay] at hother
  cases hother

/-- The Relay directives are no longer replaced once they are there. -/
theorem withRelayDirectives_withRelayDirectives (schema : Schema) :
    schema.withRelayDirectives.withRelayDirectives = schema.withRelayDirectives := by
  have hown (directives : List SchemaDirective) :
      ((directives.filter fun directive => !isRelayName directive.name).filter fun directive =>
        !isRelayName directive.name) =
          directives.filter fun directive => !isRelayName directive.name := by
    rw [List.filter_filter]
    simp only [Bool.and_self]
  have hrelay : (relayDirectives.filter fun directive => !isRelayName directive.name) = [] := by
    decide
  rw [withRelayDirectives, withRelayDirectives, List.filter_append, hown, hrelay, List.append_nil]

/-- With the Relay directives, no types are mentioned that were not mentioned before. -/
theorem mentioned_withRelayDirectives_subset :
    schema.withRelayDirectives.mentioned ⊆ schema.mentioned := by
  intro name hname
  simp only [mentioned, withRelayDirectives, List.flatMap_append, List.mem_append] at hname ⊢
  rcases hname with ((htype | hown | hrelay) | hstandard) | hroot
  · exact .inl (.inl (.inl htype))
  · obtain ⟨directive, hdirective, hmention⟩ := List.mem_flatMap.mp hown
    have hmem := (List.mem_filter.mp hdirective).1
    exact .inl (.inl (.inr (List.mem_flatMap.mpr ⟨directive, hmem, hmention⟩)))
  · obtain ⟨directive, hdirective, hmention⟩ := List.mem_flatMap.mp hrelay
    obtain ⟨parameter, hparameter, rfl⟩ := List.mem_map.mp hmention
    exact .inl (.inr (baseName_mem_of_relayDirectives directive hdirective parameter hparameter))
  · exact .inl (.inr hstandard)
  · exact .inr hroot

/-- A complete schema is complete with the Relay directives. -/
theorem IsComplete.withRelayDirectives (h : schema.IsComplete) :
    schema.withRelayDirectives.IsComplete where
  scalars name hname hmentioned :=
    h.scalars name hname (mentioned_withRelayDirectives_subset hmentioned)
  introspection := h.introspection

/-- A directive of a schema remains, in its place among the others, unless it has the name of a
Relay directive, and the Relay directives come last. So names remain distinct, the name of a Relay
directive leads to it whatever it led to before, and other names lead where they did. A schema to
which this is done has the same types before and after, also when it is made anew, so that types are
looked up and compared as before. To do it again changes nothing. -/
theorem withRelayDirectives_replaces
    (hnodup : (schema.directives.map SchemaDirective.name).Nodup) :
    let extended := schema.withRelayDirectives
    extended.directives =
      (schema.directives.filter fun directive =>
        directive.name ∉ relayDirectives.map SchemaDirective.name) ++ relayDirectives ∧
    (extended.directives.map SchemaDirective.name).Nodup ∧
    (∀ relay ∈ relayDirectives, extended.directive? relay.name = some relay) ∧
    (∀ name ∉ relayDirectives.map SchemaDirective.name,
      extended.directive? name = schema.directive? name) ∧
    (schema.completed = schema → extended.completed = extended) ∧
    (∀ source, Schema.load source = .ok schema → extended.completed = extended) ∧
    (∀ name, extended.type? name = schema.type? name) ∧
    (∀ type, extended.inputType? type = schema.inputType? type) ∧
    (∀ sub super, extended.isSubtype sub super = schema.isSubtype sub super) ∧
    extended.withRelayDirectives = extended := by
  intro extended
  have htype (name : String) : extended.type? name = schema.type? name := rfl
  refine ⟨?_, nodup_names_withRelayDirectives hnodup, fun relay hrelay => ?_, fun name hname => ?_,
    fun hcompleted => isComplete_iff.mp (isComplete_iff.mpr hcompleted).withRelayDirectives,
    fun source hload => isComplete_iff.mp (isComplete_of_load hload).withRelayDirectives, htype,
    inputType?_congr htype, isSubtype_congr htype,
    withRelayDirectives_withRelayDirectives schema⟩
  · refine congrArg (· ++ relayDirectives) (List.filter_congr fun directive _ => ?_)
    rw [Bool.eq_iff_iff, decide_eq_true_eq, ← isRelayName_iff, Bool.not_eq_true',
      Bool.not_eq_true]
  · rw [directive?_withRelayDirectives, if_pos (isRelayName_iff.mpr (List.mem_map_of_mem hrelay))]
    exact find?_relayDirectives hrelay
  · rw [directive?_withRelayDirectives, if_neg (mt isRelayName_iff.mp hname)]

/-- A schema that has `@arguments` on fields, with an argument. The Relay directive of this name
comes in its place, and the schema is the same as if it were made anew. -/
theorem withRelayDirectives_replaces_arguments :
    let own : SchemaDirective := ⟨argumentsName, [.field], [parameter "size" (.named "Int")], false⟩
    let query : NamedType := ⟨"Query", .object [] [⟨"size", [], .named "Int"⟩]⟩
    let schema := completed ⟨[query], own :: standardDirectives, some "Query", none, none⟩
    let extended := schema.withRelayDirectives
    (schema.directives.map SchemaDirective.name).Nodup ∧
      schema.directive? argumentsName = some own ∧
      extended.directives = standardDirectives ++ relayDirectives ∧
      extended.directive? argumentsName = some ⟨argumentsName, [.fragmentSpread], [], false⟩ ∧
      (schema.types.take 4).map NamedType.name = ["Query", "String", "Int", "Boolean"] ∧
      extended.completed = extended := by
  intro own query schema extended
  have hnodup : (schema.directives.map SchemaDirective.name).Nodup := by decide
  obtain ⟨hdirectives, -, hrelay, -, hcompleted, -⟩ := withRelayDirectives_replaces hnodup
  have harguments : ⟨argumentsName, [.fragmentSpread], [], false⟩ ∈ relayDirectives :=
    List.mem_cons_of_mem _ List.mem_cons_self
  exact ⟨hnodup, rfl, hdirectives, hrelay _ harguments, by decide,
    hcompleted (isComplete_iff.mp (isComplete_completed _))⟩

end Schema

end RelayCheck
