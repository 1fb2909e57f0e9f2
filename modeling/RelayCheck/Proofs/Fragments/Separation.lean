import RelayCheck.Proofs.Fragments.Reachability

/-!
# Documents put together

Two documents are put together by listing the definitions of the first before those of the second.
If none of them mentions a fragment of the other, the operations and fragments of each are related
by spreads as before.

The module introduces:

- `Document.Spreads` and `Document.Mentions`, the names of fragments that occur in a document;
- `Document.Separate`: two documents mention no fragments of each other;
- `Context.IsPartOf`: spreads in the document of one context lead where they lead in another.

The main results are `Document.Separate.isPartOf_left` and `Document.Separate.isPartOf_right`.
-/

namespace RelayCheck

/-! ## Names of fragments in a document -/

namespace Document

/-- A spread of a fragment of the given name occurs in the document. -/
def Spreads (document : Document) (name : String) : Prop :=
  ∃ definition ∈ document.definitions, SpreadIn name definition.selections

/-- The name is that of a fragment which the document defines or spreads. -/
def Mentions (document : Document) (name : String) : Prop :=
  (∃ fragment ∈ document.fragments, fragment.name.text = name) ∨ document.Spreads name

instance (name : String) (selections : List Selection) : Decidable (SpreadIn name selections) :=
  decidable_of_iff _ mem_spreadNames_iff

instance (document : Document) (name : String) : Decidable (document.Spreads name) :=
  inferInstanceAs (Decidable (∃ definition ∈ document.definitions, SpreadIn name _))

instance (document : Document) (name : String) : Decidable (document.Mentions name) :=
  inferInstanceAs (Decidable (_ ∨ _))

variable {document : Document}

/-- What an operation of the document spreads, the document spreads. -/
theorem spreads_of_operation {operation : Operation} {name : String}
    (hmem : operation ∈ document.operations) (hspread : SpreadIn name operation.selections) :
    document.Spreads name :=
  ⟨.operation operation, mem_operations_iff.mp hmem, hspread⟩

/-- What a fragment of the document spreads, the document spreads. -/
theorem spreads_of_fragment {fragment : Fragment} {name : String}
    (hmem : fragment ∈ document.fragments) (hspread : SpreadIn name fragment.selections) :
    document.Spreads name :=
  ⟨.fragment fragment, mem_fragments_iff.mp hmem, hspread⟩

/-- No fragment is found under a name exactly if the document defines none of that name. -/
theorem fragment?_eq_none_iff {name : String} :
    document.fragment? name = none ↔
      ∀ fragment ∈ document.fragments, fragment.name.text ≠ name := by
  simp [fragment?]

/-- A document of operations and fragments defines no directives. -/
theorem directives_eq_nil_of_executable
    (hexecutable : ∀ definition ∈ document.definitions, definition.isTypeSystem = false) :
    document.directives = [] := by
  rw [directives, List.filterMap_eq_nil_iff]
  intro definition hmem
  have hdefinition := hexecutable definition hmem
  cases definition with
  | operation | fragment | schema | schemaExtension | type | typeExtension => rfl
  | directive => cases hdefinition

/-! ## Documents put together -/

instance : Append Document :=
  ⟨fun first second => ⟨first.definitions ++ second.definitions⟩⟩

variable {first second : Document}

/-- The definitions of the first document come before those of the second. -/
@[simp]
theorem definitions_append : (first ++ second).definitions =
    first.definitions ++ second.definitions := rfl

/-- The operations of the first document come before those of the second. -/
@[simp]
theorem operations_append : (first ++ second).operations =
    first.operations ++ second.operations := by
  simp [operations]

/-- The fragments of the first document come before those of the second. -/
@[simp]
theorem fragments_append : (first ++ second).fragments =
    first.fragments ++ second.fragments := by
  simp [fragments]

/-- Fragments are looked up in the second document, then in the first. -/
theorem fragment?_append (name : String) :
    (first ++ second).fragment? name = (second.fragment? name).or (first.fragment? name) := by
  simp [fragment?]

/-- Neither of two documents mentions a fragment that the other one defines. -/
structure Separate (first second : Document) : Prop where
  left : ∀ fragment ∈ first.fragments, ¬second.Mentions fragment.name.text
  right : ∀ fragment ∈ second.fragments, ¬first.Mentions fragment.name.text

namespace Separate

/-- A name that the first document mentions leads to no fragment of the second. -/
theorem fragment?_right_eq_none (hseparate : first.Separate second) {name : String}
    (hmentions : first.Mentions name) : second.fragment? name = none := by
  rw [fragment?_eq_none_iff]
  rintro fragment hmem rfl
  exact hseparate.right fragment hmem hmentions

/-- A name that the second document mentions leads to no fragment of the first. -/
theorem fragment?_left_eq_none (hseparate : first.Separate second) {name : String}
    (hmentions : second.Mentions name) : first.fragment? name = none := by
  rw [fragment?_eq_none_iff]
  rintro fragment hmem rfl
  exact hseparate.left fragment hmem hmentions

/-- Spreads in the first document lead where they led before. -/
theorem fragment?_append_left (hseparate : first.Separate second) {name : String}
    (hmentions : first.Mentions name) :
    (first ++ second).fragment? name = first.fragment? name := by
  rw [fragment?_append, hseparate.fragment?_right_eq_none hmentions, Option.none_or]

/-- Spreads in the second document lead where they led before. -/
theorem fragment?_append_right (hseparate : first.Separate second) {name : String}
    (hmentions : second.Mentions name) :
    (first ++ second).fragment? name = second.fragment? name := by
  rw [fragment?_append, hseparate.fragment?_left_eq_none hmentions, Option.or_none]

end Separate

/-- If spreads in a part of a document lead where they lead in the part alone, a search from them
finds the same fragments in the same order. -/
theorem reachFrom_eq_of_part {part whole : Document}
    (hsame : ∀ name, part.Spreads name → whole.fragment? name = part.fragment? name)
    (visited queue : List String) (hqueue : ∀ name ∈ queue, part.Spreads name) :
    whole.reachFrom visited queue = part.reachFrom visited queue := by
  fun_induction part.reachFrom visited queue with
  | case1 visited => rw [reachFrom]
  | case2 visited name queue hvisited ih =>
    rw [reachFrom, dif_pos hvisited]
    exact ih fun other hother => hqueue other (List.mem_cons_of_mem _ hother)
  | case3 visited name queue hnew hunknown ih =>
    rw [← hsame name (hqueue name List.mem_cons_self)] at hunknown
    rw [reachFrom, dif_neg hnew]
    split
    · exact ih fun other hother => hqueue other (List.mem_cons_of_mem _ hother)
    next fragment hfound =>
      rw [hunknown] at hfound
      cases hfound
  | case4 visited name queue hnew found hfound ih =>
    -- the fragment found is one of the part, and so its spreads are, too
    obtain ⟨hmem, -⟩ := mem_fragments_of_fragment? hfound
    rw [← hsame name (hqueue name List.mem_cons_self)] at hfound
    rw [reachFrom, dif_neg hnew]
    split
    next hunknown =>
      rw [hunknown] at hfound
      cases hfound
    next fragment hfragment =>
      rw [hfragment, Option.some_inj] at hfound
      rw [hfound, ih]
      intro other hother
      rcases List.mem_append.mp hother with hother | hother
      · exact hqueue other (List.mem_cons_of_mem _ hother)
      · exact spreads_of_fragment hmem (mem_spreadNames_iff.mp hother)

end Document

/-! ## Parts of contexts -/

namespace Context

/-- An operation reaches nothing if all its spreads lead nowhere. -/
theorem reached_eq_nil {context : Context} {operation : Operation}
    (hnowhere : ∀ name, SpreadIn name operation.selections →
      context.document.fragment? name = none) : context.reached operation = [] := by
  rw [List.eq_nil_iff_forall_not_mem]
  intro fragment hfragment
  induction mem_reached_iff.mp hfragment with
  | direct hspread hfound =>
    rw [hnowhere _ hspread] at hfound
    cases hfound
  | step hmiddle hspread hfound ih => exact ih (mem_reached_iff.mpr hmiddle)

/-- What an operation reaches is defined by the document. -/
theorem mem_fragments_of_mem_reached {context : Context} {operation : Operation}
    {fragment : Fragment} (h : fragment ∈ context.reached operation) :
    fragment ∈ context.document.fragments :=
  (Document.mem_fragments_of_fragment? (mem_reached_iff.mp h).fragment?_name).1

/-- The operations that use a fragment are the operations of the document, in order, that reach one
of its name. -/
theorem operationsReaching_eq_filter (context : Context) (name : String) :
    context.operationsReaching name = context.document.operations.filter fun operation =>
      (context.reached operation).any fun fragment => fragment.name.text == name := by
  rw [operationsReaching, Reach.operations, reach, List.filter_map, List.map_map]
  exact List.map_id' _

/-- No operation uses a fragment that the document does not define. -/
theorem operationsReaching_eq_nil {context : Context} {name : String}
    (hundefined : ∀ fragment ∈ context.document.fragments, fragment.name.text ≠ name) :
    context.operationsReaching name = [] := by
  rw [List.eq_nil_iff_forall_not_mem]
  intro operation hoperation
  obtain ⟨-, fragment, hfragment, hname⟩ := mem_operationsReaching.mp hoperation
  exact hundefined fragment (mem_fragments_of_mem_reached hfragment) hname

/-- The document of one context is a part of that of another: what it spreads leads to the same
fragments, and its fragments are used by the same operations. -/
structure IsPartOf (part whole : Context) : Prop where
  schema_eq : whole.schema = part.schema
  fragment?_eq : ∀ name, part.document.Spreads name → whole.fragment? name = part.fragment? name
  reached_eq : ∀ operation ∈ part.document.operations,
    whole.reached operation = part.reached operation
  operationsReaching_eq : ∀ fragment ∈ part.document.fragments,
    whole.operationsReaching fragment.name.text = part.operationsReaching fragment.name.text

/-- The names that an operation of the document spreads are found for an operation: for itself, if
for no other. -/
theorem isSome_foundNames?_ofDocument (schema : Schema) {document : Document}
    {operation : Operation} (hmem : operation ∈ document.operations) :
    ((ofDocument schema document).foundNames?
      (spreadNames operation.selections)).isSome = true := by
  rw [foundNames?, List.isSome_findSome?, List.any_eq_true]
  refine ⟨operation, hmem, ?_⟩
  simp [sameNames]

/-- Names are found for an operation of the first document, or else for one of the second. -/
theorem foundNames?_append (schema : Schema) (first second : Document) (names : List String) :
    (ofDocument schema (first ++ second)).foundNames? names =
      ((ofDocument schema first).foundNames? names).or
        ((ofDocument schema second).foundNames? names) := by
  simp [foundNames?, ofDocument, List.findSome?_append]

/-- Names found for an operation of the document are spread by it. -/
theorem exists_of_foundNames?_ofDocument {schema : Schema} {document : Document}
    {names found : List String} (h : (ofDocument schema document).foundNames? names = some found) :
    ∀ name ∈ names, document.Spreads name := by
  obtain ⟨other, hmem, hother⟩ := List.exists_of_findSome?_eq_some h
  simp only [Option.ite_none_right_eq_some, sameNames, Bool.and_eq_true, List.all_eq_true,
    List.contains_iff_mem] at hother
  intro name hname
  exact Document.spreads_of_operation hmem (mem_spreadNames_iff.mp (hother.1.2 name hname))

end Context

namespace Document.Separate

variable {first second : Document}

/-- Operations of the first document reach what they reached before. -/
theorem reached_left (hseparate : first.Separate second) (schema : Schema) {operation : Operation}
    (hmem : operation ∈ first.operations) :
    (Context.ofDocument schema (first ++ second)).reached operation =
      (Context.ofDocument schema first).reached operation := by
  have hnames : (Context.ofDocument schema (first ++ second)).startNames operation =
      (Context.ofDocument schema first).startNames operation := by
    rw [Context.startNames, Context.startNames, Context.foundNames?_append,
      Option.or_of_isSome (Context.isSome_foundNames?_ofDocument schema hmem)]
  rw [Context.reached, hnames]
  refine reachFrom_eq_of_part (fun name hspreads => ?_) _ _ fun name hname => ?_
  · exact hseparate.fragment?_append_left (Or.inr hspreads)
  · exact spreads_of_operation hmem (Context.mem_startNames_iff.mp hname)

/-- Operations of the second document reach what they reached before. -/
theorem reached_right (hseparate : first.Separate second) (schema : Schema) {operation : Operation}
    (hmem : operation ∈ second.operations) :
    (Context.ofDocument schema (first ++ second)).reached operation =
      (Context.ofDocument schema second).reached operation := by
  have hspreads {name : String} (hspread : SpreadIn name operation.selections) :
      second.Mentions name := Or.inr (spreads_of_operation hmem hspread)
  cases hfound : (Context.ofDocument schema first).foundNames?
      (spreadNames operation.selections) with
  | none =>
    have hnames : (Context.ofDocument schema (first ++ second)).startNames operation =
        (Context.ofDocument schema second).startNames operation := by
      rw [Context.startNames, Context.startNames, Context.foundNames?_append, hfound,
        Option.none_or]
    rw [Context.reached, hnames]
    refine reachFrom_eq_of_part (fun name hspread => ?_) _ _ fun name hname => ?_
    · exact hseparate.fragment?_append_right (Or.inr hspread)
    · exact spreads_of_operation hmem (Context.mem_startNames_iff.mp hname)
  | some names =>
    -- an operation of each document spreads these names, so that neither defines any of them, and
    -- it does not matter in which order they are looked at
    have hnowhere (name : String) (hspread : SpreadIn name operation.selections) :
        second.fragment? name = none := by
      have hfirst := Context.exists_of_foundNames?_ofDocument hfound name
        (mem_spreadNames_iff.mpr hspread)
      exact hseparate.fragment?_right_eq_none (Or.inr hfirst)
    have hsecond : (Context.ofDocument schema second).reached operation = [] :=
      Context.reached_eq_nil hnowhere
    rw [hsecond, Context.reached_eq_nil]
    intro name hspread
    exact (hseparate.fragment?_append_right (hspreads hspread)).trans (hnowhere name hspread)

/-- The operations that use a fragment in both documents put together are those that use it in the
first and those that use it in the second. -/
theorem operationsReaching_append (hseparate : first.Separate second) (schema : Schema)
    (name : String) :
    (Context.ofDocument schema (first ++ second)).operationsReaching name =
      (Context.ofDocument schema first).operationsReaching name ++
        (Context.ofDocument schema second).operationsReaching name := by
  simp only [Context.operationsReaching_eq_filter]
  have hoperations : (Context.ofDocument schema (first ++ second)).document.operations =
      first.operations ++ second.operations := operations_append
  rw [hoperations, List.filter_append]
  congr 1
  · exact List.filter_congr fun operation hmem => by rw [hseparate.reached_left schema hmem]
  · exact List.filter_congr fun operation hmem => by rw [hseparate.reached_right schema hmem]

/-- The first of two separate documents is a part of both put together. -/
theorem isPartOf_left (hseparate : first.Separate second) (schema : Schema) :
    (Context.ofDocument schema first).IsPartOf (Context.ofDocument schema (first ++ second)) where
  schema_eq := rfl
  fragment?_eq _ hspreads := hseparate.fragment?_append_left (Or.inr hspreads)
  reached_eq _ hmem := hseparate.reached_left schema hmem
  operationsReaching_eq fragment hmem := by
    have hnone : (Context.ofDocument schema second).operationsReaching fragment.name.text = [] :=
      Context.operationsReaching_eq_nil fun other hother hname =>
        hseparate.left fragment hmem (Or.inl ⟨other, hother, hname⟩)
    rw [hseparate.operationsReaching_append, hnone, List.append_nil]

/-- The second of two separate documents is a part of both put together. -/
theorem isPartOf_right (hseparate : first.Separate second) (schema : Schema) :
    (Context.ofDocument schema second).IsPartOf (Context.ofDocument schema (first ++ second)) where
  schema_eq := rfl
  fragment?_eq _ hspreads := hseparate.fragment?_append_right (Or.inr hspreads)
  reached_eq _ hmem := hseparate.reached_right schema hmem
  operationsReaching_eq fragment hmem := by
    have hnone : (Context.ofDocument schema first).operationsReaching fragment.name.text = [] :=
      Context.operationsReaching_eq_nil fun other hother hname =>
        hseparate.right fragment hmem (Or.inl ⟨other, hother, hname⟩)
    rw [hseparate.operationsReaching_append, hnone, List.nil_append]

end Document.Separate

end RelayCheck
