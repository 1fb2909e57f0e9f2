import RelayCheck.Proofs.Fragments.Separation

/-!
# The same definitions in another order

When the names of fragments are unique, a spread leads to the same fragment in whatever order the
definitions of a document are listed. So an operation reaches the same fragments, and a fragment is
used by the same operations, though both may be listed in another order.

The module introduces `Context.Reorders`: the documents of two contexts have the same definitions.
The main results are `Reorders.fragment?_eq`, `Reorders.reached_perm` and
`Reorders.operationsReaching_perm`.
-/

namespace RelayCheck

namespace Document

/-- Chains of spreads depend on nothing but where names lead. -/
theorem Reaches.of_fragment?_eq {document other : Document}
    (hfragment : ∀ name, other.fragment? name = document.fragment? name)
    {selections : List Selection} {fragment : Fragment}
    (h : document.Reaches selections fragment) : other.Reaches selections fragment := by
  induction h with
  | direct hspread hfound => exact .direct hspread ((hfragment _).trans hfound)
  | step hmiddle hspread hfound ih => exact .step ih hspread ((hfragment _).trans hfound)

end Document

namespace Context

/-- Two contexts with the same schema, and documents that consist of the same operations and
fragments in some order, where no two fragments have one name. -/
structure Reorders (context other : Context) : Prop where
  schema_eq : other.schema = context.schema
  definitions_perm : context.document.definitions.Perm other.document.definitions
  unique : context.document.UniqueFragmentNames
  executable : ∀ definition ∈ context.document.definitions, definition.isTypeSystem = false

namespace Reorders

variable {context other : Context}

/-- The fragments are the same in some order. -/
theorem fragments_perm (h : context.Reorders other) :
    context.document.fragments.Perm other.document.fragments :=
  h.definitions_perm.filterMap _

/-- The operations are the same in some order. -/
theorem operations_perm (h : context.Reorders other) :
    context.document.operations.Perm other.document.operations :=
  h.definitions_perm.filterMap _

/-- The names of fragments are unique in both documents. -/
theorem unique_other (h : context.Reorders other) : other.document.UniqueFragmentNames :=
  (h.fragments_perm.map _).nodup_iff.mp h.unique

/-- Either context has the definitions of the other in some order. -/
theorem symm (h : context.Reorders other) : other.Reorders context where
  schema_eq := h.schema_eq.symm
  definitions_perm := h.definitions_perm.symm
  unique := h.unique_other
  executable definition hmem := h.executable definition (h.definitions_perm.mem_iff.mpr hmem)

/-- A name leads to the same fragment in both documents. -/
theorem fragment?_eq (h : context.Reorders other) (name : String) :
    other.document.fragment? name = context.document.fragment? name := by
  refine Option.ext fun fragment => ?_
  constructor
  · intro hfound
    obtain ⟨hmem, rfl⟩ := Document.mem_fragments_of_fragment? hfound
    exact h.unique.fragment?_name (h.fragments_perm.mem_iff.mpr hmem)
  · intro hfound
    obtain ⟨hmem, rfl⟩ := Document.mem_fragments_of_fragment? hfound
    exact h.unique_other.fragment?_name (h.fragments_perm.mem_iff.mp hmem)

/-- Selections reach the same fragments in both documents. -/
theorem reaches_iff (h : context.Reorders other) {selections : List Selection}
    {fragment : Fragment} :
    other.document.Reaches selections fragment ↔ context.document.Reaches selections fragment :=
  ⟨.of_fragment?_eq fun name => (h.fragment?_eq name).symm, .of_fragment?_eq h.fragment?_eq⟩

/-- An operation reaches the same fragments in some order. -/
theorem reached_perm (h : context.Reorders other) (operation : Operation) :
    (context.reached operation).Perm (other.reached operation) := by
  have hnodup (context : Context) : (context.reached operation).Nodup :=
    .of_map _ (context.reached_names_nodup operation)
  refine (List.perm_ext_iff_of_nodup (hnodup context) (hnodup other)).mpr fun fragment => ?_
  rw [mem_reached_iff, mem_reached_iff, h.reaches_iff]

/-- The operations that use a fragment are the same in some order. -/
theorem operationsReaching_perm (h : context.Reorders other) (name : String) :
    (context.operationsReaching name).Perm (other.operationsReaching name) := by
  rw [operationsReaching_eq_filter, operationsReaching_eq_filter]
  simp only [(h.reached_perm _).any_eq]
  exact h.operations_perm.filter _

/-- Neither document defines directives. -/
theorem directives_eq_nil (h : context.Reorders other) : context.document.directives = [] :=
  Document.directives_eq_nil_of_executable h.executable

end Reorders

end Context

end RelayCheck
