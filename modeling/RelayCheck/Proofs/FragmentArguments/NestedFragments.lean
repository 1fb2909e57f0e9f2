import RelayCheck.Proofs.FragmentArguments.Alike
import RelayCheck.Proofs.Fragments.Reachability

/-!
# What operations agree on inside of fragments

A fragment that another one spreads is used by every operation that uses the other one, and maybe by
more. More operations share fewer variables, and what they agree on of a variable may be less
precise, but never more: where all of them accept a type, so do some of them.

The main result is `isSubtype_unifiedVariables_of_reaches`, with `isSubtype_of_unifyDeclarations`,
the same for two lists of declarations.
-/

namespace RelayCheck

/-- Where some of the given declarations unify as well as all of them do, their type is below that
for all. -/
theorem isSubtype_of_unifyDeclarations {schema : Schema} {declarations others : List Declaration}
    {unified other : Declaration} {type super : TypeRef String}
    (hknown : ∀ declaration ∈ others, declaration.HasInputType schema)
    (hsubset : declarations ⊆ others)
    (h : unifyDeclarations schema declarations = some unified)
    (hother : unifyDeclarations schema others = some other)
    (htype : unified.type = some type) (hsuper : other.type = some super) :
    schema.isSubtype type super = true := by
  have hknown' : ∀ declaration ∈ declarations, declaration.HasInputType schema :=
    fun declaration hmem => hknown declaration (hsubset hmem)
  -- a position of the type for all of them accepts the variable from every declaration
  have hall : other.Allows schema super false :=
    (allows_false_iff_of_unifyDeclarations hknown hother hsuper super).mpr
      (Schema.isSubtype_refl super)
  rw [allows_iff_of_unifyDeclarations hknown hother] at hall
  have hsome : unified.Allows schema super false :=
    (allows_iff_of_unifyDeclarations hknown' h super false).mpr
      fun declaration hmem => hall declaration (hsubset hmem)
  exact (allows_false_iff_of_unifyDeclarations hknown' h htype super).mp hsome

namespace Context

variable {context : Context}

/-- What some of the given operations agree on has a type below that on which all of them agree. -/
theorem isSubtype_of_unify {operations others : List Operation} (hsubset : operations ⊆ others)
    {name : String} {unified other : Declaration} {type super : TypeRef String}
    (hunified : (context.unify operations).declarations.get? name = some unified)
    (hother : (context.unify others).declarations.get? name = some other)
    (htype : unified.type = some type) (hsuper : other.type = some super) :
    context.schema.isSubtype type super = true := by
  obtain ⟨-, hunify⟩ := get?_unify_eq_some_iff.mp hunified
  obtain ⟨-, hotherUnify⟩ := get?_unify_eq_some_iff.mp hother
  have hsome : other.type.isSome = true := by rw [hsuper, Option.isSome_some]
  refine isSubtype_of_unifyDeclarations (fun declaration hmem => ?_) ?_ hunify hotherUnify htype
    hsuper
  · exact hasInputType_of_mem_declarationsOf hmem
      (isSome_type_of_unifyDeclarations hotherUnify hsome declaration hmem)
  · intro declaration hmem
    obtain ⟨operation, hoperation, hget⟩ := List.mem_filterMap.mp hmem
    exact List.mem_filterMap.mpr ⟨operation, hsubset hoperation, hget⟩

/-- The operations that use a fragment use every fragment that it reaches. -/
theorem operationsReaching_subset {outer inner : Fragment}
    (houter : context.document.fragment? outer.name.text = some outer)
    (hinner : context.document.Reaches outer.selections inner) :
    context.operationsReaching outer.name.text ⊆ context.operationsReaching inner.name.text := by
  intro operation huses
  obtain ⟨hoperation, hreaches⟩ := (mem_operationsReaching_iff_of_fragment? houter).mp huses
  exact (mem_operationsReaching_iff_of_fragment? hinner.fragment?_name).mpr
    ⟨hoperation, hreaches.trans hinner⟩

/-- An operation reaches a fragment, and that one reaches another, inner one. Then every operation
that uses the outer fragment uses the inner one, every name that all operations of the inner one
declare is declared by all operations of the outer one, and a variable on which both groups agree,
with known types, has for the outer fragment a type below the one for the inner fragment. -/
theorem isSubtype_unifiedVariables_of_reaches {operation : Operation} {outer inner : Fragment}
    (hoperation : operation ∈ context.document.operations)
    (houter : context.document.Reaches operation.selections outer)
    (hinner : context.document.Reaches outer.selections inner) :
    operation ∈ context.operationsReaching outer.name.text ∧
    context.operationsReaching outer.name.text ⊆ context.operationsReaching inner.name.text ∧
    (∀ name,
      DeclaredByAll context.schema (context.operationsReaching inner.name.text) name →
        DeclaredByAll context.schema (context.operationsReaching outer.name.text) name) ∧
    ∀ name unified other type super,
      (context.unifiedVariables outer.name.text).declarations.get? name = some unified →
      (context.unifiedVariables inner.name.text).declarations.get? name = some other →
      unified.type = some type → other.type = some super →
        context.schema.isSubtype type super = true := by
  have hfound := houter.fragment?_name
  have hsubset := operationsReaching_subset hfound hinner
  refine ⟨(mem_operationsReaching_iff_of_fragment? hfound).mpr ⟨hoperation, houter⟩, hsubset,
    fun name hall other hother => hall other (hsubset hother), ?_⟩
  intro name unified other type super hunified hother htype hsuper
  exact isSubtype_of_unify hsubset hunified hother htype hsuper

/-- A query with `$size: Int!` uses a fragment that spreads the fragment with the picture, which
another query with `$size: Int` uses, too. The size is an `Int!` for the outer fragment and an `Int`
for the inner one. -/
theorem isSubtype_unifiedVariables_of_reaches_picture :
    let size : TypeRef Name := .named ⟨"Int", ⟨1, 16⟩⟩
    let first := pictureQuery "A" "F" (.nonNull size) 1
    let second := pictureQuery "B" "P" size 2
    let outer := { pictureFragment "F" 3 with
      selections := [.spread ⟨⟨"P", ⟨3, 26⟩⟩, [], ⟨3, 23⟩⟩] }
    let inner := pictureFragment "P" 4
    let context := fresh pictureSchema
      ⟨[.operation first, .operation second, .fragment outer, .fragment inner]⟩
    first ∈ context.document.operations ∧
      context.document.Reaches first.selections outer ∧
      context.document.Reaches outer.selections inner ∧
      ∃ unified other type super,
        (context.unifiedVariables "F").declarations.get? "size" = some unified ∧
        (context.unifiedVariables "P").declarations.get? "size" = some other ∧
        unified.type = some type ∧ other.type = some super ∧ type ≠ super ∧
        context.schema.isSubtype type super = true := by
  intro size first second outer inner context
  have hoperation : first ∈ context.document.operations := List.mem_cons_self
  have houter : context.document.Reaches first.selections outer := .direct (.here rfl) rfl
  have hinner : context.document.Reaches outer.selections inner := .direct (.here rfl) rfl
  have hfirst : ((context.unifiedVariables "F").declarations.get? "size").bind
      Declaration.type = some (.nonNull (.named "Int")) := by cbv
  have hsecond : ((context.unifiedVariables "P").declarations.get? "size").bind
      Declaration.type = some (.named "Int") := by cbv
  obtain ⟨unified, hunified, htype⟩ := Option.bind_eq_some_iff.mp hfirst
  obtain ⟨other, hother, hsuper⟩ := Option.bind_eq_some_iff.mp hsecond
  refine ⟨hoperation, houter, hinner, unified, other, _, _, hunified, hother, htype, hsuper,
    by decide, ?_⟩
  exact (isSubtype_unifiedVariables_of_reaches hoperation houter hinner).2.2.2 "size" unified
    other _ _ hunified hother htype hsuper

end Context

end RelayCheck
