import Mathlib.Data.List.Forall2
import RelayCheck.Proofs.Fragments.Separation

/-!
# Changing definitions one by one

Suppose that the operations and fragments of a document are changed one by one, while fragments
keep their names, and all of them spread the same names as before. Then a search for fragments goes
on as before and comes to the changed fragments, in the same order.

The module introduces:

- `Correspondence`, how operations and fragments may be changed;
- `Definition.Corresponds` and `Context.Corresponds`, definitions and contexts that are the same but
  for such changes.

The main results are `Corresponds.fragment?`, `Corresponds.reached` and
`Corresponds.operationsReaching`.
-/

namespace RelayCheck

/-- How operations and fragments may be changed, where fragments keep their names, and both keep
the names that they spread. -/
structure Correspondence where
  /-- The first operation may become the second. -/
  operation : Operation → Operation → Prop
  /-- The first fragment may become the second. -/
  fragment : Fragment → Fragment → Prop
  operation_spreadNames : ∀ {first second}, operation first second →
    spreadNames second.selections = spreadNames first.selections
  fragment_name : ∀ {first second}, fragment first second →
    second.name.text = first.name.text
  fragment_spreadNames : ∀ {first second}, fragment first second →
    spreadNames second.selections = spreadNames first.selections

variable {c : Correspondence}

/-- Definitions that are the same but for such a change. -/
inductive Definition.Corresponds (c : Correspondence) : Definition → Definition → Prop
  | operation {first second : Operation} (h : c.operation first second) :
      Corresponds c (.operation first) (.operation second)
  | fragment {first second : Fragment} (h : c.fragment first second) :
      Corresponds c (.fragment first) (.fragment second)
  | typeSystem {definition : Definition} (h : definition.isTypeSystem = true) :
      Corresponds c definition definition

/-- Two contexts with the same schema, documents that are the same but for such changes, and the
same searches before. -/
structure Context.Corresponds (c : Correspondence) (context other : Context) : Prop where
  schema_eq : other.schema = context.schema
  definitions : List.Forall₂ (Definition.Corresponds c) context.document.definitions
    other.document.definitions
  searched : List.Forall₂ c.operation context.searched other.searched

/-! ## Definitions -/

section Definitions

variable {definitions others : List Definition}

/-- The operations among the definitions are the same but for changes. -/
theorem Definition.Corresponds.operations
    (h : List.Forall₂ (Definition.Corresponds c) definitions others) :
    List.Forall₂ c.operation (definitions.filterMap Definition.operation?)
      (others.filterMap Definition.operation?) := by
  refine List.rel_filterMap (fun first second hfirst => ?_) h
  cases hfirst with
  | operation hchange => exact .some hchange
  | fragment hchange => exact .none
  | typeSystem htypeSystem =>
    cases first <;> first | exact .none | cases htypeSystem

/-- The fragments among the definitions are the same but for changes. -/
theorem Definition.Corresponds.fragments
    (h : List.Forall₂ (Definition.Corresponds c) definitions others) :
    List.Forall₂ c.fragment (definitions.filterMap Definition.fragment?)
      (others.filterMap Definition.fragment?) := by
  refine List.rel_filterMap (fun first second hfirst => ?_) h
  cases hfirst with
  | operation hchange => exact .none
  | fragment hchange => exact .some hchange
  | typeSystem htypeSystem =>
    cases first <;> first | exact .none | cases htypeSystem

end Definitions

/-- Changed fragments keep their names. -/
theorem Correspondence.fragmentNames_eq {fragments others : List Fragment}
    (h : List.Forall₂ c.fragment fragments others) :
    (others.map fun fragment => fragment.name.text) =
      fragments.map fun fragment => fragment.name.text := by
  induction h with
  | nil => rfl
  | cons hchange _ ih => rw [List.map_cons, List.map_cons, c.fragment_name hchange, ih]

/-- Related options are both empty, or what they hold is related. -/
theorem exists_of_rel_option {α β : Type} {R : α → β → Prop} {first : Option α}
    {second : Option β} (h : Option.Rel R first second) :
    first = none ∧ second = none ∨
      ∃ item other, first = some item ∧ second = some other ∧ R item other := by
  cases h with
  | none => exact Or.inl ⟨rfl, rfl⟩
  | some hitem => exact Or.inr ⟨_, _, rfl, rfl, hitem⟩

/-- Lists that are equal item by item are equal. -/
theorem eq_of_rel_eq {α : Type} {items others : List α} (h : List.Forall₂ (· = ·) items others) :
    items = others := by
  rwa [List.forall₂_eq_eq_eq] at h

/-- Each item of the second of two related lists is related to one of the first. -/
theorem exists_of_mem_rel {α β : Type} {R : α → β → Prop} {items : List α} {others : List β}
    (h : List.Forall₂ R items others) {other : β} (hother : other ∈ others) :
    ∃ item ∈ items, R item other := by
  induction h with
  | nil => cases hother
  | cons hitem _ ih =>
    rcases List.mem_cons.mp hother with rfl | hother
    · exact ⟨_, List.mem_cons_self, hitem⟩
    · exact List.exists_mem_cons_of_exists (ih hother)

/-- What is found first by tests that agree is the same but for changes. -/
theorem rel_find? {α β : Type} {R : α → β → Prop} {p : α → Bool} {q : β → Bool}
    (htest : ∀ {first second}, R first second → q second = p first) {items : List α}
    {others : List β} (h : List.Forall₂ R items others) :
    Option.Rel R (items.find? p) (others.find? q) := by
  induction h with
  | nil => exact .none
  | @cons item other _ _ hitem _ ih =>
    rw [List.find?_cons, List.find?_cons, htest hitem]
    cases p item with
    | true => exact .some hitem
    | false => exact ih

namespace Context.Corresponds

variable {context other : Context}

/-- The operations of the documents are the same but for changes. -/
theorem operations (h : context.Corresponds c other) :
    List.Forall₂ c.operation context.document.operations other.document.operations :=
  Definition.Corresponds.operations h.definitions

/-- The fragments of the documents are the same but for changes. -/
theorem fragments (h : context.Corresponds c other) :
    List.Forall₂ c.fragment context.document.fragments other.document.fragments :=
  Definition.Corresponds.fragments h.definitions

/-- The documents define the same directives. -/
theorem directives_eq (h : context.Corresponds c other) :
    other.document.directives = context.document.directives := by
  have hdirectives : List.Forall₂ (· = ·) context.document.directives
      other.document.directives := by
    refine List.rel_filterMap (fun first second hfirst => ?_) h.definitions
    cases hfirst with
    | operation | fragment => exact .none
    | typeSystem =>
      cases first.directive? with
      | none => exact .none
      | some directive => exact .some rfl
  exact (eq_of_rel_eq hdirectives).symm

/-- Contexts in which all operations were searched correspond if their documents do. -/
theorem ofDocument (schema : Schema) {document changed : Document}
    (h : List.Forall₂ (Definition.Corresponds c) document.definitions changed.definitions) :
    (Context.ofDocument schema document).Corresponds c (Context.ofDocument schema changed) :=
  ⟨rfl, h, Definition.Corresponds.operations h⟩

/-- A name leads to a fragment and to what has become of it. -/
theorem fragment? (h : context.Corresponds c other) (name : String) :
    Option.Rel c.fragment (context.fragment? name) (other.fragment? name) := by
  refine rel_find? (fun hchange => ?_) (List.rel_reverse h.fragments)
  rw [c.fragment_name hchange]

end Context.Corresponds

/-! ## Searches -/

/-- If names lead to fragments and to what has become of them, so do searches. -/
theorem Document.rel_reachFrom {document other : Document}
    (hfragment : ∀ name,
      Option.Rel c.fragment (document.fragment? name) (other.fragment? name))
    (visited queue : List String) :
    List.Forall₂ c.fragment (document.reachFrom visited queue) (other.reachFrom visited queue) := by
  -- the search in the other document takes the same branches, since fragments are found under the
  -- same names and corresponding fragments spread the same names
  fun_induction document.reachFrom visited queue with
  | case1 visited =>
    rw [reachFrom]
    exact .nil
  | case2 visited name queue hvisited ih =>
    rw [reachFrom, dif_pos hvisited]
    exact ih
  | case3 visited name queue hnew hunknown ih =>
    have hname := hfragment name
    rw [hunknown] at hname
    rw [reachFrom, dif_neg hnew]
    split
    next => exact ih
    next fragment hfound =>
      rw [hfound] at hname
      cases hname
  | case4 visited name queue hnew found hfound ih =>
    have hname := hfragment name
    rw [hfound] at hname
    rw [reachFrom, dif_neg hnew]
    split
    next hunknown =>
      rw [hunknown] at hname
      cases hname
    next fragment hfragment =>
      rw [hfragment] at hname
      cases hname with
      | some hchange =>
        rw [c.fragment_spreadNames hchange]
        exact .cons hchange ih

namespace Context.Corresponds

variable {context other : Context}

/-- Names that were found once are found again. -/
theorem foundNames?_eq (h : context.Corresponds c other) (names : List String) :
    other.foundNames? names = context.foundNames? names := by
  have hsearched {operations others : List Operation}
      (hoperations : List.Forall₂ c.operation operations others)
      (found? : List String → Option (List String)) :
      (others.findSome? fun operation => found? (spreadNames operation.selections)) =
        operations.findSome? fun operation => found? (spreadNames operation.selections) := by
    induction hoperations with
    | nil => rfl
    | cons hchange _ ih =>
      rw [List.findSome?_cons, List.findSome?_cons, c.operation_spreadNames hchange, ih]
  exact hsearched h.searched fun found => if sameNames found names then some found else none

/-- A search starts at the same names. -/
theorem startNames_eq (h : context.Corresponds c other) {first second : Operation}
    (hchange : c.operation first second) : other.startNames second = context.startNames first := by
  rw [startNames, startNames, c.operation_spreadNames hchange, h.foundNames?_eq]

/-- An operation reaches what has become of the fragments that it reached, in the same order. -/
theorem reached (h : context.Corresponds c other) {first second : Operation}
    (hchange : c.operation first second) :
    List.Forall₂ c.fragment (context.reached first) (other.reached second) := by
  rw [Context.reached, Context.reached, h.startNames_eq hchange]
  exact Document.rel_reachFrom h.fragment? _ _

/-- A fragment is used by what has become of the operations that used it, in the same order. -/
theorem operationsReaching (h : context.Corresponds c other) (name : String) :
    List.Forall₂ c.operation (context.operationsReaching name) (other.operationsReaching name) := by
  rw [operationsReaching_eq_filter, operationsReaching_eq_filter]
  refine List.rel_filter (fun first second hchange => ?_) h.operations
  have hany (fragments : List Fragment) :
      (fragments.any fun fragment => fragment.name.text == name) =
        (fragments.map fun fragment => fragment.name.text).any (· == name) := by
    rw [List.any_map]
    rfl
  simp only [hany, Correspondence.fragmentNames_eq (h.reached hchange)]

end Context.Corresponds

end RelayCheck
