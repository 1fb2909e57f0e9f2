import RelayCheck.Validation.Context
import Mathlib.Data.List.Nodup
import Mathlib.Tactic.Tauto

/-!
# Reaching fragments by spreads

An operation uses a fragment if a chain of spreads leads from its selections to the fragment, each
spread naming a fragment that the document defines. The search for the fragments of an operation
finds exactly these, each of them once, whatever cycles the spreads make.

The module introduces:

- `SpreadIn name selections`: a spread of this name occurs in the selections, at any depth;
- `Document.Reaches selections fragment`: a chain of spreads leads from the selections to the
  fragment.

The main results are `mem_reached_iff` and `reached_names_nodup`, and for documents in which the
names of fragments are unique `mem_operationsReaching_name_iff`.
-/

namespace RelayCheck

/-! ## Spreads at any depth -/

/-- A spread of the fragment of the given name occurs in selections, at any depth. -/
inductive SpreadIn (name : String) : List Selection → Prop
  | here {spread : Spread} {rest : List Selection} (hname : spread.name.text = name) :
      SpreadIn name (.spread spread :: rest)
  | inField {field : Field} {nested rest : List Selection} (hnested : SpreadIn name nested) :
      SpreadIn name (.field field nested :: rest)
  | inInline {fragment : InlineFragment} {nested rest : List Selection}
      (hnested : SpreadIn name nested) : SpreadIn name (.inlineFragment fragment nested :: rest)
  | later {selection : Selection} {rest : List Selection} (hrest : SpreadIn name rest) :
      SpreadIn name (selection :: rest)

/-- The spreads in selections that start with a spread are that one and those in the others. -/
theorem mem_spreadsOf_cons_spread {spread other : Spread} {rest : List Selection} :
    spread ∈ spreadsOf (.spread other :: rest) ↔ spread = other ∨ spread ∈ spreadsOf rest := by
  simp only [spreadsOf, directSpreads, innerSpreadsOf, Selection.innerSpreads, Selection.spread?,
    List.filterMap_cons, List.mem_append, List.mem_cons, List.append_nil, List.cons_append]

/-- The spreads in selections that start with a field are those below it and in the others. -/
theorem mem_spreadsOf_cons_field {spread : Spread} {field : Field}
    {nested rest : List Selection} :
    spread ∈ spreadsOf (.field field nested :: rest) ↔
      spread ∈ spreadsOf nested ∨ spread ∈ spreadsOf rest := by
  simp only [spreadsOf, directSpreads, innerSpreadsOf, Selection.innerSpreads, Selection.spread?,
    List.filterMap_cons, List.mem_append]
  tauto

/-- The spreads in selections that start with an inline fragment are those in it and in the
others. -/
theorem mem_spreadsOf_cons_inlineFragment {spread : Spread} {fragment : InlineFragment}
    {nested rest : List Selection} :
    spread ∈ spreadsOf (.inlineFragment fragment nested :: rest) ↔
      spread ∈ spreadsOf nested ∨ spread ∈ spreadsOf rest := by
  simp only [spreadsOf, directSpreads, innerSpreadsOf, Selection.innerSpreads, Selection.spread?,
    List.filterMap_cons, List.mem_append]
  tauto

section Forall

variable {P : Spread → Prop} {nested rest : List Selection}

/-- What holds of all spreads holds of the first one and of the others. -/
theorem forall_spreadsOf_cons_spread {other : Spread} :
    (∀ spread ∈ spreadsOf (.spread other :: rest), P spread) ↔
      P other ∧ ∀ spread ∈ spreadsOf rest, P spread := by
  simp only [mem_spreadsOf_cons_spread, forall_eq_or_imp]

/-- What holds of all spreads holds of those below the first field and of the others. -/
theorem forall_spreadsOf_cons_field {field : Field} :
    (∀ spread ∈ spreadsOf (.field field nested :: rest), P spread) ↔
      (∀ spread ∈ spreadsOf nested, P spread) ∧ ∀ spread ∈ spreadsOf rest, P spread := by
  simp only [mem_spreadsOf_cons_field, or_imp, forall_and]

/-- What holds of all spreads holds of those in the first inline fragment and of the others. -/
theorem forall_spreadsOf_cons_inlineFragment {fragment : InlineFragment} :
    (∀ spread ∈ spreadsOf (.inlineFragment fragment nested :: rest), P spread) ↔
      (∀ spread ∈ spreadsOf nested, P spread) ∧ ∀ spread ∈ spreadsOf rest, P spread := by
  simp only [mem_spreadsOf_cons_inlineFragment, or_imp, forall_and]

end Forall

/-- The names that selections spread are those of their spreads. -/
theorem mem_spreadNames {name : String} {selections : List Selection} :
    name ∈ spreadNames selections ↔
      ∃ spread ∈ spreadsOf selections, spread.name.text = name :=
  List.mem_map

/-- The names that selections spread are those of the spreads that occur in them. -/
theorem mem_spreadNames_iff {name : String} :
    ∀ {selections : List Selection}, name ∈ spreadNames selections ↔ SpreadIn name selections
  | [] => by
    constructor
    · intro h
      cases h
    · rintro ⟨⟩
  | .spread spread :: rest => by
    simp only [mem_spreadNames, mem_spreadsOf_cons_spread, or_and_right, exists_or, exists_eq_left]
    rw [← mem_spreadNames, mem_spreadNames_iff]
    constructor
    · rintro (hname | hrest)
      · exact .here hname
      · exact .later hrest
    · rintro (hname | _ | _ | hrest)
      · exact Or.inl hname
      · exact Or.inr hrest
  | .field field nested :: rest => by
    simp only [mem_spreadNames, mem_spreadsOf_cons_field, or_and_right, exists_or]
    rw [← mem_spreadNames, ← mem_spreadNames, mem_spreadNames_iff, mem_spreadNames_iff]
    constructor
    · rintro (hnested | hrest)
      · exact .inField hnested
      · exact .later hrest
    · rintro (_ | hnested | _ | hrest)
      · exact Or.inl hnested
      · exact Or.inr hrest
  | .inlineFragment fragment nested :: rest => by
    simp only [mem_spreadNames, mem_spreadsOf_cons_inlineFragment, or_and_right, exists_or]
    rw [← mem_spreadNames, ← mem_spreadNames, mem_spreadNames_iff, mem_spreadNames_iff]
    constructor
    · rintro (hnested | hrest)
      · exact .inInline hnested
      · exact .later hrest
    · rintro (_ | _ | hnested | hrest)
      · exact Or.inl hnested
      · exact Or.inr hrest

/-- The selections of a definition; a part of a type system has none. -/
def Definition.selections : Definition → List Selection
  | .operation o => o.selections
  | .fragment f => f.selections
  | _ => []

/-! ## Chains of spreads -/

namespace Document

/-- A chain of spreads of fragments that the document defines leads from selections to a
fragment. -/
inductive Reaches (document : Document) (selections : List Selection) : Fragment → Prop
  | direct {name : String} {fragment : Fragment} (hspread : SpreadIn name selections)
      (hfound : document.fragment? name = some fragment) : Reaches document selections fragment
  | step {middle : Fragment} {name : String} {fragment : Fragment}
      (hmiddle : Reaches document selections middle) (hspread : SpreadIn name middle.selections)
      (hfound : document.fragment? name = some fragment) : Reaches document selections fragment

/-- The same chains, starting at any of the names in a queue, that pass by no visited name. -/
inductive ReachesFrom (document : Document) (visited queue : List String) : Fragment → Prop
  | start {name : String} {fragment : Fragment} (hqueue : name ∈ queue) (hnew : name ∉ visited)
      (hfound : document.fragment? name = some fragment) :
      ReachesFrom document visited queue fragment
  | step {middle : Fragment} {name : String} {fragment : Fragment}
      (hmiddle : ReachesFrom document visited queue middle)
      (hspread : name ∈ spreadNames middle.selections) (hnew : name ∉ visited)
      (hfound : document.fragment? name = some fragment) :
      ReachesFrom document visited queue fragment

namespace ReachesFrom

variable {document : Document} {visited queue : List String} {name : String}
  {fragment found : Fragment}

/-- A fragment that is reached has a name that was not visited, under which it is found. -/
theorem fragment?_name (h : document.ReachesFrom visited queue fragment) :
    fragment.name.text ∉ visited ∧ document.fragment? fragment.name.text = some fragment := by
  cases h with
  | start hqueue hnew hfound | step hmiddle hspread hnew hfound =>
    obtain ⟨-, rfl⟩ := mem_fragments_of_fragment? hfound
    exact ⟨hnew, hfound⟩

/-- A longer queue reaches no less. -/
theorem mono {more : List String} (hsubset : queue ⊆ more)
    (h : document.ReachesFrom visited queue fragment) :
    document.ReachesFrom visited more fragment := by
  induction h with
  | start hqueue hnew hfound => exact .start (hsubset hqueue) hnew hfound
  | step hmiddle hspread hnew hfound ih => exact .step ih hspread hnew hfound

/-- A name that leads to no new fragment may be passed over. -/
theorem of_cons (hpass : name ∉ visited → document.fragment? name = none)
    (h : document.ReachesFrom visited (name :: queue) fragment) :
    document.ReachesFrom visited queue fragment := by
  induction h with
  | start hqueue hnew hfound =>
    rcases List.mem_cons.mp hqueue with rfl | hqueue
    · rw [hpass hnew] at hfound
      cases hfound
    · exact .start hqueue hnew hfound
  | step hmiddle hspread hnew hfound ih => exact .step ih hspread hnew hfound

/-- What is reached once the fragment at the head of the queue was visited, and its spreads were
added to the queue, was reached before. -/
theorem of_visit (hnew : name ∉ visited) (hfound : document.fragment? name = some found)
    (h : document.ReachesFrom (name :: visited) (queue ++ spreadNames found.selections) fragment) :
    document.ReachesFrom visited (name :: queue) fragment := by
  -- a chain that starts at a spread of the visited fragment is prolonged by that fragment
  have hhead : document.ReachesFrom visited (name :: queue) found :=
    .start List.mem_cons_self hnew hfound
  induction h with
  | start hqueue hother hfragment =>
    have hother' := fun hvisited => hother (List.mem_cons_of_mem _ hvisited)
    rcases List.mem_append.mp hqueue with hqueue | hspread
    · exact .start (List.mem_cons_of_mem _ hqueue) hother' hfragment
    · exact .step hhead hspread hother' hfragment
  | step hmiddle hspread hother hfragment ih =>
    exact .step ih hspread (fun hvisited => hother (List.mem_cons_of_mem _ hvisited)) hfragment

/-- Everything but the visited fragment itself is still reached after the visit. -/
theorem visit (hfound : document.fragment? name = some found)
    (h : document.ReachesFrom visited (name :: queue) fragment) :
    fragment = found ∨
      document.ReachesFrom (name :: visited) (queue ++ spreadNames found.selections) fragment := by
  -- a chain may come back to `name`; it is cut there, since what follows is in the new queue
  induction h with
  | @start other fragment hqueue hnew hfragment =>
    by_cases hsame : other = name
    · rw [hsame, hfound, Option.some_inj] at hfragment
      exact Or.inl hfragment.symm
    · refine Or.inr (.start (List.mem_append_left _ ?_) ?_ hfragment)
      · exact (List.mem_cons.mp hqueue).resolve_left hsame
      · simp [hsame, hnew]
  | @step middle other fragment hmiddle hspread hnew hfragment ih =>
    by_cases hsame : other = name
    · rw [hsame, hfound, Option.some_inj] at hfragment
      exact Or.inl hfragment.symm
    · have hother : other ∉ name :: visited := by simp [hsame, hnew]
      rcases ih with rfl | ih
      · exact Or.inr (.start (List.mem_append_right _ hspread) hother hfragment)
      · exact Or.inr (.step ih hspread hother hfragment)

end ReachesFrom

/-- The search finds exactly the fragments to which chains lead from the queue. -/
theorem mem_reachFrom_iff {document : Document} {visited queue : List String}
    {fragment : Fragment} :
    fragment ∈ document.reachFrom visited queue ↔
      document.ReachesFrom visited queue fragment := by
  -- the cases are: nothing to do, a name met before, a name of no fragment, a new fragment
  fun_induction document.reachFrom visited queue with
  | case1 visited =>
    constructor
    · intro h
      cases h
    · intro h
      induction h with
      | start hqueue hnew hfound => cases hqueue
      | step hmiddle hspread hnew hfound ih => cases ih
  | case2 visited name queue hvisited ih =>
    rw [ih]
    refine ⟨.mono (List.subset_cons_self _ _), .of_cons fun hnew => absurd ?_ hnew⟩
    simpa using hvisited
  | case3 visited name queue hnew hunknown ih =>
    rw [ih]
    exact ⟨.mono (List.subset_cons_self _ _), .of_cons fun _ => hunknown⟩
  | case4 visited name queue hnew found hfound ih =>
    have hnew' : name ∉ visited := by simpa using hnew
    rw [List.mem_cons, ih]
    constructor
    · rintro (rfl | h)
      · exact .start List.mem_cons_self hnew' hfound
      · exact .of_visit hnew' hfound h
    · exact ReachesFrom.visit hfound

/-- The search finds no two fragments of one name. -/
theorem reachFrom_names_nodup (document : Document) (visited queue : List String) :
    ((document.reachFrom visited queue).map fun fragment => fragment.name.text).Nodup := by
  fun_induction document.reachFrom visited queue with
  | case1 visited => exact List.nodup_nil
  | case2 visited name queue hvisited ih => exact ih
  | case3 visited name queue hnew hunknown ih => exact ih
  | case4 visited name queue hnew found hfound ih =>
    rw [List.map_cons, List.nodup_cons]
    refine ⟨?_, ih⟩
    -- the search goes on with the name visited, and finds nothing of a visited name
    intro hmem
    obtain ⟨other, hother, hname⟩ := List.mem_map.mp hmem
    have hvisited := (mem_reachFrom_iff.mp hother).fragment?_name.1
    obtain ⟨-, hfoundName⟩ := mem_fragments_of_fragment? hfound
    exact hvisited (by rw [hname, hfoundName]; exact List.mem_cons_self)

/-- From the names that selections spread, chains lead exactly to what the selections reach. -/
theorem reachesFrom_iff_reaches {document : Document} {names : List String}
    {selections : List Selection} (hnames : ∀ name, name ∈ names ↔ SpreadIn name selections)
    {fragment : Fragment} :
    document.ReachesFrom [] names fragment ↔ document.Reaches selections fragment := by
  constructor
  · intro h
    induction h with
    | start hqueue hnew hfound => exact .direct ((hnames _).mp hqueue) hfound
    | step hmiddle hspread hnew hfound ih =>
      exact .step ih (mem_spreadNames_iff.mp hspread) hfound
  · intro h
    induction h with
    | direct hspread hfound => exact .start ((hnames _).mpr hspread) List.not_mem_nil hfound
    | step hmiddle hspread hfound ih =>
      exact .step ih (mem_spreadNames_iff.mpr hspread) List.not_mem_nil hfound

/-- Chains of spreads that lead to a fragment go on with those that start in it. -/
theorem Reaches.trans {document : Document} {selections : List Selection}
    {middle fragment : Fragment} (hmiddle : document.Reaches selections middle)
    (h : document.Reaches middle.selections fragment) : document.Reaches selections fragment := by
  induction h with
  | direct hspread hfound => exact .step hmiddle hspread hfound
  | step _ hspread hfound ih => exact .step ih hspread hfound

/-- A fragment that is reached is the one that the document defines under its name. -/
theorem Reaches.fragment?_name {document : Document} {selections : List Selection}
    {fragment : Fragment} (h : document.Reaches selections fragment) :
    document.fragment? fragment.name.text = some fragment := by
  cases h with
  | direct hspread hfound | step hmiddle hspread hfound =>
    obtain ⟨-, rfl⟩ := mem_fragments_of_fragment? hfound
    exact hfound

end Document

/-! ## Unique names -/

namespace Document

/-- The operations of a document are those among its definitions. -/
theorem mem_operations_iff {document : Document} {operation : Operation} :
    operation ∈ document.operations ↔ .operation operation ∈ document.definitions := by
  rw [operations, List.mem_filterMap]
  constructor
  · rintro ⟨definition, hmem, hoperation⟩
    cases definition <;> cases hoperation
    exact hmem
  · exact fun hmem => ⟨_, hmem, rfl⟩

/-- The fragments of a document are those among its definitions. -/
theorem mem_fragments_iff {document : Document} {fragment : Fragment} :
    fragment ∈ document.fragments ↔ .fragment fragment ∈ document.definitions := by
  rw [fragments, List.mem_filterMap]
  constructor
  · rintro ⟨definition, hmem, hfragment⟩
    cases definition <;> cases hfragment
    exact hmem
  · exact fun hmem => ⟨_, hmem, rfl⟩

/-- No two fragments of the document have one name. -/
def UniqueFragmentNames (document : Document) : Prop :=
  (document.fragments.map fun fragment => fragment.name.text).Nodup

instance (document : Document) : Decidable document.UniqueFragmentNames :=
  inferInstanceAs (Decidable (List.Nodup _))

/-- If names are unique, every fragment is the one found under its name. -/
theorem UniqueFragmentNames.fragment?_name {document : Document}
    (hunique : document.UniqueFragmentNames) {fragment : Fragment}
    (hmem : fragment ∈ document.fragments) :
    document.fragment? fragment.name.text = some fragment := by
  cases hfound : document.fragment? fragment.name.text with
  | none =>
    have hnone := List.find?_eq_none.mp hfound fragment (List.mem_reverse.mpr hmem)
    simp at hnone
  | some other =>
    obtain ⟨hother, hname⟩ := mem_fragments_of_fragment? hfound
    exact congrArg some (List.inj_on_of_nodup_map hunique hother hmem hname)

end Document

/-! ## Fragments of operations -/

namespace Context

/-- Whatever order was found before, the names are those that the operation spreads. -/
theorem mem_startNames_iff {context : Context} {operation : Operation} {name : String} :
    name ∈ context.startNames operation ↔ SpreadIn name operation.selections := by
  rw [← mem_spreadNames_iff, startNames]
  cases hfound : context.foundNames? (spreadNames operation.selections) with
  | none => rfl
  | some names =>
    -- the names of another operation, which are the same in some order
    obtain ⟨other, -, hother⟩ := List.exists_of_findSome?_eq_some hfound
    simp only [Option.ite_none_right_eq_some, Option.some_inj] at hother
    obtain ⟨hsame, rfl⟩ := hother
    simp only [sameNames, Bool.and_eq_true, List.all_eq_true, List.contains_iff_mem] at hsame
    exact ⟨hsame.1 name, hsame.2 name⟩

/-- The fragments that an operation uses are those to which chains of spreads lead. -/
theorem mem_reached_iff {context : Context} {operation : Operation} {fragment : Fragment} :
    fragment ∈ context.reached operation ↔
      context.document.Reaches operation.selections fragment := by
  rw [reached, Document.reach, Document.mem_reachFrom_iff]
  exact Document.reachesFrom_iff_reaches fun _ => mem_startNames_iff

/-- An operation uses no two fragments of one name. -/
theorem reached_names_nodup (context : Context) (operation : Operation) :
    ((context.reached operation).map fun fragment => fragment.name.text).Nodup :=
  context.document.reachFrom_names_nodup _ _

/-- The operations that use the fragment defined under a name are those from which chains of
spreads lead to it. -/
theorem mem_operationsReaching_iff_of_fragment? {context : Context} {fragment : Fragment}
    (hfragment : context.document.fragment? fragment.name.text = some fragment)
    {operation : Operation} :
    operation ∈ context.operationsReaching fragment.name.text ↔
      operation ∈ context.document.operations ∧
        context.document.Reaches operation.selections fragment := by
  rw [mem_operationsReaching]
  refine and_congr_right fun _ => ?_
  constructor
  · rintro ⟨other, hother, hname⟩
    rw [mem_reached_iff] at hother
    have hfound := hother.fragment?_name
    rw [hname, hfragment, Option.some_inj] at hfound
    rw [hfound]
    exact hother
  · exact fun hreaches => ⟨fragment, mem_reached_iff.mpr hreaches, rfl⟩

/-- If names are unique, the operations that use a fragment are those from which chains of spreads
lead to it. -/
theorem mem_operationsReaching_name_iff {context : Context}
    (hunique : context.document.UniqueFragmentNames) {fragment : Fragment}
    (hmem : fragment ∈ context.document.fragments) {operation : Operation} :
    operation ∈ context.operationsReaching fragment.name.text ↔
      operation ∈ context.document.operations ∧
        context.document.Reaches operation.selections fragment :=
  mem_operationsReaching_iff_of_fragment? (hunique.fragment?_name hmem)

end Context

end RelayCheck
