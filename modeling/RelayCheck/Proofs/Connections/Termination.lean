import RelayCheck.Proofs.Connections.Chains

/-!
# The search for the fields needed for pagination ends

The search goes from selections to those of inline fragments, of fragments that are spread, and of
`pageInfo`. A spread leads to selections of any size, and fragments may spread each other in
cycles, also across `pageInfo`. Whoever follows a spread visits one fragment more, though, and no
fragment is followed that is visited, so that the number of fragments to visit and the size of the
selections together bound the search.

The module introduces:

- `selectionsSize`, the number of selections at any depth;
- `PageCall`, what the search is called with, and `Document.callsOf`, the calls that a call makes;
- `Document.callMeasure`, the pair that decreases from call to call;
- `Document.fieldsWithin`, the search as the recursion that makes these calls, which gives no answer
  where calls are nested deeper than it is told.

The main result is `connectionFields_terminates`.
-/

namespace RelayCheck

/-! ## Sizes -/

mutual

/-- The number of selections in a selection at any depth, itself included. -/
def Selection.size : Selection → Nat
  | .field _ nested => selectionsSize nested + 1
  | .inlineFragment _ nested => selectionsSize nested + 1
  | .spread _ => 1

/-- The number of selections at any depth; spreads are not followed. -/
def selectionsSize : List Selection → Nat
  | [] => 0
  | selection :: rest => selection.size + selectionsSize rest

end

/-- A selection is no larger than the selections it is one of. -/
theorem Selection.size_le_of_mem {selection : Selection} {selections : List Selection}
    (hmem : selection ∈ selections) : selection.size ≤ selectionsSize selections := by
  induction selections with
  | nil => cases hmem
  | cons first rest ih =>
    rw [selectionsSize]
    rcases List.mem_cons.mp hmem with rfl | hrest
    · exact Nat.le_add_right _ _
    · exact (ih hrest).trans (Nat.le_add_left _ _)

/-! ## Calls -/

/-- What the search is called with. -/
structure PageCall where
  /-- Whether the selections are those of `pageInfo`, and not of a connection. -/
  inPageInfo : Bool
  /-- The names of the fragments that are visited. -/
  visited : List String
  /-- The selections to search. -/
  selections : List Selection

namespace PageFields

/-- `pageInfo` is selected, and of its parts those of the given names. -/
def ofNames (names : List String) : PageFields :=
  { pageInfo := true
    hasNextPage := names.contains PagePart.hasNextPage.name
    hasPreviousPage := names.contains PagePart.hasPreviousPage.name
    startCursor := names.contains PagePart.startCursor.name
    endCursor := names.contains PagePart.endCursor.name }

/-- What is selected in one of several branches. -/
def unionOf (branches : List PageFields) : PageFields :=
  branches.foldr union empty

/-- One branch more is united with the others. -/
@[simp]
theorem unionOf_cons (first : PageFields) (rest : List PageFields) :
    unionOf (first :: rest) = first.union (unionOf rest) := rfl

/-- What is selected in the branches of two lists is what is selected in either. -/
theorem unionOf_append (first rest : List PageFields) :
    unionOf (first ++ rest) = (unionOf first).union (unionOf rest) := by
  induction first with
  | nil => exact (empty_union _).symm
  | cons branch first ih =>
    rw [List.cons_append, unionOf_cons, unionOf_cons, ih, union_assoc]

/-- The first two of three branches may change places. -/
theorem union_left_comm (a b c : PageFields) : a.union (b.union c) = b.union (a.union c) := by
  rw [← union_assoc, union_comm a b, union_assoc]

/-- The parts of one name. -/
theorem ofNames_singleton (name : String) : ofNames [name] = ofPart name := by
  simp only [ofNames, ofPart, List.contains_cons, List.contains_nil, Bool.or_false, BEq.comm]

/-- The names of two lists select what those of either select. -/
theorem ofNames_append (first rest : List String) :
    ofNames (first ++ rest) = (ofNames first).union (ofNames rest) := by
  simp only [ofNames, union, List.contains_append, Bool.or_self]

end PageFields

/-- The names of the fields among the selections that keep their names. -/
def unaliasedNames (selections : List Selection) : List String :=
  selections.filterMap fun
    | .field field _ => if field.aliasName.isNone then some field.name.text else none
    | .inlineFragment .. | .spread _ => none

/-- What the selections of a call select themselves. -/
def PageCall.own (call : PageCall) : PageFields :=
  if call.inPageInfo then .ofNames (unaliasedNames call.selections) else .empty

namespace Document

variable (document : Document)

/-- The call that the search makes for a selection, if it makes one. -/
def callFor? (inPageInfo : Bool) (visited : List String) : Selection → Option PageCall
  | .field field nested =>
    if !inPageInfo && field.name.text == pageInfoName && field.aliasName.isNone
        && !nested.isEmpty then
      some ⟨true, visited, nested⟩
    else none
  | .inlineFragment _ nested => some ⟨inPageInfo, visited, nested⟩
  | .spread spread =>
    if visited.contains spread.name.text then none
    else (document.fragment? spread.name.text).map fun fragment =>
      ⟨inPageInfo, spread.name.text :: visited, fragment.selections⟩

/-- The calls that a call makes, in order. -/
def callsOf (call : PageCall) : List PageCall :=
  call.selections.filterMap (document.callFor? call.inPageInfo call.visited)

/-- What a call finds. -/
def fieldsOf (call : PageCall) : PageFields :=
  if call.inPageInfo then document.pageInfoFields call.visited call.selections
  else document.connectionFieldsFrom call.visited call.selections

/-- What a call finds if calls are nested no deeper than the given depth: what its selections select
themselves, and what the calls find that it makes. -/
def fieldsWithin : (depth : Nat) → PageCall → Option PageFields
  | 0, _ => none
  | depth + 1, call => do
    let found ← (document.callsOf call).mapM (fieldsWithin depth)
    return call.own.union (.unionOf found)

/-- The number of fragments that are not visited, and the size of the selections. -/
def callMeasure (call : PageCall) : Nat × Nat :=
  (document.unvisited call.visited, selectionsSize call.selections)

/-- The size of the largest fragment. -/
def largestFragment : Nat :=
  ((document.fragments.map fun fragment => selectionsSize fragment.selections).max?).getD 0

/-- How deep the calls below a call are nested at most. -/
def callBound (call : PageCall) : Nat :=
  document.unvisited call.visited * (document.largestFragment + 1) + selectionsSize call.selections

variable {document}

/-! ## From call to call -/

/-- A call is made for a smaller set of selections that are written in those of the call before, or
for the selections of a fragment that was not visited and is now. -/
theorem visited_of_mem_callsOf {call next : PageCall} (h : next ∈ document.callsOf call) :
    (next.visited = call.visited ∧
      selectionsSize next.selections < selectionsSize call.selections) ∨
    ∃ name fragment, document.fragment? name = some fragment ∧
      call.visited.contains name = false ∧ next.visited = name :: call.visited ∧
        next.selections = fragment.selections := by
  obtain ⟨selection, hmem, hcall⟩ := List.mem_filterMap.mp h
  have hsize := Selection.size_le_of_mem hmem
  cases selection with
  | field field nested =>
    -- from a connection to its `pageInfo` the visited fragments are passed on
    rw [callFor?] at hcall
    split at hcall
    next =>
      cases hcall
      exact .inl ⟨rfl, hsize⟩
    next => cases hcall
  | inlineFragment fragment nested =>
    cases hcall
    exact .inl ⟨rfl, hsize⟩
  | spread spread =>
    -- the fragment may be of any size, but it counts as visited from here on
    rw [callFor?] at hcall
    split at hcall
    next => cases hcall
    next hnew =>
      obtain ⟨fragment, hfound, rfl⟩ := Option.map_eq_some_iff.mp hcall
      exact .inr ⟨_, fragment, hfound, Bool.eq_false_iff.mpr hnew, rfl, rfl⟩

/-- From a call to those it makes, the number of fragments that are not visited becomes smaller, or
it stays the same and the selections become smaller. -/
theorem callMeasure_lt {call next : PageCall} (h : next ∈ document.callsOf call) :
    Prod.Lex (· < ·) (· < ·) (document.callMeasure next) (document.callMeasure call) := by
  rw [callMeasure, callMeasure]
  rcases visited_of_mem_callsOf h with
    ⟨hvisited, hsize⟩ | ⟨name, fragment, hfound, hnew, hvisited, -⟩
  · rw [hvisited]
    exact .right _ hsize
  · rw [hvisited]
    exact .left _ _ (unvisited_cons_lt hfound hnew)

/-- Calls are not nested without end. -/
theorem wellFounded_callsOf : WellFounded fun next call => next ∈ document.callsOf call :=
  Subrelation.wf callMeasure_lt
    (InvImage.wf document.callMeasure (WellFounded.prod_lex wellFounded_lt wellFounded_lt))

/-- No fragment is larger than the largest one. -/
theorem size_le_largestFragment {fragment : Fragment} (h : fragment ∈ document.fragments) :
    selectionsSize fragment.selections ≤ document.largestFragment :=
  List.le_max?_getD_of_mem (List.mem_map_of_mem h)

/-- From a call to those it makes, the bound on the depth of the calls below becomes smaller. -/
theorem callBound_lt {call next : PageCall} (h : next ∈ document.callsOf call) :
    document.callBound next < document.callBound call := by
  rw [callBound, callBound]
  rcases visited_of_mem_callsOf h with
    ⟨hvisited, hsize⟩ | ⟨name, fragment, hfound, hnew, hvisited, hselections⟩
  · rw [hvisited]
    exact Nat.add_lt_add_left hsize _
  · -- a fragment less to visit makes room for the selections of any fragment
    rw [hvisited, hselections]
    have hfewer : document.unvisited (name :: call.visited) + 1 ≤ document.unvisited call.visited :=
      unvisited_cons_lt hfound hnew
    have hlargest := size_le_largestFragment (mem_fragments_of_fragment? hfound).1
    calc document.unvisited (name :: call.visited) * (document.largestFragment + 1)
          + selectionsSize fragment.selections
        < (document.unvisited (name :: call.visited) + 1) * (document.largestFragment + 1) := by
          rw [Nat.succ_mul]
          exact Nat.add_lt_add_left (Nat.lt_succ_of_le hlargest) _
      _ ≤ document.unvisited call.visited * (document.largestFragment + 1) :=
          Nat.mul_le_mul_right _ hfewer
      _ ≤ _ := Nat.le_add_right _ _

/-! ## What calls find -/

/-- A spread selects what the call finds that is made for it, or nothing if none is made. -/
theorem spread_eq {inPageInfo : Bool} {visited : List String} {spread : Spread}
    {select : Fragment → PageFields}
    (hselect : ∀ fragment, select fragment =
      document.fieldsOf ⟨inPageInfo, spread.name.text :: visited, fragment.selections⟩) :
    (if _new : visited.contains spread.name.text then PageFields.empty
      else match _found : document.fragment? spread.name.text with
        | none => PageFields.empty
        | some fragment => select fragment) =
      .unionOf ((document.callFor? inPageInfo visited (.spread spread)).toList.map
        document.fieldsOf) := by
  rw [callFor?]
  split
  next => rfl
  next hnew =>
    split
    next hunknown =>
      rw [hunknown]
      rfl
    next fragment hfound =>
      rw [hfound, hselect]
      exact (PageFields.union_empty _).symm

/-- What a call finds for its first selection and for the others. -/
theorem callsOf_cons (inPageInfo : Bool) (visited : List String) (first : Selection)
    (rest : List Selection) :
    document.callsOf ⟨inPageInfo, visited, first :: rest⟩ =
      (document.callFor? inPageInfo visited first).toList ++
        document.callsOf ⟨inPageInfo, visited, rest⟩ := by
  rw [callsOf, List.filterMap_cons]
  cases document.callFor? inPageInfo visited first <;> rfl

/-- Inside `pageInfo` it is always found that `pageInfo` is selected. -/
theorem pageInfoOnly_union_pageInfoFields (visited : List String) (selections : List Selection) :
    PageFields.pageInfoOnly.union (document.pageInfoFields visited selections) =
      document.pageInfoFields visited selections := by
  induction selections with
  | nil =>
    rw [pageInfoFields]
    exact PageFields.union_self _
  | cons first rest ih =>
    cases first <;> rw [pageInfoFields, PageFields.union_left_comm, ih]

/-- A connection selects what the call finds that is made for its first selection, and what its
other selections select. -/
theorem connectionFieldsFrom_cons (visited : List String) (first : Selection)
    (rest : List Selection) :
    document.connectionFieldsFrom visited (first :: rest) =
      (PageFields.unionOf
        ((document.callFor? false visited first).toList.map document.fieldsOf)).union
          (document.connectionFieldsFrom visited rest) := by
  cases first with
  | field field nested =>
    rw [connectionFieldsFrom, callFor?, Bool.not_false, Bool.true_and]
    split
    next => exact congrArg (PageFields.union · _) (PageFields.union_empty _).symm
    next => rfl
  | inlineFragment fragment nested =>
    rw [connectionFieldsFrom]
    exact congrArg (PageFields.union · _) (PageFields.union_empty _).symm
  | spread spread =>
    rw [connectionFieldsFrom, ← spread_eq fun _ => rfl]
    rfl

/-- Inside `pageInfo` that is selected which the first selection selects itself, what the call finds
that is made for it, and what the other selections select. -/
theorem pageInfoFields_cons (visited : List String) (first : Selection) (rest : List Selection) :
    document.pageInfoFields visited (first :: rest) =
      (PageFields.ofNames (unaliasedNames [first])).union ((PageFields.unionOf
        ((document.callFor? true visited first).toList.map document.fieldsOf)).union
          (document.pageInfoFields visited rest)) := by
  cases first with
  | field field nested =>
    -- no call is made for a field of `pageInfo`; it is a part itself if it keeps its name
    have hown : (if field.aliasName.isNone then .ofPart field.name.text else .pageInfoOnly) =
        PageFields.ofNames (unaliasedNames [.field field nested]) := by
      cases halias : field.aliasName with
      | none =>
        have hnames : unaliasedNames [.field field nested] = [field.name.text] := by
          simp [unaliasedNames, halias]
        rw [hnames, PageFields.ofNames_singleton]
        rfl
      | some aliasName =>
        have hnames : unaliasedNames [.field field nested] = [] := by simp [unaliasedNames, halias]
        rw [hnames]
        rfl
    rw [pageInfoFields, hown]
    rfl
  | inlineFragment fragment nested =>
    rw [PageFields.union_left_comm, pageInfoFields]
    exact congrArg₂ PageFields.union (PageFields.union_empty _).symm
      (pageInfoOnly_union_pageInfoFields visited rest).symm
  | spread spread =>
    rw [PageFields.union_left_comm, pageInfoFields, ← spread_eq fun _ => rfl]
    exact congrArg (PageFields.union _) (pageInfoOnly_union_pageInfoFields visited rest).symm

/-- A connection selects what the calls find that are made for its selections. -/
theorem connectionFieldsFrom_eq (visited : List String) (selections : List Selection) :
    document.connectionFieldsFrom visited selections =
      .unionOf ((document.callsOf ⟨false, visited, selections⟩).map document.fieldsOf) := by
  induction selections with
  | nil =>
    rw [connectionFieldsFrom]
    rfl
  | cons first rest ih =>
    rw [connectionFieldsFrom_cons, ih, callsOf_cons, List.map_append, PageFields.unionOf_append]

/-- Inside `pageInfo` that is selected which the selections select themselves, and what the calls
find that are made for them. -/
theorem pageInfoFields_eq (visited : List String) (selections : List Selection) :
    document.pageInfoFields visited selections =
      (PageFields.ofNames (unaliasedNames selections)).union
        (.unionOf ((document.callsOf ⟨true, visited, selections⟩).map document.fieldsOf)) := by
  induction selections with
  | nil =>
    rw [pageInfoFields]
    rfl
  | cons first rest ih =>
    have hnames : unaliasedNames (first :: rest) = unaliasedNames [first] ++ unaliasedNames rest :=
      List.filterMap_append (l := [first])
    rw [pageInfoFields_cons, ih, callsOf_cons, List.map_append, PageFields.unionOf_append, hnames,
      PageFields.ofNames_append, PageFields.union_assoc, PageFields.union_left_comm (.unionOf _)]

/-- A call finds what its selections select themselves, and what the calls find that it makes. -/
theorem fieldsOf_eq (call : PageCall) : document.fieldsOf call =
    call.own.union (.unionOf ((document.callsOf call).map document.fieldsOf)) := by
  obtain ⟨inPageInfo, visited, selections⟩ := call
  cases inPageInfo with
  | false =>
    rw [PageCall.own, if_neg Bool.false_ne_true, PageFields.empty_union]
    exact connectionFieldsFrom_eq visited selections
  | true => exact pageInfoFields_eq visited selections

/-- A search through a list has an answer if it has one for each member. -/
theorem mapM_eq_some_map {α β : Type} {f : α → Option β} {g : α → β} {l : List α}
    (h : ∀ a ∈ l, f a = some (g a)) : l.mapM f = some (l.map g) := by
  induction l with
  | nil => rfl
  | cons first rest ih =>
    rw [List.mapM_cons, h first (List.mem_cons_self ..),
      ih fun a hmem => h a (List.mem_cons_of_mem _ hmem)]
    rfl

/-- If all calls below a call are made within the depth, then the search finds within the depth what
it finds. -/
theorem fieldsWithin_eq_some {depth : Nat} {call : PageCall} (h : document.callBound call < depth) :
    document.fieldsWithin depth call = some (document.fieldsOf call) := by
  induction depth generalizing call with
  | zero => cases h
  | succ depth ih =>
    -- the bounds of the calls that are made leave room for one level less
    have hfound : (document.callsOf call).mapM (document.fieldsWithin depth) =
        some ((document.callsOf call).map document.fieldsOf) :=
      mapM_eq_some_map fun next hmem =>
        ih (Nat.lt_of_lt_of_le (callBound_lt hmem) (Nat.le_of_lt_succ h))
    rw [fieldsWithin, hfound, fieldsOf_eq call]
    rfl

/-- The search for the fields needed for pagination ends, whatever fragments the document defines
and spreads. From each call to those that it makes the number of fragments that are not visited and
the size of the selections decrease lexicographically. So no chain of calls is without end, and
within some depth the search finds the fields that a connection selects. -/
theorem connectionFields_terminates (document : Document) :
    (∀ call, ∀ next ∈ document.callsOf call,
      Prod.Lex (· < ·) (· < ·) (document.callMeasure next) (document.callMeasure call)) ∧
    (¬∃ chain : Nat → PageCall, ∀ n, chain (n + 1) ∈ document.callsOf (chain n)) ∧
    ∀ selections depth, document.callBound ⟨false, [], selections⟩ < depth →
      document.fieldsWithin depth ⟨false, [], selections⟩ =
        some (document.connectionFields selections) := by
  refine ⟨fun call next => callMeasure_lt, ?_, fun selections depth => fieldsWithin_eq_some⟩
  rintro ⟨chain, hchain⟩
  exact (wellFounded_iff_isEmpty_descending_chain.mp wellFounded_callsOf).false ⟨chain, hchain⟩

/-- The fragments `fragment P on ItemConnection { ...Q pageInfo { ...P hasNextPage } }` and
`fragment Q on ItemConnection { ...P }` lead back to `P` before `pageInfo` and inside. Calls are
nested three deep, which is well below the bound, and what they find is what the search finds. -/
theorem connectionFields_terminates_cyclic :
    let pageInfo := pageField "pageInfo" [pageSpread "P", pageField "hasNextPage" []]
    let document : Document := ⟨[
      .fragment (pageFragment "P" "ItemConnection" [pageSpread "Q", pageInfo]),
      .fragment (pageFragment "Q" "ItemConnection" [pageSpread "P"])]⟩
    let call : PageCall := ⟨false, [], [pageSpread "P"]⟩
    let found : PageFields := ⟨true, true, false, false, false⟩
    document.callBound call = 11 ∧ document.fieldsWithin 2 call = none ∧
      document.fieldsWithin 3 call = some found ∧
      document.connectionFields [pageSpread "P"] = found := by
  intro pageInfo document call found
  have hbound : document.callBound call = 11 := by decide
  have hwithin : document.fieldsWithin 12 call = some found := by decide
  have hfound := document.connectionFields_terminates.2.2 [pageSpread "P"] 12
    (hbound.trans_lt (Nat.lt_succ_self 11))
  refine ⟨hbound, by decide, by decide, ?_⟩
  rw [← Option.some_inj, ← hfound]
  exact hwithin

end Document

end RelayCheck
