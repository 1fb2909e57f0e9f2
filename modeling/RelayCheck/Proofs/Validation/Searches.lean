import Mathlib
import RelayCheck.Proofs.Fragments.Reachability
import RelayCheck.Proofs.Validation.SideBySide

/-!
# Where rules give up

Rules look for the fragments of the operations of a document in the order of the document, each rule
at its own pace. What one rule found serves the others, so that a search is given up exactly if it is
beyond the operations for which searches in this order succeed. Which operations these are does not
depend on the rules: a rule that gives up alone gives up, or is stopped by another, among others.

The module introduces:

- `Context.furthest`, the context in which as much is searched as can be;
- `InOrder`, searches for operations in their order;
- `Halt.firstMiss`, the first search beyond a context.

The main results are `ofWalk?_eq_firstMiss`, which says where rules stop early, and
`firstMiss_singleton`, which compares that with the place where one of them does.
-/

namespace RelayCheck

namespace Context

variable {context : Context} {operation : Operation}

/-! ## Searches in a row -/

/-- The context after searches for operations in a row, up to one that is given up. -/
def searchWhile (context : Context) : List Operation → Context
  | [] => context
  | operation :: rest =>
    if context.givesUp operation then context else (context.search operation).searchWhile rest

/-- The context after as many searches for operations, in the order of the document, as succeed. -/
def furthest (context : Context) : Context :=
  (fresh context.schema context.document).searchWhile context.document.operations

/-- Whether the fragments of one of the operations were not found before. -/
def misses (context : Context) (operations : List Operation) : Bool :=
  operations.any fun operation => !context.isSearched operation

/-- Nothing is not missed. -/
theorem misses_nil (context : Context) : context.misses [] = false := rfl

/-- A search is not given up if it was made before. -/
theorem givesUp_of_isSearched (h : context.isSearched operation = true) :
    context.givesUp operation = false := by
  simp [givesUp, searchCost, h]

/-- What is given up was not searched before. -/
theorem isSearched_of_givesUp (h : context.givesUp operation = true) :
    context.isSearched operation = false := by
  cases hknown : context.isSearched operation with
  | true =>
    rw [givesUp_of_isSearched hknown] at h
    cases h
  | false => rfl

/-- Searching for an operation keeps what was found. -/
theorem isSearched_search (other : Operation) (h : context.isSearched operation = true) :
    (context.search other).isSearched operation = true := by
  rw [search]
  split
  · exact h
  · rw [isSearched, foundNames?, List.findSome?_append, Option.isSome_or]
    exact Bool.or_eq_true_iff.mpr (.inl h)

/-- A search that is not given up finds the fragments of the operation. -/
theorem isSearched_search_self (h : context.givesUp operation = false) :
    (context.search operation).isSearched operation = true := by
  cases hknown : context.isSearched operation with
  | true => exact isSearched_search operation hknown
  | false =>
    have hsame : sameNames (spreadNames operation.selections)
        (spreadNames operation.selections) = true := by simp [sameNames]
    rw [search, hknown, h, if_neg (by decide), isSearched, foundNames?, List.findSome?_append,
      Option.isSome_or]
    simp [hsame]

/-- Searches in a row keep what was found. -/
theorem isSearched_searchWhile (h : context.isSearched operation = true)
    (operations : List Operation) :
    (context.searchWhile operations).isSearched operation = true := by
  induction operations generalizing context with
  | nil => exact h
  | cons other rest ih =>
    rw [searchWhile]
    split
    · exact h
    · exact ih (isSearched_search other h)

/-- Searches succeed exactly if nothing is missed after as many of them as succeed. -/
theorem searchAll?_eq (context : Context) (operations : List Operation) :
    context.searchAll? operations =
      if (context.searchWhile operations).misses operations then none
      else some (context.searchWhile operations) := by
  induction operations generalizing context with
  | nil => rfl
  | cons operation rest ih =>
    rw [searchAll?, searchWhile]
    -- a search that is given up is missed ever after
    cases hgivesUp : context.givesUp operation with
    | true =>
      simp [misses, isSearched_of_givesUp hgivesUp]
    | false =>
      have hfound := isSearched_searchWhile (isSearched_search_self hgivesUp) rest
      have hmisses : ((context.search operation).searchWhile rest).misses (operation :: rest) =
          ((context.search operation).searchWhile rest).misses rest := by
        rw [misses, List.any_cons, hfound, Bool.not_true, Bool.false_or, misses]
      simp only [Bool.false_eq_true, if_false]
      rw [hmisses, ih]

/-- Searches that were made before change nothing. -/
theorem searchAll?_append_of_isSearched {known : List Operation}
    (h : ∀ operation ∈ known, context.isSearched operation = true) (operations : List Operation) :
    context.searchAll? (known ++ operations) = context.searchAll? operations := by
  induction known with
  | nil => rfl
  | cons operation rest ih =>
    rw [List.forall_mem_cons] at h
    rw [List.cons_append, searchAll?, givesUp_of_isSearched h.1, search_of_isSearched h.1, ih h.2]
    rfl

end Context

/-! ## Searches in the order of operations -/

/-- Searches each of which is for nothing, for all operations, or for the next one. -/
inductive InOrder (operations : List Operation) : List Operation → List (List Operation) → Prop
  /-- There is no more search. -/
  | done {asked : List Operation} : InOrder operations asked []
  /-- The next search is for nothing. -/
  | none {asked : List Operation} {later : List (List Operation)} :
      InOrder operations asked later → InOrder operations asked ([] :: later)
  /-- The next search is for all operations. -/
  | all {asked : List Operation} {later : List (List Operation)} :
      InOrder operations asked later → InOrder operations asked (operations :: later)
  /-- The next search is for the next operation. -/
  | next {asked : List Operation} {operation : Operation} {later : List (List Operation)} :
      asked ++ [operation] <+: operations → InOrder operations (asked ++ [operation]) later →
        InOrder operations asked ([operation] :: later)

/-- The context is on the way to the last one: the first operations were searched, and searching for
the others as long as that succeeds leads there. -/
structure Context.OnTheWay (context : Context) (operations searched : List Operation)
    (last : Context) : Prop where
  isSearched : ∀ operation ∈ searched, context.isSearched operation = true
  rest : ∃ pending, operations = searched ++ pending ∧ context.searchWhile pending = last

namespace Context.OnTheWay

variable {context last : Context} {operations searched : List Operation}

/-- What was searched on the way is not missed in the end. -/
theorem misses_eq_false (h : context.OnTheWay operations searched last)
    {known : List Operation} (hknown : ∀ operation ∈ known, context.isSearched operation = true) :
    last.misses known = false := by
  obtain ⟨pending, -, rfl⟩ := h.rest
  rw [misses, List.any_eq_false]
  intro operation hoperation
  rw [isSearched_searchWhile (hknown operation hoperation) pending]
  decide

/-- Searching for all operations leads to the end of the way, or is given up. -/
theorem searchAll?_operations (h : context.OnTheWay operations searched last) :
    context.searchAll? operations =
      if last.misses operations then none else some last := by
  obtain ⟨pending, hoperations, hlast⟩ := h.rest
  have hmisses : last.misses operations = last.misses pending := by
    have hfalse := h.misses_eq_false h.isSearched
    rw [hoperations, misses, List.any_append]
    rw [misses] at hfalse
    rw [hfalse, Bool.false_or, misses]
  rw [hmisses, hoperations, searchAll?_append_of_isSearched h.isSearched, searchAll?_eq, hlast]

/-- The search for the next operation on the way is given up, and then the way ends, or it leads one
operation further. -/
theorem search_next {operation : Operation} (h : context.OnTheWay operations searched last)
    (hnext : searched ++ [operation] <+: operations) :
    (context.givesUp operation = true ∧ last.misses [operation] = true) ∨
      (context.givesUp operation = false ∧
        (context.search operation).OnTheWay operations (searched ++ [operation]) last) := by
  obtain ⟨pending, hoperations, hlast⟩ := h.rest
  rw [hoperations, List.prefix_append_right_inj] at hnext
  obtain ⟨rest, rfl⟩ := hnext
  rw [List.singleton_append, searchWhile] at hlast
  -- the way ends with the first search that is given up
  cases hgivesUp : context.givesUp operation with
  | true =>
    rw [hgivesUp, if_pos rfl] at hlast
    refine .inl ⟨rfl, ?_⟩
    rw [← hlast, misses, List.any_cons, isSearched_of_givesUp hgivesUp]
    rfl
  | false =>
    rw [hgivesUp, if_neg Bool.false_ne_true] at hlast
    refine .inr ⟨rfl, fun other hother => ?_, rest, ?_, hlast⟩
    · rcases List.mem_append.mp hother with hother | hother
      · exact isSearched_search operation (h.isSearched other hother)
      · rw [List.mem_singleton.mp hother]
        exact isSearched_search_self hgivesUp
    · rw [hoperations, List.append_assoc]

/-- A search in order is given up exactly if it misses something in the end, and otherwise leads
further on the way. -/
theorem searchAll? (h : context.OnTheWay operations searched last) {asked search : List Operation}
    {later : List (List Operation)} (hasked : asked <+: searched)
    (horder : InOrder operations asked (search :: later)) :
    (last.misses search = true ∧ context.searchAll? search = none) ∨
      (last.misses search = false ∧ ∃ next found, context.searchAll? search = some next ∧
        next.OnTheWay operations found last ∧ searched <+: found ∧
          ∃ asked, asked <+: found ∧ InOrder operations asked later) := by
  obtain ⟨pending, hoperations, -⟩ := h.rest
  cases horder with
  | none horder =>
    exact .inr ⟨rfl, context, searched, rfl, h, List.prefix_refl _, asked, hasked, horder⟩
  | all horder =>
    rw [h.searchAll?_operations]
    cases hmiss : last.misses operations with
    | true => exact .inl ⟨rfl, rfl⟩
    | false =>
      refine .inr ⟨rfl, last, operations, rfl, ⟨?_, [], by simp, rfl⟩,
        ⟨pending, hoperations.symm⟩, asked, hasked.trans ⟨pending, hoperations.symm⟩, horder⟩
      intro operation hoperation
      rw [misses, List.any_eq_false] at hmiss
      simpa using hmiss operation hoperation
  | @next _ operation _ hnext horder =>
    have hone : context.searchAll? [operation] =
        if context.givesUp operation then Option.none else some (context.search operation) := rfl
    by_cases hfound : asked ++ [operation] <+: searched
    · -- the operation was searched before
      have hsearched : ∀ other ∈ [operation], context.isSearched other = true := by
        simpa using h.isSearched operation (hfound.subset (by simp))
      have hknown := searchAll?_append_of_isSearched hsearched []
      rw [List.append_nil] at hknown
      exact .inr ⟨h.misses_eq_false hsearched, context, searched, hknown, h,
        List.prefix_refl _, _, hfound, horder⟩
    · -- the operation is the next one on the way
      have hreached : searched <+: asked ++ [operation] :=
        (List.prefix_or_prefix_of_prefix hnext ⟨pending, hoperations.symm⟩).resolve_left hfound
      have heq : searched = asked := by
        rcases List.prefix_concat_iff.mp hreached with heq | hprefix
        · exact absurd (heq ▸ List.prefix_refl _) hfound
        · exact hprefix.eq_of_length_le hasked.length_le
      subst heq
      rcases h.search_next hnext with ⟨hgivesUp, hmiss⟩ | ⟨hgivesUp, hway⟩
      · exact .inl ⟨hmiss, by rw [hone, hgivesUp, if_pos rfl]⟩
      · refine .inr ⟨hway.misses_eq_false ?_, _, _, by rw [hone, hgivesUp]; rfl, hway,
          List.prefix_append _ _, _, List.prefix_refl _, horder⟩
        exact fun other hother => hway.isSearched other (List.mem_append_right _ hother)

end Context.OnTheWay

/-! ## Where rules stop -/

namespace Halt

/-- The first event and rule whose search misses something in the given context. -/
def firstMiss (last : Context) (rules : List Rule) : (done : Nat) → List Event → Option Halt
  | _, [] => none
  | done, event :: rest =>
    match rules.findIdx? fun rule => last.misses (rule.searches event) with
    | some ahead => some ⟨done, ahead⟩
    | none => firstMiss last rules (done + 1) rest

/-- A rule whose searches are in order on a walk, the first of them being for the operation after
some of those that were searched. -/
def Follows (operations searched : List Operation) (events : List Event) (rule : Rule) : Prop :=
  ∃ asked, asked <+: searched ∧ InOrder operations asked (events.map rule.searches)

variable {context last : Context} {operations searched : List Operation}

/-- A rule whose searches go on after some of those made stays one if more are made. -/
theorem Follows.mono {events : List Event} {rule : Rule}
    (h : Follows operations searched events rule) {found : List Operation}
    (hfound : searched <+: found) : Follows operations found events rule := by
  obtain ⟨asked, hasked, horder⟩ := h
  exact ⟨asked, hasked.trans hfound, horder⟩

/-- At an event, rules give up the first search that misses something in the end, and go on
otherwise. -/
theorem rulesBefore_eq {event : Event} {rest : List Event} {rules : List Rule}
    (h : context.OnTheWay operations searched last)
    (hrules : ∀ rule ∈ rules, Follows operations searched (event :: rest) rule) (done : Nat) :
    match rules.findIdx? fun rule => last.misses (rule.searches event) with
    | some ahead => rulesBefore event done context rules = .error (done + ahead)
    | none => ∃ next found, rulesBefore event done context rules = .ok next ∧
        next.OnTheWay operations found last ∧ searched <+: found ∧
          ∀ rule ∈ rules, Follows operations found rest rule := by
  -- the context is on the way after each rule, and the rules before it still follow it there
  induction rules generalizing context searched done with
  | nil => exact ⟨context, searched, rfl, h, List.prefix_refl _, List.forall_mem_nil _⟩
  | cons rule rules ih =>
    rw [List.forall_mem_cons] at hrules
    obtain ⟨⟨asked, hasked, horder⟩, hrules⟩ := hrules
    rw [List.map_cons] at horder
    rcases h.searchAll? hasked horder with ⟨hmiss, hfails⟩ | ⟨hmiss, next, found, hsearch, hnext,
      hfound, later, hlater, horder⟩
    · rw [List.findIdx?_cons, hmiss]
      simp only [rulesBefore, hfails, if_true, Nat.add_zero]
    · have hrest := ih hnext (fun rule hrule => (hrules rule hrule).mono hfound) (done + 1)
      rw [List.findIdx?_cons, hmiss]
      simp only [rulesBefore, hsearch, Bool.false_eq_true, if_false]
      cases hindex : rules.findIdx? fun rule => last.misses (rule.searches event) with
      | some ahead =>
        rw [hindex] at hrest
        simpa [Nat.add_assoc, Nat.add_comm 1] using hrest
      | none =>
        rw [hindex] at hrest
        obtain ⟨final, all, hok, hfinal, hall, hrules⟩ := hrest
        refine ⟨final, all, hok, hfinal, hfound.trans hall, List.forall_mem_cons.mpr ⟨?_, hrules⟩⟩
        exact ⟨later, hlater.trans hall, horder⟩

/-- On a walk, rules give up the first search that misses something in the end. -/
theorem ofWalkFrom_eq {rules : List Rule} {events : List Event}
    (h : context.OnTheWay operations searched last)
    (hrules : ∀ rule ∈ rules, Follows operations searched events rule) (done : Nat) :
    ofWalkFrom rules done context events = firstMiss last rules done events := by
  induction events generalizing context searched done with
  | nil => rfl
  | cons event rest ih =>
    have hevent := rulesBefore_eq h hrules 0
    rw [ofWalkFrom, firstMiss]
    -- at each event either a search is missed by some rule, or all rules go one step further
    cases hindex : rules.findIdx? fun rule => last.misses (rule.searches event) with
    | some ahead =>
      rw [hindex] at hevent
      simp only [hevent, Nat.zero_add]
    | none =>
      rw [hindex] at hevent
      obtain ⟨next, found, hok, hnext, -, hrules⟩ := hevent
      simp only [hok]
      exact ih hnext hrules (done + 1)

end Halt

/-- Searches in order are for operations of the document. -/
theorem InOrder.subset {operations asked : List Operation} {searches : List (List Operation)}
    (h : InOrder operations asked searches) : ∀ search ∈ searches, search ⊆ operations := by
  induction h with
  | done => exact List.forall_mem_nil _
  | none _ ih => exact List.forall_mem_cons.mpr ⟨List.nil_subset _, ih⟩
  | all _ ih => exact List.forall_mem_cons.mpr ⟨List.Subset.refl _, ih⟩
  | next hnext _ ih =>
    exact List.forall_mem_cons.mpr ⟨fun operation hoperation => hnext.subset (by simp_all), ih⟩

namespace Halt

variable {rules : List Rule} {events : List Event}

/-- Where no search misses anything, rules do not stop early. -/
theorem firstMiss_eq_none_iff {last : Context} {done : Nat} :
    firstMiss last rules done events = none ↔
      ∀ event ∈ events, ∀ rule ∈ rules, last.misses (rule.searches event) = false := by
  induction events generalizing done with
  | nil => exact ⟨fun _ => List.forall_mem_nil _, fun _ => rfl⟩
  | cons event rest ih =>
    rw [firstMiss, List.forall_mem_cons, ← List.findIdx?_eq_none_iff, ← @ih (done + 1)]
    cases rules.findIdx? fun rule => last.misses (rule.searches event) with
    | some ahead => simp
    | none => simp

/-- Rules whose searches are in order stop early at the first of them that is beyond what can be
searched. -/
theorem ofWalk?_eq_firstMiss {context : Context}
    (hrules : ∀ rule ∈ rules,
      InOrder context.document.operations [] (events.map rule.searches)) :
    ofWalk? context rules events = firstMiss context.furthest rules 0 events := by
  have hway : (Context.fresh context.schema context.document).OnTheWay
      context.document.operations [] context.furthest :=
    ⟨List.forall_mem_nil _, _, rfl, rfl⟩
  rw [ofWalk?]
  split
  next hroom =>
    -- there is room for all operations, so that nothing is missed
    have hall : context.furthest.misses context.document.operations = false := by
      cases hmiss : context.furthest.misses context.document.operations with
      | true =>
        rw [Context.searchAll?_eq, ← Context.furthest, hmiss] at hroom
        cases hroom
      | false => rfl
    rw [Context.misses, List.any_eq_false] at hall
    refine (firstMiss_eq_none_iff.mpr fun event hevent rule hrule => ?_).symm
    have hsubset := (hrules rule hrule).subset _ (List.mem_map_of_mem hevent)
    rw [Context.misses, List.any_eq_false]
    exact fun operation hoperation => hall operation (hsubset hoperation)
  next => exact ofWalkFrom_eq hway (fun rule hrule => ⟨[], List.prefix_refl _, hrules rule hrule⟩) 0

/-! ## Fewer rules -/

/-- Rules do not stop before the event from which they go on. -/
theorem le_of_firstMiss_eq_some {last : Context} {done : Nat} {halt : Halt}
    (h : firstMiss last rules done events = some halt) : done ≤ halt.events := by
  induction events generalizing done with
  | nil => cases h
  | cons event rest ih =>
    rw [firstMiss] at h
    split at h
    next =>
      rw [← Option.some_inj.mp h]
    next => exact (Nat.le_succ done).trans (ih h)

/-- A rule alone stops no earlier than among others. -/
theorem count_le_of_firstMiss_singleton {last : Context} {rule : Rule} {index done : Nat}
    (hrule : rules[index]? = some rule) {alone : Halt}
    (halone : firstMiss last [rule] done events = some alone) :
    ∃ halt, firstMiss last rules done events = some halt ∧ halt.count index ≤ alone.events := by
  induction events generalizing done with
  | nil => cases halone
  | cons event rest ih =>
    have hfrom := le_of_firstMiss_eq_some halone
    rw [firstMiss, List.findIdx?_singleton] at halone
    rw [firstMiss]
    cases hindex : rules.findIdx? fun rule => last.misses (rule.searches event) with
    | some ahead =>
      refine ⟨⟨done, ahead⟩, rfl, ?_⟩
      rw [count]
      split
      next hbefore =>
        -- the rule comes before the one that misses something, and goes on
        obtain ⟨_, -, hfirst⟩ := List.findIdx?_eq_some_iff_getElem.mp hindex
        obtain ⟨_, rfl⟩ := List.getElem?_eq_some_iff.mp hrule
        rw [if_neg (hfirst index hbefore)] at halone
        exact le_of_firstMiss_eq_some halone
      next => exact hfrom
    | none =>
      have hmiss := List.findIdx?_eq_none_iff.mp hindex rule (List.mem_of_getElem? hrule)
      rw [if_neg (by rw [hmiss]; decide)] at halone
      exact ih halone

/-- A rule that never searches does not stop the others. -/
theorem map_without_firstMiss {last : Context} {rule : Rule}
    (hquiet : ∀ event, rule.searches event = []) (before after : List Rule) (done : Nat)
    (events : List Event) :
    (firstMiss last (before ++ rule :: after) done events).map
        (fun halt => halt.without before.length) =
      firstMiss last (before ++ after) done events := by
  induction events generalizing done with
  | nil => rfl
  | cons event rest ih =>
    rw [firstMiss, firstMiss, List.findIdx?_append, List.findIdx?_append, List.findIdx?_cons,
      hquiet, Context.misses_nil, if_neg Bool.false_ne_true, ← ih (done + 1)]
    -- a rule before the quiet one keeps its number, one after it has one less
    cases hbefore : before.findIdx? fun rule => last.misses (rule.searches event) with
    | some ahead =>
      obtain ⟨hahead, -⟩ := List.findIdx?_eq_some_iff_getElem.mp hbefore
      simp [without, hahead.not_gt]
    | none =>
      cases after.findIdx? fun rule => last.misses (rule.searches event) with
      | some ahead =>
        have hahead : before.length < ahead + before.length + 1 := by omega
        simp only [Option.map_some, Option.none_or, without, Nat.add_right_comm _ 1, if_pos hahead,
          Nat.add_sub_cancel]
      | none => rfl

end Halt

/-! ## Searches that cost too much -/

namespace Context

variable {context : Context}

/-- A new search looks at the spreads of the operation and at those of the fragments that it
reaches. -/
theorem searchCost_eq {operation : Operation} (hnew : context.isSearched operation = false) :
    context.searchCost operation = (spreadNames operation.selections).length +
      ((context.reached operation).map fun fragment =>
        (spreadNames fragment.selections).length).sum := by
  rw [searchCost, hnew, if_neg Bool.false_ne_true]
  generalize (spreadNames operation.selections).length = cost
  induction context.reached operation generalizing cost with
  | nil => rfl
  | cons fragment rest ih => rw [List.foldl_cons, ih, List.map_cons, List.sum_cons, Nat.add_assoc]

/-- A search for an operation looks at the spreads of every fragment that it reaches. -/
theorem le_searchCost {operation : Operation} (hnew : context.isSearched operation = false)
    {fragment : Fragment} (hreached : fragment ∈ context.reached operation) :
    (spreadNames fragment.selections).length ≤ context.searchCost operation := by
  rw [searchCost_eq hnew]
  exact Nat.le_add_left_of_le (List.le_sum_of_mem (List.mem_map.mpr ⟨fragment, hreached, rfl⟩))

/-- Searching for an operation finds nothing for those that spread other names. -/
theorem isSearched_search_of_ne {operation other : Operation}
    (hother : context.isSearched other = false)
    (hne : sameNames (spreadNames operation.selections) (spreadNames other.selections) = false) :
    (context.search operation).isSearched other = false := by
  rw [search]
  split
  · exact hother
  · rw [isSearched, foundNames?] at hother
    rw [isSearched, foundNames?, List.findSome?_append, Option.isSome_or, hother]
    simp [hne]

/-- A search is counted. -/
theorem spent_search (context : Context) (operation : Operation) :
    (context.search operation).spent = context.spent + context.searchCost operation := by
  rw [search]
  split <;> rfl

/-- A search leaves the document as it is. -/
theorem document_search (context : Context) (operation : Operation) :
    (context.search operation).document = context.document := by
  rw [search]
  split <;> rfl

/-- If operations that spread different names all reach a fragment with many spreads, not all of
them can be searched. -/
theorem searchAll?_eq_none {operations : List Operation} (cost : Nat)
    (hnew : ∀ operation ∈ operations, context.isSearched operation = false)
    (hdistinct : operations.Pairwise fun operation other =>
      sameNames (spreadNames operation.selections) (spreadNames other.selections) = false)
    (hcost : ∀ operation ∈ operations, ∃ fragment,
      context.document.Reaches operation.selections fragment ∧
        cost ≤ (spreadNames fragment.selections).length)
    (hroom : context.spent ≤ searchLimit)
    (hlimit : searchLimit < context.spent + cost * operations.length) :
    context.searchAll? operations = none := by
  induction operations generalizing context with
  | nil => exact absurd hroom (Nat.not_le_of_lt hlimit)
  | cons operation rest ih =>
    rw [List.forall_mem_cons] at hnew hcost
    rw [List.pairwise_cons] at hdistinct
    rw [searchAll?]
    split
    next => rfl
    next hgivesUp =>
      obtain ⟨⟨fragment, hreaches, hfragment⟩, hcost⟩ := hcost
      have hspent := hfragment.trans (le_searchCost hnew.1 (mem_reached_iff.mpr hreaches))
      rw [givesUp, Bool.not_eq_true, Bool.and_eq_false_iff, decide_eq_false_iff_not,
        decide_eq_false_iff_not] at hgivesUp
      rw [List.length_cons, Nat.mul_succ] at hlimit
      -- the search spends the cost at least, and finds nothing for the others
      refine ih (fun other hother => ?_) hdistinct.2 (by rwa [document_search]) ?_ ?_
      · exact isSearched_search_of_ne (hnew.2 other hother) (hdistinct.1 other hother)
      · rw [spent_search]
        omega
      · rw [spent_search]
        omega

end Context

end RelayCheck
