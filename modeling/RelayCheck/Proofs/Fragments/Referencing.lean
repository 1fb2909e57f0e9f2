import RelayCheck.Proofs.FragmentArguments.LexicalScope
import RelayCheck.Proofs.Fragments.Separation
import RelayCheck.Proofs.Independence

/-!
# Operations that reference a fragment

An operation references a fragment if a chain of spreads leads from its selections to the name of
the fragment. A spread on the way has to name a fragment that the document defines; of several
definitions of one name the last one is followed. The operations that reference a fragment are found
by one search for each operation, and all searches share what may be spent.

The module introduces:

- `Document.Defines`, the definition that a name stands for;
- `Document.SpreadsLead`, the chains of spreads, by their first spread;
- `Document.spreadCount`, the number of spreads in all fragments.

The main result is `Analysis.ask_operationsReaching_eq_filter`.
-/

namespace RelayCheck

/-- The only spread is the one that occurs. -/
theorem SpreadIn.name_eq {spread : Spread} {name : String} (h : SpreadIn name [.spread spread]) :
    spread.name.text = name := by
  cases h with
  | here hname => exact hname
  | later hrest => cases hrest

namespace Document

variable {document : Document}

/-! ## Definitions of fragments -/

/-- The fragment is the last one that the document defines under this name. -/
def Defines (document : Document) (name : String) (fragment : Fragment) : Prop :=
  fragment.name.text = name ∧ ∃ before after,
    document.fragments = before ++ fragment :: after ∧
      ∀ other ∈ after, other.name.text ≠ name

/-- What is found by a name is the last fragment that the document defines under it. -/
theorem fragment?_eq_some_iff {name : String} {fragment : Fragment} :
    document.fragment? name = some fragment ↔ document.Defines name fragment := by
  rw [fragment?, List.find?_eq_some_iff_append, beq_iff_eq, Defines]
  refine and_congr_right fun _ => ?_
  -- what comes after the fragment in the document comes before it in the search
  constructor
  · rintro ⟨after, before, hsplit, hafter⟩
    refine ⟨before.reverse, after.reverse, ?_, fun other hother => ?_⟩
    · rw [← List.reverse_reverse document.fragments, hsplit]
      simp
    · simpa using hafter other (List.mem_reverse.mp hother)
  · rintro ⟨before, after, hsplit, hafter⟩
    refine ⟨after.reverse, before.reverse, by simp [hsplit], fun other hother => ?_⟩
    simpa using hafter other (List.mem_reverse.mp hother)

/-! ## Chains of spreads -/

/-- A chain of spreads leads from selections to a name: a spread of the name itself, or one of a
fragment that the document defines, from which a chain leads on. -/
inductive SpreadsLead (document : Document) : List Selection → String → Prop
  | last {selections : List Selection} {name : String} (hspread : SpreadIn name selections) :
      SpreadsLead document selections name
  | next {selections : List Selection} {middle name : String} {fragment : Fragment}
      (hspread : SpreadIn middle selections) (hdefines : document.Defines middle fragment)
      (hrest : SpreadsLead document fragment.selections name) :
      SpreadsLead document selections name

/-- A chain may be prolonged by a spread in the fragment to which it leads. -/
theorem SpreadsLead.prolong {selections : List Selection} {middle name : String}
    {fragment : Fragment} (h : document.SpreadsLead selections middle)
    (hdefines : document.Defines middle fragment) (hspread : SpreadIn name fragment.selections) :
    document.SpreadsLead selections name := by
  induction h with
  | last hfirst => exact .next hfirst hdefines (.last hspread)
  | next hfirst hother hrest ih => exact .next hfirst hother (ih hdefines)

/-- Chains that lead to the name of a fragment reach the fragment, and no others do. -/
theorem reaches_iff_spreadsLead {selections : List Selection} {name : String} {fragment : Fragment}
    (hdefines : document.Defines name fragment) :
    document.Reaches selections fragment ↔ document.SpreadsLead selections name := by
  constructor
  · intro h
    -- chains grow at their end on one side, and at their start on the other
    induction h generalizing name with
    | @direct other fragment hspread hfound =>
      obtain ⟨-, hother⟩ := mem_fragments_of_fragment? hfound
      obtain rfl : other = name := hother.symm.trans hdefines.1
      exact .last hspread
    | @step middle other fragment hmiddle hspread hfound ih =>
      obtain ⟨-, hother⟩ := mem_fragments_of_fragment? hfound
      obtain rfl : other = name := hother.symm.trans hdefines.1
      have hdefined := fragment?_eq_some_iff.mp hmiddle.fragment?_name
      exact (ih hdefined).prolong hdefined hspread
  · intro h
    induction h with
    | last hspread => exact .direct hspread (fragment?_eq_some_iff.mpr hdefines)
    | next hspread hfirst hrest ih =>
      exact (Reaches.direct hspread (fragment?_eq_some_iff.mpr hfirst)).trans (ih hdefines)

end Document

/-! ## Searches -/

/-- The number of spreads in all fragments of the document. -/
def Document.spreadCount (document : Document) : Nat :=
  (document.fragments.map fun fragment => (spreadNames fragment.selections).length).sum

namespace Context

variable {context : Context}

/-- An operation uses a fragment of a name if the document defines one and a chain leads to the
name. -/
theorem any_reached_iff {operation : Operation} {name : String} :
    ((context.reached operation).any fun fragment => fragment.name.text == name) = true ↔
      (∃ fragment, context.document.Defines name fragment) ∧
        context.document.SpreadsLead operation.selections name := by
  simp only [List.any_eq_true, beq_iff_eq, mem_reached_iff]
  constructor
  · rintro ⟨fragment, hreaches, rfl⟩
    have hdefines := Document.fragment?_eq_some_iff.mp hreaches.fragment?_name
    exact ⟨⟨fragment, hdefines⟩, (Document.reaches_iff_spreadsLead hdefines).mp hreaches⟩
  · rintro ⟨⟨fragment, hdefines⟩, hleads⟩
    exact ⟨fragment, (Document.reaches_iff_spreadsLead hdefines).mpr hleads, hdefines.1⟩

/-- A search looks at each fragment once at most. -/
theorem searchCost_le (context : Context) (operation : Operation) :
    context.searchCost operation ≤
      (spreadNames operation.selections).length + context.document.spreadCount := by
  cases hsearched : context.isSearched operation with
  | true =>
    rw [searchCost, hsearched, if_pos rfl]
    exact Nat.zero_le _
  | false =>
    rw [searchCost_eq hsearched]
    -- the fragments that are reached are different ones of the document
    have hsubset : context.reached operation ⊆ context.document.fragments :=
      fun fragment => mem_fragments_of_mem_reached
    obtain ⟨fragments, hperm, hsublist⟩ :=
      List.subperm_of_subset (context.reached_names_nodup operation).of_map hsubset
    rw [← (hperm.map _).sum_nat]
    exact Nat.add_le_add_left ((hsublist.map _).sum_le_sum fun _ _ => Nat.zero_le _) _

/-- No search is given up if there is enough left for all of them. -/
theorem isSome_searchAll? {operations : List Operation}
    (hroom : context.spent + (operations.map fun operation =>
      (spreadNames operation.selections).length + context.document.spreadCount).sum ≤
        searchLimit) : (context.searchAll? operations).isSome = true := by
  induction operations generalizing context with
  | nil => rfl
  | cons operation rest ih =>
    rw [List.map_cons, List.sum_cons] at hroom
    -- the first search keeps within its share, and leaves their shares to the others
    have hcost := context.searchCost_le operation
    have hgivesUp : context.givesUp operation = false := by
      rw [givesUp, Bool.and_eq_false_iff, decide_eq_false_iff_not, decide_eq_false_iff_not]
      omega
    rw [searchAll?, hgivesUp, if_neg Bool.false_ne_true]
    refine ih ?_
    rw [spent_search, document_search]
    omega

/-- Searches leave the document as it is. -/
theorem document_of_searchAll? {operations : List Operation} {later : Context}
    (h : context.searchAll? operations = some later) : later.document = context.document := by
  induction operations generalizing context with
  | nil =>
    cases h
    rfl
  | cons operation rest ih =>
    rw [searchAll?] at h
    split at h
    · cases h
    · rw [ih h, document_search]

/-- Which operations use a fragment does not depend on the searches that were made. -/
theorem operationsReaching_of_searchAll? {operations : List Operation} {later : Context}
    (h : context.searchAll? operations = some later) (name : String) :
    later.operationsReaching name = context.operationsReaching name := by
  have hdocument := document_of_searchAll? h
  rw [operationsReaching_eq_filter, operationsReaching_eq_filter, hdocument]
  refine List.filter_congr fun operation _ => ?_
  rw [Bool.eq_iff_iff, any_reached_iff, any_reached_iff, hdocument]

end Context

namespace Analysis

variable {context : Context}

/-- Several searches, one after the other. -/
theorem ask_foldlM_search (operations : List Operation) (context : Context) :
    match context.searchAll? operations with
    | some later => (operations.foldlM (fun _ => search) ()).ask context = (.ok (), later)
    | none => ((operations.foldlM (fun _ => search) ()).ask context).1 = .error .aborted := by
  induction operations generalizing context with
  | nil => rfl
  | cons operation rest ih =>
    rw [List.foldlM_cons, ask_bind, ask_search, Context.searchAll?]
    cases context.givesUp operation with
    | true => rfl
    | false => exact ih (context.search operation)

/-- All searches are made one after the other. -/
theorem searchAll_eq :
    searchAll = get >>= fun context => context.document.operations.foldlM (fun _ => search) () := by
  simp only [searchAll, bind_pure_comp, List.forIn_yield_eq_foldlM, id_map']

/-- Asked about a fragment, the analysis looks for the fragments of all operations and answers with
those that use it, unless it gives up a search. -/
theorem ask_operationsReaching (context : Context) (name : String) :
    ((operationsReaching name).ask context).1 =
      if (context.searchAll? context.document.operations).isSome then
        .ok (context.operationsReaching name)
      else .error .aborted := by
  have hsearchAll : searchAll.ask context =
      (context.document.operations.foldlM (fun _ => search) ()).ask context := by
    rw [searchAll_eq, ask_bind]
    rfl
  -- all searches come first, and the answer is read off the context that they leave
  have hall := ask_foldlM_search context.document.operations context
  rw [← hsearchAll] at hall
  rw [operationsReaching, ask_bind]
  cases hsearches : context.searchAll? context.document.operations with
  | none =>
    rw [hsearches] at hall
    rcases hasked : searchAll.ask context with ⟨answer, later⟩
    rw [hasked] at hall
    obtain rfl : answer = .error .aborted := hall
    rfl
  | some later =>
    rw [hsearches] at hall
    dsimp only at hall
    rw [hall, ← Context.operationsReaching_of_searchAll? hsearches]
    rfl

/-- Asked for the operations that reference a fragment, the analysis answers with those from which a
chain of spreads leads to its name, in their order, if the document defines a fragment of this name,
and with none otherwise. It gives no answer if it gives up a search, and it gives up none if what
was spent before and the spreads of the fragments, counted for each operation with its own, are
within the limit. -/
theorem ask_operationsReaching_eq_filter (context : Context) (name : String) :
    let document := context.document
    ∃ references : Operation → Bool,
      (∀ operation, references operation = true ↔
        (∃ fragment, document.Defines name fragment) ∧
          document.SpreadsLead operation.selections name) ∧
      ((operationsReaching name).ask context).1 =
        (if (context.searchAll? document.operations).isSome then
          .ok (document.operations.filter references) else .error .aborted) ∧
      (context.spent + (document.operations.map fun operation =>
        (spreadNames operation.selections).length + document.spreadCount).sum ≤
          Context.searchLimit → (context.searchAll? document.operations).isSome = true) := by
  intro document
  refine ⟨fun operation => (context.reached operation).any fun fragment =>
    fragment.name.text == name, fun operation => Context.any_reached_iff, ?_,
    Context.isSome_searchAll?⟩
  rw [ask_operationsReaching, Context.operationsReaching_eq_filter]

/-- A query spreads a fragment that spreads itself and another one, and a second query spreads only
the other one, which spreads itself. Asked for the first fragment, the analysis answers with the
first query. -/
theorem ask_operationsReaching_eq_filter_cycles :
    let first := pictureQuery "A" "F" (.named ⟨"Int", ⟨1, 16⟩⟩) 1
    let second := pictureQuery "B" "G" (.named ⟨"Int", ⟨2, 16⟩⟩) 2
    let outer := { pictureFragment "F" 3 with
      selections := [plainSpread "F" 3 23, plainSpread "G" 3 28] }
    let inner := { pictureFragment "G" 4 with selections := [plainSpread "G" 4 23] }
    let context := Context.fresh pictureSchema
      ⟨[.operation first, .operation second, .fragment outer, .fragment inner]⟩
    context.spent + (context.document.operations.map fun operation =>
        (spreadNames operation.selections).length + context.document.spreadCount).sum ≤
      Context.searchLimit ∧
    ((operationsReaching "F").ask context).1 = .ok [first] := by
  intro first second outer inner context
  have hroom : context.spent + (context.document.operations.map fun operation =>
      (spreadNames operation.selections).length + context.document.spreadCount).sum ≤
    Context.searchLimit := by decide
  obtain ⟨references, hreferences, hanswer, hsearches⟩ :=
    ask_operationsReaching_eq_filter context "F"
  have hfirst : references first = true :=
    (hreferences first).mpr ⟨⟨outer, rfl, [], [inner], rfl, by decide⟩, .last (.here rfl)⟩
  -- a chain that starts with the other fragment goes on to itself only
  have hloop {selections : List Selection} {name : String}
      (h : context.document.SpreadsLead selections name)
      (honly : ∀ other, SpreadIn other selections → "G" = other) : "G" = name := by
    have hinner : context.document.Defines "G" inner := ⟨rfl, [outer], [], rfl, nofun⟩
    induction h with
    | last hspread => exact honly _ hspread
    | next hspread hdefines hrest ih =>
      obtain rfl := honly _ hspread
      rw [← Document.fragment?_eq_some_iff] at hdefines hinner
      obtain rfl := Option.some_inj.mp (hinner.symm.trans hdefines)
      exact ih fun other => SpreadIn.name_eq
  have hsecond : ¬references second = true := by
    rw [hreferences]
    rintro ⟨-, hleads⟩
    exact absurd (hloop hleads fun other => SpreadIn.name_eq) (by decide)
  refine ⟨hroom, ?_⟩
  rw [hanswer, if_pos (hsearches hroom)]
  refine congrArg _ ?_
  show List.filter references [first, second] = [first]
  rw [List.filter_cons_of_pos hfirst, List.filter_cons_of_neg hsecond, List.filter_nil]

/-- A fragment with many spreads is referenced by 138 queries. Asked for them, the analysis does not
answer with the operations from which chains of spreads lead to the fragment, but with none, since
it gives up a search. -/
theorem not_ask_operationsReaching_crowdedDocument :
    let context := Context.fresh pictureSchema.withRelayDirectives crowdedDocument
    let document := context.document
    ¬∃ references : Operation → Bool,
      (∀ operation, references operation = true ↔
        (∃ fragment, document.Defines "Big" fragment) ∧
          document.SpreadsLead operation.selections "Big") ∧
      ((operationsReaching "Big").ask context).1 =
        .ok (document.operations.filter references) := by
  intro context document
  have hsearches : context.searchAll? context.document.operations = none :=
    searchAll?_crowdedDocument _
  rintro ⟨references, -, hanswer⟩
  rw [ask_operationsReaching, hsearches] at hanswer
  cases hanswer

end Analysis

end RelayCheck
