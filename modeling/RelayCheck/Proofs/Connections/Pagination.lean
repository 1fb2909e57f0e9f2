import RelayCheck.Connections.Pagination
import RelayCheck.Proofs.Fragments.Separation

/-!
# Selected fields and the fragments of a document

Which of the fields needed for pagination a connection selects depends on the document only where
spreads lead to fragments. So it is the same in all documents in which they lead to the same ones, be
it everywhere or from a part of the document.

The main results are `connectionFields_congr` and `connectionFields_eq_of_part`.
-/

namespace RelayCheck

namespace Document

variable {document other : Document}

/-- What a spread selects depends on nothing but the fragment that its name leads to. -/
theorem match_fragment?_congr {name : String}
    (hfragment : other.fragment? name = document.fragment? name)
    {select selectOther : Fragment → PageFields}
    (hselect : ∀ fragment, document.fragment? name = some fragment →
      selectOther fragment = select fragment) :
    (match _found : other.fragment? name with
      | none => PageFields.empty
      | some fragment => selectOther fragment) =
    match _found : document.fragment? name with
      | none => PageFields.empty
      | some fragment => select fragment := by
  -- the match keeps what was found, so that both sides are split rather than rewritten
  split
  next hunknown =>
    rw [hfragment] at hunknown
    split
    next => rfl
    next fragment hfound =>
      rw [hunknown] at hfound
      cases hfound
  next fragment hfound =>
    rw [hfragment] at hfound
    split
    next hunknown =>
      rw [hunknown] at hfound
      cases hfound
    next target htarget =>
      rw [hfound, Option.some_inj] at htarget
      rw [← htarget]
      exact hselect fragment hfound

section Admitted

variable {admitted : String → Prop}
  (hfragment : ∀ name, admitted name → other.fragment? name = document.fragment? name)
  (hinside : ∀ fragment ∈ document.fragments, ∀ name, SpreadIn name fragment.selections →
    admitted name)

include hfragment hinside

/-- What is selected inside `pageInfo` depends on nothing but where the names lead that are spread.
-/
theorem pageInfoFields_congr (visited : List String) (selections : List Selection)
    (hspreads : ∀ name, SpreadIn name selections → admitted name) :
    other.pageInfoFields visited selections = document.pageInfoFields visited selections := by
  fun_induction document.pageInfoFields visited selections with
  | case1 visited => rw [pageInfoFields]
  | case2 visited field nested rest own ih =>
    rw [pageInfoFields, ih fun name hname => hspreads name (.later hname)]
    rfl
  | case3 visited fragment nested rest ihNested ihRest =>
    rw [pageInfoFields, ihNested fun name hname => hspreads name (.inInline hname),
      ihRest fun name hname => hspreads name (.later hname)]
  | case4 visited spread rest own ihOwn ihRest =>
    rw [pageInfoFields, ihRest fun name hname => hspreads name (.later hname)]
    refine congrArg (PageFields.union · _) ?_
    dsimp only [own]
    split
    next => rfl
    next hnew =>
      refine match_fragment?_congr (hfragment _ (hspreads _ (.here rfl))) fun target htarget => ?_
      exact ihOwn hnew target htarget (hinside target (mem_fragments_of_fragment? htarget).1)

/-- What the selections of a connection select depends on nothing but where the names lead that are
spread. -/
theorem connectionFieldsFrom_congr (visited : List String) (selections : List Selection)
    (hspreads : ∀ name, SpreadIn name selections → admitted name) :
    other.connectionFieldsFrom visited selections =
      document.connectionFieldsFrom visited selections := by
  -- induction along the search; every fragment that it goes into is admitted
  fun_induction document.connectionFieldsFrom visited selections with
  | case1 visited => rw [connectionFieldsFrom]
  | case2 visited field nested rest own ih =>
    rw [connectionFieldsFrom, ih fun name hname => hspreads name (.later hname),
      pageInfoFields_congr hfragment hinside _ _ fun name hname => hspreads name (.inField hname)]
    rfl
  | case3 visited fragment nested rest ihNested ihRest =>
    rw [connectionFieldsFrom, ihNested fun name hname => hspreads name (.inInline hname),
      ihRest fun name hname => hspreads name (.later hname)]
  | case4 visited spread rest own ihOwn ihRest =>
    rw [connectionFieldsFrom, ihRest fun name hname => hspreads name (.later hname)]
    refine congrArg (PageFields.union · _) ?_
    dsimp only [own]
    split
    next => rfl
    next hnew =>
      refine match_fragment?_congr (hfragment _ (hspreads _ (.here rfl))) fun target htarget => ?_
      exact ihOwn hnew target htarget (hinside target (mem_fragments_of_fragment? htarget).1)

end Admitted

/-- The fields that a connection selects depend on nothing but where names lead. -/
theorem connectionFields_congr
    (hfragment : ∀ name, other.fragment? name = document.fragment? name) :
    other.connectionFields = document.connectionFields :=
  funext fun selections => connectionFieldsFrom_congr
    (fun name (_ : True) => hfragment name) (fun _ _ _ _ => True.intro) [] selections fun _ _ => True.intro

/-- The fields that a connection in a part of a document selects are those that it selects in the
whole. -/
theorem connectionFields_eq_of_part
    (hpart : ∀ name, document.Spreads name → other.fragment? name = document.fragment? name)
    {selections : List Selection} (hspreads : ∀ name, SpreadIn name selections →
      document.Spreads name) :
    other.connectionFields selections = document.connectionFields selections :=
  connectionFieldsFrom_congr hpart (fun _ hmem _ hspread => spreads_of_fragment hmem hspread) []
    selections hspreads

end Document

end RelayCheck
