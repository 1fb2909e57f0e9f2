import Mathlib.Data.List.TakeWhile
import RelayCheck.Check
import RelayCheck.Proofs.Data.NameMap
import RelayCheck.Proofs.Fragments.Separation

/-!
# Depths in separate documents

The depth of a fragment is settled along its spreads. So in two documents that mention no fragments
of each other, put together, each fragment has the depth that it has in its own document, and what
is nested too deeply in one of them is so in both.

The module introduces:

- `Document.unmet`, the number of fragments whose depths are still to be settled, which bounds the
  rounds that this takes;
- `Document.shallow`, the definitions before the first one that is nested too deeply.

The main results are `Separate.isTooDeep_append` and `Separate.shallow_append`.
-/

namespace RelayCheck

/-! ## Depths of selections -/

section Depths

variable {depths other : Depths}

/-- The depth of selections depends on those of the fragments that they spread. -/
theorem innerDepth_congr :
    ∀ {selections : List Selection},
      (∀ name, SpreadIn name selections → other.get? name = depths.get? name) →
        innerDepth other selections = innerDepth depths selections
  | [], _ => by rw [innerDepth, innerDepth]
  | .field field nested :: rest, h => by
    have hnested := innerDepth_congr fun name hname => h name (.inField hname)
    have hrest := innerDepth_congr fun name hname => h name (.later hname)
    rw [innerDepth, innerDepth, Selection.depth, Selection.depth, hnested, hrest]
  | .inlineFragment fragment nested :: rest, h => by
    have hnested := innerDepth_congr fun name hname => h name (.inInline hname)
    have hrest := innerDepth_congr fun name hname => h name (.later hname)
    rw [innerDepth, innerDepth, Selection.depth, Selection.depth, hnested, hrest]
  | .spread spread :: rest, h => by
    have hrest := innerDepth_congr fun name hname => h name (.later hname)
    rw [innerDepth, innerDepth, Selection.depth, Selection.depth, hrest, Depths.of, Depths.of,
      h _ (.here rfl)]

/-- The depth of a selection set depends on those of the fragments that it spreads. -/
theorem setDepth_congr {selections : List Selection}
    (h : ∀ name, SpreadIn name selections → other.get? name = depths.get? name) :
    setDepth other selections = setDepth depths selections := by
  rw [setDepth, setDepth, innerDepth_congr h]

end Depths

/-- Lists of which the same is taken one by one. -/
theorem takeWhile_congr {α : Type} {p q : α → Bool} {items : List α}
    (h : ∀ item ∈ items, p item = q item) : items.takeWhile p = items.takeWhile q := by
  induction items with
  | nil => rfl
  | cons item rest ih =>
    rw [List.forall_mem_cons] at h
    rw [List.takeWhile_cons, List.takeWhile_cons, h.1, ih h.2]

namespace Document

/-! ## Rounds -/

section Rounds

variable (document : Document)

/-- The number of fragments that were not met. -/
def unmet (depths : Depths) : Nat :=
  (document.fragments.filter fun fragment => !depths.contains fragment.name.text).length

variable {document} {depths : Depths} {name : String}

/-- A fragment that was met stays met. -/
theorem contains_insert {other : String} (value : Nat) (h : depths.contains other = true) :
    (depths.insert name value).contains other = true := by
  rw [NameMap.contains, NameMap.get?_insert]
  split
  · rfl
  · exact h

/-- Settling the depth of a fragment, what was met stays met. -/
theorem contains_settle {other : String} (rounds : Nat) (h : depths.contains other = true) :
    (document.settle rounds depths name).contains other = true := by
  induction rounds generalizing depths name with
  | zero => exact h
  | succ rounds ih =>
    rw [settle]
    split
    · exact h
    · split
      · exact h
      · exact contains_insert _ (List.foldlRecOn
          (motive := fun met : Depths => met.contains other = true)
          _ _ (contains_insert _ h) fun _ hmet _ _ => ih hmet)

/-- Settling the depth of a fragment leaves no more to be met. -/
theorem unmet_settle_le (document : Document) (rounds : Nat) (depths : Depths) (name : String) :
    document.unmet (document.settle rounds depths name) ≤ document.unmet depths := by
  refine length_filter_le_of_imp (fun fragment hnew => ?_) _
  rw [Bool.not_eq_true'] at hnew ⊢
  by_contra hmet
  rw [Bool.not_eq_false] at hmet
  rw [contains_settle rounds hmet] at hnew
  cases hnew

/-- Meeting a fragment leaves fewer to be met. -/
theorem unmet_insert_lt {fragment : Fragment} (hfound : document.fragment? name = some fragment)
    (hnew : depths.contains name = false) (value : Nat) :
    document.unmet (depths.insert name value) < document.unmet depths := by
  obtain ⟨hmem, hname⟩ := mem_fragments_of_fragment? hfound
  refine length_filter_lt_of_imp (fun other hother => ?_) hmem ?_ ?_
  · rw [Bool.not_eq_true'] at hother ⊢
    by_contra hmet
    rw [Bool.not_eq_false] at hmet
    rw [contains_insert value hmet] at hother
    cases hother
  · rw [hname, hnew]
    rfl
  · rw [hname, NameMap.contains, NameMap.get?_insert_self]
    rfl

/-- More rounds than there are fragments to be met make no difference. -/
theorem settle_eq_of_unmet_lt {rounds more : Nat} (hrounds : document.unmet depths < rounds)
    (hmore : document.unmet depths < more) (name : String) :
    document.settle more depths name = document.settle rounds depths name := by
  induction rounds generalizing more depths name with
  | zero => omega
  | succ rounds ih =>
    obtain ⟨more, rfl⟩ : ∃ previous, more = previous + 1 := ⟨more - 1, by omega⟩
    rw [settle, settle]
    split
    next => rfl
    next hnew =>
      split
      next => rfl
      next fragment hfound =>
        have hless := unmet_insert_lt hfound (by simpa using hnew) 0
        -- the fragments inside are settled after this one is met, which takes a round less
        have hinside : (spreadNames fragment.selections).foldl (document.settle more)
              (depths.insert name 0) =
            (spreadNames fragment.selections).foldl (document.settle rounds)
              (depths.insert name 0) := by
          refine (List.foldl_rel (r := fun met other : Depths => met = other ∧
            document.unmet other < rounds ∧ document.unmet other < more)
              ⟨rfl, by omega, by omega⟩ ?_).1
          rintro inner - met _ ⟨rfl, hfew, hmany⟩
          have hkept := document.unmet_settle_le rounds met inner
          exact ⟨ih hfew hmany inner, by omega, by omega⟩
        rw [hinside]

end Rounds

/-! ## Depths in a part of a document -/

/-- The names of the fragments of a document are mentioned in it. -/
theorem mentions_of_mem_names {document : Document} {name : String}
    (h : name ∈ document.fragments.map fun fragment => fragment.name.text) :
    document.Mentions name := by
  obtain ⟨fragment, hmem, rfl⟩ := List.mem_map.mp h
  exact .inl ⟨fragment, hmem, rfl⟩

section Part

variable {part whole : Document}
  (hpart : ∀ name, part.Mentions name → whole.fragment? name = part.fragment? name)

include hpart

/-- Settling depths in a part leaves those alone of fragments that the part does not define. -/
theorem get?_settle_of_undefined {other : String} (hother : part.fragment? other = none)
    (rounds : Nat) (depths : Depths) {name : String} (hname : part.Mentions name) :
    (whole.settle rounds depths name).get? other = depths.get? other := by
  induction rounds generalizing depths name with
  | zero => rfl
  | succ rounds ih =>
    rw [settle]
    split
    next => rfl
    next hnew =>
      split
      next => rfl
      next fragment hfound =>
        rw [hpart name hname] at hfound
        have hne : other ≠ name := by
          rintro rfl
          rw [hother] at hfound
          cases hfound
        -- what the fragment spreads is mentioned in the part, too
        have hinside : ((spreadNames fragment.selections).foldl (whole.settle rounds)
            (depths.insert name 0)).get? other = depths.get? other := by
          refine List.foldlRecOn (motive := fun met : Depths => met.get? other = depths.get? other)
            _ _ (NameMap.get?_insert_of_ne _ _ hne) fun met hmet inner hinner => ?_
          have hspread := spreads_of_fragment (mem_fragments_of_fragment? hfound).1
            (mem_spreadNames_iff.mp hinner)
          rw [ih met (.inr hspread), hmet]
        rw [NameMap.get?_insert_of_ne _ _ hne, hinside]

/-- Depths that agree on what a part mentions do so after depths are settled in the part and in the
whole. -/
theorem get?_settle_of_part (rounds : Nat) {depths other : Depths}
    (hsame : ∀ name, part.Mentions name → other.get? name = depths.get? name) {name : String}
    (hname : part.Mentions name) :
    ∀ inner, part.Mentions inner →
      (whole.settle rounds other name).get? inner =
        (part.settle rounds depths name).get? inner := by
  induction rounds generalizing depths other name with
  | zero => exact hsame
  | succ rounds ih =>
    have hmet : other.contains name = depths.contains name := by
      rw [NameMap.contains, NameMap.contains, hsame name hname]
    rw [settle, settle, hmet, hpart name hname]
    split
    next => exact hsame
    next hnew =>
      split
      next => exact hsame
      next fragment hfound =>
        have hspreads {inner : String} (hinner : SpreadIn inner fragment.selections) :
            part.Mentions inner :=
          .inr (spreads_of_fragment (mem_fragments_of_fragment? hfound).1 hinner)
        -- what is settled inside of the fragment agrees, and so its own depth does
        have hinside : ∀ inner, part.Mentions inner →
            ((spreadNames fragment.selections).foldl (whole.settle rounds)
              (other.insert name 0)).get? inner =
            ((spreadNames fragment.selections).foldl (part.settle rounds)
              (depths.insert name 0)).get? inner := by
          refine List.foldl_rel (r := fun met other : Depths => ∀ inner, part.Mentions inner →
            met.get? inner = other.get? inner) (fun inner hinner => ?_)
              fun inner hinner met other hagree =>
                ih hagree (hspreads (mem_spreadNames_iff.mp hinner))
          rw [NameMap.get?_insert, NameMap.get?_insert, hsame inner hinner]
        intro inner hinner
        rw [NameMap.get?_insert, NameMap.get?_insert, hinside inner hinner,
          setDepth_congr fun name hspread => hinside name (hspreads hspread)]

/-- Settling the depths of all fragments of a part leaves those alone of fragments that it does not
define. -/
theorem get?_foldl_settle_of_undefined {other : String} (hother : part.fragment? other = none)
    (rounds : Nat) (depths : Depths) :
    ((part.fragments.map fun fragment => fragment.name.text).foldl (whole.settle rounds)
      depths).get? other = depths.get? other :=
  List.foldlRecOn (motive := fun met : Depths => met.get? other = depths.get? other) _ _ rfl
    fun met hmet _ hinner =>
      (get?_settle_of_undefined hpart hother rounds met (mentions_of_mem_names hinner)).trans hmet

/-- Depths that agree on what a part mentions do so after the depths of all its fragments are
settled in the part and in the whole. -/
theorem get?_foldl_settle_of_part (rounds : Nat) {depths other : Depths}
    (hsame : ∀ name, part.Mentions name → other.get? name = depths.get? name) :
    let names := part.fragments.map fun fragment => fragment.name.text
    ∀ name, part.Mentions name →
      (names.foldl (whole.settle rounds) other).get? name =
        (names.foldl (part.settle rounds) depths).get? name :=
  List.foldl_rel (r := fun met other : Depths => ∀ name, part.Mentions name →
    met.get? name = other.get? name) hsame fun _ hinner _ _ hagree =>
      get?_settle_of_part hpart rounds hagree (mentions_of_mem_names hinner)

end Part

/-- The depths of the fragments of a document, settled in any number of rounds that is enough. -/
theorem foldl_settle_eq_fragmentDepths (document : Document) {rounds : Nat}
    (hrounds : document.fragments.length < rounds) :
    (document.fragments.map fun fragment => fragment.name.text).foldl (document.settle rounds)
      .empty = document.fragmentDepths := by
  rw [fragmentDepths]
  refine List.foldl_rel (r := fun met other : Depths => met = other) rfl ?_
  rintro name - met _ rfl
  have hunmet : document.unmet met ≤ document.fragments.length := List.length_filter_le _ _
  refine settle_eq_of_unmet_lt ?_ (by omega) name
  rw [List.length_map]
  omega

/-! ## Depths in separate documents -/

variable {first second : Document}

/-- The depths in two documents put together are settled in the first, then in the second. -/
theorem fragmentDepths_append (first second : Document) :
    ∃ rounds, first.fragments.length < rounds ∧ second.fragments.length < rounds ∧
      (first ++ second).fragmentDepths =
        (second.fragments.map fun fragment => fragment.name.text).foldl
          ((first ++ second).settle rounds)
            ((first.fragments.map fun fragment => fragment.name.text).foldl
              ((first ++ second).settle rounds) .empty) := by
  refine ⟨(first ++ second).fragments.length + 1, ?_, ?_, ?_⟩
  · rw [fragments_append, List.length_append]
    omega
  · rw [fragments_append, List.length_append]
    omega
  · rw [← foldl_settle_eq_fragmentDepths _ (Nat.lt_succ_self _), fragments_append,
      List.map_append, List.foldl_append]

namespace Separate

variable (hseparate : first.Separate second)

include hseparate

/-- In both documents put together, what the first mentions has the depth that it has there. -/
theorem get?_fragmentDepths_left {name : String} (hname : first.Mentions name) :
    (first ++ second).fragmentDepths.get? name = first.fragmentDepths.get? name := by
  obtain ⟨rounds, hfirst, -, hdepths⟩ := fragmentDepths_append first second
  -- the depths that are settled later, in the second document, are none of the first
  rw [hdepths, get?_foldl_settle_of_undefined (fun _ => hseparate.fragment?_append_right)
      (hseparate.fragment?_right_eq_none hname), ← foldl_settle_eq_fragmentDepths first hfirst]
  exact get?_foldl_settle_of_part (fun _ => hseparate.fragment?_append_left) rounds
    (fun _ _ => rfl) name hname

/-- In both documents put together, what the second mentions has the depth that it has there. -/
theorem get?_fragmentDepths_right {name : String} (hname : second.Mentions name) :
    (first ++ second).fragmentDepths.get? name = second.fragmentDepths.get? name := by
  obtain ⟨rounds, -, hsecond, hdepths⟩ := fragmentDepths_append first second
  rw [hdepths, ← foldl_settle_eq_fragmentDepths second hsecond]
  refine get?_foldl_settle_of_part (fun _ => hseparate.fragment?_append_right) rounds ?_ name hname
  -- the depths that are settled earlier, in the first document, are none of the second
  exact fun other hother => get?_foldl_settle_of_undefined
    (fun _ => hseparate.fragment?_append_left) (hseparate.fragment?_left_eq_none hother) rounds _

end Separate

/-- The definitions before the first one that is nested too deeply. -/
def shallow (document : Document) : List Definition :=
  document.definitions.takeWhile fun definition => !definition.isTooDeep document.fragmentDepths

/-- The definitions before one that is nested too deeply are the first ones. -/
theorem isPrefix_shallow (document : Document) : document.shallow <+: document.definitions :=
  List.takeWhile_prefix _

/-- All definitions come before one that is nested too deeply exactly if there is none. -/
theorem shallow_eq_definitions_iff {document : Document} :
    document.shallow = document.definitions ↔ document.isTooDeep = false := by
  rw [shallow, List.takeWhile_eq_self_iff, isTooDeep, List.any_eq_false]
  simp

/-- Whether a definition of a document is nested too deeply depends on the depths of the fragments
that the document mentions. -/
theorem isTooDeep_congr {document : Document} {depths other : Depths}
    (hsame : ∀ name, document.Mentions name → other.get? name = depths.get? name)
    {definition : Definition} (hdefinition : definition ∈ document.definitions) :
    definition.isTooDeep other = definition.isTooDeep depths := by
  suffices hdepth : definition.depth other = definition.depth depths by
    rw [Definition.isTooDeep, Definition.isTooDeep, hdepth]
  cases definition with
  | operation operation =>
    exact setDepth_congr fun name hspread => hsame name (.inr ⟨_, hdefinition, hspread⟩)
  | fragment fragment =>
    rw [Definition.depth, Definition.depth, Depths.of, Depths.of,
      hsame _ (.inl ⟨fragment, mem_fragments_iff.mpr hdefinition, rfl⟩)]
  | schema | schemaExtension | type | typeExtension | directive => rfl

namespace Separate

variable (hseparate : first.Separate second) {definition : Definition}

include hseparate

/-- A definition of the first document is nested too deeply in both put together if it is so
there. -/
theorem isTooDeep_left (hdefinition : definition ∈ first.definitions) :
    definition.isTooDeep (first ++ second).fragmentDepths =
      definition.isTooDeep first.fragmentDepths :=
  isTooDeep_congr (fun _ => hseparate.get?_fragmentDepths_left) hdefinition

/-- A definition of the second document is nested too deeply in both put together if it is so
there. -/
theorem isTooDeep_right (hdefinition : definition ∈ second.definitions) :
    definition.isTooDeep (first ++ second).fragmentDepths =
      definition.isTooDeep second.fragmentDepths :=
  isTooDeep_congr (fun _ => hseparate.get?_fragmentDepths_right) hdefinition

/-- Two documents put together are nested too deeply if one of them is. -/
theorem isTooDeep_append :
    (first ++ second).isTooDeep = (first.isTooDeep || second.isTooDeep) := by
  rw [Bool.eq_iff_iff, Bool.or_eq_true, isTooDeep, isTooDeep, isTooDeep, definitions_append,
    List.any_append, Bool.or_eq_true]
  simp only [List.any_eq_true]
  refine or_congr (exists_congr fun definition => and_congr_right fun hmem => ?_)
    (exists_congr fun definition => and_congr_right fun hmem => ?_)
  · rw [hseparate.isTooDeep_left hmem]
  · rw [hseparate.isTooDeep_right hmem]

/-- Definitions of the second document come before one that is nested too deeply unless there is one
in the first. -/
theorem shallow_append :
    (first ++ second).shallow =
      if first.isTooDeep then first.shallow else first.definitions ++ second.shallow := by
  -- whether a definition is nested too deeply is settled within its own document
  have hleft : first.definitions.takeWhile
      (fun definition => !definition.isTooDeep (first ++ second).fragmentDepths) = first.shallow :=
    takeWhile_congr fun definition hmem => by rw [hseparate.isTooDeep_left hmem]
  have hright : second.definitions.takeWhile
      (fun definition => !definition.isTooDeep (first ++ second).fragmentDepths) =
        second.shallow :=
    takeWhile_congr fun definition hmem => by rw [hseparate.isTooDeep_right hmem]
  rw [shallow, definitions_append, List.takeWhile_append, hleft, hright]
  cases hdeep : first.isTooDeep with
  | true =>
    have hnot : first.shallow.length ≠ first.definitions.length := by
      intro hlength
      have hall := first.isPrefix_shallow.eq_of_length hlength
      rw [shallow_eq_definitions_iff.mp hall] at hdeep
      cases hdeep
    rw [if_neg hnot, if_pos rfl]
  | false =>
    rw [shallow_eq_definitions_iff.mpr hdeep, if_pos rfl, if_neg Bool.false_ne_true]

end Separate

end Document

/-! ## Selections that are nested as deeply as wanted -/

/-- The selections, nested in as many fragments written in place. -/
def nestedSelections (selections : List Selection) : Nat → List Selection
  | 0 => selections
  | depth + 1 => [.inlineFragment ⟨none, [], ⟨1, 1⟩⟩ (nestedSelections selections depth)]

/-- Two fragments whose selections are nested, not too deeply, and the first of which spreads the
second. -/
def nestedFragments : Document :=
  let fragment (name : String) (selections : List Selection) : Definition :=
    .fragment ⟨⟨name, ⟨1, 10⟩⟩, ⟨"Query", ⟨1, 15⟩⟩, [], nestedSelections selections 120, ⟨1, 1⟩⟩
  ⟨[fragment "F" [.spread ⟨⟨"G", ⟨1, 28⟩⟩, [], ⟨1, 25⟩⟩],
    fragment "G" [.field ⟨none, ⟨"picture", ⟨1, 25⟩⟩, [], [], ⟨1, 25⟩, ⟨1, 25⟩⟩ []]]⟩

end RelayCheck
