import RelayCheck.Proofs.Connections.Chains
import RelayCheck.Proofs.Fragments.Correspondence

/-!
# Rearranged and extended selections

Which of the fields needed for pagination a connection selects does not depend on how its selections
are arranged: on their order, on repetitions, and on inline fragments that group them. Further
selections and further fragments never take a field away. All this holds in documents with cycles,
too, since a chain to a field is still there after such a change, along the same fragments.

The module introduces:

- `Rearranged` and `Extended`, changes of selections at any depth, with
  `Document.RearrangedTo` and `Document.ExtendedTo` for all fragments of a document;
- `Shown` and `Within`, what the selections after a change contain of those before, inline fragments
  aside;
- `PageFields.Le`, the order of selected fields.

The main result is `connectionFields_rearranged_extended`.
-/

namespace RelayCheck

/-! ## Changes of selections -/

/-- Selections with the same content in another arrangement: at any depth, selections may be put in
another order, repeated, and grouped in inline fragments, or the other way round. A group is never
empty, as no inline fragment is. -/
inductive Rearranged : List Selection → List Selection → Prop
  | refl (selections : List Selection) : Rearranged selections selections
  | symm {selections others : List Selection} (h : Rearranged selections others) :
      Rearranged others selections
  | trans {selections middle others : List Selection} (hfirst : Rearranged selections middle)
      (hsecond : Rearranged middle others) : Rearranged selections others
  | perm {selections others : List Selection} (h : selections.Perm others) :
      Rearranged selections others
  | repeated (selection : Selection) (rest : List Selection) :
      Rearranged (selection :: rest) (selection :: selection :: rest)
  | wrapped (fragment : InlineFragment) {group : List Selection} (hgroup : group ≠ [])
      (rest : List Selection) : Rearranged (group ++ rest) (.inlineFragment fragment group :: rest)
  | inField (field : Field) {nested others : List Selection} (h : Rearranged nested others)
      (rest : List Selection) :
      Rearranged (.field field nested :: rest) (.field field others :: rest)
  | inInline (fragment : InlineFragment) {nested others : List Selection}
      (h : Rearranged nested others) (rest : List Selection) :
      Rearranged (.inlineFragment fragment nested :: rest) (.inlineFragment fragment others :: rest)

/-- Selections to which others are added, anywhere and at any depth. -/
inductive Extended : List Selection → List Selection → Prop
  | nil : Extended [] []
  | added (selection : Selection) {selections more : List Selection}
      (h : Extended selections more) : Extended selections (selection :: more)
  | kept (selection : Selection) {selections more : List Selection}
      (h : Extended selections more) : Extended (selection :: selections) (selection :: more)
  | inField (field : Field) {nested others selections more : List Selection}
      (hnested : Extended nested others) (h : Extended selections more) :
      Extended (.field field nested :: selections) (.field field others :: more)
  | inInline (fragment : InlineFragment) {nested others selections more : List Selection}
      (hnested : Extended nested others) (h : Extended selections more) :
      Extended (.inlineFragment fragment nested :: selections)
        (.inlineFragment fragment others :: more)

namespace Document

/-- The same names lead to fragments in both documents, with the same content in another
arrangement. -/
def RearrangedTo (document other : Document) : Prop :=
  ∀ name, Option.Rel (fun fragment changed => Rearranged fragment.selections changed.selections)
    (document.fragment? name) (other.fragment? name)

/-- Every name that leads to a fragment still does, and nothing was taken from that; other names may
lead to new fragments. -/
def ExtendedTo (document other : Document) : Prop :=
  ∀ name fragment, document.fragment? name = some fragment →
    ∃ changed, other.fragment? name = some changed ∧
      Extended fragment.selections changed.selections

end Document

/-! ## Selections within others -/

/-- A selection is among selections, or in an inline fragment among them. -/
inductive Shown (target : Selection) : List Selection → Prop
  | here {selections : List Selection} (hmem : target ∈ selections) : Shown target selections
  | inline {fragment : InlineFragment} {nested selections : List Selection}
      (hmem : .inlineFragment fragment nested ∈ selections) (hnested : Shown target nested) :
      Shown target selections

/-- All that the first selections contain is in the second ones, inline fragments aside, and what is
selected of a field there is selected of it here. -/
inductive Within : List Selection → List Selection → Prop
  | nil {more : List Selection} : Within [] more
  | field (field : Field) {nested others rest more : List Selection}
      (hshown : Shown (.field field others) more) (hnested : Within nested others)
      (hne : nested ≠ [] → others ≠ []) (hrest : Within rest more) :
      Within (.field field nested :: rest) more
  | spread (spread : Spread) {rest more : List Selection} (hshown : Shown (.spread spread) more)
      (hrest : Within rest more) : Within (.spread spread :: rest) more
  | inlineFragment (fragment : InlineFragment) {nested rest more : List Selection}
      (hnested : Within nested more) (hrest : Within rest more) :
      Within (.inlineFragment fragment nested :: rest) more

section Within

variable {target : Selection} {selections more others nested group rest : List Selection}

/-- More selections show no less. -/
theorem Shown.mono (hsubset : selections ⊆ more) (h : Shown target selections) :
    Shown target more := by
  cases h with
  | here hmem => exact .here (hsubset hmem)
  | inline hmem hnested => exact .inline (hsubset hmem) hnested

namespace Within

/-- Selections are within all that show no less than what they are within. -/
theorem mono (hmore : ∀ target, Shown target more → Shown target others)
    (h : Within selections more) : Within selections others := by
  induction h with
  | nil => exact .nil
  | field field hshown hnested hne hrest ihNested ihRest =>
    exact .field field (hmore _ hshown) hnested hne (ihRest hmore)
  | spread spread hshown hrest ih => exact .spread spread (hmore _ hshown) (ih hmore)
  | inlineFragment fragment hnested hrest ihNested ihRest =>
    exact .inlineFragment fragment (ihNested hmore) (ihRest hmore)

/-- Selections are within those that have them as members. -/
theorem of_subset : ∀ {selections more : List Selection}, selections ⊆ more →
    Within selections more
  | [], more, hsubset => .nil
  | .field own nested :: rest, more, hsubset =>
    .field own (.here (hsubset List.mem_cons_self)) (of_subset (List.Subset.refl _)) id
      (of_subset (List.subset_of_cons_subset hsubset))
  | .spread own :: rest, more, hsubset =>
    .spread own (.here (hsubset List.mem_cons_self))
      (of_subset (List.subset_of_cons_subset hsubset))
  | .inlineFragment own nested :: rest, more, hsubset => by
    refine .inlineFragment own ?_ (of_subset (List.subset_of_cons_subset hsubset))
    -- the group is within itself, and what it shows is shown by those that have it as a member
    exact (of_subset (List.Subset.refl _)).mono fun target hshown =>
      .inline (hsubset List.mem_cons_self) hshown

/-- Two lists of selections are within others if each of them is. -/
theorem append (hgroup : Within group more) (hrest : Within rest more) :
    Within (group ++ rest) more := by
  induction hgroup with
  | nil => exact hrest
  | field field hshown hnested hne _ _ ih => exact .field field hshown hnested hne (ih hrest)
  | spread spread hshown _ ih => exact .spread spread hshown (ih hrest)
  | inlineFragment fragment hnested _ _ ih => exact .inlineFragment fragment hnested (ih hrest)

/-- A field among selections is shown by those that they are within. -/
theorem exists_field_of_mem {field : Field} (h : Within selections more)
    (hmem : .field field nested ∈ selections) :
    ∃ others, Shown (.field field others) more ∧ Within nested others ∧
      (nested ≠ [] → others ≠ []) := by
  induction h with
  | nil => cases hmem
  | field own hshown hnested hne hrest ihNested ihRest =>
    rcases List.mem_cons.mp hmem with heq | hmem
    · cases heq
      exact ⟨_, hshown, hnested, hne⟩
    · exact ihRest hmem
  | spread own hshown hrest ih => exact ih ((List.mem_cons.mp hmem).resolve_left nofun)
  | inlineFragment own hnested hrest ihNested ihRest =>
    exact ihRest ((List.mem_cons.mp hmem).resolve_left nofun)

/-- A spread among selections is shown by those that they are within. -/
theorem shown_of_mem {spread : Spread} (h : Within selections more)
    (hmem : .spread spread ∈ selections) : Shown (.spread spread) more := by
  induction h with
  | nil => cases hmem
  | field own hshown hnested hne hrest ihNested ihRest =>
    exact ihRest ((List.mem_cons.mp hmem).resolve_left nofun)
  | spread own hshown hrest ih =>
    rcases List.mem_cons.mp hmem with heq | hmem
    · cases heq
      exact hshown
    · exact ih hmem
  | inlineFragment own hnested hrest ihNested ihRest =>
    exact ihRest ((List.mem_cons.mp hmem).resolve_left nofun)

/-- What is grouped among selections is within what they are within. -/
theorem of_mem {fragment : InlineFragment} (h : Within selections more)
    (hmem : .inlineFragment fragment nested ∈ selections) : Within nested more := by
  induction h with
  | nil => cases hmem
  | field own hshown hnested hne hrest ihNested ihRest =>
    exact ihRest ((List.mem_cons.mp hmem).resolve_left nofun)
  | spread own hshown hrest ih => exact ih ((List.mem_cons.mp hmem).resolve_left nofun)
  | inlineFragment own hnested hrest ihNested ihRest =>
    rcases List.mem_cons.mp hmem with heq | hmem
    · cases heq
      exact hnested
    · exact ihRest hmem

/-- A field that selections show is shown by those that they are within. -/
theorem exists_field {field : Field} (h : Within selections more)
    (hshown : Shown (.field field nested) selections) :
    ∃ others, Shown (.field field others) more ∧ Within nested others ∧
      (nested ≠ [] → others ≠ []) := by
  induction hshown with
  | here hmem => exact h.exists_field_of_mem hmem
  | inline hmem hnested ih => exact ih (h.of_mem hmem)

/-- A spread that selections show is shown by those that they are within. -/
theorem shown {spread : Spread} (h : Within selections more)
    (hshown : Shown (.spread spread) selections) : Shown (.spread spread) more := by
  induction hshown with
  | here hmem => exact h.shown_of_mem hmem
  | inline hmem hnested ih => exact ih (h.of_mem hmem)

/-- Selections within those that are within others are within the others. -/
theorem trans (h : Within selections more) (hmore : Within more others) :
    Within selections others := by
  induction h generalizing others with
  | nil => exact .nil
  | field field hshown hnested hne hrest ihNested ihRest =>
    obtain ⟨below, hbelow, hwithin, hneBelow⟩ := hmore.exists_field hshown
    exact .field field hbelow (ihNested hwithin) (fun h => hneBelow (hne h)) (ihRest hmore)
  | spread spread hshown hrest ih => exact .spread spread (hmore.shown hshown) (ih hmore)
  | inlineFragment fragment hnested hrest ihNested ihRest =>
    exact .inlineFragment fragment (ihNested hmore) (ihRest hmore)

end Within

/-- Selections in another arrangement are none only if the others are. -/
theorem Rearranged.ne_nil_iff (h : Rearranged selections more) : selections ≠ [] ↔ more ≠ [] := by
  induction h with
  | refl => rfl
  | symm _ ih => exact ih.symm
  | trans _ _ ihFirst ihSecond => exact ihFirst.trans ihSecond
  | perm h => exact not_congr ⟨fun heq => (heq ▸ h).nil_eq.symm, fun heq => (heq ▸ h).eq_nil⟩
  | repeated | inField | inInline => simp
  | wrapped fragment hgroup rest => simp [hgroup]

/-- Selections in another arrangement are within each other. -/
theorem Rearranged.within (h : Rearranged selections more) :
    Within selections more ∧ Within more selections := by
  induction h with
  | refl => exact ⟨.of_subset (List.Subset.refl _), .of_subset (List.Subset.refl _)⟩
  | symm _ ih => exact ih.symm
  | trans _ _ ihFirst ihSecond =>
    exact ⟨ihFirst.1.trans ihSecond.1, ihSecond.2.trans ihFirst.2⟩
  | perm h => exact ⟨.of_subset h.subset, .of_subset h.symm.subset⟩
  | repeated selection rest => exact ⟨.of_subset (by simp), .of_subset (by simp)⟩
  | wrapped fragment hgroup rest =>
    -- that the group is not empty matters for what is selected of a field, but not here
    refine ⟨.append ?_ (.of_subset (List.subset_cons_self _ _)), .inlineFragment fragment ?_ ?_⟩
    · exact (Within.of_subset (List.Subset.refl _)).mono fun target hshown =>
        .inline List.mem_cons_self hshown
    · exact .of_subset (List.subset_append_left _ _)
    · exact .of_subset (List.subset_append_right _ _)
  | inField field h rest ih =>
    have hrest (below : List Selection) : Within rest (.field field below :: rest) :=
      .of_subset (List.subset_cons_self _ _)
    exact ⟨.field field (.here List.mem_cons_self) ih.1 h.ne_nil_iff.mp (hrest _),
      .field field (.here List.mem_cons_self) ih.2 h.ne_nil_iff.mpr (hrest _)⟩
  | inInline fragment h rest ih =>
    have hrest (below : List Selection) : Within rest (.inlineFragment fragment below :: rest) :=
      .of_subset (List.subset_cons_self _ _)
    have hinline {below others : List Selection} (hbelow : Within others below) :
        Within others (.inlineFragment fragment below :: rest) :=
      hbelow.mono fun target hshown => .inline List.mem_cons_self hshown
    exact ⟨.inlineFragment fragment (hinline ih.1) (hrest _),
      .inlineFragment fragment (hinline ih.2) (hrest _)⟩

/-- Selections to which others are added are none only if they were before. -/
theorem Extended.ne_nil (h : Extended selections more) (hne : selections ≠ []) : more ≠ [] := by
  cases h with
  | nil => exact hne
  | added | kept | inField | inInline => simp

/-- Selections are within those with others added. -/
theorem Extended.within (h : Extended selections more) : Within selections more := by
  have hcons {selection : Selection} {selections more : List Selection}
      (h : Within selections more) : Within selections (selection :: more) :=
    h.mono fun target => Shown.mono (List.subset_cons_self _ _)
  induction h with
  | nil => exact .nil
  | added selection h ih => exact hcons ih
  | kept selection h ih =>
    exact .append (.of_subset (List.cons_subset_cons _ (List.nil_subset _))) (hcons ih)
  | inField field hnested h ihNested ih =>
    exact .field field (.here List.mem_cons_self) ihNested hnested.ne_nil (hcons ih)
  | inInline fragment hnested h ihNested ih =>
    exact .inlineFragment fragment (ihNested.mono fun target hshown =>
      .inline List.mem_cons_self hshown) (hcons ih)

end Within

/-! ## Chains after a change -/

/-- Whatever is selected in the first is selected in the second. -/
structure PageFields.Le (fields others : PageFields) : Prop where
  pageInfo : fields.pageInfo = true → others.pageInfo = true
  has : ∀ part, fields.has part = true → others.has part = true

/-- Fields of which each are selected in the others are the same. -/
theorem PageFields.Le.antisymm {fields others : PageFields} (h : fields.Le others)
    (hothers : others.Le fields) : fields = others := by
  have hpageInfo := Bool.eq_iff_iff.mpr ⟨h.pageInfo, hothers.pageInfo⟩
  have hparts (part : PagePart) : fields.has part = others.has part :=
    Bool.eq_iff_iff.mpr ⟨h.has part, hothers.has part⟩
  rw [PageFields.mk.injEq]
  exact ⟨hpageInfo, hparts .hasNextPage, hparts .hasPreviousPage, hparts .startCursor,
    hparts .endCursor⟩

namespace Document

variable {document other : Document} {target : Selection} {selections more nested : List Selection}
  {path : List String}

/-- Every name that leads to a fragment still does, to one that the fragment's selections are
within. -/
def IsWithin (document other : Document) : Prop :=
  ∀ name fragment, document.fragment? name = some fragment →
    ∃ changed, other.fragment? name = some changed ∧
      Within fragment.selections changed.selections

/-- Chains lead to what selections show. -/
theorem LeadsAlong.of_shown {shown : Selection} (hshown : Shown shown selections)
    (h : ∀ more, shown ∈ more → document.LeadsAlong target path more) :
    document.LeadsAlong target path selections := by
  induction hshown with
  | here hmem => exact h _ hmem
  | inline hmem hnested ih => exact .inline hmem ih

/-- A chain to a field is still there in selections and fragments that those before are within,
along the same names. -/
theorem LeadsAlong.exists_field (hdocument : document.IsWithin other) {field : Field}
    (h : document.LeadsAlong (.field field nested) path selections)
    (hmore : Within selections more) :
    ∃ others, other.LeadsAlong (.field field others) path more ∧ Within nested others ∧
      (nested ≠ [] → others ≠ []) := by
  induction h generalizing more with
  | here hmem =>
    obtain ⟨others, hshown, hothers, hne⟩ := hmore.exists_field_of_mem hmem
    exact ⟨others, .of_shown hshown fun _ => .here, hothers, hne⟩
  | inline hmem hnested ih => exact ih (hmore.of_mem hmem)
  | @spread spread fragment selections path hmem hfound hinside ih =>
    -- the spread may be moved into inline fragments, but leads on to the fragment of the same name
    obtain ⟨changed, hchanged, hwithin⟩ := hdocument _ _ hfound
    obtain ⟨others, hothers, hbelow⟩ := ih hwithin
    refine ⟨others, .of_shown (hmore.shown_of_mem hmem) fun _ hspread => ?_, hbelow⟩
    exact .spread hspread hchanged hothers

/-- Selections and fragments that those before are within select no less. -/
theorem IsWithin.connectionFields_le (hdocument : document.IsWithin other)
    (hmore : Within selections more) :
    (document.connectionFields selections).Le (other.connectionFields more) where
  pageInfo h := by
    rw [pageInfo_connectionFields_iff_leads] at h ⊢
    obtain ⟨nested, field, hfield, hne, path, hpath⟩ := h
    obtain ⟨others, hothers, -, hneOthers⟩ := hpath.exists_field hdocument hmore
    exact ⟨others, field, hfield, hneOthers hne, path, hothers⟩
  has part h := by
    rw [has_connectionFields_iff_exists_path] at h ⊢
    obtain ⟨path, inside, hnodup, field, nested, target, below, hfield, hne, hpath, htarget,
      hinside⟩ := h
    obtain ⟨others, hothers, hwithin, hneOthers⟩ := hpath.exists_field hdocument hmore
    obtain ⟨belowOthers, hinsideOthers, -, -⟩ := hinside.exists_field hdocument hwithin
    -- the chains pass the same names as before, hence still none twice
    exact ⟨path, inside, hnodup, field, others, target, belowOthers, hfield, hneOthers hne, hothers,
      htarget, hinsideOthers⟩

/-- The fragments of one document are those of the other in another arrangement, and the other way
round. -/
theorem RearrangedTo.symm (h : document.RearrangedTo other) : other.RearrangedTo document := by
  intro name
  rcases exists_of_rel_option (h name) with ⟨hbefore, hafter⟩ | ⟨_, _, hbefore, hafter, hchanged⟩
  · rw [hbefore, hafter]
    exact .none
  · rw [hbefore, hafter]
    exact .some hchanged.symm

/-- Fragments are within those in another arrangement. -/
theorem RearrangedTo.isWithin (h : document.RearrangedTo other) : document.IsWithin other := by
  intro name fragment hfound
  rcases exists_of_rel_option (h name) with ⟨hnone, -⟩ | ⟨_, changed, hsome, hchanged, hwithin⟩
  · cases hfound.symm.trans hnone
  · cases hfound.symm.trans hsome
    exact ⟨changed, hchanged, hwithin.within.1⟩

/-- Fragments are within those to which selections are added. -/
theorem ExtendedTo.isWithin (h : document.ExtendedTo other) : document.IsWithin other := by
  intro name fragment hfound
  obtain ⟨changed, hchanged, hextended⟩ := h name fragment hfound
  exact ⟨changed, hchanged, hextended.within⟩

/-- The fields that a connection selects stay the same if its selections and those of fragments are
arranged in another way. None of them is lost if selections or fragments are added. -/
theorem connectionFields_rearranged_extended :
    (document.RearrangedTo other → Rearranged selections more →
      other.connectionFields more = document.connectionFields selections) ∧
    (document.ExtendedTo other → Extended selections more →
      (document.connectionFields selections).Le (other.connectionFields more)) := by
  refine ⟨fun hdocument hmore => ?_, fun hdocument hmore => ?_⟩
  · have hless := hdocument.isWithin.connectionFields_le hmore.within.1
    have hgreater := hdocument.symm.isWithin.connectionFields_le hmore.within.2
    exact hgreater.antisymm hless
  · exact hdocument.isWithin.connectionFields_le hmore.within

end Document

/-- The document `fragment P on ItemConnection { … }` of the given selections. -/
def cyclicFragment (selections : List Selection) : Document :=
  ⟨[.fragment (pageFragment "P" "ItemConnection" selections)]⟩

/-- In a document of one fragment, only its name leads to that. -/
theorem fragment?_cyclicFragment (selections : List Selection) (name : String) :
    (cyclicFragment selections).fragment? name =
      if "P" = name then some (pageFragment "P" "ItemConnection" selections) else none := by
  have hname : (pageFragment "P" "ItemConnection" selections).name.text = "P" := rfl
  by_cases h : "P" = name
  · subst h
    rfl
  · simp [cyclicFragment, Document.fragment?, Document.fragments, Definition.fragment?, hname, h]

/-- A fragment that spreads itself and one that nobody defines is arranged in another way. Then the
other is defined, which gives it a cycle of its own and a field needed for pagination. -/
theorem connectionFields_rearranged_extended_cyclic :
    let before := [pageSpread "P", pageField "pageInfo" [pageSpread "Q"]]
    let rearranged := [pageField "pageInfo" [pageInline [pageSpread "Q"]], pageSpread "P"]
    let spread := [pageSpread "P"]
    let more := [pageField "edges" [], pageSpread "P"]
    ((cyclicFragment before).RearrangedTo (cyclicFragment rearranged) ∧
      Rearranged spread (spread ++ spread) ∧
      (cyclicFragment rearranged).connectionFields (spread ++ spread) =
        (cyclicFragment before).connectionFields spread) ∧
    ((cyclicFragment before).ExtendedTo cyclicFragments ∧ Extended spread more ∧
      ((cyclicFragment before).connectionFields spread).Le
        (cyclicFragments.connectionFields more)) ∧
    ((cyclicFragment before).connectionFields spread).hasNextPage = false ∧
      (cyclicFragments.connectionFields more).hasNextPage = true := by
  intro before rearranged spread more
  -- the two selections swap places, and what is selected in `pageInfo` is wrapped
  have hbody : Rearranged before rearranged := by
    refine .trans (.perm (.swap _ _ _)) (.inField _ ?_ _)
    exact .wrapped _ (List.cons_ne_nil (pageSpread "Q") []) []
  have hrearranged : (cyclicFragment before).RearrangedTo (cyclicFragment rearranged) := by
    intro name
    rw [fragment?_cyclicFragment, fragment?_cyclicFragment]
    by_cases hname : "P" = name
    · rw [if_pos hname, if_pos hname]
      exact .some hbody
    · rw [if_neg hname, if_neg hname]
      exact .none
  have hextended : (cyclicFragment before).ExtendedTo cyclicFragments := by
    intro name fragment hfound
    rw [fragment?_cyclicFragment] at hfound
    obtain ⟨rfl, hfragment⟩ := Option.ite_none_right_eq_some.mp hfound
    cases hfragment
    exact ⟨_, rfl, .kept _ (.kept _ .nil)⟩
  have hspread : Rearranged spread (spread ++ spread) := .repeated _ []
  have hmore : Extended spread more := .added _ (.kept _ .nil)
  refine ⟨⟨hrearranged, hspread, ?_⟩, ⟨hextended, hmore, ?_⟩, by cbv, by cbv⟩
  · exact Document.connectionFields_rearranged_extended.1 hrearranged hspread
  · exact Document.connectionFields_rearranged_extended.2 hextended hmore

end RelayCheck
