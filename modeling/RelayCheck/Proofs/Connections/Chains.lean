import Mathlib
import RelayCheck.Proofs.Connections.Pagination

/-!
# Chains that lead to selected fields

A field counts as selected by a connection if a chain of inline fragments and spreads leads to it.
The search for the fields needed for pagination follows all chains, but passes no fragment twice on
the way to one field, be it before `pageInfo` or inside. A chain that passes a fragment twice can be
cut short between the two, so that nothing is lost as long as both stand on the same side of
`pageInfo`.

The module introduces:

- `Document.LeadsAlong` and `Document.Leads`, chains from selections to a selection;
- `Document.LeadsToPageInfo`, `Document.LeadsToPart` and `Document.SelectsPart`, chains to
  the fields needed for pagination;
- `Document.Finds`, chains that pass no visited fragment, as the search follows them;
- `Document.ReentersInPageInfo`, the fragments that are spread again inside of their own `pageInfo`.

The main results are `has_connectionFields_iff_exists_path`, which says of every document what is
found, and `connectionFields_iff_leads` for selections from which no chain comes back to a fragment
through `pageInfo`.
-/

namespace RelayCheck

/-! ## Chains -/

/-- The field has the given name, and keeps it in the result. -/
def Field.IsUnaliased (field : Field) (name : String) : Prop :=
  field.name.text = name ∧ field.aliasName = none

namespace Document

variable {document : Document} {target : Selection} {selections more nested : List Selection}
  {path visited : List String} {part : PagePart}

/-- A chain of inline fragments and of spreads of fragments that the document defines leads from
selections to a selection. The path lists the names that are spread on the way, in order. -/
inductive LeadsAlong (document : Document) (target : Selection) :
    (path : List String) → (selections : List Selection) → Prop
  | here {selections : List Selection} (hmem : target ∈ selections) :
      LeadsAlong document target [] selections
  | inline {fragment : InlineFragment} {nested selections : List Selection} {path : List String}
      (hmem : .inlineFragment fragment nested ∈ selections)
      (hnested : LeadsAlong document target path nested) :
      LeadsAlong document target path selections
  | spread {spread : Spread} {fragment : Fragment} {selections : List Selection}
      {path : List String} (hmem : .spread spread ∈ selections)
      (hfound : document.fragment? spread.name.text = some fragment)
      (hinside : LeadsAlong document target path fragment.selections) :
      LeadsAlong document target (spread.name.text :: path) selections

/-- A chain leads from selections to a selection. -/
def Leads (document : Document) (selections : List Selection) (target : Selection) : Prop :=
  ∃ path, document.LeadsAlong target path selections

/-- A chain leads from selections to `pageInfo` under its own name, of which something is
selected. -/
def LeadsToPageInfo (document : Document) (selections nested : List Selection) : Prop :=
  ∃ field : Field, field.IsUnaliased pageInfoName ∧ nested ≠ [] ∧
    document.Leads selections (.field field nested)

/-- A chain leads from the selections of `pageInfo` to a part under its own name. -/
def LeadsToPart (document : Document) (part : PagePart) (nested : List Selection) : Prop :=
  ∃ (field : Field) (below : List Selection), field.IsUnaliased part.name ∧
    document.Leads nested (.field field below)

/-- A chain leads from the selections of a connection to `pageInfo`, and another inside of that to
the part. -/
def SelectsPart (document : Document) (part : PagePart) (selections : List Selection) : Prop :=
  ∃ nested, document.LeadsToPageInfo selections nested ∧ document.LeadsToPart part nested

/-- Two chains lead to the part along the given paths, the first from the selections of a connection
to `pageInfo` and the second inside of that. -/
def SelectsAlong (document : Document) (part : PagePart) (path inside : List String)
    (selections : List Selection) : Prop :=
  ∃ (field : Field) (nested : List Selection) (target : Field) (below : List Selection),
    field.IsUnaliased pageInfoName ∧ nested ≠ [] ∧
      document.LeadsAlong (.field field nested) path selections ∧
        target.IsUnaliased part.name ∧ document.LeadsAlong (.field target below) inside nested

/-- The fragment of the name spreads itself through `pageInfo`: a chain leads from its selections to
`pageInfo`, and another inside of that to a spread of the fragment. -/
def ReentersInPageInfo (document : Document) (name : String) : Prop :=
  ∃ fragment nested spread, document.fragment? name = some fragment ∧
    document.LeadsToPageInfo fragment.selections nested ∧
      spread.name.text = name ∧ document.Leads nested (.spread spread)

namespace LeadsAlong

/-- To each name on its way a chain leads through a spread. -/
theorem exists_leads_spread (h : document.LeadsAlong target path selections) {name : String}
    (hname : name ∈ path) :
    ∃ spread : Spread, spread.name.text = name ∧ document.Leads selections (.spread spread) := by
  induction h with
  | here hmem => cases hname
  | inline hmem hnested ih =>
    obtain ⟨spread, hspread, path, hpath⟩ := ih hname
    exact ⟨spread, hspread, path, .inline hmem hpath⟩
  | @spread spread fragment selections path hmem hfound hinside ih =>
    rcases List.mem_cons.mp hname with rfl | hname
    · exact ⟨spread, rfl, [], .here hmem⟩
    · obtain ⟨other, hother, path, hpath⟩ := ih hname
      exact ⟨other, hother, _, .spread hmem hfound hpath⟩

/-- From each name on its way a chain goes on in the fragment of that name. -/
theorem exists_fragment {before after : List String} {name : String}
    (h : document.LeadsAlong target (before ++ name :: after) selections) :
    ∃ fragment, document.fragment? name = some fragment ∧
      document.LeadsAlong target after fragment.selections := by
  generalize hpath : before ++ name :: after = path at h
  induction h generalizing before with
  | here hmem => simp at hpath
  | inline hmem hnested ih => exact ih hpath
  | @spread spread fragment selections path hmem hfound hinside ih =>
    cases before with
    | nil =>
      obtain ⟨rfl, rfl⟩ := List.cons_eq_cons.mp hpath
      exact ⟨fragment, hfound, hinside⟩
    | cons first before => exact ih (List.cons_eq_cons.mp hpath).2

/-- A chain can be cut short so that it passes no name twice. -/
theorem exists_nodup (h : document.LeadsAlong target path selections) :
    ∃ short, short.Nodup ∧ short ⊆ path ∧ document.LeadsAlong target short selections := by
  induction h with
  | here hmem => exact ⟨[], List.nodup_nil, List.Subset.refl _, .here hmem⟩
  | inline hmem hnested ih =>
    obtain ⟨short, hnodup, hsubset, hshort⟩ := ih
    exact ⟨short, hnodup, hsubset, .inline hmem hshort⟩
  | @spread spread fragment selections path hmem hfound hinside ih =>
    obtain ⟨short, hnodup, hsubset, hshort⟩ := ih
    by_cases hname : spread.name.text ∈ short
    · -- the chain comes back to the fragment, and goes on from there in the same way
      obtain ⟨before, after, rfl⟩ := List.append_of_mem hname
      obtain ⟨other, hother, hafter⟩ := hshort.exists_fragment
      obtain rfl := Option.some_inj.mp (hfound.symm.trans hother)
      refine ⟨spread.name.text :: after, hnodup.of_append_right, ?_, .spread hmem hfound hafter⟩
      have hsuffix : after ⊆ before ++ spread.name.text :: after :=
        List.subset_append_of_subset_right _ (List.subset_cons_self _ _)
      exact List.cons_subset_cons _ (List.Subset.trans hsuffix hsubset)
    · exact ⟨spread.name.text :: short, List.nodup_cons.mpr ⟨hname, hnodup⟩,
        List.cons_subset_cons _ hsubset, .spread hmem hfound hshort⟩

end LeadsAlong

/-! ## Chains without visited fragments -/

/-- A chain that passes no visited name, and none twice, leads from selections to a field that is
accepted with the names that are visited there. -/
inductive Finds (document : Document) (accept : List String → Field → List Selection → Prop) :
    (visited : List String) → (selections : List Selection) → Prop
  | here {visited : List String} {field : Field} {nested selections : List Selection}
      (hmem : .field field nested ∈ selections) (haccept : accept visited field nested) :
      Finds document accept visited selections
  | inline {visited : List String} {fragment : InlineFragment} {nested selections : List Selection}
      (hmem : .inlineFragment fragment nested ∈ selections)
      (hnested : Finds document accept visited nested) : Finds document accept visited selections
  | spread {visited : List String} {spread : Spread} {fragment : Fragment}
      {selections : List Selection} (hmem : .spread spread ∈ selections)
      (hnew : spread.name.text ∉ visited)
      (hfound : document.fragment? spread.name.text = some fragment)
      (hinside : Finds document accept (spread.name.text :: visited) fragment.selections) :
      Finds document accept visited selections

section Finds

variable {accept : List String → Field → List Selection → Prop} {rest : List Selection}

/-- Nothing is found in nothing. -/
theorem not_finds_nil : ¬document.Finds accept visited [] := by
  rintro (⟨hmem, -⟩ | ⟨hmem, -⟩ | ⟨hmem, -⟩) <;> cases hmem

/-- More selections find no less. -/
theorem Finds.mono (hsubset : selections ⊆ more) (h : document.Finds accept visited selections) :
    document.Finds accept visited more := by
  cases h with
  | here hmem haccept => exact .here (hsubset hmem) haccept
  | inline hmem hnested => exact .inline (hsubset hmem) hnested
  | spread hmem hnew hfound hinside => exact .spread (hsubset hmem) hnew hfound hinside

/-- A field is found if it is accepted. -/
theorem finds_cons_field {field : Field} :
    document.Finds accept visited (.field field nested :: rest) ↔
      accept visited field nested ∨ document.Finds accept visited rest := by
  constructor
  · rintro (⟨_ | ⟨_, hmem⟩, haccept⟩ | ⟨_ | ⟨_, hmem⟩, hnested⟩ | ⟨_ | ⟨_, hmem⟩, hnew, hfound, h⟩)
    · exact .inl haccept
    · exact .inr (.here hmem haccept)
    · exact .inr (.inline hmem hnested)
    · exact .inr (.spread hmem hnew hfound h)
  · rintro (haccept | hrest)
    · exact .here List.mem_cons_self haccept
    · exact hrest.mono (List.subset_cons_self _ _)

/-- What is found in an inline fragment is found. -/
theorem finds_cons_inlineFragment {fragment : InlineFragment} :
    document.Finds accept visited (.inlineFragment fragment nested :: rest) ↔
      document.Finds accept visited nested ∨ document.Finds accept visited rest := by
  constructor
  · rintro (⟨_ | ⟨_, hmem⟩, haccept⟩ | ⟨_ | ⟨_, hmem⟩, hnested⟩ | ⟨_ | ⟨_, hmem⟩, hnew, hfound, h⟩)
    · exact .inr (.here hmem haccept)
    · exact .inl hnested
    · exact .inr (.inline hmem hnested)
    · exact .inr (.spread hmem hnew hfound h)
  · rintro (hnested | hrest)
    · exact .inline List.mem_cons_self hnested
    · exact hrest.mono (List.subset_cons_self _ _)

/-- What is found in a fragment that was not visited is found. -/
theorem finds_cons_spread {spread : Spread} :
    document.Finds accept visited (.spread spread :: rest) ↔
      (spread.name.text ∉ visited ∧
        ∃ fragment, document.fragment? spread.name.text = some fragment ∧
          document.Finds accept (spread.name.text :: visited) fragment.selections) ∨
      document.Finds accept visited rest := by
  constructor
  · rintro (⟨_ | ⟨_, hmem⟩, haccept⟩ | ⟨_ | ⟨_, hmem⟩, hnested⟩ | ⟨_ | ⟨_, hmem⟩, hnew, hfound, h⟩)
    · exact .inr (.here hmem haccept)
    · exact .inr (.inline hmem hnested)
    · exact .inl ⟨hnew, _, hfound, h⟩
    · exact .inr (.spread hmem hnew hfound h)
  · rintro (⟨hnew, fragment, hfound, hinside⟩ | hrest)
    · exact .spread List.mem_cons_self hnew hfound hinside
    · exact hrest.mono (List.subset_cons_self _ _)

/-- What is found is where a chain leads that passes no visited name, and none twice. -/
theorem finds_iff_exists_path :
    document.Finds accept visited selections ↔
      ∃ path field nested, path.Nodup ∧ path.Disjoint visited ∧
        document.LeadsAlong (.field field nested) path selections ∧
          accept (path.reverse ++ visited) field nested := by
  constructor
  · -- each name on the way counts as visited from there on, so the path is disjoint from `visited`
    intro h
    induction h with
    | here hmem haccept =>
      exact ⟨[], _, _, List.nodup_nil, List.disjoint_nil_left _, .here hmem, haccept⟩
    | inline hmem hnested ih =>
      obtain ⟨path, field, nested, hnodup, hdisjoint, hpath, haccept⟩ := ih
      exact ⟨path, field, nested, hnodup, hdisjoint, .inline hmem hpath, haccept⟩
    | @spread visited spread fragment selections hmem hnew hfound hinside ih =>
      obtain ⟨path, field, nested, hnodup, hdisjoint, hpath, haccept⟩ := ih
      rw [List.disjoint_cons_right] at hdisjoint
      refine ⟨spread.name.text :: path, field, nested, ?_, ?_, .spread hmem hfound hpath, ?_⟩
      · exact List.nodup_cons.mpr ⟨hdisjoint.1, hnodup⟩
      · exact List.disjoint_cons_left.mpr ⟨hnew, hdisjoint.2⟩
      · rwa [List.reverse_cons, List.append_assoc, List.singleton_append]
  · rintro ⟨path, field, nested, hnodup, hdisjoint, hpath, haccept⟩
    induction hpath generalizing visited with
    | here hmem => exact .here hmem haccept
    | inline hmem hnested ih => exact .inline hmem (ih hnodup hdisjoint haccept)
    | @spread spread fragment selections path hmem hfound hinside ih =>
      rw [List.nodup_cons] at hnodup
      rw [List.disjoint_cons_left] at hdisjoint
      rw [List.reverse_cons, List.append_assoc, List.singleton_append] at haccept
      refine .spread hmem hdisjoint.1 hfound (ih hnodup.2 ?_ haccept)
      exact List.disjoint_cons_right.mpr ⟨hnodup.1, hdisjoint.2⟩

end Finds

/-! ## What the search finds -/

/-- Of a part, `pageInfo` holds what is called like it. -/
theorem has_ofPart (name : String) : (PageFields.ofPart name).has part = (name == part.name) := by
  cases part <;> rfl

section Flags

variable (flag : PageFields → Bool) (hempty : flag .empty = false)
  (hunion : ∀ a b, flag (a.union b) = (flag a || flag b))

include hempty in
/-- A spread selects what its fragment does, if that was not visited. -/
theorem flag_spread_iff {name : String} {select : Fragment → PageFields} :
    flag (if _new : visited.contains name then .empty
      else match _found : document.fragment? name with
        | none => .empty
        | some fragment => select fragment) = true ↔
      name ∉ visited ∧
        ∃ fragment, document.fragment? name = some fragment ∧ flag (select fragment) = true := by
  by_cases hvisited : name ∈ visited
  · simp [hvisited, hempty]
  · split
    next hnew => simp [hvisited] at hnew
    next =>
      split
      next hunknown => simp [hunknown, hempty]
      next fragment hfound => simp [hvisited, hfound]

include hempty hunion

/-- A field needed for pagination is found in selections of a connection if it is found in the
selections of a `pageInfo` field that a chain leads to. -/
theorem flag_connectionFieldsFrom_iff_finds :
    flag (document.connectionFieldsFrom visited selections) = true ↔
      document.Finds (fun visited field nested => field.IsUnaliased pageInfoName ∧ nested ≠ [] ∧
        flag (document.pageInfoFields visited nested) = true) visited selections := by
  fun_induction document.connectionFieldsFrom visited selections with
  | case1 visited => simp [hempty, not_finds_nil]
  | case2 visited field nested rest own ih =>
    rw [finds_cons_field, hunion, Bool.or_eq_true]
    refine or_congr ?_ ih
    -- a field other than `pageInfo` sets no flag, and no chain ends at it
    dsimp only [own]
    split
    next hfield => simp_all [Field.IsUnaliased]
    next hfield =>
      simp only [hempty, Bool.false_eq_true, false_iff]
      rintro ⟨⟨hname, halias⟩, hne, -⟩
      simp_all
  | case3 visited fragment nested rest ihNested ihRest =>
    rw [finds_cons_inlineFragment, hunion, Bool.or_eq_true]
    exact or_congr ihNested ihRest
  | case4 visited spread rest own ihOwn ihRest =>
    rw [finds_cons_spread, hunion, Bool.or_eq_true]
    refine or_congr ((flag_spread_iff _ hempty).trans ?_) ihRest
    refine and_congr_right fun hnew => exists_congr fun fragment => and_congr_right fun hfound => ?_
    exact ihOwn (by simpa using hnew) fragment hfound

end Flags

/-- In the selections of `pageInfo`, a part is found where a chain leads to it. -/
theorem has_pageInfoFields_iff_finds :
    (document.pageInfoFields visited selections).has part = true ↔
      document.Finds (fun _ field _ => field.IsUnaliased part.name) visited selections := by
  have hempty : PageFields.empty.has part = false := by cases part <;> rfl
  have honly : PageFields.pageInfoOnly.has part = false := by cases part <;> rfl
  -- induction along the search, each case of which is one way to go on with a chain
  fun_induction document.pageInfoFields visited selections with
  | case1 visited => simp [honly, not_finds_nil]
  | case2 visited field nested rest own ih =>
    rw [finds_cons_field, PageFields.has_union, Bool.or_eq_true]
    refine or_congr ?_ ih
    dsimp only [own, Field.IsUnaliased]
    split
    next halias => simp_all [has_ofPart]
    next halias => simp_all
  | case3 visited fragment nested rest ihNested ihRest =>
    rw [finds_cons_inlineFragment, PageFields.has_union, Bool.or_eq_true]
    exact or_congr ihNested ihRest
  | case4 visited spread rest own ihOwn ihRest =>
    rw [finds_cons_spread, PageFields.has_union, Bool.or_eq_true]
    refine or_congr ((flag_spread_iff (PageFields.has · part) hempty).trans ?_) ihRest
    refine and_congr_right fun hnew => exists_congr fun fragment => and_congr_right fun hfound => ?_
    exact ihOwn (by simpa using hnew) fragment hfound

/-- Inside of `pageInfo`, that field is selected. -/
theorem pageInfo_pageInfoFields : (document.pageInfoFields visited selections).pageInfo = true := by
  fun_induction document.pageInfoFields visited selections with
  | case1 visited => rfl
  | case2 visited field nested rest own ih => simp [PageFields.union, ih]
  | case3 visited fragment nested rest ihNested ihRest => simp [PageFields.union, ihRest]
  | case4 visited spread rest own ihOwn ihRest => simp [PageFields.union, ihRest]

/-- A chain leads from the selections of a connection to `pageInfo` exactly if that is found. -/
theorem pageInfo_connectionFields_iff_leads :
    (document.connectionFields selections).pageInfo = true ↔
      ∃ nested, document.LeadsToPageInfo selections nested := by
  rw [connectionFields,
    flag_connectionFieldsFrom_iff_finds PageFields.pageInfo rfl fun _ _ => rfl,
    finds_iff_exists_path]
  constructor
  · rintro ⟨path, field, nested, -, -, hpath, hname, hne, -⟩
    exact ⟨nested, field, hname, hne, path, hpath⟩
  · rintro ⟨nested, field, hname, hne, path, hpath⟩
    obtain ⟨short, hnodup, -, hshort⟩ := hpath.exists_nodup
    exact ⟨short, field, nested, hnodup, List.disjoint_nil_right _, hshort, hname, hne,
      pageInfo_pageInfoFields⟩

/-- A part is found exactly if two chains lead to it, the second inside of `pageInfo`, that together
pass no fragment twice. -/
theorem has_connectionFields_iff_exists_path :
    (document.connectionFields selections).has part = true ↔
      ∃ path inside, (path ++ inside).Nodup ∧
        document.SelectsAlong part path inside selections := by
  have hempty : PageFields.empty.has part = false := by cases part <;> rfl
  rw [connectionFields, flag_connectionFieldsFrom_iff_finds (PageFields.has · part) hempty
    fun _ _ => PageFields.has_union _ _ _, finds_iff_exists_path]
  constructor
  · rintro ⟨path, field, nested, hnodup, -, hpath, hfield, hne, hpart⟩
    rw [has_pageInfoFields_iff_finds, finds_iff_exists_path] at hpart
    obtain ⟨inside, target, below, hnodupInside, hdisjoint, hinside, htarget⟩ := hpart
    rw [List.append_nil] at hdisjoint
    -- what the first chain passes is visited on the second
    have hboth : path.Disjoint inside := fun name hname hother =>
      hdisjoint hother (List.mem_reverse.mpr hname)
    exact ⟨path, inside, List.nodup_append'.mpr ⟨hnodup, hnodupInside, hboth⟩, field, nested,
      target, below, hfield, hne, hpath, htarget, hinside⟩
  · rintro ⟨path, inside, hnodup, field, nested, target, below, hfield, hne, hpath, htarget,
      hinside⟩
    obtain ⟨hnodupPath, hnodupInside, hdisjoint⟩ := List.nodup_append'.mp hnodup
    refine ⟨path, field, nested, hnodupPath, List.disjoint_nil_right _, hpath, hfield, hne, ?_⟩
    rw [has_pageInfoFields_iff_finds, finds_iff_exists_path, List.append_nil]
    refine ⟨inside, target, below, hnodupInside, fun name hother hvisited => ?_, hinside, htarget⟩
    exact hdisjoint (List.mem_reverse.mp hvisited) hother

/-- Two chains that lead to a part can be cut short so that together they pass no fragment twice,
unless a fragment that they pass spreads itself through `pageInfo`. -/
theorem SelectsPart.exists_nodup
    (hreenters : ∀ spread : Spread, document.Leads selections (.spread spread) →
      ¬document.ReentersInPageInfo spread.name.text)
    (h : document.SelectsPart part selections) :
    ∃ path inside, (path ++ inside).Nodup ∧ document.SelectsAlong part path inside selections := by
  obtain ⟨nested, ⟨field, hfield, hne, path, hpath⟩, target, below, htarget, inside, hinside⟩ := h
  obtain ⟨path, hnodupPath, -, hpath⟩ := hpath.exists_nodup
  obtain ⟨inside, hnodupInside, -, hinside⟩ := hinside.exists_nodup
  suffices hboth : path.Disjoint inside from
    ⟨path, inside, List.nodup_append'.mpr ⟨hnodupPath, hnodupInside, hboth⟩, field, nested, target,
      below, hfield, hne, hpath, htarget, hinside⟩
  intro name hname hother
  -- a fragment on both chains leads to `pageInfo`, and inside of that to itself
  obtain ⟨spread, rfl, hspread⟩ := hpath.exists_leads_spread hname
  obtain ⟨again, hagain, hleads⟩ := hinside.exists_leads_spread hother
  obtain ⟨before, after, rfl⟩ := List.append_of_mem hname
  obtain ⟨fragment, hfound, hafter⟩ := hpath.exists_fragment
  exact hreenters spread hspread
    ⟨fragment, nested, again, hfound, ⟨field, hfield, hne, after, hafter⟩, hagain, hleads⟩

/-- Suppose that no fragment to which a chain leads from the selections of a connection spreads
itself through `pageInfo`; other cycles are allowed. Then `pageInfo` is found exactly if a chain
leads to it, and each part exactly if such a chain, continued by one inside of `pageInfo`, leads to
the part. -/
theorem connectionFields_iff_leads
    (hreenters : ∀ spread : Spread, document.Leads selections (.spread spread) →
      ¬document.ReentersInPageInfo spread.name.text) :
    ((document.connectionFields selections).pageInfo = true ↔
        ∃ nested, document.LeadsToPageInfo selections nested) ∧
      ∀ part, (document.connectionFields selections).has part = true ↔
        document.SelectsPart part selections := by
  refine ⟨pageInfo_connectionFields_iff_leads, fun part => ?_⟩
  rw [has_connectionFields_iff_exists_path]
  constructor
  · rintro ⟨path, inside, -, field, nested, target, below, hfield, hne, hpath, htarget, hinside⟩
    exact ⟨nested, ⟨field, hfield, hne, path, hpath⟩, target, below, htarget, inside, hinside⟩
  · exact SelectsPart.exists_nodup hreenters

/-! ## Fragments that spread themselves -/

/-- Chains stay within a family of selections that are closed under inline fragments and spreads. -/
theorem Leads.exists_mem {family : List Selection → Prop}
    (hinline : ∀ selections fragment nested, family selections →
      .inlineFragment fragment nested ∈ selections → family nested)
    (hspread : ∀ selections spread fragment, family selections → .spread spread ∈ selections →
      document.fragment? spread.name.text = some fragment → family fragment.selections)
    (h : document.Leads selections target) (hstart : family selections) :
    ∃ last, family last ∧ target ∈ last := by
  obtain ⟨path, hpath⟩ := h
  induction hpath with
  | here hmem => exact ⟨_, hstart, hmem⟩
  | inline hmem hnested ih => exact ih (hinline _ _ _ hstart hmem)
  | spread hmem hfound hinside ih => exact ih (hspread _ _ _ hstart hmem hfound)

end Document

/-- The spread of the fragment of the given name. -/
def pageSpread (name : String) : Selection :=
  .spread ⟨⟨name, ⟨1, 1⟩⟩, [], ⟨1, 1⟩⟩

/-- The field of the given name. -/
def pageField (name : String) (selections : List Selection) : Selection :=
  .field ⟨none, ⟨name, ⟨1, 1⟩⟩, [], [], ⟨1, 1⟩, ⟨1, 1⟩⟩ selections

/-- The given selections in an inline fragment. -/
def pageInline (selections : List Selection) : Selection :=
  .inlineFragment ⟨none, [], ⟨1, 1⟩⟩ selections

/-- The fragment of the given name and selections. -/
def pageFragment (name type : String) (selections : List Selection) : Fragment :=
  ⟨⟨name, ⟨1, 10⟩⟩, ⟨type, ⟨1, 15⟩⟩, [], selections, ⟨1, 1⟩⟩

/-- The fragments `fragment P on ItemConnection { ...P pageInfo { ...Q } }` and
`fragment Q on PageInfo { ...Q hasNextPage }`. -/
def cyclicFragments : Document :=
  let pageInfo := pageField "pageInfo" [pageSpread "Q"]
  let hasNextPage := pageField "hasNextPage" []
  ⟨[.fragment (pageFragment "P" "ItemConnection" [pageSpread "P", pageInfo]),
    .fragment (pageFragment "Q" "PageInfo" [pageSpread "Q", hasNextPage])]⟩

/-- The spread of a name, alone or with what else its fragment selects. -/
def IsCyclic (name : String) (other : Selection) (selections : List Selection) : Prop :=
  selections = [pageSpread name] ∨ selections = [pageSpread name, other]

/-- From the spread of a fragment that spreads itself and selects a field, chains lead to these. -/
theorem IsCyclic.eq_or_eq {document : Document} {name field : String} {below : List Selection}
    (hfragment : ∀ fragment, document.fragment? name = some fragment →
      fragment.selections = [pageSpread name, pageField field below])
    {selections : List Selection} (hstart : IsCyclic name (pageField field below) selections)
    {target : Selection} (h : document.Leads selections target) :
    target = pageSpread name ∨ target = pageField field below := by
  have hmem {selections : List Selection} (hselections : IsCyclic name (pageField field below)
      selections) {selection : Selection} (hselection : selection ∈ selections) :
      selection = pageSpread name ∨ selection = pageField field below := by
    rcases hselections with rfl | rfl
    · exact .inl (List.mem_singleton.mp hselection)
    · simpa using hselection
  -- chains never leave the two kinds of selections
  have hstay : ∃ last, IsCyclic name (pageField field below) last ∧ target ∈ last := by
    refine h.exists_mem ?_ ?_ hstart
    · intro selections fragment nested hselections hinline
      rcases hmem hselections hinline with heq | heq <;> cases heq
    · intro selections spread fragment hselections hspread hfound
      rcases hmem hselections hspread with heq | heq
      · cases heq
        exact .inr (hfragment fragment hfound)
      · cases heq
  obtain ⟨last, hlast, htarget⟩ := hstay
  exact hmem hlast htarget

/-- Both fragments spread themselves, but not through `pageInfo`, so that all is found. -/
theorem connectionFields_iff_leads_cyclic :
    let selections := [pageSpread "P"]
    (∀ spread : Spread, cyclicFragments.Leads selections (.spread spread) →
      ¬cyclicFragments.ReentersInPageInfo spread.name.text) ∧
      (∃ nested, cyclicFragments.LeadsToPageInfo selections nested) ∧
        ∀ part, cyclicFragments.SelectsPart part selections ↔ part = .hasNextPage := by
  intro selections
  have hfirst : ∀ fragment, cyclicFragments.fragment? "P" = some fragment →
      fragment.selections = [pageSpread "P", pageField "pageInfo" [pageSpread "Q"]] := by
    rintro _ ⟨⟩
    rfl
  have hsecond : ∀ fragment, cyclicFragments.fragment? "Q" = some fragment →
      fragment.selections = [pageSpread "Q", pageField "hasNextPage" []] := by
    rintro _ ⟨⟩
    rfl
  have hreenters : ∀ spread : Spread, cyclicFragments.Leads selections (.spread spread) →
      ¬cyclicFragments.ReentersInPageInfo spread.name.text := by
    rintro spread hspread ⟨fragment, nested, again, hfound, ⟨field, -, -, hnested⟩, hagain, hleads⟩
    rcases IsCyclic.eq_or_eq hfirst (.inl rfl) hspread with heq | heq
    · cases heq
      -- inside of `pageInfo`, there is no way back from `Q` to `P`
      rcases IsCyclic.eq_or_eq hfirst (.inr (hfirst fragment hfound)) hnested with heq | heq
      · cases heq
      · cases heq
        rcases IsCyclic.eq_or_eq hsecond (.inl rfl) hleads with heq | heq
        · cases heq
          exact absurd hagain (by decide)
        · cases heq
    · cases heq
  have hfound :
      cyclicFragments.connectionFields selections = ⟨true, true, false, false, false⟩ := by
    cbv
  obtain ⟨hpageInfo, hparts⟩ := Document.connectionFields_iff_leads hreenters
  rw [hfound] at hpageInfo hparts
  refine ⟨hreenters, hpageInfo.mp rfl, fun part => ?_⟩
  rw [← hparts]
  cases part <;> decide

/-- A fragment that spreads itself through `pageInfo` is not followed there, so that its field
`hasNextPage` is not found. -/
example :
    let hasNextPage := pageField "hasNextPage" []
    let pageInfo := pageField "pageInfo" [pageSpread "P"]
    let fragments : Document := ⟨[.fragment (pageFragment "P" "PageInfo" [hasNextPage, pageInfo])]⟩
    fragments.SelectsPart .hasNextPage [pageSpread "P"] ∧
      (fragments.connectionFields [pageSpread "P"]).hasNextPage = false := by
  intro hasNextPage pageInfo fragments
  have hleads {target : Selection} (hmem : target ∈ [hasNextPage, pageInfo]) :
      fragments.Leads [pageSpread "P"] target :=
    ⟨_, .spread List.mem_cons_self rfl (.here hmem)⟩
  have hpageInfo : fragments.LeadsToPageInfo [pageSpread "P"] [pageSpread "P"] :=
    ⟨_, ⟨rfl, rfl⟩, nofun, hleads (List.mem_cons_of_mem _ List.mem_cons_self)⟩
  have hpart : fragments.LeadsToPart .hasNextPage [pageSpread "P"] :=
    ⟨_, _, ⟨rfl, rfl⟩, hleads List.mem_cons_self⟩
  exact ⟨⟨_, hpageInfo, hpart⟩, by cbv⟩

end RelayCheck
