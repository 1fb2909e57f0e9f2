import RelayCheck.Data.NameMap
import Mathlib.Data.List.Forall2
import Mathlib.Data.List.Induction
import Mathlib.Data.List.Nodup
import Mathlib.Data.Set.Function

/-!
# Looking up names in maps

What a map of names contains after one insertion settles what it contains after many: of several
contents of one name, the last one.

Names may be exchanged for others, and contents for related ones, as long as different names stay
different.

The module introduces `EntryRel`, entries that come from each other in this way.

The main results are `get?_ofList`, the look-up in a map of given pairs, `mem_names_iff`, which
ties the names of a map to what is found in it, `names_insert` and `names_ofList`, the order of the
names, and `rel_ofList` and `rel_get?` for maps of related entries.
-/

namespace RelayCheck

namespace NameMap

variable {α : Type}

/-- A map without entries contains nothing. -/
@[simp]
theorem get?_empty (name : String) : (empty : NameMap α).get? name = none := rfl

/-- What a map contains after an insertion. -/
theorem get?_insert (map : NameMap α) (name other : String) (content : α) :
    (map.insert name content).get? other =
      if other = name then some content else map.get? other := by
  split
  next h => rw [h, get?_insert_self]
  next h => exact get?_insert_of_ne map content h

/-- The names of a map are those that have a content. -/
theorem mem_names_iff {map : NameMap α} {name : String} :
    name ∈ map.names ↔ map.contains name = true := by
  obtain ⟨entries⟩ := map
  rw [names, contains, get?]
  induction entries with
  | nil => simp [find]
  | cons entry rest ih =>
    obtain ⟨other, content⟩ := entry
    by_cases h : other = name
    · simp [find, h]
    · simp [find, h, ih, Ne.symm h]

/-- A new name is listed last, and inserting under a listed one keeps the list. -/
theorem names_insert (map : NameMap α) (name : String) (content : α) :
    (map.insert name content).names =
      if map.contains name then map.names else map.names ++ [name] := by
  obtain ⟨entries⟩ := map
  rw [insert, names, names, contains, get?]
  induction entries with
  | nil => rfl
  | cons entry rest ih =>
    obtain ⟨other, old⟩ := entry
    by_cases h : other = name
    · simp [put, find, h]
    · rw [put, find, if_neg h, if_neg h, List.map_cons, ih, List.map_cons]
      split <;> rfl

/-- What is found in a map is one of its entries. -/
theorem mem_entries_of_get? {map : NameMap α} {name : String} {content : α}
    (h : map.get? name = some content) : (name, content) ∈ map.entries := by
  obtain ⟨entries⟩ := map
  rw [get?] at h
  induction entries with
  | nil => cases h
  | cons entry rest ih =>
    obtain ⟨other, first⟩ := entry
    rw [find] at h
    split at h
    next hname =>
      rw [hname, Option.some_inj.mp h]
      exact List.mem_cons_self
    next => exact List.mem_cons_of_mem _ (ih h)

/-- The map of pairs that end with one more is the map of the others with that inserted. -/
theorem ofList_append_singleton (pairs : List (String × α)) (pair : String × α) :
    ofList (pairs ++ [pair]) = (ofList pairs).insert pair.1 pair.2 := by
  rw [ofList, List.foldl_append]
  rfl

/-- The map of given pairs lists no name twice. -/
theorem nodup_names_ofList (pairs : List (String × α)) : (ofList pairs).names.Nodup := by
  induction pairs using List.reverseRecOn with
  | nil => exact List.nodup_nil
  | append_singleton pairs pair ih =>
    rw [ofList_append_singleton, names_insert]
    split
    next => exact ih
    next hnew =>
      rw [← mem_names_iff] at hnew
      rw [← List.concat_eq_append]
      exact ih.concat hnew

/-- In the map of given pairs, a name has the content of its last pair. -/
theorem get?_ofList (pairs : List (String × α)) (name : String) :
    (ofList pairs).get? name =
      (pairs.reverse.find? fun pair => pair.1 == name).map Prod.snd := by
  induction pairs using List.reverseRecOn with
  | nil => rfl
  | append_singleton pairs pair ih =>
    rw [ofList_append_singleton, get?_insert, ih, List.reverse_append, List.reverse_singleton,
      List.singleton_append, List.find?_cons]
    by_cases h : pair.1 = name
    · simp [h]
    · rw [if_neg (Ne.symm h), beq_false_of_ne h]

/-- What is found in the map of given pairs is the content of one of them. -/
theorem mem_of_get?_ofList {pairs : List (String × α)} {name : String} {content : α}
    (h : (ofList pairs).get? name = some content) : (name, content) ∈ pairs := by
  rw [get?_ofList] at h
  obtain ⟨pair, hfound, rfl⟩ := Option.map_eq_some_iff.mp h
  have hname := List.find?_some hfound
  rw [beq_iff_eq] at hname
  rw [← hname]
  exact List.mem_reverse.mp (List.mem_of_find?_eq_some hfound)

/-- The map of given pairs lists their names in the order in which they come first. -/
theorem names_ofList (pairs : List (String × α)) :
    (ofList pairs).names = (pairs.map Prod.fst).eraseDups := by
  induction pairs using List.reverseRecOn with
  | nil => rfl
  | append_singleton pairs pair ih =>
    have hlisted : (ofList pairs).contains pair.1 = true ↔ pair.1 ∈ pairs.map Prod.fst := by
      rw [← mem_names_iff, ih, List.mem_eraseDups]
    rw [ofList_append_singleton, names_insert, List.map_append, List.eraseDups_append, ih]
    by_cases h : pair.1 ∈ pairs.map Prod.fst
    · rw [if_pos (hlisted.mpr h)]
      simp [List.removeAll, h]
    · rw [if_neg (mt hlisted.mp h)]
      simp [List.removeAll, h, List.eraseDups_cons]

/-- In a map that lists no name twice, an entry is what is found under its name. -/
theorem get?_of_mem_entries {map : NameMap α} (hnodup : map.names.Nodup) {entry : String × α}
    (hentry : entry ∈ map.entries) : map.get? entry.1 = some entry.2 := by
  obtain ⟨entries⟩ := map
  rw [get?]
  induction entries with
  | nil => cases hentry
  | cons first rest ih =>
    obtain ⟨hnew, hrest⟩ := List.nodup_cons.mp hnodup
    rw [find]
    rcases List.mem_cons.mp hentry with rfl | hentry
    · exact if_pos rfl
    · have hother : first.1 ≠ entry.1 := by
        intro heq
        exact hnew (List.mem_map.mpr ⟨entry, hentry, heq.symm⟩)
      rw [if_neg hother]
      exact ih hrest hentry

/-! ## Related entries -/

section Related

variable {β : Type} {f : String → String} {names : Set String} {R : α → β → Prop}

/-- An entry under one of the given names, and one under the name that replaces it, with related
contents. -/
structure EntryRel (f : String → String) (names : Set String) (R : α → β → Prop)
    (entry : String × α) (other : String × β) : Prop where
  mem : entry.1 ∈ names
  name_eq : other.1 = f entry.1
  content : R entry.2 other.2

/-- Where names stay different, entries are put in the same places. -/
theorem rel_put (hf : Set.InjOn f names) {name : String} (hname : name ∈ names) {content : α}
    {other : β} (hcontent : R content other) {entries : List (String × α)}
    {others : List (String × β)} (h : List.Forall₂ (EntryRel f names R) entries others) :
    List.Forall₂ (EntryRel f names R) (put name content entries) (put (f name) other others) := by
  induction h with
  | nil => exact .cons ⟨hname, rfl, hcontent⟩ .nil
  | @cons entry entry' rest rest' hentry hrest ih =>
    obtain ⟨hmem, hentryName, hentryContent⟩ := hentry
    have hsame : entry'.1 = f name ↔ entry.1 = name := by
      rw [hentryName, hf.eq_iff hmem hname]
    rw [put, put]
    by_cases hput : entry.1 = name
    · rw [if_pos hput, if_pos (hsame.mpr hput)]
      exact .cons ⟨hmem, hentryName, hcontent⟩ hrest
    · rw [if_neg hput, if_neg (mt hsame.mp hput)]
      exact .cons ⟨hmem, hentryName, hentryContent⟩ ih

/-- Where names stay different, the maps of related pairs have related entries. -/
theorem rel_ofList (hf : Set.InjOn f names) {pairs : List (String × α)}
    {others : List (String × β)} (h : List.Forall₂ (EntryRel f names R) pairs others) :
    List.Forall₂ (EntryRel f names R) (ofList pairs).entries (ofList others).entries := by
  have hfrom {map : NameMap α} {map' : NameMap β}
      (hmap : List.Forall₂ (EntryRel f names R) map.entries map'.entries) :
      List.Forall₂ (EntryRel f names R)
        (pairs.foldl (fun map pair => map.insert pair.1 pair.2) map).entries
        (others.foldl (fun map pair => map.insert pair.1 pair.2) map').entries := by
    induction h generalizing map map' with
    | nil => exact hmap
    | cons hpair _ ih =>
      rw [List.foldl_cons, List.foldl_cons, hpair.name_eq]
      exact ih (rel_put hf hpair.mem hpair.content hmap)
  exact hfrom .nil

/-- Where names stay different, related contents are found in maps of related entries. -/
theorem rel_get? (hf : Set.InjOn f names) {map : NameMap α} {other : NameMap β}
    (h : List.Forall₂ (EntryRel f names R) map.entries other.entries) {name : String}
    (hname : name ∈ names) : Option.Rel R (map.get? name) (other.get? (f name)) := by
  obtain ⟨entries⟩ := map
  obtain ⟨others⟩ := other
  rw [get?, get?]
  dsimp only at h ⊢
  induction h with
  | nil => exact .none
  | @cons entry entry' rest rest' hentry hrest ih =>
    obtain ⟨hmem, hentryName, hcontent⟩ := hentry
    have hsame : entry'.1 = f name ↔ entry.1 = name := by
      rw [hentryName, hf.eq_iff hmem hname]
    rw [find, find]
    by_cases hfound : entry.1 = name
    · rw [if_pos hfound, if_pos (hsame.mpr hfound)]
      exact .some hcontent
    · rw [if_neg hfound, if_neg (mt hsame.mp hfound)]
      exact ih

end Related

end NameMap

end RelayCheck
