import RelayCheck.Proofs.Connections.Chains
import RelayCheck.Proofs.Separation
import RelayCheck.Proofs.Validation.Fields

/-!
# What is reported of paginated connections

A field is a paginated connection if something is selected of it, its type is called a connection
and its arguments ask for a page. In a document without cycles of fragments, it is reported if no
chain leads to `pageInfo`, and otherwise once for every part that is needed but not selected. Of
other fields nothing is reported.

The module introduces:

- `Field.Needs`, the parts that the arguments of a field need, and
  `FieldPlace.IsPaginatedConnection`;
- `Field.IsReportedAs`, the name and place under which a connection is reported;
- `Document.PageInfoVerdict`, what is to be reported of a field.

The main result is `requiredPageInfoFields_verdicts`.
-/

namespace RelayCheck

/-! ## Paginated connections -/

namespace Field

variable {field : Field} {part : PagePart}

/-- The field is given an argument of the name. -/
def Gives (field : Field) (name : String) : Prop :=
  ∃ argument ∈ field.arguments, argument.name.text = name

/-- The arguments of the field ask for the first items after a place. -/
def IsForward (field : Field) : Prop :=
  field.Gives "first" ∧ field.Gives "after"

/-- The arguments of the field ask for the last items before a place. -/
def IsBackward (field : Field) : Prop :=
  field.Gives "last" ∧ field.Gives "before"

/-- The page that the arguments of the field ask for needs the part. -/
def Needs (field : Field) : PagePart → Prop
  | .hasNextPage | .endCursor => field.IsForward
  | .hasPreviousPage | .startCursor => field.IsBackward

/-- An argument is given if its name is among those given. -/
theorem contains_arguments_iff {name : String} :
    (field.arguments.map fun argument => argument.name.text).contains name = true ↔
      field.Gives name := by
  rw [List.contains_iff_mem, List.mem_map]
  rfl

/-- The directions of a field are those its arguments ask for. -/
theorem directions_iff :
    (field.directions.forward = true ↔ field.IsForward) ∧
      (field.directions.backward = true ↔ field.IsBackward) := by
  simp only [directions, Bool.and_eq_true, contains_arguments_iff]
  exact ⟨Iff.rfl, Iff.rfl⟩

end Field

/-- All parts of `pageInfo` that pagination needs, in the order in which they are reported. -/
def PagePart.inOrder : List PagePart :=
  [.hasNextPage, .endCursor, .hasPreviousPage, .startCursor]

/-- Whether the directions need the part. -/
def Directions.needs (directions : Directions) : PagePart → Bool
  | .hasNextPage | .endCursor => directions.forward
  | .hasPreviousPage | .startCursor => directions.backward

/-- The parts that the directions need are in order. -/
theorem Directions.parts_eq_filter (directions : Directions) :
    directions.parts = PagePart.inOrder.filter directions.needs := by
  obtain ⟨forward, backward⟩ := directions
  cases forward <;> cases backward <;> rfl

/-- The directions of a field need the parts that its arguments ask for. -/
theorem Field.needs_directions_iff {field : Field} {part : PagePart} :
    field.directions.needs part = true ↔ field.Needs part := by
  cases part with
  | hasNextPage | endCursor => exact field.directions_iff.1
  | hasPreviousPage | startCursor => exact field.directions_iff.2

/-- No parts are needed if the arguments ask for no page. -/
theorem Field.parts_directions_eq_nil_iff {field : Field} :
    field.directions.parts = [] ↔ ¬(field.IsForward ∨ field.IsBackward) := by
  rw [← field.directions_iff.1, ← field.directions_iff.2]
  generalize field.directions = directions
  obtain ⟨forward, backward⟩ := directions
  cases forward <;> cases backward <;> decide

/-- Null aside, the type is an object type of the schema that is called a connection. -/
def Schema.IsConnectionType (schema : Schema) (type : TypeRef String) : Prop :=
  ∃ name object, type.nullable = .named name ∧ schema.type? name = some object ∧
    object.isObject = true ∧ ∃ stem, name = stem ++ connectionSuffix

/-- A string ends with another if it is that after something else. -/
theorem endsWith_iff_exists_append {text ending : String} :
    text.endsWith ending = true ↔ ∃ stem, text = stem ++ ending := by
  rw [String.endsWith_eq_endsWith_toSlice, String.Slice.endsWith_string_iff, String.copy_toSlice]
  constructor
  · rintro ⟨stem, h⟩
    refine ⟨.ofList stem, ?_⟩
    rw [← String.toList_inj, String.toList_append, String.toList_ofList, h]
  · rintro ⟨stem, rfl⟩
    exact ⟨stem.toList, (String.toList_append ..).symm⟩

/-- A type is taken for a connection exactly if it is one. -/
theorem Schema.isConnection_iff {schema : Schema} {type : TypeRef String} :
    schema.isConnection type = true ↔ schema.IsConnectionType type := by
  rw [isConnection, IsConnectionType]
  cases type.nullable with
  | named name =>
    rw [Bool.and_eq_true, Option.any_eq_true, endsWith_iff_exists_append]
    constructor
    · rintro ⟨⟨object, hobject, hkind⟩, hname⟩
      exact ⟨name, object, rfl, hobject, hkind, hname⟩
    · rintro ⟨_, object, ⟨⟩, hobject, hkind, hname⟩
      exact ⟨⟨object, hobject, hkind⟩, hname⟩
  | list | nonNull => simp

/-- Something is selected of the field, its type is a connection, and its arguments ask for a
page. -/
structure FieldPlace.IsPaginatedConnection (schema : Schema) (place : FieldPlace) : Prop where
  selections : place.selections ≠ []
  type : ∃ type, place.type = some type ∧ schema.IsConnectionType type
  arguments : place.field.IsForward ∨ place.field.IsBackward

/-! ## Names of connections -/

/-- An argument is a string that is called a key. -/
def Argument.IsKey (argument : Argument) (key : String) : Prop :=
  argument.name.text = "key" ∧ ∃ block pos, argument.value = .string key block pos

/-- The last key among the arguments is the given one. -/
def LastKey (arguments : List Argument) (key : String) : Prop :=
  ∃ before argument after, arguments = before ++ argument :: after ∧ argument.IsKey key ∧
    ∀ later ∈ after, ∀ other, ¬later.IsKey other

/-- The directive is the first on the field that marks it as a connection. -/
def Field.IsFirstMark (field : Field) (mark : Directive) : Prop :=
  mark.name.text = connectionName ∧ ∃ before after, field.directives = before ++ mark :: after ∧
    ∀ earlier ∈ before, earlier.name.text ≠ connectionName

/-- The name under which a connection is reported, and where: the key and the place of its mark, or,
where these are missing or empty, the name and the place of the field. -/
inductive Field.IsReportedAs (field : Field) : String → Position → Prop
  | unmarked (hmark : ∀ directive ∈ field.directives, directive.name.text ≠ connectionName) :
      IsReportedAs field field.responseName field.pos
  | keyed {mark : Directive} {key : String} (hmark : field.IsFirstMark mark)
      (hkey : LastKey mark.arguments key) (hne : key ≠ "") : IsReportedAs field key mark.pos
  | unkeyed {mark : Directive} (hmark : field.IsFirstMark mark)
      (hkey : ∀ key, LastKey mark.arguments key → key = "") :
      IsReportedAs field field.responseName mark.pos

/-- The string that an argument states as a key. -/
def Argument.key? (argument : Argument) : Option String :=
  match argument.value with
  | .string content _ _ => if argument.name.text == "key" then some content else none
  | _ => none

/-- An argument states the key that it is. -/
theorem Argument.key?_eq_some_iff {argument : Argument} {key : String} :
    argument.key? = some key ↔ argument.IsKey key := by
  rw [key?, IsKey]
  cases argument.value <;> simp

/-- The key that arguments state is the first one from their end. -/
theorem keyOf_eq_findSome? (arguments : List Argument) :
    keyOf arguments = arguments.reverse.findSome? Argument.key? := by
  -- each key replaces those before it
  rw [keyOf, List.foldl_eq_foldr_reverse]
  induction arguments.reverse with
  | nil => rfl
  | cons argument rest ih =>
    rw [List.foldr_cons, ih, List.findSome?_cons, Argument.key?]
    cases argument.value with
    | string content block pos => dsimp only; split <;> rfl
    | _ => rfl

/-- The key that arguments state is their last one. -/
theorem keyOf_eq_some_iff {arguments : List Argument} {key : String} :
    keyOf arguments = some key ↔ LastKey arguments key := by
  rw [keyOf_eq_findSome?, List.findSome?_eq_some_iff]
  -- the search goes through the reversed arguments, so that what is after comes before
  constructor
  · rintro ⟨after, argument, before, hsplit, hkey, hafter⟩
    refine ⟨before.reverse, argument, after.reverse, ?_, Argument.key?_eq_some_iff.mp hkey, ?_⟩
    · rw [← List.reverse_inj, hsplit]
      simp
    · intro later hlater other hother
      have hnone := hafter later (List.mem_reverse.mp hlater)
      cases hnone.symm.trans (Argument.key?_eq_some_iff.mpr hother)
  · rintro ⟨before, argument, after, rfl, hkey, hafter⟩
    refine ⟨after.reverse, argument, before.reverse, by simp,
      Argument.key?_eq_some_iff.mpr hkey, ?_⟩
    intro later hlater
    rw [Option.eq_none_iff_forall_ne_some]
    intro other hother
    exact hafter later (List.mem_reverse.mp hlater) other (Argument.key?_eq_some_iff.mp hother)

/-- The first directive of the name is what marks the field as a connection. -/
theorem Field.find?_connectionName_eq_some_iff {field : Field} {mark : Directive} :
    (field.directives.find? fun directive => directive.name.text == connectionName) = some mark ↔
      field.IsFirstMark mark := by
  rw [List.find?_eq_some_iff_append, IsFirstMark]
  simp

/-- A field without mark is called by its own name. -/
theorem Field.connectionPlace_of_unmarked {field : Field}
    (hmark : ∀ directive ∈ field.directives, directive.name.text ≠ connectionName) :
    field.connectionPlace = (field.responseName, field.pos) := by
  have hnone : (field.directives.find? fun directive =>
      directive.name.text == connectionName) = none := by
    simpa using hmark
  rw [connectionPlace, connectionMark?, hnone]
  rfl

/-- A marked field is called by the key of the mark, if that is not empty. -/
theorem Field.connectionPlace_of_isFirstMark {field : Field} {mark : Directive}
    (hmark : field.IsFirstMark mark) :
    field.connectionPlace =
      (let key := (keyOf mark.arguments).getD ""
        if key.isEmpty then field.responseName else key, mark.pos) := by
  rw [connectionPlace, connectionMark?, find?_connectionName_eq_some_iff.mpr hmark]
  rfl

/-- A connection is reported under its name and at its place. -/
theorem Field.isReportedAs_iff {field : Field} {label : String} {pos : Position} :
    field.IsReportedAs label pos ↔ field.connectionPlace = (label, pos) := by
  constructor
  · rintro (hmark | ⟨hmark, hkey, hne⟩ | @⟨mark, hmark, hkey⟩)
    · exact connectionPlace_of_unmarked hmark
    · rw [connectionPlace_of_isFirstMark hmark, keyOf_eq_some_iff.mpr hkey]
      simp [hne]
    · rw [connectionPlace_of_isFirstMark hmark]
      cases hstated : keyOf mark.arguments with
      | none => rfl
      | some key =>
        rw [hkey key (keyOf_eq_some_iff.mp hstated)]
        rfl
  · intro hplace
    cases hfind : field.directives.find? fun directive => directive.name.text == connectionName with
    | none =>
      have hmark : ∀ directive ∈ field.directives, directive.name.text ≠ connectionName := by
        simpa using hfind
      cases (connectionPlace_of_unmarked hmark).symm.trans hplace
      exact .unmarked hmark
    | some mark =>
      have hmark := find?_connectionName_eq_some_iff.mp hfind
      cases (connectionPlace_of_isFirstMark hmark).symm.trans hplace
      -- a key that is missing and one that is empty are treated alike
      by_cases hempty : (keyOf mark.arguments).getD "" = ""
      · rw [hempty]
        refine .unkeyed hmark fun key hkey => ?_
        rwa [keyOf_eq_some_iff.mpr hkey] at hempty
      · cases hstated : keyOf mark.arguments with
        | none => exact absurd (congrArg (Option.getD · "") hstated) hempty
        | some key =>
          rw [hstated, Option.getD_some] at hempty
          simpa [hempty] using IsReportedAs.keyed hmark (keyOf_eq_some_iff.mp hstated) hempty

/-! ## Cycles of fragments -/

namespace Document

variable {document : Document} {target : Selection} {selections more : List Selection}
  {path : List String} {fragment : Fragment}

/-- What is spread in one of several selections is spread in them. -/
theorem spreadIn_of_mem {name : String} {selection : Selection} (hmem : selection ∈ selections)
    (h : SpreadIn name [selection]) : SpreadIn name selections := by
  induction selections with
  | nil => cases hmem
  | cons first rest ih =>
    rcases List.mem_cons.mp hmem with rfl | hmem
    · cases h with
      | here hname => exact .here hname
      | inField hnested => exact .inField hnested
      | inInline hnested => exact .inInline hnested
      | later hrest => cases hrest
    · exact .later (ih hmem)

/-- Selections that spread no less reach no less. -/
theorem Reaches.mono (hspreads : ∀ name, SpreadIn name selections → SpreadIn name more)
    (h : document.Reaches selections fragment) : document.Reaches more fragment := by
  induction h with
  | direct hspread hfound => exact .direct (hspreads _ hspread) hfound
  | step _ hspread hfound ih => exact .step ih hspread hfound

/-- Selections from which a chain leads to a selection reach what that reaches. -/
theorem LeadsAlong.reaches (h : document.LeadsAlong target path selections)
    (htarget : document.Reaches [target] fragment) : document.Reaches selections fragment := by
  induction h with
  | here hmem => exact htarget.mono fun name => spreadIn_of_mem hmem
  | inline hmem hnested ih => exact ih.mono fun name h => spreadIn_of_mem hmem (.inInline h)
  | spread hmem hfound hinside ih =>
    exact (Reaches.direct (spreadIn_of_mem hmem (.here rfl)) hfound).trans ih

/-- There are no cycles of fragments if the search from no fragment comes back to its name. -/
theorem not_reaches_of_names_reachFrom
    (h : (document.fragments.all fun fragment =>
      !((document.reachFrom [] (spreadNames fragment.selections)).map fun reached =>
        reached.name.text).contains fragment.name.text) = true) :
    ∀ fragment, ¬document.Reaches fragment.selections fragment := by
  intro fragment hreaches
  obtain ⟨hmem, -⟩ := mem_fragments_of_fragment? hreaches.fragment?_name
  rw [← reachesFrom_iff_reaches fun _ => mem_spreadNames_iff, ← mem_reachFrom_iff] at hreaches
  have hname := List.all_eq_true.mp h fragment hmem
  rw [Bool.not_eq_true', ← Bool.not_eq_true, List.contains_iff_mem] at hname
  exact hname (List.mem_map_of_mem hreaches)

/-- A fragment that spreads itself through `pageInfo` reaches itself. -/
theorem ReentersInPageInfo.exists_reaches {name : String} (h : document.ReentersInPageInfo name) :
    ∃ fragment, document.Reaches fragment.selections fragment := by
  obtain ⟨fragment, nested, spread, hfound, ⟨field, -, -, path, hpath⟩, hname, inside, hinside⟩ := h
  -- backwards along the chains: from the spread to `pageInfo`, and from there to the fragment
  have hspread : document.Reaches [.spread spread] fragment := .direct (.here hname) hfound
  have hfield : document.Reaches [.field field nested] fragment :=
    (hinside.reaches hspread).mono fun name => .inField
  exact ⟨fragment, hpath.reaches hfield⟩

end Document

/-! ## Reports -/

namespace Document

variable {document : Document} {schema : Schema}

/-- What is to be reported of a field: nothing, unless it is a paginated connection, then that
`pageInfo` is missing if no chain leads to it, and otherwise, in order, the parts that are needed
but not selected. -/
inductive PageInfoVerdict (document : Document) (schema : Schema) (place : FieldPlace) :
    List Finding → Prop
  | exempt (hexempt : ¬place.IsPaginatedConnection schema) :
      PageInfoVerdict document schema place []
  | missingPageInfo {label : String} {pos : Position}
      (hconnection : place.IsPaginatedConnection schema)
      (hlabel : place.field.IsReportedAs label pos)
      (hmissing : ¬∃ nested, document.LeadsToPageInfo place.selections nested) :
      PageInfoVerdict document schema place [.relay (.missingPageInfo label) [pos]]
  | missingParts {label : String} {pos : Position} {isMissing : PagePart → Bool}
      (hconnection : place.IsPaginatedConnection schema)
      (hlabel : place.field.IsReportedAs label pos)
      (hselected : ∃ nested, document.LeadsToPageInfo place.selections nested)
      (hmissing : ∀ part, isMissing part = true ↔
        place.field.Needs part ∧ ¬document.SelectsPart part place.selections) :
      PageInfoVerdict document schema place ((PagePart.inOrder.filter isMissing).map fun part =>
        .relay (.missingPageInfoField part.name label) [pos])

end Document

/-- What is found at a field. -/
def Context.connectionFindings (context : Context) (place : FieldPlace) : List Finding :=
  let parts := place.field.directions.parts
  if place.selections.isEmpty || parts.isEmpty
      || !place.type.any context.schema.isConnection then []
  else pageInfoFindings context.document place.field place.selections parts

/-- The rule for connections finds what is found at the fields of a walk. -/
theorem findings_requiredPageInfoFields (context : Context) (events : List Event) :
    (requiredPageInfoFields context).findings events =
      (events.filterMap Event.fieldPlace?).flatMap context.connectionFindings := by
  refine Rule.findings_ofEvent_filterMap ?_ events
  rintro (⟨node, scope⟩ | visit)
  · cases node <;> rfl
  · rfl

/-- A field is passed over exactly if it is no paginated connection. -/
theorem FieldPlace.isPaginatedConnection_iff {schema : Schema} {place : FieldPlace} :
    place.IsPaginatedConnection schema ↔
      (place.selections.isEmpty || place.field.directions.parts.isEmpty ||
        !place.type.any schema.isConnection) = false := by
  rw [Bool.or_eq_false_iff, Bool.or_eq_false_iff, Bool.not_eq_false', List.isEmpty_eq_false_iff,
    List.isEmpty_eq_false_iff, Option.any_eq_true, ne_eq place.field.directions.parts,
    Field.parts_directions_eq_nil_iff, not_not]
  simp only [Schema.isConnection_iff]
  exact ⟨fun h => ⟨⟨h.selections, h.arguments⟩, h.type⟩, fun h => ⟨h.1.1, h.2, h.1.2⟩⟩

/-- At a field that is no paginated connection, nothing is found. -/
theorem Context.connectionFindings_of_not {context : Context} {place : FieldPlace}
    (h : ¬place.IsPaginatedConnection context.schema) : context.connectionFindings place = [] := by
  rw [FieldPlace.isPaginatedConnection_iff, Bool.not_eq_false] at h
  exact if_pos h

/-- At a paginated connection without `pageInfo`, that is found. -/
theorem Context.connectionFindings_of_pageInfo_eq_false {context : Context} {place : FieldPlace}
    (h : place.IsPaginatedConnection context.schema)
    (hpageInfo : (context.document.connectionFields place.selections).pageInfo = false) :
    context.connectionFindings place =
      [.relay (.missingPageInfo place.field.connectionPlace.1)
        [place.field.connectionPlace.2]] := by
  rw [FieldPlace.isPaginatedConnection_iff, ← Bool.not_eq_true] at h
  refine (if_neg h).trans (if_pos ?_)
  rw [hpageInfo, Bool.not_false]

/-- At a paginated connection with `pageInfo`, the parts are found that are needed but not selected.
-/
theorem Context.connectionFindings_of_pageInfo_eq_true {context : Context} {place : FieldPlace}
    (h : place.IsPaginatedConnection context.schema)
    (hpageInfo : (context.document.connectionFields place.selections).pageInfo = true) :
    context.connectionFindings place =
      (PagePart.inOrder.filter fun part =>
        !(context.document.connectionFields place.selections).has part &&
          place.field.directions.needs part).map fun part =>
        .relay (.missingPageInfoField part.name place.field.connectionPlace.1)
          [place.field.connectionPlace.2] := by
  rw [FieldPlace.isPaginatedConnection_iff, ← Bool.not_eq_true] at h
  rw [← List.filter_filter, ← Directions.parts_eq_filter]
  refine (if_neg h).trans (if_neg ?_)
  rw [hpageInfo, Bool.not_true]
  exact Bool.false_ne_true

/-- In a document without cycles of fragments, what is found at a field is what is to be reported of
it. -/
theorem Document.pageInfoVerdict_connectionFindings {document : Document}
    (hacyclic : ∀ fragment, ¬document.Reaches fragment.selections fragment) (schema : Schema)
    (place : FieldPlace) :
    document.PageInfoVerdict schema place
      ((Context.ofDocument schema document).connectionFindings place) := by
  let context := Context.ofDocument schema document
  -- a fragment that comes back to itself through `pageInfo` would be a cycle
  have hreenters (spread : Spread) (_ : document.Leads place.selections (.spread spread)) :
      ¬document.ReentersInPageInfo spread.name.text := by
    intro hreenters
    obtain ⟨fragment, hfragment⟩ := hreenters.exists_reaches
    exact hacyclic fragment hfragment
  obtain ⟨hpageInfo, hparts⟩ := connectionFields_iff_leads hreenters
  have hlabel : place.field.IsReportedAs place.field.connectionPlace.1
      place.field.connectionPlace.2 := Field.isReportedAs_iff.mpr rfl
  by_cases hconnection : place.IsPaginatedConnection context.schema
  · cases hselected : (document.connectionFields place.selections).pageInfo with
    | false =>
      rw [Context.connectionFindings_of_pageInfo_eq_false hconnection hselected]
      refine .missingPageInfo hconnection hlabel ?_
      rw [← hpageInfo, hselected]
      exact Bool.false_ne_true
    | true =>
      rw [Context.connectionFindings_of_pageInfo_eq_true hconnection hselected]
      refine .missingParts hconnection hlabel (hpageInfo.mp hselected) fun part => ?_
      rw [Bool.and_eq_true, Field.needs_directions_iff, Bool.not_eq_true', ← Bool.not_eq_true,
        and_comm]
      exact and_congr_right fun _ => not_congr (hparts part)
  · rw [Context.connectionFindings_of_not hconnection]
    exact .exempt hconnection

/-- In a document without cycles of fragments, the rule for connections reports of one field after
the other, in the order of the document, what is to be reported of it. A check by the rule alone
does so, too, if the document is not nested too deeply. -/
theorem Document.requiredPageInfoFields_verdicts {document : Document}
    (hacyclic : ∀ fragment, ¬document.Reaches fragment.selections fragment) (schema : Schema)
    (suggest : Suggest) (test : LiteralTest) :
    ∃ reports,
      List.Forall₂ (document.PageInfoVerdict schema) (document.fieldPlaces schema) reports ∧
      document.relayFindings schema suggest test .requiredPageInfoFields = reports.flatten ∧
      (document.isTooDeep = false →
        (Context.ofDocument schema document).trail
          [.relay .requiredPageInfoFields { suggest, test }] = ⟨reports.flatten, false⟩) := by
  let context := Context.ofDocument schema document
  have hfindings : document.relayFindings schema suggest test .requiredPageInfoFields =
      ((document.fieldPlaces schema).map context.connectionFindings).flatten := by
    rw [relayFindings, RelayRule.rule, findings_requiredPageInfoFields,
      filterMap_fieldPlace?_events, List.flatMap_def]
  refine ⟨_, ?_, hfindings, fun hdeep => ?_⟩
  · rw [List.forall₂_map_right_iff, List.forall₂_same]
    exact fun place _ => document.pageInfoVerdict_connectionFindings hacyclic schema place
  · rw [← hfindings]
    exact Context.trail_singleton_eq_events (by decide) (by decide) _ hdeep

/-- A schema with a connection of items. -/
def itemSchema : Schema where
  types := [⟨"Query", .object [] [⟨"items", [], .named "ItemConnection"⟩]⟩,
    ⟨"ItemConnection", .object [] [⟨"pageInfo", [], .named "PageInfo"⟩]⟩,
    ⟨"PageInfo", .object [] [⟨"hasNextPage", [], .named "Boolean"⟩]⟩,
    ⟨"Boolean", .scalar⟩]
  directives := []
  query := some "Query"
  mutation := none
  subscription := none

/-- The document `{ items(first: 1, after: "a") @connection(key: "all") { ...P } }` with the
fragments `fragment P on ItemConnection { ... { pageInfo { ...Q } } }` and
`fragment Q on PageInfo { hasNextPage }`. -/
def itemDocument : Document :=
  let items : Field := {
    aliasName := none
    name := ⟨"items", ⟨1, 3⟩⟩
    arguments := [⟨⟨"first", ⟨1, 9⟩⟩, .int "1" ⟨1, 16⟩⟩,
      ⟨⟨"after", ⟨1, 19⟩⟩, .string "a" false ⟨1, 26⟩⟩]
    directives := [⟨⟨"connection", ⟨1, 32⟩⟩,
      [⟨⟨"key", ⟨1, 43⟩⟩, .string "all" false ⟨1, 48⟩⟩], ⟨1, 31⟩⟩]
    pos := ⟨1, 3⟩
    setPos := ⟨1, 55⟩ }
  ⟨[.operation ⟨.query, none, [], [], [.field items [pageSpread "P"]], ⟨1, 1⟩⟩,
    .fragment (pageFragment "P" "ItemConnection"
      [pageInline [pageField "pageInfo" [pageSpread "Q"]]]),
    .fragment (pageFragment "Q" "PageInfo" [pageField "hasNextPage" []])]⟩

/-- The fragments select `hasNextPage`, but not `endCursor`, which is reported under the key of the
connection at its mark. -/
theorem Document.requiredPageInfoFields_verdicts_itemDocument :
    let found : List Finding := [.relay (.missingPageInfoField "endCursor" "all") [⟨1, 31⟩]]
    (∀ fragment, ¬itemDocument.Reaches fragment.selections fragment) ∧
      itemDocument.isTooDeep = false ∧
      (∃ reports, List.Forall₂ (itemDocument.PageInfoVerdict itemSchema)
        (itemDocument.fieldPlaces itemSchema) reports ∧ reports.flatten = found) ∧
      (Context.ofDocument itemSchema itemDocument).trail [.relay .requiredPageInfoFields {}] =
        ⟨found, false⟩ := by
  intro found
  have hacyclic : ∀ fragment, ¬itemDocument.Reaches fragment.selections fragment :=
    not_reaches_of_names_reachFrom (by cbv)
  have hdeep : itemDocument.isTooDeep = false := by decide
  have hfound : itemDocument.relayFindings itemSchema suggestions denotesValue
      .requiredPageInfoFields = found := by cbv
  obtain ⟨reports, hverdicts, hreports, htrail⟩ :=
    requiredPageInfoFields_verdicts hacyclic itemSchema suggestions denotesValue
  rw [hfound] at hreports
  refine ⟨hacyclic, hdeep, ⟨reports, hverdicts, hreports.symm⟩, ?_⟩
  rw [hreports]
  exact htrail hdeep

end RelayCheck
