import RelayCheck.Proofs.FragmentArguments.Positions
import RelayCheck.Proofs.Validation.Searches
import RelayCheck.Proofs.Validation.Trail
import RelayCheck.Proofs.Validation.Walk

/-!
# Rules do not influence each other

Rules for fragment arguments and connections that follow one walk find what each of them finds
alone, in the order of the walk. The one thing they share are the searches for the fragments of
operations: a rule that gives one up stops all of them. So each of several rules finds what it finds
alone, or the first part of that if a search is given up.

The main result is `Context.interleaves_trail`.
-/

namespace RelayCheck

/-! ## Searches on the walk -/

section Searches

variable {operations asked : List Operation} {later : List (List Operation)}

/-- Searches for nothing may come before others. -/
theorem InOrder.append_of_quiet {quiet : List (List Operation)}
    (hquiet : ∀ search ∈ quiet, search = []) (h : InOrder operations asked later) :
    InOrder operations asked (quiet ++ later) := by
  induction quiet with
  | nil => exact h
  | cons search rest ih =>
    rw [List.forall_mem_cons] at hquiet
    rw [hquiet.1]
    exact .none (ih hquiet.2)

variable {context : Context}

/-- At a definition, the next search is for its operation, if it is one. -/
theorem InOrder.searchesAt {definition : Definition} {scope : Scope}
    (hasked : asked ++ definition.operation?.toList <+: context.document.operations)
    (h : InOrder context.document.operations (asked ++ definition.operation?.toList) later) :
    InOrder context.document.operations asked
      (context.searchesAt ⟨.definition definition, scope⟩ :: later) := by
  cases definition with
  | operation operation => exact .next hasked h
  | fragment fragment =>
    exact .all (by simpa only [Definition.operation?, Option.toList_none, List.append_nil] using h)
  | schema | schemaExtension | type | typeExtension | directive =>
    exact .none (by simpa only [Definition.operation?, Option.toList_none, List.append_nil] using h)

/-- Nothing is looked for at anything but definitions. -/
theorem Context.searchesAt_eq_nil {visit : Visit}
    (hnode : ∀ definition, visit.node ≠ .definition definition) :
    context.searchesAt visit = [] := by
  obtain ⟨node, scope⟩ := visit
  cases node with
  | definition definition => exact absurd rfl (hnode definition)
  | document | variableDefinition | typeName | field | spread | inlineFragment | directive
  | argument | value | objectField | typePart => rfl

/-- A rule that searches at definitions alone, either when it enters them or when it leaves them. -/
structure SearchesAtDefinitions (context : Context) (searches : Event → List Operation) : Prop where
  definition : ∀ definition scope,
    let visit : Visit := ⟨.definition definition, scope⟩
    (searches (.enter visit) = context.searchesAt visit ∧ searches (.leave visit) = []) ∨
      (searches (.enter visit) = [] ∧ searches (.leave visit) = context.searchesAt visit)
  other : ∀ event, (∀ definition, event.visit.node ≠ .definition definition) → searches event = []

namespace SearchesAtDefinitions

variable {searches : Event → List Operation}

/-- On the walk of a definition, the next search is for its operation, if it is one. -/
theorem inOrder_definition (hsearches : SearchesAtDefinitions context searches) (schema : Schema)
    {definition : Definition}
    (hasked : asked ++ definition.operation?.toList <+: context.document.operations)
    (h : InOrder context.document.operations (asked ++ definition.operation?.toList) later) :
    InOrder context.document.operations asked
      ((definition.events schema).map searches ++ later) := by
  obtain ⟨scope, parts, hevents, hinner⟩ := definition.events_eq_around_inner schema
  -- nothing is searched for between entering and leaving the definition
  have hquiet : ∀ search ∈ parts.map searches, search = [] := by
    rw [List.forall_mem_map]
    intro event hevent
    refine hsearches.other event fun definition hnode => ?_
    have hnot := hinner event hevent
    rw [hnode] at hnot
    cases hnot
  rw [hevents, around, List.map_cons, List.map_append, List.map_singleton, List.cons_append,
    List.append_assoc, List.singleton_append]
  rcases hsearches.definition definition scope with ⟨henter, hleave⟩ | ⟨henter, hleave⟩
  · rw [henter, hleave]
    exact .searchesAt hasked (.append_of_quiet hquiet (.none h))
  · rw [henter, hleave]
    exact .none (.append_of_quiet hquiet (.searchesAt hasked h))

/-- On the walk of definitions, the next searches are for their operations. -/
theorem inOrder_definitions (hsearches : SearchesAtDefinitions context searches) (schema : Schema)
    {definitions : List Definition}
    (hasked : asked ++ definitions.filterMap Definition.operation? <+: context.document.operations)
    (h : InOrder context.document.operations
      (asked ++ definitions.filterMap Definition.operation?) later) :
    InOrder context.document.operations asked
      ((definitions.flatMap (Definition.events schema)).map searches ++ later) := by
  induction definitions generalizing asked with
  | nil =>
    rw [List.filterMap_nil, List.append_nil] at h
    exact h
  | cons definition rest ih =>
    have hcons : (definition :: rest).filterMap Definition.operation? =
        definition.operation?.toList ++ rest.filterMap Definition.operation? := by
      cases hoperation : definition.operation? with
      | none => rw [List.filterMap_cons_none hoperation]; rfl
      | some operation => rw [List.filterMap_cons_some hoperation]; rfl
    rw [hcons, ← List.append_assoc] at hasked h
    rw [List.flatMap_cons, List.map_append, List.append_assoc]
    exact hsearches.inOrder_definition schema ((List.prefix_append _ _).trans hasked) (ih hasked h)

/-- On the walk of the document, searches are for its operations in their order. -/
theorem inOrder_walk (hsearches : SearchesAtDefinitions context searches) (schema : Schema) :
    InOrder context.document.operations [] ((context.document.walk schema).map searches) := by
  -- searches happen at definitions, and a walk of fewer definitions asks for fewer operations
  have hdocument (event : Event) (hnode : event.visit.node = .document context.document) :
      searches event = [] := by
    refine hsearches.other event fun definition hdefinition => ?_
    rw [hnode] at hdefinition
    cases hdefinition
  rw [Document.walk]
  split
  next =>
    rw [List.map_cons, hdocument _ rfl, ← List.append_nil (List.map searches _)]
    refine .none (hsearches.inOrder_definitions schema ?_ .done)
    exact (List.takeWhile_prefix _).filterMap _
  next =>
    rw [Document.events, around, List.map_cons, List.map_append, List.map_singleton,
      hdocument _ rfl, hdocument _ rfl]
    exact .none (hsearches.inOrder_definitions schema (List.prefix_refl _) (.none .done))

end SearchesAtDefinitions

/-- The rules for fragment arguments and connections search for operations in their order. -/
theorem RelayRule.inOrder_walk (rule : RelayRule) (parts : Parts) (context : Context)
    (schema : Schema) :
    InOrder context.document.operations []
      ((context.document.walk schema).map (rule.rule parts context).searches) := by
  have hquiet (events : List Event) : InOrder context.document.operations []
      (events.map fun _ => []) := by
    rw [← List.append_nil (List.map _ _)]
    exact .append_of_quiet (by simp) .done
  -- two of the rules search, one on entering and one on leaving definitions
  cases rule with
  | knownVariableNames =>
    refine SearchesAtDefinitions.inOrder_walk ⟨fun _ _ => .inr ⟨rfl, rfl⟩, ?_⟩ schema
    intro event hnode
    cases event with
    | enter visit => rfl
    | leave visit => exact Context.searchesAt_eq_nil hnode
  | variablesInAllowedPosition =>
    refine SearchesAtDefinitions.inOrder_walk ⟨fun _ _ => .inl ⟨rfl, rfl⟩, ?_⟩ schema
    intro event hnode
    cases event with
    | enter visit => exact Context.searchesAt_eq_nil hnode
    | leave visit => rfl
  | knownArgumentNames | argumentsOfCorrectType | defaultsOfCorrectType | noUnusedArguments
  | requiredPageInfoFields | missingConnectionDirective => exact hquiet _

end Searches

/-! ## Rules side by side -/

/-- A rule for fragment arguments or connections, by name with its parts. -/
def RuleName.ofRelay (rule : RelayRule × Parts) : RuleName :=
  .relay rule.1 rule.2

namespace Context

variable (context : Context)

/-- Rules stop early at the first search beyond what can be searched. -/
theorem halt?_eq_firstMiss (rules : List (RelayRule × Parts)) :
    context.halt? (rules.map RuleName.ofRelay) =
      Halt.firstMiss context.furthest ((rules.map RuleName.ofRelay).map (RuleName.rule context)) 0
        (context.document.walk context.schema) := by
  refine Halt.ofWalk?_eq_firstMiss fun rule hrule => ?_
  rw [List.map_map] at hrule
  obtain ⟨⟨name, parts⟩, -, rfl⟩ := List.mem_map.mp hrule
  exact name.inOrder_walk parts context context.schema

/-- A rule that stops early alone stops early among others, no earlier than they do. -/
theorem exists_halt?_of_singleton {rules : List (RelayRule × Parts)} {index : Nat}
    {rule : RelayRule × Parts} (hrule : rules[index]? = some rule) {alone : Halt}
    (halone : context.halt? ([rule].map RuleName.ofRelay) = some alone) :
    ∃ halt, context.halt? (rules.map RuleName.ofRelay) = some halt ∧
      halt.count index ≤ alone.events := by
  rw [halt?_eq_firstMiss] at halone
  rw [halt?_eq_firstMiss]
  refine Halt.count_le_of_firstMiss_singleton ?_ halone
  rw [List.getElem?_map, List.getElem?_map, hrule]
  rfl

/-- Among others, a rule finds what it finds alone, or the first part of that if rules stop early.
-/
theorem findings_followed_prefix {rules : List (RelayRule × Parts)} {index : Nat}
    {rule : RelayRule × Parts} (hrule : rules[index]? = some rule) :
    let found := ((RuleName.ofRelay rule).rule context).findings
      (Halt.followed (context.document.walk context.schema) index
        (context.halt? (rules.map RuleName.ofRelay)))
    let alone := (context.trail ([rule].map RuleName.ofRelay)).findings
    found <+: alone ∧ (context.halt? (rules.map RuleName.ofRelay) = none → found = alone) := by
  intro found alone
  have halone : alone = ((RuleName.ofRelay rule).rule context).findings
      (Halt.followed (context.document.walk context.schema) 0
        (context.halt? ([rule].map RuleName.ofRelay))) :=
    context.findings_trail_singleton _
  rw [halone]
  -- a rule that stops alone stops among others, and no later
  cases hsolo : context.halt? ([rule].map RuleName.ofRelay) with
  | none =>
    exact ⟨Rule.findings_prefix _ (Halt.isPrefix_followed _ _ _),
      fun hhalt => by simp only [found, hhalt, Halt.followed]⟩
  | some solo =>
    obtain ⟨halt, hhalt, hcount⟩ := context.exists_halt?_of_singleton hrule hsolo
    simp only [found, hhalt]
    refine ⟨Rule.findings_prefix _ (List.take_prefix_take_left (hcount.trans ?_)), by rintro ⟨⟩⟩
    rw [Halt.count]
    split
    · exact Nat.le_succ _
    · exact le_rfl

/-- The compatibility rule finds nothing but missing connection directives. -/
theorem missingConnection_of_mem_findings {events : List Event} {finding : Finding}
    (h : finding ∈ missingConnectionDirective.findings events) :
    ∃ connection places, finding = .relay (.missingConnection connection) places := by
  rw [missingConnectionDirective, Rule.onEnter, Rule.findings_ofEvent] at h
  obtain ⟨event, -, hfound⟩ := List.mem_flatMap.mp h
  cases event with
  | leave visit => cases hfound
  | enter visit =>
    dsimp only at hfound
    split at hfound
    next =>
      split at hfound
      next => exact ⟨_, _, List.mem_singleton.mp hfound⟩
      next => cases hfound
    next => cases hfound

/-- One more rule that looks for missing connection directives does not stop the others, and adds
what it finds to their findings. -/
theorem shuffle_trail_missingConnectionDirective (before after : List (RelayRule × Parts))
    (parts : Parts) :
    let trail := context.trail ((before ++ after).map RuleName.ofRelay)
    let more := context.trail
      ((before ++ (.missingConnectionDirective, parts) :: after).map RuleName.ofRelay)
    more.aborted = trail.aborted ∧
      ∃ inserted, Shuffle inserted trail.findings more.findings ∧
        ∀ finding ∈ inserted, ∃ connection places,
          finding = .relay (.missingConnection connection) places := by
  intro trail more
  let named (rules : List (RelayRule × Parts)) : List Rule :=
    (rules.map RuleName.ofRelay).map (RuleName.rule context)
  have hbase : named (before ++ after) = named before ++ named after := by simp [named]
  have hmore : named (before ++ (.missingConnectionDirective, parts) :: after) =
      named before ++ missingConnectionDirective :: named after := by
    simp only [named, List.map_append, List.map_cons]
    rfl
  -- the rule searches for nothing, so that the others stop where they stop without it
  have hhalt : (context.halt?
        ((before ++ (.missingConnectionDirective, parts) :: after).map RuleName.ofRelay)).map
          (fun halt => halt.without (named before).length) =
      context.halt? ((before ++ after).map RuleName.ofRelay) := by
    rw [halt?_eq_firstMiss, halt?_eq_firstMiss]
    exact (congrArg _ (congrArg (Halt.firstMiss _ · 0 _) hmore)).trans
      ((Halt.map_without_firstMiss (fun _ => rfl) _ _ 0 _).trans
        (congrArg (Halt.firstMiss _ · 0 _) hbase.symm))
  constructor
  · have hsome := congrArg Option.isSome hhalt
    rw [Option.isSome_map] at hsome
    exact congrArg (· || context.document.isTooDeep) hsome
  · have hshuffle := shuffle_sideBySideUntil (named before) (named after)
      missingConnectionDirective (context.document.walk context.schema)
      (context.halt?
        ((before ++ (.missingConnectionDirective, parts) :: after).map RuleName.ofRelay))
    rw [hhalt, ← hbase, ← hmore] at hshuffle
    exact ⟨_, hshuffle, fun finding hfinding => missingConnection_of_mem_findings hfinding⟩

/-- A rule that stops early alone stops early among others. -/
theorem aborted_of_singleton {rules : List (RelayRule × Parts)} {rule : RelayRule × Parts}
    (hrule : rule ∈ rules)
    (halone : (context.trail ([rule].map RuleName.ofRelay)).aborted = true) :
    (context.trail (rules.map RuleName.ofRelay)).aborted = true := by
  obtain ⟨index, hindex⟩ := List.mem_iff_getElem?.mp hrule
  rcases (Bool.or_eq_true _ _).mp halone with hstops | hdeep
  · obtain ⟨alone, hstops⟩ := Option.isSome_iff_exists.mp hstops
    obtain ⟨halt, hhalt, -⟩ := context.exists_halt?_of_singleton hindex hstops
    exact (Bool.or_eq_true _ _).mpr (.inl (Option.isSome_iff_exists.mpr ⟨halt, hhalt⟩))
  · exact (Bool.or_eq_true _ _).mpr (.inr hdeep)

end Context

/-! ## A document with too many spreads -/

/-- The use of a fragment without directives. -/
def plainSpread (name : String) (line column : Nat) : Selection :=
  .spread ⟨⟨name, ⟨line, column + 3⟩⟩, [], ⟨line, column⟩⟩

/-- The fragment `fragment Big on Query @argumentDefinitions(size: {type: "Int!"}) { ...Z … ...Z }`,
which spreads `Z` 400 times and does not use its argument. -/
def crowdedFragment : Fragment where
  name := ⟨"Big", ⟨1, 10⟩⟩
  typeCondition := ⟨"Query", ⟨1, 17⟩⟩
  directives := [⟨⟨argumentDefinitionsName, ⟨1, 24⟩⟩, [⟨⟨"size", ⟨1, 44⟩⟩,
    .object [(⟨typeKey, ⟨1, 51⟩⟩, .string "Int!" false ⟨1, 57⟩)] ⟨1, 50⟩⟩], ⟨1, 23⟩⟩]
  selections := (List.range 400).map fun index => plainSpread "Z" 1 (68 + 5 * index)
  pos := ⟨1, 1⟩

/-- A name of its own for every number. -/
def unaryName (index : Nat) : String :=
  String.ofList (List.replicate (index + 1) 'a')

/-- The query `{ ...Big ...name }`, on a line of its own. -/
def crowdedQuery (index : Nat) : Operation where
  kind := .query
  name := none
  variableDefinitions := []
  directives := []
  selections := [plainSpread "Big" (index + 2) 3, plainSpread (unaryName index) (index + 2) 10]
  pos := ⟨index + 2, 1⟩

/-- A fragment with many spreads, and many queries that spread it. -/
def crowdedDocument : Document :=
  ⟨.fragment crowdedFragment :: (List.range 138).map fun index => .operation (crowdedQuery index)⟩

/-- Different numbers have different names. -/
theorem unaryName_injective : Function.Injective unaryName := by
  intro index other heq
  have hlength := congrArg (fun name => name.toList.length) heq
  simpa [unaryName] using hlength

/-- The queries for different numbers spread different names. -/
theorem sameNames_crowdedQuery {index other : Nat} (hne : index ≠ other) :
    sameNames (spreadNames (crowdedQuery index).selections)
      (spreadNames (crowdedQuery other).selections) = false := by
  have hother : unaryName index ≠ unaryName other := fun heq => hne (unaryName_injective heq)
  have hbig : unaryName index ≠ "Big" := by
    intro heq
    have hchars := congrArg String.toList heq
    simp [unaryName, List.replicate_succ] at hchars
  have hnames (index : Nat) :
      spreadNames (crowdedQuery index).selections = ["Big", unaryName index] := rfl
  rw [hnames, hnames]
  simp [sameNames, hother, hbig]

/-- The operations of the document are the queries. -/
theorem operations_crowdedDocument :
    crowdedDocument.operations = (List.range 138).map crowdedQuery := by
  rw [crowdedDocument, Document.operations, List.filterMap_cons_none rfl, List.filterMap_map]
  exact congrFun List.filterMap_eq_map _

/-- The only fragment of the document is found by its name. -/
theorem fragment?_crowdedDocument : crowdedDocument.fragment? "Big" = some crowdedFragment := by
  have hnone : (List.range 138).filterMap
      (Definition.fragment? ∘ fun index => .operation (crowdedQuery index)) = [] :=
    List.filterMap_eq_nil_iff.mpr fun _ _ => rfl
  have hfragments : crowdedDocument.fragments = [crowdedFragment] := by
    rw [crowdedDocument, Document.fragments, List.filterMap_cons, List.filterMap_map, hnone]
    rfl
  rw [Document.fragment?, hfragments]
  rfl

/-- Not all queries can be searched. -/
theorem searchAll?_crowdedDocument (schema : Schema) :
    (Context.fresh schema crowdedDocument).searchAll? crowdedDocument.operations = none := by
  rw [operations_crowdedDocument]
  refine Context.searchAll?_eq_none 400 (fun _ _ => rfl) ?_ ?_ (Nat.zero_le _) ?_
  · rw [List.pairwise_map]
    exact List.pairwise_lt_range.imp fun hlt => sameNames_crowdedQuery hlt.ne
  · rw [List.forall_mem_map]
    intro index _
    exact ⟨crowdedFragment, .direct (.here rfl) fragment?_crowdedDocument, by decide +kernel⟩
  · rw [List.length_map, List.length_range]
    exact (by decide : Context.searchLimit < 0 + 400 * 138)

/-- The walk of the document enters the fragment first. -/
theorem walk_crowdedDocument (schema : Schema) :
    ∃ scope rest, crowdedDocument.walk schema =
      .enter ⟨.document crowdedDocument, {}⟩ ::
        .enter ⟨.definition (.fragment crowdedFragment), scope⟩ :: rest := by
  have hdeep : crowdedDocument.isTooDeep = false := by decide +kernel
  rw [Document.walk, hdeep]
  exact ⟨_, _, rfl⟩

/-- The rule for positions gives up its search when it enters the fragment. -/
theorem halt?_crowdedDocument (schema : Schema) :
    (Context.ofDocument schema crowdedDocument).halt?
      [.relay .variablesInAllowedPosition {}, .relay .noUnusedArguments {}] = some ⟨1, 0⟩ := by
  obtain ⟨scope, rest, hwalk⟩ := walk_crowdedDocument schema
  let context := Context.ofDocument schema crowdedDocument
  let start := Context.fresh schema crowdedDocument
  let positions : Rule := variablesInAllowedPosition context
  let rules : List Rule := [positions, noUnusedArguments context]
  have hsearch : start.searchAll? crowdedDocument.operations = none :=
    searchAll?_crowdedDocument schema
  -- nothing is searched for at the document; at the fragment the first rule gives up its search
  have hfirst : Halt.rulesBefore (.enter ⟨.document crowdedDocument, {}⟩) 0 start rules =
      .ok start := rfl
  have hsecond : Halt.rulesBefore (.enter ⟨.definition (.fragment crowdedFragment), scope⟩) 0
      start rules = .error 0 := by
    have hsearches : positions.searches (.enter ⟨.definition (.fragment crowdedFragment), scope⟩) =
        crowdedDocument.operations := rfl
    simp only [rules, Halt.rulesBefore, hsearches, hsearch]
  have hroom : ¬(start.searchAll? crowdedDocument.operations).isSome = true := by
    rw [hsearch]
    exact Bool.false_ne_true
  have hwalks : Halt.ofWalkFrom rules 0 start (crowdedDocument.walk schema) = some ⟨1, 0⟩ := by
    rw [hwalk]
    simp only [Halt.ofWalkFrom, hfirst, hsecond]
  exact (if_neg hroom).trans hwalks

/-! ## Independence -/

/-- Rules for fragment arguments and connections, in any order and with repetitions, find on a
document what each of them finds as the only rule: the findings are an interleaving of parts, one
for each rule, and each part is all that the rule finds alone, in its order, unless a search for the
fragments of operations is given up; then it is the first of that. A rule that stops early alone
stops early among others. One more rule that looks for missing connection directives inserts what it
finds, changes no other finding, and does not stop the others. -/
theorem Context.interleaves_trail (context : Context) (rules : List (RelayRule × Parts)) :
    let trail := fun rules : List (RelayRule × Parts) => context.trail (rules.map RuleName.ofRelay)
    (∃ parts, Interleaves parts (trail rules).findings ∧
      List.Forall₂ (fun rule part => part <+: (trail [rule]).findings ∧
        (context.halt? (rules.map RuleName.ofRelay) = none → part = (trail [rule]).findings))
          rules parts) ∧
    (∀ rule ∈ rules, (trail [rule]).aborted = true → (trail rules).aborted = true) ∧
    ∀ before after parts, rules = before ++ after →
      let more := trail (before ++ (.missingConnectionDirective, parts) :: after)
      more.aborted = (trail rules).aborted ∧
        ∃ inserted, Shuffle inserted (trail rules).findings more.findings ∧
          ∀ finding ∈ inserted, ∃ connection places,
            finding = .relay (.missingConnection connection) places := by
  intro trail
  refine ⟨⟨_, interleaves_sideBySideUntil _ _ _, ?_⟩,
    fun rule hrule halone => context.aborted_of_singleton hrule halone, ?_⟩
  · rw [List.forall₂_iff_get]
    refine ⟨by simp, fun index hindex _ => ?_⟩
    rw [List.get_eq_getElem, List.get_eq_getElem, List.getElem_mapIdx]
    simp only [List.getElem_map]
    exact context.findings_followed_prefix (List.getElem?_eq_getElem hindex)
  · rintro before after parts rfl
    exact context.shuffle_trail_missingConnectionDirective before after parts

/-- A fragment does not use its argument, and needs a size that a query does not see to. Two rules
find this, each its part, and together they find both. -/
theorem Context.interleaves_trail_picture :
    let fragment := { pictureFragment "P" 2 with
      directives := [⟨⟨argumentDefinitionsName, ⟨2, 22⟩⟩, [⟨⟨"width", ⟨2, 42⟩⟩,
        .object [(⟨typeKey, ⟨2, 50⟩⟩, .string "Int" false ⟨2, 56⟩)] ⟨2, 49⟩⟩], ⟨2, 21⟩⟩] }
    let context := Context.ofDocument pictureSchema.withRelayDirectives
      ⟨[.operation (pictureQuery "A" "P" (.named ⟨"Int", ⟨1, 16⟩⟩) 1), .fragment fragment]⟩
    let positions : RelayRule × Parts := (.variablesInAllowedPosition, {})
    let unused : RelayRule × Parts := (.noUnusedArguments, {})
    let found (rules : List (RelayRule × Parts)) : List Finding :=
      (context.trail (rules.map RuleName.ofRelay)).findings
    context.halt? ([positions, unused].map RuleName.ofRelay) = none ∧
      (found [positions]).length = 1 ∧ (found [unused]).length = 1 ∧
        Interleaves [found [positions], found [unused]] (found [positions, unused]) := by
  intro fragment context positions unused found
  have hroom : ((Context.fresh context.schema context.document).searchAll?
      context.document.operations).isSome = true := by cbv
  have hhalt : context.halt? ([positions, unused].map RuleName.ofRelay) = none := if_pos hroom
  have hpositions : (context.trail [.ofRelay positions]).findings.length = 1 := by cbv
  have hunused : (context.trail [.ofRelay unused]).findings.length = 1 := by cbv
  obtain ⟨⟨parts, hinterleaves, hparts⟩, -⟩ := context.interleaves_trail [positions, unused]
  obtain ⟨first, _, ⟨-, hfirst⟩, hrest, rfl⟩ := List.forall₂_cons_left_iff.mp hparts
  obtain ⟨second, _, ⟨-, hsecond⟩, hnil, rfl⟩ := List.forall₂_cons_left_iff.mp hrest
  obtain rfl := List.forall₂_nil_left_iff.mp hnil
  rw [hfirst hhalt, hsecond hhalt] at hinterleaves
  exact ⟨hhalt, hpositions, hunused, hinterleaves⟩

/-- The rule for positions gives up its search when it enters the fragment, and stops the rule that
would find an unused argument there: not all that this rule finds alone is among the findings of
both. -/
theorem not_interleaves_trail_crowdedDocument :
    let context := Context.ofDocument pictureSchema.withRelayDirectives crowdedDocument
    let rules : List (RelayRule × Parts) :=
      [(.variablesInAllowedPosition, {}), (.noUnusedArguments, {})]
    let trail := fun rules : List (RelayRule × Parts) => context.trail (rules.map RuleName.ofRelay)
    ¬∃ parts, Interleaves parts (trail rules).findings ∧
      List.Forall₂ (fun rule part => part = (trail [rule]).findings) rules parts := by
  intro context rules trail
  obtain ⟨scope, rest, hwalk⟩ := walk_crowdedDocument context.schema
  have hnothing : (trail rules).findings = [] := by
    refine (congrArg (sideBySideUntil _ _)
      (halt?_crowdedDocument context.schema)).trans ?_
    rw [sideBySideUntil_eq, show context.document.walk context.schema = _ from hwalk]
    rfl
  have halone : context.halt? ([(.noUnusedArguments, {})].map RuleName.ofRelay) = none := by
    rw [Context.halt?_eq_firstMiss, Halt.firstMiss_eq_none_iff]
    exact fun event _ => List.forall_mem_singleton.mpr (Context.misses_nil _)
  have hfound : ((trail [(.noUnusedArguments, {})]).findings).length = 1 := by
    refine (congrArg List.length (context.findings_trail_singleton _)).trans ?_
    rw [show context.halt? [.ofRelay (.noUnusedArguments, {})] = none from halone]
    decide +kernel
  -- what the second rule finds alone would have to be a part of nothing
  rintro ⟨parts, hinterleaves, hparts⟩
  rw [hnothing] at hinterleaves
  obtain ⟨_, _, -, hrest, rfl⟩ := List.forall₂_cons_left_iff.mp hparts
  obtain ⟨part, _, hpart, -, rfl⟩ := List.forall₂_cons_left_iff.mp hrest
  have hnil : part = [] := hinterleaves.eq_nil part (by simp)
  rw [← hpart, hnil] at hfound
  cases hfound

end RelayCheck
