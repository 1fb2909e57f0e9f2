import RelayCheck.Proofs.Validation.Run
import Mathlib.Data.List.Infix

/-!
# What rules find side by side

Rules that follow one walk find at each event what the first of them finds there, then what the
second finds, and so on. All findings together are therefore those of the rules, each in its order,
shuffled. Where the rules stop early, some of them have followed one event more than the others.

The module introduces:

- `Shuffle` and `Interleaves`, the lists that are made of two lists, or of many, each in its order;
- `Rule.findingsAt`, what a rule finds at one event;
- `Halt.followed`, the events that a rule follows up to a halt.

The main results are `interleaves_sideBySideUntil` and `shuffle_sideBySideUntil`.
-/

namespace RelayCheck

variable {α : Type}

/-! ## Shuffled lists -/

/-- The last list is made of the items of the other two, each in its order. -/
inductive Shuffle : List α → List α → List α → Prop
  /-- Nothing is left of either list. -/
  | nil : Shuffle [] [] []
  /-- The next item is from the first list. -/
  | left {first second whole : List α} (item : α) :
      Shuffle first second whole → Shuffle (item :: first) second (item :: whole)
  /-- The next item is from the second list. -/
  | right {first second whole : List α} (item : α) :
      Shuffle first second whole → Shuffle first (item :: second) (item :: whole)

/-- The last list is made of the items of the parts, each in its order. -/
inductive Interleaves : List (List α) → List α → Prop
  /-- Without parts there are no items. -/
  | nil : Interleaves [] []
  /-- The items of one part are shuffled with those of the others. -/
  | cons {part rest whole : List α} {parts : List (List α)} :
      Shuffle part rest whole → Interleaves parts rest → Interleaves (part :: parts) whole

namespace Shuffle

variable {first second whole : List α}

/-- A list may be shuffled with nothing. -/
theorem nil_left : ∀ items : List α, Shuffle [] items items
  | [] => .nil
  | item :: rest => .right item (nil_left rest)

/-- One list after the other is a way to shuffle them. -/
theorem concat : ∀ first second : List α, Shuffle first second (first ++ second)
  | [], second => nil_left second
  | item :: rest, second => .left item (concat rest second)

/-- A list that is shuffled with nothing stays as it is. -/
theorem eq_of_nil_right (h : Shuffle first [] whole) : whole = first := by
  generalize hsecond : ([] : List α) = second at h
  induction h with
  | nil => rfl
  | left item _ ih => rw [ih hsecond]
  | right => cases hsecond

/-- Lists may be shuffled one part after the other. -/
theorem append (h : Shuffle first second whole) {nextFirst nextSecond nextWhole : List α}
    (hnext : Shuffle nextFirst nextSecond nextWhole) :
    Shuffle (first ++ nextFirst) (second ++ nextSecond) (whole ++ nextWhole) := by
  induction h with
  | nil => exact hnext
  | left item _ ih => exact .left item ih
  | right item _ ih => exact .right item ih

/-- A list may be put inside another. -/
theorem insert (before inserted after : List α) :
    Shuffle inserted (before ++ after) (before ++ inserted ++ after) := by
  rw [List.append_assoc]
  exact (nil_left before).append (concat inserted after)

/-- Lists that come item by item from given ones are shuffled if these are at each item. -/
theorem flatMap {β : Type} {first second whole : β → List α}
    (h : ∀ item, Shuffle (first item) (second item) (whole item)) :
    ∀ items : List β, Shuffle (items.flatMap first) (items.flatMap second) (items.flatMap whole)
  | [] => .nil
  | item :: rest => (h item).append (flatMap h rest)

end Shuffle

/-- If nothing is interleaved, all parts are empty. -/
theorem Interleaves.eq_nil {parts : List (List α)} (h : Interleaves parts []) :
    ∀ part ∈ parts, part = [] := by
  generalize hwhole : ([] : List α) = whole at h
  induction h with
  | nil => exact List.forall_mem_nil _
  | cons hshuffle _ ih =>
    subst hwhole
    cases hshuffle
    exact List.forall_mem_cons.mpr ⟨rfl, ih rfl⟩

/-! ## Findings event by event -/

/-- The items of the first lists are those at each index. -/
theorem flatten_take_eq_flatMap_range (lists : List (List α)) (count : Nat) :
    (lists.take count).flatten = (List.range count).flatMap fun index => lists[index]?.getD [] := by
  induction count with
  | zero => rfl
  | succ count ih =>
    rw [List.take_add_one, List.flatten_append, ih, List.range_succ, List.flatMap_append,
      List.flatMap_singleton]
    cases lists[count]? with
    | none => rfl
    | some list => exact congrArg _ (List.append_nil list)

namespace Rule

/-- What the rule finds at the event of the given index. -/
def findingsAt (rule : Rule) (events : List Event) (index : Nat) : List Finding :=
  (rule.trace events)[index]?.getD []

/-- On the first events of a walk, a rule finds what it finds there on the whole walk. -/
theorem trace_take (rule : Rule) (events : List Event) (count : Nat) :
    rule.trace (events.take count) = (rule.trace events).take count := by
  have (state : rule.State) : rule.traceFrom state (events.take count) =
      (rule.traceFrom state events).take count := by
    induction events generalizing state count with
    | nil => simp [traceFrom]
    | cons event rest ih =>
      cases count with
      | zero => rfl
      | succ count => exact congrArg (List.cons _) (ih count _)
  exact this rule.start

/-- The findings on the first events of a walk are those at each of them. -/
theorem findings_take (rule : Rule) (events : List Event) (count : Nat) :
    rule.findings (events.take count) = (List.range count).flatMap (rule.findingsAt events) := by
  rw [findings, trace_take, flatten_take_eq_flatMap_range]
  rfl

/-- The findings on a walk are those at each event. -/
theorem findings_eq (rule : Rule) (events : List Event) :
    rule.findings events = (List.range events.length).flatMap (rule.findingsAt events) := by
  rw [← findings_take, List.take_length]

/-- What a rule finds at an event is among what it finds. -/
theorem findingsAt_subset (rule : Rule) (events : List Event) (index : Nat) :
    rule.findingsAt events index ⊆ rule.findings events := by
  intro finding hfinding
  rw [findingsAt] at hfinding
  cases hentry : (rule.trace events)[index]? with
  | none =>
    rw [hentry] at hfinding
    cases hfinding
  | some found =>
    rw [hentry] at hfinding
    exact List.mem_flatten_of_mem (List.mem_of_getElem? hentry) hfinding

/-- What a rule finds on the first events of a walk is the first of what it finds. -/
theorem findings_prefix (rule : Rule) {first events : List Event} (h : first <+: events) :
    rule.findings first <+: rule.findings events := by
  rw [List.prefix_iff_eq_take.mp h, findings, findings, trace_take]
  exact List.IsPrefix.flatten (List.take_prefix _ _)

end Rule

section SideBySide

variable {events : List Event}

/-- At every event of a walk there is an entry in the trace of a rule. -/
theorem Rule.getElem?_trace (rule : Rule) (events : List Event) (index : Nat) :
    (rule.trace events)[index]? = events[index]?.map fun _ => rule.findingsAt events index := by
  have hlength : (rule.trace events).length = events.length := rule.length_traceFrom _ events
  rw [findingsAt]
  cases hevent : events[index]? with
  | none =>
    rw [List.getElem?_eq_none_iff] at hevent
    rw [Option.map_none, List.getElem?_eq_none_iff, hlength]
    exact hevent
  | some event =>
    obtain ⟨hindex, -⟩ := List.getElem?_eq_some_iff.mp hevent
    rw [List.getElem?_eq_getElem (hlength ▸ hindex), Option.map_some, Option.getD_some]

/-- The first rule is followed by the others at every event. -/
theorem traceAll_cons (rule : Rule) (rules : List Rule) (events : List Event) :
    traceAll (rule :: rules) events =
      List.zipWith (· ++ ·) (rule.trace events) (traceAll rules events) := rfl

/-- At an event, several rules find what each of them finds there. -/
theorem getD_traceAll (rules : List Rule) (events : List Event) (index : Nat) :
    (traceAll rules events)[index]?.getD [] =
      rules.flatMap fun rule => rule.findingsAt events index := by
  -- each rule adds what it finds at the event, if there is one
  have hentry : (traceAll rules events)[index]? =
      events[index]?.map fun _ => rules.flatMap fun rule => rule.findingsAt events index := by
    induction rules with
    | nil => exact List.getElem?_map
    | cons rule rest ih =>
      rw [traceAll_cons, List.getElem?_zipWith, rule.getElem?_trace, ih]
      cases events[index]? with
      | none => rfl
      | some event => rfl
  rw [hentry]
  cases hevent : events[index]? with
  | none =>
    refine (List.flatMap_eq_nil_iff.mpr fun rule _ => ?_).symm
    rw [Rule.findingsAt, rule.getElem?_trace, hevent]
    rfl
  | some event => rfl

/-- On the first events of a walk, rules find what they find there on the whole walk. -/
theorem traceAll_take (rules : List Rule) (events : List Event) (count : Nat) :
    traceAll rules (events.take count) = (traceAll rules events).take count := by
  induction rules with
  | nil => exact List.map_take
  | cons rule rest ih => rw [traceAll_cons, traceAll_cons, rule.trace_take, ih, List.take_zipWith]

/-- The findings of several rules on the first events of a walk are those of each rule at each of
them. -/
theorem sideBySide_take (rules : List Rule) (events : List Event) (count : Nat) :
    sideBySide rules (events.take count) =
      (List.range count).flatMap fun index =>
        rules.flatMap fun rule => rule.findingsAt events index := by
  rw [sideBySide, traceAll_take, flatten_take_eq_flatMap_range]
  exact List.flatMap_congr fun index _ => getD_traceAll rules events index

/-- The findings of several rules on a walk are those of each rule at each event. -/
theorem sideBySide_eq (rules : List Rule) (events : List Event) :
    sideBySide rules events =
      (List.range events.length).flatMap fun index =>
        rules.flatMap fun rule => rule.findingsAt events index := by
  rw [← sideBySide_take, List.take_length]

/-! ## Rules that stop early -/

namespace Halt

/-- The number of events that the rule of the given index follows up to a halt. -/
def count (halt : Halt) (index : Nat) : Nat :=
  if index < halt.rules then halt.events + 1 else halt.events

/-- The events that the rule of the given index follows up to a halt, if there is one. -/
def followed (events : List Event) (index : Nat) : Option Halt → List Event
  | none => events
  | some halt => events.take (halt.count index)

/-- The events that a rule follows are the first ones. -/
theorem isPrefix_followed (events : List Event) (index : Nat) (halt : Option Halt) :
    followed events index halt <+: events := by
  cases halt with
  | none => exact List.prefix_refl _
  | some halt => exact List.take_prefix _ _

/-- The same halt for all rules but the one of the given index. -/
def without (halt : Halt) (index : Nat) : Halt :=
  if index < halt.rules then ⟨halt.events, halt.rules - 1⟩ else halt

end Halt

/-- The findings of rules up to a halt are those at the events that all of them follow, and those of
the first rules at one event more. -/
theorem sideBySideUntil_eq (rules : List Rule) (events : List Event) (halt : Halt) :
    sideBySideUntil rules events (some halt) =
      (List.range halt.events).flatMap (fun index =>
        rules.flatMap fun rule => rule.findingsAt events index) ++
          (rules.take halt.rules).flatMap fun rule => rule.findingsAt events halt.events := by
  rw [sideBySideUntil, sideBySide_take, getD_traceAll]

/-- What several rules find, one of them finds. -/
theorem mem_findings_of_mem_sideBySide {rules : List Rule} {events : List Event} {finding : Finding}
    (h : finding ∈ sideBySide rules events) : ∃ rule ∈ rules, finding ∈ rule.findings events := by
  rw [sideBySide_eq] at h
  obtain ⟨index, -, h⟩ := List.mem_flatMap.mp h
  obtain ⟨rule, hrule, hfound⟩ := List.mem_flatMap.mp h
  exact ⟨rule, hrule, rule.findingsAt_subset events index hfound⟩

/-- What several rules find up to a halt, one of them finds. -/
theorem mem_findings_of_mem_sideBySideUntil {rules : List Rule} {events : List Event}
    {halt : Option Halt} {finding : Finding} (h : finding ∈ sideBySideUntil rules events halt) :
    ∃ rule ∈ rules, finding ∈ rule.findings events := by
  cases halt with
  | none => exact mem_findings_of_mem_sideBySide h
  | some halt =>
    rw [sideBySideUntil, getD_traceAll] at h
    rcases List.mem_append.mp h with h | h
    · -- what is found at the events that all rules follow is found on a part of the walk
      obtain ⟨rule, hrule, hfound⟩ := mem_findings_of_mem_sideBySide h
      exact ⟨rule, hrule, (rule.findings_prefix (List.take_prefix _ _)).subset hfound⟩
    · obtain ⟨rule, hrule, hfound⟩ := List.mem_flatMap.mp h
      exact ⟨rule, List.mem_of_mem_take hrule, rule.findingsAt_subset events _ hfound⟩

/-- The findings of one of several rules are shuffled with those of the others. -/
theorem shuffle_sideBySideUntil (before after : List Rule) (rule : Rule) (events : List Event)
    (halt : Option Halt) :
    Shuffle (rule.findings (Halt.followed events before.length halt))
      (sideBySideUntil (before ++ after) events (halt.map fun halt => halt.without before.length))
      (sideBySideUntil (before ++ rule :: after) events halt) := by
  have hat (index : Nat) : Shuffle (rule.findingsAt events index)
      ((before ++ after).flatMap fun rule => rule.findingsAt events index)
      ((before ++ rule :: after).flatMap fun rule => rule.findingsAt events index) := by
    rw [List.flatMap_append, List.flatMap_append, List.flatMap_cons, ← List.append_assoc]
    exact Shuffle.insert _ _ _
  have hrange (count : Nat) := Shuffle.flatMap hat (List.range count)
  cases halt with
  | none =>
    rw [Option.map_none, sideBySideUntil, sideBySideUntil, sideBySide_eq, sideBySide_eq,
      Halt.followed, Rule.findings_eq]
    exact hrange events.length
  | some halt =>
    obtain ⟨count, ahead⟩ := halt
    rw [Option.map_some, sideBySideUntil_eq, sideBySideUntil_eq, Halt.followed, Rule.findings_take,
      Halt.count, Halt.without]
    split
    next hahead =>
      -- the rule follows one event more, between the rules that do so before and after it
      obtain ⟨more, rfl⟩ := Nat.exists_eq_add_of_lt hahead
      rw [List.range_succ, List.flatMap_append, List.flatMap_singleton]
      refine (hrange count).append ?_
      rw [Nat.add_sub_cancel, List.take_length_add_append, Nat.add_assoc,
        List.take_length_add_append, List.take_succ_cons, List.flatMap_append, List.flatMap_append,
        List.flatMap_cons, ← List.append_assoc]
      exact Shuffle.insert _ _ _
    next hahead =>
      rw [Nat.not_lt] at hahead
      rw [List.take_append_of_le_length hahead, List.take_append_of_le_length hahead,
        ← List.append_nil (List.flatMap (rule.findingsAt events) _)]
      exact (hrange count).append (.nil_left _)

/-- Without rules there are no findings. -/
theorem sideBySideUntil_nil (events : List Event) (halt : Option Halt) :
    sideBySideUntil [] events halt = [] := by
  cases halt with
  | none => simp [sideBySideUntil, sideBySide_eq]
  | some halt => simp [sideBySideUntil_eq]

/-- A single rule finds what there is on the events that it follows. -/
theorem sideBySideUntil_singleton (rule : Rule) (events : List Event) (halt : Option Halt) :
    sideBySideUntil [rule] events halt = rule.findings (Halt.followed events 0 halt) := by
  have hshuffle := shuffle_sideBySideUntil [] [] rule events halt
  rw [List.append_nil, sideBySideUntil_nil] at hshuffle
  exact hshuffle.eq_of_nil_right

/-- Without the first rule, every other rule follows the same events under an index less. -/
theorem Halt.followed_succ (events : List Event) (index : Nat) (halt : Option Halt) :
    followed events (index + 1) halt =
      followed events index (halt.map fun halt => halt.without 0) := by
  cases halt with
  | none => rfl
  | some halt =>
    obtain ⟨count, ahead⟩ := halt
    cases ahead with
    | zero => rfl
    | succ ahead => simp [followed, Halt.count, without]

/-- The findings of several rules are interleaved: those of each rule on the events that it
follows. -/
theorem interleaves_sideBySideUntil (rules : List Rule) (events : List Event)
    (halt : Option Halt) :
    Interleaves (rules.mapIdx fun index rule => rule.findings (Halt.followed events index halt))
      (sideBySideUntil rules events halt) := by
  induction rules generalizing halt with
  | nil =>
    rw [sideBySideUntil_nil]
    exact .nil
  | cons rule rest ih =>
    rw [List.mapIdx_cons]
    refine .cons (shuffle_sideBySideUntil [] rest rule events halt) ?_
    simp only [Halt.followed_succ]
    exact ih _

end SideBySide

end RelayCheck
