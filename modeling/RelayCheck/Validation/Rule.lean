import RelayCheck.Validation.Context
import RelayCheck.Validation.Problem
import RelayCheck.Validation.Traversal

/-!
# Rules and what they find

A rule follows the walk of a document. At every event it may find problems, and it may keep a
state of its own, which no other rule sees. Rules that run side by side therefore find what each
of them finds alone; only the order of the findings is that of the walk. At some events a rule
looks for the fragments of operations first, and if that takes too much all rules stop there.

This module introduces:

- `Finding`, an error with its places or a warning;
- `Rule`, with `Rule.trace`, what it finds at each event, and the constructions of rules that
  keep no state;
- `sideBySide`, the findings of several rules, and `limited`, which stops at a number of errors;
- `Halt`, where rules stop early, and `sideBySideUntil`, their findings up to there.
-/

namespace RelayCheck

/-! ## Findings -/

/-- A problem and the places it shows at. -/
structure Diagnostic where
  /-- The problem. -/
  problem : Problem
  /-- The positions of the nodes involved. -/
  places : List Position

/-- What a rule reports. -/
inductive Finding
  /-- A rule is broken. -/
  | error (diagnostic : Diagnostic)
  /-- Something is odd. -/
  | warning (warning : Warning)

namespace Finding

/-- A breach of the rules that hold for all documents. -/
def language (problem : LanguageProblem) (places : List Position) : Finding :=
  .error ⟨.language problem, places⟩

/-- A breach of the rules for fragment arguments and connections. -/
def relay (problem : RelayProblem) (places : List Position) : Finding :=
  .error ⟨.relay problem, places⟩

/-- The error that a finding is, if it is one. -/
def diagnostic? : Finding → Option Diagnostic
  | error diagnostic => some diagnostic
  | warning _ => none

/-- The warning that a finding is, if it is one. -/
def warning? : Finding → Option Warning
  | error _ => none
  | warning w => some w

end Finding

/-! ## Rules -/

/-- A rule: what it finds at each event of a walk, and the state it keeps between them. -/
structure Rule where
  /-- What the rule remembers. -/
  State : Type
  /-- What it remembers before the walk. -/
  start : State
  /-- What it finds at an event, and what it remembers after it. -/
  step : State → Event → List Finding × State
  /-- The operations whose fragments it looks for at an event before it finds anything. -/
  searches : Event → List Operation := fun _ => []

namespace Rule

/-- The findings at each event of a walk that goes on in the given state. -/
def traceFrom (rule : Rule) (state : rule.State) : List Event → List (List Finding)
  | [] => []
  | event :: rest =>
    let (found, next) := rule.step state event
    found :: rule.traceFrom next rest

/-- The findings at each event of a walk. -/
def trace (rule : Rule) (events : List Event) : List (List Finding) :=
  rule.traceFrom rule.start events

/-- All findings of a walk, in order. -/
def findings (rule : Rule) (events : List Event) : List Finding :=
  (rule.trace events).flatten

/-- The rule that looks at each event alone. -/
def ofEvent (look : Event → List Finding) : Rule where
  State := Unit
  start := ()
  step _ event := (look event, ())

/-- The rule that looks at each node alone, when it is entered. -/
def onEnter (look : Visit → List Finding) : Rule :=
  ofEvent fun
    | .enter visit => look visit
    | .leave _ => []

/-- The rule that looks at each node alone, when it is left. -/
def onLeave (look : Visit → List Finding) : Rule :=
  ofEvent fun
    | .enter _ => []
    | .leave visit => look visit

/-- The rule that looks at each node when it is entered, and remembers what it has seen. -/
def remembering {σ : Type} (start : σ) (look : σ → Visit → List Finding × σ) : Rule where
  State := σ
  start := start
  step
    | state, .enter visit => look state visit
    | state, .leave _ => ([], state)

/-- The rule that looks for the fragments of operations before it finds the same. -/
def searching (rule : Rule) (searches : Event → List Operation) : Rule :=
  { rule with searches }

/-- A rule that finds nothing. -/
def silent : Rule :=
  ofEvent fun _ => []

/-- A trace has an entry for every event. -/
@[simp]
theorem length_traceFrom (rule : Rule) (state : rule.State) (events : List Event) :
    (rule.traceFrom state events).length = events.length := by
  induction events generalizing state with
  | nil => rfl
  | cons event rest ih => simp [traceFrom, ih]

/-- What a rule looks for does not change what it finds. -/
@[simp]
theorem trace_searching (rule : Rule) (searches : Event → List Operation) (events : List Event) :
    (rule.searching searches).trace events = rule.trace events := by
  have (state : rule.State) :
      (rule.searching searches).traceFrom state events = rule.traceFrom state events := by
    induction events generalizing state with
    | nil => rfl
    | cons event rest ih => exact congrArg (List.cons _) (ih _)
  exact this rule.start

/-- A rule that looks at each event alone finds at each event what it finds there. -/
@[simp]
theorem trace_ofEvent (look : Event → List Finding) (events : List Event) :
    (ofEvent look).trace events = events.map look := by
  have (state : Unit) : (ofEvent look).traceFrom state events = events.map look := by
    induction events generalizing state with
    | nil => rfl
    | cons event rest ih =>
      show look event :: (ofEvent look).traceFrom () rest = _
      rw [ih]
      rfl
  exact this ()

/-- A rule that looks at each event alone finds on a walk what it finds at its events. -/
@[simp]
theorem findings_ofEvent (look : Event → List Finding) (events : List Event) :
    (ofEvent look).findings events = events.flatMap look := by
  simp [findings, List.flatMap]

end Rule

/-! ## Rules side by side -/

/-- The findings of several rules at each event, those of earlier rules first. -/
def traceAll (rules : List Rule) (events : List Event) : List (List Finding) :=
  rules.foldr (fun rule later => List.zipWith (· ++ ·) (rule.trace events) later)
    (events.map fun _ => [])

/-- The findings of several rules that follow one walk. -/
def sideBySide (rules : List Rule) (events : List Event) : List Finding :=
  (traceAll rules events).flatten

/-- The number of errors after which no more are reported. -/
def errorLimit : Nat := 100

/-- The findings up to the one that would exceed the given number of errors, which is replaced by
a last error that says so. If there is no such error, what is found at the end follows. -/
def limited (atEnd : List Finding) : (room : Nat) → List Finding → List Finding
  | _, [] => atEnd
  | room, .warning warning :: rest => .warning warning :: limited atEnd room rest
  | 0, .error _ :: _ => [.error ⟨.tooMany, []⟩]
  | room + 1, .error diagnostic :: rest => .error diagnostic :: limited atEnd room rest

/-! ## Stopping early -/

/-- Where rules that follow a walk stop early: at an event, before one of the rules. -/
structure Halt where
  /-- The number of events that all rules have followed. -/
  events : Nat
  /-- The number of rules that have followed one event more. -/
  rules : Nat
deriving DecidableEq

namespace Halt

/-- The number of rules that follow an event before one of them gives up its search; the context
after the searches of all rules if none does. -/
def rulesBefore (event : Event) : (done : Nat) → Context → List Rule → Except Nat Context
  | _, context, [] => .ok context
  | done, context, rule :: rest =>
    match context.searchAll? (rule.searches event) with
    | some next => rulesBefore event (done + 1) next rest
    | none => .error done

/-- Where rules give up a search on a walk that goes on, if one of them does. -/
def ofWalkFrom (rules : List Rule) : (done : Nat) → Context → List Event → Option Halt
  | _, _, [] => none
  | done, context, event :: rest =>
    match rulesBefore event 0 context rules with
    | .ok next => ofWalkFrom rules (done + 1) next rest
    | .error before => some ⟨done, before⟩

/-- Where rules give up a search on a walk, if one of them does. Nothing was looked for before the
walk. No search is given up if there is room for the searches of all operations. -/
def ofWalk? (context : Context) (rules : List Rule) (events : List Event) : Option Halt :=
  let start := Context.fresh context.schema context.document
  if (start.searchAll? context.document.operations).isSome then none
  else ofWalkFrom rules 0 start events

end Halt

/-- The findings of several rules that follow one walk up to a halt, if there is one. -/
def sideBySideUntil (rules : List Rule) (events : List Event) : Option Halt → List Finding
  | none => sideBySide rules events
  | some halt =>
    sideBySide rules (events.take halt.events)
      ++ ((traceAll (rules.take halt.rules) events)[halt.events]?).getD []

end RelayCheck
