import RelayCheck.CommandLine
import RelayCheck.Proofs.FragmentArguments.Positions
import RelayCheck.Proofs.Fragments.Nesting
import RelayCheck.Proofs.Validation.Placed
import RelayCheck.Proofs.Validation.Quiet

/-!
# What the program prints

The program prints its diagnostics in order, each with the line and column of its first place. Only
the diagnostic that ends a report early, of which there is at most one, has no place and is printed
without. As long as no message contains a line end, every line of the output is a diagnostic, which
can be read back from it.

The module introduces:

- `Diagnostic.reading`, what is printed of a diagnostic, and `closingDiagnostics`, those without a
  place;
- `readLine` and `readBack`, which read a line and the whole output;
- `conflictSupply`, a rule that is defined elsewhere, as far as an example needs it, and
  `checkPasses`, to check given texts.

The main result is `commandLine_prints`.
-/

namespace RelayCheck

/-! ## Reading a line -/

/-- What is printed of a diagnostic: its first place, if it has one, and its message. -/
def Diagnostic.reading (diagnostic : Diagnostic) : Option Position × String :=
  (diagnostic.places.head?, diagnostic.problem.message)

/-- The number that is written in digits at the start of a text and followed by the given character,
and what comes after that. -/
def readNumber? (stop : Char) (text : List Char) : Option (Nat × List Char) :=
  let digits := text.takeWhile Char.isDigit
  match text.dropWhile Char.isDigit with
  | [] => none
  | c :: rest =>
    if digits.isEmpty || c != stop then none else some (Nat.ofDigitChars 10 digits 0, rest)

/-- The place at the start of a line and the message after it. A line that does not start with a
place is all message. -/
def readLine (line : List Char) : Option Position × String :=
  let located := do
    let (row, rest) ← readNumber? ':' line
    let (column, message) ← readNumber? ' ' rest
    pure (⟨row, column⟩, message)
  match located with
  | some (pos, message) => (some pos, String.ofList message)
  | none => (none, String.ofList line)

/-- A number is read where it is written. -/
theorem readNumber?_repr {stop : Char} (hstop : stop.isDigit = false) (number : Nat)
    (rest : List Char) :
    readNumber? stop (number.repr.toList ++ stop :: rest) = some (number, rest) := by
  rw [Nat.toList_repr]
  have hdigits : ∀ c ∈ Nat.toDigits 10 number, c.isDigit = true := fun c hc =>
    Nat.isDigit_of_mem_toDigits (by decide) (by decide) hc
  have hnumber : (Nat.toDigits 10 number ++ stop :: rest).takeWhile Char.isDigit =
      Nat.toDigits 10 number := by
    rw [List.takeWhile_append_of_pos hdigits, List.takeWhile_cons_of_neg (by simp [hstop]),
      List.append_nil]
  have hafter : (Nat.toDigits 10 number ++ stop :: rest).dropWhile Char.isDigit =
      stop :: rest := by
    rw [List.dropWhile_append_of_pos hdigits, List.dropWhile_cons_of_neg (by simp [hstop])]
  rw [readNumber?, hnumber, hafter]
  simp [Nat.toDigits_ne_nil, Nat.ofDigitChars_ten_toDigits]

/-- A line that starts with a place, as characters. -/
theorem toList_place (pos : Position) (message : String) :
    (s!"{pos.line}:{pos.column} " ++ message).toList =
      pos.line.repr.toList ++ ':' :: (pos.column.repr.toList ++ ' ' :: message.toList) := by
  have hcolon : (toString ":").toList = [':'] := by decide
  have hblank : (toString " ").toList = [' '] := by decide
  simp [hcolon, hblank]

/-- A place and a message are read where they are written. -/
theorem readLine_place (pos : Position) (message : String) :
    readLine (s!"{pos.line}:{pos.column} " ++ message).toList = (some pos, message) := by
  have hplace : readNumber? ':' (s!"{pos.line}:{pos.column} " ++ message).toList =
      some (pos.line, pos.column.repr.toList ++ ' ' :: message.toList) := by
    rw [toList_place, readNumber?_repr (by decide)]
  have hcolumn : readNumber? ' ' (pos.column.repr.toList ++ ' ' :: message.toList) =
      some (pos.column, message.toList) :=
    readNumber?_repr (by decide) _ _
  simp only [readLine, hplace, Option.bind_eq_bind, Option.bind_some, hcolumn, Option.pure_def,
    String.ofList_toList]

/-! ## Reading the output -/

/-- The diagnostics that end a report early. They have no place. -/
def closingDiagnostics : List Diagnostic :=
  [⟨.tooMany, []⟩, ⟨.aborted, []⟩]

/-- A diagnostic is printed with its first place. -/
theorem Diagnostic.line_of_head? {diagnostic : Diagnostic} {pos : Position}
    (h : diagnostic.places.head? = some pos) :
    diagnostic.line = s!"{pos.line}:{pos.column} " ++ diagnostic.problem.message := by
  obtain ⟨problem, places⟩ := diagnostic
  cases places with
  | nil => cases h
  | cons first rest =>
    cases h
    rfl

/-- What is printed of a diagnostic is read from its line, if it has a place or ends a report. -/
theorem readLine_line {diagnostic : Diagnostic}
    (h : diagnostic.places ≠ [] ∨ diagnostic ∈ closingDiagnostics) :
    readLine diagnostic.line.toList = diagnostic.reading := by
  rcases h with hplaced | hclosing
  · obtain ⟨pos, hpos⟩ := Option.isSome_iff_exists.mp (List.isSome_head?.mpr hplaced)
    rw [Diagnostic.line_of_head? hpos, readLine_place, Diagnostic.reading, hpos]
  · rw [closingDiagnostics, List.mem_cons, List.mem_singleton] at hclosing
    -- what ends a report starts with a letter, so that the line is read as a message
    rcases hclosing with rfl | rfl <;> decide +kernel

/-- There is no line end in the line of a diagnostic if there is none in its message. -/
theorem Diagnostic.not_mem_line {diagnostic : Diagnostic}
    (h : '\n' ∉ diagnostic.problem.message.toList) : '\n' ∉ diagnostic.line.toList := by
  have hnumber (number : Nat) : '\n' ∉ number.repr.toList := by
    rw [Nat.toList_repr]
    intro hmem
    have hdigit := Nat.isDigit_of_mem_toDigits (by decide) (by decide) hmem
    revert hdigit
    decide
  cases hplaces : diagnostic.places.head? with
  | none =>
    rw [List.head?_eq_none_iff] at hplaces
    rwa [Diagnostic.line, hplaces]
  | some pos =>
    rw [Diagnostic.line_of_head? hplaces, toList_place]
    simp [-Nat.toList_repr, hnumber, h]

/-- What is read from each line of the output; the last line is not ended and empty. -/
def readBack (output : String) : List (Option Position × String) :=
  (output.toList.splitOn '\n').dropLast.map readLine

/-- If no line of a diagnostic is broken, the output has one line for each. -/
theorem splitOn_printed {diagnostics : List Diagnostic}
    (h : ∀ diagnostic ∈ diagnostics, '\n' ∉ diagnostic.line.toList) :
    (printed diagnostics).toList.splitOn '\n' =
      (diagnostics.map fun diagnostic => diagnostic.line.toList) ++ [[]] := by
  have houtput : (printed diagnostics).toList = ['\n'].intercalate
      ((diagnostics.map fun diagnostic => diagnostic.line.toList) ++ [[]]) := by
    rw [printed, String.toList_join, List.flatMap_map]
    clear h
    -- every line is ended, so that an empty one follows the last
    induction diagnostics with
    | nil => rfl
    | cons diagnostic rest ih =>
      rw [List.map_cons, List.cons_append, List.intercalate_cons_of_ne_nil (by simp), ← ih,
        List.flatMap_cons, String.toList_append]
      rfl
  rw [houtput, List.splitOn_intercalate _ _ (by simp)]
  intro line hline
  rcases List.mem_append.mp hline with hline | hline
  · obtain ⟨diagnostic, hdiagnostic, rfl⟩ := List.mem_map.mp hline
    exact h diagnostic hdiagnostic
  · rw [List.mem_singleton] at hline
    rw [hline]
    exact List.not_mem_nil

/-- What is printed is read back if the output has one line for each diagnostic, and each of them
has a place or ends a report. -/
theorem readBack_printed {diagnostics : List Diagnostic}
    (hlines : (printed diagnostics).toList.splitOn '\n' =
      (diagnostics.map fun diagnostic => diagnostic.line.toList) ++ [[]])
    (h : ∀ diagnostic ∈ diagnostics,
      diagnostic.places ≠ [] ∨ diagnostic ∈ closingDiagnostics) :
    readBack (printed diagnostics) = diagnostics.map Diagnostic.reading := by
  rw [readBack, hlines, List.dropLast_concat, List.map_map]
  exact List.map_congr_left fun diagnostic hdiagnostic => readLine_line (h diagnostic hdiagnostic)

/-! ## Reports -/

/-- A report consists of the first findings, and then of what is said at its end or of the error
that there are too many. -/
theorem exists_limited_eq (atEnd : List Finding) (room : Nat) (findings : List Finding) :
    ∃ reported closing, limited atEnd room findings = reported ++ closing ∧
      reported <+: findings ∧ (closing = atEnd ∨ closing = [.error ⟨.tooMany, []⟩]) := by
  fun_induction limited atEnd room findings with
  | case1 room => exact ⟨[], atEnd, rfl, List.nil_prefix, .inl rfl⟩
  | case2 room warning rest ih | case4 room warning rest ih =>
    obtain ⟨reported, closing, hlimited, hreported, hclosing⟩ := ih
    exact ⟨_ :: reported, closing, by rw [hlimited, List.cons_append],
      List.cons_prefix_cons.mpr ⟨rfl, hreported⟩, hclosing⟩
  | case3 => exact ⟨[], _, rfl, List.nil_prefix, .inr rfl⟩

/-- The errors of a check with the standard rules have places, but for one at the end that ends the
report early, if there is one. -/
theorem Schema.exists_closing_of_check {schema : Schema} {document : Document} {compat : Bool}
    {supply : Supply} {outcome : Outcome}
    (hsupply : supply.FindsPlaced (.ofDocument schema.withRelayDirectives document))
    (hcheck : schema.check document (standardRules compat supply) = .ok outcome) :
    ∃ reported closing, outcome.errors = reported ++ closing ∧
      (∀ diagnostic ∈ reported, diagnostic.places ≠ []) ∧
      (closing = [] ∨ ∃ diagnostic ∈ closingDiagnostics, closing = [diagnostic]) := by
  let trail := (Context.ofDocument schema.withRelayDirectives document).trail
    (standardRules compat supply)
  -- what is reported is an initial part of what the rules find, and the rest ends the report
  obtain ⟨reported, closing, hlimited, hreported, hclosing⟩ := exists_limited_eq
    (if trail.aborted then [.error ⟨.aborted, []⟩] else []) errorLimit trail.findings
  refine ⟨reported.filterMap Finding.diagnostic?, closing.filterMap Finding.diagnostic?, ?_, ?_, ?_⟩
  · rw [Outcome.errors_of_ofTrail hcheck, hlimited, List.filterMap_append]
  · intro diagnostic hdiagnostic
    obtain ⟨finding, hfinding, hfound⟩ := List.mem_filterMap.mp hdiagnostic
    have hplaced := allPlaced_trail compat hsupply finding (hreported.subset hfinding)
    cases finding with
    | warning => cases hfound
    | error other =>
      cases hfound
      exact hplaced
  · rcases hclosing with rfl | rfl
    · split
      · exact .inr ⟨_, List.mem_cons_of_mem _ (List.mem_singleton_self _), rfl⟩
      · exact .inl rfl
    · exact .inr ⟨_, List.mem_cons_self, rfl⟩

/-- A run that gets as far as checking a document prints the errors that the check finds, unless the
check fails. -/
theorem commandLine_of_document {words : List String} {arguments : Arguments}
    {read : String → Option String} {schemaText input : String} {schema : Schema}
    {document : Document} (hwords : Arguments.parse? words = some arguments)
    (hread : read arguments.schemaPath = some schemaText)
    (hschema : Schema.load (normalizeLineEnds schemaText) = .ok schema)
    (hdocument : Document.parse input = .ok document) (supply : Supply) :
    commandLine words read input supply =
      match schema.check document (standardRules arguments.compat supply) with
      | .error fault => .wordless fault
      | .ok outcome => .finished (exitCode outcome.errors) (printed outcome.errors) := by
  have hsource : schema.checkSource input arguments.compat supply =
      (schema.check document (standardRules arguments.compat supply)).mapError .wordless := by
    simp only [Schema.checkSource, hdocument]
  simp only [commandLine, hwords, hread, runChecked, hschema, hsource]
  cases schema.check document (standardRules arguments.compat supply) <;> rfl

/-! ## Rules that are defined elsewhere -/

/-- The fields are returned under one name and given different arguments. -/
def Field.conflictsWith (field other : Field) : Bool :=
  let given (field : Field) := field.arguments.map fun argument =>
    (argument.name.text, argument.value.render)
  field.responseName == other.responseName && given field != given other

/-- What is wrong with each two fields that are given different arguments. -/
def argumentConflicts : List Field → List Finding
  | [] => []
  | field :: rest =>
    let problem : Problem := .supplied (s!"Fields '{field.responseName}' conflict because they have "
      ++ "differing arguments. Use different aliases on the fields to fetch both if this was "
      ++ "intentional.")
    (rest.filter field.conflictsWith).map (fun other => .error ⟨problem, [field.pos, other.pos]⟩)
      ++ argumentConflicts rest

/-- The rule on fields that share a response name, as far as the fields on top of a definition go.
There is no more to it where the document has no others, and these are one field, without selections
and with at most one argument, under one response name. -/
def rootConflicts : Rule :=
  .onEnter fun visit => match visit.node with
    | .definition definition => argumentConflicts <| definition.selections.filterMap fun
      | .field field _ => some field
      | .spread _ | .inlineFragment .. => none
    | _ => []

/-- Supplied with the rule on fields that share a response name. -/
def conflictSupply : Supply where
  rule
    | .overlappingFields, _ => rootConflicts
    | .singleFieldSubscriptions, _ | .introspectionDepth, _ => .silent

/-- Fields that are given different arguments are reported where they stand. -/
theorem allPlaced_argumentConflicts (fields : List Field) :
    AllPlaced (argumentConflicts fields) := by
  induction fields with
  | nil => exact .nil
  | cons field rest ih =>
    exact AllPlaced.append_iff.mpr
      ⟨AllPlaced.map_iff.mpr fun other _ => List.cons_ne_nil _ _, ih⟩

/-- The rule shows where fields conflict. -/
theorem findsPlaced_conflictSupply (context : Context) : conflictSupply.FindsPlaced context := by
  intro rule
  cases rule with
  | overlappingFields =>
    refine Rule.FindsPlaced.allPlaced_findings (.onEnter fun visit => ?_) _
    split
    · exact allPlaced_argumentConflicts _
    · exact .nil
  | singleFieldSubscriptions | introspectionDepth =>
    exact Rule.FindsPlaced.allPlaced_findings .silent _

/-- Whether texts are a schema and a document, and the outcome of the check passes a test. -/
def checkPasses (schemaText input : String) (supply : Supply) (test : Outcome → Bool) : Bool :=
  match Schema.load (normalizeLineEnds schemaText), Document.parse input with
  | .ok schema, .ok document =>
    match schema.check document (standardRules false supply) with
    | .ok outcome => test outcome
    | .error _ => false
  | _, _ => false

/-- A check that passes a test has an outcome that does. -/
theorem exists_of_checkPasses {schemaText input : String} {supply : Supply}
    {test : Outcome → Bool} (h : checkPasses schemaText input supply test = true) :
    ∃ schema document outcome, Schema.load (normalizeLineEnds schemaText) = .ok schema ∧
      Document.parse input = .ok document ∧
      schema.check document (standardRules false supply) = .ok outcome ∧ test outcome = true := by
  rw [checkPasses] at h
  split at h
  next schema document hschema hdocument =>
    split at h
    next outcome houtcome => exact ⟨schema, document, outcome, hschema, hdocument, houtcome, h⟩
    next => cases h
  next => cases h

/-! ## What is printed -/

/-- Take a run that gets as far as checking a document: the words of the command line ask for a
schema that can be read, and the input is a document. The rules that are defined elsewhere may find
anything, in any words, as long as they say where. Unless the check fails, the run ends with the
exit code one if there are diagnostics, and with zero otherwise. It prints the diagnostics in order,
each with the line and column of its first place and its message. Only one that ends the report
early has no place, and is printed without. If no message contains a line end, each line of the
output is one diagnostic, and what is printed of it can be read back. -/
theorem commandLine_prints {words : List String} {arguments : Arguments}
    {read : String → Option String} {schemaText input : String} {schema : Schema}
    {document : Document} {supply : Supply} (hwords : Arguments.parse? words = some arguments)
    (hread : read arguments.schemaPath = some schemaText)
    (hschema : Schema.load (normalizeLineEnds schemaText) = .ok schema)
    (hdocument : Document.parse input = .ok document)
    (hsupply : supply.FindsPlaced (.ofDocument schema.withRelayDirectives document)) :
    match schema.check document (standardRules arguments.compat supply) with
    | .error fault => commandLine words read input supply = .wordless fault
    | .ok outcome =>
      let errors := outcome.errors
      commandLine words read input supply =
          .finished (if errors.isEmpty then 0 else 1) (printed errors) ∧
        (∃ reported closing, errors = reported ++ closing ∧
          (∀ diagnostic ∈ reported, ∃ pos, diagnostic.places.head? = some pos ∧
            diagnostic.line = s!"{pos.line}:{pos.column} " ++ diagnostic.problem.message) ∧
          (closing = [] ∨ ∃ diagnostic ∈ closingDiagnostics, closing = [diagnostic])) ∧
        ((∀ diagnostic ∈ errors, '\n' ∉ diagnostic.problem.message.toList) →
          (printed errors).toList.splitOn '\n' =
              (errors.map fun diagnostic => diagnostic.line.toList) ++ [[]] ∧
            readBack (printed errors) = errors.map Diagnostic.reading) := by
  have hrun := commandLine_of_document hwords hread hschema hdocument supply
  cases hcheck : schema.check document (standardRules arguments.compat supply) with
  | error fault => rw [hrun, hcheck]
  | ok outcome =>
    rw [hcheck] at hrun
    obtain ⟨reported, closing, herrors, hplaced, hclosing⟩ :=
      Schema.exists_closing_of_check hsupply hcheck
    refine ⟨hrun, ⟨reported, closing, herrors, fun diagnostic hdiagnostic => ?_, hclosing⟩,
      fun hunbroken => ?_⟩
    · obtain ⟨pos, hpos⟩ :=
        Option.isSome_iff_exists.mp (List.isSome_head?.mpr (hplaced diagnostic hdiagnostic))
      exact ⟨pos, hpos, Diagnostic.line_of_head? hpos⟩
    · have hlines := splitOn_printed fun diagnostic hdiagnostic =>
        Diagnostic.not_mem_line (hunbroken diagnostic hdiagnostic)
      refine ⟨hlines, readBack_printed hlines fun diagnostic hdiagnostic => ?_⟩
      rw [herrors, List.mem_append] at hdiagnostic
      refine hdiagnostic.imp (hplaced diagnostic) fun hlast => ?_
      -- what comes last has no place, but is known
      rcases hclosing with rfl | ⟨last, hlastClosing, rfl⟩
      · cases hlast
      · exact List.mem_singleton.mp hlast ▸ hlastClosing

/-- A fragment that is not used returns a picture in two sizes under one name, and spreads one that
is not defined. The rule on fields that share a response name finds the first of this, and other
rules find the rest. The program prints three lines, from which all diagnostics are read. -/
theorem commandLine_prints_conflict :
    let schemaText := "type Query \x7b picture(small: Boolean!): Int \x7d"
    let input :=
      "fragment F on Query \x7b a: picture(small: true) a: picture(small: false) ...G \x7d"
    let conflict := "Fields 'a' conflict because they have differing arguments. Use different " ++
      "aliases on the fields to fetch both if this was intentional."
    let output := "1:23 " ++ conflict ++ "\n1:75 Unknown fragment 'G'.\n" ++
      "1:1 Fragment 'F' is never used.\n"
    commandLine ["schema.graphql"] (fun _ => some schemaText) input conflictSupply =
        .finished 1 output ∧
      readBack output = [(some ⟨1, 23⟩, conflict), (some ⟨1, 75⟩, "Unknown fragment 'G'."),
        (some ⟨1, 1⟩, "Fragment 'F' is never used.")] ∧
      ∃ schema document outcome, Schema.load (normalizeLineEnds schemaText) = .ok schema ∧
        Document.parse input = .ok document ∧
        conflictSupply.FindsPlaced (.ofDocument schema.withRelayDirectives document) ∧
        schema.check document (standardRules false conflictSupply) = .ok outcome ∧
        readBack output = outcome.errors.map Diagnostic.reading := by
  intro schemaText input conflict output
  -- the check is evaluated once, and the general result says what the run makes of its outcome
  have hpasses : checkPasses schemaText input conflictSupply (fun outcome =>
      decide (printed outcome.errors = output) && !outcome.errors.isEmpty &&
        outcome.errors.all fun diagnostic =>
          !diagnostic.problem.message.toList.contains '\n') = true := by decide +kernel
  obtain ⟨schema, document, outcome, hschema, hdocument, hcheck, htest⟩ :=
    exists_of_checkPasses hpasses
  simp only [Bool.and_eq_true, decide_eq_true_eq, Bool.not_eq_true', List.all_eq_true] at htest
  obtain ⟨⟨houtput, herrors⟩, hunbroken⟩ := htest
  have hwords : Arguments.parse? ["schema.graphql"] = some ⟨"schema.graphql", false⟩ := by
    decide +kernel
  have hsupply := findsPlaced_conflictSupply (.ofDocument schema.withRelayDirectives document)
  have hprints := @commandLine_prints ["schema.graphql"] _ (fun _ => some schemaText)
    schemaText input schema document conflictSupply hwords rfl hschema hdocument hsupply
  rw [hcheck] at hprints
  obtain ⟨hfinished, -, hread⟩ := hprints
  rw [houtput, herrors] at hfinished
  have hreadings := (hread fun diagnostic hdiagnostic => by
    simpa using hunbroken diagnostic hdiagnostic).2
  rw [houtput] at hreadings
  exact ⟨hfinished, by decide +kernel, schema, document, outcome, hschema, hdocument, hsupply,
    hcheck, hreadings⟩

/-- Not every diagnostic is printed on a line of its own that starts with a place. Where a spread
leads too deep, the one diagnostic says so without a place. Where the type of an argument ends in a
line end after a backslash, its syntax error contains the line end, and two diagnostics take three
lines. -/
theorem not_printed_on_placed_lines :
    let schemaText := "type Query \x7b picture(size: Int): Int \x7d"
    let input := "fragment P on Query @argumentDefinitions(size: \x7btype: \"\\\"\\\\\\n\"\x7d) " ++
      "\x7b picture(size: $size) \x7d"
    let output := "1:55 Syntax Error: Invalid character escape sequence: '\\\n'.\n" ++
      "1:1 Fragment 'P' is never used.\n"
    (∃ outcome, pictureSchema.check nestedFragments (standardRules false) = .ok outcome ∧
      outcome.errors.length = 1 ∧ printed outcome.errors = "Validation aborted.\n" ∧
      ¬∃ (pos : Position) (message : String),
        "Validation aborted." = s!"{pos.line}:{pos.column} " ++ message) ∧
    ∃ schema document outcome, Schema.load (normalizeLineEnds schemaText) = .ok schema ∧
      Document.parse input = .ok document ∧
      schema.check document (standardRules false) = .ok outcome ∧ outcome.errors.length = 2 ∧
      printed outcome.errors = output ∧ (output.toList.splitOn '\n').length = 3 + 1 := by
  intro schemaText input output
  constructor
  · have hcheck : (match pictureSchema.check nestedFragments (standardRules false) with
        | .ok outcome =>
          decide (outcome.errors.length = 1) &&
            decide (printed outcome.errors = "Validation aborted.\n")
        | .error _ => false) = true := by decide +kernel
    split at hcheck
    next outcome houtcome =>
      simp only [Bool.and_eq_true, decide_eq_true_eq] at hcheck
      refine ⟨outcome, houtcome, hcheck.1, hcheck.2, ?_⟩
      rintro ⟨pos, message, hline⟩
      -- a place would be read from the line, and none is
      have hread := readLine_place pos message
      rw [← hline] at hread
      have hnone : (readLine "Validation aborted.".toList).1 = none := by decide +kernel
      rw [hread] at hnone
      cases hnone
    next => cases hcheck
  · have hpasses : checkPasses schemaText input {} (fun outcome =>
        decide (outcome.errors.length = 2) && decide (printed outcome.errors = output)) = true := by
      decide +kernel
    obtain ⟨schema, document, outcome, hschema, hdocument, hcheck, htest⟩ :=
      exists_of_checkPasses hpasses
    simp only [Bool.and_eq_true, decide_eq_true_eq] at htest
    exact ⟨schema, document, outcome, hschema, hdocument, hcheck, htest.1, htest.2,
      by decide +kernel⟩

end RelayCheck
