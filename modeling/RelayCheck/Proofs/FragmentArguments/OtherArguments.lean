import RelayCheck.Proofs.FragmentArguments.Metadata

/-!
# Arguments that are not of fragments

The rule for names of arguments judges directives that declare or give arguments of fragments by
itself, and leaves everything else to the rule of the language. Where the walk enters one of these
directives, each of the two rules finds something of its own. At every other event they find the
same. So, apart from what they find about these directives, they find the same in the same order.

The module introduces:

- `Directive.isForArguments`, whether a directive declares or gives arguments of fragments;
- `Finding.isOfFragments` and `Finding.isOfParameters`, what the two rules find about such
  directives.

The main result is `Context.findings_of_otherArguments`.
-/

namespace RelayCheck

/-! ## What is about arguments of fragments -/

/-- Whether a directive declares or gives arguments of fragments. -/
def Directive.isForArguments (directive : Directive) : Bool :=
  directive.name.text == argumentDefinitionsName || directive.name.text == argumentsName

/-- Whether a directive that declares or gives arguments of fragments is entered. -/
def Event.isForArguments (event : Event) : Bool :=
  event.directive?.any fun use => use.directive.isForArguments

/-- Whether something is found by the rules for fragment arguments, and not by those of the
language. -/
def Finding.isOfFragments : Finding → Bool
  | .error ⟨.relay _, _⟩ | .warning _ => true
  | .error _ => false

/-- Whether a rule of the language finds that a directive that declares or gives arguments of
fragments does not take an argument. -/
def Finding.isOfParameters : Finding → Bool
  | .error ⟨.language (.unknownDirectiveArgument _ directive _), _⟩ =>
    directive == argumentDefinitionsName || directive == argumentsName
  | _ => false

section Findings

variable {context : Context} {suggest : Suggest} {use : DirectiveUse} {finding : Finding}

/-- What is wrong with a directive that gives arguments is about arguments of fragments. -/
theorem isOfFragments_of_mem_bindingFindings {schema : Schema} {fragment : Fragment}
    {spread : Spread} {directive : Directive}
    (h : finding ∈ bindingFindings suggest schema fragment spread directive) :
    finding.isOfFragments = true := by
  rw [bindingFindings] at h
  split at h
  · -- the fragment declares no arguments
    cases List.mem_singleton.mp h
    rfl
  · rcases List.mem_append.mp h with h | h
    · rcases List.mem_append.mp h with h | h
      · -- warnings come first, then the names that are missing, then those that are unknown
        obtain ⟨argument, -, rfl⟩ := List.mem_map.mp h
        rfl
      · obtain ⟨entry, -, rfl⟩ := List.mem_map.mp h
        rfl
    · obtain ⟨argument, -, rfl⟩ := List.mem_map.mp h
      rfl

/-- At a directive for arguments of fragments, the rule finds what is about these. -/
theorem isOfFragments_of_mem_directiveFindings (huse : use.directive.isForArguments = true)
    (h : finding ∈ context.directiveFindings suggest use) : finding.isOfFragments = true := by
  rw [Context.directiveFindings] at h
  split at h
  next =>
    obtain ⟨problem, places, rfl⟩ := exists_relay_of_mem_metadataFindings h
    rfl
  next hdeclares =>
    -- a directive for arguments that declares none gives some
    have hgives : use.givesArguments = true := by
      rw [Directive.isForArguments, Bool.or_eq_true] at huse
      exact huse.resolve_left hdeclares
    rw [if_pos hgives] at h
    split at h
    · exact isOfFragments_of_mem_bindingFindings h
    · cases h

/-- At other directives, the rule finds what the rule of the language finds. -/
theorem Context.directiveFindings_of_not_isForArguments (suggest : Suggest)
    (huse : use.directive.isForArguments = false) :
    context.directiveFindings suggest use =
      LanguageRules.unknownDirectiveArguments context ⟨.directive use, {}⟩ := by
  rw [Directive.isForArguments, Bool.or_eq_false_iff] at huse
  have hgives : use.givesArguments = false := huse.2
  rw [directiveFindings, huse.1, hgives]
  rfl

/-- Where the rule of the language finds that a directive does not take an argument, it names the
directive. -/
theorem exists_language_of_mem_unknownDirectiveArguments
    (h : finding ∈ LanguageRules.unknownDirectiveArguments context ⟨.directive use, {}⟩) :
    ∃ argument similar places, finding =
      .language (.unknownDirectiveArgument argument use.directive.name.text similar) places := by
  rw [LanguageRules.unknownDirectiveArguments] at h
  dsimp only at h
  split at h
  · cases h
  · obtain ⟨argument, -, rfl⟩ := List.mem_map.mp h
    exact ⟨_, _, _, rfl⟩

/-- The rule of the language finds nothing about arguments of fragments but that a directive for
these does not take an argument. -/
theorem isOfParameters_of_mem_unknownDirectiveArguments
    (h : finding ∈ LanguageRules.unknownDirectiveArguments context ⟨.directive use, {}⟩) :
    finding.isOfFragments = false ∧
      finding.isOfParameters = use.directive.isForArguments := by
  obtain ⟨argument, similar, places, rfl⟩ := exists_language_of_mem_unknownDirectiveArguments h
  exact ⟨rfl, rfl⟩

/-- That a field does not take an argument is not about arguments of fragments. -/
theorem not_isOfFragments_of_mem_fieldArgument {event : Event} (h : finding ∈ event.fieldArgument) :
    finding.isOfFragments = false ∧ finding.isOfParameters = false := by
  cases event with
  | leave visit => cases h
  | enter visit =>
    rw [Event.fieldArgument, LanguageRules.unknownFieldArgument] at h
    split at h
    · cases List.mem_singleton.mp h
      exact ⟨rfl, rfl⟩
    · cases h

end Findings

/-! ## Both rules at an event -/

section Events

variable (context : Context) (suggest : Suggest)

/-- The rule of the language finds arguments that fields or directives do not take. -/
theorem findings_knownArgumentNames (events : List Event) :
    (LanguageRules.knownArgumentNames context).findings events = events.flatMap fun event =>
      event.fieldArgument ++ event.directive?.elim [] fun use =>
        LanguageRules.unknownDirectiveArguments context ⟨.directive use, {}⟩ := by
  rw [LanguageRules.knownArgumentNames, Rule.onEnter, Rule.findings_ofEvent]
  refine List.flatMap_congr fun event _ => ?_
  rcases event with ⟨node, scope⟩ | visit
  · cases node <;> rfl
  · rfl

/-- At an event that enters no directive for arguments of fragments, both rules find the same. -/
theorem findings_singleton_of_not_isForArguments {event : Event}
    (hevent : event.isForArguments = false) :
    (knownFragmentArguments suggest LanguageRules.unknownArguments context).findings [event] =
      (LanguageRules.knownArgumentNames context).findings [event] ∧
    ∀ finding ∈ (LanguageRules.knownArgumentNames context).findings [event],
      finding.isOfFragments = false ∧ finding.isOfParameters = false := by
  rw [findings_knownFragmentArguments, findings_knownArgumentNames, List.flatMap_singleton,
    List.flatMap_singleton]
  -- both rules look at arguments of fields, and at directives, where this one is none for fragments
  cases hdirective : event.directive? with
  | none =>
    refine ⟨rfl, fun finding hfinding => ?_⟩
    rw [Option.elim_none, List.append_nil] at hfinding
    exact not_isOfFragments_of_mem_fieldArgument hfinding
  | some use =>
    have huse : use.directive.isForArguments = false := by
      rwa [Event.isForArguments, hdirective, Option.any_some] at hevent
    rw [Option.elim_some, Option.elim_some,
      context.directiveFindings_of_not_isForArguments suggest huse]
    refine ⟨rfl, fun finding hfinding => ?_⟩
    rcases List.mem_append.mp hfinding with hfield | hunknown
    · exact not_isOfFragments_of_mem_fieldArgument hfield
    · exact huse ▸ isOfParameters_of_mem_unknownDirectiveArguments hunknown

/-- What each of the rules finds at an event that enters a directive for arguments of fragments. -/
theorem findings_singleton_of_isForArguments {event : Event}
    (hevent : event.isForArguments = true) :
    (∀ finding ∈ (knownFragmentArguments suggest LanguageRules.unknownArguments context).findings
      [event], finding.isOfFragments = true) ∧
    ∀ finding ∈ (LanguageRules.knownArgumentNames context).findings [event],
      finding.isOfParameters = true := by
  obtain ⟨use, hdirective, huse⟩ := (Option.any_eq_true _ _).mp hevent
  -- what enters a directive enters no argument of a field
  have hfield : event.fieldArgument = [] := by
    rcases event with ⟨node, scope⟩ | visit
    · cases node <;> first | rfl | cases hdirective
    · rfl
  rw [findings_knownFragmentArguments, findings_knownArgumentNames, List.flatMap_singleton,
    List.flatMap_singleton, hfield, hdirective]
  constructor
  · exact fun finding hfinding => isOfFragments_of_mem_directiveFindings huse hfinding
  · exact fun finding hfinding =>
      (isOfParameters_of_mem_unknownDirectiveArguments hfinding).2.trans huse

/-- At every event, both rules find the same apart from what each finds about directives for
arguments of fragments. -/
theorem filter_findings_singleton (event : Event) :
    ((knownFragmentArguments suggest LanguageRules.unknownArguments context).findings
        [event]).filter (fun finding => !finding.isOfFragments) =
      ((LanguageRules.knownArgumentNames context).findings [event]).filter
        fun finding => !finding.isOfParameters := by
  cases hevent : event.isForArguments with
  | true =>
    -- all of it is about such a directive, and nothing is left on either side
    obtain ⟨hown, hparameters⟩ := findings_singleton_of_isForArguments context suggest hevent
    rw [List.filter_eq_nil_iff.mpr fun finding hfinding => by simp [hown finding hfinding],
      List.filter_eq_nil_iff.mpr fun finding hfinding => by simp [hparameters finding hfinding]]
  | false =>
    -- none of it is, and everything is left
    obtain ⟨hsame, hneither⟩ := findings_singleton_of_not_isForArguments context suggest hevent
    rw [hsame]
    refine List.filter_congr fun finding hfinding => ?_
    rw [(hneither finding hfinding).1, (hneither finding hfinding).2]

end Events

/-! ## Both rules on a walk -/

/-- Apart from what they find about directives that declare or give arguments of fragments, the rule
for names of arguments and that of the language find the same in the same order. Both look at one
event after the other. At those that enter such a directive, all that they find is about arguments
of fragments, or about parameters of the directive; at other events, they find the same, and nothing
of these kinds. So, on a document without such directives, they find the same. The rule for names of
arguments alone follows the walk as far as its depth lets it. -/
theorem Context.findings_of_otherArguments (suggest : Suggest) (context : Context) :
    let names := knownFragmentArguments suggest LanguageRules.unknownArguments context
    let other := LanguageRules.knownArgumentNames context
    let walk := context.document.walk context.schema
    (names.findings walk).filter (fun finding => !finding.isOfFragments) =
      (other.findings walk).filter (fun finding => !finding.isOfParameters) ∧
    names.findings walk = walk.flatMap (fun event => names.findings [event]) ∧
    other.findings walk = walk.flatMap (fun event => other.findings [event]) ∧
    (∀ event, event.isForArguments = true →
      (∀ finding ∈ names.findings [event], finding.isOfFragments = true) ∧
      ∀ finding ∈ other.findings [event], finding.isOfParameters = true) ∧
    (∀ event, event.isForArguments = false →
      names.findings [event] = other.findings [event] ∧
      ∀ finding ∈ other.findings [event],
        finding.isOfFragments = false ∧ finding.isOfParameters = false) ∧
    ((∀ use ∈ context.document.directiveUses, use.directive.isForArguments = false) →
      names.findings walk = other.findings walk) ∧
    context.trail [.relay .knownArgumentNames { suggest }] =
      ⟨names.findings walk, context.document.isTooDeep⟩ := by
  intro names other walk
  have hnames : names.findings walk = walk.flatMap fun event => names.findings [event] :=
    Rule.IsMemoryless.findings_eq_flatMap_singleton (.onEnter fun _ _ => rfl) walk
  have hother : other.findings walk = walk.flatMap fun event => other.findings [event] :=
    Rule.IsMemoryless.findings_eq_flatMap_singleton (.onEnter fun _ _ => rfl) walk
  refine ⟨?_, hnames, hother, fun event => findings_singleton_of_isForArguments context suggest,
    fun event => findings_singleton_of_not_isForArguments context suggest, fun hnone => ?_, ?_⟩
  · rw [hnames, hother, List.filter_flatMap, List.filter_flatMap]
    exact List.flatMap_congr fun event _ => filter_findings_singleton context suggest event
  · rw [hnames, hother]
    refine List.flatMap_congr fun event hmem => ?_
    refine (findings_singleton_of_not_isForArguments context suggest ?_).1
    -- a directive that the walk enters is one of the document
    rw [Event.isForArguments, Option.any_eq_false]
    exact fun use huse => by simp [hnone use (Document.mem_directiveUses_of_mem_walk hmem huse)]
  · exact trail_singleton_eq_walk (by decide) (by decide) { suggest }

/-- The fragment `fragment P on Query { picture(color: 1) @live }`. -/
def liveFragment : Fragment :=
  { pictureFragment "P" 2 with
    selections := [.field ⟨none, ⟨"picture", ⟨2, 23⟩⟩, [⟨⟨"color", ⟨2, 31⟩⟩, .int "1" ⟨2, 38⟩⟩],
      [⟨⟨"live", ⟨2, 42⟩⟩, [], ⟨2, 41⟩⟩], ⟨2, 23⟩, ⟨2, 23⟩⟩ []] }

/-- In a document whose only directive is another one, both rules find that the picture takes no
color. -/
theorem Context.findings_of_otherArguments_liveFragment :
    let context := Context.ofDocument pictureSchema ⟨[.fragment liveFragment]⟩
    let walk := context.document.walk context.schema
    (∀ use ∈ context.document.directiveUses, use.directive.isForArguments = false) ∧
      (knownFragmentArguments suggestions LanguageRules.unknownArguments context).findings walk =
        [.language (.unknownFieldArgument "color" "Query" "picture" (.ok [])) [⟨2, 31⟩]] := by
  intro context walk
  have hall : (context.document.directiveUses.all fun use =>
      !use.directive.isForArguments) = true := by cbv
  have hnone : ∀ use ∈ context.document.directiveUses, use.directive.isForArguments = false := by
    simpa using hall
  have hsame := (context.findings_of_otherArguments suggestions).2.2.2.2.2.1 hnone
  refine ⟨hnone, hsame.trans ?_⟩
  have hsimilar : suggestions "color" ["size"] = .ok [] := by decide +kernel
  rw [← hsimilar]
  rfl

end RelayCheck
