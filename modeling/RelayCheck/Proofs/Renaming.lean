import RelayCheck.Proofs.FragmentArguments.RenamingReports
import RelayCheck.Proofs.Reordering

/-!
# Other names for fragment arguments

The name of a fragment argument is known where the argument is declared, where it is given, and
inside its fragment. If it gets another name at all of these, the rules for fragment arguments find
the same as before, but for the name.

The main result is `sameButName_relayFindings_rename`.
-/

namespace RelayCheck

namespace Context

variable {r : Renaming} {context other : Context}
  (h : context.Corresponds r.correspondence other) (hschema : context.schema.LeavesNames)

include h hschema

/-- The walks of both documents meet the same directives, up to the name of the argument. -/
theorem rel_directives_of_renamed :
    List.Forall₂ (fun use given : DirectiveUse => ∃ f, use.Renamed f r given)
      ((context.document.events context.schema).filterMap Event.directive?)
      ((other.document.events other.schema).filterMap Event.directive?) := by
  rw [h.schema_eq]
  refine List.rel_filterMap ?_ (rel_events_of_renamed hschema h.definitions)
  rintro event event' ⟨f, hevent⟩
  rcases exists_of_rel_option hevent.directive? with
    ⟨hbefore, hafter⟩ | ⟨use, given, hbefore, hafter, huse⟩
  · rw [hbefore, hafter]
    exact .none
  · rw [hbefore, hafter]
    exact .some ⟨f, huse⟩

/-- The rule for names of arguments finds the same, up to the name of the argument, if no names are
offered. -/
theorem rel_findings_knownFragmentArguments :
    SameButName r
      ((knownFragmentArguments (fun _ _ => .ok []) LanguageRules.unknownArguments
        context).findings (context.document.events context.schema))
      ((knownFragmentArguments (fun _ _ => .ok []) LanguageRules.unknownArguments
        other).findings (other.document.events other.schema)) := by
  rw [findings_knownFragmentArguments, findings_knownFragmentArguments, h.schema_eq]
  refine List.rel_flatMap (rel_events_of_renamed hschema h.definitions) ?_
  rintro event event' ⟨f, hevent⟩
  dsimp only
  rw [hevent.fieldArgument_eq]
  refine List.rel_append (SameButName.refl _) ?_
  rcases exists_of_rel_option hevent.directive? with
    ⟨hbefore, hafter⟩ | ⟨use, given, hbefore, hafter, huse⟩
  · rw [hbefore, hafter]
    exact .nil
  · rw [hbefore, hafter]
    exact rel_directiveFindings h huse

/-- The rule for values finds the same, up to the name of the argument. -/
theorem rel_findings_argumentsOfCorrectType (test : LiteralTest) :
    SameButName r
      ((argumentsOfCorrectType test context).findings (context.document.events context.schema))
      ((argumentsOfCorrectType test other).findings (other.document.events other.schema)) := by
  rw [findings_argumentsOfCorrectType, findings_argumentsOfCorrectType]
  refine List.rel_flatMap (rel_directives_of_renamed h hschema) ?_
  exact fun use given ⟨f, huse⟩ => rel_givenFindings h test huse

/-- The rule for defaults finds the same, up to the name of the argument. -/
theorem rel_findings_defaultsOfCorrectType (test : LiteralTest) :
    SameButName r
      ((defaultsOfCorrectType test context).findings (context.document.events context.schema))
      ((defaultsOfCorrectType test other).findings (other.document.events other.schema)) := by
  rw [findings_defaultsOfCorrectType, findings_defaultsOfCorrectType]
  refine List.rel_flatMap (rel_directives_of_renamed h hschema) ?_
  rintro use given ⟨f, huse⟩
  rw [h.schema_eq]
  exact rel_declaredFindings context.schema test huse

/-- The rule for unused arguments finds the same, up to the name of the argument. -/
theorem rel_findings_noUnusedArguments :
    SameButName r
      ((noUnusedArguments context).findings (context.document.events context.schema))
      ((noUnusedArguments other).findings (other.document.events other.schema)) := by
  rw [findings_noUnusedArguments, findings_noUnusedArguments, h.schema_eq]
  refine List.rel_flatMap (List.rel_filterMap ?_ (rel_events_of_renamed hschema h.definitions))
    fun definition definition' hdefinition => rel_unusedFindings context.schema hdefinition
  exact fun event event' ⟨f, hevent⟩ => hevent.definition?

end Context

/-- In a document with unique names of fragments let an argument that a fragment declares get a name
that is not taken, where it is declared, in the variables inside the fragment and on the spreads of
the fragment. Then each rule for variables and fragment arguments finds the same, one by one and at
the same places, up to the name of the argument, if no names are offered for misspelled ones. -/
theorem sameButName_relayFindings_rename {r : Renaming} {document : Document}
    (hunique : document.UniqueFragmentNames) (h : r.Suits document) (schema : Schema)
    (test : LiteralTest) {rule : RelayRule}
    (hrule : rule ∈ [.knownVariableNames, .variablesInAllowedPosition, .argumentsOfCorrectType,
      .defaultsOfCorrectType, .noUnusedArguments, .knownArgumentNames]) :
    let found := Document.relayFindings schema.withRelayDirectives (fun _ _ => .ok []) test rule
    SameButName r (found document) (found (document.rename r)) := by
  have hcontext : (Context.ofDocument schema.withRelayDirectives document).Corresponds
      r.correspondence (Context.ofDocument schema.withRelayDirectives (document.rename r)) :=
    .ofDocument _ (h.corresponds hunique)
  -- the directives that are renamed inside name no arguments in the schema
  have hschema := schema.leavesNames_withRelayDirectives
  intro found
  cases rule with
  | knownVariableNames =>
    have hsame : found (document.rename r) = found document :=
      Context.findings_knownVariableNames_eq_of_renamed hcontext hschema
    rw [hsame]
    exact .refl _
  | variablesInAllowedPosition =>
    exact Context.rel_findings_variablesInAllowedPosition hcontext hschema
  | argumentsOfCorrectType =>
    exact Context.rel_findings_argumentsOfCorrectType hcontext hschema test
  | defaultsOfCorrectType =>
    exact Context.rel_findings_defaultsOfCorrectType hcontext hschema test
  | noUnusedArguments => exact Context.rel_findings_noUnusedArguments hcontext hschema
  | knownArgumentNames => exact Context.rel_findings_knownFragmentArguments hcontext hschema
  | requiredPageInfoFields | missingConnectionDirective => simp at hrule

/-- The fragment `fragment P on Query @argumentDefinitions(size: {type: "Int"})` with a picture of
this size. -/
def optionalSizeFragment : Fragment :=
  { pictureFragment "P" 2 with
    directives := [⟨⟨argumentDefinitionsName, ⟨2, 22⟩⟩, [⟨⟨"size", ⟨2, 42⟩⟩,
      .object [(⟨typeKey, ⟨2, 49⟩⟩, .string "Int" false ⟨2, 55⟩)] ⟨2, 48⟩⟩], ⟨2, 21⟩⟩] }

/-- The query `query A($size: [Int]) { ...P @arguments(size: $size) }`, followed by the fragment. -/
def sizesDocument : Document :=
  ⟨[.operation { pictureQuery "A" "P" (.list (.named ⟨"Int", ⟨1, 17⟩⟩)) 1 with
      selections := [.spread ⟨⟨"P", ⟨1, 28⟩⟩, [⟨⟨argumentsName, ⟨1, 31⟩⟩, [⟨⟨"size", ⟨1, 41⟩⟩,
        .variable ⟨"size", ⟨1, 48⟩⟩ ⟨1, 47⟩⟩], ⟨1, 30⟩⟩], ⟨1, 25⟩⟩] },
    .fragment optionalSizeFragment]⟩

/-- A query has a variable of the same name as an argument of a fragment, and neither may stand
where it does. If the argument is called otherwise, the same is found about the variable of the
query, and the same about the argument by its new name. -/
theorem sameButName_relayFindings_rename_size :
    let r : Renaming := ⟨optionalSizeFragment, "size", "width"⟩
    let found := Document.relayFindings pictureSchema.withRelayDirectives (fun _ _ => .ok [])
      denotesValue .variablesInAllowedPosition
    let int : TypeRef String := .named "Int"
    let query : Finding := .relay (.badPosition "size" (.list int) int) [⟨1, 47⟩, ⟨1, 1⟩]
    let fragment (name : String) : Finding :=
      .relay (.badPosition name int (.nonNull int)) [⟨2, 42⟩, ⟨2, 37⟩]
    r.Suits sizesDocument ∧ found sizesDocument = [query, fragment "size"] ∧
      found (sizesDocument.rename r) = [query, fragment "width"] ∧
      SameButName r (found sizesDocument) (found (sizesDocument.rename r)) := by
  intro r found int query fragment
  have hsuits : r.Suits sizesDocument := by
    refine ⟨List.mem_singleton_self _, ?_, ?_, ?_, ?_⟩
    · decide
    · decide
    · decide
    · decide
  have hbefore : Document.relayFindings pictureSchema.withRelayDirectives (fun _ _ => .ok [])
      denotesValue .variablesInAllowedPosition sizesDocument = [query, fragment "size"] := by cbv
  have hafter : Document.relayFindings pictureSchema.withRelayDirectives (fun _ _ => .ok [])
      denotesValue .variablesInAllowedPosition (sizesDocument.rename r) =
        [query, fragment "width"] := by cbv
  exact ⟨hsuits, hbefore, hafter, sameButName_relayFindings_rename (by decide) hsuits pictureSchema
    denotesValue (by decide)⟩

end RelayCheck
