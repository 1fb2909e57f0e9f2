import RelayCheck.Check
import RelayCheck.Proofs.Validation.SideBySide

/-!
# How far rules follow a document

Rules that stop early have followed the first part of the walk. A rule that is the only one has then
found the first part of what there is to find, and all of it if it does not stop early.

The module introduces `Context.halt?`, where rules stop early on a document.

The main result is `Context.isPrefix_findings_trail_singleton`.
-/

namespace RelayCheck

/-- The walk of a document that is not nested too deeply is complete. -/
theorem Document.walk_of_not_isTooDeep {document : Document} (schema : Schema)
    (hdeep : document.isTooDeep = false) : document.walk schema = document.events schema := by
  rw [walk, hdeep, if_neg Bool.false_ne_true]

/-- The walk of a document as far as rules follow it is the first part of its walk. -/
theorem Document.isPrefix_walk (document : Document) (schema : Schema) :
    document.walk schema <+: document.events schema := by
  rw [walk]
  split
  · exact List.cons_prefix_cons.mpr ⟨rfl,
      ((List.takeWhile_prefix _).flatMap _).trans (List.prefix_append _ _)⟩
  · exact List.prefix_refl _

namespace Context

variable {context : Context}

/-- Where rules stop early on the document of a context, if they do. -/
def halt? (context : Context) (rules : List RuleName) : Option Halt :=
  Halt.ofWalk? context (rules.map (RuleName.rule context)) (context.document.walk context.schema)

/-- Rules that do not stop early follow the whole document. -/
theorem findings_trail_of_followed {rules : List RuleName}
    (hfollowed : (context.trail rules).aborted = false) :
    (context.trail rules).findings =
      sideBySide (rules.map (RuleName.rule context))
        (context.document.events context.schema) := by
  -- neither a search nor the depth ends the walk
  have hstops := (Bool.or_eq_false_iff).mp hfollowed
  have hhalt : context.halt? rules = none :=
    Option.not_isSome_iff_eq_none.mp (Bool.eq_false_iff.mp hstops.1)
  have huntil : (context.trail rules).findings = sideBySideUntil
      (rules.map (RuleName.rule context)) (context.document.walk context.schema) none :=
    congrArg (sideBySideUntil _ _) hhalt
  rw [huntil, Document.walk_of_not_isTooDeep _ hstops.2, sideBySideUntil]

/-- Rules do not stop early if there is room for all searches and the document is not nested too
deeply. -/
theorem aborted_trail_eq_false (rules : List RuleName)
    (hroom : ((Context.fresh context.schema context.document).searchAll?
      context.document.operations).isSome = true)
    (hdeep : context.document.isTooDeep = false) : (context.trail rules).aborted = false := by
  have hhalt : context.halt? rules = none := if_pos hroom
  exact Bool.or_eq_false_iff.mpr ⟨congrArg Option.isSome hhalt, hdeep⟩

variable (context)

/-- A single rule finds what it finds on the walk up to where it stops. -/
theorem findings_trail_singleton (name : RuleName) :
    (context.trail [name]).findings =
      (name.rule context).findings (Halt.followed (context.document.walk context.schema) 0
        (context.halt? [name])) :=
  sideBySideUntil_singleton _ _ _

/-- A check by a rule alone finds the first part of what the rule finds if it is followed to the end
of the document, and all of that unless it stops early. -/
theorem isPrefix_findings_trail_singleton (name : RuleName) :
    let found := (name.rule context).findings (context.document.events context.schema)
    let trail := context.trail [name]
    trail.findings <+: found ∧ (trail.aborted = false → trail.findings = found) := by
  intro found trail
  constructor
  · have htrail : trail.findings <+:
        (name.rule context).findings (context.document.walk context.schema) := by
      simp only [trail, findings_trail_singleton]
      exact Rule.findings_prefix _ (Halt.isPrefix_followed _ _ _)
    exact htrail.trans (Rule.findings_prefix _ (context.document.isPrefix_walk context.schema))
  · intro hfollowed
    exact (findings_trail_of_followed hfollowed).trans (sideBySideUntil_singleton _ _ none)

end Context

end RelayCheck
