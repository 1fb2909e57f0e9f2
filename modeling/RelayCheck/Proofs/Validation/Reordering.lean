import RelayCheck.Validation.Rule
import Mathlib.Data.List.Perm.Basic

/-!
# Findings in another order

A rule that looks at nodes alone walks the definitions of a document one after the other. If they
are listed in another order, it finds the same, in another order.

The module introduces:

- `Finding.content`, what a finding says, its places apart;
- `SaySame`, findings that say the same in some order.

The main result is `saySame_findings_onEnter`.
-/

namespace RelayCheck

/-- What a finding says, its places apart. -/
def Finding.content : Finding → Problem ⊕ Warning
  | error diagnostic => .inl diagnostic.problem
  | warning w => .inr w

/-- Findings that say the same things equally often, in some order. -/
def SaySame (found others : List Finding) : Prop :=
  (found.map Finding.content).Perm (others.map Finding.content)

/-- The messages of errors are settled by what the findings say. -/
theorem map_message_diagnostics (findings : List Finding) :
    ((findings.filterMap Finding.diagnostic?).map fun diagnostic =>
        diagnostic.problem.message) =
      (findings.map Finding.content).filterMap fun content =>
        content.getLeft?.map Problem.message := by
  rw [List.map_filterMap, List.filterMap_map]
  refine List.filterMap_congr fun finding _ => ?_
  cases finding <;> rfl

namespace SaySame

variable {found others : List Finding}

/-- The errors have the same messages. -/
theorem errors (h : SaySame found others) :
    ((found.filterMap Finding.diagnostic?).map fun diagnostic =>
        diagnostic.problem.message).Perm
      ((others.filterMap Finding.diagnostic?).map fun diagnostic =>
        diagnostic.problem.message) := by
  rw [map_message_diagnostics, map_message_diagnostics]
  exact h.filterMap _

/-- The warnings have the same messages. -/
theorem warnings (h : SaySame found others) :
    ((found.filterMap Finding.warning?).map Warning.message).Perm
      ((others.filterMap Finding.warning?).map Warning.message) := by
  have hmessages (findings : List Finding) :
      (findings.filterMap Finding.warning?).map Warning.message =
        (findings.map Finding.content).filterMap fun content =>
          content.getRight?.map Warning.message := by
    rw [List.map_filterMap, List.filterMap_map]
    refine List.filterMap_congr fun finding _ => ?_
    cases finding <;> rfl
  rw [hmessages, hmessages]
  exact h.filterMap _

/-- Findings say the same if they do about each definition, in whatever order these are. -/
theorem flatMap {definitions reordered : List Definition} {look other : Definition → List Finding}
    (hperm : definitions.Perm reordered)
    (hlook : ∀ definition ∈ definitions, SaySame (look definition) (other definition)) :
    SaySame (definitions.flatMap look) (reordered.flatMap other) := by
  rw [SaySame, List.map_flatMap, List.map_flatMap]
  exact hperm.flatMap hlook

end SaySame

/-- A rule that looks at nodes alone, and not at the document as a whole, finds the same whatever
the order of the definitions. -/
theorem saySame_findings_onEnter {look : Visit → List Finding}
    (hdocument : ∀ document scope, look ⟨.document document, scope⟩ = []) (schema : Schema)
    {document other : Document} (hperm : document.definitions.Perm other.definitions) :
    SaySame ((Rule.onEnter look).findings (document.events schema))
      ((Rule.onEnter look).findings (other.events schema)) := by
  have hfindings (document : Document) :
      (Rule.onEnter look).findings (document.events schema) =
        document.definitions.flatMap fun definition =>
          (Rule.onEnter look).findings (definition.events schema) := by
    simp only [Rule.onEnter, Rule.findings_ofEvent, Document.events, around, List.flatMap_cons,
      List.flatMap_append, hdocument, List.nil_append, List.flatMap_nil, List.append_nil,
      List.flatMap_assoc]
  rw [hfindings, hfindings]
  exact .flatMap hperm fun definition _ => .refl _

end RelayCheck
