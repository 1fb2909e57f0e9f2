import RelayCheck.Data.NameMap
import RelayCheck.Fragments.Spreads
import RelayCheck.Language.Parser.Basic

/-!
# How deep selections are nested

A selection set is nested in the one it is written in, and the selection set of a fragment is
nested in those that spread the fragment. A document may be nested as deep by its spreads as it
may be by its text.

The depth of every fragment is settled once, in the order of the document; the fragments that a
fragment spreads are settled before it, in the order of its spreads. A fragment that is met again
before it is settled, because it spreads itself, counts for nothing there, and what was settled on
the way keeps that value.

This module introduces:

- `setDepth`, the depth of a selection set, from those of fragments;
- `Document.fragmentDepths`, the depths of the fragments;
- `Definition.isTooDeep`, whether a definition is nested too deeply.
-/

namespace RelayCheck

/-- The depths of the fragments that were met so far, by name. -/
abbrev Depths := NameMap Nat

/-- The depth of the fragment of the given name; one that was not met has none. -/
def Depths.of (depths : Depths) (name : String) : Nat :=
  (depths.get? name).getD 0

mutual

/-- The depth of the selection set of a selection, or of the fragment that it spreads. -/
def Selection.depth (depths : Depths) : Selection → Nat
  | .field _ nested => if nested.isEmpty then 0 else 1 + innerDepth depths nested
  | .inlineFragment _ nested => 1 + innerDepth depths nested
  | .spread spread => depths.of spread.name.text

/-- The depth of what is nested in the selections of a selection set. -/
def innerDepth (depths : Depths) : List Selection → Nat
  | [] => 0
  | selection :: rest => max (selection.depth depths) (innerDepth depths rest)

end

/-- The depth of a selection set, which counts itself. -/
def setDepth (depths : Depths) (selections : List Selection) : Nat :=
  1 + innerDepth depths selections

namespace Document

variable (document : Document)

/-- The depths with that of the fragment of the given name, which is settled unless it was met
before or the document does not define it. Every round meets a fragment that was not met before. -/
def settle : (rounds : Nat) → Depths → (name : String) → Depths
  | 0, depths, _ => depths
  | rounds + 1, depths, name =>
    if depths.contains name then depths
    else match document.fragment? name with
      | none => depths
      | some fragment =>
        let inside := (spreadNames fragment.selections).foldl (settle rounds) (depths.insert name 0)
        inside.insert name (setDepth inside fragment.selections)

/-- The depths of the fragments of the document. -/
def fragmentDepths : Depths :=
  let names := document.fragments.map fun fragment => fragment.name.text
  names.foldl (document.settle (names.length + 1)) .empty

end Document

/-- The depth of a definition, given those of the fragments. A fragment has the depth of the last
fragment of its name. -/
def Definition.depth (depths : Depths) : Definition → Nat
  | .operation o => setDepth depths o.selections
  | .fragment f => depths.of f.name.text
  | _ => 0

/-- Whether a definition is nested too deeply, given the depths of the fragments. -/
def Definition.isTooDeep (depths : Depths) (definition : Definition) : Bool :=
  definition.depth depths > Parser.maxNesting

end RelayCheck
