import RelayCheck.Proofs.FragmentArguments.GivenArguments
import RelayCheck.Proofs.Language.Constants
import RelayCheck.Proofs.Validation.Directives

/-!
# Defaults of declared arguments

A fragment may declare defaults for its arguments. A default stands for an argument that is not
given, and so has to be a value of the type without null. The rule for defaults reads it at the type
as it is declared and looks for null by itself, which comes to the same. It looks at the first
directive that declares arguments, as the declarations do, and at the last argument of each name
there.

The module introduces:

- `Schema.badDefault?`, the default of an argument that is no value of its type without null;
- `Fragment.badDefaults`, what is reported of the defaults that a fragment declares.

The main result is `Context.trail_of_declaredDefaults`.
-/

namespace RelayCheck

/-! ## The last argument of each name -/

section LastOfName

variable {argument : Argument} {arguments : List Argument}

/-- The last arguments of their names are some of the arguments, in the same order. -/
theorem lastOfName_sublist : ∀ arguments : List Argument, (lastOfName arguments).Sublist arguments
  | [] => .slnil
  | argument :: rest => by
    rw [lastOfName]
    split
    · exact (lastOfName_sublist rest).cons _
    · exact (lastOfName_sublist rest).cons_cons _

/-- There is one last argument of each name. -/
theorem nodup_names_lastOfName (arguments : List Argument) :
    ((lastOfName arguments).map fun argument => argument.name.text).Nodup := by
  induction arguments with
  | nil => exact List.nodup_nil
  | cons argument rest ih =>
    rw [lastOfName]
    split
    next => exact ih
    next hlast =>
      refine List.nodup_cons.mpr ⟨fun hmem => hlast ?_, ih⟩
      obtain ⟨later, hlater, hname⟩ := List.mem_map.mp hmem
      exact List.any_eq_true.mpr
        ⟨later, (lastOfName_sublist rest).subset hlater, beq_iff_eq.mpr hname⟩

/-- Among the last arguments of their names, a search for a name finds what a search from the end
finds among all arguments. -/
theorem find?_lastOfName (arguments : List Argument) (name : String) :
    (lastOfName arguments).find? (fun argument => argument.name.text == name) =
      arguments.reverse.find? fun argument => argument.name.text == name := by
  induction arguments with
  | nil => rfl
  | cons argument rest ih =>
    rw [lastOfName, List.reverse_cons, List.find?_append, List.find?_singleton, ← ih]
    by_cases hname : argument.name.text = name
    · rw [if_pos (beq_iff_eq.mpr hname), ih]
      -- an argument of the name is found at the front only if none of the name comes later
      split
      next hlater =>
        obtain ⟨later, hmem, hsame⟩ := List.any_eq_true.mp hlater
        rw [ih, Option.or_of_isSome]
        exact List.find?_isSome.mpr ⟨later, List.mem_reverse.mpr hmem, hname ▸ hsame⟩
      next hlast =>
        have hnone : rest.reverse.find? (fun argument => argument.name.text == name) = none :=
          List.find?_eq_none.mpr fun later hlater hsame => hlast
            (List.any_eq_true.mpr ⟨later, List.mem_reverse.mp hlater, hname ▸ hsame⟩)
        rw [hnone, Option.none_or]
        exact List.find?_cons_of_pos (beq_iff_eq.mpr hname)
    · rw [if_neg (mt beq_iff_eq.mp hname), Option.or_none]
      split
      · rfl
      · exact List.find?_cons_of_neg (mt beq_iff_eq.mp hname)

/-- The last argument of a name is what a search for the name from the end finds. -/
theorem mem_lastOfName_iff : argument ∈ lastOfName arguments ↔
    (arguments.reverse.find? fun other => other.name.text == argument.name.text) =
      some argument := by
  rw [← find?_lastOfName]
  refine ⟨fun hmem => ?_, List.mem_of_find?_eq_some⟩
  cases hfound : (lastOfName arguments).find? fun other =>
      other.name.text == argument.name.text with
  | none => exact absurd (beq_self_eq_true _) (List.find?_eq_none.mp hfound argument hmem)
  | some other =>
    have hname : other.name.text = argument.name.text := by simpa using List.find?_some hfound
    rw [List.inj_on_of_nodup_map (nodup_names_lastOfName arguments)
      (List.mem_of_find?_eq_some hfound) hmem hname]

end LastOfName

/-! ## Defaults -/

/-- Excluding null from a type makes a difference to null only. -/
theorem Schema.coerceReader_required (schema : Schema) {reader : Reader} (hreader : reader ≠ .null)
    (type : TypeRef String) :
    schema.coerceReader reader type.required = schema.coerceReader reader type := by
  cases type with
  | nonNull inner => rfl
  | list item =>
    cases reader with
    | null => exact absurd rfl hreader
    | missing | leaf | list | object => rfl
  | named name =>
    cases reader with
    | null => exact absurd rfl hreader
    | missing =>
      -- a variable denotes nothing at a named type, whether that excludes null or not
      show none = (schema.type? name).bind fun _ => none
      rw [Option.bind_fun_none]
    | leaf | list | object => rfl

/-- At a type without null, null denotes nothing, and other literals denote what they denote at the
type. -/
theorem Schema.coerce_required (schema : Schema) (value : Value) (type : TypeRef String) :
    schema.coerce value type.required =
      if value.isNull then none else schema.coerce value type := by
  cases value with
  | null pos => cases type <;> rfl
  | _ =>
    refine schema.coerceReader_required (fun hnull => ?_) type
    rw [reader] at hnull
    cases hnull

/-- The default of an argument, with its type, if it is a constant and no value of the type without
null. -/
def Schema.badDefault? (schema : Schema) (argument : Argument) : Option (Value × TypeRef String) :=
  let declaration := Declaration.ofArgument schema argument
  match declaration.default, declaration.type with
  | some value, some type =>
    if value.IsConstant ∧ schema.coerce value type.required = none then some (value, type) else none
  | _, _ => none

/-- The report that the default of an argument is no value of its type, or that it is null. -/
def Fragment.defaultReport (fragment : Fragment) (argument : Argument)
    (default : Value × TypeRef String) : Finding :=
  let problem := if default.1.isNull then .nullDefault argument.name.text fragment.name.text
    else .badDefault argument.name.text fragment.name.text default.2
  .relay problem [default.1.pos]

/-- What is reported of the defaults that a fragment declares, for the last argument of each
name. -/
def Fragment.badDefaults (schema : Schema) (fragment : Fragment) : List Finding :=
  (lastOfName (fragment.declaringArguments?.getD [])).filterMap fun argument =>
    (schema.badDefault? argument).map (fragment.defaultReport argument)

section Rule

variable {schema : Schema} {context : Context} {fragment : Fragment}

/-- The rule for defaults reports a default if it is no value of its type without null. -/
theorem defaultFindings_denotesValue (argument : Argument) :
    defaultFindings denotesValue schema fragment.name.text argument =
      ((schema.badDefault? argument).map (fragment.defaultReport argument)).toList := by
  rw [defaultFindings, Schema.badDefault?]
  cases (Declaration.ofArgument schema argument).default with
  | none => rfl
  | some value =>
    cases (Declaration.ofArgument schema argument).type with
    | none => rfl
    | some type =>
      dsimp only
      rw [schema.coerce_required]
      by_cases hconstant : value.IsConstant
      · -- null is found by its own test, and everything else by reading it at the type
        rw [Value.hasVariable_eq_false_iff.mpr hconstant, denotesValue]
        cases hnull : value.isNull with
        | true => simp [hconstant, Fragment.defaultReport, hnull]
        | false =>
          cases schema.coerce value type <;>
            simp [hconstant, Fragment.defaultReport, hnull]
      · have hnone : ¬(value.IsConstant ∧
            (if value.isNull then none else schema.coerce value type) = none) :=
          fun h => hconstant h.1
        rw [if_pos (Value.hasVariable_eq_true_iff.mpr hconstant), if_neg hnone]
        rfl

/-- Of items with their indices, those with the index of the first item that passes a test are that
item alone. -/
theorem flatMap_zipIdx_findIdx? {α β : Type} (test : α → Bool) (look : α → List β)
    (items : List α) :
    (items.zipIdx.flatMap fun pair =>
        if items.findIdx? test == some pair.2 then look pair.1 else []) =
      (items.find? test).toList.flatMap look := by
  cases hfind : items.find? test with
  | none =>
    have hnone : items.findIdx? test = none := List.findIdx?_eq_none_iff.mpr fun item hitem =>
      Bool.eq_false_iff.mpr (List.find?_eq_none.mp hfind item hitem)
    rw [hnone]
    exact List.flatMap_eq_nil_iff.mpr fun pair _ => rfl
  | some item =>
    -- the index of the item is the number of items before it, and no other item has it
    obtain ⟨hitem, before, after, hsplit, hbefore⟩ := List.find?_eq_some_iff_append.mp hfind
    have hindex : items.findIdx? test = some before.length := by
      have hnone : before.findIdx? test = none :=
        List.findIdx?_eq_none_iff.mpr fun other hother => by simpa using hbefore other hother
      rw [hsplit, List.findIdx?_append, hnone, List.findIdx?_cons, if_pos hitem, Option.none_or,
        Option.map_some, Nat.zero_add]
    have hskip {pairs : List (α × Nat)} (hpairs : ∀ pair ∈ pairs, pair.2 ≠ before.length) :
        (pairs.flatMap fun pair =>
          if some before.length == some pair.2 then look pair.1 else []) = [] :=
      List.flatMap_eq_nil_iff.mpr fun pair hpair => if_neg fun h =>
        hpairs pair hpair (Option.some_inj.mp (beq_iff_eq.mp h)).symm
    have hearlier : ∀ pair ∈ before.zipIdx 0, pair.2 ≠ before.length := fun pair hpair =>
      (List.snd_lt_of_mem_zipIdx hpair).ne
    have hlater : ∀ pair ∈ after.zipIdx (before.length + 1), pair.2 ≠ before.length :=
      fun pair hpair => (Nat.lt_of_succ_le (List.le_snd_of_mem_zipIdx hpair)).ne'
    rw [hindex, hsplit, List.zipIdx_append, List.zipIdx_cons, List.flatMap_append,
      List.flatMap_cons, Nat.zero_add, hskip hearlier, hskip hlater, if_pos (beq_self_eq_true _),
      List.nil_append, List.append_nil]
    exact (List.append_nil _).symm

/-- At the directives on a fragment, the rule for defaults reports defaults that the fragment
declares, at the first directive that declares arguments. -/
theorem flatMap_declaredFindings_uses (fragment : Fragment) :
    ((Carrier.fragment fragment).uses fragment.directives).flatMap
        (declaredFindings schema denotesValue) = fragment.badDefaults schema := by
  let declares (directive : Directive) : Bool := directive.name.text == argumentDefinitionsName
  let look (directive : Directive) : List Finding :=
    (lastOfName directive.arguments).flatMap
      (defaultFindings denotesValue schema fragment.name.text)
  -- only the first directive that declares arguments is looked at
  have huse (pair : Directive × Nat) :
      declaredFindings schema denotesValue ⟨.fragment fragment, pair.2, pair.1⟩ =
        if fragment.directives.findIdx? declares == some pair.2 then look pair.1 else [] := by
    rw [declaredFindings, DirectiveUse.declaringFragment?]
    dsimp only
    cases fragment.directives.findIdx? declares == some pair.2 <;> rfl
  have hlook (arguments : List Argument) :
      (lastOfName arguments).flatMap (defaultFindings denotesValue schema fragment.name.text) =
        (lastOfName arguments).filterMap fun argument =>
          (schema.badDefault? argument).map (fragment.defaultReport argument) := by
    rw [List.filterMap_eq_flatMap_toList]
    exact List.flatMap_congr fun argument _ => defaultFindings_denotesValue argument
  rw [Carrier.uses, List.flatMap_map, List.flatMap_congr fun pair _ => huse pair,
    flatMap_zipIdx_findIdx?, Fragment.badDefaults, Fragment.declaringArguments?]
  cases fragment.directives.find? declares with
  | none => rfl
  | some directive => exact (List.append_nil _).trans (hlook directive.arguments)

/-- In a definition, the rule for defaults reports defaults if that is a fragment. -/
theorem findings_defaultsOfCorrectType_definition (definition : Definition) :
    (defaultsOfCorrectType denotesValue context).findings (definition.events context.schema) =
      definition.fragment?.toList.flatMap (Fragment.badDefaults context.schema) := by
  -- the rule does not look at directives on anything but a fragment
  have hlook (use : DirectiveUse) (huse : ∀ fragment, use.carrier ≠ .fragment fragment) :
      declaredFindings context.schema denotesValue use = [] := by
    have hnone : use.declaringFragment? = none := by
      rw [DirectiveUse.declaringFragment?]
      split
      next fragment hcarrier => exact absurd hcarrier (huse fragment)
      next => rfl
    rw [declaredFindings, hnone]
  rw [findings_defaultsOfCorrectType, definition.filterMap_directive?_events,
    definition.flatMap_directiveUses_of_fragment hlook]
  exact List.flatMap_congr fun fragment _ => flatMap_declaredFindings_uses fragment

/-- In several definitions, the rule for defaults reports defaults that the fragments among them
declare. -/
theorem flatMap_findings_defaultsOfCorrectType (definitions : List Definition) :
    (definitions.flatMap fun definition =>
        (defaultsOfCorrectType denotesValue context).findings (definition.events context.schema)) =
      (definitions.filterMap Definition.fragment?).flatMap
        (Fragment.badDefaults context.schema) := by
  rw [List.filterMap_eq_flatMap_toList, List.flatMap_assoc]
  exact List.flatMap_congr fun definition _ => findings_defaultsOfCorrectType_definition definition

end Rule

/-- The rule for defaults reports one error for each argument that a fragment declares, as the last
one of its name in the first directive that declares arguments does, if it has a default and a type,
no variable occurs in the default, and the default is no value of the type without null: that it
may not be null if it is, and otherwise that it is not of the type. It does so in the order of the
document and finds nothing else. Alone, it does so in the definitions before the first one that is
nested too deeply. The last arguments of their names keep their order, there is one of each name,
and they are those that a search from the end finds. -/
theorem Context.trail_of_declaredDefaults (suggest : Suggest) (context : Context) :
    let bad (definitions : List Definition) :=
      (definitions.filterMap Definition.fragment?).flatMap (Fragment.badDefaults context.schema)
    (defaultsOfCorrectType denotesValue context).findings
        (context.document.events context.schema) = bad context.document.definitions ∧
    context.trail [.relay .defaultsOfCorrectType { suggest }] =
      ⟨bad context.document.shallow, context.document.isTooDeep⟩ ∧
    ∀ fragment : Fragment, let arguments := fragment.declaringArguments?.getD []
      (lastOfName arguments).Sublist arguments ∧
      ((lastOfName arguments).map fun argument => argument.name.text).Nodup ∧
      ∀ argument, argument ∈ lastOfName arguments ↔
        fragment.lastDeclaring? argument.name.text = some argument := by
  intro bad
  have hbad (definitions : List Definition) : bad definitions =
      definitions.flatMap fun definition =>
        (defaultsOfCorrectType denotesValue context).findings (definition.events context.schema) :=
    (flatMap_findings_defaultsOfCorrectType definitions).symm
  refine ⟨?_, ?_, fun fragment => ⟨lastOfName_sublist _, nodup_names_lastOfName _,
    fun argument => mem_lastOfName_iff⟩⟩
  · rw [hbad]
    exact (RelayRule.isMemoryless (by decide : RelayRule.defaultsOfCorrectType ≠ _) suggest
      denotesValue context).findings_events _ _
  · rw [hbad]
    exact trail_singleton_eq_shallow (by decide) (by decide) suggest denotesValue

end RelayCheck
