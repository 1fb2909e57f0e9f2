import RelayCheck.Analysis
import RelayCheck.Proofs.FragmentArguments.SharedVariables
import RelayCheck.Proofs.FragmentArguments.Usage
import RelayCheck.Proofs.Fragments.Reachability
import RelayCheck.Proofs.Independence

/-!
# Fragments seen from operations and on their own

The uses of an operation include those of the fragments it reaches. The same fragments can be asked
about on their own, with the variables of the operation as the enclosing declarations. Both answers
are the same, and in both a use is governed from where it is written: by the fragment around it,
then by the operation, and never by a fragment on the way. All questions share what may be spent on
searches, so that a question may get no answer after others were answered.

The module introduces:

- `Analysis.ask`, the answer to a question and the context that it leaves;
- `Declarations.Govern`, what governs a use in a body with own and enclosing declarations.

The main result is `ask_recursiveUsages_eq_blocks`.
-/

namespace RelayCheck

/-! ## What governs a use -/

/-- A use in a body with declarations of its own, inside of enclosing declarations, is governed by
an own declaration of its name, else by an enclosing one, else by nothing. -/
inductive Declarations.Govern (own enclosing : Declarations) (usage : Usage) : GovernedUsage → Prop
  | own {declaration : Declaration} (hown : own.get? usage.name = some declaration) :
      Govern own enclosing usage ⟨usage, some (declaration, .ownDefinition)⟩
  | enclosing {declaration : Declaration} (hown : own.get? usage.name = none)
      (henclosing : enclosing.get? usage.name = some declaration) :
      Govern own enclosing usage ⟨usage, some (declaration, .enclosingOperation)⟩
  | nothing (hown : own.get? usage.name = none) (henclosing : enclosing.get? usage.name = none) :
      Govern own enclosing usage ⟨usage, none⟩

namespace Declarations

/-- Uses are paired with what governs them. -/
theorem govern_govern (own enclosing : Declarations) (usage : Usage) :
    own.Govern enclosing usage (govern own enclosing usage) := by
  rw [govern]
  cases hown : own.get? usage.name with
  | some declaration => exact .own hown
  | none =>
    cases henclosing : enclosing.get? usage.name with
    | some declaration => exact .enclosing hown henclosing
    | none => exact .nothing hown henclosing

/-- The uses of a body are paired, one by one, with what governs them. -/
theorem forall₂_govern (own enclosing : Declarations) (usages : List Usage) :
    List.Forall₂ (own.Govern enclosing) usages (usages.map (govern own enclosing)) := by
  rw [List.forall₂_map_right_iff, List.forall₂_same]
  exact fun usage _ => govern_govern own enclosing usage

/-- If the enclosing declarations are of variables, a use that an argument governs is governed by
an own argument. -/
theorem Govern.own_of_isArgument {own enclosing : Declarations} {usage : Usage}
    {governed : GovernedUsage}
    (hvariables : ∀ name declaration, enclosing.get? name = some declaration →
      declaration.isArgument = false)
    (hgovern : own.Govern enclosing usage governed) {declaration : Declaration}
    (hdeclaration : governed.declaration? = some declaration)
    (hargument : declaration.isArgument = true) :
    own.get? governed.usage.name = some declaration := by
  cases hgovern with
  | own hown =>
    rw [← hdeclaration]
    exact hown
  | enclosing hown henclosing =>
    obtain rfl := Option.some_inj.mp hdeclaration
    rw [hvariables _ _ henclosing] at hargument
    cases hargument
  | nothing => cases hdeclaration

end Declarations

/-! ## Answers -/

namespace Context

variable {context : Context} {operation : Operation}

/-- Looking for the fragments of an operation keeps the names from which it starts. -/
theorem startNames_search (context : Context) (operation : Operation) :
    (context.search operation).startNames operation = context.startNames operation := by
  rw [search]
  split
  · rfl
  next hnew =>
    -- the operation itself is now the first of those that spread its names
    simp only [Bool.or_eq_true, not_or, isSearched, Option.not_isSome_iff_eq_none] at hnew
    have hnone := hnew.1
    have hsame : sameNames (spreadNames operation.selections)
        (spreadNames operation.selections) = true := by simp [sameNames]
    rw [foundNames?] at hnone
    simp [startNames, foundNames?, List.findSome?_append, hnone, hsame]

/-- Looking for the fragments of an operation changes neither its uses nor their order. -/
theorem operationUsages_search (context : Context) (operation : Operation) :
    (context.search operation).operationUsages operation = context.operationUsages operation := by
  have hschema : (context.search operation).schema = context.schema := by
    rw [search]
    split <;> rfl
  have hdocument : (context.search operation).document = context.document := by
    rw [search]
    split <;> rfl
  have husages := usages_congr hschema fun name => by rw [fragment?, hdocument, fragment?]
  simp only [operationUsages, fragmentUsages, reached, startNames_search, husages, hschema,
    hdocument]

end Context

namespace Analysis

/-- The answer to a question, and the context that it leaves for the next one. -/
def ask {α : Type} (question : Analysis α) (context : Context) : Except Problem α × Context :=
  (ExceptT.run question).run context

variable {α β : Type} (context : Context)

/-- The answer to a question that goes on with the answer to another. -/
theorem ask_bind (question : Analysis α) (next : α → Analysis β) :
    (question >>= next).ask context =
      match question.ask context with
      | (.ok answer, later) => (next answer).ask later
      | (.error problem, later) => (.error problem, later) := by
  have hbind : (question >>= next).ask context =
      (ExceptT.bindCont next (question.ask context).1).run (question.ask context).2 := rfl
  rw [hbind]
  rcases question.ask context with ⟨problem | answer, later⟩
  · rfl
  · rfl

/-- The search for the fragments of an operation fails if it is given up. -/
theorem ask_search (operation : Operation) :
    (search operation).ask context =
      (if context.givesUp operation then .error .aborted else .ok (),
        context.search operation) := by
  have hsearch : (search operation).ask context =
      (if context.givesUp operation then throw .aborted else pure () : Analysis Unit).ask
        (context.search operation) := rfl
  rw [hsearch]
  cases context.givesUp operation with
  | true => rfl
  | false => rfl

/-- Asked about an operation, the analysis looks for its fragments and answers with its uses. -/
theorem ask_recursiveUsages_operation (operation : Operation) :
    (recursiveUsages (.operation operation) none).ask context =
      (if context.givesUp operation then .error .aborted
        else .ok (some (context.operationUsages operation)), context.search operation) := by
  rw [recursiveUsages, ask_bind, ask_search, ← context.operationUsages_search operation]
  cases context.givesUp operation with
  | true => rfl
  | false => rfl

/-- Asked about a fragment inside of an operation, the analysis answers with the uses of the
fragment, and looks for nothing. -/
theorem ask_recursiveUsages_fragment (fragment : Fragment) (operation : Operation) :
    (recursiveUsages (.fragment fragment) (some operation)).ask context =
      (.ok (some (context.fragmentUsages fragment (operation.declarations context.schema))),
        context) := by
  rfl

/-- Asked about several operations, one after the other, the analysis answers if it gives up none of
the searches. -/
theorem ask_mapM_recursiveUsages_eq_ok_iff (operations : List Operation) (context : Context) :
    (∃ answers, ((operations.mapM fun operation =>
        recursiveUsages (.operation operation) none).ask context).1 = .ok answers) ↔
      (context.searchAll? operations).isSome = true := by
  induction operations generalizing context with
  | nil => exact iff_of_true ⟨[], rfl⟩ rfl
  | cons operation rest ih =>
    rw [List.mapM_cons, ask_bind, ask_recursiveUsages_operation, Context.searchAll?]
    cases context.givesUp operation with
    | true =>
      refine iff_of_false ?_ Bool.false_ne_true
      rintro ⟨_, hanswers⟩
      cases hanswers
    | false =>
      -- the others are asked about in the context that this question leaves
      simp only [Bool.false_eq_true, if_false, ask_bind]
      rw [← ih (context.search operation)]
      rcases (rest.mapM fun operation => recursiveUsages (.operation operation) none).ask
        (context.search operation) with ⟨problem | answers, later⟩
      · constructor
        · rintro ⟨_, hanswers⟩
          cases hanswers
        · rintro ⟨_, hanswers⟩
          cases hanswers
      · exact iff_of_true ⟨_, rfl⟩ ⟨answers, rfl⟩

/-- Asked about an operation, the analysis answers, unless it gives up the search, with the uses of
the operation and then a block of uses for each fragment that the operation reaches, each fragment
once. Asked about one of these fragments inside of the operation, it answers with the same block.
The uses of the operation are governed by its variables. Those of a fragment are governed by its
own arguments, then by the variables of the operation, and by no argument of another fragment. -/
theorem ask_recursiveUsages_eq_blocks (operation : Operation) :
    let declared := operation.declarations context.schema
    ∃ (own : List GovernedUsage) (fragments : List Fragment)
      (block : Fragment → List GovernedUsage),
      (recursiveUsages (.operation operation) none).ask context =
        (if context.givesUp operation then .error .aborted
          else .ok (some (own ++ fragments.flatMap block)), context.search operation) ∧
      (∀ fragment, fragment ∈ fragments ↔
        context.document.Reaches operation.selections fragment) ∧
      (fragments.map fun fragment => fragment.name.text).Nodup ∧
      List.Forall₂ (declared.Govern declared) (context.usages none (.operation operation)) own ∧
      ∀ fragment ∈ fragments,
        (recursiveUsages (.fragment fragment) (some operation)).ask context =
          (.ok (some (block fragment)), context) ∧
        List.Forall₂ ((fragment.declarations context.schema).Govern declared)
          (context.usages (some fragment.name.text) (.fragment fragment)) (block fragment) ∧
        ∀ governed ∈ block fragment, ∀ declaration, governed.declaration? = some declaration →
          declaration.isArgument = true →
            (fragment.declarations context.schema).get? governed.usage.name =
              some declaration := by
  intro declared
  refine ⟨_, context.reached operation, fun fragment => context.fragmentUsages fragment declared,
    ask_recursiveUsages_operation context operation, fun fragment => Context.mem_reached_iff,
    context.reached_names_nodup operation, Declarations.forall₂_govern _ _ _, ?_⟩
  intro fragment _
  refine ⟨ask_recursiveUsages_fragment context fragment operation,
    Declarations.forall₂_govern _ _ _, ?_⟩
  intro governed hgoverned
  obtain ⟨usage, -, rfl⟩ := List.mem_map.mp hgoverned
  have hgovern := Declarations.govern_govern (fragment.declarations context.schema) declared usage
  exact fun declaration => hgovern.own_of_isArgument
    fun _ _ hvariable => Operation.isArgument_eq_false hvariable

/-- A fragment with many spreads is reached from 138 queries. Asked about one query after the other,
the analysis does not answer with their uses, since it gives up the search for one of them. -/
theorem not_ask_recursiveUsages_crowdedDocument :
    let context := Context.fresh pictureSchema.withRelayDirectives crowdedDocument
    context.document.UniqueFragmentNames ∧
      ¬∃ answers, ((context.document.operations.mapM fun operation =>
        recursiveUsages (.operation operation) none).ask context).1 = .ok answers := by
  intro context
  refine ⟨by decide +kernel, ?_⟩
  rw [ask_mapM_recursiveUsages_eq_ok_iff,
    show context.searchAll? context.document.operations = none from searchAll?_crowdedDocument _]
  exact Bool.false_ne_true

end Analysis

end RelayCheck
