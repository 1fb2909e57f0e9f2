import RelayCheck.FragmentArguments.Usage

/-!
# What governs uses

The main results are `declaration?_govern`, which says what governs a use, and
`mem_operationUsages_iff`, which says where the uses of an operation come from.
-/

namespace RelayCheck

/-- What governs a use: an own declaration, or one of the enclosing operation where there is no own
one. -/
theorem declaration?_govern {own enclosing : Declarations} {usage : Usage} :
    (govern own enclosing usage).declaration? =
      (own.get? usage.name).or (enclosing.get? usage.name) := by
  rw [govern]
  cases own.get? usage.name with
  | some declaration => rfl
  | none => cases enclosing.get? usage.name <;> rfl

/-- Governing a use does not change it. -/
@[simp]
theorem usage_govern (own enclosing : Declarations) (usage : Usage) :
    (govern own enclosing usage).usage = usage := by
  rw [govern]
  cases own.get? usage.name <;> rfl

/-- Nothing governs a use exactly if there is neither an own declaration nor an enclosing one. -/
theorem governor_govern_eq_none_iff {own enclosing : Declarations} {usage : Usage} :
    (govern own enclosing usage).governor = none ↔
      own.get? usage.name = none ∧ enclosing.get? usage.name = none := by
  rw [← Option.or_eq_none_iff, ← declaration?_govern, GovernedUsage.declaration?,
    Option.map_eq_none_iff]

/-- Something governs a use if there is an own declaration or an enclosing one. -/
theorem isSome_governor_govern (own enclosing : Declarations) (usage : Usage) :
    (govern own enclosing usage).governor.isSome =
      (own.contains usage.name || enclosing.contains usage.name) := by
  rw [govern, NameMap.contains, NameMap.contains]
  cases own.get? usage.name with
  | some declaration => rfl
  | none => exact Option.isSome_map

namespace Context

variable {context : Context}

/-- The uses in a definition are settled by the schema and by the fragments that names lead to. -/
theorem usages_congr {other : Context} (hschema : other.schema = context.schema)
    (hfragment : ∀ name, other.fragment? name = context.fragment? name) :
    other.usages = context.usages := by
  have hposition : other.position? = context.position? := by
    funext scope
    simp only [position?, target?, boundPosition, hschema, hfragment]
  have husage (fragment : Option String) : other.usage? fragment = context.usage? fragment := by
    funext event
    simp only [usage?, hposition]
  funext fragment definition
  rw [usages, usages, husage, hschema]

/-- A use is recorded with what contains it. -/
theorem fragment_of_mem_usages {fragment : Option String} {definition : Definition} {usage : Usage}
    (h : usage ∈ context.usages fragment definition) : usage.fragment = fragment := by
  obtain ⟨event, -, husage⟩ := List.mem_filterMap.mp h
  unfold usage? at husage
  split at husage
  · obtain ⟨_, -, rfl⟩ := Option.map_eq_some_iff.mp husage
    rfl
  · cases husage

/-- The uses of an operation are those in the operation and those in the fragments it reaches. -/
theorem mem_operationUsages_iff {operation : Operation} {governed : GovernedUsage} :
    governed ∈ context.operationUsages operation ↔
      (∃ usage ∈ context.usages none (.operation operation),
        govern (operation.declarations context.schema) (operation.declarations context.schema)
          usage = governed) ∨
      ∃ fragment ∈ context.reached operation,
        ∃ usage ∈ context.usages (some fragment.name.text) (.fragment fragment),
          govern (fragment.declarations context.schema) (operation.declarations context.schema)
            usage = governed := by
  simp only [operationUsages, fragmentUsages, List.mem_append, List.mem_flatMap, List.mem_map]

/-- The uses in a fragment that an operation reaches are among the uses of the operation. -/
theorem mem_operationUsages_of_reached {operation : Operation} {fragment : Fragment}
    (hreached : fragment ∈ context.reached operation) {usage : Usage}
    (husage : usage ∈ context.usages (some fragment.name.text) (.fragment fragment)) :
    govern (fragment.declarations context.schema) (operation.declarations context.schema) usage ∈
      context.operationUsages operation := by
  rw [mem_operationUsages_iff]
  exact Or.inr ⟨fragment, hreached, usage, husage, rfl⟩

end Context

end RelayCheck
