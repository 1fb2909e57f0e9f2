import RelayCheck.Fragments.Variables

/-!
# Renaming the variables in a value

The variables that occur in a value may be given other names. Nothing else about the value changes:
neither where its parts stand, nor the shape of its lists and objects.

The module introduces `Value.renameVariables`. The main results are `mentions_renameVariables`, that
the variables of the new value are those of the old one by their new names, and
`renameVariables_of_constant`, that there is nothing to rename in a value without variables.
-/

namespace RelayCheck

/-- A name with another text, at the same place. -/
def Name.rename (f : String → String) (name : Name) : Name :=
  { name with text := f name.text }

/-- With the same text a name is the same. -/
@[simp]
theorem Name.rename_id (name : Name) : name.rename id = name := rfl

namespace Value

mutual

/-- The value with other names of the variables that occur in it. -/
def renameVariables (f : String → String) : Value → Value
  | .variable name pos => .variable (name.rename f) pos
  | .list items pos => .list (renameItems f items) pos
  | .object fields pos => .object (renameFields f fields) pos
  | .int text pos => .int text pos
  | .float text pos => .float text pos
  | .string content block pos => .string content block pos
  | .boolean value pos => .boolean value pos
  | .null pos => .null pos
  | .enum name pos => .enum name pos

/-- The items of a list with other names of variables. -/
def renameItems (f : String → String) : List Value → List Value
  | [] => []
  | item :: rest => item.renameVariables f :: renameItems f rest

/-- The fields of an object with other names of variables. -/
def renameFields (f : String → String) : List (Name × Value) → List (Name × Value)
  | [] => []
  | (name, value) :: rest => (name, value.renameVariables f) :: renameFields f rest

end

variable {f : String → String}

mutual

/-- The variables of a value are renamed one by one. -/
theorem mentions_renameVariables (f : String → String) :
    ∀ value : Value, (value.renameVariables f).mentions =
      value.mentions.map fun (name, pos) => (name.rename f, pos)
  | .variable name pos => by rw [renameVariables, mentions, mentions, List.map_singleton]
  | .list items pos => by
    rw [renameVariables, mentions, mentions, itemVariables_renameItems f items]
  | .object fields pos => by
    rw [renameVariables, mentions, mentions, fieldVariables_renameFields f fields]
  | .int text pos => by rw [renameVariables, mentions, List.map_nil]
  | .float text pos => by rw [renameVariables, mentions, List.map_nil]
  | .string content block pos => by rw [renameVariables, mentions, List.map_nil]
  | .boolean value pos => by rw [renameVariables, mentions, List.map_nil]
  | .null pos => by rw [renameVariables, mentions, List.map_nil]
  | .enum name pos => by rw [renameVariables, mentions, List.map_nil]

/-- The variables in the items of a list are renamed one by one. -/
theorem itemVariables_renameItems (f : String → String) :
    ∀ items : List Value, itemVariables (renameItems f items) =
      (itemVariables items).map fun (name, pos) => (name.rename f, pos)
  | [] => by rw [renameItems, itemVariables, List.map_nil]
  | item :: rest => by
    rw [renameItems, itemVariables, itemVariables, mentions_renameVariables f item,
      itemVariables_renameItems f rest, List.map_append]

/-- The variables in the fields of an object are renamed one by one. -/
theorem fieldVariables_renameFields (f : String → String) :
    ∀ fields : List (Name × Value), fieldVariables (renameFields f fields) =
      (fieldVariables fields).map fun (name, pos) => (name.rename f, pos)
  | [] => by rw [renameFields, fieldVariables, List.map_nil]
  | (name, value) :: rest => by
    rw [renameFields, fieldVariables, fieldVariables, mentions_renameVariables f value,
      fieldVariables_renameFields f rest, List.map_append]

end

mutual

/-- If the variables of a value keep their names, the value is the same. -/
theorem renameVariables_eq_self :
    ∀ {value : Value}, (∀ mention ∈ value.mentions, f mention.1.text = mention.1.text) →
      value.renameVariables f = value
  | .variable name pos, h => by
    rw [mentions, List.forall_mem_singleton] at h
    rw [renameVariables, Name.rename, h]
  | .list items pos, h => by
    rw [renameVariables, renameItems_eq_self h]
  | .object fields pos, h => by
    rw [renameVariables, renameFields_eq_self h]
  | .int text pos, h => by rw [renameVariables]
  | .float text pos, h => by rw [renameVariables]
  | .string content block pos, h => by rw [renameVariables]
  | .boolean value pos, h => by rw [renameVariables]
  | .null pos, h => by rw [renameVariables]
  | .enum name pos, h => by rw [renameVariables]

/-- If the variables in the items of a list keep their names, the items are the same. -/
theorem renameItems_eq_self :
    ∀ {items : List Value}, (∀ mention ∈ itemVariables items, f mention.1.text = mention.1.text) →
      renameItems f items = items
  | [], h => by rw [renameItems]
  | item :: rest, h => by
    rw [itemVariables, List.forall_mem_append] at h
    rw [renameItems, renameVariables_eq_self h.1, renameItems_eq_self h.2]

/-- If the variables in the fields of an object keep their names, the fields are the same. -/
theorem renameFields_eq_self :
    ∀ {fields : List (Name × Value)},
      (∀ mention ∈ fieldVariables fields, f mention.1.text = mention.1.text) →
        renameFields f fields = fields
  | [], h => by rw [renameFields]
  | (name, value) :: rest, h => by
    rw [fieldVariables, List.forall_mem_append] at h
    rw [renameFields, renameVariables_eq_self h.1, renameFields_eq_self h.2]

end

/-- If names are kept, so are values. -/
@[simp]
theorem renameVariables_id (value : Value) : value.renameVariables id = value :=
  renameVariables_eq_self fun _ _ => rfl

/-- In a value without variables there is nothing to rename. -/
theorem renameVariables_of_constant {value : Value} (h : value.hasVariable = false) :
    value.renameVariables f = value := by
  rw [hasVariable, Bool.not_eq_false', List.isEmpty_iff] at h
  refine renameVariables_eq_self ?_
  rw [h]
  exact List.forall_mem_nil _

/-- Renaming variables removes none of them. -/
@[simp]
theorem hasVariable_renameVariables (value : Value) :
    (value.renameVariables f).hasVariable = value.hasVariable := by
  rw [hasVariable, hasVariable, mentions_renameVariables, List.isEmpty_map]

/-- Renaming variables keeps the place of a value. -/
@[simp]
theorem pos_renameVariables (value : Value) : (value.renameVariables f).pos = value.pos := by
  cases value <;> rw [renameVariables] <;> rfl

/-- Renaming variables keeps the kind of a value. -/
@[simp]
theorem kind_renameVariables (value : Value) : (value.renameVariables f).kind = value.kind := by
  cases value <;> rw [renameVariables] <;> rfl

/-- Renaming variables neither makes a value null nor the contrary. -/
@[simp]
theorem isNull_renameVariables (value : Value) :
    (value.renameVariables f).isNull = value.isNull := by
  cases value <;> rw [renameVariables] <;> rfl

/-- The fields of an object have their variables renamed one by one. -/
theorem renameFields_eq_map (fields : List (Name × Value)) :
    renameFields f fields = fields.map fun (name, value) => (name, value.renameVariables f) := by
  induction fields with
  | nil => rw [renameFields, List.map_nil]
  | cons field rest ih =>
    obtain ⟨name, value⟩ := field
    rw [renameFields, ih, List.map_cons]

/-- Renaming variables makes no objects. -/
theorem objectFields?_renameVariables (value : Value) :
    (value.renameVariables f).objectFields? = value.objectFields?.map (renameFields f) := by
  cases value <;> rw [renameVariables] <;> rfl

end Value

end RelayCheck
