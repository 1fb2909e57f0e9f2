import RelayCheck.Language.Value

/-!
# Values without variables

A value may be written inside of lists and objects, at any depth. Values in which no variable occurs
can be judged without knowing what variables stand for.

The module introduces:

- `Value.OccursIn`, a value that is written somewhere in another;
- `Value.IsConstant`, the values in which no variable occurs.

The main result is `Value.hasVariable_eq_false_iff`: the search for variables finds none exactly in
the constant values.
-/

namespace RelayCheck

namespace Value

variable {part value : Value}

/-- A value is the given one or is written inside of it, at any depth. -/
inductive OccursIn (part : Value) : Value → Prop
  | here : OccursIn part part
  | item {item : Value} {items : List Value} {pos : Position} (hitem : item ∈ items)
      (hinside : OccursIn part item) : OccursIn part (.list items pos)
  | field {name : Name} {value : Value} {fields : List (Name × Value)} {pos : Position}
      (hfield : (name, value) ∈ fields) (hinside : OccursIn part value) :
      OccursIn part (.object fields pos)

/-- No variable occurs in the value, at any depth. -/
def IsConstant (value : Value) : Prop :=
  ∀ name pos, ¬(Value.variable name pos).OccursIn value

/-- The variables in the items of a list are those in each of them. -/
theorem itemVariables_eq_flatMap (items : List Value) :
    itemVariables items = items.flatMap mentions := by
  induction items with
  | nil => rfl
  | cons item rest ih => rw [itemVariables, ih, List.flatMap_cons]

/-- The variables in the fields of an object are those in the value of each of them. -/
theorem fieldVariables_eq_flatMap (fields : List (Name × Value)) :
    fieldVariables fields = fields.flatMap fun field => field.2.mentions := by
  induction fields with
  | nil => rfl
  | cons field rest ih => rw [fieldVariables, ih, List.flatMap_cons]

/-- What occurs in a value mentions no other variables. -/
theorem OccursIn.mentions_subset (h : part.OccursIn value) : part.mentions ⊆ value.mentions := by
  induction h with
  | here => exact List.Subset.refl _
  | @item item items pos hitem _ ih =>
    intro mention hmention
    rw [mentions, itemVariables_eq_flatMap]
    exact List.mem_flatMap.mpr ⟨item, hitem, ih hmention⟩
  | @field name value fields pos hfield _ ih =>
    intro mention hmention
    rw [mentions, fieldVariables_eq_flatMap]
    exact List.mem_flatMap.mpr ⟨(name, value), hfield, ih hmention⟩

section Mentions

variable {name : Name} {pos : Position}

mutual

/-- A variable that a value mentions occurs in it. -/
theorem occursIn_of_mem_mentions :
    ∀ {value : Value}, (name, pos) ∈ value.mentions → (Value.variable name pos).OccursIn value
  | .variable other place, h => by
    cases List.mem_singleton.mp h
    exact .here
  | .list items place, h => by
    obtain ⟨item, hitem, hinside⟩ := exists_mem_of_mem_itemVariables h
    exact .item hitem hinside
  | .object fields place, h => by
    obtain ⟨⟨key, value⟩, hfield, hinside⟩ := exists_mem_of_mem_fieldVariables h
    exact .field hfield hinside
  | .int .., h | .float .., h | .string .., h | .boolean .., h | .null .., h | .enum .., h => by
    cases h

/-- A variable that a list mentions occurs in an item. -/
theorem exists_mem_of_mem_itemVariables :
    ∀ {items : List Value}, (name, pos) ∈ itemVariables items →
      ∃ item ∈ items, (Value.variable name pos).OccursIn item
  | [], h => by cases h
  | item :: rest, h => by
    rcases List.mem_append.mp h with hitem | hrest
    · exact ⟨item, List.mem_cons_self, occursIn_of_mem_mentions hitem⟩
    · obtain ⟨other, hother, hinside⟩ := exists_mem_of_mem_itemVariables hrest
      exact ⟨other, List.mem_cons_of_mem _ hother, hinside⟩

/-- A variable that an object mentions occurs in the value of a field. -/
theorem exists_mem_of_mem_fieldVariables :
    ∀ {fields : List (Name × Value)}, (name, pos) ∈ fieldVariables fields →
      ∃ field ∈ fields, (Value.variable name pos).OccursIn field.2
  | [], h => by cases h
  | (key, value) :: rest, h => by
    rcases List.mem_append.mp h with hvalue | hrest
    · exact ⟨(key, value), List.mem_cons_self, occursIn_of_mem_mentions hvalue⟩
    · obtain ⟨other, hother, hinside⟩ := exists_mem_of_mem_fieldVariables hrest
      exact ⟨other, List.mem_cons_of_mem _ hother, hinside⟩

end

/-- A value mentions the variables that occur in it. -/
theorem mem_mentions_iff :
    (name, pos) ∈ value.mentions ↔ (Value.variable name pos).OccursIn value :=
  ⟨occursIn_of_mem_mentions, fun h => h.mentions_subset (List.mem_singleton_self _)⟩

end Mentions

/-- The search for variables finds none exactly in the constant values. -/
theorem hasVariable_eq_false_iff : value.hasVariable = false ↔ value.IsConstant := by
  rw [hasVariable, Bool.not_eq_false', List.isEmpty_iff, List.eq_nil_iff_forall_not_mem]
  exact ⟨fun h name pos => mt mem_mentions_iff.mpr (h (name, pos)),
    fun h mention => mt mem_mentions_iff.mp (h mention.1 mention.2)⟩

/-- The search for variables finds some exactly in values that are not constant. -/
theorem hasVariable_eq_true_iff : value.hasVariable = true ↔ ¬value.IsConstant := by
  rw [← hasVariable_eq_false_iff, Bool.not_eq_false]

instance (value : Value) : Decidable value.IsConstant :=
  decidable_of_iff _ hasVariable_eq_false_iff

end Value

end RelayCheck
