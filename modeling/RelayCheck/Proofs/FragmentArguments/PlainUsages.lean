import RelayCheck.Fragments.Variables
import RelayCheck.Proofs.FragmentArguments.Positions

/-!
# Uses with and without fragment arguments

Without fragment arguments, the uses in a definition are the variables that are written in it
outside of declarations, each with the type and default that the schema has for its position.
Directives that give fragment arguments change this in a few places, and what they change can be
read off the text: which variables they drop, and which get another type and default.

The module introduces:

- `Definition.plainUsages`, the uses without fragment arguments;
- `Role`, what a variable is to the directives around it, and `Definition.roles`, the variables of
  a definition with their roles, in the order of the text;
- `Context.change`, what fragment arguments make of a plain use with a given role.

The main result is `usages_eq_change_plainUsages`.
-/

namespace RelayCheck

/-! ## Plain uses -/

/-- The use of a variable that an event is, if it is one and no declaration: at the type and default
that the schema has for the position. -/
def plainUsage? (fragment : Option String) : Event → Option Usage
  | .enter ⟨.value (.variable name pos), scope⟩ =>
    if scope.declaring then none
    else some ⟨name.text, pos, scope.input, scope.default.map .value, fragment⟩
  | _ => none

/-- The uses in a definition without regard to fragment arguments, in order. -/
def Definition.plainUsages (schema : Schema) (fragment : Option String) (definition : Definition) :
    List Usage :=
  (definition.events schema).filterMap (plainUsage? fragment)

/-! ## Roles of variables -/

/-- What a variable is to the directives that give arguments to fragments. -/
inductive Role
  /-- It is in no such directive. -/
  | plain
  /-- It is in such a directive on anything but a spread. -/
  | misplaced
  /-- It is all of the value given to an argument on a spread. -/
  | whole (spread : Spread) (argument : String)
  /-- It is inside of a value given on a spread. -/
  | part (spread : Spread)

/-- Variables, each with the position of its dollar sign, and their roles. -/
abbrev Roles := List ((Name × Position) × Role)

/-- The variables in a value: the value itself may be one, or they are inside of it. -/
def Value.roles (whole part : Role) : Value → Roles
  | .variable name pos => [((name, pos), whole)]
  | value => value.mentions.map (·, part)

/-- The variables in an argument that is given on a spread. -/
def Argument.roles (spread : Spread) (argument : Argument) : Roles :=
  argument.value.roles (.whole spread argument.name.text) (.part spread)

/-- The variables in a directive, on the given spread or on anything else. -/
def Directive.roles (spread : Option Spread) (directive : Directive) : Roles :=
  if directive.name.text = argumentsName then
    match spread with
    | some spread => directive.arguments.flatMap (Argument.roles spread)
    | none => (argumentVariables directive.arguments).map (·, .misplaced)
  else (argumentVariables directive.arguments).map (·, .plain)

mutual

/-- The variables in a selection. -/
def Selection.roles : Selection → Roles
  | .field field selections =>
    (argumentVariables field.arguments).map (·, .plain)
      ++ field.directives.flatMap (Directive.roles none) ++ selectionRoles selections
  | .spread spread => spread.directives.flatMap (Directive.roles (some spread))
  | .inlineFragment fragment selections =>
    fragment.directives.flatMap (Directive.roles none) ++ selectionRoles selections

/-- The variables in a selection set. -/
def selectionRoles : List Selection → Roles
  | [] => []
  | selection :: rest => selection.roles ++ selectionRoles rest

end

/-- The variables that a definition uses, outside of declarations. -/
def Definition.roles : Definition → Roles
  | .operation o => o.directives.flatMap (Directive.roles none) ++ selectionRoles o.selections
  | .fragment f => f.directives.flatMap (Directive.roles none) ++ selectionRoles f.selections
  | _ => []

/-- The variables that a definition uses, without their roles. -/
def Definition.usedVariables : Definition → List (Name × Position)
  | .operation o => o.usedVariables
  | .fragment f => f.usedVariables
  | _ => []

/-- What fragment arguments make of a plain use of the given role: it is dropped unless it is given
to a fragment of the document, and then it has the type and default of the fragment's argument if
it is all of the value, and none if it is a part. -/
def Context.change (context : Context) : Role → Usage → Option Usage
  | .plain, usage => some usage
  | .misplaced, _ => none
  | .whole spread argument, usage =>
    (context.fragment? spread.name.text).map fun fragment =>
      let declaration := (fragment.declarations context.schema).get? argument
      { usage with
        type := declaration.bind Declaration.type
        default := (declaration.bind Declaration.default).map .literal }
  | .part spread, usage =>
    (context.fragment? spread.name.text).map fun _ => { usage with type := none, default := none }

/-! ## Variables and their roles -/

section Roles

/-- Pairing with something loses nothing. -/
theorem map_fst_map_pair {α β : Type} (items : List α) (value : β) :
    (items.map (·, value)).map Prod.fst = items := by
  rw [List.map_map]
  exact List.map_id items

/-- The variables with roles in a value are those of the value. -/
theorem Value.map_fst_roles (whole part : Role) (value : Value) :
    (value.roles whole part).map Prod.fst = value.mentions := by
  unfold Value.roles
  split
  next name pos =>
    rw [Value.mentions]
    rfl
  next => exact map_fst_map_pair _ _

/-- The variables with roles in a directive are those of its arguments. -/
theorem Directive.map_fst_roles (spread : Option Spread) (directive : Directive) :
    (directive.roles spread).map Prod.fst = argumentVariables directive.arguments := by
  unfold Directive.roles
  split
  · cases spread with
    | none => exact map_fst_map_pair _ _
    | some spread =>
      rw [List.map_flatMap, argumentVariables]
      exact List.flatMap_congr fun argument _ => argument.value.map_fst_roles _ _
  · exact map_fst_map_pair _ _

/-- The variables with roles in directives are those of the directives. -/
theorem map_fst_directiveRoles (spread : Option Spread) (directives : List Directive) :
    (directives.flatMap (Directive.roles spread)).map Prod.fst =
      directiveVariables directives := by
  rw [List.map_flatMap, directiveVariables]
  exact List.flatMap_congr fun directive _ => directive.map_fst_roles spread

/-- The variables with roles in selections are those of the selections. -/
theorem map_fst_selectionRoles :
    ∀ selections : List Selection,
      (selectionRoles selections).map Prod.fst = selectionVariables selections
  | [] => by rw [selectionRoles, selectionVariables, List.map_nil]
  | .field field nested :: rest => by
    rw [selectionRoles, selectionVariables, Selection.roles, Selection.mentions]
    simp only [List.map_append, map_fst_map_pair, map_fst_directiveRoles,
      map_fst_selectionRoles nested, map_fst_selectionRoles rest]
  | .spread spread :: rest => by
    rw [selectionRoles, selectionVariables, Selection.roles, Selection.mentions]
    simp only [List.map_append, map_fst_directiveRoles, map_fst_selectionRoles rest]
  | .inlineFragment fragment nested :: rest => by
    rw [selectionRoles, selectionVariables, Selection.roles, Selection.mentions]
    simp only [List.map_append, map_fst_directiveRoles, map_fst_selectionRoles nested,
      map_fst_selectionRoles rest]

/-- The variables with roles are those that the definition uses. -/
theorem Definition.map_fst_roles (definition : Definition) :
    definition.roles.map Prod.fst = definition.usedVariables := by
  cases definition with
  | operation operation =>
    simp only [roles, usedVariables, Operation.usedVariables, List.map_append,
      map_fst_directiveRoles, map_fst_selectionRoles]
  | fragment fragment =>
    simp only [roles, usedVariables, Fragment.usedVariables, List.map_append,
      map_fst_directiveRoles, map_fst_selectionRoles]
  | schema | schemaExtension | type | typeExtension | directive => rfl

end Roles

/-! ## Roles on the walk -/

/-- The role of a variable at a place. -/
def Scope.role (scope : Scope) : Role :=
  match scope.use.filter DirectiveUse.givesArguments with
  | none => .plain
  | some use =>
    match use.spread? with
    | none => .misplaced
    | some spread =>
      if scope.nested then .part spread
      else .whole spread ((scope.argument.map fun a => a.name.text).getD "")

/-- The role of a variable at a place; nothing if it is being declared there. -/
def Scope.role? (scope : Scope) : Option Role :=
  if scope.declaring then none else some scope.role

/-- The variable that an event is, if it is one and no declaration, with its role. -/
def roleAt? : Event → Option ((Name × Position) × Role)
  | .enter ⟨.value (.variable name pos), scope⟩ => scope.role?.map ((name, pos), ·)
  | _ => none

/-- The variables of a walk with their roles. -/
def walkRoles (events : List Event) : Roles :=
  events.filterMap roleAt?

/-- All variables have the role that there is; if there is none, they are declared. -/
def rolesOf (role : Option Role) (mentions : List (Name × Position)) : Roles :=
  mentions.filterMap fun mention => role.map (mention, ·)

section Walk

variable {schema : Schema}

@[simp]
theorem walkRoles_append (first second : List Event) :
    walkRoles (first ++ second) = walkRoles first ++ walkRoles second :=
  List.filterMap_append

@[simp]
theorem walkRoles_flatMap {α : Type} (walk : α → List Event) (items : List α) :
    walkRoles (items.flatMap walk) = items.flatMap fun item => walkRoles (walk item) :=
  List.filterMap_flatMap

/-- In walks without variables there are none. -/
theorem walkRoles_flatMap_eq_nil {α : Type} {walk : α → List Event}
    (hwalk : ∀ item, walkRoles (walk item) = []) (items : List α) :
    walkRoles (items.flatMap walk) = [] := by
  rw [walkRoles_flatMap, List.flatMap_eq_nil_iff]
  exact fun item _ => hwalk item

/-- The variables in the walk of a node that is none itself are those of its parts. -/
theorem walkRoles_around {node : Node} (hnode : ∀ name pos, node ≠ .value (.variable name pos))
    (scope : Scope) (parts : List Event) :
    walkRoles (around node scope parts) = walkRoles parts := by
  have henter : roleAt? (.enter ⟨node, scope⟩) = none := by
    unfold roleAt?
    split
    next heq =>
      injection heq with hvisit
      injection hvisit with hvalue
      exact absurd hvalue (hnode _ _)
    next => rfl
  rw [around, walkRoles, List.filterMap_cons_none henter, List.filterMap_append]
  exact List.append_nil _

@[simp]
theorem rolesOf_append (role : Option Role) (first second : List (Name × Position)) :
    rolesOf role (first ++ second) = rolesOf role first ++ rolesOf role second :=
  List.filterMap_append

@[simp]
theorem rolesOf_none (mentions : List (Name × Position)) : rolesOf none mentions = [] := by
  simp [rolesOf]

@[simp]
theorem rolesOf_some (role : Role) (mentions : List (Name × Position)) :
    rolesOf (some role) mentions = mentions.map (·, role) := by
  simp [rolesOf]

/-- At the place, and everywhere inside lists and objects there, variables have the role. -/
structure Scope.Keeps (role : Option Role) (scope : Scope) : Prop where
  here : scope.role? = role
  inside : Scope.role? { scope with nested := true } = role

namespace Scope.Keeps

variable {role : Option Role} {scope : Scope}

/-- The items of a list are inside. -/
theorem enterList (hinside : Scope.role? { scope with nested := true } = role) :
    (scope.enterList schema).Keeps role :=
  ⟨hinside, hinside⟩

/-- The fields of an object are inside. -/
theorem enterObjectField (hinside : Scope.role? { scope with nested := true } = role)
    (name : String) : (scope.enterObjectField schema name).Keeps role :=
  ⟨hinside, hinside⟩

end Scope.Keeps

mutual

/-- The variables in the walk of a value all have the role of the place. -/
theorem walkRoles_value {role : Option Role} :
    ∀ (value : Value) {scope : Scope}, scope.Keeps role →
      walkRoles (value.events schema scope) = rolesOf role value.mentions
  | .list items pos, scope, hscope => by
    rw [Value.events, walkRoles_around (by simp), walkRoles_items items (.enterList hscope.inside),
      Value.mentions]
  | .object fields pos, scope, hscope => by
    rw [Value.events, walkRoles_around (by simp), walkRoles_fields fields hscope.inside,
      Value.mentions]
  | .variable name pos, scope, hscope => by
    rw [Value.events, Value.mentions, ← hscope.here]
    rfl
  | .int text pos, scope, hscope => by
    rw [Value.events, Value.mentions]
    rfl
  | .float text pos, scope, hscope => by
    rw [Value.events, Value.mentions]
    rfl
  | .string content block pos, scope, hscope => by
    rw [Value.events, Value.mentions]
    rfl
  | .boolean value pos, scope, hscope => by
    rw [Value.events, Value.mentions]
    rfl
  | .null pos, scope, hscope => by
    rw [Value.events, Value.mentions]
    rfl
  | .enum name pos, scope, hscope => by
    rw [Value.events, Value.mentions]
    rfl

/-- The variables in the walk of the items of a list all have the role of the place. -/
theorem walkRoles_items {role : Option Role} :
    ∀ (items : List Value) {scope : Scope}, scope.Keeps role →
      walkRoles (itemEvents schema scope items) = rolesOf role (Value.itemVariables items)
  | [], scope, hscope => by
    rw [itemEvents, Value.itemVariables]
    rfl
  | item :: rest, scope, hscope => by
    rw [itemEvents, walkRoles_append, walkRoles_value item hscope, walkRoles_items rest hscope,
      Value.itemVariables, rolesOf_append]

/-- The variables in the walk of the fields of an object all have the role that there is inside. -/
theorem walkRoles_fields {role : Option Role} :
    ∀ (fields : List (Name × Value)) {scope : Scope} {earlier : List Name},
      Scope.role? { scope with nested := true } = role →
        walkRoles (fieldEvents schema scope earlier fields) =
          rolesOf role (Value.fieldVariables fields)
  | [], scope, earlier, hinside => by
    rw [fieldEvents, Value.fieldVariables]
    rfl
  | (name, value) :: rest, scope, earlier, hinside => by
    rw [fieldEvents, walkRoles_append, walkRoles_around (by simp),
      walkRoles_value value (.enterObjectField hinside name.text), walkRoles_fields rest hinside,
      Value.fieldVariables, rolesOf_append]

end

/-- The variables in the walk of arguments all have the role that a place in any argument has. -/
theorem walkRoles_arguments {role : Option Role} {scope : Scope} (arguments : List Argument)
    (hscope : ∀ argument nested,
      Scope.role? { scope with argument := some argument, nested } = role) :
    walkRoles (argumentEvents schema scope arguments) =
      rolesOf role (argumentVariables arguments) := by
  have hargument (argument : Argument) : (scope.enterArgument schema argument).Keeps role :=
    ⟨hscope argument false, hscope argument true⟩
  rw [argumentEvents, walkRoles_flatMap, argumentVariables, rolesOf, List.filterMap_flatMap]
  refine List.flatMap_congr fun argument _ => ?_
  rw [Argument.events, walkRoles_around (by simp), walkRoles_value _ (hargument argument), rolesOf]

/-- The variables in the walk of a value, where it is told from what is inside of it. -/
theorem walkRoles_value_of_role? {whole part : Role} :
    ∀ (value : Value) {scope : Scope}, scope.role? = some whole →
      Scope.role? { scope with nested := true } = some part →
        walkRoles (value.events schema scope) = value.roles whole part
  | .variable name pos, scope, hhere, hinside => by
    rw [Value.events, Value.roles, around, walkRoles, List.filterMap_cons, roleAt?, hhere]
    rfl
  | .list items pos, scope, hhere, hinside => by
    rw [Value.events, walkRoles_around (by simp), walkRoles_items items (.enterList hinside),
      rolesOf_some]
    rfl
  | .object fields pos, scope, hhere, hinside => by
    rw [Value.events, walkRoles_around (by simp), walkRoles_fields fields hinside, rolesOf_some]
    rfl
  | .int text pos, scope, hhere, hinside => by
    rw [Value.events]
    rfl
  | .float text pos, scope, hhere, hinside => by
    rw [Value.events]
    rfl
  | .string content block pos, scope, hhere, hinside => by
    rw [Value.events]
    rfl
  | .boolean value pos, scope, hhere, hinside => by
    rw [Value.events]
    rfl
  | .null pos, scope, hhere, hinside => by
    rw [Value.events]
    rfl
  | .enum name pos, scope, hhere, hinside => by
    rw [Value.events]
    rfl

/-- The role of a variable inside a directive on a spread that gives arguments. -/
theorem Scope.role?_of_spread {spread : Spread} {use : DirectiveUse} {scope : Scope}
    (hdeclaring : scope.declaring = false) (huse : scope.use = some use)
    (hgives : use.givesArguments = true) (hspread : use.spread? = some spread) :
    scope.role? = some (if scope.nested then .part spread
      else .whole spread ((scope.argument.map fun a => a.name.text).getD "")) := by
  rw [role?, if_neg (by simp [hdeclaring]), role, huse, Option.filter_some, if_pos hgives]
  simp only [hspread]

/-- The variables in the walk of a directive have the roles that the directive gives them. -/
theorem walkRoles_directive {scope : Scope} (hdeclaring : scope.declaring = false)
    (use : DirectiveUse) :
    walkRoles (use.events schema scope) = use.directive.roles use.spread? := by
  rw [DirectiveUse.events, walkRoles_around (by simp)]
  unfold Directive.roles
  split
  next hname =>
    -- only on a spread does it matter how deep in a value a variable is
    have hgives : use.givesArguments = true := beq_iff_eq.mpr hname
    cases hspread : use.spread? with
    | none =>
      have hmisplaced : ∀ argument nested, Scope.role?
          { scope.enterDirective schema use with argument := some argument, nested } =
            some .misplaced := by
        intro argument nested
        simp [Scope.role?, Scope.role, Scope.enterDirective, hdeclaring, Option.filter_some,
          hgives, hspread]
      rw [walkRoles_arguments _ hmisplaced, rolesOf_some]
    | some spread =>
      rw [argumentEvents, walkRoles_flatMap]
      refine List.flatMap_congr fun argument _ => ?_
      rw [Argument.events, walkRoles_around (by simp)]
      exact walkRoles_value_of_role? argument.value
        (Scope.role?_of_spread hdeclaring rfl hgives hspread)
        (Scope.role?_of_spread hdeclaring rfl hgives hspread)
  next hname =>
    have hgives : use.givesArguments = false := beq_false_of_ne hname
    have hplain : ∀ argument nested, Scope.role?
        { scope.enterDirective schema use with argument := some argument, nested } =
          some .plain := by
      intro argument nested
      simp [Scope.role?, Scope.role, Scope.enterDirective, hdeclaring, Option.filter_some, hgives]
    rw [walkRoles_arguments _ hplain, rolesOf_some]

/-- The variables in the walk of directives have the roles that the directives give them. -/
theorem walkRoles_directives {scope : Scope} (hdeclaring : scope.declaring = false)
    {carrier : Carrier} {spread : Option Spread}
    (hcarrier : ∀ index directive, DirectiveUse.spread? ⟨carrier, index, directive⟩ = spread)
    (directives : List Directive) :
    walkRoles (directiveEvents schema scope carrier directives) =
      directives.flatMap (Directive.roles spread) := by
  conv_rhs => rw [← List.zipIdx_map_fst 0 directives]
  rw [directiveEvents, Carrier.uses, walkRoles_flatMap, List.flatMap_map, List.flatMap_map]
  refine List.flatMap_congr fun indexed _ => ?_
  rw [walkRoles_directive hdeclaring, hcarrier]

/-- Names of types are no variables. -/
theorem walkRoles_typeNames (scope : Scope) (names : List Name) :
    walkRoles (typeNameEvents scope names) = [] :=
  walkRoles_flatMap_eq_nil (fun _ => walkRoles_around (by simp) scope []) names

/-- The variables in the walk of selections have the roles that the text gives them. -/
theorem walkRoles_selections (schema : Schema) :
    ∀ (selections : List Selection) (scope : Scope), scope.declaring = false → scope.use = none →
      walkRoles (selectionEvents schema scope selections) = selectionRoles selections
  | [], scope, hdeclaring, huse => by
    rw [selectionEvents, selectionRoles]
    rfl
  | .field field nested :: rest, scope, hdeclaring, huse => by
    have hinner : (scope.enterField schema field).declaring = false := hdeclaring
    have hnested := walkRoles_selections schema nested
      ((scope.enterField schema field).enterSelections schema) hdeclaring huse
    -- the arguments of a field give nothing to fragments
    have hplain : ∀ argument nested, Scope.role?
        { scope.enterField schema field with argument := some argument, nested } =
          some .plain := by
      intro argument nested
      simp [Scope.role?, Scope.role, Scope.enterField, hdeclaring, huse]
    rw [selectionEvents, Selection.events, walkRoles_append, walkRoles_around (by simp),
      walkRoles_append, walkRoles_append, walkRoles_arguments _ hplain, rolesOf_some,
      walkRoles_directives hinner fun _ _ => rfl, hnested,
      walkRoles_selections schema rest scope hdeclaring huse,
      selectionRoles, Selection.roles]
  | .spread spread :: rest, scope, hdeclaring, huse => by
    rw [selectionEvents, Selection.events, walkRoles_append, walkRoles_around (by simp),
      walkRoles_directives hdeclaring fun _ _ => rfl,
      walkRoles_selections schema rest scope hdeclaring huse,
      selectionRoles, Selection.roles]
  | .inlineFragment fragment nested :: rest, scope, hdeclaring, huse => by
    have hinner : (scope.enterFragment schema fragment.typeCondition).declaring = false :=
      hdeclaring
    have hnested := walkRoles_selections schema nested
      ((scope.enterFragment schema fragment.typeCondition).enterSelections schema) hdeclaring huse
    rw [selectionEvents, Selection.events, walkRoles_append, walkRoles_around (by simp),
      walkRoles_append, walkRoles_append, walkRoles_typeNames, List.nil_append,
      walkRoles_directives hinner fun _ _ => rfl, hnested,
      walkRoles_selections schema rest scope hdeclaring huse,
      selectionRoles, Selection.roles]

/-- In the declaration of a variable, no variable has a role. -/
theorem walkRoles_variableDefinition (scope : Scope) (declared : VariableDefinition) :
    walkRoles (declared.events schema scope) = [] := by
  -- in the declaration of a variable no variable has a role
  have hnone (inner : Scope) (hdeclaring : inner.declaring = true) : inner.role? = none := by
    rw [Scope.role?, if_pos hdeclaring]
  have hkeeps : (scope.enterVariableDefinition schema declared).Keeps none :=
    ⟨hnone _ rfl, hnone _ rfl⟩
  have hvalue (value : Value) : walkRoles (value.events schema
      (scope.enterVariableDefinition schema declared)) = [] := by
    rw [walkRoles_value value hkeeps, rolesOf_none]
  have huse (use : DirectiveUse) : walkRoles (use.events schema
      (scope.enterVariableDefinition schema declared)) = [] := by
    rw [DirectiveUse.events, walkRoles_around (by simp),
      walkRoles_arguments _ fun _ _ => hnone _ rfl, rolesOf_none]
  rw [VariableDefinition.events, walkRoles_around (by simp), walkRoles_append, walkRoles_append,
    walkRoles_append, hvalue, typeEvents, walkRoles_around (by simp), directiveEvents,
    walkRoles_flatMap_eq_nil hvalue, walkRoles_flatMap_eq_nil huse]
  rfl

/-- The variables in the walk of an operation or fragment have the roles that the text gives
them. -/
theorem walkRoles_definition (schema : Schema) {definition : Definition}
    (hexecutable : definition.isTypeSystem = false) :
    walkRoles (definition.events schema) = definition.roles := by
  cases definition with
  | operation operation =>
    have hscope : (Scope.enterOperation schema {} operation).declaring = false := rfl
    have hselections := walkRoles_selections schema operation.selections
      ((Scope.enterOperation schema {} operation).enterSelections schema) rfl rfl
    rw [Definition.events, Operation.events, walkRoles_around (by simp), walkRoles_append,
      walkRoles_append, walkRoles_flatMap_eq_nil (walkRoles_variableDefinition _), hselections,
      walkRoles_directives hscope fun _ _ => rfl]
    rfl
  | fragment fragment =>
    have hscope : (Scope.enterFragment schema {} (some fragment.typeCondition)).declaring = false :=
      rfl
    have hselections := walkRoles_selections schema fragment.selections
      ((Scope.enterFragment schema {} (some fragment.typeCondition)).enterSelections schema) rfl rfl
    rw [Definition.events, Fragment.events, walkRoles_around (by simp), walkRoles_append,
      walkRoles_append, walkRoles_typeNames, hselections,
      walkRoles_directives hscope fun _ _ => rfl]
    rfl
  | schema | schemaExtension | type | typeExtension | directive => cases hexecutable

end Walk

/-! ## Plain uses and uses -/

section Uses

variable {context : Context} {fragment : Option String}

/-- A use of a variable and its role, if it is no declaration. -/
def roleUsage? (fragment : Option String) : Event → Option (Role × Usage)
  | .enter ⟨.value (.variable name pos), scope⟩ =>
    scope.role?.map fun role =>
      (role, ⟨name.text, pos, scope.input, scope.default.map .value, fragment⟩)
  | _ => none

/-- Without its role, a use is plain. -/
theorem map_snd_roleUsage? (fragment : Option String) (event : Event) :
    (roleUsage? fragment event).map Prod.snd = plainUsage? fragment event := by
  unfold roleUsage? plainUsage?
  split
  next name pos scope =>
    rw [Scope.role?]
    split <;> rfl
  next => rfl

/-- Without its position, a use is the variable in its role. -/
theorem map_roleUsage? (fragment : Option String) (event : Event) :
    (roleUsage? fragment event).map (fun (role, usage) => ((usage.name, usage.pos), role)) =
      (roleAt? event).map fun (mention, role) => ((mention.1.text, mention.2), role) := by
  unfold roleUsage? roleAt?
  split
  next name pos scope =>
    rw [Option.map_map, Option.map_map]
    rfl
  next => rfl

/-- What is expected of a value given to a fragment is what its argument declares. -/
theorem boundPosition_eq (target : Fragment) (argument : String) :
    context.boundPosition target argument =
      let declaration := (target.declarations context.schema).get? argument
      (declaration.bind Declaration.type, (declaration.bind Declaration.default).map .literal) := by
  rw [Context.boundPosition]
  cases (target.declarations context.schema).get? argument with
  | none => rfl
  | some declaration => rfl

/-- At a position, fragment arguments change the type and default of the schema as they change a
plain use that has these. -/
theorem map_position?_eq_change {scope : Scope} (hdeclaring : scope.declaring = false)
    (usage : Usage) (htype : usage.type = scope.input)
    (hdefault : usage.default = scope.default.map .value) :
    (context.position? scope).map (fun (type, default) => { usage with type, default }) =
      context.change scope.role usage := by
  unfold Context.position? Scope.role
  rw [if_neg (by simp [hdeclaring])]
  -- outside of directives that give arguments to a fragment, the schema decides as for a plain use
  cases huse : scope.use.filter DirectiveUse.givesArguments with
  | none => rw [Option.map_some, ← htype, ← hdefault, Context.change]
  | some use =>
    dsimp only
    rw [Context.target?]
    cases hspread : use.spread? with
    | none => rfl
    | some spread =>
      rw [Option.bind_some, Option.map_map]
      dsimp only
      split
      next hnested => rfl
      next hnested =>
        refine congrArg (Option.map · _) (funext fun fragment => ?_)
        rw [Function.comp_apply, boundPosition_eq]

/-- What is expected at a position is what fragment arguments make of the plain use. -/
theorem bind_change_roleUsage? (event : Event) :
    ((roleUsage? fragment event).bind fun (role, usage) => context.change role usage) =
      context.usage? fragment event := by
  unfold roleUsage?
  -- only entering a variable shows a use
  split
  next name pos scope =>
    rw [Context.usage?, Scope.role?]
    split
    next hdeclaring =>
      rw [Context.position?, if_pos hdeclaring]
      rfl
    next hdeclaring =>
      rw [Bool.not_eq_true] at hdeclaring
      exact (map_position?_eq_change hdeclaring _ rfl rfl).symm
  next hother =>
    unfold Context.usage?
    split
    next name pos scope => exact (hother name pos scope rfl).elim
    next => rfl

/-- The variables in the uses of a walk, with their roles, are those that the text has. -/
theorem map_filterMap_roleUsage? (schema : Schema) (fragment : Option String)
    {definition : Definition} (hexecutable : definition.isTypeSystem = false) :
    ((definition.events schema).filterMap (roleUsage? fragment)).map
        (fun (role, usage) => ((usage.name, usage.pos), role)) =
      definition.roles.map fun (mention, role) => ((mention.1.text, mention.2), role) := by
  rw [← walkRoles_definition schema hexecutable, walkRoles, List.map_filterMap, List.map_filterMap]
  exact List.filterMap_congr fun event _ => map_roleUsage? fragment event

/-- The plain uses in an operation or fragment have the roles that the text gives them. -/
theorem filterMap_roleUsage?_eq_zip (schema : Schema) (fragment : Option String)
    {definition : Definition} (hexecutable : definition.isTypeSystem = false) :
    (definition.events schema).filterMap (roleUsage? fragment) =
      (definition.roles.map Prod.snd).zip (definition.plainUsages schema fragment) := by
  have hplain : ((definition.events schema).filterMap (roleUsage? fragment)).map Prod.snd =
      definition.plainUsages schema fragment := by
    simp only [Definition.plainUsages, List.map_filterMap, map_snd_roleUsage?]
  have hrole : ((definition.events schema).filterMap (roleUsage? fragment)).map Prod.fst =
      definition.roles.map Prod.snd := by
    have hsnd := congrArg (List.map Prod.snd)
      (map_filterMap_roleUsage? schema fragment hexecutable)
    rw [List.map_map, List.map_map] at hsnd
    exact hsnd
  rw [← hrole, ← hplain, List.zip_map', List.map_id']

/-- The uses in an operation or fragment are its plain uses with the changes that their roles
make. -/
theorem usages_eq_filterMap_change {definition : Definition}
    (hexecutable : definition.isTypeSystem = false) :
    context.usages fragment definition =
      ((definition.roles.map Prod.snd).zip
        (definition.plainUsages context.schema fragment)).filterMap
          fun (role, usage) => context.change role usage := by
  rw [← filterMap_roleUsage?_eq_zip context.schema fragment hexecutable, List.filterMap_filterMap,
    Context.usages]
  exact List.filterMap_congr fun event _ => (bind_change_roleUsage? event).symm

/-- The uses in an operation or fragment are its plain uses with the changes that fragment arguments
make. These depend on the roles of the variables alone, which can be read off the text: the
variables are those outside of declarations, in order. -/
theorem usages_eq_change_plainUsages {definition : Definition}
    (hexecutable : definition.isTypeSystem = false) :
    let plain := definition.plainUsages context.schema fragment
    definition.roles.map Prod.fst = definition.usedVariables ∧
      plain.map (fun usage => (usage.name, usage.pos)) =
        definition.usedVariables.map (fun mention => (mention.1.text, mention.2)) ∧
      context.usages fragment definition =
        ((definition.roles.map Prod.snd).zip plain).filterMap
          fun (role, usage) => context.change role usage := by
  intro plain
  have hmention : plain.map (fun usage => (usage.name, usage.pos)) =
      (definition.roles.map Prod.fst).map fun mention => (mention.1.text, mention.2) := by
    have hfst := congrArg (List.map Prod.fst)
      (map_filterMap_roleUsage? context.schema fragment hexecutable)
    rw [List.map_map, List.map_map] at hfst
    simp only [plain, Definition.plainUsages, ← map_snd_roleUsage?, ← List.map_filterMap]
    rw [List.map_map, List.map_map]
    exact hfst
  exact ⟨definition.map_fst_roles, definition.map_fst_roles ▸ hmention,
    usages_eq_filterMap_change hexecutable⟩

/-- A query with the size as a variable gives it to the fragment `P` and to `Q`, which is no
fragment, and selects a picture of this size. The use given to `Q` is dropped, and that given to `P`
has the type of the fragment's argument. -/
theorem usages_eq_change_plainUsages_size :
    let size : TypeRef Name := .named ⟨"Int", ⟨1, 16⟩⟩
    let given (name : String) (column : Nat) : Selection := .spread ⟨⟨name, ⟨2, column⟩⟩,
      [⟨⟨argumentsName, ⟨2, column + 3⟩⟩, [⟨⟨"size", ⟨2, column + 13⟩⟩,
        .variable ⟨"size", ⟨2, column + 20⟩⟩ ⟨2, column + 19⟩⟩], ⟨2, column + 2⟩⟩],
      ⟨2, column - 3⟩⟩
    let query : Definition := .operation { pictureQuery "A" "P" size 1 with
      selections := given "P" 6 :: given "Q" 36 :: (pictureFragment "P" 3).selections }
    let context := Context.ofDocument pictureSchema ⟨[query, .fragment sizedFragment]⟩
    query.isTypeSystem = false ∧
      (query.plainUsages context.schema none).length = 3 ∧
      (context.usages none query).map Usage.type =
        [some (.nonNull (.named "Int")), some (.nonNull (.named "Int"))] := by
  intro size given query context
  have hexecutable : query.isTypeSystem = false := rfl
  refine ⟨hexecutable, by decide +kernel, ?_⟩
  rw [(usages_eq_change_plainUsages hexecutable).2.2]
  decide +kernel

end Uses

end RelayCheck
