import RelayCheck.Validation.Rule

/-!
# Literals

Literals are of the type of their position. Lists and input objects are judged by their parts; a
list where none is expected, an object where no input object is, and every literal without parts
are judged as a whole. Nothing is said about positions of unknown type.
-/

namespace RelayCheck.LanguageRules

/-- The findings on a literal that is judged as a whole, at the type of its position. -/
def judgeWhole (schema : Schema) (type : Option (TypeRef String)) (value : Value) :
    List Finding :=
  match type with
  | none => []
  | some type =>
    match schema.type? type.baseName with
    | none => []
    | some base =>
      if base.isLeaf then
        match base.readLeaf value with
        | .ok _ => []
        | .error fault => [.language (.badLeaf type base fault value) [value.pos]]
      else [.language (.badValue type value) [value.pos]]

/-- The findings on the fields of an object as a whole: those that are required are given, and of
an input object that takes one field exactly one is given. -/
def judgeFields (type : String) (parameters : List Parameter) (oneOf : Bool)
    (fields : List (Name × Value)) (pos : Position) : List Finding :=
  let given := fields.map fun field => field.1.text
  let missing := (parameters.filter fun parameter =>
    parameter.isRequired && !given.contains parameter.name).map fun parameter =>
      Finding.language (.missingInputField parameter.name type parameter.type) [pos]
  let single :=
    if !oneOf then []
    else match given.eraseDups with
      | [name] =>
        let value := (fields.reverse.find? fun field => field.1.text == name).map Prod.snd
        if value.any Value.isNull then [Finding.language (.nullOneField name type) [pos]] else []
      | _ => [Finding.language (.notOneField type) [pos]]
  missing ++ single

/-- The findings on a literal whose scope is that of its visit. -/
def judgeValue (schema : Schema) (scope : Scope) (value : Value) : List Finding :=
  match value with
  | .variable .. => []
  | .null pos =>
    match scope.input with
    | some type => if type.isNonNull then [.language (.badValue type value) [pos]] else []
    | none => []
  | .list .. =>
    if Scope.expectsList scope.outerInput then [] else judgeWhole schema scope.input value
  | .object fields pos =>
    match scope.input.bind fun type => schema.type? type.baseName with
    | some ⟨name, .inputObject parameters oneOf⟩ =>
      judgeFields name parameters oneOf fields pos
    | _ => judgeWhole schema scope.input value
  | _ => judgeWhole schema scope.input value

/-- Literals are of the type of their position. -/
def valuesOfCorrectType (context : Context) : Rule :=
  let schema := context.schema
  .onEnter fun visit =>
    if visit.scope.whole then []
    else match visit.node with
      | .value value => judgeValue schema visit.scope value
      | .objectField name _ =>
        match visit.scope.input, visit.scope.outerInput with
        | none, some type =>
          match schema.inputFields? type with
          | some parameters =>
            let similar := suggestions name.text (parameters.map Parameter.name)
            [.language (.unknownInputField name.text type.baseName similar) [name.pos]]
          | none => []
        | _, _ => []
      | _ => []

end RelayCheck.LanguageRules
