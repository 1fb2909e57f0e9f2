import RelayCheck.Schema.BuiltIn

/-!
# The Relay directives

Fragments declare arguments with `@argumentDefinitions`, spreads give them with `@arguments`, and
`@connection` marks the fields that are paginated. Documents are checked against a schema that
has these directives, whatever it says itself about directives of their names.

This module introduces `relayDirectives`, `Schema.withRelayDirectives` and `relayDirectivesText`,
their definitions as text.
-/

namespace RelayCheck

/-- The name of the directive that declares the arguments of a fragment. -/
def argumentDefinitionsName : String := "argumentDefinitions"

/-- The name of the directive that gives arguments to a fragment. -/
def argumentsName : String := "arguments"

/-- The name of the directive that marks a connection. -/
def connectionName : String := "connection"

/-- An argument with a description. -/
def describedParameter (name : String) (type : TypeRef String) (description : String) :
    Parameter :=
  ⟨name, type, none, some description, false⟩

/-- The directives for fragment arguments and connections. The arguments of the first two are
named by the fragments. -/
def relayDirectives : List SchemaDirective :=
  let text := TypeRef.named "String"
  let truth := TypeRef.named "Boolean"
  [⟨argumentDefinitionsName, [.fragmentDefinition], [], false⟩,
    ⟨argumentsName, [.fragmentSpread], [], false⟩,
    ⟨connectionName, [.field],
      [describedParameter "key" (.nonNull text)
          "Name under which the connection is stored in the client store.",
        describedParameter "filters" (.list text)
          "Arguments of the connection field that identify its edges.",
        describedParameter "handler" text "Name of a custom connection handler."], false⟩,
    ⟨"relay", [.fragmentDefinition, .fragmentSpread],
      [parameter "mask" truth, parameter "plural" truth], false⟩,
    ⟨"refetchable", [.fragmentDefinition], [parameter "queryName" (.nonNull text)], false⟩]

/-- Whether a directive has the name of one of the Relay directives. -/
def isRelayName (name : String) : Bool :=
  relayDirectives.any fun directive => directive.name == name

/-- The schema with the Relay directives after its others, in place of any of their names. -/
def Schema.withRelayDirectives (schema : Schema) : Schema :=
  { schema with
    directives :=
      (schema.directives.filter fun directive => !isRelayName directive.name)
        ++ relayDirectives }

/-! ## As text -/

/-- An argument as it is written in a definition. -/
def Parameter.text (parameter : Parameter) : String :=
  parameter.name ++ ": " ++ parameter.type.render

/-- The arguments as they are written in a definition: on one line if none of them has a
description, otherwise each on its own below its description. -/
def parametersText (parameters : List Parameter) : String :=
  if parameters.isEmpty then ""
  else if parameters.all fun parameter => parameter.description.isNone then
    "(" ++ ", ".intercalate (parameters.map Parameter.text) ++ ")"
  else
    let block : Parameter × Nat → String := fun (parameter, index) =>
      let above := match parameter.description with
        | none => ""
        | some text => (if index == 0 then "" else "\n") ++ "  " ++ quoteBlock text ++ "\n"
      above ++ "  " ++ parameter.text
    "(\n" ++ "\n".intercalate (parameters.zipIdx.map block) ++ "\n)"

/-- The definition of a directive as text. -/
def SchemaDirective.text (directive : SchemaDirective) : String :=
  "directive @" ++ directive.name ++ parametersText directive.parameters
    ++ (if directive.repeatable then " repeatable" else "") ++ " on "
    ++ " | ".intercalate (directive.locations.map DirectiveLocation.text)

/-- The definitions of the Relay directives as text. -/
def relayDirectivesText : String :=
  "\n\n".intercalate (relayDirectives.map SchemaDirective.text)

end RelayCheck
