import TypedClient.Synthesis.Components
import TypedClient.Proofs.Synthesis.Mentions

/-!
Definitions of components: each stands under the name of its component and mentions only what the
references of the component resolve to.
-/
namespace TypedClient

def Content.references (content : Content) : List String :=
  content.schema.toList.flatMap Schema.references

/-- The path of a reference, or the references inside a value in place. -/
def Referable.references {α : Type} (inside : α → List String) : Referable α → List String
  | .reference path => [path]
  | .inline value => inside value

namespace Component

def references : Component → List String
  | .schema _ node => node.references
  | .response _ given => given.references (·.content.references)
  | .requestBody _ given => given.references (·.content.references)

inductive Defines (resolver : Resolver) : Component → Definition → Prop where
  | schema {key : String} {node : Schema} {type : TypeExpr} (typed : node.HasType resolver type) :
      Defines resolver (.schema key node)
        ⟨Root.schema.typeName key, type, DocComment.ofTexts node.description.toList⟩
  | response {key : String} {given : Response} {type : TypeExpr}
      (typed : Schema.TypedOr resolver (.scalar .void) given.content.schema type) :
      Defines resolver (.response key (.inline given))
        ⟨Root.response.typeName key, type, DocComment.ofTexts (given.description.toList ++
          (given.content.schema.bind (·.description)).toList)⟩
  | requestBody {key : String} {given : RequestBody} {type : TypeExpr}
      (typed : Schema.TypedOr resolver .any given.content.schema type) :
      Defines resolver (.requestBody key (.inline given))
        ⟨Root.requestBody.typeName key, type, DocComment.ofTexts given.description.toList⟩
  | responseAlias {key path target : String} (resolved : resolver.resolve path = .ok target) :
      Defines resolver (.response key (.reference path))
        ⟨Root.response.typeName key, .named target, none⟩
  | requestBodyAlias {key path target : String} (resolved : resolver.resolve path = .ok target) :
      Defines resolver (.requestBody key (.reference path))
        ⟨Root.requestBody.typeName key, .named target, none⟩

variable {resolver : Resolver} {component : Component} {definition : Definition}

theorem schemaDefinition_defines {key : String} {node : Schema}
    (made : (schemaDefinition resolver key node).outcome = .ok definition) :
    Defines resolver (.schema key node) definition := by
  unfold schemaDefinition at made
  split at made
  · rename_i target given
    obtain ⟨resolvedName, resolved, made⟩ := Traced.bind_ok made
    obtain ⟨type, named, made⟩ := Traced.bind_ok made
    obtain rfl := Traced.pure_ok named
    obtain rfl := Traced.pure_ok made
    exact .schema (.reference given resolved)
  · obtain ⟨type, typed, made⟩ := Traced.bind_ok made
    obtain rfl := Traced.pure_ok made
    exact .schema ⟨_, typed⟩

theorem responseDefinition_defines {key : String} {given : Response}
    (made : (responseDefinition resolver (Root.response.typeName key) given).outcome =
      .ok definition) : Defines resolver (.response key (.inline given)) definition := by
  unfold responseDefinition at made
  split at made
  · rename_i node declared
    obtain ⟨type, typed, made⟩ := Traced.bind_ok made
    obtain rfl := Traced.pure_ok made
    exact .response (declared ▸ .declared ⟨_, typed⟩)
  · rename_i absent
    obtain ⟨type, void, made⟩ := Traced.bind_ok made
    obtain rfl := Traced.pure_ok void
    obtain rfl := Traced.pure_ok made
    exact .response (absent ▸ .absent)

theorem requestBodyDefinition_defines {key : String} {given : RequestBody}
    (made : (requestBodyDefinition resolver (Root.requestBody.typeName key) given).outcome =
      .ok definition) : Defines resolver (.requestBody key (.inline given)) definition := by
  unfold requestBodyDefinition at made
  split at made
  · rename_i node declared
    obtain ⟨type, typed, made⟩ := Traced.bind_ok made
    obtain rfl := Traced.pure_ok made
    exact .requestBody (declared ▸ .declared ⟨_, typed⟩)
  · rename_i absent
    obtain ⟨type, any, made⟩ := Traced.bind_ok made
    obtain rfl := Traced.pure_ok any
    obtain rfl := Traced.pure_ok made
    exact .requestBody (absent ▸ .absent)

theorem definition_defines (made : (component.definition resolver).outcome = .ok definition) :
    Defines resolver component definition := by
  match component with
  | .schema key node => exact schemaDefinition_defines made
  | .response key (.inline given) => exact responseDefinition_defines made
  | .requestBody key (.inline given) => exact requestBodyDefinition_defines made
  | .response key (.reference path) =>
    obtain ⟨target, resolved, made⟩ := Traced.bind_ok made
    obtain rfl := Traced.pure_ok made
    exact .responseAlias resolved
  | .requestBody key (.reference path) =>
    obtain ⟨target, resolved, made⟩ := Traced.bind_ok made
    obtain rfl := Traced.pure_ok made
    exact .requestBodyAlias resolved

theorem Defines.name (defines : Defines resolver component definition) :
    definition.name = component.typeName := by
  cases defines <;> rfl

theorem Defines.response_typed {key : String} {given : Response}
    (defines : Defines resolver (.response key (.inline given)) definition) :
    Schema.TypedOr resolver (.scalar .void) given.content.schema definition.type := by
  cases defines with
  | response typed => exact typed

theorem Defines.requestBody_typed {key : String} {given : RequestBody}
    (defines : Defines resolver (.requestBody key (.inline given)) definition) :
    Schema.TypedOr resolver .any given.content.schema definition.type := by
  cases defines with
  | requestBody typed => exact typed

theorem Defines.names {name : String} (defines : Defines resolver component definition)
    (mentioned : definition.type.Mentions name) : resolver.Names component.references name := by
  cases defines with
  | schema typed => exact typed.names mentioned
  | response typed | requestBody typed => exact typed.names (TypeExpr.mentions_scalar _) mentioned
  | responseAlias resolved | requestBodyAlias resolved =>
    obtain rfl := TypeExpr.mentions_named.mp mentioned
    exact ⟨_, List.mem_singleton_self _, resolved⟩

end Component

namespace Resolver

variable {resolver : Resolver}

theorem declared_of_contains {root : Root} {key : String}
    (present : resolver.contains ⟨root, key⟩ = true) (typed : root ≠ .parameter) :
    ∃ component ∈ resolver.declared, component.typeName = root.typeName key := by
  cases root with
  | parameter => exact (typed rfl).elim
  | schema =>
    obtain ⟨⟨key, node⟩, member, same⟩ := List.any_eq_true.mp present
    obtain rfl := eq_of_beq same
    exact ⟨.schema key node, by simp [declared, member], rfl⟩
  | response =>
    obtain ⟨⟨key, given⟩, member, same⟩ := List.any_eq_true.mp present
    obtain rfl := eq_of_beq same
    exact ⟨.response key given, by simp [declared, member], rfl⟩
  | requestBody =>
    obtain ⟨⟨key, given⟩, member, same⟩ := List.any_eq_true.mp present
    obtain rfl := eq_of_beq same
    exact ⟨.requestBody key given, by simp [declared, member], rfl⟩

theorem parse_of_resolve {path name : String} (resolved : resolver.resolve path = .ok name) :
    ∃ target, Target.parse path = .ok target ∧ resolver.contains target = true ∧
      name = target.typeName := by
  obtain ⟨target, parsed, resolved⟩ := bind_ok resolved
  split at resolved
  · rename_i present
    exact ⟨target, parsed, present, (Except.ok.inj resolved).symm⟩
  · cases resolved

/-- A reference stands for the type of a declared component, or else for a parameter. -/
theorem declared_of_resolve {path name : String} (resolved : resolver.resolve path = .ok name) :
    (∃ component ∈ resolver.declared, component.typeName = name) ∨
      ∃ key, Target.parse path = .ok ⟨.parameter, key⟩ ∧ name = Root.parameter.typeName key := by
  obtain ⟨⟨root, key⟩, parsed, present, rfl⟩ := parse_of_resolve resolved
  by_cases parameter : root = .parameter
  · subst parameter
    exact .inr ⟨key, parsed, rfl⟩
  · exact .inl (declared_of_contains present parameter)

end Resolver
end TypedClient
