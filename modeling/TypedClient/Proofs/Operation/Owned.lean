import TypedClient.Proofs.Operation.Parts

/-!
The name of a definition is a function of its source. The definitions that come with an operation have
the operation as their source, each in a role of its own.
-/
namespace TypedClient

def Role.suffix : Role → String
  | .queryParams => "QueryParams"
  | .requestBody => "RequestBody"
  | .response => "Response"

/-- The name of every definition that is made from the source. -/
def Source.typeName : Source → String
  | .schema key => Root.schema.typeName key
  | .response key => Root.response.typeName key
  | .requestBody key => Root.requestBody.typeName key
  | .operation name role => name ++ role.suffix

theorem Component.typeName_source (component : Component) :
    component.source.typeName = component.typeName := by
  cases component <;> rfl

/-- A registration under the name that belongs to its source. -/
def Registration.Proper (entry : Registration) : Prop :=
  entry.definition.name = entry.source.typeName

namespace Endpoint

def OwnedBy (operation : String) (entry : Registration) : Prop :=
  entry.Proper ∧ ∃ role, entry.source = .operation operation role

section Owned

variable {resolver : Resolver} {operation : String} {entry : Registration}

/-- An operation registers definitions under its own name with the suffix of their role. -/
def Makes (operation : String) (entry : Registration) : Prop :=
  ∃ role type texts, entry =
    auxiliary operation role (operation ++ role.suffix) type (DocComment.ofTexts texts)

theorem BodyTyped.makes {body : Option (Referable RequestBody)} {part : BodyPart}
    (typed : BodyTyped resolver operation body part) (member : entry ∈ part.auxiliary) :
    Makes operation entry := by
  cases typed with
  | absent | reference | untyped | referring => cases member
  | defined => exact ⟨.requestBody, _, _, List.mem_singleton.mp member⟩

theorem successType_makes {types : List TypeExpr} (member : entry ∈ (successType operation types).2) :
    Makes operation entry := by
  rcases successType_cases operation types with shown | ⟨name, -, shown⟩ | shown <;>
    rw [shown] at member
  · cases member
  · cases member
  · exact ⟨.response, _, [], List.mem_singleton.mp member⟩

theorem Described.auxiliary_makes {endpoint : Endpoint} {declared : List Parameter}
    {parts : OperationParts} (described : endpoint.Described resolver operation declared parts)
    (member : entry ∈ (endpoint.assemble operation parts).auxiliary) : Makes operation entry := by
  simp only [auxiliary_assemble, List.mem_append] at member
  rcases member with (query | body) | response
  · exact ⟨.queryParams, _, [], mem_queryDefinition query⟩
  · exact described.body.makes body
  · exact successType_makes response

theorem Described.auxiliary_owned {endpoint : Endpoint} {declared : List Parameter}
    {parts : OperationParts} (described : endpoint.Described resolver operation declared parts)
    (member : entry ∈ (endpoint.assemble operation parts).auxiliary) : OwnedBy operation entry := by
  obtain ⟨role, type, texts, rfl⟩ := described.auxiliary_makes member
  exact ⟨rfl, role, rfl⟩

end Owned

end Endpoint
end TypedClient
