import TypedClient.Proofs.Operation.Mentions
import TypedClient.Proofs.Operation.Owned
import TypedClient.Proofs.Synthesis.Resolution
import TypedClient.Proofs.Synthesis.Sentinels

/-!
What a descriptor says by `void`, `unknown` and the names of definitions. Since no schema gets a type with
a sentinel in it, a sentinel always says that nothing is declared. Every definition beside a descriptor is
one that the descriptor names, and a name without such a definition is the name of a reference.
-/
namespace TypedClient

def TypeExpr.name? : TypeExpr → Option String
  | .named name => some name
  | _ => none

/-- The name that the descriptor gives in a role. -/
def Descriptor.definition? (descriptor : Descriptor) : Role → Option String
  | .queryParams => descriptor.queryParamsType
  | .requestBody => descriptor.bodyType.name?
  | .response => descriptor.responseType.name?

theorem Descriptor.hasBody_eq_false (descriptor : Descriptor) :
    descriptor.hasBody = false ↔ descriptor.bodyType = .scalar .void := by
  unfold hasBody
  cases descriptor.bodyType <;> simp [TypeExpr.same]

theorem Schema.HasType.named_of_ref {resolver : Resolver} {schema : Schema} {type : TypeExpr}
    (typed : schema.HasType resolver type) (refers : schema.ref.isSome = true) :
    ∃ path name, schema.ref = some path ∧ resolver.resolve path = .ok name ∧ type = .named name := by
  obtain ⟨path, given⟩ := Option.isSome_iff_exists.mp refers
  obtain ⟨name, resolved⟩ := typed.resolves (.here (shape_of_ref given))
  exact ⟨path, name, given, resolved, typed.unique (.reference given resolved)⟩

namespace Endpoint

/-! ### What responses contribute -/

/-- The preferred media type of the response has a schema, once references are followed. -/
def Contributes (resolver : Resolver) (item : Referable Response) : Prop :=
  ∃ response, resolver.response item = .ok response ∧ response.content.schema.isSome = true

/-- Some response of the class contributes. -/
def Answers (resolver : Resolver) (status : StatusClass)
    (responses : List (String × Referable Response)) : Prop :=
  ∃ entry ∈ responses, StatusClass.of entry.1 = status ∧ Contributes resolver entry.2

section Runs

variable {resolver : Resolver} {operation : String}

section Answers

variable {status : StatusClass} {entry : String × Referable Response}
  {rest : List (String × Referable Response)}

theorem answers_cons : Answers resolver status (entry :: rest) ↔
    StatusClass.of entry.1 = status ∧ Contributes resolver entry.2 ∨ Answers resolver status rest := by
  simp [Answers]

theorem answers_skip (other : StatusClass.of entry.1 ≠ status) :
    Answers resolver status (entry :: rest) ↔ Answers resolver status rest := by
  simp [answers_cons, other]

theorem answers_add {type : Option TypeExpr} {types : List TypeExpr}
    (same : StatusClass.of entry.1 = status)
    (first : type.isSome = true ↔ Contributes resolver entry.2)
    (others : types ≠ [] ↔ Answers resolver status rest) :
    type.toList ++ types ≠ [] ↔ Answers resolver status (entry :: rest) := by
  rw [answers_cons, ← first, ← others]
  cases type <;> simp [same]

end Answers

theorem responseType_isSome {place : String} {item : Referable Response} {type : Option TypeExpr}
    (made : (responseType resolver place item).outcome = .ok type) :
    type.isSome = true ↔ Contributes resolver item := by
  obtain ⟨response, found, made⟩ := Traced.bind_ok made
  rw [Traced.outcome_ofExcept] at found
  have only : Contributes resolver item ↔ response.content.schema.isSome = true := by
    simp [Contributes, found]
  rw [only]
  split at made
  · rename_i absent _
    obtain rfl := Traced.pure_ok made
    simp [absent]
  · rename_i declared _
    obtain ⟨name, -, made⟩ := Traced.bind_ok made
    obtain rfl := Traced.pure_ok made
    simp [declared]
  · rename_i declared _
    obtain ⟨type, -, made⟩ := Traced.bind_ok made
    obtain rfl := Traced.pure_ok made
    simp [declared]

theorem responseTypes_answers {responses : List (String × Referable Response)} {types : ResponseTypes}
    (made : (responseTypes resolver operation responses).outcome = .ok types) :
    (types.success ≠ [] ↔ Answers resolver .success responses) ∧
      (types.error ≠ [] ↔ Answers resolver .error responses) := by
  induction responses generalizing types with
  | nil =>
    obtain rfl := Traced.pure_ok made
    simp [Answers]
  | cons entry rest ih =>
    obtain ⟨status, item⟩ := entry
    rcases responseTypes_cons_ok made with
      ⟨ignored, made⟩ | ⟨type, later, first, others, ⟨success, rfl⟩ | ⟨error, rfl⟩⟩
    · rw [answers_skip (by simp [ignored]), answers_skip (by simp [ignored])]
      exact ih made
    · have skipped : Answers resolver .error ((status, item) :: rest) ↔ Answers resolver .error rest :=
        answers_skip (by simp [success])
      obtain ⟨successes, errors⟩ := ih others
      exact ⟨answers_add success (responseType_isSome first) successes, errors.trans skipped.symm⟩
    · have skipped : Answers resolver .success ((status, item) :: rest) ↔
          Answers resolver .success rest := answers_skip (by simp [error])
      obtain ⟨successes, errors⟩ := ih others
      exact ⟨successes.trans skipped.symm, answers_add error (responseType_isSome first) errors⟩

theorem parts_answers {name : String} {endpoint : Endpoint} {parts : OperationParts}
    (made : (endpoint.parts resolver name).outcome = .ok parts) :
    (parts.responses.success ≠ [] ↔ Answers resolver .success endpoint.operation.responses) ∧
      (parts.responses.error ≠ [] ↔ Answers resolver .error endpoint.operation.responses) := by
  obtain ⟨declared, -, made⟩ := Traced.bind_ok made
  obtain ⟨path, -, made⟩ := Traced.bind_ok made
  obtain ⟨query, -, made⟩ := Traced.bind_ok made
  obtain ⟨body, -, made⟩ := Traced.bind_ok made
  obtain ⟨responses, answered, made⟩ := Traced.bind_ok made
  obtain rfl := Traced.pure_ok made
  exact responseTypes_answers answered

end Runs

/-! ### Sentinels -/

theorem BodyTyped.type_cases {resolver : Resolver} {operation : String}
    {body : Option (Referable RequestBody)} {part : BodyPart}
    (typed : BodyTyped resolver operation body part) :
    body = none ∧ part.type = .scalar .void ∨
      body ≠ none ∧ (part.type = .any ∨ ∃ name, part.type = .named name) := by
  cases typed with
  | absent => exact .inl ⟨rfl, rfl⟩
  | reference | defined => exact .inr ⟨Option.some_ne_none _, .inr ⟨_, rfl⟩⟩
  | untyped => exact .inr ⟨Option.some_ne_none _, .inl rfl⟩
  | referring _ refers typed =>
    obtain ⟨path, name, -, -, shown⟩ := typed.named_of_ref refers
    exact .inr ⟨Option.some_ne_none _, .inr ⟨name, shown⟩⟩

theorem BodyTyped.void_iff {resolver : Resolver} {operation : String}
    {body : Option (Referable RequestBody)} {part : BodyPart}
    (typed : BodyTyped resolver operation body part) : part.type = .scalar .void ↔ body = none := by
  rcases typed.type_cases with ⟨absent, shown⟩ | ⟨given, shown | ⟨name, shown⟩⟩
  · simp [absent, shown]
  · simp [given, shown]
  · simp [given, shown]

theorem successType_named {operation : String} {types : List TypeExpr} (some : types ≠ []) :
    ∃ name, (successType operation types).1 = .named name := by
  unfold successType
  rw [if_neg (by simpa using some)]
  split <;> exact ⟨_, rfl⟩

theorem successType_eq_void {operation : String} {types : List TypeExpr} :
    (successType operation types).1 = .scalar .void ↔ types = [] := by
  constructor
  · intro void
    by_contra some
    obtain ⟨name, named⟩ := successType_named some
    exact nomatch void.symm.trans named
  · rintro rfl
    rfl

theorem ResponseTyped.sentinelFree {resolver : Resolver} {item : Referable Response} {type : TypeExpr}
    (typed : ResponseTyped resolver item (some type)) : type.SentinelFree := by
  cases typed with
  | reference => exact TypeExpr.sentinelFree_named _
  | typed _ typed => exact typed.sentinelFree

theorem ResponsesTyped.sentinelFree {resolver : Resolver} {status : StatusClass}
    {responses : List (String × Referable Response)} {types : List TypeExpr}
    (typed : ResponsesTyped resolver status responses types) : ∀ type ∈ types, type.SentinelFree := by
  intro type member
  obtain ⟨contributed, rfl, each⟩ := typed
  obtain ⟨entry, -, typed⟩ := InStep.left_of_right each (List.reduceOption_mem_iff.mp member)
  exact typed.sentinelFree

theorem errorType_eq_unknown {types : List TypeExpr} (free : ∀ type ∈ types, type.SentinelFree) :
    errorType types = .scalar .unknown ↔ types = [] := by
  unfold errorType
  split
  · rename_i empty
    simpa using empty
  · rename_i some
    -- A union of contributed types is no sentinel, since none of them has one.
    have union := TypeExpr.sentinelFree_unionOf free
    constructor
    · intro unknown
      rw [unknown] at union
      exact ((TypeExpr.sentinelFree_scalar.mp union).2 rfl).elim
    · rintro rfl
      exact (some rfl).elim

/-- Each sentinel of the descriptor says that the part it stands for is not declared. -/
structure SentinelsMean (resolver : Resolver) (endpoint : Endpoint) (descriptor : Descriptor) :
    Prop where
  void_body : descriptor.bodyType = .scalar .void ↔ endpoint.operation.requestBody = none
  has_body : descriptor.hasBody = false ↔ endpoint.operation.requestBody = none
  body : endpoint.operation.requestBody ≠ none →
    descriptor.bodyType = .any ∨ ∃ name, descriptor.bodyType = .named name
  void_response : descriptor.responseType = .scalar .void ↔
    ¬Answers resolver .success endpoint.operation.responses
  response : Answers resolver .success endpoint.operation.responses →
    ∃ name, descriptor.responseType = .named name
  unknown_error : descriptor.errorType = .scalar .unknown ↔
    ¬Answers resolver .error endpoint.operation.responses

theorem Described.sentinelsMean {resolver : Resolver} {operation : String} {endpoint : Endpoint}
    {declared : List Parameter} {parts : OperationParts}
    (described : endpoint.Described resolver operation declared parts)
    (made : (endpoint.parts resolver operation).outcome = .ok parts) :
    SentinelsMean resolver endpoint (endpoint.assemble operation parts).descriptor := by
  obtain ⟨success, error⟩ := parts_answers made
  constructor
  case void_body => exact described.body.void_iff
  case has_body => exact (Descriptor.hasBody_eq_false _).trans described.body.void_iff
  case body =>
    intro given
    rcases described.body.type_cases with ⟨absent, -⟩ | ⟨-, shown⟩
    · exact (given absent).elim
    · exact shown
  case void_response =>
    rw [← success, not_not]
    exact successType_eq_void
  case response => exact fun answered => successType_named (success.mpr answered)
  case unknown_error =>
    rw [← error, not_not]
    exact errorType_eq_unknown described.error.sentinelFree

/-! ### Definitions by role -/

/-- The reference that a body is, or that its schema is. -/
def bodyReference? : Referable RequestBody → Option String
  | .reference path => some path
  | .inline body => body.content.schema.bind (·.ref)

/-- The references that can give a role its name. -/
def roleReferences (endpoint : Endpoint) : Role → List String
  | .queryParams => []
  | .requestBody => (endpoint.operation.requestBody.bind bodyReference?).toList
  | .response => responseReferences .success endpoint.operation.responses

/-- A role has no name, the name of a reference, or the name of the one definition that is made for it. -/
inductive Supplied (resolver : Resolver) (endpoint : Endpoint) (operation : String) (role : Role) :
    Option String → List Registration → Prop where
  | absent : Supplied resolver endpoint operation role none []
  | referred {name : String} (names : resolver.Names (endpoint.roleReferences role) name) :
      Supplied resolver endpoint operation role (some name) []
  | own {entry : Registration} (proper : entry.Proper)
      (source : entry.source = .operation operation role) :
      Supplied resolver endpoint operation role (some entry.definition.name) [entry]

/-- The definitions beside a descriptor are those that it names as its own. -/
structure OwnsDefinitions (resolver : Resolver) (endpoint : Endpoint)
    (operation : SynthesizedOperation) : Prop where
  owned : ∀ entry ∈ operation.auxiliary, OwnedBy operation.descriptor.name entry
  supplied : ∀ role, Supplied resolver endpoint operation.descriptor.name role
    (operation.descriptor.definition? role)
    (operation.auxiliary.filter (·.source = .operation operation.descriptor.name role))
  distinct : (operation.auxiliary.map (·.definition.name)).Nodup

end Endpoint

/-- The definitions that are made for a role. -/
def OperationParts.definitions (parts : OperationParts) (operation : String) : Role → List Registration
  | .queryParams => Endpoint.queryDefinition operation parts.query
  | .requestBody => parts.body.auxiliary
  | .response => (Endpoint.successType operation parts.responses.success).2

namespace Endpoint

variable {resolver : Resolver} {endpoint : Endpoint} {operation : String}

theorem supplied_own (role : Role) (type : TypeExpr) (doc : Option String) :
    Supplied resolver endpoint operation role (some (operation ++ role.suffix))
      [auxiliary operation role (operation ++ role.suffix) type doc] := by
  have proper : (auxiliary operation role (operation ++ role.suffix) type doc).Proper := rfl
  exact .own proper rfl

theorem queryDefinition_supplied (fields : List (Field TypeExpr)) :
    Supplied resolver endpoint operation .queryParams
      ((queryDefinition operation fields).head?.map (·.definition.name))
      (queryDefinition operation fields) := by
  unfold queryDefinition
  split
  · exact .absent
  · exact supplied_own .queryParams _ _

theorem BodyTyped.supplied {body : Option (Referable RequestBody)} {part : BodyPart}
    (given : endpoint.operation.requestBody = body) (typed : BodyTyped resolver operation body part) :
    Supplied resolver endpoint operation .requestBody part.type.name? part.auxiliary := by
  have referred {path name : String} (reference : body.bind bodyReference? = some path)
      (resolved : resolver.resolve path = .ok name) :
      resolver.Names (endpoint.roleReferences .requestBody) name :=
    ⟨path, by simp [roleReferences, given, reference], resolved⟩
  cases typed with
  | absent | untyped => exact .absent
  | reference _ resolved => exact .referred (referred rfl resolved)
  | referring declared refers typed =>
    obtain ⟨path, name, reference, resolved, rfl⟩ := typed.named_of_ref refers
    exact .referred (referred (by simp [bodyReference?, declared, reference]) resolved)
  | defined => exact supplied_own .requestBody _ _

theorem successType_supplied {types : List TypeExpr}
    (typed : ResponsesTyped resolver .success endpoint.operation.responses types) :
    Supplied resolver endpoint operation .response (successType operation types).1.name?
      (successType operation types).2 := by
  rcases successType_cases operation types with shown | ⟨name, union, shown⟩ | shown <;> rw [shown]
  · exact .absent
  · obtain ⟨type, member, mentioned⟩ :=
      TypeExpr.mentions_of_unionOf (union ▸ TypeExpr.mentions_named.mpr rfl)
    exact .referred (typed.names member mentioned)
  · exact supplied_own .response _ _

theorem Described.supplied {declared : List Parameter} {parts : OperationParts}
    (described : endpoint.Described resolver operation declared parts) (role : Role) :
    Supplied resolver endpoint operation role
      ((endpoint.assemble operation parts).descriptor.definition? role)
      (parts.definitions operation role) :=
  match role with
  | .queryParams => queryDefinition_supplied parts.query
  | .requestBody => described.body.supplied rfl
  | .response => successType_supplied described.success

section Supplied

variable {role : Role} {shown : Option String} {definitions : List Registration}
  (supplied : Supplied resolver endpoint operation role shown definitions)
include supplied

theorem Supplied.filter_source (other : Role) :
    definitions.filter (·.source = .operation operation other) =
      if role = other then definitions else [] := by
  cases supplied with
  | absent | referred => simp
  | own proper source => by_cases same : role = other <;> simp [source, same]

theorem Supplied.names_sublist :
    (definitions.map (·.definition.name)).Sublist [operation ++ role.suffix] := by
  cases supplied with
  | absent | referred => exact List.nil_sublist _
  | own proper source =>
    rw [Registration.Proper, source] at proper
    simp [proper, Source.typeName]

end Supplied

theorem Described.ownsDefinitions {declared : List Parameter} {parts : OperationParts}
    (described : endpoint.Described resolver operation declared parts) :
    OwnsDefinitions resolver endpoint (endpoint.assemble operation parts) := by
  have whole : (endpoint.assemble operation parts).auxiliary = parts.definitions operation .queryParams ++
      parts.definitions operation .requestBody ++ parts.definitions operation .response := rfl
  constructor
  case owned => exact fun _ => described.auxiliary_owned
  case supplied =>
    -- Each of the three parts holds definitions of its own role only.
    intro role
    have part : (endpoint.assemble operation parts).auxiliary.filter
        (·.source = .operation operation role) = parts.definitions operation role := by
      simp only [whole, List.filter_append, (described.supplied _).filter_source]
      cases role <;> simp
    exact part ▸ described.supplied role
  case distinct =>
    have names := (((described.supplied .queryParams).names_sublist.append
      (described.supplied .requestBody).names_sublist).append
      (described.supplied .response).names_sublist)
    rw [whole, List.map_append, List.map_append]
    exact names.nodup (by simp [Role.suffix])

/-- No schema gets a sentinel. So the sentinels of an operation tell what it does not declare, and its
definitions are those that its descriptor names as its own. -/
theorem sentinels_mean (resolver : Resolver) :
    (∀ (schema : Schema) (type : TypeExpr), schema.HasType resolver type → type.SentinelFree) ∧
      ∀ (naming : Naming) (endpoint : Endpoint) (operation : SynthesizedOperation),
        (endpoint.synthesize resolver naming).outcome = .ok operation →
          SentinelsMean resolver endpoint operation.descriptor ∧
            OwnsDefinitions resolver endpoint operation := by
  refine ⟨fun _ _ typed => typed.sentinelFree, fun naming endpoint operation made => ?_⟩
  obtain ⟨parts, typed, made⟩ := Traced.bind_ok made
  obtain rfl := Traced.pure_ok made
  obtain ⟨declared, described⟩ := parts_described typed
  exact ⟨described.sentinelsMean typed, described.ownsDefinitions⟩

def textSchema : Schema :=
  { type := some (.single "string") }

def visitSchema : Schema :=
  { properties := some [("from", textSchema)] }

/-- A room is booked for a visit given in place. Bookings answer with a code and failures with nothing. -/
def bookRoom : Endpoint where
  route := "/rooms"
  verb := .post
  operation := {
    operationId := some "bookRoom"
    parameters := [.inline { name := "notify", location := .query }]
    requestBody := some (.inline { content := [("application/json", { schema := some visitSchema })] })
    responses := [
      ("201", .inline { content := [("text/plain", { schema := some textSchema })] }),
      ("409", .inline {})] }

theorem bookRoom_sentinels : ∃ operation,
    TypeExpr.SentinelFree (.scalar .string) ∧
      (bookRoom.synthesize ⟨{}, []⟩ Naming.none).outcome = .ok operation ∧
      SentinelsMean ⟨{}, []⟩ bookRoom operation.descriptor ∧
      OwnsDefinitions ⟨{}, []⟩ bookRoom operation := by
  obtain ⟨operation, made⟩ := exists_ok
    (show (bookRoom.synthesize ⟨{}, []⟩ Naming.none).outcome.isOk = true by decide +kernel)
  obtain ⟨free, means⟩ := sentinels_mean ⟨{}, []⟩
  exact ⟨operation, free textSchema _ ⟨"", rfl⟩, made, means _ _ _ made⟩

end Endpoint
end TypedClient
