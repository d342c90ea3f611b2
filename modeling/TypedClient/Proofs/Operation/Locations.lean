import TypedClient.Proofs.Operation.Placeholders
import TypedClient.Proofs.Synthesis.Resolution

/-!
The declared parameters that count. A cookie never does, and among all others the last declaration of a
name does, wherever it is located. The path parameters, the query fields and the headers of an operation
are each made from the declarations of their own location that count, and from no others.
-/
namespace TypedClient

/-- The fields that a registration has if it is one for the query. -/
def Registration.queryFields? (entry : Registration) : Option (List (Field TypeExpr)) :=
  match entry.source, entry.definition.type with
  | .operation _ .queryParams, .object fields _ => some fields
  | _, _ => none

/-- The fields of the definition for the query, none without one. -/
def SynthesizedOperation.queryFields (operation : SynthesizedOperation) : List (Field TypeExpr) :=
  (operation.auxiliary.findSome? (·.queryFields?)).getD []

theorem Schema.TypedOr.unique {resolver : Resolver} {fallback type type' : TypeExpr}
    {slot : Option Schema} (typed : TypedOr resolver fallback slot type)
    (typed' : TypedOr resolver fallback slot type') : type = type' := by
  cases typed with
  | absent =>
    cases typed'
    rfl
  | declared typed => exact typed.unique (typed'.of_some rfl)

namespace Endpoint

/-- The parameters of the path, then those of the operation, with references followed. -/
def Declares (resolver : Resolver) (endpoint : Endpoint) (declarations : List Parameter) : Prop :=
  List.Forall₂ (fun item parameter => resolver.parameter item = .ok parameter)
    (endpoint.inherited ++ endpoint.operation.parameters) declarations

/-- Some declaration, and no cookie, has the name. -/
def overridden (later : List Parameter) (name : String) : Bool :=
  later.any fun other => other.location != .cookie && other.name == name

/-- No cookie counts, and no declaration whose name a later one has. -/
def counting : List Parameter → List Parameter
  | [] => []
  | parameter :: later =>
    if parameter.location == .cookie || overridden later parameter.name then counting later
    else parameter :: counting later

theorem overridden_eq_false {later : List Parameter} {name : String} :
    overridden later name = false ↔ ∀ other ∈ later, other.location ≠ .cookie → other.name ≠ name := by
  simp [overridden]

theorem overridden_cons (first : Parameter) (later : List Parameter) (name : String) :
    overridden (first :: later) name =
      (first.location != .cookie && first.name == name || overridden later name) :=
  List.any_cons

theorem mem_counting_cons {first parameter : Parameter} {later : List Parameter} :
    parameter ∈ counting (first :: later) ↔
      parameter = first ∧ first.location ≠ .cookie ∧ overridden later first.name = false ∨
        parameter ∈ counting later := by
  rw [counting]
  split
  · rename_i dropped
    simp only [Bool.or_eq_true, beq_iff_eq] at dropped
    grind
  · rename_i kept
    simp only [Bool.or_eq_true, beq_iff_eq, not_or, Bool.not_eq_true] at kept
    simp [kept]

/-- The parameter is declared, it is no cookie, and only cookies have its name later. -/
def Counts (declarations : List Parameter) (parameter : Parameter) : Prop :=
  ∃ before later, declarations = before ++ parameter :: later ∧ parameter.location ≠ .cookie ∧
    ∀ other ∈ later, other.location ≠ .cookie → other.name ≠ parameter.name

theorem mem_counting {declarations : List Parameter} {parameter : Parameter} :
    parameter ∈ counting declarations ↔ Counts declarations parameter := by
  unfold Counts
  induction declarations with
  | nil => simp [counting]
  | cons first rest ih =>
    simp only [mem_counting_cons, ih, overridden_eq_false, List.cons_eq_append_iff]
    constructor
    · rintro (⟨rfl, shown, last⟩ | ⟨before, later, rfl, shown, last⟩)
      · exact ⟨[], rest, .inl ⟨rfl, rfl⟩, shown, last⟩
      · exact ⟨first :: before, later, .inr ⟨before, rfl, rfl⟩, shown, last⟩
    · rintro ⟨before, later, ⟨rfl, same⟩ | ⟨before, rfl, rfl⟩, shown, last⟩
      · obtain ⟨rfl, rfl⟩ := List.cons.inj same
        exact .inl ⟨rfl, shown, last⟩
      · exact .inr ⟨before, later, rfl, shown, last⟩

/-! ### Merging -/

/-- Of the parameters held those stay whose names are not declared again. -/
def unaffected (declarations held : List Parameter) : List Parameter :=
  held.filter fun parameter => !overridden declarations parameter.name

theorem merge_counting (merged : List Parameter) (parameter : Parameter)
    (declarations : List Parameter) :
    unaffected declarations (merge merged parameter) ++ counting declarations =
      unaffected (parameter :: declarations) merged ++ counting (parameter :: declarations) := by
  by_cases cookie : parameter.location = .cookie
  · simp [unaffected, merge, counting, overridden_cons, cookie]
  · have shown : (parameter.location != .cookie) = true := bne_iff_ne.mpr cookie
    have earlier : unaffected declarations (merged.filter fun held => !(held.name == parameter.name)) =
        unaffected (parameter :: declarations) merged := by
      rw [unaffected, List.filter_filter]
      refine List.filter_congr fun held _ => ?_
      simp [overridden_cons, shown, Bool.and_comm, Bool.beq_comm (a := held.name)]
    have last : unaffected declarations [parameter] ++ counting declarations =
        counting (parameter :: declarations) := by
      rw [counting]
      cases again : overridden declarations parameter.name <;> simp [unaffected, again, cookie]
    rw [merge, if_neg cookie, ← last, ← earlier]
    simp [unaffected]

/-- What was merged before stays unless it is overridden, and then follows what counts. -/
theorem mergeAll_counting {resolver : Resolver} {items : List (Referable Parameter)}
    {merged declared : List Parameter} (made : mergeAll resolver merged items = .ok declared) :
    ∃ declarations,
      List.Forall₂ (fun item parameter => resolver.parameter item = .ok parameter) items declarations ∧
        declared = unaffected declarations merged ++ counting declarations := by
  -- What is held already stands in the statement, so that it can lose members to what comes later.
  induction items generalizing merged with
  | nil =>
    obtain rfl := Except.ok.inj made
    exact ⟨[], .nil, by simp [unaffected, overridden, counting]⟩
  | cons item rest ih =>
    rw [mergeAll] at made
    obtain ⟨parameter, given, made⟩ := bind_ok made
    obtain ⟨declarations, each, rfl⟩ := ih made
    exact ⟨parameter :: declarations, .cons given each, merge_counting merged parameter declarations⟩

theorem parameters_counting {resolver : Resolver} {endpoint : Endpoint} {declared : List Parameter}
    (merged : endpoint.parameters resolver = .ok declared) :
    ∃ declarations, endpoint.Declares resolver declarations ∧ declared = counting declarations := by
  obtain ⟨declarations, each, made⟩ := mergeAll_counting merged
  exact ⟨declarations, each, made⟩

/-! ### Parts by location -/

/-- Each part of the operation is made from the declarations of its location among these. -/
structure PartsFrom (resolver : Resolver) (endpoint : Endpoint) (counted : List Parameter)
    (operation : SynthesizedOperation) : Prop where
  path : List.Forall₂ (PlaceholderTyped resolver (located .path counted))
    (placeholders (Route.parse endpoint.route)) operation.descriptor.allPathParams
  query : List.Forall₂ (QueryTyped resolver) (located .query counted) operation.queryFields
  header : operation.descriptor.headerParams = located .header counted

theorem BodyTyped.no_query {resolver : Resolver} {operation : String}
    {body : Option (Referable RequestBody)} {part : BodyPart}
    (typed : BodyTyped resolver operation body part) :
    part.auxiliary.findSome? (·.queryFields?) = none := by
  cases typed <;> rfl

theorem successType_no_query (operation : String) (types : List TypeExpr) :
    (successType operation types).2.findSome? (·.queryFields?) = none := by
  rcases successType_cases operation types with shown | ⟨name, -, shown⟩ | shown <;> rw [shown] <;> rfl

theorem Described.queryFields_assemble {resolver : Resolver} {endpoint : Endpoint} {name : String}
    {declared : List Parameter} {parts : OperationParts}
    (described : endpoint.Described resolver name declared parts) :
    (endpoint.assemble name parts).queryFields = parts.query := by
  have others : (parts.body.auxiliary ++ (successType name parts.responses.success).2).findSome?
      (·.queryFields?) = none := by
    rw [List.findSome?_append, described.body.no_query, successType_no_query]
    rfl
  have query : ((queryDefinition name parts.query).findSome? (·.queryFields?)).getD [] = parts.query := by
    unfold queryDefinition
    split
    · rename_i empty
      rw [List.isEmpty_iff.mp empty]
      rfl
    · rfl
  rw [SynthesizedOperation.queryFields, auxiliary_assemble, List.append_assoc, List.findSome?_append,
    others, Option.or_none, query]

theorem PlaceholderTyped.unique {resolver : Resolver} {declared : List Parameter}
    {placeholder : String} {param param' : PathParam}
    (typed : PlaceholderTyped resolver declared placeholder param)
    (typed' : PlaceholderTyped resolver declared placeholder param') : param = param' := by
  cases typed with
  | matched found typed =>
    cases typed' with
    | matched found' typed' =>
      obtain rfl := Option.some.inj (found.symm.trans found')
      rw [typed.unique typed']
    | unmatched absent => cases found.symm.trans absent
  | unmatched absent =>
    cases typed' with
    | matched found => cases absent.symm.trans found
    | unmatched => rfl

theorem QueryTyped.unique {resolver : Resolver} {parameter : Parameter} {field field' : Field TypeExpr}
    (typed : QueryTyped resolver parameter field) (typed' : QueryTyped resolver parameter field') :
    field = field' := by
  obtain ⟨typed⟩ := typed
  obtain ⟨typed'⟩ := typed'
  rw [typed.unique typed']

theorem synthesize_partsFrom {resolver : Resolver} {naming : Naming} {endpoint : Endpoint}
    {operation : SynthesizedOperation}
    (made : (endpoint.synthesize resolver naming).outcome = .ok operation) :
    ∃ declarations, endpoint.Declares resolver declarations ∧
      endpoint.PartsFrom resolver (counting declarations) operation := by
  obtain ⟨declared, parts, described, rfl⟩ := synthesize_described made
  obtain ⟨declarations, declares, rfl⟩ := parameters_counting described.merged
  refine ⟨declarations, declares, ?_, ?_, described.header⟩
  · rw [allPathParams_assemble described]
    exact described.path
  · rw [described.queryFields_assemble]
    exact described.query

section Agreement

variable {resolver : Resolver} {endpoint endpoint' : Endpoint} {counted counted' : List Parameter}
  {operation operation' : SynthesizedOperation}
  (first : endpoint.PartsFrom resolver counted operation)
  (second : endpoint'.PartsFrom resolver counted' operation')
include first second

theorem PartsFrom.path_agrees (route : endpoint.route = endpoint'.route)
    (same : located .path counted = located .path counted') :
    operation.descriptor.allPathParams = operation'.descriptor.allPathParams := by
  have path := second.path
  rw [← route, ← same] at path
  have unique : Relator.RightUnique (PlaceholderTyped resolver (located .path counted)) :=
    fun _ _ _ => PlaceholderTyped.unique
  exact List.right_unique_forall₂' unique first.path path

theorem PartsFrom.query_agrees (same : located .query counted = located .query counted') :
    operation.queryFields = operation'.queryFields := by
  have query := second.query
  rw [← same] at query
  have unique : Relator.RightUnique (QueryTyped resolver) := fun _ _ _ => QueryTyped.unique
  exact List.right_unique_forall₂' unique first.query query

theorem PartsFrom.header_agrees (same : located .header counted = located .header counted') :
    operation.descriptor.headerParams = operation'.descriptor.headerParams := by
  rw [first.header, second.header, same]

end Agreement

/-- Of two operations the path parameters, the query fields and the headers are the same if the
declarations of the one location that count are the same, whatever else is declared. -/
theorem parts_by_location {resolver : Resolver} {naming naming' : Naming} {endpoint endpoint' : Endpoint}
    {operation operation' : SynthesizedOperation}
    (made : (endpoint.synthesize resolver naming).outcome = .ok operation)
    (made' : (endpoint'.synthesize resolver naming').outcome = .ok operation') :
    ∃ declarations declarations', endpoint.Declares resolver declarations ∧
      endpoint'.Declares resolver declarations' ∧
      (∀ parameter, parameter ∈ counting declarations ↔ Counts declarations parameter) ∧
      endpoint.PartsFrom resolver (counting declarations) operation ∧
      (endpoint.route = endpoint'.route →
        located .path (counting declarations) = located .path (counting declarations') →
          operation.descriptor.allPathParams = operation'.descriptor.allPathParams) ∧
      (located .query (counting declarations) = located .query (counting declarations') →
        operation.queryFields = operation'.queryFields) ∧
      (located .header (counting declarations) = located .header (counting declarations') →
        operation.descriptor.headerParams = operation'.descriptor.headerParams) := by
  obtain ⟨declarations, declares, first⟩ := synthesize_partsFrom made
  obtain ⟨declarations', declares', second⟩ := synthesize_partsFrom made'
  exact ⟨declarations, declarations', declares, declares', fun _ => mem_counting, first,
    first.path_agrees second, first.query_agrees second, first.header_agrees second⟩

/-- Visits of a room. Its number is declared for all operations of the route. -/
def listVisits (own : List Parameter) : Endpoint where
  route := "/rooms/{id}/visits"
  verb := .get
  operation := { operationId := some "listVisits", parameters := own.map .inline }
  inherited := [.inline {
    name := "id", location := .path, required := true
    schema := some { type := some (.single "integer") } }]

/-- A cookie of the same name counts for nothing. -/
theorem listVisits_cookie : ∃ operation operation',
    ((listVisits [{ name := "id", location := .cookie }]).synthesize ⟨{}, []⟩ Naming.none).outcome =
        .ok operation ∧
      ((listVisits []).synthesize ⟨{}, []⟩ Naming.none).outcome = .ok operation' ∧
      operation.descriptor.allPathParams = operation'.descriptor.allPathParams := by
  obtain ⟨operation, made⟩ := exists_ok (show ((listVisits
    [{ name := "id", location := .cookie }]).synthesize ⟨{}, []⟩ Naming.none).outcome.isOk = true by
      decide +kernel)
  obtain ⟨operation', made'⟩ := exists_ok
    (show ((listVisits []).synthesize ⟨{}, []⟩ Naming.none).outcome.isOk = true by decide +kernel)
  obtain ⟨_, _, declares, declares', -, -, path, -⟩ := parts_by_location made made'
  refine ⟨operation, operation', made, made', path rfl ?_⟩
  obtain _ | ⟨given, _ | ⟨cookie, ⟨⟩⟩⟩ := declares
  obtain _ | ⟨given', ⟨⟩⟩ := declares'
  obtain rfl := Except.ok.inj given
  obtain rfl := Except.ok.inj given'
  obtain rfl := Except.ok.inj cookie
  rfl

/-- A query parameter of the same name takes its type from the path parameter. -/
theorem listVisits_retyped : ∃ operation operation',
    ((listVisits []).synthesize ⟨{}, []⟩ Naming.none).outcome = .ok operation ∧
      ((listVisits [{ name := "id", location := .query }]).synthesize ⟨{}, []⟩ Naming.none).outcome =
        .ok operation' ∧
      operation.descriptor.allPathParams.map (·.type) = [.scalar .number] ∧
      operation'.descriptor.allPathParams.map (·.type) = [.scalar .string] :=
  ⟨_, _, rfl, rfl, rfl, rfl⟩

end Endpoint
end TypedClient
