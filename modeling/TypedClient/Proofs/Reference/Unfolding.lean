import TypedClient.Proofs.Generation.Kept
import TypedClient.Proofs.Reference.Sections
import TypedClient.Proofs.Synthesis.Resolution

/-!
A reference to a component means what the component means in place. Names are looked up one after the
other along the chain of references, and the last stands for the type that synthesis gives in place.
-/
namespace TypedClient

/-- One lookup for each name. Every name but the last stands for the next one, and the last one for the
type. -/
inductive Registry.Unfolds (registry : Registry) : List String → TypeExpr → Prop where
  | last {name : String} {definition : Definition} (held : registry.get? name = some definition) :
      Unfolds registry [name] definition.type
  | step {name next : String} {names : List String} {type : TypeExpr} {definition : Definition}
      (held : registry.get? name = some definition) (leads : definition.type = .named next)
      (later : Unfolds registry (next :: names) type) : Unfolds registry (name :: next :: names) type

/-- The part is of the type itself, or of a name that is defined beside it as the type. -/
def BodyPart.Gives (part : BodyPart) (type : TypeExpr) : Prop :=
  part.type = type ∨ ∃ entry ∈ part.auxiliary, part.type = .named entry.definition.name ∧
    entry.definition.type = type

namespace Resolver

variable {resolver : Resolver}

/-- Registered without collisions, from sections without repeated keys. -/
structure RegistersSilently (resolver : Resolver) : Prop where
  schemas : Entries.Distinct resolver.schemas
  keyed : resolver.components.Keyed
  registered : (resolver.registerComponents {}).2.outcome = .ok ()
  silent : (resolver.registerComponents {}).1.collisions = []

/-- No key is repeated in a document that was read. -/
theorem RegistersSilently.of_ofParsed {parsed : Notation.Parsed} {document : Document}
    {schemas : List (String × Schema)} (read : Document.ofParsed parsed = .ok document)
    (normalized : (normalizeDiscriminators document.components.schemas).outcome = .ok schemas)
    (registered : ((Resolver.mk document.components schemas).registerComponents {}).2.outcome = .ok ())
    (silent : ((Resolver.mk document.components schemas).registerComponents {}).1.collisions = []) :
    RegistersSilently ⟨document.components, schemas⟩ where
  schemas := normalizeDiscriminators_distinct normalized (Document.ofParsed_keyed read).schemas
  keyed := Document.ofParsed_keyed read
  registered := registered
  silent := silent

theorem RegistersSilently.get? (registers : resolver.RegistersSilently) {component : Component}
    (declared : component ∈ resolver.declared) :
    ∃ definition, (component.definition resolver).outcome = .ok definition ∧
      (resolver.registerComponents {}).1.get? component.typeName = some definition := by
  obtain ⟨log, components, final⟩ := registered_log registers.registered
  have silent := registers.silent
  rw [final] at silent ⊢
  obtain ⟨entry, member, made⟩ := InStep.right_of_left components declared
  obtain ⟨last, later, stands, source⟩ := Registry.stands_of_silent silent member
  obtain ⟨other, declared', made'⟩ := InStep.left_of_right components later
  -- What stands under the name has the source of the component, and a source has one component.
  have same : other = component := declared_unique registers.schemas registers.keyed declared' declared
    (made'.source.symm.trans (source.trans made.source))
  subst same
  have defines := Component.definition_defines made.definition
  rw [defines.name] at stands
  exact ⟨last.definition, made'.definition, stands⟩

namespace Section

variable {α : Type} (entries : resolver.Section α)

/-- Along a chain that ends in place, the names of the components unfold to the type of the last one. -/
theorem unfolds (registers : resolver.RegistersSilently) {key : String} {keys : List String}
    {item : Referable α} {value : α} (held : Entries.get? key entries.table = some item)
    (leads : Leads entries.root entries.table keys item (.inline value)) :
    ∃ last definition, ((entries.component last (.inline value)).definition resolver).outcome =
        .ok definition ∧
      (resolver.registerComponents {}).1.Unfolds ((key :: keys).map entries.root.typeName)
        definition.type := by
  generalize ended : Referable.inline value = target at leads
  induction leads generalizing key with
  | here item =>
    subst ended
    obtain ⟨definition, made, stands⟩ := registers.get? (entries.declared _ (Entries.mem_of_get? held))
    rw [entries.typeName] at stands
    exact ⟨key, definition, made, .last stands⟩
  | @step path next keys item target parsed held' later ih =>
    obtain ⟨last, definition, defined, unfolds⟩ := ih held' ended
    obtain ⟨shown, made, stands⟩ := registers.get? (entries.declared _ (Entries.mem_of_get? held))
    rw [entries.typeName] at stands
    rw [entries.reference] at made
    obtain ⟨name, resolved, made⟩ := Traced.bind_ok made
    obtain rfl := Traced.pure_ok made
    -- Registration and the chain parse the same reference, so the alias names the next component.
    obtain ⟨target', parsed', -, rfl⟩ := parse_of_resolve resolved
    obtain rfl := Except.ok.inj (parsed.symm.trans parsed')
    exact ⟨last, definition, defined, .step stands rfl unfolds⟩

theorem unfolds_of_leads (registers : resolver.RegistersSilently) {path key : String}
    {keys : List String} {value : α}
    (leads : Leads entries.root entries.table (key :: keys) (.reference path) (.inline value)) :
    ∃ last definition, ((entries.component last (.inline value)).definition resolver).outcome =
        .ok definition ∧
      (resolver.registerComponents {}).1.Unfolds ((key :: keys).map entries.root.typeName)
        definition.type := by
  cases leads with
  | step parsed held later => exact entries.unfolds registers held later

theorem resolve_first {path key : String} {keys : List String} {item : Referable α}
    (leads : Leads entries.root entries.table (key :: keys) (.reference path) item) :
    resolver.resolve path = .ok (entries.root.typeName key) := by
  cases leads with
  | step parsed held later =>
    have present : resolver.contains ⟨entries.root, key⟩ = true :=
      (entries.contains key).trans (Entries.has_of_get? held)
    simp [resolve, parsed, present, bind, Except.bind, Target.typeName]

end Section

/-! ### Responses -/

section Responses

variable {place path : String} {given : Response} {node : Schema}

theorem responseType_untyped {item : Referable Response} (found : resolver.response item = .ok given)
    (untyped : given.content.schema = none) :
    (Endpoint.responseType resolver place item).outcome = .ok none := by
  simp [Endpoint.responseType, Except.bind, found, untyped]

theorem responseType_reference {name : String} (found : resolver.response (.reference path) = .ok given)
    (declared : given.content.schema = some node) (resolved : resolver.resolve path = .ok name) :
    (Endpoint.responseType resolver place (.reference path)).outcome = .ok (some (.named name)) := by
  simp [Endpoint.responseType, Except.bind, found, declared, resolved]

theorem responseType_inline {type : TypeExpr} (declared : given.content.schema = some node)
    (typed : (node.synthesize resolver place).outcome = .ok type) :
    (Endpoint.responseType resolver place (.inline given)).outcome = .ok (some type) := by
  have found : resolver.response (.inline given) = .ok given := rfl
  simp [Endpoint.responseType, Except.bind, found, declared, typed]

/-- What an operation makes of a response by reference and in place, the reference leading over these
keys. -/
structure ResponseAgrees (resolver : Resolver) (place path key : String) (keys : List String)
    (given : Response) : Prop where
  typed : given.content.schema.isSome → ∃ type,
    (Endpoint.responseType resolver place (.inline given)).outcome = .ok (some type) ∧
      (resolver.registerComponents {}).1.Unfolds ((key :: keys).map Root.response.typeName) type ∧
      ((key :: keys).length < maxReferenceSteps →
        (Endpoint.responseType resolver place (.reference path)).outcome =
          .ok (some (.named (Root.response.typeName key))))
  untyped : given.content.schema = none →
    (Endpoint.responseType resolver place (.inline given)).outcome = .ok none ∧
      ((key :: keys).length < maxReferenceSteps →
        (Endpoint.responseType resolver place (.reference path)).outcome = .ok none)

theorem responseAgrees (registers : resolver.RegistersSilently) (place : String) {key : String}
    {keys : List String} (leads : Leads .response resolver.components.responses (key :: keys)
      (.reference path) (.inline given)) : resolver.ResponseAgrees place path key keys given := by
  have found (within : (key :: keys).length < maxReferenceSteps) :
      resolver.response (.reference path) = .ok given :=
    follow_ok_iff.mpr ⟨_, leads, within⟩
  have resolved := resolver.responses.resolve_first leads
  constructor
  · intro declared
    obtain ⟨node, declared⟩ := Option.isSome_iff_exists.mp declared
    obtain ⟨last, definition, defined, unfolds⟩ := resolver.responses.unfolds_of_leads registers leads
    have typed : node.HasType resolver definition.type :=
      (Component.definition_defines defined).response_typed.of_some declared
    have inPlace := responseType_inline declared (typed.everywhere place)
    refine ⟨definition.type, inPlace, unfolds, fun within => ?_⟩
    exact responseType_reference (found within) declared resolved
  · intro untyped
    refine ⟨responseType_untyped rfl untyped, fun within => ?_⟩
    exact responseType_untyped (found within) untyped

end Responses

/-! ### Request bodies -/

section Bodies

variable {operation path : String} {given : RequestBody}

theorem bodyPart_reference {name : String}
    (found : resolver.requestBody (.reference path) = .ok given)
    (resolved : resolver.resolve path = .ok name) :
    (Endpoint.bodyPart resolver operation (some (.reference path))).outcome =
      .ok ⟨.named name, given.required, []⟩ := by
  simp [Endpoint.bodyPart, Except.bind, found, resolved]

theorem bodyPart_inline {type : TypeExpr}
    (typed : Schema.TypedOr resolver .any given.content.schema type) (operation : String) :
    ∃ part, (Endpoint.bodyPart resolver operation (some (.inline given))).outcome = .ok part ∧
      part.required = given.required ∧ part.Gives type := by
  cases declared : given.content.schema with
  | none =>
    rw [declared] at typed
    cases typed
    refine ⟨⟨.any, given.required, []⟩, ?_, rfl, .inl rfl⟩
    simp [Endpoint.bodyPart, Endpoint.inlineBody, declared]
  | some node =>
    have typed := (typed.of_some declared).everywhere
    by_cases refers : node.ref.isSome = true
    · refine ⟨⟨type, given.required, []⟩, ?_, rfl, .inl rfl⟩
      simp [Endpoint.bodyPart, Endpoint.inlineBody, declared, refers, typed]
    · let name := operation ++ "RequestBody"
      let entry := Endpoint.auxiliary operation .requestBody name type
        (DocComment.ofTexts given.description.toList)
      refine ⟨⟨.named name, given.required, [entry]⟩, ?_, rfl,
        .inr ⟨entry, List.mem_singleton_self _, rfl, rfl⟩⟩
      simp [Endpoint.bodyPart, Endpoint.inlineBody, declared, refers, typed, name, entry]

/-- What an operation makes of a request body by reference and in place, the reference leading over
these keys. -/
structure BodyAgrees (resolver : Resolver) (operation path key : String) (keys : List String)
    (given : RequestBody) : Prop where
  typed : ∃ part type,
    (Endpoint.bodyPart resolver operation (some (.inline given))).outcome = .ok part ∧
      part.required = given.required ∧ part.Gives type ∧
      (resolver.registerComponents {}).1.Unfolds ((key :: keys).map Root.requestBody.typeName) type
  named : (key :: keys).length < maxReferenceSteps →
    (Endpoint.bodyPart resolver operation (some (.reference path))).outcome =
      .ok ⟨.named (Root.requestBody.typeName key), given.required, []⟩

theorem bodyAgrees (registers : resolver.RegistersSilently) (operation : String) {key : String}
    {keys : List String} (leads : Leads .requestBody resolver.components.requestBodies (key :: keys)
      (.reference path) (.inline given)) : resolver.BodyAgrees operation path key keys given := by
  constructor
  · obtain ⟨last, definition, defined, unfolds⟩ :=
      resolver.requestBodies.unfolds_of_leads registers leads
    have typed := (Component.definition_defines defined).requestBody_typed
    obtain ⟨part, made, required, gives⟩ := bodyPart_inline typed operation
    exact ⟨part, definition.type, made, required, gives, unfolds⟩
  · intro within
    have found : resolver.requestBody (.reference path) = .ok given :=
      follow_ok_iff.mpr ⟨_, leads, within⟩
    exact bodyPart_reference found (resolver.requestBodies.resolve_first leads)

end Bodies

/-- Where components are registered without collisions, a response or a request body means by reference
what it means in place. -/
theorem referenced_agrees (registers : resolver.RegistersSilently) :
    (∀ (place path key : String) (keys : List String) (given : Response),
      Leads .response resolver.components.responses (key :: keys) (.reference path) (.inline given) →
        resolver.ResponseAgrees place path key keys given) ∧
      ∀ (operation path key : String) (keys : List String) (given : RequestBody),
        Leads .requestBody resolver.components.requestBodies (key :: keys) (.reference path)
            (.inline given) →
          resolver.BodyAgrees operation path key keys given :=
  ⟨fun place _ _ _ _ leads => responseAgrees registers place leads,
    fun operation _ _ _ _ leads => bodyAgrees registers operation leads⟩

/-- Pets are listed through two references, and created through one. -/
def petCatalogue : Resolver where
  components := {
    responses := [("Pets", .reference "#/components/responses/PetList"), ("PetList", .inline petList)]
    requestBodies := [("NewPet", .inline newPet)] }
  schemas := [("Pet", { type := some (.single "object") })]
where
  pet : Schema := { ref := some "#/components/schemas/Pet" }
  petList : Response :=
    { content := [("application/json",
      { schema := some { type := some (.single "array"), items := some pet } })] }
  newPet : RequestBody := { content := [("application/json", { schema := some pet })] }

theorem petCatalogue_registers : petCatalogue.RegistersSilently where
  schemas := List.nodup_singleton _
  keyed := ⟨List.nodup_nil, show ["Pets", "PetList"].Nodup by decide, List.nodup_singleton _⟩
  registered := registered_of_isOk (by decide +kernel)
  silent := by decide +kernel

theorem petCatalogue_agrees :
    petCatalogue.ResponseAgrees "listPets.200" "#/components/responses/Pets" "Pets" ["PetList"]
        petCatalogue.petList ∧
      petCatalogue.BodyAgrees "createPet" "#/components/requestBodies/NewPet" "NewPet" []
        petCatalogue.newPet := by
  obtain ⟨responses, bodies⟩ := referenced_agrees petCatalogue_registers
  refine ⟨responses _ _ _ _ _ ?_, bodies _ _ _ _ _ ?_⟩
  · have next : Leads .response petCatalogue.components.responses ["PetList"]
        (.reference "#/components/responses/PetList") (.inline petCatalogue.petList) :=
      .step rfl rfl (.here _)
    exact .step rfl rfl next
  · exact .step rfl rfl (.here _)

end Resolver
end TypedClient
