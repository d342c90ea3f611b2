import TypedClient.Proofs.Schema.Read
import TypedClient.Proofs.Synthesis.Typing
import TypedClient.Proofs.Synthesis.Unfolded

/-!
What synthesis takes from the references of a node. It succeeds only if every reference that is read
resolves, and it comes out alike, be it with a type or with an error, under resolvers that agree on these
references. The place of a node is for reports only.
-/
namespace TypedClient.Schema

section Resolves

variable {resolver : Resolver} {schema node : Schema} {core : TypeExpr}

theorem MembersTyped.each {members : List Schema} {types : List TypeExpr}
    (typed : MembersTyped resolver members types)
    (proper : node ∈ members.filter fun member => !member.isNullType) :
    ∃ type, HasType resolver node type := by
  obtain ⟨type, -, typed⟩ := InStep.right_of_left typed proper
  exact ⟨type, typed⟩

theorem IndexTyped.each {additional : Option (Additional Schema)} {index : Option TypeExpr}
    (opened : IndexTyped resolver additional index)
    (values : node ∈ (additional.bind (·.schema?)).toList) :
    (∃ type, HasType resolver node type) ∨ node.shape = .empty := by
  cases opened with
  | absent | closed | unrestricted => cases values
  | untyped shape =>
    obtain rfl := List.mem_singleton.mp values
    exact .inr shape
  | typed _ typed =>
    obtain rfl := List.mem_singleton.mp values
    exact .inl ⟨_, typed⟩

theorem typed_of_objectNodes {properties : List (String × Schema)} {fields : List (Field TypeExpr)}
    {index : Option TypeExpr} (declared : schema.properties = some properties)
    (opened : IndexTyped resolver schema.additional index)
    (typed : List.Forall₂ (FieldTyped resolver schema.required index.isSome) properties fields)
    (member : node ∈ schema.objectNodes) :
    (∃ type, HasType resolver node type) ∨ node.shape = .empty := by
  rw [objectNodes, declared] at member
  rcases List.mem_append.mp member with property | values
  · obtain ⟨entry, present, rfl⟩ := List.mem_map.mp property
    obtain ⟨field, -, typed⟩ := InStep.right_of_left typed present
    exact .inl ⟨_, typed.type⟩
  · exact opened.each values

/-- Every node that is read gets a type, but for one without keywords under `additionalProperties`. -/
theorem Formed.read (formed : Formed resolver schema core) (read : node ∈ schema.readNodes) :
    (∃ type, HasType resolver node type) ∨ node.shape = .empty := by
  cases formed with
  | reference shape | primitive shape | kinds shape | empty shape => simp [readNodes, shape] at read
  | @union composition _ shape alternative members =>
    have proper : node ∈ schema.properMembers composition := by
      cases composition with
      | allOf => exact (alternative rfl).elim
      | oneOf | anyOf => simpa [readNodes, shape] using read
    exact .inl (members.each proper)
  | intersection shape undeclared members =>
    have proper : node ∈ schema.properMembers .allOf := by
      simpa [readNodes, shape, undeclared] using read
    exact .inl (members.each proper)
  | extension shape declared members opened typed =>
    have nodes : node ∈ schema.properMembers .allOf ++ schema.objectNodes := by
      simpa [readNodes, shape, declared] using read
    rcases List.mem_append.mp nodes with proper | own
    · exact .inl (members.each proper)
    · exact typed_of_objectNodes declared opened typed own
  | array shape typed =>
    have items : schema.items = some node := by simpa [readNodes, shape] using read
    exact .inl ⟨_, typed node items⟩
  | map shape undeclared opened =>
    have values : node ∈ (schema.additional.bind (·.schema?)).toList := by
      simpa [readNodes, shape, objectNodes, undeclared] using read
    exact opened.each values
  | object shape declared opened typed =>
    have own : node ∈ schema.objectNodes := by simpa [readNodes, shape] using read
    exact typed_of_objectNodes declared opened typed own

theorem HasType.resolves {type : TypeExpr} {path : String} (typed : HasType resolver schema type)
    (refers : schema.Refers path) : ∃ name, resolver.resolve path = .ok name := by
  induction refers generalizing type with
  | here shape =>
    obtain ⟨core, formed, -⟩ := typed.formed
    cases formed with
    | reference shape' resolved =>
      obtain rfl := Shape.reference.inj (shape.symm.trans shape')
      exact ⟨_, resolved⟩
    | union shape' | intersection shape' | extension shape' | array shape' | map shape'
    | object shape' | primitive shape' | kinds shape' | empty shape' =>
      cases shape.symm.trans shape'
  | inside read refers ih =>
    obtain ⟨core, formed, -⟩ := typed.formed
    rcases formed.read read with ⟨inner, typed⟩ | empty
    · exact ih typed
    · exact (not_refers_of_empty empty refers).elim

/-! ### What is read decides on success -/

/-- Synthesis of the node succeeds at every place. -/
def Synthesizes (resolver : Resolver) (schema : Schema) : Prop :=
  ∀ place, (schema.synthesize resolver place).Succeeds

variable {place : String}

theorem synthesizeFrom_succeeds {members : List Schema} (position : Nat)
    (inside : ∀ node ∈ members.filter fun member => !member.isNullType, Synthesizes resolver node) :
    (synthesizeFrom resolver place position members).Succeeds := by
  induction members generalizing position with
  | nil => exact .pure []
  | cons member rest ih =>
    rw [synthesizeFrom]
    split
    · rename_i null
      exact ih _ (by simpa [null] using inside)
    · rename_i proper
      simp only [proper, Bool.not_false, List.filter_cons_of_pos, List.forall_mem_cons] at inside
      exact .bind (inside.1 _) fun _ => .bind (ih _ inside.2) fun _ => .pure _

theorem synthesizeMembers_succeeds {composition : Composition}
    (inside : ∀ node ∈ schema.properMembers composition, Synthesizes resolver node) :
    (synthesizeMembers resolver place (schema.members composition)).Succeeds := by
  unfold properMembers at inside
  generalize schema.members composition = members at inside
  cases members with
  | none => exact .pure []
  | some members =>
    rw [synthesizeMembers]
    exact synthesizeFrom_succeeds 0 inside

theorem synthesizeFields_succeeds {properties : List (String × Schema)} (required : List String)
    (opened : Bool) (inside : ∀ entry ∈ properties, Synthesizes resolver entry.2) :
    (synthesizeFields resolver place required opened properties).Succeeds := by
  induction properties with
  | nil => exact .pure []
  | cons entry rest ih =>
    obtain ⟨name, property⟩ := entry
    rw [List.forall_mem_cons] at inside
    exact .bind (inside.1 _) fun _ => .bind (ih inside.2) fun _ => .pure _

theorem synthesizeIndex_succeeds {additional : Option (Additional Schema)}
    (inside : ∀ node ∈ (additional.bind (·.schema?)).toList, Synthesizes resolver node) :
    (synthesizeIndex resolver place additional).Succeeds := by
  match additional with
  | none | some (.flag false) => exact .pure none
  | some (.flag true) => exact .pure (some TypeExpr.any)
  | some (.values node) =>
    rw [synthesizeIndex]
    split
    · exact .pure _
    · exact .bind (inside node (List.mem_singleton_self node) _) fun _ => .pure _

theorem synthesizeObject_succeeds
    (inside : ∀ node ∈ schema.objectNodes, Synthesizes resolver node) :
    (synthesizeObject resolver place schema).Succeeds := by
  obtain ⟨properties, values⟩ := List.forall_mem_append.mp inside
  refine .bind (synthesizeIndex_succeeds values) fun index => .bind ?_ fun _ => .pure _
  cases given : schema.properties with
  | none => exact .pure none
  | some entries =>
    rw [given, Option.getD_some, List.forall_mem_map] at properties
    exact .bind (synthesizeFields_succeeds _ _ properties) fun _ => .pure _

theorem synthesizeCore_succeeds
    (here : ∀ path, schema.shape = .reference path → ∃ name, resolver.resolve path = .ok name)
    (read : ∀ node ∈ schema.readNodes, Synthesizes resolver node) :
    (schema.synthesizeCore resolver place).Succeeds := by
  unfold synthesizeCore
  split <;> rename_i shape
  · exact .bind (here _ shape) fun _ => .pure _
  · simp only [readNodes, shape, List.forall_mem_append] at read
    refine .bind (synthesizeMembers_succeeds read.1) fun types => ?_
    split
    · rename_i declared
      simp only [declared, if_true] at read
      exact .bind (synthesizeObject_succeeds read.2) fun _ => .pure _
    · exact .pure _
  · simp only [readNodes, shape] at read
    exact .bind (synthesizeMembers_succeeds read) fun _ => .pure _
  · simp only [readNodes, shape] at read
    refine .bind ?_ fun _ => .pure _
    cases given : schema.items with
    | none => exact .pure TypeExpr.any
    | some node => exact read node (by simp [given]) _
  · simp only [readNodes, shape] at read
    exact synthesizeObject_succeeds read
  · exact ⟨_, primitiveType_outcome _ _ _⟩
  · exact .bind ⟨_, kindTypes_outcome _ _⟩ fun _ => .pure _
  · exact .pure _

/-- Synthesis succeeds exactly if every reference that is read resolves. -/
theorem synthesizes_iff_resolves :
    schema.Synthesizes resolver ↔
      ∀ path, schema.Refers path → ∃ name, resolver.resolve path = .ok name := by
  constructor
  · intro synthesizes path refers
    obtain ⟨type, made⟩ := synthesizes ""
    exact HasType.resolves ⟨"", made⟩ refers
  · induction schema using induct_children with
    | step schema ih =>
      intro resolves place
      have read : ∀ node ∈ schema.readNodes, Synthesizes resolver node := fun node read =>
        ih node (mem_children_of_readNodes read) fun path refers => resolves path (.inside read refers)
      rw [synthesize_eq]
      exact .bind (synthesizeCore_succeeds (fun path shape => resolves path (.here shape)) read)
        fun _ => .pure _

end Resolves

section Agreement

variable {resolver other : Resolver}

/-- Synthesis of the node comes out alike under both resolvers, at all places. -/
def Alike (resolver other : Resolver) (schema : Schema) : Prop :=
  ∀ place place',
    (schema.synthesize resolver place).outcome = (schema.synthesize other place').outcome

theorem synthesizeItems_alike {items : Option Schema}
    (inside : ∀ node ∈ items.toList, Alike resolver other node) (place place' : String) :
    (synthesizeItems resolver place items).outcome =
      (synthesizeItems other place' items).outcome := by
  cases items with
  | none => rfl
  | some node =>
    rw [synthesizeItems, synthesizeItems]
    exact inside node (List.mem_singleton_self node) _ _

theorem synthesizeFrom_alike {members : List Schema}
    (inside : ∀ node ∈ members.filter fun member => !member.isNullType, Alike resolver other node)
    (place place' : String) (position position' : Nat) :
    (synthesizeFrom resolver place position members).outcome =
      (synthesizeFrom other place' position' members).outcome := by
  induction members generalizing position position' with
  | nil => rfl
  | cons member rest ih =>
    rw [synthesizeFrom, synthesizeFrom]
    split
    · rename_i null
      exact ih (by simpa [null] using inside) _ _
    · rename_i proper
      simp only [proper, Bool.not_false, List.filter_cons_of_pos, List.forall_mem_cons] at inside
      simp only [Traced.outcome_bind]
      rw [inside.1 _ (place' ++ "/" ++ toString position'), ih inside.2 _ (position' + 1)]

theorem synthesizeMembers_alike {members : Option (List Schema)}
    (inside : ∀ node ∈ (members.getD []).filter fun member => !member.isNullType,
      Alike resolver other node) (place place' : String) :
    (synthesizeMembers resolver place members).outcome =
      (synthesizeMembers other place' members).outcome := by
  cases members with
  | none => rfl
  | some members =>
    rw [synthesizeMembers, synthesizeMembers]
    exact synthesizeFrom_alike inside place place' 0 0

theorem synthesizeIndex_alike {additional : Option (Additional Schema)}
    (inside : ∀ node ∈ (additional.bind (·.schema?)).toList, Alike resolver other node)
    (place place' : String) :
    (synthesizeIndex resolver place additional).outcome =
      (synthesizeIndex other place' additional).outcome := by
  match additional with
  | none | some (.flag true) | some (.flag false) => rfl
  | some (.values node) =>
    rw [synthesizeIndex, synthesizeIndex]
    split
    · rfl
    · simp only [Traced.outcome_bind]
      rw [inside node (List.mem_singleton_self node) _ (place' ++ "[*]")]

theorem synthesizeFields_alike {properties : List (String × Schema)}
    (inside : ∀ entry ∈ properties, Alike resolver other entry.2) (place place' : String)
    (required : List String) (opened : Bool) :
    (synthesizeFields resolver place required opened properties).outcome =
      (synthesizeFields other place' required opened properties).outcome := by
  induction properties with
  | nil => rfl
  | cons entry rest ih =>
    obtain ⟨name, property⟩ := entry
    have later := ih fun entry present => inside entry (List.mem_cons_of_mem _ present)
    rw [synthesizeFields, synthesizeFields]
    simp only [Traced.outcome_bind]
    rw [inside _ List.mem_cons_self _ (place' ++ "." ++ name), later]

theorem synthesizeProperties_alike {properties : Option (List (String × Schema))}
    (inside : ∀ node ∈ (properties.getD []).map (·.2), Alike resolver other node)
    (place place' : String) (required : List String) (opened : Bool) :
    (synthesizeProperties resolver place required opened properties).outcome =
      (synthesizeProperties other place' required opened properties).outcome := by
  cases properties with
  | none => rfl
  | some properties =>
    have each : ∀ entry ∈ properties, Alike resolver other entry.2 := fun entry present =>
      inside entry.2 (List.mem_map_of_mem present)
    rw [synthesizeProperties, synthesizeProperties]
    simp only [Traced.outcome_bind]
    rw [synthesizeFields_alike each place place']

theorem synthesizeObject_alike {schema : Schema}
    (inside : ∀ node ∈ schema.objectNodes, Alike resolver other node) (place place' : String) :
    (synthesizeObject resolver place schema).outcome =
      (synthesizeObject other place' schema).outcome := by
  have index := synthesizeIndex_alike
    (fun node values => inside node (List.mem_append_right _ values)) place place'
  have fields := synthesizeProperties_alike
    (fun node property => inside node (List.mem_append_left _ property)) place place'
  simp only [synthesizeObject, Traced.outcome_bind, index, fields]

theorem synthesizeCore_alike {schema : Schema}
    (here : ∀ path, schema.shape = .reference path → resolver.resolve path = other.resolve path)
    (read : ∀ node ∈ schema.readNodes, Alike resolver other node) (place place' : String) :
    (schema.synthesizeCore resolver place).outcome =
      (schema.synthesizeCore other place').outcome := by
  unfold synthesizeCore
  split <;> rename_i shape
  · simp only [Traced.outcome_bind, Traced.outcome_ofExcept, here _ shape]
  · simp only [readNodes, shape, List.forall_mem_append] at read
    rw [Traced.outcome_bind, Traced.outcome_bind, synthesizeMembers_alike read.1 place place']
    congr 1
    funext types
    split
    · rename_i declared
      simp only [declared, if_true] at read
      simp only [Traced.outcome_bind, synthesizeObject_alike read.2 place place']
    · rfl
  · simp only [readNodes, shape] at read
    simp only [Traced.outcome_bind, synthesizeMembers_alike read place place']
  · simp only [readNodes, shape] at read
    simp only [Traced.outcome_bind, synthesizeItems_alike read place place']
  · simp only [readNodes, shape] at read
    exact synthesizeObject_alike read place place'
  · rw [primitiveType_outcome, primitiveType_outcome]
  · simp only [Traced.outcome_bind, kindTypes_outcome]
  · rfl

/-- Synthesis depends on the resolver through the references that are read. -/
theorem alike_of_agree (schema : Schema)
    (agree : ∀ path, schema.Refers path → resolver.resolve path = other.resolve path) :
    Alike resolver other schema := by
  induction schema using induct_children with
  | step schema ih =>
    intro place place'
    have read : ∀ node ∈ schema.readNodes, Alike resolver other node := fun node read =>
      ih node (mem_children_of_readNodes read) fun path refers => agree path (.inside read refers)
    have core := synthesizeCore_alike (fun path shape => agree path (.here shape)) read place place'
    simp only [synthesize_eq, Traced.outcome_bind, core]

theorem HasType.everywhere {schema : Schema} {type : TypeExpr} (typed : HasType resolver schema type)
    (place : String) : (schema.synthesize resolver place).outcome = .ok type := by
  obtain ⟨other, made⟩ := typed
  exact (alike_of_agree schema (fun _ _ => rfl) place other).trans made

theorem HasType.unique {schema : Schema} {type type' : TypeExpr}
    (typed : HasType resolver schema type) (typed' : HasType resolver schema type') : type = type' :=
  Except.ok.inj ((typed.everywhere "").symm.trans (typed'.everywhere ""))

end Agreement
end TypedClient.Schema
