import TypedClient.Proofs.Document.Plain
import TypedClient.Proofs.Synthesis.Unfolded
import TypedClient.Proofs.TypeExpr.Plain

/-!
Synthesis is blind to descriptions: the type of a node without its descriptions is the type of the node
without the descriptions of its fields, with the same reports on the way.
-/
namespace TypedClient.Schema

/-! ### Types that have no fields -/

theorem kindType_plain (place kind : String) :
    TypeExpr.plain <$> kindType place kind = kindType place kind := by
  unfold kindType
  split
  · exact map_pure _ _
  split
  · exact map_pure _ _
  split
  · exact map_pure _ _
  split <;> simp only [map_bind, map_pure, TypeExpr.plain_scalar]

theorem kindTypes_plain (place : String) (kinds : List String) :
    List.map TypeExpr.plain <$> kindTypes place kinds = kindTypes place kinds := by
  induction kinds with
  | nil => exact map_pure _ _
  | cons kind kinds ih =>
    conv_rhs => rw [kindTypes, ← kindType_plain, ← ih]
    simp only [kindTypes, map_bind, bind_map_left, map_pure, List.map_cons]

theorem enumType_plain (values : List EnumValue) : (enumType values).plain = enumType values := by
  unfold enumType
  split <;> simp [TypeExpr.literalsOf, TypeExpr.orNull]

theorem primitiveType_plain (place kind : String) (values : Option (List EnumValue)) :
    TypeExpr.plain <$> primitiveType place kind values = primitiveType place kind values := by
  unfold primitiveType
  conv_rhs => rw [← kindType_plain]
  simp only [map_bind, bind_map_left]
  congr 1
  funext base
  cases values with
  | none => exact map_pure _ _
  | some values =>
    have text : base.plain.same (.scalar .string) = base.same (.scalar .string) := by
      simpa using TypeExpr.same_plain base (.scalar .string)
    simp only [text, map_pure]
    split <;> simp only [enumType_plain]

theorem orNullIf_plain (nullable : Bool) (type : TypeExpr) :
    orNullIf nullable type.plain = (orNullIf nullable type).plain := by
  cases nullable with
  | false => rfl
  | true => exact TypeExpr.orNull_plain type

theorem objectType_plain (additional : Option (Additional Schema)) (index : Option TypeExpr)
    (fields : Option (List (Field TypeExpr))) :
    objectType (plainAdditional additional) (index.map .plain)
        (fields.map (List.map Field.plain)) =
      (objectType additional index fields).plain := by
  cases fields with
  | some fields => simp [objectType]
  | none =>
    have opened : (index.map TypeExpr.plain).getD .any = (index.getD .any).plain := by
      cases index <;> simp
    match additional with
    | none | some (.flag true) | some (.values _) => simp [objectType, plainAdditional, opened]
    | some (.flag false) => simp [objectType, plainAdditional]

section Commutes

variable {resolver : Resolver}

/-- Descriptions may be removed before or after synthesis of the node. -/
def Commutes (resolver : Resolver) (schema : Schema) : Prop :=
  ∀ place, schema.plain.synthesize resolver.plain place =
    TypeExpr.plain <$> schema.synthesize resolver place

theorem synthesizeItems_plain {items : Option Schema}
    (inside : ∀ node ∈ items.toList, Commutes resolver node) (place : String) :
    synthesizeItems resolver.plain place (items.map plain) =
      TypeExpr.plain <$> synthesizeItems resolver place items := by
  cases items with
  | none => rfl
  | some node => exact inside node (List.mem_singleton_self node) _

theorem synthesizeFrom_plain {members : List Schema}
    (inside : ∀ node ∈ members, Commutes resolver node) (place : String) (position : Nat) :
    synthesizeFrom resolver.plain place position (members.map plain) =
      List.map TypeExpr.plain <$> synthesizeFrom resolver place position members := by
  induction members generalizing position with
  | nil => rfl
  | cons member rest ih =>
    rw [List.forall_mem_cons] at inside
    simp only [List.map_cons, synthesizeFrom, plain_toFacets, Facets.plain_isNullType]
    split
    · exact ih inside.2 _
    · rw [inside.1, ih inside.2]
      simp only [map_bind, bind_map_left, map_pure, List.map_cons]

theorem synthesizeMembers_plain {members : Option (List Schema)}
    (inside : ∀ node ∈ members.getD [], Commutes resolver node) (place : String) :
    synthesizeMembers resolver.plain place (members.map (List.map plain)) =
      List.map TypeExpr.plain <$> synthesizeMembers resolver place members := by
  cases members with
  | none => rfl
  | some members => exact synthesizeFrom_plain inside place 0

theorem synthesizeIndex_plain {additional : Option (Additional Schema)}
    (inside : ∀ node ∈ (additional.bind (·.schema?)).toList, Commutes resolver node)
    (place : String) :
    synthesizeIndex resolver.plain place (plainAdditional additional) =
      Option.map TypeExpr.plain <$> synthesizeIndex resolver place additional := by
  match additional with
  | none | some (.flag false) => rfl
  | some (.flag true) =>
    simp only [plainAdditional, synthesizeIndex, map_pure, Option.map_some, TypeExpr.plain_scalar]
  | some (.values node) =>
    simp only [plainAdditional, synthesizeIndex, plain_shape]
    split
    · simp only [map_pure, Option.map_some, TypeExpr.plain_scalar]
    · rw [inside node (List.mem_singleton_self node)]
      simp only [map_bind, bind_map_left, map_pure, Option.map_some]

theorem synthesizeFields_plain {properties : List (String × Schema)}
    (inside : ∀ entry ∈ properties, Commutes resolver entry.2) (place : String)
    (required : List String) (opened : Bool) :
    synthesizeFields resolver.plain place required opened (Entries.mapValues plain properties) =
      List.map Field.plain <$> synthesizeFields resolver place required opened properties := by
  induction properties with
  | nil => rfl
  | cons entry rest ih =>
    obtain ⟨name, property⟩ := entry
    rw [List.forall_mem_cons] at inside
    have later := ih inside.2
    simp only [Entries.mapValues, List.map_cons, synthesizeFields] at later ⊢
    rw [inside.1, later]
    simp only [map_bind, bind_map_left, map_pure, List.map_cons, Field.plain, plain_toFacets,
      Facets.plain_description]

theorem synthesizeProperties_plain {properties : Option (List (String × Schema))}
    (inside : ∀ node ∈ (properties.getD []).map (·.2), Commutes resolver node)
    (place : String) (required : List String) (opened : Bool) :
    synthesizeProperties resolver.plain place required opened
        (properties.map (Entries.mapValues plain)) =
      Option.map (List.map Field.plain) <$>
        synthesizeProperties resolver place required opened properties := by
  cases properties with
  | none => rfl
  | some properties =>
    rw [Option.getD_some, List.forall_mem_map] at inside
    simp only [Option.map_some, synthesizeProperties, synthesizeFields_plain inside, map_bind,
      bind_map_left, map_pure]

variable {schema : Schema}

theorem synthesizeObject_plain (inside : ∀ node ∈ schema.children, Commutes resolver node)
    (place : String) :
    synthesizeObject resolver.plain place schema.plain =
      TypeExpr.plain <$> synthesizeObject resolver place schema := by
  have values : ∀ node ∈ (schema.additional.bind (·.schema?)).toList, Commutes resolver node :=
    fun node value => inside node (by simp [children, value])
  have properties : ∀ node ∈ (schema.properties.getD []).map (·.2), Commutes resolver node :=
    fun node property => inside node (by simp only [children, List.mem_append, property, true_or])
  simp only [synthesizeObject, plain_additional, synthesizeIndex_plain values, plain_properties,
    synthesizeProperties_plain properties, plain_toFacets, Facets.plain_required, map_bind,
    bind_map_left, map_pure, Option.isSome_map, objectType_plain]

theorem synthesizeCore_plain (inside : ∀ node ∈ schema.children, Commutes resolver node)
    (place : String) :
    schema.plain.synthesizeCore resolver.plain place =
      TypeExpr.plain <$> schema.synthesizeCore resolver place := by
  have members (composition : Composition) :
      synthesizeMembers resolver.plain place ((schema.members composition).map (List.map plain)) =
        List.map TypeExpr.plain <$> synthesizeMembers resolver place (schema.members composition) :=
    synthesizeMembers_plain (fun node member => inside node (member_mem_children member)) place
  have items := synthesizeItems_plain (fun node given => inside node
    (items_mem_children (Option.mem_toList.mp given))) place
  unfold synthesizeCore
  rw [plain_shape]
  split
  · simp only [resolver.resolve_plain, map_bind, map_pure, TypeExpr.plain_named]
  · simp only [plain_members, members, plain_properties, Option.isSome_map, plain_admitsNull,
      synthesizeObject_plain inside, map_bind, bind_map_left]
    congr 1
    funext types
    split
    · simp only [map_bind, map_pure, ← orNullIf_plain, ← TypeExpr.intersectionOf_plain,
        List.map_append, List.map_singleton]
    · simp only [map_pure, ← orNullIf_plain, ← TypeExpr.intersectionOf_plain]
  · simp only [plain_members, members, plain_admitsNull, map_bind, bind_map_left, map_pure,
      ← orNullIf_plain, ← TypeExpr.unionOf_plain]
  · simp only [plain_items, items, map_bind, bind_map_left, map_pure, TypeExpr.plain_array]
  · exact synthesizeObject_plain inside place
  · rw [plain_toFacets, Facets.plain_enum, primitiveType_plain]
  · simp only [plain_toFacets, Facets.plain_nonNullTypes, map_bind, map_pure, ← TypeExpr.unionOf_plain]
    conv_lhs => rw [← kindTypes_plain]
    simp only [bind_map_left]
  · simp only [map_pure, TypeExpr.plain_object, List.map_nil, Option.map_none]

theorem synthesize_plain (resolver : Resolver) (schema : Schema) (place : String) :
    schema.plain.synthesize resolver.plain place =
      TypeExpr.plain <$> schema.synthesize resolver place := by
  induction schema using induct_children generalizing place with
  | step schema ih =>
    have core := synthesizeCore_plain (fun node child => ih node child) place
    simp only [synthesize_eq, core, map_bind, bind_map_left, map_pure, ← orNullIf_plain, plain_toFacets,
      Facets.plain_isNullable]

end Commutes
end TypedClient.Schema
