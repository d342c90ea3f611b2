import Mathlib.Data.List.Nodup
import TypedClient.Proofs.Identifier.Spelling
import TypedClient.Render.Flavor

/-!
Names that operations take up in a module. They are told by the verb and the name of each operation, and
they are distinct exactly if no two operations clash: the names of one operation never clash.
-/
namespace TypedClient

theorem Text.length_le_capitalize (word : List Char) : word.length ≤ (capitalize word).length := by
  cases word with
  | nil => exact Nat.le_refl 0
  | cons c rest =>
    have some_form : upperForms c ≠ [] := by
      have expanded : ∀ entry ∈ upperExpansions, entry.2 ≠ [] := by decide
      unfold upperForms caseForms
      split
      · exact List.cons_ne_nil _ _
      · split
        · rename_i codes found
          obtain ⟨front, back, listed, -⟩ := List.lookup_eq_some_iff.mp found
          have member : (c.toNat, codes) ∈ upperExpansions := by
            rw [listed]
            exact List.mem_append_right _ List.mem_cons_self
          exact mt List.map_eq_nil_iff.mp (expanded _ member)
        · split
          · exact List.cons_ne_nil _ _
          · exact List.cons_ne_nil _ _
    have filled := List.length_pos_of_ne_nil some_form
    rw [capitalize, List.length_append, List.length_cons]
    omega

/-- What tells the names of an operation. -/
structure Label where
  verb : Verb
  name : String

def Descriptor.label (descriptor : Descriptor) : Label :=
  ⟨descriptor.verb, descriptor.name⟩

def Endpoint.label (naming : Naming) (endpoint : Endpoint) : Label :=
  ⟨endpoint.verb, endpoint.name naming⟩

namespace Label

def function (label : Label) : String :=
  Identifier.ofName (Identifier.uncapitalized label.name)

def key (label : Label) : String :=
  label.function ++ "Key"

def hook (label : Label) : String :=
  "use" ++ Identifier.capitalized label.function

def names (label : Label) : Flavor → List String
  | .fetch => [label.function]
  | .reactQuery =>
    label.function :: ((if label.verb.isQuery then [label.key] else []) ++ [label.hook])

/-- The function or the key of one operation has a name that the other one derives. -/
def Crosses (label other : Label) : Prop :=
  (other.verb.isQuery = true ∧ label.function = other.key) ∨ label.function = other.hook ∨
    (label.verb.isQuery = true ∧ label.key = other.hook)

def Clash : Flavor → Label → Label → Prop
  | .fetch, label, other =>
    Identifier.Alike (Identifier.uncapitalized label.name) (Identifier.uncapitalized other.name)
  | .reactQuery, label, other =>
    label.hook = other.hook ∨ label.Crosses other ∨ other.Crosses label

instance (label other : Label) : Decidable (Crosses label other) :=
  inferInstanceAs (Decidable (_ ∨ _ ∨ _))

instance (label other : Label) : (flavor : Flavor) → Decidable (Clash flavor label other)
  | .fetch => inferInstanceAs (Decidable (Identifier.Alike _ _))
  | .reactQuery => inferInstanceAs (Decidable (_ ∨ _ ∨ _))

/-! ### The names of one operation -/

variable (label : Label)

theorem function_ne_key : label.function ≠ label.key := by
  intro same
  have lengths := congrArg String.length same
  rw [key, String.length_append] at lengths
  have longer : "Key".length = 3 := rfl
  omega

theorem function_ne_hook : label.function ≠ label.hook := by
  intro same
  have lengths := congrArg (fun name => name.toList.length) same
  have grown := Text.length_le_capitalize label.function.toList
  have three : "use".toList.length = 3 := rfl
  simp only [hook, Identifier.capitalized, String.toList_append, String.toList_ofList,
    List.length_append] at lengths
  omega

/-- The name of the function would start with `u`, and the `K` of the key had no match. -/
theorem key_ne_hook : label.key ≠ label.hook := by
  intro same
  have chars := congrArg String.toList same
  simp only [key, hook, Identifier.capitalized, String.toList_append, String.toList_ofList] at chars
  cases shape : label.function.toList with
  | nil =>
    rw [shape] at chars
    revert chars
    decide
  | cons c rest =>
    rw [shape] at chars
    obtain rfl : c = 'u' := (List.cons.inj chars).1
    have counted := congrArg (List.count 'K') chars
    have raised : Text.upperForms 'u' = ['U'] := by decide
    rw [Text.capitalize, raised, List.count_append, List.count_append, List.count_append,
      List.count_cons_of_ne (by decide)] at counted
    have one : List.count 'K' "Key".toList = 1 := by decide
    have none : List.count 'K' "use".toList = 0 ∧ List.count 'K' ['U'] = 0 := by decide
    omega

theorem nodup_names (flavor : Flavor) : (label.names flavor).Nodup := by
  cases flavor with
  | fetch => exact List.nodup_singleton _
  | reactQuery =>
    have key := label.function_ne_key
    have hook := label.function_ne_hook
    have both := label.key_ne_hook
    unfold names
    cases label.verb.isQuery <;> simp [key, hook, both]

/-! ### The names of two operations -/

variable {label} {other : Label}

theorem hook_eq_of_function (same : label.function = other.function) : label.hook = other.hook := by
  rw [hook, hook, same]

theorem hook_eq_of_key (same : label.key = other.key) : label.hook = other.hook := by
  apply hook_eq_of_function
  apply String.toList_inj.mp
  have chars := congrArg String.toList same
  rw [key, key, String.toList_append, String.toList_append] at chars
  exact List.append_cancel_right chars

theorem mem_names {name : String} : name ∈ label.names .reactQuery ↔
    name = label.function ∨ (label.verb.isQuery = true ∧ name = label.key) ∨ name = label.hook := by
  unfold names
  cases label.verb.isQuery <;> simp

theorem clash_of_shared {name : String} (own : name ∈ label.names .reactQuery)
    (others : name ∈ other.names .reactQuery) : Clash .reactQuery label other := by
  -- Function, key and hook of the one against function, key and hook of the other.
  rcases mem_names.mp own with same | ⟨queries, same⟩ | same <;>
    rcases mem_names.mp others with same' | ⟨queries', same'⟩ | same'
  · exact .inl (hook_eq_of_function (same.symm.trans same'))
  · exact .inr (.inl (.inl ⟨queries', same.symm.trans same'⟩))
  · exact .inr (.inl (.inr (.inl (same.symm.trans same'))))
  · exact .inr (.inr (.inl ⟨queries, same'.symm.trans same⟩))
  · exact .inl (hook_eq_of_key (same.symm.trans same'))
  · exact .inr (.inl (.inr (.inr ⟨queries, same.symm.trans same'⟩)))
  · exact .inr (.inr (.inr (.inl (same'.symm.trans same))))
  · exact .inr (.inr (.inr (.inr ⟨queries', same'.symm.trans same⟩)))
  · exact .inl (same.symm.trans same')

theorem Crosses.shared (crosses : label.Crosses other) :
    ∃ name, name ∈ label.names .reactQuery ∧ name ∈ other.names .reactQuery := by
  rcases crosses with ⟨queries, same⟩ | same | ⟨queries, same⟩
  · exact ⟨_, mem_names.mpr (.inl rfl), mem_names.mpr (.inr (.inl ⟨queries, same⟩))⟩
  · exact ⟨_, mem_names.mpr (.inl rfl), mem_names.mpr (.inr (.inr same))⟩
  · exact ⟨_, mem_names.mpr (.inr (.inl ⟨queries, rfl⟩)), mem_names.mpr (.inr (.inr same))⟩

theorem disjoint_names_iff (flavor : Flavor) :
    (label.names flavor).Disjoint (other.names flavor) ↔ ¬Clash flavor label other := by
  cases flavor with
  | fetch =>
    rw [names, names, List.disjoint_singleton, List.mem_singleton, Clash, ← Identifier.ofName_eq_iff]
    exact not_congr eq_comm
  | reactQuery =>
    constructor
    · rintro apart (same | crosses | crosses)
      · exact apart (mem_names.mpr (.inr (.inr rfl))) (mem_names.mpr (.inr (.inr same)))
      · obtain ⟨name, own, others⟩ := crosses.shared
        exact apart own others
      · obtain ⟨name, others, own⟩ := crosses.shared
        exact apart own others
    · intro apart name own others
      exact apart (clash_of_shared own others)

/-- The names of operations are distinct exactly if no two operations clash. -/
theorem nodup_names_iff (flavor : Flavor) (labels : List Label) :
    (labels.flatMap (·.names flavor)).Nodup ↔
      labels.Pairwise fun first later => ¬Clash flavor first later := by
  rw [List.nodup_flatMap, and_iff_right fun label _ => label.nodup_names flavor]
  constructor
  · exact List.Pairwise.imp fun apart => (disjoint_names_iff flavor).mp apart
  · exact List.Pairwise.imp fun apart => (disjoint_names_iff flavor).mpr apart

example : Clash .reactQuery ⟨.get, "GetPet"⟩ ⟨.post, "GetPetKey"⟩ ∧
    ¬Clash .fetch ⟨.get, "GetPet"⟩ ⟨.post, "GetPetKey"⟩ := by
  decide +kernel

end Label
end TypedClient
