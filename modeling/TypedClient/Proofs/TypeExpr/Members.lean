import Mathlib.Data.List.Induction
import Mathlib.Data.List.Nodup
import TypedClient.Proofs.TypeExpr.Canonical
import TypedClient.Proofs.TypeExpr.Plain

/-!
The members of unions and intersections: of all inputs, flattened for a union, the first occurrences up
to descriptions. A union that is built in steps is the union that is built at once.
-/
namespace TypedClient

section FirstOccurrences

variable {α : Type} {same : α → α → Bool}

/-- What is kept of all elements if of those that are the same the first stays, in the old order. -/
structure FirstOccurrences (same : α → α → Bool) (all kept : List α) : Prop where
  order : kept.Sublist all
  apart : Unrepeated same kept
  covers : ∀ x ∈ all, ∃ y ∈ kept, same y x = true
  first : ∀ y ∈ kept, ∃ before after, all = before ++ y :: after ∧ ∀ x ∈ before, same x y = false

theorem distinct_append_singleton (xs : List α) (x : α) :
    distinct same (xs ++ [x]) = addNew same (distinct same xs) x := by
  unfold distinct
  rw [List.foldl_append]
  rfl

section Equivalence

variable (equivalence : Equivalence fun x y => same x y = true)
include equivalence

theorem comm_of_equivalence (x y : α) : same x y = same y x :=
  Bool.eq_iff_iff.mpr ⟨equivalence.symm, equivalence.symm⟩

/-- An element that is added as a new one is the first of its kind. -/
theorem firstOccurrences_addNew {all kept : List α} (firsts : FirstOccurrences same all kept) (x : α) :
    FirstOccurrences same (all ++ [x]) (addNew same kept x) where
  order := (addNew_sublist kept x).trans (firsts.order.append_right [x])
  apart := addNew_unrepeated (comm_of_equivalence equivalence) x firsts.apart
  covers := by
    intro held member
    rcases List.mem_append.mp member with earlier | last
    · obtain ⟨y, present, equal⟩ := firsts.covers held earlier
      exact ⟨y, subset_addNew kept x present, equal⟩
    · obtain rfl := List.mem_singleton.mp last
      exact addNew_covers equivalence.refl kept held
  first := by
    intro y present
    have old (member : y ∈ kept) : ∃ before after, all ++ [x] = before ++ y :: after ∧
        ∀ held ∈ before, same held y = false := by
      obtain ⟨before, after, rfl, different⟩ := firsts.first y member
      exact ⟨before, after ++ [x], by simp, different⟩
    unfold addNew at present
    split at present
    · exact old present
    · rename_i fresh
      rcases List.mem_append.mp present with member | last
      · exact old member
      · obtain rfl := List.mem_singleton.mp last
        refine ⟨all, [], rfl, fun held earlier => ?_⟩
        apply Bool.eq_false_iff.mpr
        intro equal
        -- An earlier element that is the same would have been kept, or one that is the same as it.
        obtain ⟨first, stays, covers⟩ := firsts.covers held earlier
        exact fresh (List.any_eq_true.mpr ⟨first, stays, equivalence.trans covers equal⟩)

theorem firstOccurrences_distinct (xs : List α) : FirstOccurrences same xs (distinct same xs) := by
  induction xs using List.reverseRecOn with
  | nil => exact ⟨List.Sublist.refl [], .nil, fun _ none => (nomatch none), fun _ none => nomatch none⟩
  | append_singleton xs x ih =>
    rw [distinct_append_singleton]
    exact firstOccurrences_addNew equivalence ih x

end Equivalence

/-! ### Removing repetitions twice -/

theorem distinct_of_unrepeated {xs : List α} (unrepeated : Unrepeated same xs) :
    distinct same xs = xs := by
  induction xs using List.reverseRecOn with
  | nil => rfl
  | append_singleton xs x ih =>
    obtain ⟨earlier, -, different⟩ := List.pairwise_append.mp unrepeated
    have fresh : xs.any (same · x) = false := by
      apply List.any_eq_false.mpr
      intro y present equal
      rw [(different y present x (List.mem_singleton_self x)).1] at equal
      cases equal
    rw [distinct_append_singleton, ih earlier, addNew, fresh, if_neg Bool.false_ne_true]

/-- What stands in front may have lost its repetitions before. -/
theorem distinct_distinct_append (comm : ∀ x y, same x y = same y x) (xs ys : List α) :
    distinct same (distinct same xs ++ ys) = distinct same (xs ++ ys) := by
  have settled : distinct same (distinct same xs) = distinct same xs :=
    distinct_of_unrepeated (distinct_unrepeated comm xs)
  unfold distinct at settled ⊢
  rw [List.foldl_append, List.foldl_append, settled]

end FirstOccurrences

namespace TypeExpr

theorem same_equivalence : Equivalence fun type other : TypeExpr => same type other = true where
  refl := same_refl
  symm := same_of_same
  trans first second := same_iff_plain.mpr ((same_iff_plain.mp first).trans (same_iff_plain.mp second))

/-- The type made of members: a single one as it is, several wrapped. -/
inductive MadeOf (wrap : List TypeExpr → TypeExpr) : List TypeExpr → TypeExpr → Prop where
  | single (member : TypeExpr) : MadeOf wrap [member] member
  | several {members : List TypeExpr} (several : 2 ≤ members.length) :
      MadeOf wrap members (wrap members)

/-- The members are the first occurrences among the inputs. -/
def JoinsFirsts (wrap : List TypeExpr → TypeExpr) (inputs : List TypeExpr) (type : TypeExpr) : Prop :=
  ∃ members, FirstOccurrences same inputs members ∧ MadeOf wrap members type

theorem madeOf_collapse {wrap : List TypeExpr → TypeExpr} {members : List TypeExpr}
    (filled : members ≠ []) : MadeOf wrap members (collapse wrap members) := by
  match members with
  | [] => exact absurd rfl filled
  | [member] => exact .single member
  | _ :: _ :: rest => exact .several (Nat.le_add_left 2 rest.length)

theorem distinct_ne_nil {types : List TypeExpr} (filled : types ≠ []) : distinct same types ≠ [] := by
  obtain ⟨type, present⟩ := List.exists_mem_of_ne_nil types filled
  obtain ⟨kept, stays, -⟩ := mem_distinct_of_mem present
  exact List.ne_nil_of_mem stays

theorem joinsFirsts_collapse (wrap : List TypeExpr → TypeExpr) {inputs : List TypeExpr}
    (filled : inputs ≠ []) : JoinsFirsts wrap inputs (collapse wrap (distinct same inputs)) :=
  ⟨distinct same inputs, firstOccurrences_distinct same_equivalence inputs,
    madeOf_collapse (distinct_ne_nil filled)⟩

/-! ### Flattened inputs -/

theorem Canonical.unionMembers_ne_nil {type : TypeExpr} (canonical : type.Canonical) :
    type.unionMembers ≠ [] := by
  cases type with
  | union members =>
    have several : 2 ≤ members.length := (canonical_iff.mp canonical).1.1
    intro (empty : members = [])
    simp [empty] at several
  | _ => exact List.cons_ne_nil _ _

theorem flatMap_unionMembers_ne_nil {types : List TypeExpr} (filled : types ≠ [])
    (canonical : ∀ type ∈ types, type.Canonical) : types.flatMap unionMembers ≠ [] := by
  obtain ⟨type, present⟩ := List.exists_mem_of_ne_nil types filled
  obtain ⟨member, inside⟩ := List.exists_mem_of_ne_nil _ (canonical type present).unionMembers_ne_nil
  exact List.ne_nil_of_mem (List.mem_flatMap.mpr ⟨type, present, inside⟩)

/-- A union of canonical types is taken apart into what it was made of, also if that is one type. -/
theorem unionMembers_unionOf {types : List TypeExpr} (filled : types ≠ [])
    (canonical : ∀ type ∈ types, type.Canonical) :
    (unionOf types).unionMembers = distinct same (types.flatMap unionMembers) := by
  have nonempty := distinct_ne_nil (flatMap_unionMembers_ne_nil filled canonical)
  have flat : ∀ member ∈ distinct same (types.flatMap unionMembers), ∀ inner, member ≠ .union inner := by
    intro member kept
    obtain ⟨type, present, inside⟩ := List.mem_flatMap.mp (mem_of_mem_distinct kept)
    exact ((canonical type present).unionMembers inside).2
  unfold unionOf
  generalize distinct same (types.flatMap unionMembers) = members at nonempty flat ⊢
  match members with
  | [] => exact absurd rfl nonempty
  | [member] =>
    have single := flat member (List.mem_singleton_self member)
    cases member with
    | union inner => exact absurd rfl (single inner)
    | _ => rfl
  | _ :: _ :: _ => rfl

theorem unionOf_cons_unionOf {types : List TypeExpr} (filled : types ≠ [])
    (canonical : ∀ type ∈ types, type.Canonical) (later : List TypeExpr) :
    unionOf (unionOf types :: later) = unionOf (types ++ later) := by
  have members : distinct same ((unionOf types :: later).flatMap unionMembers) =
      distinct same ((types ++ later).flatMap unionMembers) := by
    rw [List.flatMap_cons, unionMembers_unionOf filled canonical, distinct_distinct_append same_comm,
      List.flatMap_append]
  exact congrArg (collapse .union) members

/-- Canonical types are joined in steps or at once to one union, descriptions included. The members of a
union are the first occurrences among the flattened inputs, those of an intersection among the inputs as
they are. -/
theorem unionOf_in_steps {types later : List TypeExpr} (filled : types ≠ [])
    (canonical : ∀ type ∈ types ++ later, type.Canonical) :
    unionOf (types ++ later) = unionOf (unionOf types :: later) ∧
      JoinsFirsts .union ((types ++ later).flatMap unionMembers) (unionOf (types ++ later)) ∧
      JoinsFirsts .intersection (types ++ later) (intersectionOf (types ++ later)) := by
  have all : types ++ later ≠ [] := List.append_ne_nil_of_left_ne_nil filled later
  have front : ∀ type ∈ types, type.Canonical :=
    fun type present => canonical type (List.mem_append_left later present)
  refine ⟨(unionOf_cons_unionOf filled front later).symm, ?_, ?_⟩
  · exact joinsFirsts_collapse .union (flatMap_unionMembers_ne_nil all canonical)
  · exact joinsFirsts_collapse .intersection all

/-- A record with one field, which may be described. -/
def labelled (doc : Option String) : TypeExpr :=
  .object [{ name := "label", type := .scalar .string, doc }] none

/-- A union with a described record. -/
def taggedTypes : List TypeExpr :=
  [.union [.named "Tag", labelled (some "What is shown.")], .named "Tag"]

/-- The same record without a description. -/
def laterTypes : List TypeExpr :=
  [labelled none, .nullable (.named "Tag")]

theorem taggedTypes_in_steps :
    taggedTypes ≠ [] ∧ (∀ type ∈ taggedTypes ++ laterTypes, type.Canonical) ∧
      unionOf (taggedTypes ++ laterTypes) = unionOf (unionOf taggedTypes :: laterTypes) ∧
      JoinsFirsts .union ((taggedTypes ++ laterTypes).flatMap unionMembers)
        (unionOf (taggedTypes ++ laterTypes)) ∧
      JoinsFirsts .intersection (taggedTypes ++ laterTypes)
        (intersectionOf (taggedTypes ++ laterTypes)) := by
  have filled : taggedTypes ≠ [] := List.cons_ne_nil _ _
  have record (doc : Option String) : (labelled doc).Canonical := by
    refine canonical_object (List.nodup_singleton _) (fun field member => ?_) fun _ none => nomatch none
    obtain rfl := List.mem_singleton.mp member
    exact canonical_scalar .string
  have union : (unionOf [.named "Tag", labelled (some "What is shown.")]).Canonical :=
    canonical_unionOf (by simp [record])
  have optional : (TypeExpr.nullable (.named "Tag")).Canonical := (canonical_named "Tag").orNull
  have canonical : ∀ type ∈ taggedTypes ++ laterTypes, type.Canonical := by
    intro type member
    simp only [taggedTypes, laterTypes, List.cons_append, List.nil_append, List.mem_cons,
      List.not_mem_nil, or_false] at member
    rcases member with rfl | rfl | rfl | rfl
    · exact union
    · exact canonical_named "Tag"
    · exact record none
    · exact optional
  exact ⟨filled, canonical, unionOf_in_steps filled canonical⟩

example : unionOf (taggedTypes ++ laterTypes) =
    .union [.named "Tag", labelled (some "What is shown."), .nullable (.named "Tag")] := by
  rfl

end TypeExpr
end TypedClient
