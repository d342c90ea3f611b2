import Mathlib.Data.List.Forall2

/-! Lists whose elements are related one by one. -/
namespace TypedClient.InStep
open List

variable {α β γ : Type} {R : α → β → Prop} {as : List α} {bs : List β}

theorem right_of_left (related : Forall₂ R as bs) {a : α} (member : a ∈ as) : ∃ b ∈ bs, R a b := by
  induction related with
  | nil => cases member
  | cons head _ ih =>
    rcases mem_cons.mp member with rfl | later
    · exact ⟨_, mem_cons_self, head⟩
    · obtain ⟨b, present, holds⟩ := ih later
      exact ⟨b, mem_cons_of_mem _ present, holds⟩

theorem left_of_right (related : Forall₂ R as bs) {b : β} (member : b ∈ bs) : ∃ a ∈ as, R a b :=
  right_of_left related.flip member

/-- The relation turned round, where it may be turned round for the elements of the first list. -/
theorem flip_of {S : β → α → Prop} (related : Forall₂ R as bs)
    (turn : ∀ a ∈ as, ∀ b, R a b → S b a) : Forall₂ S bs as := by
  induction related with
  | nil => exact .nil
  | cons head _ ih =>
    exact .cons (turn _ mem_cons_self _ head)
      (ih fun a member => turn a (mem_cons_of_mem _ member))

theorem map_eq (related : Forall₂ R as bs) {f : α → γ} {g : β → γ}
    (equal : ∀ a b, R a b → f a = g b) : as.map f = bs.map g := by
  induction related with
  | nil => rfl
  | cons head _ ih => rw [map_cons, map_cons, equal _ _ head, ih]

/-- What corresponds for related elements holds of all elements of the one list or of the other. -/
theorem forall_iff (related : Forall₂ R as bs) {P : α → Prop} {Q : β → Prop}
    (same : ∀ a b, R a b → (P a ↔ Q b)) : (∀ a ∈ as, P a) ↔ ∀ b ∈ bs, Q b := by
  induction related with
  | nil => simp
  | cons head _ ih => rw [forall_mem_cons, forall_mem_cons, same _ _ head, ih]

theorem of_map_eq {f : α → γ} {g : β → γ} (equal : as.map f = bs.map g) :
    Forall₂ (fun a b => f a = g b) as bs := by
  rw [← forall₂_eq_eq_eq, forall₂_map_left_iff, forall₂_map_right_iff] at equal
  exact equal

theorem iff_map_eq {f : α → γ} {g : β → γ} (each : ∀ a ∈ as, ∀ b, R a b ↔ f a = g b) :
    Forall₂ R as bs ↔ as.map f = bs.map g := by
  induction as generalizing bs with
  | nil => cases bs <;> simp
  | cons a as ih =>
    rw [forall_mem_cons] at each
    cases bs with
    | nil => simp
    | cons b bs => simp [each.1 b, ih each.2]

theorem split {front back : List α} (related : Forall₂ R (front ++ back) bs) :
    ∃ front' back', bs = front' ++ back' ∧ Forall₂ R front front' ∧ Forall₂ R back back' := by
  induction front generalizing bs with
  | nil => exact ⟨[], bs, rfl, .nil, related⟩
  | cons a front ih =>
    cases related with
    | cons head rest =>
      obtain ⟨front', back', rfl, first, second⟩ := ih rest
      exact ⟨_ :: front', back', rfl, .cons head first, second⟩

theorem trans {R : α → α → Prop} (step : ∀ a b c, R a b → R b c → R a c) {as bs cs : List α}
    (first : Forall₂ R as bs) (second : Forall₂ R bs cs) : Forall₂ R as cs := by
  induction first generalizing cs with
  | nil => exact second
  | cons head _ ih =>
    cases second with
    | cons head' rest' => exact .cons (step _ _ _ head head') (ih rest')

end TypedClient.InStep
