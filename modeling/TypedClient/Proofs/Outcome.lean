import TypedClient.Event

/-! Runs that succeed, taken apart at their binds. -/
namespace TypedClient

variable {ε α β γ : Type}

theorem bind_ok {x : Except ε α} {f : α → Except ε β} {result : β} (made : x.bind f = .ok result) :
    ∃ value, x = .ok value ∧ f value = .ok result := by
  cases x with
  | error cause => cases made
  | ok value => exact ⟨value, rfl, made⟩

@[simp] theorem map_ok (f : α → β) (value : α) : (Except.ok value : Except ε α).map f = .ok (f value) :=
  rfl

theorem exists_ok {x : Except ε α} (success : x.isOk = true) : ∃ value, x = .ok value := by
  cases x with
  | error cause => cases success
  | ok value => exact ⟨value, rfl⟩

theorem ok_of_toOption {x : Except ε α} {value : α} (given : x.toOption = some value) :
    x = .ok value := by
  cases x with
  | error cause => cases given
  | ok held => exact congrArg Except.ok (Option.some.inj given)

theorem ok_of_mapError {δ : Type} {f : ε → δ} {x : Except ε α} {value : α}
    (given : x.mapError f = .ok value) : x = .ok value := by
  cases x with
  | error cause => cases given
  | ok held => exact congrArg Except.ok (Except.ok.inj given)

/-- Outcomes that a function takes to one outcome fail alike or succeed together. -/
theorem outcomes_of_map_eq {f : α → β} {x y : Except ε α} (equal : x.map f = y.map f) :
    (∃ cause, x = .error cause ∧ y = .error cause) ∨
      ∃ value value', x = .ok value ∧ y = .ok value' ∧ f value = f value' := by
  match x, y with
  | .error cause, .error cause' => exact .inl ⟨cause, rfl, (congrArg _ (Except.error.inj equal)).symm⟩
  | .ok value, .ok value' => exact .inr ⟨value, value', rfl, rfl, Except.ok.inj equal⟩
  | .error cause, .ok value' => cases equal
  | .ok value, .error cause' => cases equal

namespace Traced

theorem bind_ok {x : Traced ε α} {f : α → Traced ε β} {result : β}
    (made : (x >>= f).outcome = .ok result) :
    ∃ value, x.outcome = .ok value ∧ (f value).outcome = .ok result := by
  rw [outcome_bind] at made
  exact TypedClient.bind_ok made

theorem pure_ok {value result : α} (made : (pure value : Traced ε α).outcome = .ok result) :
    result = value :=
  (Except.ok.inj made).symm

def Succeeds (x : Traced ε α) : Prop :=
  ∃ value, x.outcome = .ok value

theorem Succeeds.pure (value : α) : Succeeds (Pure.pure value : Traced ε α) :=
  ⟨value, rfl⟩

theorem Succeeds.bind {x : Traced ε α} {f : α → Traced ε β} (first : x.Succeeds)
    (next : ∀ value, (f value).Succeeds) : (x >>= f).Succeeds := by
  obtain ⟨value, made⟩ := first
  obtain ⟨result, later⟩ := next value
  exact ⟨result, by rw [outcome_bind, made]; exact later⟩

/-- Every result of the one run is a result of the other. -/
def CoveredBy (x y : Traced ε α) : Prop :=
  ∀ value, x.outcome = .ok value → y.outcome = .ok value

theorem CoveredBy.refl (x : Traced ε α) : x.CoveredBy x := fun _ made => made

theorem CoveredBy.bind {x y : Traced ε α} {f g : α → Traced ε β} (first : x.CoveredBy y)
    (next : ∀ value, (f value).CoveredBy (g value)) : (x >>= f).CoveredBy (y >>= g) := by
  intro result made
  obtain ⟨value, read, made⟩ := bind_ok made
  rw [outcome_bind, first value read]
  exact next value result made

theorem bind_eq (x : Traced ε α) (f : α → Traced ε β) :
    x >>= f =
      match x.outcome with
      | .error cause => ⟨x.events, .error cause⟩
      | .ok value => ⟨x.events ++ (f value).events, (f value).outcome⟩ :=
  rfl

theorem bind_assoc (x : Traced ε α) (f : α → Traced ε β) (g : β → Traced ε γ) :
    x >>= f >>= g = x >>= fun value => f value >>= g := by
  obtain ⟨events, outcome⟩ := x
  cases outcome with
  | error cause => rfl
  | ok value =>
    simp only [bind_eq]
    cases (f value).outcome with
    | error cause => rfl
    | ok next => simp only [List.append_assoc]

theorem map_eq (f : α → β) (x : Traced ε α) : f <$> x = ⟨x.events, x.outcome.map f⟩ := by
  obtain ⟨events, outcome⟩ := x
  cases outcome with
  | error cause => rfl
  | ok value =>
    change (⟨events ++ [], .ok (f value)⟩ : Traced ε β) = _
    rw [List.append_nil]
    rfl

@[simp] theorem outcome_map (f : α → β) (x : Traced ε α) : (f <$> x).outcome = x.outcome.map f := by
  rw [map_eq]

theorem id_map (x : Traced ε α) : id <$> x = x := by
  obtain ⟨events, outcome⟩ := x
  rw [map_eq]
  cases outcome <;> rfl

instance : LawfulMonad (Traced ε) :=
  LawfulMonad.mk' (Traced ε) id_map (fun _ _ => rfl) bind_assoc

theorem ofExcept_map (f : α → β) (outcome : Except ε α) :
    ofExcept (f <$> outcome) = f <$> ofExcept outcome := by
  rw [map_eq]
  rfl

end Traced
end TypedClient
