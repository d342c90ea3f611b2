import TypedClient.Proofs.Reference.Sections

/-!
The limit on chains of references. A lookup gives the value at the end of a chain that is shorter than
the limit. Where a chain breaks off or goes on, the error names the reference at which the lookup stands.
A chain that ends just at the limit is lost, and the error names nothing.
-/
namespace TypedClient

/-- The reference that the error names. -/
def ReferenceError.reference : ReferenceError → String
  | .unsupported reference => reference
  | .dangling reference => reference

theorem Target.parse_error {path : String} {cause : ReferenceError}
    (failed : Target.parse path = .error cause) : cause = .unsupported path := by
  unfold Target.parse at failed
  split at failed
  · split at failed
    · exact (Except.error.inj failed).symm
    · cases failed
  · exact (Except.error.inj failed).symm

section Limit

variable {α : Type} {root : Root} {table : List (String × Referable α)}

/-- Why a reference does not lead on in its section. -/
inductive Rejected (root : Root) (table : List (String × Referable α)) (path : String) :
    ReferenceError → Prop where
  | malformed {cause : ReferenceError} (parsed : Target.parse path = .error cause) :
      Rejected root table path cause
  | astray {target : Target} (parsed : Target.parse path = .ok target) (other : target.root ≠ root) :
      Rejected root table path (.unsupported path)
  | missing {key : String} (parsed : Target.parse path = .ok ⟨root, key⟩)
      (absent : Entries.get? key table = none) : Rejected root table path (.dangling path)

theorem Rejected.reference {path : String} {cause : ReferenceError}
    (rejected : Rejected root table path cause) : cause.reference = path := by
  cases rejected with
  | malformed parsed =>
    rw [Target.parse_error parsed]
    rfl
  | astray | missing => rfl

/-- A reference leads one step on, or every lookup stops there. -/
theorem leads_or_rejected (root : Root) (table : List (String × Referable α)) (path : String) :
    (∃ key next, Target.parse path = .ok ⟨root, key⟩ ∧ Entries.get? key table = some next) ∨
      ∃ cause, Rejected root table path cause ∧
        ∀ steps, follow root table (steps + 1) (.reference path) = .error cause := by
  cases parsed : Target.parse path with
  | error cause =>
    exact .inr ⟨cause, .malformed parsed, fun steps => by simp [follow, parsed, bind, Except.bind]⟩
  | ok target =>
    obtain ⟨held, key⟩ := target
    by_cases same : held = root
    · subst same
      cases found : Entries.get? key table with
      | none =>
        refine .inr ⟨_, .missing parsed found, fun steps => ?_⟩
        simp [follow, parsed, found, bind, Except.bind]
      | some next => exact .inl ⟨key, next, rfl, found⟩
    · refine .inr ⟨_, .astray parsed same, fun steps => ?_⟩
      simp [follow, parsed, same, bind, Except.bind]

/-- What ends a lookup of so many steps without a value. -/
inductive Fails (root : Root) (table : List (String × Referable α)) (steps : Nat) (item : Referable α) :
    ReferenceError → Prop where
  | broken {keys : List String} {path : String} {cause : ReferenceError}
      (leads : Leads root table keys item (.reference path)) (within : keys.length < steps)
      (rejected : Rejected root table path cause) : Fails root table steps item cause
  | lasting {keys : List String} {path : String} (leads : Leads root table keys item (.reference path))
      (long : keys.length = steps) : Fails root table steps item (.dangling path)
  | cut {keys : List String} {value : α} (leads : Leads root table keys item (.inline value))
      (long : keys.length = steps) : Fails root table steps item (.dangling "")

theorem Fails.step {steps : Nat} {path key : String} {next : Referable α} {cause : ReferenceError}
    (parsed : Target.parse path = .ok ⟨root, key⟩) (held : Entries.get? key table = some next)
    (fails : Fails root table steps next cause) :
    Fails root table (steps + 1) (.reference path) cause := by
  cases fails with
  | broken leads within rejected =>
    exact .broken (.step parsed held leads) (Nat.succ_lt_succ within) rejected
  | lasting leads long => exact .lasting (.step parsed held leads) (congrArg Nat.succ long)
  | cut leads long => exact .cut (.step parsed held leads) (congrArg Nat.succ long)

theorem follow_error {steps : Nat} {item : Referable α} {cause : ReferenceError}
    (failed : follow root table steps item = .error cause) : Fails root table steps item cause := by
  induction steps generalizing item with
  | zero =>
    cases item with
    | reference path =>
      obtain rfl := Except.error.inj failed
      exact .lasting (.here _) rfl
    | inline value =>
      obtain rfl := Except.error.inj failed
      exact .cut (.here _) rfl
  | succ steps ih =>
    cases item with
    | inline value => cases failed
    | reference path =>
      rcases leads_or_rejected root table path with ⟨key, next, parsed, held⟩ | ⟨why, rejected, stops⟩
      · rw [follow_reference parsed held] at failed
        exact (ih failed).step parsed held
      · obtain rfl := Except.error.inj ((stops steps).symm.trans failed)
        exact .broken (.here _) (Nat.succ_pos steps) rejected

/-- The value at the end of as many references as there are steps is not looked at any more. -/
theorem follow_cut {keys : List String} {item : Referable α} {value : α}
    (leads : Leads root table keys item (.inline value)) :
    follow root table keys.length item = .error (.dangling "") := by
  generalize ended : Referable.inline value = last at leads
  induction leads with
  | here item =>
    subst ended
    rfl
  | step parsed held _ ih =>
    rw [List.length_cons, follow_reference parsed held]
    exact ih ended

/-- Lookups that give the values at the end of chains with fewer references than the limit. -/
structure Bounded (root : Root) (table : List (String × Referable α))
    (find : Referable α → Except ReferenceError α) : Prop where
  found : ∀ item value, find item = .ok value ↔
    ∃ keys, Leads root table keys item (.inline value) ∧ keys.length < maxReferenceSteps
  cut : ∀ item value keys, Leads root table keys item (.inline value) →
    keys.length = maxReferenceSteps → find item = .error (.dangling "")
  missed : ∀ item,
    (¬∃ keys value, Leads root table keys item (.inline value) ∧ keys.length ≤ maxReferenceSteps) →
      ∃ cause keys, find item = .error cause ∧
        Leads root table keys item (.reference cause.reference) ∧ keys.length ≤ maxReferenceSteps

theorem follow_bounded (root : Root) (table : List (String × Referable α)) :
    Bounded root table (follow root table maxReferenceSteps) where
  found _ _ := follow_ok_iff
  cut item value keys leads long := by
    rw [← long]
    exact follow_cut leads
  missed item unreached := by
    cases followed : follow root table maxReferenceSteps item with
    | ok value =>
      obtain ⟨keys, leads, within⟩ := follow_ok_iff.mp followed
      exact (unreached ⟨keys, value, leads, Nat.le_of_lt within⟩).elim
    | error cause =>
      cases follow_error followed with
      | broken leads within rejected =>
        exact ⟨cause, _, rfl, rejected.reference ▸ leads, Nat.le_of_lt within⟩
      | lasting leads long => exact ⟨_, _, rfl, leads, Nat.le_of_eq long⟩
      | cut leads long => exact (unreached ⟨_, _, leads, Nat.le_of_eq long⟩).elim

end Limit

namespace Resolver

/-- The limit is the same for parameters, request bodies and responses: a value behind fewer references is
found, a value behind just so many is lost, and every other failure names a reference of the chain. -/
theorem lookups_bounded (resolver : Resolver) :
    Bounded .parameter resolver.components.parameters resolver.parameter ∧
      Bounded .requestBody resolver.components.requestBodies resolver.requestBody ∧
      Bounded .response resolver.components.responses resolver.response :=
  ⟨follow_bounded _ _, follow_bounded _ _, follow_bounded _ _⟩

theorem responseRow.leads {length steps index : Nat} (last : index + steps + 1 = length) :
    ∃ keys, Leads .response (responseRow length).components.responses keys (item length index)
      (.inline {}) ∧ keys.length = steps := by
  induction steps generalizing index with
  | zero =>
    have ended : item length index = .inline {} := if_neg (by omega)
    exact ⟨[], ended ▸ .here _, rfl⟩
  | succ steps ih =>
    have more : index + 1 < length := by omega
    obtain ⟨keys, later, long⟩ := ih (show index + 1 + steps + 1 = length by omega)
    rw [item_of_more more]
    exact ⟨_ :: keys, .step (parse_key _) (get?_key more) later, congrArg Nat.succ long⟩

/-- As many references as the limit allows lead to a response, and the lookup fails without naming one
of them. -/
theorem responseRow_cut : ∃ keys value,
    Leads .response (responseRow 33).components.responses keys (responseRow.item 33 0) (.inline value) ∧
      keys.length ≤ maxReferenceSteps ∧
      (responseRow 33).response (responseRow.item 33 0) = .error (.dangling "") := by
  obtain ⟨keys, leads, long⟩ := responseRow.leads (show 0 + 32 + 1 = 33 from rfl)
  refine ⟨keys, {}, leads, Nat.le_of_eq long, ?_⟩
  have cut := follow_cut leads
  rw [long] at cut
  exact cut

end Resolver
end TypedClient
