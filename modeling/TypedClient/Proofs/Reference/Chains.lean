import TypedClient.Proofs.Document.Entries
import TypedClient.Proofs.Outcome
import TypedClient.Reference

/-!
Chains of references within one section of the components. `follow` succeeds exactly on the chains that
end in a value before the steps run out.
-/
namespace TypedClient

/-! ### Targets -/

theorem isPrefixOf?_append (front rest : List Char) : front.isPrefixOf? (front ++ rest) = some rest := by
  induction front with
  | nil => cases rest <;> rfl
  | cons c front ih => simp [List.isPrefixOf?, ih]

/-- Of two lists where neither begins with the other, no list begins with both. -/
theorem isPrefixOf?_append_none {front other : List Char} (apart : front.isPrefixOf other = false)
    (apart' : other.isPrefixOf front = false) (rest : List Char) :
    front.isPrefixOf? (other ++ rest) = none := by
  induction front generalizing other with
  | nil => simp at apart
  | cons c front ih =>
    cases other with
    | nil => simp at apart'
    | cons d other =>
      by_cases same : c = d
      · subst same
        have step : (c :: front).isPrefixOf? (c :: (other ++ rest)) = front.isPrefixOf? (other ++ rest) := by
          simp [List.isPrefixOf?]
        rw [List.cons_append, step]
        exact ih (by simpa using apart) (by simpa using apart')
      · simp [List.isPrefixOf?, same]

theorem Root.key?_stem (root : Root) (key : String) : root.key? (root.stem ++ key) = some key := by
  simp [Root.key?, String.toList_append, isPrefixOf?_append]

theorem Root.key?_other {root other : Root} (different : other ≠ root) (key : String) :
    other.key? (root.stem ++ key) = none := by
  rw [Root.key?, String.toList_append, isPrefixOf?_append_none]
  · rfl
  · cases root <;> cases other <;> first | exact (different rfl).elim | decide
  · cases root <;> cases other <;> first | exact (different rfl).elim | decide

theorem Target.parse_stem (root : Root) {key : String} (present : key.isEmpty = false)
    (plain : key.toList.contains '/' = false) :
    Target.parse (root.stem ++ key) = .ok ⟨root, key⟩ := by
  have found : (Root.all.findSome? fun other =>
      (other.key? (root.stem ++ key)).map (Target.mk other)) = some ⟨root, key⟩ := by
    cases root <;> simp [Root.all, Root.key?_stem, Root.key?_other]
  simp only [Target.parse, found, present, plain, Bool.or_self, Bool.false_eq_true, if_false]

/-! ### Chains -/

section Chains

variable {α : Type} {root : Root} {table : List (String × Referable α)}

/-- The references from an item on, one after another, lead to the last item over these keys. -/
inductive Leads (root : Root) (table : List (String × Referable α)) :
    List String → Referable α → Referable α → Prop where
  | here (item : Referable α) : Leads root table [] item item
  | step {path key : String} {keys : List String} {next last : Referable α}
      (parsed : Target.parse path = .ok ⟨root, key⟩) (held : Entries.get? key table = some next)
      (later : Leads root table keys next last) : Leads root table (key :: keys) (.reference path) last

theorem follow_reference {path key : String} {next : Referable α}
    (parsed : Target.parse path = .ok ⟨root, key⟩) (held : Entries.get? key table = some next)
    (steps : Nat) :
    follow root table (steps + 1) (.reference path) = follow root table steps next := by
  simp [follow, parsed, held, bind, Except.bind]

theorem follow_ok_iff {steps : Nat} {item : Referable α} {value : α} :
    follow root table steps item = .ok value ↔
      ∃ keys, Leads root table keys item (.inline value) ∧ keys.length < steps := by
  induction steps generalizing item with
  | zero => cases item <;> simp [follow]
  | succ steps ih =>
    constructor
    · intro followed
      match item with
      | .inline held =>
        obtain rfl := Except.ok.inj followed
        exact ⟨[], .here _, Nat.succ_pos steps⟩
      | .reference path =>
        obtain ⟨⟨target, key⟩, parsed, followed⟩ := bind_ok followed
        split at followed
        · rename_i same
          obtain rfl : target = root := same
          split at followed
          · rename_i next held
            obtain ⟨keys, leads, within⟩ := ih.mp followed
            exact ⟨key :: keys, .step parsed held leads, Nat.succ_lt_succ within⟩
          · cases followed
        · cases followed
    · rintro ⟨keys, leads, within⟩
      cases leads with
      | here => rfl
      | step parsed held later =>
        rw [follow_reference parsed held]
        exact ih.mpr ⟨_, later, Nat.lt_of_succ_lt_succ within⟩

theorem Leads.origin {keys : List String} {item last : Referable α}
    (leads : Leads root table keys item last) : last = item ∨ ∃ key, (key, last) ∈ table := by
  induction leads with
  | here => exact .inl rfl
  | step parsed held _ ih =>
    rcases ih with rfl | listed
    · exact .inr ⟨_, Entries.mem_of_get? held⟩
    · exact .inr listed

/-- A value found by following references was given, or it stands in the section. -/
theorem follow_origin {steps : Nat} {item : Referable α} {value : α}
    (found : follow root table steps item = .ok value) :
    item = .inline value ∨ ∃ key, (key, .inline value) ∈ table := by
  obtain ⟨keys, leads, -⟩ := follow_ok_iff.mp found
  exact leads.origin.imp_left Eq.symm

/-- Some reference of the chain points into another section. -/
def Strays (root : Root) (table : List (String × Referable α)) (item : Referable α) : Prop :=
  ∃ keys path target, Leads root table keys item (.reference path) ∧
    Target.parse path = .ok target ∧ target.root ≠ root

/-- The chain has this many references, or more. -/
def Lasts (root : Root) (table : List (String × Referable α)) (steps : Nat) (item : Referable α) :
    Prop :=
  ∃ keys last, Leads root table keys item last ∧ keys.length = steps

/-- A reference that is well formed, and finds its target if that is in the same section. -/
def Linked (root : Root) (table : List (String × Referable α)) (item : Referable α) : Prop :=
  ∀ path, item = .reference path → ∃ target, Target.parse path = .ok target ∧
    (target.root = root → Entries.has target.key table = true)

section Inline

variable {value : α} {item : Referable α} {keys : List String}

theorem Leads.of_inline (leads : Leads root table keys (.inline value) item) :
    keys = [] ∧ item = .inline value := by
  cases leads
  exact ⟨rfl, rfl⟩

theorem not_strays_inline : ¬Strays root table (.inline value) := by
  rintro ⟨keys, path, target, leads, -⟩
  cases leads.of_inline.2

theorem not_lasts_inline {steps : Nat} : ¬Lasts root table (steps + 1) (.inline value) := by
  rintro ⟨keys, last, leads, long⟩
  rw [leads.of_inline.1] at long
  cases long

end Inline

section Step

variable {path key : String} {next : Referable α} (parsed : Target.parse path = .ok ⟨root, key⟩)
  (held : Entries.get? key table = some next)
include parsed held

theorem leads_reference_iff {keys : List String} {last : Referable α} :
    Leads root table keys (.reference path) last ↔
      keys = [] ∧ last = .reference path ∨
        ∃ later, keys = key :: later ∧ Leads root table later next last := by
  constructor
  · intro leads
    cases leads with
    | here => exact .inl ⟨rfl, rfl⟩
    | step parsed' held' later =>
      obtain ⟨-, rfl⟩ := Target.mk.inj (Except.ok.inj (parsed.symm.trans parsed'))
      obtain rfl := Option.some.inj (held.symm.trans held')
      exact .inr ⟨_, rfl, later⟩
  · rintro (⟨rfl, rfl⟩ | ⟨later, rfl, leads⟩)
    · exact .here _
    · exact .step parsed held leads

theorem strays_reference_iff : Strays root table (.reference path) ↔ Strays root table next := by
  unfold Strays
  simp only [leads_reference_iff parsed held]
  constructor
  · rintro ⟨keys, path', target, ⟨-, same⟩ | ⟨later, -, leads⟩, parsed', other⟩
    · obtain rfl := Referable.reference.inj same
      obtain rfl := Except.ok.inj (parsed.symm.trans parsed')
      exact (other rfl).elim
    · exact ⟨later, path', target, leads, parsed', other⟩
  · rintro ⟨keys, path', target, leads, parsed', other⟩
    exact ⟨key :: keys, path', target, .inr ⟨keys, rfl, leads⟩, parsed', other⟩

theorem lasts_reference_iff {steps : Nat} :
    Lasts root table (steps + 1) (.reference path) ↔ Lasts root table steps next := by
  unfold Lasts
  simp only [leads_reference_iff parsed held]
  constructor
  · rintro ⟨keys, last, ⟨rfl, -⟩ | ⟨later, rfl, leads⟩, long⟩
    · cases long
    · exact ⟨later, last, leads, Nat.succ.inj long⟩
  · rintro ⟨keys, last, leads, rfl⟩
    exact ⟨key :: keys, last, .inr ⟨keys, rfl, leads⟩, rfl⟩

end Step

/-- In a section where all references are linked, a chain can fail only by leaving the section or by
lasting too long. -/
theorem follow_isOk_iff (linked : ∀ entry ∈ table, Linked root table entry.2) {steps : Nat}
    {item : Referable α} (own : Linked root table item) :
    (follow root table steps item).isOk = true ↔
      ¬Strays root table item ∧ ¬Lasts root table steps item := by
  induction steps generalizing item with
  | zero =>
    have lasts : Lasts root table 0 item := ⟨[], item, .here item, rfl⟩
    cases item <;> simp [follow, Except.isOk, Except.toBool, lasts]
  | succ steps ih =>
    match item with
    | .inline value =>
      simp [follow, Except.isOk, Except.toBool, not_strays_inline, not_lasts_inline]
    | .reference path =>
      obtain ⟨⟨target, key⟩, parsed, inside⟩ := own path rfl
      by_cases same : target = root
      · subst same
        -- A step inside the section leaves both ways of failing to the rest of the chain.
        obtain ⟨next, held⟩ := Entries.get?_of_has (inside rfl)
        rw [follow_reference parsed held, strays_reference_iff parsed held,
          lasts_reference_iff parsed held]
        exact ih (linked _ (Entries.mem_of_get? held))
      · have strays : Strays root table (.reference path) :=
          ⟨[], path, _, .here _, parsed, same⟩
        simp [follow, parsed, same, strays, bind, Except.bind, Except.isOk, Except.toBool]

end Chains
end TypedClient
