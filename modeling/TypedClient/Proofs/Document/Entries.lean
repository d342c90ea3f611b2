import Mathlib.Data.List.Nodup
import TypedClient.Document.Entries

/-!
Ordered mappings. Changing the value under a key keeps all other entries, and a mapping that is filled
entry by entry has each key once.
-/
namespace TypedClient.Entries

variable {α : Type}

def Distinct (entries : List (String × α)) : Prop :=
  (entries.map (·.1)).Nodup

theorem Distinct.value_unique {entries : List (String × α)} (distinct : Distinct entries) {key : String}
    {value other : α} (held : (key, value) ∈ entries) (held' : (key, other) ∈ entries) :
    value = other :=
  congrArg Prod.snd (List.inj_on_of_nodup_map distinct held held' rfl)

theorem keys_alter (key : String) (change : Option α → α) (entries : List (String × α)) :
    (alter key change entries).map (·.1) =
      if key ∈ entries.map (·.1) then entries.map (·.1) else entries.map (·.1) ++ [key] := by
  induction entries with
  | nil => rfl
  | cons entry rest ih =>
    obtain ⟨held, value⟩ := entry
    rw [alter]
    by_cases same : held = key
    · simp [same]
    · simp only [beq_iff_eq, same, if_false, List.map_cons, ih, List.mem_cons, Ne.symm same, false_or]
      split <;> simp

theorem Distinct.alter {entries : List (String × α)} (distinct : Distinct entries) (key : String)
    (change : Option α → α) : Distinct (alter key change entries) := by
  unfold Distinct
  rw [keys_alter]
  split
  · exact distinct
  · rename_i fresh
    exact List.nodup_append.mpr ⟨distinct, List.nodup_singleton key, fun held member other last same =>
      fresh (by rw [← List.mem_singleton.mp last, ← same]; exact member)⟩

theorem Distinct.put {entries : List (String × α)} (distinct : Distinct entries) (key : String)
    (value : α) : Distinct (put key value entries) :=
  distinct.alter key fun _ => value

theorem distinct_ofList (pairs : List (String × α)) : Distinct (ofList pairs) :=
  List.foldlRecOn (motive := Distinct) pairs _ List.nodup_nil
    fun _ distinct pair _ => distinct.put pair.1 pair.2

theorem mem_alter {key : String} {change : Option α → α} {entries : List (String × α)}
    {entry : String × α} (member : entry ∈ alter key change entries) :
    entry ∈ entries ∨ ∃ held, entry.2 = change held := by
  induction entries with
  | nil =>
    obtain rfl := List.mem_singleton.mp member
    exact .inr ⟨none, rfl⟩
  | cons first rest ih =>
    obtain ⟨held, value⟩ := first
    rw [alter] at member
    split at member
    · rcases List.mem_cons.mp member with rfl | later
      · exact .inr ⟨some value, rfl⟩
      · exact .inl (List.mem_cons_of_mem _ later)
    · rcases List.mem_cons.mp member with rfl | later
      · exact .inl List.mem_cons_self
      · exact (ih later).imp_left (List.mem_cons_of_mem _)

theorem mem_of_get? {key : String} {value : α} {entries : List (String × α)}
    (found : get? key entries = some value) : (key, value) ∈ entries := by
  obtain ⟨⟨held, _⟩, first, rfl⟩ := Option.map_eq_some_iff.mp found
  have same := List.find?_some first
  obtain rfl : held = key := eq_of_beq same
  exact List.mem_of_find?_eq_some first

theorem has_iff {key : String} {entries : List (String × α)} :
    has key entries = true ↔ key ∈ entries.map (·.1) := by
  simp [has]

theorem has_congr {β : Type} {entries : List (String × α)} {others : List (String × β)}
    (keys : entries.map (·.1) = others.map (·.1)) (key : String) : has key entries = has key others := by
  rw [Bool.eq_iff_iff, has_iff, has_iff, keys]

theorem has_alter (key name : String) (change : Option α → α) (entries : List (String × α)) :
    has name (alter key change entries) = true ↔ name = key ∨ has name entries = true := by
  simp only [has_iff, keys_alter]
  split
  · constructor
    · exact .inr
    · rintro (rfl | held)
      · assumption
      · exact held
  · simp [or_comm]

theorem has_append (key : String) (front back : List (String × α)) :
    has key (front ++ back) = (has key front || has key back) :=
  List.any_append

theorem get?_of_has {key : String} {entries : List (String × α)} (present : has key entries = true) :
    ∃ value, get? key entries = some value := by
  obtain ⟨entry, member, same⟩ := List.any_eq_true.mp present
  have found : (entries.find? (·.1 == key)).isSome := List.find?_isSome.mpr ⟨entry, member, same⟩
  obtain ⟨first, found⟩ := Option.isSome_iff_exists.mp found
  exact ⟨first.2, Option.map_eq_some_iff.mpr ⟨first, found, rfl⟩⟩

theorem has_of_get? {key : String} {value : α} {entries : List (String × α)}
    (found : get? key entries = some value) : has key entries = true :=
  List.any_eq_true.mpr ⟨_, mem_of_get? found, beq_self_eq_true key⟩

theorem Distinct.get?_eq {entries : List (String × α)} (distinct : Distinct entries) {key : String}
    {value : α} (member : (key, value) ∈ entries) : get? key entries = some value := by
  have present : has key entries = true := List.any_eq_true.mpr ⟨_, member, beq_self_eq_true key⟩
  obtain ⟨held, found⟩ := get?_of_has present
  rw [found, distinct.value_unique (mem_of_get? found) member]

theorem get?_cons (key held : String) (value : α) (rest : List (String × α)) :
    get? key ((held, value) :: rest) = if held = key then some value else get? key rest := by
  unfold get?
  by_cases same : held = key <;> simp [same]

theorem get?_alter (key name : String) (change : Option α → α) (entries : List (String × α)) :
    get? name (alter key change entries) =
      if key = name then some (change (get? key entries)) else get? name entries := by
  induction entries with
  | nil => simp [alter, get?]
  | cons entry rest ih =>
    obtain ⟨held, value⟩ := entry
    rw [alter]
    by_cases same : held = key
    · simp only [same, beq_self_eq_true, if_true, get?_cons]
      split <;> rfl
    · simp only [beq_iff_eq, same, if_false, get?_cons, ih]
      by_cases other : held = name
      · simp [other ▸ Ne.symm same, other]
      · simp [other]

theorem get?_adjust (key name : String) (change : α → α) (entries : List (String × α)) :
    get? name (adjust key change entries) =
      (get? name entries).map fun value => if key = name then change value else value := by
  induction entries with
  | nil => rfl
  | cons entry rest ih =>
    obtain ⟨held, value⟩ := entry
    rw [adjust]
    by_cases same : held = key
    · by_cases other : held = name <;> simp [get?_cons, ← same, other]
    · simp only [beq_iff_eq, same, if_false, get?_cons, ih]
      by_cases other : held = name
      · simp [other ▸ Ne.symm same, other]
      · simp [other]

/-- The entry under a key is changed in its place, or a new entry comes last. -/
theorem alter_cases (key : String) (change : Option α → α) (entries : List (String × α)) :
    (∃ front value back, entries = front ++ (key, value) :: back ∧
        alter key change entries = front ++ (key, change (some value)) :: back) ∨
      has key entries = false ∧ alter key change entries = entries ++ [(key, change none)] := by
  induction entries with
  | nil => exact .inr ⟨rfl, rfl⟩
  | cons entry rest ih =>
    obtain ⟨held, value⟩ := entry
    by_cases same : held = key
    · subst same
      exact .inl ⟨[], value, rest, rfl, by simp [alter]⟩
    · rcases ih with ⟨front, found, back, split, changed⟩ | ⟨absent, added⟩
      · refine .inl ⟨(held, value) :: front, found, back, congrArg _ split, ?_⟩
        simp [alter, same, changed]
      · refine .inr ⟨?_, ?_⟩
        · simpa [has, same] using absent
        · simp [alter, same, added]

/-- A change after another under the same key is one change. -/
theorem alter_alter (key : String) (change later : Option α → α) (entries : List (String × α)) :
    alter key later (alter key change entries) =
      alter key (fun held => later (some (change held))) entries := by
  induction entries with
  | nil => simp [alter]
  | cons entry rest ih =>
    obtain ⟨held, value⟩ := entry
    by_cases same : held = key
    · simp [alter, same]
    · simp [alter, same, ih]

/-- Changes under different keys may change places where one of the keys is there before, since then
they do not add both. -/
theorem alter_comm {key other : String} (different : key ≠ other) (change change' : Option α → α)
    {entries : List (String × α)} (present : has other entries = true) :
    alter key change (alter other change' entries) =
      alter other change' (alter key change entries) := by
  induction entries with
  | nil => cases present
  | cons entry rest ih =>
    obtain ⟨held, value⟩ := entry
    by_cases here : held = key
    · subst here
      simp [alter, different]
    · by_cases there : held = other
      · subst there
        simp [alter, here]
      · have later : has other rest = true := by simpa [has, there] using present
        simp [alter, here, there, ih later]

theorem adjust_adjust (key : String) (change later : α → α) (entries : List (String × α)) :
    adjust key later (adjust key change entries) =
      adjust key (fun value => later (change value)) entries := by
  induction entries with
  | nil => rfl
  | cons entry rest ih =>
    obtain ⟨held, value⟩ := entry
    by_cases same : held = key
    · simp [adjust, same]
    · simp [adjust, same, ih]

theorem adjust_comm {key other : String} (different : key ≠ other) (change change' : α → α)
    (entries : List (String × α)) :
    adjust key change (adjust other change' entries) =
      adjust other change' (adjust key change entries) := by
  induction entries with
  | nil => rfl
  | cons entry rest ih =>
    obtain ⟨held, value⟩ := entry
    by_cases here : held = key
    · subst here
      simp [adjust, different]
    · by_cases there : held = other
      · subst there
        simp [adjust, here]
      · simp [adjust, here, there, ih]

/-- Only the value under the key counts. -/
theorem adjust_congr {key : String} {change change' : α → α} {entries : List (String × α)}
    (agree : ∀ value, get? key entries = some value → change value = change' value) :
    adjust key change entries = adjust key change' entries := by
  induction entries with
  | nil => rfl
  | cons entry rest ih =>
    obtain ⟨held, value⟩ := entry
    simp only [get?_cons] at agree
    by_cases same : held = key
    · simp [adjust, same, agree value (if_pos same)]
    · simp only [if_neg same] at agree
      simp [adjust, same, ih agree]

theorem adjust_append {key held : String} (other : held ≠ key) (change : α → α)
    (entries : List (String × α)) (value : α) :
    adjust key change (entries ++ [(held, value)]) = adjust key change entries ++ [(held, value)] := by
  induction entries with
  | nil => simp [adjust, other]
  | cons entry rest ih =>
    rw [List.cons_append, adjust, adjust, ih]
    split <;> rfl

/-! ### Values changed throughout -/

section MapValues

variable {β : Type}

def mapValues (f : α → β) (entries : List (String × α)) : List (String × β) :=
  entries.map fun entry => (entry.1, f entry.2)

theorem has_mapValues (f : α → β) (key : String) (entries : List (String × α)) :
    has key (mapValues f entries) = has key entries := by
  simp [has, mapValues, Function.comp_def]

theorem get?_mapValues (f : α → β) (key : String) (entries : List (String × α)) :
    get? key (mapValues f entries) = (get? key entries).map f := by
  simp [get?, mapValues, List.find?_map, Function.comp_def]

theorem alter_mapValues {f : α → β} {change : Option α → α} {change' : Option β → β}
    (changed : ∀ held, change' (held.map f) = f (change held)) (key : String)
    (entries : List (String × α)) :
    alter key change' (mapValues f entries) = mapValues f (alter key change entries) := by
  induction entries with
  | nil => simp [alter, mapValues, ← changed]
  | cons entry rest ih =>
    obtain ⟨held, value⟩ := entry
    simp only [mapValues, List.map_cons, alter] at ih ⊢
    rw [ih]
    split
    · simp [← changed]
    · rfl

theorem adjust_mapValues {f : α → β} {change : α → α} {change' : β → β}
    (changed : ∀ held, change' (f held) = f (change held)) (key : String)
    (entries : List (String × α)) :
    adjust key change' (mapValues f entries) = mapValues f (adjust key change entries) := by
  induction entries with
  | nil => rfl
  | cons entry rest ih =>
    obtain ⟨held, value⟩ := entry
    simp only [mapValues, List.map_cons, adjust] at ih ⊢
    rw [ih]
    split
    · simp [changed]
    · rfl

end MapValues

theorem mem_ofList {pairs : List (String × α)} {entry : String × α} (member : entry ∈ ofList pairs) :
    ∃ pair ∈ pairs, entry.2 = pair.2 := by
  let Listed (entries : List (String × α)) : Prop :=
    ∀ entry ∈ entries, ∃ pair ∈ pairs, entry.2 = pair.2
  have listed : Listed (ofList pairs) := by
    refine List.foldlRecOn pairs _ (fun _ none => nomatch none) fun entries known pair present => ?_
    intro entry member
    rcases mem_alter member with old | ⟨held, changed⟩
    · exact known entry old
    · exact ⟨pair, present, changed⟩
  exact listed entry member

end TypedClient.Entries
