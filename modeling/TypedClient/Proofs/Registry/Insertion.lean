import TypedClient.Registry

/-!
A registry is told by the log of its insertions: under a name it holds the last registration of that
name, and without collisions all registrations of one name come from one source.
-/
namespace TypedClient.Registry

def names (registry : Registry) : List String :=
  registry.entries.map (·.definition.name)

theorem find?_isSome {registry : Registry} {name : String} :
    (registry.find? name).isSome = true ↔ name ∈ registry.names := by
  simp [find?, names]

/-! ### One insertion -/

section Insert

variable (registry : Registry) (entry : Registration)

theorem find?_replace {entries : List Registration} {name : String}
    (present : entry.definition.name = name) :
    (entries.map fun held => if held.definition.name == name then entry else held).find?
        (·.definition.name == name) =
      (entries.find? (·.definition.name == name)).map fun _ => entry := by
  induction entries with
  | nil => rfl
  | cons first rest ih =>
    rw [List.map_cons, List.find?_cons, List.find?_cons]
    cases same : first.definition.name == name with
    | true => simp [present]
    | false => simpa only [same, Bool.false_eq_true, if_false] using ih

theorem find?_replace_other {entries : List Registration} {name other : String}
    (present : entry.definition.name = name) (different : other ≠ name) :
    (entries.map fun held => if held.definition.name == name then entry else held).find?
        (·.definition.name == other) =
      entries.find? (·.definition.name == other) := by
  induction entries with
  | nil => rfl
  | cons first rest ih =>
    rw [List.map_cons, List.find?_cons, List.find?_cons]
    cases same : first.definition.name == name with
    | true =>
      have first_other : (first.definition.name == other) = false := by
        rw [eq_of_beq same]
        exact beq_false_of_ne different.symm
      have entry_other : (entry.definition.name == other) = false := by
        rw [present]
        exact beq_false_of_ne different.symm
      simpa only [if_true, first_other, entry_other] using ih
    | false => simp only [Bool.false_eq_true, if_false, ih]

theorem find?_insert_self :
    (registry.insert entry).find? entry.definition.name = some entry := by
  unfold find? insert
  dsimp only
  split
  · rename_i held
    rw [find?_replace entry rfl]
    obtain ⟨old, found⟩ := Option.isSome_iff_exists.mp held
    exact (congrArg (Option.map fun _ => entry) found).trans rfl
  · rename_i fresh
    have absent : registry.find? entry.definition.name = none := by simpa using fresh
    rw [List.find?_append, show registry.entries.find? _ = none from absent]
    simp

theorem find?_insert_other {name : String} (different : name ≠ entry.definition.name) :
    (registry.insert entry).find? name = registry.find? name := by
  unfold find? insert
  dsimp only
  split
  · exact find?_replace_other entry rfl different
  · simp [List.find?_append, different.symm]

theorem find?_insert (name : String) :
    (registry.insert entry).find? name =
      if entry.definition.name = name then some entry else registry.find? name := by
  split
  · rename_i same
    exact same ▸ find?_insert_self registry entry
  · rename_i different
    exact find?_insert_other registry entry (Ne.symm different)

theorem mem_names_insert {name : String} :
    name ∈ (registry.insert entry).names ↔ name = entry.definition.name ∨ name ∈ registry.names := by
  rw [← find?_isSome, ← find?_isSome, find?_insert]
  split
  · rename_i same
    simp [same]
  · rename_i different
    simp [Ne.symm different]

theorem mem_entries_insert {held : Registration} (member : held ∈ (registry.insert entry).entries) :
    held = entry ∨ held ∈ registry.entries := by
  unfold insert at member
  dsimp only at member
  split at member
  · obtain ⟨old, present, rfl⟩ := List.mem_map.mp member
    split
    · exact .inl rfl
    · exact .inr present
  · rcases List.mem_append.mp member with present | last
    · exact .inr present
    · exact .inl (List.mem_singleton.mp last)

/-- Without a collision a registration is only replaced by one of its own source. -/
theorem source_of_silent_insert {held : Registration}
    (found : registry.find? entry.definition.name = some held)
    (silent : (registry.insert entry).collisions = []) : entry.source = held.source := by
  have none := (List.append_eq_nil_iff.mp silent).2
  simp only [collision?, source?, found, Option.map_some] at none
  split at none
  · rename_i same
    exact same.symm
  · cases none

end Insert

/-! ### A log of insertions -/

section Log

variable {log : List Registration} {registry : Registry}

theorem mem_names_foldl {name : String} :
    name ∈ (log.foldl insert registry).names ↔
      name ∈ registry.names ∨ ∃ entry ∈ log, entry.definition.name = name := by
  induction log generalizing registry with
  | nil => simp
  | cons entry log ih =>
    rw [List.foldl_cons, ih, mem_names_insert]
    simp only [List.mem_cons, exists_eq_or_imp, @eq_comm _ name, or_assoc, or_left_comm]

theorem mem_entries_foldl {held : Registration}
    (member : held ∈ (log.foldl insert registry).entries) : held ∈ log ∨ held ∈ registry.entries := by
  induction log generalizing registry with
  | nil => exact .inr member
  | cons entry log ih =>
    rcases ih member with later | early
    · exact .inl (List.mem_cons_of_mem _ later)
    · rcases mem_entries_insert registry entry early with rfl | old
      · exact .inl List.mem_cons_self
      · exact .inr old

theorem silent_of_foldl (silent : (log.foldl insert registry).collisions = []) :
    registry.collisions = [] := by
  induction log generalizing registry with
  | nil => exact silent
  | cons entry log ih => exact (List.append_eq_nil_iff.mp (ih silent)).1

/-- The last registration of a name stands. -/
theorem find?_foldl (name : String) :
    (log.foldl insert registry).find? name =
      (log.reverse.find? (·.definition.name == name)).or (registry.find? name) := by
  induction log generalizing registry with
  | nil => rfl
  | cons entry log ih =>
    rw [List.foldl_cons, ih, find?_insert, List.reverse_cons, List.find?_append]
    by_cases same : entry.definition.name = name <;> simp [same]

theorem source_kept {name : String} {held : Registration}
    (silent : (log.foldl insert registry).collisions = [])
    (found : registry.find? name = some held) :
    ∃ last, (log.foldl insert registry).find? name = some last ∧ last.source = held.source := by
  induction log generalizing registry held with
  | nil => exact ⟨held, found, rfl⟩
  | cons entry log ih =>
    rw [List.foldl_cons] at silent ⊢
    by_cases same : entry.definition.name = name
    · subst same
      obtain ⟨last, stands, source⟩ := ih silent (find?_insert_self registry entry)
      have replaced := source_of_silent_insert registry entry found (silent_of_foldl silent)
      exact ⟨last, stands, source.trans replaced⟩
    · exact ih silent ((find?_insert_other registry entry (Ne.symm same)).trans found)

/-- In a log without collisions, what stands under the name of a registration has its source. -/
theorem source_of_silent {entry : Registration}
    (silent : (log.foldl insert registry).collisions = []) (member : entry ∈ log) :
    ∃ last, (log.foldl insert registry).find? entry.definition.name = some last ∧
      last.source = entry.source := by
  induction log generalizing registry with
  | nil => cases member
  | cons first log ih =>
    rw [List.foldl_cons] at silent ⊢
    rcases List.mem_cons.mp member with rfl | later
    · exact source_kept silent (find?_insert_self registry entry)
    · exact ih silent later

end Log
end TypedClient.Registry
