import Mathlib.Data.Finset.Card
import TypedClient.Generation
import TypedClient.Proofs.Registry.Insertion

/-!
What a registry holds and reports in terms of the log of its insertions alone: names in the order of
their first insertion, the last definition and source of each, and a collision for every insertion that
met another source, with one warning each.
-/
namespace TypedClient.Registry

def loggedNames (log : List Registration) : List String :=
  log.map (·.definition.name)

/-- The last insertion of a name. -/
def latest? (log : List Registration) (name : String) : Option Registration :=
  log.reverse.find? (·.definition.name == name)

/-- The collision of an insertion that follows a log. -/
def clashAfter? (log : List Registration) (entry : Registration) : Option Collision :=
  match latest? log entry.definition.name with
  | some held =>
    if held.source = entry.source then none
    else some ⟨entry.definition.name, held.source, entry.source⟩
  | none => none

/-- The collisions of all insertions, each with the log before it. -/
def clashes (log : List Registration) : List Collision :=
  log.zipIdx.filterMap fun (entry, position) => clashAfter? (log.take position) entry

structure Summarizes (log : List Registration) (registry : Registry) (events : List Event) : Prop where
  names : registry.definitions.map (·.name) = (loggedNames log).eraseDups
  definitions : registry.definitions =
    (loggedNames log).eraseDups.filterMap fun name => (latest? log name).map (·.definition)
  get? : ∀ name, registry.get? name = (latest? log name).map (·.definition)
  source? : ∀ name, registry.source? name = (latest? log name).map (·.source)
  size : registry.size = (loggedNames log).toFinset.card
  collisions : registry.collisions = clashes log
  warnings : events.map (fun event => (event.level, event.message, event.details)) =
    registry.collisions.map fun clash => (.warn, clash.message, [])

/-! ### Names -/

section Names

variable (registry : Registry) (entry : Registration)

theorem names_insert :
    (registry.insert entry).names =
      if entry.definition.name ∈ registry.names then registry.names
      else registry.names ++ [entry.definition.name] := by
  by_cases held : (registry.find? entry.definition.name).isSome = true
  · have replaced : (registry.insert entry).entries = registry.entries.map fun old =>
        if old.definition.name == entry.definition.name then entry else old := if_pos held
    rw [if_pos (find?_isSome.mp held), names, replaced, List.map_map]
    refine List.map_congr_left fun old _ => ?_
    rw [Function.comp_apply]
    split
    · rename_i same
      exact (eq_of_beq same).symm
    · rfl
  · have added : (registry.insert entry).entries = registry.entries ++ [entry] := if_neg held
    rw [if_neg (mt find?_isSome.mpr held), names, added, List.map_append, List.map_singleton, names]

variable {registry}

theorem nodup_names_insert (apart : registry.names.Nodup) : (registry.insert entry).names.Nodup := by
  rw [names_insert]
  split
  · exact apart
  · rename_i fresh
    exact List.nodup_append.mpr ⟨apart, List.nodup_singleton _, fun name held other last same =>
      fresh (List.mem_singleton.mp last ▸ same ▸ held)⟩

/-- The entries in order are what is found under the names in order. -/
theorem entries_eq (apart : registry.names.Nodup) :
    registry.entries = registry.names.filterMap registry.find? := by
  unfold names find? at *
  generalize registry.entries = entries at apart
  induction entries with
  | nil => rfl
  | cons first rest ih =>
    obtain ⟨fresh, apart⟩ : first.definition.name ∉ rest.map (·.definition.name) ∧
        (rest.map (·.definition.name)).Nodup := List.nodup_cons.mp apart
    have own : (first :: rest).find? (·.definition.name == first.definition.name) = some first :=
      List.find?_cons_of_pos (beq_self_eq_true _)
    have later : ∀ name ∈ rest.map (·.definition.name),
        (first :: rest).find? (·.definition.name == name) =
          rest.find? (·.definition.name == name) := fun name held =>
      List.find?_cons_of_neg fun same => fresh (eq_of_beq same ▸ held)
    rw [List.map_cons, List.filterMap_cons, own, List.filterMap_congr later, ← ih apart]

end Names

variable {log : List Registration}

theorem nodup_names_foldl (log : List Registration) :
    (log.foldl insert ({} : Registry)).names.Nodup := by
  induction log using List.reverseRecOn with
  | nil => exact List.nodup_nil
  | append_singleton log entry ih =>
    rw [List.foldl_append]
    exact nodup_names_insert entry ih

theorem names_foldl (log : List Registration) :
    (log.foldl insert ({} : Registry)).names = (loggedNames log).eraseDups := by
  induction log using List.reverseRecOn with
  | nil => rfl
  | append_singleton log entry ih =>
    have logged : loggedNames (log ++ [entry]) = loggedNames log ++ [entry.definition.name] :=
      List.map_append
    rw [List.foldl_append, List.foldl_cons, List.foldl_nil, names_insert, ih, logged,
      List.eraseDups_append]
    by_cases held : entry.definition.name ∈ loggedNames log
    · simp [held, List.removeAll, List.mem_eraseDups]
    · simp [held, List.removeAll, List.mem_eraseDups, List.eraseDups_cons]

theorem find?_log (log : List Registration) (name : String) :
    (log.foldl insert ({} : Registry)).find? name = latest? log name :=
  (find?_foldl name).trans (Option.or_none ..)

/-! ### Collisions -/

theorem clashes_append (log : List Registration) (entry : Registration) :
    clashes (log ++ [entry]) = clashes log ++ (clashAfter? log entry).toList := by
  have earlier : ∀ step ∈ log.zipIdx, clashAfter? ((log ++ [entry]).take step.2) step.1 =
      clashAfter? (log.take step.2) step.1 := fun step member => by
    rw [List.take_append_of_le_length (List.snd_lt_of_mem_zipIdx member).le]
  rw [clashes, List.zipIdx_append, List.filterMap_append, List.filterMap_congr earlier]
  cases last : clashAfter? log entry <;> simp [clashes, last]

theorem collision?_log (log : List Registration) (entry : Registration) :
    (log.foldl insert ({} : Registry)).collision? entry.definition.name entry.source =
      clashAfter? log entry := by
  rw [collision?, source?, find?_log, clashAfter?]
  cases latest? log entry.definition.name <;> rfl

theorem collisions_foldl (log : List Registration) :
    (log.foldl insert ({} : Registry)).collisions = clashes log := by
  -- From the end of the log: the last insertion meets what the log before it has left.
  induction log using List.reverseRecOn with
  | nil => rfl
  | append_singleton log entry ih =>
    rw [List.foldl_append, clashes_append, ← ih, ← collision?_log]
    rfl

theorem reportAll_eq (registry : Registry) (log : List Registration) :
    registry.collisions.map .collision ++ Generation.reportAll registry log =
      (log.foldl insert registry).collisions.map .collision := by
  induction log generalizing registry with
  | nil => exact List.append_nil _
  | cons entry log ih =>
    rw [List.foldl_cons, ← ih, Generation.reportAll, ← List.append_assoc]
    congr 1
    exact List.map_append.symm

/-! ### The summary -/

theorem insertAll_summarizes (log : List Registration) :
    Summarizes log (Generation.insertAll {} log) (Generation.reportAll {} log) where
  names := (List.map_map ..).trans (names_foldl log)
  definitions := by
    have entries := entries_eq (nodup_names_foldl log)
    rw [names_foldl, List.filterMap_congr fun name _ => find?_log log name] at entries
    rw [Generation.insertAll, definitions, entries, List.map_filterMap]
  get? name := congrArg (Option.map _) (find?_log log name)
  source? name := congrArg (Option.map _) (find?_log log name)
  size := by
    have apart := names_foldl log ▸ nodup_names_foldl log
    have same : (loggedNames log).toFinset = (loggedNames log).eraseDups.toFinset := by
      ext name
      simp [List.mem_eraseDups]
    rw [same, List.toFinset_card_of_nodup apart, ← names_foldl, names, List.length_map]
    rfl
  collisions := collisions_foldl log
  warnings := by
    have reported : Generation.reportAll {} log = _ := reportAll_eq {} log
    rw [reported, Generation.insertAll, List.map_map]
    rfl

/-- A name that goes to another source and back is reported both times. -/
example : clashes [⟨⟨"Pet", .scalar .string, none⟩, .schema "Pet"⟩,
    ⟨⟨"Pet", .scalar .number, none⟩, .response "Pet"⟩, ⟨⟨"Pet", .any, none⟩, .schema "Pet"⟩] =
    [⟨"Pet", .schema "Pet", .response "Pet"⟩, ⟨"Pet", .response "Pet", .schema "Pet"⟩] := by
  decide

end TypedClient.Registry
