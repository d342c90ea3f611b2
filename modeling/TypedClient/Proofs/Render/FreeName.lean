import Mathlib.Data.List.Nodup
import Mathlib.Data.List.Perm.Subperm
import Mathlib.Order.Nat
import TypedClient.Render.Fetch

/-!
Names of fixed arguments. A free name is its base with as few underscores in front as make it differ from
all path parameters. The search for it needs no limit to end: it takes at most as many turns as there are
path parameters. Free names of different bases are different.
-/
namespace TypedClient.Fetch

def underscored (count : Nat) (base : String) : String :=
  String.ofList (List.replicate count '_' ++ base.toList)

theorem underscored_zero (base : String) : underscored 0 base = base :=
  String.ofList_toList

theorem underscored_succ (count : Nat) (base : String) :
    underscored count ("_" ++ base) = underscored (count + 1) base := by
  apply String.toList_inj.mp
  rw [underscored, underscored, String.toList_ofList, String.toList_ofList, String.toList_append,
    List.replicate_succ', List.append_assoc]
  rfl

theorem underscored_injective {base : String} {count other : Nat}
    (same : underscored count base = underscored other base) : count = other := by
  have lengths := congrArg (fun name => name.toList.length) same
  simpa [underscored] using lengths

/-- The first names that the search tries. -/
def candidates (count : Nat) (base : String) : List String :=
  (List.range count).map (underscored · base)

theorem nodup_candidates (count : Nat) (base : String) : (candidates count base).Nodup :=
  List.nodup_range.map fun _ _ same => underscored_injective same

/-! ### The search for a free name -/

/-- The search without a limit, with its turns counted: a name that is taken gets one more underscore. -/
inductive Search (taken : List String) : Nat → String → String → Prop where
  | free {name : String} (absent : name ∉ taken) : Search taken 0 name name
  | turn {turns : Nat} {name found : String} (present : name ∈ taken)
      (rest : Search taken turns ("_" ++ name) found) : Search taken (turns + 1) name found

/-- How many underscores make a base differ from the names taken. -/
def freeCounts (taken : List String) (base : String) : Set Nat :=
  {count | underscored count base ∉ taken}

section Search

variable {taken : List String} {base : String}

theorem mem_freeCounts {count : Nat} :
    count ∈ freeCounts taken base ↔ underscored count base ∉ taken :=
  Iff.rfl

theorem zero_mem_freeCounts : 0 ∈ freeCounts taken base ↔ base ∉ taken := by
  rw [mem_freeCounts, underscored_zero]

theorem succ_mem_freeCounts {count : Nat} :
    count + 1 ∈ freeCounts taken base ↔ count ∈ freeCounts taken ("_" ++ base) := by
  rw [mem_freeCounts, mem_freeCounts, underscored_succ]

theorem isLeast_freeCounts_zero : IsLeast (freeCounts taken base) 0 ↔ base ∉ taken :=
  ⟨fun least => zero_mem_freeCounts.mp least.1,
    fun absent => ⟨zero_mem_freeCounts.mpr absent, fun _ _ => Nat.zero_le _⟩⟩

/-- A turn leaves one underscore less to find. -/
theorem isLeast_freeCounts_succ (present : base ∈ taken) {turns : Nat} :
    IsLeast (freeCounts taken base) (turns + 1) ↔ IsLeast (freeCounts taken ("_" ++ base)) turns := by
  constructor
  · rintro ⟨free, lower⟩
    refine ⟨succ_mem_freeCounts.mp free, fun count other => ?_⟩
    exact Nat.le_of_succ_le_succ (lower (succ_mem_freeCounts.mpr other))
  · rintro ⟨free, lower⟩
    refine ⟨succ_mem_freeCounts.mpr free, fun count other => ?_⟩
    cases count with
    | zero => exact absurd present (zero_mem_freeCounts.mp other)
    | succ count => exact Nat.succ_le_succ (lower (succ_mem_freeCounts.mp other))

theorem mem_of_isLeast_succ {turns : Nat} (least : IsLeast (freeCounts taken base) (turns + 1)) :
    base ∈ taken := by
  by_contra absent
  exact Nat.not_succ_le_zero turns (least.2 (zero_mem_freeCounts.mpr absent))

/-- What the search finds, and in how many turns, is the base with the fewest underscores. -/
theorem search_iff {turns : Nat} {found : String} : Search taken turns base found ↔
    found = underscored turns base ∧ IsLeast (freeCounts taken base) turns := by
  -- With each turn one underscore moves from the count into the base.
  induction turns generalizing base with
  | zero =>
    rw [isLeast_freeCounts_zero, underscored_zero]
    constructor
    · rintro ⟨absent⟩
      exact ⟨rfl, absent⟩
    · rintro ⟨rfl, absent⟩
      exact .free absent
  | succ turns ih =>
    constructor
    · intro search
      cases search with
      | turn present rest =>
        rw [← underscored_succ, isLeast_freeCounts_succ present]
        exact ih.mp rest
    · rintro ⟨rfl, least⟩
      have present := mem_of_isLeast_succ least
      have rest := (isLeast_freeCounts_succ present).mp least
      exact .turn present (ih.mpr ⟨(underscored_succ turns base).symm, rest⟩)

/-- One more candidate than there are names is never taken altogether. -/
theorem exists_mem_freeCounts (taken : List String) (base : String) :
    ∃ count ≤ taken.length, count ∈ freeCounts taken base := by
  by_contra held
  have covered : candidates (taken.length + 1) base ⊆ taken := by
    intro name member
    obtain ⟨count, listed, rfl⟩ := List.mem_map.mp member
    by_contra absent
    exact held ⟨count, Nat.le_of_lt_succ (List.mem_range.mp listed), absent⟩
  have short := ((nodup_candidates _ base).subperm covered).length_le
  rw [candidates, List.length_map, List.length_range] at short
  omega

theorem exists_search (taken : List String) (base : String) :
    ∃ turns ≤ taken.length, Search taken turns base (underscored turns base) := by
  obtain ⟨count, within, free⟩ := exists_mem_freeCounts taken base
  have exists_free : ∃ count, underscored count base ∉ taken := ⟨count, free⟩
  refine ⟨Nat.find exists_free, (Nat.find_min' exists_free free).trans within, ?_⟩
  exact search_iff.mpr ⟨rfl, Nat.isLeast_find exists_free⟩

/-- A limit does not matter to a search that ends within it. -/
theorem Search.freshen_eq {turns steps : Nat} {found : String} (search : Search taken turns base found)
    (within : turns ≤ steps) : freshen taken steps base = found := by
  induction search generalizing steps with
  | free absent =>
    cases steps with
    | zero => rfl
    | succ steps => rw [freshen, if_neg (fun present => absent (List.contains_iff_mem.mp present))]
  | turn present _ ih =>
    cases steps with
    | zero => exact absurd within (Nat.not_succ_le_zero _)
    | succ steps =>
      rw [freshen, if_pos (List.contains_iff_mem.mpr present)]
      exact ih (Nat.le_of_succ_le_succ within)

/-- As many steps as there are names taken are enough. -/
theorem search_freshen (taken : List String) (base : String) :
    ∃ turns ≤ taken.length, Search taken turns base (freshen taken taken.length base) := by
  obtain ⟨turns, within, search⟩ := exists_search taken base
  exact ⟨turns, within, search.freshen_eq within ▸ search⟩

end Search

/-! ### Free names of an operation -/

/-- A name without the underscores in front of it. -/
def stem (name : String) : List Char :=
  name.toList.dropWhile (· == '_')

theorem stem_of_plain {name : String} (plain : name.toList.head? ≠ some '_') :
    stem name = name.toList := by
  unfold stem
  cases shape : name.toList with
  | nil => rfl
  | cons c rest =>
    have letter : c ≠ '_' := by
      rintro rfl
      exact plain (by rw [shape]; rfl)
    rw [List.dropWhile_cons_of_neg (by simpa using letter)]

theorem stem_underscored {base : String} (plain : base.toList.head? ≠ some '_') (count : Nat) :
    stem (underscored count base) = base.toList := by
  induction count with
  | zero => rw [underscored_zero, stem_of_plain plain]
  | succ count ih =>
    rw [← ih]
    unfold stem underscored
    rw [String.toList_ofList, String.toList_ofList, List.replicate_succ, List.cons_append,
      List.dropWhile_cons_of_pos (by decide)]

variable (descriptor : Descriptor)

theorem search_freeName (base : String) : ∃ turns ≤ descriptor.allPathParams.length,
    Search (pathIdentifiers descriptor) turns base (freeName descriptor base) := by
  have size : (pathIdentifiers descriptor).length = descriptor.allPathParams.length :=
    List.length_map _
  rw [← size]
  exact search_freshen (pathIdentifiers descriptor) base

theorem freeName_not_mem (base : String) : freeName descriptor base ∉ pathIdentifiers descriptor := by
  obtain ⟨turns, -, search⟩ := search_freeName descriptor base
  obtain ⟨found, least⟩ := search_iff.mp search
  rw [found]
  exact least.1

theorem exists_freeName (base : String) : ∃ count, freeName descriptor base = underscored count base := by
  obtain ⟨turns, -, search⟩ := search_freeName descriptor base
  exact ⟨turns, (search_iff.mp search).1⟩

theorem not_mem_freeName {c : Char} {base : String} (other : c ≠ '_') (absent : c ∉ base.toList) :
    c ∉ (freeName descriptor base).toList := by
  obtain ⟨count, found⟩ := exists_freeName descriptor base
  rw [found, underscored, String.toList_ofList, List.mem_append, not_or]
  exact ⟨fun member => other (List.eq_of_mem_replicate member), absent⟩

theorem stem_freeName {base : String} (plain : base.toList.head? ≠ some '_') :
    stem (freeName descriptor base) = base.toList := by
  obtain ⟨count, found⟩ := exists_freeName descriptor base
  rw [found, stem_underscored plain]

theorem freeName_ne (base other : String) (plain : base.toList.head? ≠ some '_')
    (otherPlain : other.toList.head? ≠ some '_') (different : base ≠ other) :
    freeName descriptor base ≠ freeName descriptor other := by
  intro same
  apply different
  apply String.toList_inj.mp
  rw [← stem_freeName descriptor plain, same, stem_freeName descriptor otherPlain]

theorem nodup_freeNames {bases : List String} (distinct : bases.Nodup)
    (plain : ∀ base ∈ bases, base.toList.head? ≠ some '_') :
    (bases.map (freeName descriptor)).Nodup := by
  refine List.Nodup.map_on ?_ distinct
  intro base member other otherMember same
  by_contra different
  exact freeName_ne descriptor base other (plain base member) (plain other otherMember) different same

/-- No free name is a name without an underscore in front that has another base. -/
theorem freeNames_disjoint (bases others : List String)
    (plain : ∀ base ∈ bases, base.toList.head? ≠ some '_')
    (otherPlain : ∀ name ∈ others, name.toList.head? ≠ some '_')
    (apart : ∀ base ∈ bases, base ∉ others) :
    (bases.map (freeName descriptor)).Disjoint others := by
  intro name free member
  obtain ⟨base, listed, rfl⟩ := List.mem_map.mp free
  have same : base.toList = (freeName descriptor base).toList := by
    rw [← stem_freeName descriptor (plain base listed), stem_of_plain (otherPlain _ member)]
  exact apart base listed (String.toList_inj.mp same ▸ member)

theorem getLast?_freeName {base : String} (filled : base.toList ≠ []) :
    (freeName descriptor base).toList.getLast? = base.toList.getLast? := by
  obtain ⟨count, found⟩ := exists_freeName descriptor base
  rw [found, underscored, String.toList_ofList, List.getLast?_append_of_ne_nil _ filled]

/-- The arguments and locals that give way to the path parameters. -/
def freeBases : List String :=
  ["data", "params", "headers", "options", "res", "queryOptions"]

/-- The search for a free name ends after at most as many turns as there are path parameters. It finds
the base with the fewest underscores that make it differ from all their identifiers, so the names of
arguments and locals differ from these and from each other. -/
theorem freeNames_fresh (descriptor : Descriptor) :
    (∀ base, ∃ turns ≤ descriptor.allPathParams.length,
      Search (pathIdentifiers descriptor) turns base (freeName descriptor base) ∧
      freeName descriptor base = underscored turns base ∧
      IsLeast (freeCounts (pathIdentifiers descriptor) base) turns) ∧
    (freeBases.map (freeName descriptor)).Nodup ∧
    (freeBases.map (freeName descriptor)).Disjoint (pathIdentifiers descriptor) := by
  refine ⟨fun base => ?_, nodup_freeNames descriptor (by decide) (by decide), ?_⟩
  · obtain ⟨turns, within, search⟩ := search_freeName descriptor base
    obtain ⟨found, least⟩ := search_iff.mp search
    exact ⟨turns, within, search, found, least⟩
  · intro name free
    obtain ⟨base, -, rfl⟩ := List.mem_map.mp free
    exact freeName_not_mem descriptor base

/-- Names that hold every candidate take as many turns as there are of them. -/
example : freshen ["data", "__data", "_data"] 3 "data" = "___data" := by
  decide

end TypedClient.Fetch
