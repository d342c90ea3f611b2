import TypedClient.Command.FileTree
import TypedClient.Proofs.Outcome

/-!
What changes of a tree leave alone. Making directories keeps all files, and writing a text keeps all but
the one that the path leads to afterwards.
-/
namespace TypedClient.FileTree

/-! ### Files -/

def file? (tree : FileTree) (location : List String) : Option FileContent :=
  match tree.node? location with
  | some (.file content) => some content
  | _ => none

/-- No file was made or changed. Directories do not count. -/
def SameFiles (before after : FileTree) : Prop :=
  ∀ location, after.file? location = before.file? location

theorem SameFiles.refl (tree : FileTree) : SameFiles tree tree :=
  fun _ => rfl

theorem SameFiles.trans {first middle last : FileTree} (earlier : SameFiles first middle)
    (later : SameFiles middle last) : SameFiles first last :=
  fun location => (later location).trans (earlier location)

theorem file?_place_other (tree : FileTree) {location other : List String} (node : FileNode)
    (different : other ≠ location) : (tree.place location node).file? other = tree.file? other := by
  rw [file?, node?_place_other tree node different, file?]

/-- The location that a path leads to. -/
def locate (tree : FileTree) (path : String) : Except FileFault (List String) := do
  let start ← tree.start path
  tree.walk start (namesOn path ++ if endsInSlash path then ["."] else [])

theorem find_of_locate {tree : FileTree} {path : String} {location : List String} {node : FileNode}
    (found : tree.locate path = .ok location) (held : tree.node? location = some node) :
    tree.find path = .ok node := by
  obtain ⟨start, starts, walked⟩ := bind_ok found
  rw [find, starts]
  change (tree.walk start _).bind _ = _
  rw [walked]
  dsimp only [Except.bind]
  rw [held]

/-- The path leads to a file with exactly this text, and all other files are as before. -/
structure Writes (before after : FileTree) (path text : String) : Prop where
  held : after.readText path = .ok text
  others : ∃ location, after.locate path = .ok location ∧
    ∀ other ≠ location, after.file? other = before.file? other

/-! ### Walks -/

variable {tree other : FileTree}

theorem walk_append (here front back : List String) : tree.walk here (front ++ back) =
    (tree.walk here front).bind (tree.walk · back) := by
  induction front generalizing here with
  | nil => rfl
  | cons name front ih =>
    rw [List.cons_append, walk, walk]
    cases tree.step here name with
    | error fault => rfl
    | ok next => exact ih next

theorem directory_of_step {here next : List String} {name : String}
    (stepped : tree.step here name = .ok next) : tree.node? here = some .directory := by
  rw [step] at stepped
  split at stepped
  · cases stepped
  · rename_i directory
    simpa using directory

theorem directory_of_walk {here there : List String} {names : List String}
    (walked : tree.walk here names = .ok there) (ends : tree.node? there = some .directory) :
    tree.node? here = some .directory := by
  cases names with
  | nil =>
    obtain rfl := Except.ok.inj walked
    exact ends
  | cons name rest =>
    obtain ⟨next, stepped, -⟩ := bind_ok walked
    exact directory_of_step stepped

section Kept

variable (kept : ∀ location, tree.node? location = some .directory →
  other.node? location = some .directory)
include kept

theorem step_of_kept {here next : List String} {name : String}
    (stepped : tree.step here name = .ok next) (ends : tree.node? next = some .directory) :
    other.step here name = .ok next := by
  have starts := directory_of_step stepped
  rw [step, starts] at stepped
  rw [step, kept here starts]
  grind

/-- A walk to a directory passes through directories only. -/
theorem walk_of_kept {here there : List String} {names : List String}
    (walked : tree.walk here names = .ok there) (ends : tree.node? there = some .directory) :
    other.walk here names = .ok there := by
  induction names generalizing here with
  | nil => exact walked
  | cons name rest ih =>
    obtain ⟨next, stepped, walked⟩ := bind_ok walked
    have next_directory := directory_of_walk walked ends
    rw [walk, step_of_kept kept stepped next_directory]
    exact ih walked

end Kept

/-! ### Changes -/

variable {path text : String} {after : FileTree}

theorem makeDirectory_ok (made : tree.makeDirectory path = .ok after) :
    ∃ location, tree.node? location = none ∧ after = tree.place location .directory := by
  obtain ⟨location, -, made⟩ := bind_ok made
  cases location with
  | none => cases made
  | some location =>
    dsimp only at made
    split at made
    · cases made
    split at made
    · cases made
    · rename_i free
      exact ⟨location, by simpa using free, (Except.ok.inj made).symm⟩

theorem makeDirectory_sameFiles (made : tree.makeDirectory path = .ok after) : SameFiles tree after := by
  obtain ⟨location, free, rfl⟩ := makeDirectory_ok made
  intro other
  by_cases same : other = location
  · have inside : location ≠ [] := by
      rintro rfl
      cases free
    rw [same, file?, node?_place_self tree _ inside, file?, free]
  · exact file?_place_other tree _ same

/-- Where a text can be written: under a new name in a directory, or in place of a file there. -/
theorem site_ok {location : List String} (given : tree.site path = .ok (some location)) :
    ∃ start above here name, tree.start path = .ok start ∧ namesOn path = above ++ [name] ∧
      tree.walk start above = .ok here ∧ tree.node? here = some .directory ∧
      name ≠ "." ∧ name ≠ ".." ∧ location = here ++ [name] := by
  obtain ⟨start, starts, given⟩ := bind_ok given
  cases names : (namesOn path).reverse with
  | nil =>
    rw [names] at given
    cases given
  | cons name above =>
    rw [names] at given
    obtain ⟨here, walked, given⟩ := bind_ok given
    split at given
    · cases given
    rename_i directory
    have given := Except.ok.inj given
    split at given
    · cases given
    rename_i plain
    rw [Bool.or_eq_true, beq_iff_eq, beq_iff_eq, not_or] at plain
    refine ⟨start, above.reverse, here, name, starts, ?_, walked, by simpa using directory, plain.1, plain.2,
      (Option.some.inj given).symm⟩
    rw [← List.reverse_reverse (namesOn path), names, List.reverse_cons]

theorem writeText_ok (written : tree.writeText path text = .ok after) : ∃ location,
    tree.site path = .ok (some location) ∧ endsInSlash path = false ∧ isOverlong location = false ∧
      tree.node? location ≠ some .directory ∧ after = tree.place location (.file (.text text)) := by
  obtain ⟨location, given, written⟩ := bind_ok written
  cases location with
  | none => cases written
  | some location =>
    dsimp only at written
    split at written
    · cases written
    rename_i slash
    split at written
    · cases written
    rename_i fits
    split at written
    · cases written
    rename_i free
    exact ⟨location, given, Bool.eq_false_iff.mpr slash, Bool.eq_false_iff.mpr fits, by simpa using free,
      (Except.ok.inj written).symm⟩

/-- What is placed where a text can be written is found under its path. -/
theorem locate_place (content : FileContent) {location : List String}
    (given : tree.site path = .ok (some location)) (slash : endsInSlash path = false)
    (fits : isOverlong location = false) (free : tree.node? location ≠ some .directory) :
    (tree.place location (.file content)).locate path = .ok location := by
  obtain ⟨start, above, here, name, starts, names, walked, directory, dot, dots, rfl⟩ := site_ok given
  -- A walk to a directory never steps on the location, which is none.
  have kept : ∀ place, tree.node? place = some .directory →
      (tree.place (here ++ [name]) (.file content)).node? place = some .directory := by
    intro place held
    rwa [node?_place_other tree]
    rintro rfl
    exact free held
  have stepped : (tree.place (here ++ [name]) (.file content)).step here name = .ok (here ++ [name]) := by
    have short : ¬nameLimit < name.utf8ByteSize := by
      simpa [isOverlong] using fits
    have held := node?_place_self tree (.file content) (List.append_ne_nil_of_right_ne_nil here
      (List.cons_ne_nil name []))
    rw [step, kept here directory]
    simp [dot, dots, short, held]
  have starts : (tree.place (here ++ [name]) (.file content)).start path = .ok start := starts
  rw [locate, starts, names, slash]
  change (tree.place _ _).walk start (above ++ [name] ++ []) = _
  rw [List.append_nil, walk_append, walk_of_kept kept walked directory]
  change (tree.place _ _).walk here [name] = _
  rw [walk, stepped]
  rfl

theorem writeText_writes (written : tree.writeText path text = .ok after) : Writes tree after path text := by
  obtain ⟨location, given, slash, fits, free, rfl⟩ := writeText_ok written
  have found := locate_place (.text text) given slash fits free
  refine ⟨?_, location, found, fun other different => file?_place_other tree _ different⟩
  have inside : location ≠ [] := by
    obtain ⟨-, -, here, name, -, -, -, -, -, -, rfl⟩ := site_ok given
    exact List.append_ne_nil_of_right_ne_nil here (List.cons_ne_nil name [])
  rw [readText, find_of_locate found (node?_place_self tree _ inside)]
  rfl

/-! ### Programs on trees -/

theorem bind_apply {α β : Type} (program : StateM FileTree α) (next : α → StateM FileTree β)
    (tree : FileTree) : (program >>= next) tree = next (program tree).1 (program tree).2 :=
  rfl

/-- The program never makes or changes a file. -/
def KeepsFiles {α : Type} (program : StateM FileTree α) : Prop :=
  ∀ tree, SameFiles tree (program tree).2

namespace KeepsFiles

variable {α β : Type}

theorem pure (value : α) : KeepsFiles (Pure.pure value) :=
  SameFiles.refl

theorem bind {program : StateM FileTree α} {next : α → StateM FileTree β}
    (first : KeepsFiles program) (later : ∀ value, KeepsFiles (next value)) :
    KeepsFiles (program >>= next) :=
  fun tree => (first tree).trans (later _ _)

theorem attempt {change : FileTree → Except FileFault FileTree}
    (keeps : ∀ before after, change before = .ok after → SameFiles before after) :
    KeepsFiles (FileTree.attempt change) := by
  intro tree
  unfold FileTree.attempt
  cases changed : change tree with
  | error fault => exact .refl tree
  | ok after => exact keeps tree after changed

theorem makeDirectory (path : String) :
    KeepsFiles (FileStore.makeDirectory path) :=
  attempt fun _ _ => makeDirectory_sameFiles

theorem settle (path : String) (made : Except FileFault Unit) :
    KeepsFiles (FileStore.makeFirst.settle path made) := by
  unfold FileStore.makeFirst.settle
  split
  · exact pure _
  · refine bind (fun tree => .refl tree) fun directory => ?_
    split <;> exact pure _

theorem makeFirst (paths : List String) : KeepsFiles (FileStore.makeFirst paths) := by
  induction paths with
  | nil => exact pure _
  | cons path above ih =>
    unfold FileStore.makeFirst
    refine bind (makeDirectory path) fun made => ?_
    split
    · exact pure _
    · refine bind ih fun made => ?_
      split
      · exact pure _
      · exact bind (makeDirectory path) fun made => settle path made
    · exact settle path _

end KeepsFiles

/-- How a delivery ends: it fails and no file changes, or the text is written. -/
inductive Delivered (before : FileTree) (path text : String) :
    Except FileFault Unit × FileTree → Prop where
  | failed {fault : FileFault} {after : FileTree} (same : SameFiles before after) :
    Delivered before path text (.error fault, after)
  | done {after : FileTree} (writes : Writes before after path text) :
    Delivered before path text (.ok (), after)

theorem Writes.of_sameFiles {before middle after : FileTree} {path text : String}
    (same : SameFiles before middle) (writes : Writes middle after path text) :
    Writes before after path text := by
  obtain ⟨location, found, others⟩ := writes.others
  exact ⟨writes.held, location, found, fun other different =>
    (others other different).trans (same other)⟩

theorem delivered (before : FileTree) (path text : String) : Delivered before path text
    ((FileStore.deliver path text : StateM FileTree (Except FileFault Unit)) before) := by
  have above := KeepsFiles.makeFirst (Path.ancestors ((Path.parent? path).getD "")) before
  rw [FileStore.deliver, bind_apply, FileStore.makeDirectories]
  generalize (FileStore.makeFirst _ : StateM FileTree (Except FileFault Unit)) before = made at above ⊢
  obtain ⟨made, middle⟩ := made
  cases made with
  | error fault => exact .failed above
  | ok =>
    change Delivered before path text (attempt (·.writeText path text) middle)
    dsimp only [attempt]
    cases written : middle.writeText path text with
    | error fault => exact .failed above
    | ok after => exact .done (.of_sameFiles above (writeText_writes written))

end TypedClient.FileTree
