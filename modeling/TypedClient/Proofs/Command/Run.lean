import TypedClient.Command.Run
import TypedClient.Proofs.Command.FileTree

/-!
Runs of the command on a tree of files. Everything that can fail comes before the one delivery of the
client, so a run that fails has changed no file and printed nothing.
-/
namespace TypedClient

/-! ### What a run is told -/

/-- The config that a named file sets, or else the default file if there is one. -/
inductive Config.From (tree : FileTree) : Option String → Config → Prop where
  | named {path text : String} {config : Config} (held : tree.readText path = .ok text)
    (decoded : ofToml text = some config) :
    From tree (some path) (config.under ((Path.parent? path).getD ""))
  | found {config : Config} (present : tree.isFile defaultPath = true)
    (given : From tree (some defaultPath) config) : From tree none config
  | absent (missing : tree.isFile defaultPath = false) : From tree none {}

/-- The settings are flags over the config, and the document is what the input holds. -/
structure Command.Prepared (tree : FileTree) (flags : Flags) (settings : Settings)
    (document : Document) : Prop where
  resolved : ∃ config, Config.From tree flags.config config ∧
    Settings.resolve flags config = .ok settings
  loaded : ∃ text, tree.readText settings.input = .ok text ∧
    Document.ofFile settings.input text = .ok document

/-! ### Programs that only read -/

/-- The program leaves the tree as it is, and what it gives is right for that tree. -/
def Looks {α : Type} (program : ExceptT Failure (StateM FileTree) α) (gives : FileTree → α → Prop) :
    Prop :=
  ∀ tree, ∃ result, program.run tree = (result, tree) ∧ ∀ value, result = .ok value → gives tree value

namespace Looks

variable {α β : Type} {gives : FileTree → α → Prop}

theorem bind {program : ExceptT Failure (StateM FileTree) α}
    {next : α → ExceptT Failure (StateM FileTree) β} {later : α → FileTree → β → Prop}
    (first : Looks program gives) (second : ∀ value, Looks (next value) (later value)) :
    Looks (program >>= next) fun tree result => ∃ value, gives tree value ∧ later value tree result := by
  intro tree
  obtain ⟨result, ran, given⟩ := first tree
  cases result with
  | error failure =>
    refine ⟨.error failure, ?_, fun _ none => nomatch none⟩
    rw [ExceptT.run_bind, FileTree.bind_apply, ran]
    rfl
  | ok value =>
    obtain ⟨result, ran', given'⟩ := second value tree
    refine ⟨result, ?_, fun last same => ⟨value, given value rfl, given' last same⟩⟩
    rw [ExceptT.run_bind, FileTree.bind_apply, ran]
    exact ran'

theorem imp {program : ExceptT Failure (StateM FileTree) α} {weaker : FileTree → α → Prop}
    (looks : Looks program gives) (implies : ∀ tree value, gives tree value → weaker tree value) :
    Looks program weaker := by
  intro tree
  obtain ⟨result, ran, given⟩ := looks tree
  exact ⟨result, ran, fun value same => implies tree value (given value same)⟩

theorem ofExcept (result : Except Failure α) :
    Looks (ExceptT.mk (pure result)) fun _ value => result = .ok value :=
  fun _ => ⟨result, rfl, fun _ same => same⟩

theorem read (path : String) :
    Looks (FileStore.read path) fun tree text => tree.readText path = .ok text := by
  intro tree
  exact ⟨_, rfl, fun text same => ok_of_mapError same⟩

theorem isFile (path : String) :
    Looks (liftM (FileStore.isFile path : StateM FileTree Bool)) fun tree there =>
      tree.isFile path = there :=
  fun tree => ⟨.ok (tree.isFile path), rfl, fun _ same => Except.ok.inj same⟩

theorem loadConfig (path : String) :
    Looks (Config.load path) fun tree config => Config.From tree (some path) config := by
  refine (@bind _ _ _ _ _ (fun text _ config => ∃ held, Config.ofToml text = some held ∧
    held.under ((Path.parent? path).getD "") = config) (read path) fun text => ?_).imp
      fun tree config given => ?_
  · split
    · exact (ofExcept (.error _)).imp fun _ _ none => nomatch none
    · rename_i held decoded
      exact (ofExcept (.ok _)).imp fun _ _ same => ⟨held, decoded, Except.ok.inj same⟩
  · obtain ⟨text, held, config, decoded, rfl⟩ := given
    exact .named held decoded

theorem discover (named : Option String) :
    Looks (Config.discover named) fun tree config => Config.From tree named config := by
  cases named with
  | some path => exact loadConfig path
  | none =>
    have choose (there : Bool) : Looks
        (if there then Config.load Config.defaultPath else pure {} :
          ExceptT Failure (StateM FileTree) Config)
        fun tree config => if there then Config.From tree (some Config.defaultPath) config
          else {} = config := by
      cases there with
      | true => exact loadConfig _
      | false => exact (ofExcept (.ok _)).imp fun _ _ same => Except.ok.inj same
    refine ((isFile Config.defaultPath).bind choose).imp fun tree config given => ?_
    obtain ⟨there, found, given⟩ := given
    cases there with
    | true => exact .found found given
    | false =>
      obtain rfl : {} = config := given
      exact .absent found

theorem settings (flags : Flags) : Looks (Command.settings flags) fun tree settings =>
    ∃ config, Config.From tree flags.config config ∧ Settings.resolve flags config = .ok settings :=
  (discover flags.config).bind fun config => ofExcept (Settings.resolve flags config)

theorem load (path : String) : Looks (Command.load path) fun tree document =>
    ∃ text, tree.readText path = .ok text ∧ Document.ofFile path text = .ok document := by
  refine ((read path).bind fun text => ofExcept _).imp fun tree document given => ?_
  obtain ⟨text, held, given⟩ := given
  exact ⟨text, held, ok_of_mapError given⟩

theorem prepared (flags : Flags) :
    Looks (do let settings ← Command.settings flags; return (settings, ← Command.load settings.input))
      fun tree (settings, document) => Command.Prepared tree flags settings document := by
  have pair (settings : Settings) : Looks
      (do return (settings, ← Command.load settings.input) :
        ExceptT Failure (StateM FileTree) (Settings × Document))
      fun tree (held, document) => settings = held ∧ ∃ text,
        tree.readText settings.input = .ok text ∧ Document.ofFile settings.input text = .ok document := by
    refine ((load settings.input).bind fun document => ofExcept (.ok (settings, document))).imp ?_
    rintro tree ⟨held, document⟩ ⟨document, loaded, same⟩
    cases same
    exact ⟨rfl, loaded⟩
  refine ((settings flags).bind pair).imp ?_
  rintro tree ⟨held, document⟩ ⟨settings, resolved, rfl, loaded⟩
  exact ⟨resolved, loaded⟩

end Looks

/-! ### Runs -/

namespace Command

/-- How a run that was asked for a client ends: it fails and no file changes, it prints the client and no
file changes, or it writes the client. -/
inductive Ended (before : FileTree) (flags : Flags) : Outcome × FileTree → Prop where
  | failed {failure : Failure} {events : List Event} {after : FileTree}
    (same : before.SameFiles after) : Ended before flags (.failed failure events, after)
  | printed {settings : Settings} {document : Document} {client : String} {events : List Event}
    (prepared : Prepared before flags settings document)
    (made : (document.generate settings.renderer settings.mode).outcome = .ok client)
    (place : settings.output = none) : Ended before flags (.printed client events, before)
  | written {settings : Settings} {document : Document} {client path : String} {events : List Event}
    {after : FileTree} (prepared : Prepared before flags settings document)
    (made : (document.generate settings.renderer settings.mode).outcome = .ok client)
    (place : settings.output = some path) (writes : before.Writes after path client) :
    Ended before flags (.written path events, after)

theorem deliver_ended {before : FileTree} {flags : Flags} {settings : Settings} {document : Document}
    {generation : Generation} (prepared : Prepared before flags settings document)
    (made : (Generation.ofDocument settings.renderer.naming document).outcome = .ok generation)
    (events : List Event) :
    Ended before flags ((deliver generation settings events : StateM FileTree Outcome) before) := by
  have client : (document.generate settings.renderer settings.mode).outcome =
      .ok (generation.render settings.renderer settings.mode) := by
    rw [Document.generate, Traced.outcome_bind, made]
    rfl
  unfold deliver
  cases place : settings.output with
  | none => exact .printed prepared client place
  | some path =>
    have delivered := before.delivered path (generation.render settings.renderer settings.mode)
    dsimp only
    rw [FileTree.bind_apply]
    generalize (FileStore.deliver path _ : StateM FileTree (Except FileFault Unit)) before = result
      at delivered ⊢
    cases delivered with
    | failed same => exact .failed same
    | done writes => exact .written prepared client place writes

theorem generate_ended (before : FileTree) (flags : Flags) :
    Ended before flags ((generate flags : StateM FileTree Outcome) before) := by
  obtain ⟨result, ran, given⟩ := Looks.prepared flags before
  rw [generate, FileTree.bind_apply, ran]
  cases result with
  | error failure => exact .failed (.refl before)
  | ok prepared =>
    obtain ⟨settings, document⟩ := prepared
    have prepared : Prepared before flags settings document := given _ rfl
    dsimp only
    cases made : (Generation.ofDocument settings.renderer.naming document).outcome with
    | error cause => exact .failed (.refl before)
    | ok generation => exact deliver_ended prepared made _

/-- A tree with a document and a config file that names the document and another place for the client. -/
def projectTree : FileTree where
  nodes := [(["work"], .directory), (["work", "api.json"], .file (.text "\x7b\x7d")),
    (["work", "apigen.toml"], .file (.text "input = \"api.json\"\noutput = \"old.ts\"\n"))]
  workingDirectory := ["work"]

def projectArguments : List String :=
  ["generate", "--output", "src/client/api.ts"]

end Command
end TypedClient
