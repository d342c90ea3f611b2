import TypedClient.Command.FileTree
import TypedClient.Render.Choice
import TypedClient.Main
import TypedClient.Proofs.TypeExpr.Distinct
import TypedClient.Proofs.Outcome
import TypedClient.Proofs.Schema.Nodes
import TypedClient.Proofs.Synthesis.Typing
import TypedClient.Proofs.Instance.Meaning
import TypedClient.Proofs.Instance.Soundness
import TypedClient.Proofs.Generation.Run
import TypedClient.Proofs.Registry.Insertion
import TypedClient.Proofs.Schema.References
import TypedClient.Proofs.Synthesis.Mentions
import TypedClient.Proofs.Operation.Parts
import TypedClient.Proofs.Synthesis.Definitions
import TypedClient.Proofs.Operation.Mentions
import TypedClient.Proofs.Generation.Closed
import TypedClient.Proofs.Generation.Kept
import TypedClient.Proofs.TypeText.Grammar
import TypedClient.Proofs.TypeText.Equations
import TypedClient.Proofs.TypeText.Reading
import TypedClient.Proofs.TypeText.Tree
import TypedClient.Proofs.TypeText.Legible
import TypedClient.Proofs.TypeText.Faithful
import TypedClient.Proofs.Document.Entries
import TypedClient.Proofs.Document.Readings
import TypedClient.Proofs.Document.Keyed
import TypedClient.Proofs.Schema.Keyed
import TypedClient.Proofs.TypeExpr.Canonical
import TypedClient.Proofs.Synthesis.Canonical
import TypedClient.Proofs.Operation.Canonical
import TypedClient.Proofs.Generation.Canonical
import TypedClient.Proofs.Discriminator.Pins
import TypedClient.Proofs.Discriminator.Tags
import TypedClient.Proofs.Synthesis.Resolution
import TypedClient.Proofs.Reference.Chains
import TypedClient.Proofs.Reference.Sections
import TypedClient.Proofs.Reference.Unfolding
import TypedClient.Proofs.Schema.Read
import TypedClient.Proofs.Synthesis.Unfolded
import TypedClient.Proofs.Operation.Extension
import TypedClient.Proofs.Generation.Resolved
import TypedClient.Proofs.Registry.Addition
import TypedClient.Proofs.Generation.Addition
import TypedClient.Proofs.TypeExpr.Plain
import TypedClient.Proofs.Schema.Plain
import TypedClient.Proofs.Document.Plain
import TypedClient.Proofs.Synthesis.Plain
import TypedClient.Proofs.Operation.Plain
import TypedClient.Proofs.Generation.Plain
import TypedClient.Proofs.Route.Template
import TypedClient.Proofs.Route.Reading
import TypedClient.Proofs.Operation.Placeholders
import TypedClient.Proofs.Operation.Locations
import TypedClient.Proofs.Document.Relevant
import TypedClient.Proofs.Operation.Relevant
import TypedClient.Proofs.Generation.Relevant
import TypedClient.Proofs.Synthesis.Stable
import TypedClient.Proofs.TypeExpr.Sentinels
import TypedClient.Proofs.Synthesis.Sentinels
import TypedClient.Proofs.Operation.Owned
import TypedClient.Proofs.Operation.Sentinels
import TypedClient.Proofs.Identifier.Letters
import TypedClient.Proofs.Render.TemplateLiteral
import TypedClient.Proofs.Render.Url
import TypedClient.Proofs.Identifier.Spelling
import TypedClient.Proofs.Render.FreeName
import TypedClient.Proofs.Render.Arguments
import TypedClient.Proofs.Render.Capture
import TypedClient.Proofs.Text.Pieces
import TypedClient.Proofs.Render.Labels
import TypedClient.Proofs.Render.Bindings
import TypedClient.Proofs.Generation.Exports
import TypedClient.Proofs.Identifier.Alphabet
import TypedClient.Proofs.Generation.Identifiers
import TypedClient.Proofs.Document.Routes
import TypedClient.Proofs.Render.QueryKeys
import TypedClient.Proofs.Generation.QueryKeys
import TypedClient.Proofs.Render.Modes
import TypedClient.Proofs.Command.FileTree
import TypedClient.Proofs.Command.Run
import TypedClient.Proofs.Discriminator.Overlap
import TypedClient.Proofs.Discriminator.Replay
import TypedClient.Proofs.Discriminator.Frame
import TypedClient.Proofs.Reference.Limit
import TypedClient.Proofs.Registry.Summary
import TypedClient.Proofs.Script.StringLiteral
import TypedClient.Proofs.Instance.Enumeration
import TypedClient.Proofs.TypeText.Values
import TypedClient.Proofs.TypeText.IndexSignature
import TypedClient.Proofs.TypeExpr.Members
import TypedClient.Proofs.Route.Canonical
import TypedClient.Proofs.Route.Segments
import TypedClient.Proofs.Identifier.Derived
import TypedClient.Proofs.Text.Lines
import TypedClient.Proofs.DocComment.Block
import TypedClient.Proofs.Generation.Documented
