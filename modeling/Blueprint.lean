import Blueprint.Main
import Blueprint.Record.Expectation
import Blueprint.Files.Tree
import Blueprint.Proofs.Text.Cutting
import Blueprint.Proofs.Segment.Cutting
import Blueprint.Proofs.Layout.Compact
import Blueprint.Proofs.Layout.Edits
import Blueprint.Proofs.Description.Parts
import Blueprint.Proofs.Description.Independence
import Blueprint.Proofs.Canonical.Cells
import Blueprint.Proofs.Canonical.Tables
import Blueprint.Proofs.Section.Rows
import Blueprint.Proofs.Canonical.Quotes
import Blueprint.Proofs.Canonical.Reading
import Blueprint.Proofs.Canonical.RoundTrip
import Blueprint.Proofs.Canonical.Writing
import Blueprint.Proofs.Canonical.Image
import Blueprint.Proofs.Canonical.Normalising
import Blueprint.Proofs.Section.Places
import Blueprint.Proofs.Description.Faults
import Blueprint.Proofs.Description.Invariant
import Blueprint.Proofs.Description.Completeness
import Blueprint.Proofs.Project.NameFaults
import Blueprint.Proofs.Files.Joining
import Blueprint.Proofs.Project.Insertion
import Blueprint.Proofs.Project.Locations
import Blueprint.Proofs.Project.Exactness
import Blueprint.Proofs.Script.Lines
import Blueprint.Proofs.Project.Registration
import Blueprint.Proofs.Decimal.Shortest
import Blueprint.Proofs.Json.Quoted
import Blueprint.Proofs.Json.Outline
import Blueprint.Proofs.Exchange.Shape
import Blueprint.Proofs.Exchange.Members
import Blueprint.Proofs.Exchange.RoundTrip
import Blueprint.Proofs.Project.Manifest
import Blueprint.Proofs.Script.Blocks
import Blueprint.Proofs.Script.Declarations
import Blueprint.Proofs.Exchange.Acceptance
import Blueprint.Proofs.Files.Growth
import Blueprint.Proofs.Project.Writing
import Blueprint.Proofs.Command.Export
import Blueprint.Proofs.Canonical.Stability
import Blueprint.Proofs.Layout.NormalForm
import Blueprint.Proofs.Section.Accounting
import Blueprint.Settings.Loader
import Blueprint.Proofs.Settings.Keys
import Blueprint.Proofs.Settings.Trees
import Blueprint.Proofs.Settings.Layers
import Blueprint.Proofs.Settings.Precedence
import Blueprint.Proofs.Description.Positions
import Blueprint.Proofs.Segment.Ranges
import Blueprint.Proofs.Segment.Splitting
import Blueprint.Proofs.Section.Legacy
import Blueprint.Proofs.Project.References
import Blueprint.Proofs.Format.Registry
import Blueprint.Proofs.Identity.Sharing
import Blueprint.Proofs.Description.Bounds
import Blueprint.Proofs.Project.Reproduction
import Blueprint.Proofs.Token.LongestMatch
import Blueprint.Proofs.Token.QuoteRuns
import Blueprint.Proofs.Token.Division
import Blueprint.Proofs.Record.Expectations
