import Flowchart.Text.Blank
import Flowchart.Text.Case
import Flowchart.Ident
import Flowchart.Template
import Flowchart.Table
import Flowchart.Property
import Flowchart.Diagram
import Flowchart.Declaration
import Flowchart.Chain
import Flowchart.Log
import Flowchart.Line
import Flowchart.Reading
import Flowchart.Text.Quoted
import Flowchart.Text.Digit
import Flowchart.Color
import Flowchart.Mermaid
import Flowchart.Compile
import Flowchart.Lint
import Flowchart.Rename
import Flowchart.Fence
import Flowchart.Ink
import Flowchart.Sibling
import Flowchart.Debounce
import Flowchart.Decimal.Reading
import Flowchart.Toml.Value
import Flowchart.Toml.Reader
import Flowchart.Settings.Store
import Flowchart.Command.Run
import Flowchart.Main
import Flowchart.Proofs.Reading.Groups
import Flowchart.Proofs.Lint.Walk
import Flowchart.Proofs.Mermaid.Unique
import Flowchart.Proofs.Lint.Agreement
import Flowchart.Proofs.Lint.Balance
import Flowchart.Proofs.Lint.Collision
import Flowchart.Proofs.Property
import Flowchart.Proofs.Draft.Basic
import Flowchart.Proofs.Draft.Lines
import Flowchart.Proofs.Draft.RoundTrip
import Flowchart.Proofs.Lint.Dangling
import Flowchart.Proofs.Debounce.Run
import Flowchart.Proofs.Debounce.Independence
import Flowchart.Proofs.Debounce.History
import Flowchart.Proofs.Lint.Markup
import Flowchart.Proofs.Except
import Flowchart.Proofs.Text.Utf8
import Flowchart.Proofs.Command.Effects
import Flowchart.Proofs.Command.InPlace
import Flowchart.Proofs.Settings.History
import Flowchart.Proofs.Reading.Joining
import Flowchart.Proofs.Lint.Renumbering
import Flowchart.Proofs.Markdown.Recovered
import Flowchart.Proofs.Watch.Start
import Flowchart.Proofs.Ink.Address
import Flowchart.Proofs.Markdown.Foreign
import Flowchart.Proofs.Settings.Fallback
import Flowchart.Proofs.Settings.Saving
import Flowchart.Proofs.Watch.Single
import Flowchart.Proofs.Rename.Reversal
import Flowchart.Proofs.Rename.Completeness
import Flowchart.Proofs.Chain.Reversal
import Flowchart.Proofs.Ident.Sharing
import Flowchart.Proofs.Markdown.Search
import Flowchart.Proofs.Rename.Touched
import Flowchart.Proofs.Property.Listing
import Flowchart.Proofs.Declaration.Split
import Flowchart.Proofs.Declaration.Alike
import Flowchart.Proofs.Chain.Splitting
import Flowchart.Proofs.Ident.Normal
import Flowchart.Proofs.Lint.Connected
import Flowchart.Proofs.Settings.Suffix
import Flowchart.Proofs.Watch.Sources
import Flowchart.Proofs.Chain.Labels
