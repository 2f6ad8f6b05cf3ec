import Rulebook.Catalog.Basic
import Rulebook.Catalog.FieldType
import Rulebook.Command.Error
import Rulebook.Command.Line
import Rulebook.Command.Printing
import Rulebook.Command.Run
import Rulebook.Draft
import Rulebook.Error
import Rulebook.Json.Decode
import Rulebook.Json.Document
import Rulebook.Json.Opaque
import Rulebook.Json.Reader
import Rulebook.Json.Record
import Rulebook.Json.Text
import Rulebook.Json.Token
import Rulebook.Json.Value
import Rulebook.Keyed
import Rulebook.Main
import Rulebook.Number.Binary
import Rulebook.Number.Decimal
import Rulebook.Number.Layout
import Rulebook.Number.Literal
import Rulebook.Number.Numeral
import Rulebook.Number.Scaling
import Rulebook.Number.Threshold
import Rulebook.Proofs.Ruleset.SingleActive
import Rulebook.Proofs.Ruleset.Validity
import Rulebook.Report.Basic
import Rulebook.Report.Paint
import Rulebook.Report.Table
import Rulebook.Rule.Basic
import Rulebook.Rule.Check
import Rulebook.Rule.Decision
import Rulebook.Rule.Decode
import Rulebook.Rule.Describe
import Rulebook.Rule.Encode
import Rulebook.Rule.Load
import Rulebook.Rule.Operator
import Rulebook.Rule.Status
import Rulebook.Ruleset.Basic
import Rulebook.Ruleset.Check
import Rulebook.Ruleset.Edit
import Rulebook.Ruleset.History
import Rulebook.Ruleset.Status
import Rulebook.Ruleset.Version
import Rulebook.Ruleset.VersionEdit
import Rulebook.Settings.Basic
import Rulebook.Settings.Toml
import Rulebook.Text.Blank
import Rulebook.Text.Quoted
import Rulebook.Text.Ranges
import Rulebook.Text.Shown
import Rulebook.Text.Uppercase
import Rulebook.Text.Width
import Rulebook.Proofs.Json.Members
import Rulebook.Proofs.Ruleset.FirstItem
import Rulebook.Proofs.Ruleset.Entries
import Rulebook.Proofs.Ruleset.Approval
import Rulebook.Proofs.Ruleset.Loaded
import Rulebook.Proofs.Ruleset.ModeSwitch
import Rulebook.Proofs.Ruleset.Place
import Rulebook.Proofs.Ruleset.Frame
import Rulebook.Proofs.Ruleset.Progress
import Rulebook.Proofs.Ruleset.Trail
import Rulebook.Proofs.Number.Value
import Rulebook.Proofs.Number.Rounding
import Rulebook.Proofs.Number.Threshold
import Rulebook.Proofs.Rule.WellFormed
import Rulebook.Proofs.Number.ReadBack
import Rulebook.Proofs.Rule.Meaning
import Rulebook.Proofs.Rule.Wording
import Rulebook.Proofs.Rule.Sentence
import Rulebook.Proofs.Rule.Uniform
import Rulebook.Proofs.Number.Digits
import Rulebook.Proofs.Text.Words
import Rulebook.Proofs.Json.Order
import Rulebook.Proofs.Json.Record
import Rulebook.Proofs.Json.OrderFree
import Rulebook.Proofs.Json.Numbers
import Rulebook.Proofs.Rule.Node
import Rulebook.Proofs.Rule.Respelled
import Rulebook.Proofs.Rule.OrderFree
import Rulebook.Proofs.Rule.Numbers
import Rulebook.Proofs.Draft.Agreement
import Rulebook.Proofs.Draft.Resubmission
import Rulebook.Proofs.Ruleset.Precedence
import Rulebook.Proofs.Ruleset.Reload
import Rulebook.Proofs.Ruleset.Independence
import Rulebook.Proofs.Ruleset.Opacity
import Rulebook.Proofs.Ruleset.Candidate
import Rulebook.Proofs.Ruleset.Restoration
import Rulebook.Proofs.Ruleset.Reorder
import Rulebook.Proofs.Rule.Flat
import Rulebook.Proofs.Rule.Items
import Rulebook.Proofs.Number.Monotone
import Rulebook.Proofs.Number.Reread
import Rulebook.Proofs.Ruleset.RunOrder
import Rulebook.Proofs.Ruleset.Rearrangement
import Rulebook.Proofs.Ruleset.Succession
import Rulebook.Proofs.Rule.Pieces
import Rulebook.Proofs.Draft.Relevance
import Rulebook.Proofs.Catalog.LastDefinition
import Rulebook.Proofs.Draft.Authorship
import Rulebook.Proofs.Number.Integers
import Rulebook.Proofs.Ruleset.Withdrawal
import Rulebook.Proofs.Command.AllOrNothing
