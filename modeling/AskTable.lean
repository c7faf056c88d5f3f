import AskTable.Answer.Report
import AskTable.Calendar.Date
import AskTable.Calendar.Draft
import AskTable.Calendar.Parts
import AskTable.Calendar.Spelling
import AskTable.Calendar.Standard
import AskTable.Calendar.Token
import AskTable.Dialogue.Answering
import AskTable.Dialogue.Asking
import AskTable.Dialogue.Basic
import AskTable.Dialogue.ChatClient
import AskTable.Dialogue.Planning
import AskTable.Fault
import AskTable.Json.Reader
import AskTable.Json.Repair
import AskTable.Json.Writer
import AskTable.Number.Binary
import AskTable.Number.Reading
import AskTable.Number.Shortest
import AskTable.Proofs.Record
import AskTable.Proofs.Walk
import AskTable.Query.Execution
import AskTable.Query.Field
import AskTable.Query.Matching
import AskTable.Query.Plan
import AskTable.Query.PlanDocument
import AskTable.Query.Recency
import AskTable.Query.Search
import AskTable.Question.Rules
import AskTable.Question.Subject
import AskTable.Question.Time
import AskTable.Session
import AskTable.Settings
import AskTable.Table.Column
import AskTable.Table.Loading
import AskTable.Table.Profile
import AskTable.Table.Record
import AskTable.Table.Snapshot
import AskTable.Text.Basic
import AskTable.Text.Case
import AskTable.Text.CaseTable
import AskTable.Text.Letter
import AskTable.Text.Pattern
import AskTable.Text.Ranges
import AskTable.Text.Similarity
import AskTable.Text.Visible
import AskTable.Value
import AskTable.Web.Service
import AskTable.Proofs.Cell
import AskTable.Proofs.Execution
import AskTable.Proofs.Degradation
import AskTable.Proofs.Isolation
import AskTable.Proofs.Questioning
import AskTable.Proofs.Readable
import AskTable.Proofs.Feasible
import AskTable.Proofs.Planning
import AskTable.Proofs.Answerable
import AskTable.Proofs.Planned
import AskTable.Proofs.Unavailable
import AskTable.Proofs.Protocol
import AskTable.Proofs.Scope
import AskTable.Proofs.Counting
import AskTable.Proofs.HowMany
import AskTable.Proofs.Namesake
import AskTable.Proofs.CellQuestion
import AskTable.Proofs.CellText
import AskTable.Proofs.Lifecycle
import AskTable.Proofs.Index
import AskTable.Proofs.Locality
import AskTable.Proofs.Ranking
import AskTable.Proofs.Recovery
import AskTable.Proofs.Keyword
import AskTable.Proofs.TextTable
import AskTable.Proofs.Ingestion
import AskTable.Proofs.Entries
import AskTable.Proofs.Naming
import AskTable.Proofs.Numeral
import AskTable.Proofs.Reordering
import AskTable.Proofs.SmallForm
import AskTable.Proofs.ColumnPhrase
import AskTable.Proofs.Clauses
import AskTable.Proofs.Reloading
import AskTable.Proofs.Newest
import AskTable.Proofs.Mending
import AskTable.Proofs.Lexeme
import AskTable.Proofs.Corrections
import AskTable.Proofs.Repairing
import AskTable.Proofs.Grammar
import AskTable.Proofs.Reading
import AskTable.Proofs.Rendering
import AskTable.Proofs.Roundtrip
import AskTable.Proofs.Rounding
import AskTable.Proofs.DecimalText
import AskTable.Proofs.Placement
import AskTable.Proofs.WholeNumber
import AskTable.Proofs.Separators
import AskTable.Proofs.DateText
import AskTable.Proofs.NumberQuestion
import AskTable.Proofs.NumberLookup
import AskTable.Proofs.FirstDate
import AskTable.Proofs.KeywordChoice
import AskTable.Proofs.Wording
import AskTable.Proofs.Passage
import AskTable.Proofs.Periods
import AskTable.Proofs.PlaceCount
import AskTable.Proofs.Contents
import AskTable.Proofs.DistinctValues
import AskTable.Proofs.MostRecent
import AskTable.Proofs.WrittenJson
import AskTable.Proofs.Prompt
import AskTable.Proofs.Resolution
import AskTable.Proofs.Lines
import AskTable.Proofs.Listing
import AskTable.Proofs.LiteralText
