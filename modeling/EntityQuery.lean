import EntityQuery.Calendar.Date
import EntityQuery.Calendar.DateText
import EntityQuery.Error.Basic
import EntityQuery.Error.Defect
import EntityQuery.Method.Criteria
import EntityQuery.Method.Descriptor
import EntityQuery.Number.Binary64
import EntityQuery.Number.RealReader
import EntityQuery.Number.RealText
import EntityQuery.Number.Shortest
import EntityQuery.Number.Whole
import EntityQuery.Number.Word
import EntityQuery.Paging.Envelope
import EntityQuery.Paging.Request
import EntityQuery.Query.Basic
import EntityQuery.Query.Predicate
import EntityQuery.Query.Shape
import EntityQuery.Query.SortOrder
import EntityQuery.Repository.Arguments
import EntityQuery.Repository.Basic
import EntityQuery.Repository.BuiltIn
import EntityQuery.Repository.Call
import EntityQuery.Repository.Definition
import EntityQuery.Repository.Probe
import EntityQuery.Result.Mapping
import EntityQuery.Result.Projected
import EntityQuery.Result.Record
import EntityQuery.Result.Target
import EntityQuery.Schema.Basic
import EntityQuery.Schema.Entity
import EntityQuery.Schema.Path
import EntityQuery.Schema.PropertyMatch
import EntityQuery.Schema.Resolution
import EntityQuery.Settings.Basic
import EntityQuery.Settings.Paging
import EntityQuery.Settings.Setting
import EntityQuery.Settings.Toml.Document
import EntityQuery.Settings.Toml.Scalar
import EntityQuery.Sql.Bulk
import EntityQuery.Sql.CompileDefect
import EntityQuery.Sql.Condition
import EntityQuery.Sql.JoinPlan
import EntityQuery.Sql.Native
import EntityQuery.Sql.Select
import EntityQuery.Sql.SelectList
import EntityQuery.Sql.Statement
import EntityQuery.Store.Connection
import EntityQuery.Store.Exchange
import EntityQuery.Store.Failure
import EntityQuery.Store.Session
import EntityQuery.Store.Sharing
import EntityQuery.Store.Table
import EntityQuery.Template.Grammar
import EntityQuery.Template.Meaning
import EntityQuery.Template.Syntax
import EntityQuery.Text.Blank
import EntityQuery.Text.CamelWords
import EntityQuery.Text.CodeRun
import EntityQuery.Text.DecimalDigit
import EntityQuery.Text.Json
import EntityQuery.Text.LetterCase
import EntityQuery.Text.Quoted
import EntityQuery.Text.Reader
import EntityQuery.Text.Unprintable
import EntityQuery.Text.Utf8
import EntityQuery.Value.Basic
import EntityQuery.Value.ReadFault
import EntityQuery.Value.Row
import EntityQuery.Value.Stored
import EntityQuery.Proofs.Plan.Growth
import EntityQuery.Proofs.Plan.Needs
import EntityQuery.Proofs.Plan.Planning
import EntityQuery.Proofs.Plan.Scope
import EntityQuery.Proofs.Plan.Insisted
import EntityQuery.Proofs.Rows.Database
import EntityQuery.Proofs.Rows.Joined
import EntityQuery.Proofs.Rows.Meaning
import EntityQuery.Proofs.Rows.Selected
import EntityQuery.Proofs.Method.Clause
import EntityQuery.Proofs.Method.Consumption
import EntityQuery.Proofs.Method.Spelling
import EntityQuery.Proofs.Method.Splitting
import EntityQuery.Proofs.Number.WholeText
import EntityQuery.Proofs.Store.Exclusion
import EntityQuery.Proofs.Schema.Matching
import EntityQuery.Proofs.Schema.Longest
import EntityQuery.Proofs.Template.Conditions
import EntityQuery.Proofs.Template.Printed
import EntityQuery.Proofs.Template.RoundTrip
import EntityQuery.Proofs.Template.Tokens
import EntityQuery.Proofs.Text.Reading
import EntityQuery.Proofs.Text.Words
import EntityQuery.Proofs.Paging.Windows
import EntityQuery.Proofs.Paging.Walks
import EntityQuery.Proofs.Plan.Fetching
import EntityQuery.Proofs.Result.Cells
import EntityQuery.Proofs.Result.Labels
import EntityQuery.Proofs.Result.Decoded
import EntityQuery.Proofs.Plan.Progress
import EntityQuery.Proofs.Views.Columns
import EntityQuery.Proofs.Rows.Answers
import EntityQuery.Proofs.Views.Shown
import EntityQuery.Proofs.Views.Agreement
import EntityQuery.Proofs.Schema.Joinable
import EntityQuery.Proofs.Plan.Acceptance
import EntityQuery.Proofs.Plan.Rendered
import EntityQuery.Proofs.Plan.Resorted
import EntityQuery.Proofs.Method.Accepted
import EntityQuery.Proofs.Template.Accepted
import EntityQuery.Proofs.Repository.Accepted
import EntityQuery.Proofs.Repository.Calls
import EntityQuery.Proofs.Repository.Alike
import EntityQuery.Proofs.Repository.Prepared
import EntityQuery.Proofs.Repository.Compiling
import EntityQuery.Proofs.Repository.Defects
import EntityQuery.Proofs.Statement.Pieces
import EntityQuery.Proofs.Statement.Compared
import EntityQuery.Proofs.Statement.MarkFree
import EntityQuery.Proofs.Statement.Values
import EntityQuery.Proofs.Plan.Requested
import EntityQuery.Proofs.Plan.Retargeted
import EntityQuery.Proofs.Rows.Honoured
import EntityQuery.Proofs.Rows.Distinct
import EntityQuery.Proofs.Result.Loaded
import EntityQuery.Proofs.Repository.Deferral
import EntityQuery.Proofs.Repository.Deferred
import EntityQuery.Proofs.Repository.Resolving
import EntityQuery.Proofs.Result.Told
import EntityQuery.Proofs.Repository.Absent
import EntityQuery.Proofs.Result.Arguments
import EntityQuery.Proofs.Result.Parameters
import EntityQuery.Proofs.Result.Listed
import EntityQuery.Proofs.Repository.Answered
import EntityQuery.Proofs.Template.Selected
import EntityQuery.Proofs.Repository.Constructors
import EntityQuery.Proofs.Template.Tuples
import EntityQuery.Proofs.Result.TableRows
import EntityQuery.Proofs.Statement.Slots
import EntityQuery.Proofs.Template.Comparisons
import EntityQuery.Proofs.Template.Parameters
import EntityQuery.Proofs.Repository.Counted
import EntityQuery.Proofs.Schema.Composed
import EntityQuery.Proofs.Template.Mentioned
import EntityQuery.Proofs.Calendar.DateText
import EntityQuery.Proofs.Value.Recovered
import EntityQuery.Proofs.Result.Fields
import EntityQuery.Proofs.Repository.ByExample
import EntityQuery.Proofs.Result.Coerced
import EntityQuery.Proofs.Statement.Holes
import EntityQuery.Proofs.Statement.Lists
import EntityQuery.Proofs.Repository.Sent
import EntityQuery.Proofs.Repository.NativeOrder
import EntityQuery.Proofs.Rows.Unsorted
import EntityQuery.Proofs.Repository.CountOrder
import EntityQuery.Proofs.Rows.Touched
import EntityQuery.Proofs.Repository.Quiet
import EntityQuery.Proofs.Repository.Invalidated
import EntityQuery.Proofs.Store.Failing
import EntityQuery.Proofs.Store.Origins
import EntityQuery.Proofs.Store.PlainRuns
import EntityQuery.Proofs.Method.Modifiers
import EntityQuery.Proofs.Method.OwnNames
import EntityQuery.Proofs.Repository.Limited
import EntityQuery.Proofs.Rows.CountedArguments
import EntityQuery.Proofs.Template.Precedence
import EntityQuery.Proofs.Statement.Arithmetic
import EntityQuery.Proofs.Statement.Placeholders
import EntityQuery.Proofs.Template.WrittenParameters
import EntityQuery.Proofs.Template.Numbering
import EntityQuery.Proofs.Template.SlotNumbers
import EntityQuery.Proofs.Statement.Numbered
import EntityQuery.Proofs.Schema.Columns
import EntityQuery.Proofs.Paging.Sizes
import EntityQuery.Proofs.Schema.Hops
import EntityQuery.Proofs.Statement.Readings
import EntityQuery.Proofs.Statement.Concatenated
import EntityQuery.Proofs.Text.Names
