import PatternQuery.Number.Shortest
import PatternQuery.Text.Alphanumeric
import PatternQuery.Text.Casing
import PatternQuery.Text.Blank
import PatternQuery.Text.Search
import PatternQuery.Data.Table
import PatternQuery.Data.Document
import PatternQuery.Data.Json
import PatternQuery.Yaml.Reader
import PatternQuery.Attribute
import PatternQuery.Variables
import PatternQuery.Schema
import PatternQuery.Catalogue.Provider
import PatternQuery.Statement.Settings
import PatternQuery.Diagram.Prune
import PatternQuery.Statement.Compile
import PatternQuery.Statement.Overview
import PatternQuery.Endpoint.Response
import PatternQuery.Endpoint.Exchange
import PatternQuery.Session.Event
import PatternQuery.Session.Edit
import PatternQuery.Session.Run
import PatternQuery.Session.Rehearsal
import PatternQuery.EnvironmentFile
import PatternQuery.CommandLine.Arguments
import PatternQuery.CommandLine.Run
import PatternQuery.Main
import PatternQuery.Proofs.Diagram.Tree
import PatternQuery.Proofs.Statement.Relevance
import PatternQuery.Proofs.Session.Currency
import PatternQuery.Proofs.Session.Supersession
import PatternQuery.Proofs.Statement.Placeholders
import PatternQuery.Proofs.Request.Acceptance
import PatternQuery.Proofs.Request.Guard
import PatternQuery.Proofs.Statement.Masking
import PatternQuery.Proofs.Session.Offering
import PatternQuery.Proofs.Diagram.Orphans
import PatternQuery.Proofs.Diagram.Naming
import PatternQuery.Proofs.Statement.IdleOperations
import PatternQuery.Proofs.Session.Completion
import PatternQuery.Proofs.Session.BareNegations
import PatternQuery.Proofs.Diagram.PinsMatch
import PatternQuery.Proofs.Data.Formats
import PatternQuery.Proofs.Statement.Resets
import PatternQuery.Proofs.Session.Telling
import PatternQuery.Proofs.Session.Failing
import PatternQuery.Proofs.Session.Commuting
import PatternQuery.Proofs.Session.Unfolding
import PatternQuery.Proofs.Session.Listening
import PatternQuery.Proofs.Diagram.Paging
import PatternQuery.Proofs.Catalogue.Inheritance
import PatternQuery.Proofs.Diagram.Unrolling
import PatternQuery.Proofs.Diagram.Unselecting
import PatternQuery.Proofs.Statement.Undoing
import PatternQuery.Proofs.Data.Columns
import PatternQuery.Proofs.Statement.Discovery
import PatternQuery.Proofs.Session.Provenance
import PatternQuery.Proofs.Session.Batches
import PatternQuery.Proofs.Data.Answers
import PatternQuery.Proofs.Diagram.PageNumbers
import PatternQuery.Proofs.Session.Climbing
import PatternQuery.Proofs.Session.Captured
