import Matchmaking.Assembly
import Matchmaking.Attribute
import Matchmaking.Backfill
import Matchmaking.CommandLine
import Matchmaking.CommandLine.Run
import Matchmaking.Config
import Matchmaking.Dict
import Matchmaking.Engine.Batch
import Matchmaking.Engine.Feed
import Matchmaking.Engine.Lobby
import Matchmaking.Engine.Run
import Matchmaking.Formation
import Matchmaking.Instant
import Matchmaking.Instant.Calendar
import Matchmaking.Instant.Text
import Matchmaking.Json
import Matchmaking.Json.Printer
import Matchmaking.Json.Reader
import Matchmaking.Json.Record
import Matchmaking.Json.Token
import Matchmaking.Main
import Matchmaking.Merge
import Matchmaking.Metrics
import Matchmaking.Metrics.Exposition
import Matchmaking.NameSet
import Matchmaking.Number.Decimal
import Matchmaking.Number.Double
import Matchmaking.Number.Radix
import Matchmaking.Number.Rational
import Matchmaking.Number.Scalar
import Matchmaking.Number.Shortest
import Matchmaking.Number.Total
import Matchmaking.Number.Word
import Matchmaking.Order
import Matchmaking.Orderings
import Matchmaking.Packing
import Matchmaking.Pivot
import Matchmaking.Proofs.Accord
import Matchmaking.Proofs.Alliance
import Matchmaking.Proofs.Assembly
import Matchmaking.Proofs.Attribute
import Matchmaking.Proofs.Backfill.Anchor
import Matchmaking.Proofs.Backfill.Blocks
import Matchmaking.Proofs.Backfill.Capacity
import Matchmaking.Proofs.Backfill.Closed
import Matchmaking.Proofs.Backfill.Conservation
import Matchmaking.Proofs.Backfill.Eligibility
import Matchmaking.Proofs.Backfill.Growth
import Matchmaking.Proofs.Backfill.Life
import Matchmaking.Proofs.Backfill.Listing
import Matchmaking.Proofs.Backfill.Means
import Matchmaking.Proofs.Backfill.Options
import Matchmaking.Proofs.Backfill.Parties
import Matchmaking.Proofs.Backfill.Platforms
import Matchmaking.Proofs.Backfill.Roles
import Matchmaking.Proofs.Backfill.Turns
import Matchmaking.Proofs.Bystander
import Matchmaking.Proofs.Casting
import Matchmaking.Proofs.Dict
import Matchmaking.Proofs.Distribution
import Matchmaking.Proofs.Echoes
import Matchmaking.Proofs.Engine.Delivery
import Matchmaking.Proofs.Engine.Feed
import Matchmaking.Proofs.Engine.Intake
import Matchmaking.Proofs.Engine.Line
import Matchmaking.Proofs.Engine.Overtaking
import Matchmaking.Proofs.Enumeration
import Matchmaking.Proofs.Flexing
import Matchmaking.Proofs.Formation.Agreement
import Matchmaking.Proofs.Formation.Alone
import Matchmaking.Proofs.Formation.Bystander
import Matchmaking.Proofs.Formation.Completion
import Matchmaking.Proofs.Formation.Conservation
import Matchmaking.Proofs.Formation.EarlyStop
import Matchmaking.Proofs.Formation.Founding
import Matchmaking.Proofs.Formation.Leftover
import Matchmaking.Proofs.Formation.Listing
import Matchmaking.Proofs.Formation.Loop
import Matchmaking.Proofs.Formation.Manned
import Matchmaking.Proofs.Formation.Players
import Matchmaking.Proofs.Formation.ReadyTeams
import Matchmaking.Proofs.Formation.Round
import Matchmaking.Proofs.Formation.Shape
import Matchmaking.Proofs.Formation.Succession
import Matchmaking.Proofs.Formation.Uniform
import Matchmaking.Proofs.Independence
import Matchmaking.Proofs.Instant.Calendar
import Matchmaking.Proofs.Instant.Text
import Matchmaking.Proofs.Interleaving
import Matchmaking.Proofs.Json.Record
import Matchmaking.Proofs.Json.Text
import Matchmaking.Proofs.Json.Token
import Matchmaking.Proofs.Maximality
import Matchmaking.Proofs.Merge
import Matchmaking.Proofs.Merge.Stepwise
import Matchmaking.Proofs.Mutuality
import Matchmaking.Proofs.Numeral
import Matchmaking.Proofs.Orderings
import Matchmaking.Proofs.Oversize
import Matchmaking.Proofs.Packing
import Matchmaking.Proofs.Quotas
import Matchmaking.Proofs.Records
import Matchmaking.Proofs.Refusals
import Matchmaking.Proofs.Regions
import Matchmaking.Proofs.Relisting
import Matchmaking.Proofs.RoleFlexing
import Matchmaking.Proofs.RoleTally
import Matchmaking.Proofs.Roster
import Matchmaking.Proofs.Rules.Load
import Matchmaking.Proofs.Rules.Record
import Matchmaking.Proofs.Search
import Matchmaking.Proofs.Seating
import Matchmaking.Proofs.Selection
import Matchmaking.Proofs.Session.Record
import Matchmaking.Proofs.Ticket
import Matchmaking.Proofs.Ticket.Record
import Matchmaking.Proofs.Tolerances
import Matchmaking.Proofs.Totals
import Matchmaking.Proofs.Waiting
import Matchmaking.Region
import Matchmaking.RoleTally
import Matchmaking.Rules.Admission
import Matchmaking.Rules.Alliance
import Matchmaking.Rules.Fault
import Matchmaking.Rules.Flexing
import Matchmaking.Rules.Record
import Matchmaking.Rules.Role
import Matchmaking.Rules.RoleFlexing
import Matchmaking.Rules.RuleSet
import Matchmaking.Search
import Matchmaking.Session
import Matchmaking.Session.Progress
import Matchmaking.Session.Record
import Matchmaking.Simulation
import Matchmaking.Text.Blank
import Matchmaking.Text.Identifier
import Matchmaking.Ticket
import Matchmaking.Ticket.Record
import Matchmaking.Toml
import Matchmaking.Toml.Table
import Matchmaking.Toml.Text
import Matchmaking.Toml.Value
