import TokenRegistry.Address
import TokenRegistry.Amount
import TokenRegistry.Attempt
import TokenRegistry.Bytes
import TokenRegistry.Coins.Json
import TokenRegistry.Command
import TokenRegistry.Command.Json
import TokenRegistry.Config
import TokenRegistry.Config.File
import TokenRegistry.Error
import TokenRegistry.Event.Json
import TokenRegistry.Genesis.Json
import TokenRegistry.Json.Basic
import TokenRegistry.Json.Double
import TokenRegistry.Json.Flaw
import TokenRegistry.Json.Numeral
import TokenRegistry.Json.Printer
import TokenRegistry.Json.Reader
import TokenRegistry.Json.Scanner
import TokenRegistry.Json.Variant
import TokenRegistry.Ledger.Balances
import TokenRegistry.Ledger.Faulty
import TokenRegistry.OrderedMap
import TokenRegistry.Registry
import TokenRegistry.Registry.Command
import TokenRegistry.Registry.Compensation
import TokenRegistry.Registry.Genesis
import TokenRegistry.Registry.Query
import TokenRegistry.Sha256
import TokenRegistry.Slug
import TokenRegistry.Slug.Transliteration
import TokenRegistry.Store
import TokenRegistry.Store.Backend
import TokenRegistry.Store.Disk
import TokenRegistry.Store.Faulty
import TokenRegistry.Store.Location
import TokenRegistry.Store.Memory
import TokenRegistry.Store.Table
import TokenRegistry.Store.Target
import TokenRegistry.Text.Hex
import TokenRegistry.Text.Invisible
import TokenRegistry.Text.Percent
import TokenRegistry.Text.Quoted
import TokenRegistry.Text.Utf8
import TokenRegistry.Token
import TokenRegistry.Token.Record
import TokenRegistry.Proofs.Amount
import TokenRegistry.Proofs.Text.Hex
import TokenRegistry.Proofs.Coins
import TokenRegistry.Proofs.Ledger.Balances
import TokenRegistry.Proofs.Token.Record
import TokenRegistry.Proofs.Attempt
import TokenRegistry.Proofs.Registry.Simulation
import TokenRegistry.Proofs.Scripted
import TokenRegistry.Proofs.Store.Working
import TokenRegistry.Proofs.Command
import TokenRegistry.Proofs.Registry.Effect
import TokenRegistry.Proofs.Registry.Atomicity
import TokenRegistry.Proofs.Registry.Acceptance
import TokenRegistry.Proofs.Genesis
import TokenRegistry.Proofs.Registry.Soundness
import TokenRegistry.Proofs.Registry.Agreement
import TokenRegistry.Proofs.Registry.History
import TokenRegistry.Proofs.Registry.CommandTable
import TokenRegistry.Proofs.Registry.Independence
import TokenRegistry.Proofs.Store.Paging
import TokenRegistry.Proofs.Store.Interleaving
import TokenRegistry.Proofs.Store.Replies
import TokenRegistry.Proofs.Json.Literal
import TokenRegistry.Proofs.Json.Numeral
import TokenRegistry.Proofs.Json.Written
import TokenRegistry.Proofs.Json.Outline
import TokenRegistry.Proofs.Json.RoundTrip
import TokenRegistry.Proofs.Registry.Export
import TokenRegistry.Proofs.Json.Source
import TokenRegistry.Proofs.Json.Variant
import TokenRegistry.Proofs.Json.Sorted
import TokenRegistry.Proofs.Command.Json
import TokenRegistry.Proofs.Command.Signing
import TokenRegistry.Proofs.Config
import TokenRegistry.Proofs.Registry.Query
import TokenRegistry.Proofs.Store.Reading
import TokenRegistry.Proofs.Store.Faithful
import TokenRegistry.Proofs.Registry.Projection
import TokenRegistry.Proofs.Registry.Rewriting
import TokenRegistry.Proofs.Registry.Corruption
import TokenRegistry.Proofs.Registry.Filing
import TokenRegistry.Proofs.Slug
import TokenRegistry.Proofs.Registry.Naming
import TokenRegistry.Proofs.Ledger.Total
import TokenRegistry.Proofs.Registry.EventTrail
import TokenRegistry.Proofs.Ledger.Debit
import TokenRegistry.Proofs.Ledger.Conservation
import TokenRegistry.Proofs.Slug.Language
import TokenRegistry.Proofs.Slug.Words
import TokenRegistry.Proofs.Slug.Lookalike
import TokenRegistry.Proofs.Coins.Canonical
import TokenRegistry.Proofs.Ledger.Entries
import TokenRegistry.Proofs.Amount.Grammar
import TokenRegistry.Proofs.Registry.Loading
import TokenRegistry.Proofs.Token.Format
import TokenRegistry.Proofs.Watched
import TokenRegistry.Proofs.Registry.ClientErrors
import TokenRegistry.Proofs.Address
import TokenRegistry.Proofs.Amount.Canonical
