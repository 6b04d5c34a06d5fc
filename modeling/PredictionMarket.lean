import PredictionMarket.Book
import PredictionMarket.Order.Estimate
import PredictionMarket.Json.Term
import PredictionMarket.Json.Value
import PredictionMarket.Time.Reader
import PredictionMarket.Market.Json
import PredictionMarket.Holdings
import PredictionMarket.Wallet.Effects
import PredictionMarket.Chat.Message
import PredictionMarket.Ranking.Buyer
import PredictionMarket.Transaction.Json
import PredictionMarket.Dialogue
import PredictionMarket.Transaction.Calls
import PredictionMarket.Journal
import PredictionMarket.Store
import PredictionMarket.Flow
import PredictionMarket.Prompt
import PredictionMarket.Chat.Rehearsal
import PredictionMarket.Ranking.Panel
import PredictionMarket.Scope
import PredictionMarket.Settings
import PredictionMarket.Index.Query
import PredictionMarket.App
import PredictionMarket.Publisher
import PredictionMarket.Wallet.Signer
import PredictionMarket.Environment.File
import PredictionMarket.CommandLine.Command
import PredictionMarket.Program.Surroundings
import PredictionMarket.Program.Lines
import PredictionMarket.Program.Setup
import PredictionMarket.Program.Run
import PredictionMarket.Http.Rehearsal
import PredictionMarket.Http.Wire
import PredictionMarket.Program.Rehearsal
import PredictionMarket.Trade.Rehearsal
import PredictionMarket.Main
import PredictionMarket.Proofs.Dialogue
import PredictionMarket.Proofs.Trade.Session
import PredictionMarket.Proofs.Trade.Paths
import PredictionMarket.Proofs.Trade.Funding
import PredictionMarket.Proofs.Transaction.Commands
import PredictionMarket.Proofs.Transaction.Linear
import PredictionMarket.Proofs.Trade.Checks
import PredictionMarket.Proofs.Trade.Submission
import PredictionMarket.Proofs.Trade.Liquidity
import PredictionMarket.Proofs.Trade.Operations
import PredictionMarket.Proofs.Flow.History
import PredictionMarket.Proofs.Flow.Locked
import PredictionMarket.Proofs.Flow.Closing
import PredictionMarket.Proofs.Flow.InFlight
import PredictionMarket.Proofs.Order.Request
import PredictionMarket.Proofs.Flow.Choice
import PredictionMarket.Proofs.Number.Nearest
import PredictionMarket.Proofs.Number.Accuracy
import PredictionMarket.Proofs.Number.Digits
import PredictionMarket.Proofs.Order.Estimate
import PredictionMarket.Proofs.Trade.Payment
import PredictionMarket.Proofs.Flow.Confirmation
import PredictionMarket.Proofs.Number.Threshold
import PredictionMarket.Proofs.Order.Control
import PredictionMarket.Proofs.Transaction.Handles
import PredictionMarket.Proofs.Store.Entries
import PredictionMarket.Proofs.Store.History
import PredictionMarket.Proofs.Journal.Csv
import PredictionMarket.Proofs.Journal.ReadBack
import PredictionMarket.Proofs.Chat.Identity
import PredictionMarket.Proofs.Chat.Schedule
import PredictionMarket.Proofs.Chat.Replies
import PredictionMarket.Proofs.Chat.Rehearsal
import PredictionMarket.Proofs.Trade.Listing
import PredictionMarket.Proofs.Json.Token
import PredictionMarket.Proofs.Json.Term
import PredictionMarket.Proofs.Json.Record
import PredictionMarket.Proofs.Json.Faithful
import PredictionMarket.Proofs.Transaction.Wire
import PredictionMarket.Proofs.Trade.Permission
import PredictionMarket.Proofs.Program.Session
import PredictionMarket.Proofs.Program.Surroundings
import PredictionMarket.Proofs.Program.Trading
import PredictionMarket.Proofs.Program.Signer
import PredictionMarket.Proofs.Flow.Typed
import PredictionMarket.Proofs.Chat.Batches
import PredictionMarket.Proofs.Order.Scaling
import PredictionMarket.Proofs.Index.Replies
import PredictionMarket.Proofs.Market.Ending
import PredictionMarket.Proofs.Number.Places
import PredictionMarket.Proofs.Ranking.Panel
import PredictionMarket.Proofs.Number.Closest
import PredictionMarket.Proofs.Order.Total
import PredictionMarket.Proofs.Order.Shares
import PredictionMarket.Proofs.Book.Amounts
import PredictionMarket.Proofs.Json.Layout
import PredictionMarket.Proofs.Program.Upload
import PredictionMarket.Proofs.Store.Replacement
