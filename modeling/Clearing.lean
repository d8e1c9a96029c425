import Clearing.Config
import Clearing.Desk.Recovery
import Clearing.Http.Router
import Clearing.Json.Status
import Clearing.Node.Exchange
import Clearing.Notice.Channel
import Clearing.Proofs.Funds
import Clearing.Proofs.LedgerOps
import Clearing.Proofs.Turns
import Clearing.Proofs.Interleaving
import Clearing.Proofs.Latch
import Clearing.Proofs.LinkedTx
import Clearing.Proofs.Restart
import Clearing.Proofs.Settlement
import Clearing.Proofs.Transactions
import Clearing.Proofs.Service
import Clearing.Proofs.StatusText
import Clearing.Proofs.Numerals
import Clearing.Proofs.StatusGrammar
import Clearing.Proofs.MergeOrder
import Clearing.Proofs.WalletCalls
import Clearing.Proofs.PaymentProgress
import Clearing.Proofs.Defaults
import Clearing.Proofs.Currencies
import Clearing.Proofs.TrackSteps
import Clearing.Proofs.Registrations
import Clearing.Proofs.WatchedPayments
import Clearing.Proofs.SharedAddresses
import Clearing.Proofs.Refusals
import Clearing.Proofs.BalanceRange
import Clearing.Proofs.Addresses
import Clearing.Proofs.Courses
import Clearing.Proofs.Parties
import Clearing.Proofs.LinkedDepth
import Clearing.Proofs.NoticeSteps
import Clearing.Proofs.Notices
import Clearing.Proofs.StoredPayments
import Clearing.Proofs.ConcurrentCalls
import Clearing.Proofs.JobSteps
import Clearing.Proofs.LiveWatches
import Clearing.Proofs.Rounds
import Clearing.Proofs.BoundedRetries
import Clearing.Proofs.Outcomes
import Clearing.Proofs.Moments
import Clearing.Proofs.QuietWatches
import Clearing.Proofs.Pacing
import Clearing.Proofs.OpenWork
import Clearing.Proofs.Environments
import Clearing.Proofs.Signatures
import Clearing.Proofs.WatchTurns
import Clearing.Proofs.Polls
