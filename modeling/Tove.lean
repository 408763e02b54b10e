import Tove.Base.Rows
import Tove.Base.Since
import Tove.Base.ReadCommitted
import Tove.Base.Capacity
import Tove.Base.Calls
import Tove.Base.Table
import Tove.Base.Total
import Tove.Base.Rationing
import Tove.Base.UniformPrice
import Tove.Base.Utf8
import Tove.Base.Checks
import Tove.Base.Ledger
import Tove.Base.Movement
import Tove.Base.Digits
import Tove.Base.Transition
import Tove.Base.Twins
import Tove.Base.History
import Tove.Base.Json
import Tove.Base.OneShot
import Tove.Base.Nesting
import Tove.Js
import Tove.Soroban
import Tove.Relayer.Xdr
import Tove.Relayer.Passkey
import Tove.Relayer.Reading
import Tove.Relayer.AcceptInvocation
import Tove.Relayer.Exact
import Tove.Relayer.BidAuthorization
import Tove.Relayer.CancelAuthorization
import Tove.Relayer.PasskeyAuthorization
import Tove.Relayer.ExactVerifiers
import Tove.Relayer.AcceptAuthorization
import Tove.Relayer.AcceptSoundness
import Tove.Relayer.AcceptCompleteness
import Tove.Idempotency.Store
import Tove.Idempotency.Ownership
import Tove.Clearing.Compute
import Tove.Clearing.Correct
import Tove.Clearing.Belt
import Tove.Clearing.Complete
import Tove.Escrow.Contract
import Tove.Escrow.Calls
import Tove.Escrow.Settle
import Tove.Escrow.Solvency
import Tove.Escrow.Bidders
import Tove.Escrow.Noninterference
import Tove.Escrow.Effects
import Tove.Escrow.Conservation
import Tove.Escrow.Settleable
import Tove.Escrow.Exit
import Tove.Escrow.Arithmetic
import Tove.Agreement
import Tove.Amounts
import Tove.Relay.Worker
import Tove.Relay.Safety
import Tove.Bids.EscrowWorker
import Tove.Bids.CancelWorker
import Tove.Marketplace.Settler
import Tove.Marketplace.Trades
import Tove.Marketplace.SettleWorker
import Tove.Marketplace.SettleSafety
import Tove.Marketplace.SettleProgress
import Tove.Marketplace.Accept
import Tove.Marketplace.AcceptSafety
import Tove.Marketplace.FailureSafety
import Tove.Marketplace.Authorize
import Tove.Marketplace.Commitment
import Tove.Marketplace.Registry
import Tove.Marketplace.Roles
import Tove.Marketplace.Quotes
import Tove.Marketplace.Exchange
import Tove.Marketplace.ExchangeLedger
import Tove.Marketplace.ExchangeProgress
import Tove.Marketplace.Statuses
import Tove.Marketplace.StatusSafety
import Tove.Token.Contract
import Tove.Token.Calls
import Tove.Token.Configuration
import Tove.Token.Lockup
import Tove.Token.Conservation
import Tove.Fractions.DeployWorker
import Tove.Fractions.DeployAgreement
import Tove.Gating
import Tove.Token.Compliance
import Tove.Token.Trade
import Tove.Token.Arithmetic
import Tove.Token.Upgrade
import Tove.Token.Recovery
import Tove.Escrow.Lifecycle
import Tove.Distribution
import Tove.Deployment
import Tove.Offerings.Rows
import Tove.Offerings.Settle
import Tove.Offerings.Book
import Tove.Offerings.BidBook
import Tove.Offerings.BidBookSafety
import Tove.Offerings.Custody
import Tove.Offerings.Receipts
import Tove.Offerings.Approvals
import Tove.Offerings.Quorum
import Tove.Offerings.Persist
import Tove.Offerings.PersistSafety
import Tove.Wallets.Rotation
import Tove.Wallets.RotationLedger
import Tove.Wallets.RotationSafety
import Tove.Users.ProfileImageSafety
import Tove.Users.ProfileImages
import Tove.Wallets.Export
import Tove.Wallets.ExportSafety
import Tove.Wallets.Primary
import Tove.Wallets.PrimarySafety
import Tove.Auth.RefreshTokens
import Tove.Auth.RefreshSafety
import Tove.Auth.Challenges
import Tove.Auth.ChallengeLedger
import Tove.Auth.ChallengeSafety
import Tove.Kyc.Submit
import Tove.Kyc.SubmitSafety
import Tove.Fractions.RunBounded
import Tove.Fractions.RunBoundedSafety
import Tove.Fractions.RunBoundedCorrect
import Tove.Money.Codecs
import Tove.Money.CodecsAgree
import Tove.Base.Keyset
import Tove.Base.Base64
import Tove.Numbers
import Tove.Dates
import Tove.Timeline.Cursor
import Tove.Timeline.Service
import Tove.Timeline.Pagination
import Tove.Base.Changelog
import Tove.Token.Observer
import Tove.RegistryAnchor
import Tove.Marketplace.RfqFanout
import Tove.Marketplace.RfqFanoutSafety
import Tove.Base.Exclusion
import Tove.Relayer.AccountLock
import Tove.Relayer.LockSafety
import Tove.Wallets.Factory
import Tove.Auth.Passkeys
import Tove.Auth.PasskeyLedger
import Tove.Auth.PasskeySafety
