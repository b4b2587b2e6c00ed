import LigateApi.Lib.Bytes
import LigateApi.Lib.Keyset
import LigateApi.Lib.Run
import LigateApi.Lib.Liveness
import LigateApi.Lib.Table
import LigateApi.Lib.Rows
import LigateApi.Lib.Cache
import LigateApi.Lib.Ranking
import LigateApi.Lib.Buckets
import LigateApi.Lib.Str
import LigateApi.Drip.RateLimit
import LigateApi.Drip.Signer
import LigateApi.Drip.WebDrip
import LigateApi.Drip.DripStatus
import LigateApi.Drip.BotDrip
import LigateApi.Drip.Verify.Window
import LigateApi.Drip.Verify.Spelling
import LigateApi.Drip.Verify.Nonce
import LigateApi.Drip.Verify.Cooldown
import LigateApi.Drip.Verify.RetryHint
import LigateApi.Drip.Verify.Limiter
import LigateApi.Drip.Verify.DripStatus
import LigateApi.Indexer.Decode
import LigateApi.Indexer.Types
import LigateApi.Indexer.Parser
import LigateApi.Indexer.Db
import LigateApi.Indexer.Ingest
import LigateApi.Indexer.Run
import LigateApi.Indexer.Client
import LigateApi.Indexer.Verify.BodyNonce
import LigateApi.Indexer.Verify.BodyRoundTrip
import LigateApi.Indexer.Verify.Classify
import LigateApi.Indexer.Verify.Statements
import LigateApi.Indexer.Verify.SlotRows
import LigateApi.Indexer.Verify.Walk
import LigateApi.Indexer.Verify.Complete
import LigateApi.Indexer.Verify.Steps
import LigateApi.Indexer.Verify.Rewalk
import LigateApi.Indexer.Verify.Bounty
import LigateApi.Indexer.Verify.Visits
import LigateApi.Indexer.Verify.Senders
import LigateApi.Indexer.Verify.Contract
import LigateApi.Indexer.Verify.Escrow
import LigateApi.Indexer.Verify.Tally
import LigateApi.Indexer.Verify.Provenance
import LigateApi.Indexer.Verify.TxSigner
import LigateApi.Indexer.Verify.Finality
import LigateApi.Indexer.Verify.Contents
import LigateApi.Indexer.Verify.Cursor
import LigateApi.Indexer.Verify.PrevHash
import LigateApi.Indexer.Verify.Counters
import LigateApi.Indexer.Verify.Stored
import LigateApi.Indexer.Verify.SeenAt
import LigateApi.Indexer.Verify.SeenTriples
import LigateApi.Indexer.Verify.AttestationId
import LigateApi.Indexer.Verify.BodySafety
import LigateApi.Indexer.Verify.Writes
import LigateApi.Indexer.Verify.TableSteps
import LigateApi.Indexer.Verify.Intact
import LigateApi.Indexer.Verify.Later
import LigateApi.Indexer.Verify.CatchUp
import LigateApi.Indexer.Verify.Repoll
import LigateApi.Indexer.Verify.Emitted
import LigateApi.Indexer.Verify.Mirror
import LigateApi.Indexer.Verify.Registry
import LigateApi.Api.Cursor
import LigateApi.Api.Queries
import LigateApi.Api.Handlers
import LigateApi.Api.Details
import LigateApi.Api.Search
import LigateApi.Api.Stats
import LigateApi.Api.ActiveAddresses
import LigateApi.Api.StatsCache
import LigateApi.Api.Leaderboards
import LigateApi.Api.Daily
import LigateApi.Api.Cluster
import LigateApi.Api.Config
import LigateApi.Api.Startup
import LigateApi.Api.Totals
import LigateApi.Api.Verify.Listing
import LigateApi.Api.Verify.Pagination
import LigateApi.Api.Verify.DripsDaily
import LigateApi.Api.Verify.Served
import LigateApi.Api.Verify.StatsCache
import LigateApi.Api.Verify.BotAuth
import LigateApi.Api.Verify.ChainRoot
import LigateApi.Api.Verify.Interval
import LigateApi.Api.Verify.Startup
import LigateApi.Api.Verify.Totals
import LigateApi.Api.Verify.Live
import LigateApi.Api.Verify.Resource
import LigateApi.Api.Verify.Listed
import LigateApi.Api.Verify.Ledger
import LigateApi.Api.Verify.Search
import LigateApi.Api.Verify.Info
import LigateApi.Api.Verify.Coherence
import LigateApi.Api.Verify.Cluster
import LigateApi.Api.Verify.Daily
import LigateApi.Api.Verify.Leaderboards
import LigateApi.Api.Verify.Matching
import LigateApi.Api.Verify.Pages
