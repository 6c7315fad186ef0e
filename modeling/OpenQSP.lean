import OpenQSP.Protocol.Canonical
import OpenQSP.Server.Synchronization
import OpenQSP.Server.Numbering
import OpenQSP.Server.Acceptance
import OpenQSP.Server.Handling
import OpenQSP.Api.Sync
import OpenQSP.Client.Attribution
import OpenQSP.Aprs.AtMostOnce
import OpenQSP.Aprs.History
import OpenQSP.Aprs.Reassembly
import OpenQSP.Server.Isolation
import OpenQSP.Storage.Summaries
import OpenQSP.Server.DeliveryStates
import OpenQSP.Aprs.Discipline
import OpenQSP.Api.Ownership
import OpenQSP.Aprs.Dispositions
import OpenQSP.Aprs.Fitting
import OpenQSP.Aprs.Queueing
import OpenQSP.Aprs.Batches
import OpenQSP.Aprs.Orphans
import OpenQSP.Aprs.Superseding
import OpenQSP.Aprs.Repair
import OpenQSP.Commit.FailFast
import OpenQSP.Server.Classification
import OpenQSP.Protocol.Unchecked
import OpenQSP.Aprs.Caching
import OpenQSP.Aprs.Sending
import OpenQSP.Client.Handshake
import OpenQSP.Aprs.Diagnostics
import OpenQSP.Aprs.Disconnection
import OpenQSP.Aprs.Progress
import OpenQSP.Aprs.Controls
import OpenQSP.Aprs.Agreement
import OpenQSP.Aprs.Settlement
import OpenQSP.Aprs.Gateway
import OpenQSP.Server.Conversation
import OpenQSP.Api.Access
import OpenQSP.Api.Identifiers
import OpenQSP.Api.Messages
import OpenQSP.Api.Privacy
import OpenQSP.Api.Listing
import OpenQSP.Api.Retrying
import OpenQSP.Api.Receipts
import OpenQSP.Api.Events
