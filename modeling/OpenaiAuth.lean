import OpenaiAuth.ResetCredits.Replacement
import OpenaiAuth.ResetCredits.Binding
import OpenaiAuth.WebSocket.TurnIds
import OpenaiAuth.Pool.Apart
import OpenaiAuth.Sidebar.Queue
import OpenaiAuth.Sidebar.Pins
import OpenaiAuth.Sidebar.Quota
import OpenaiAuth.Sidebar.Overlay
import OpenaiAuth.Redaction.Stream
import OpenaiAuth.RawWs.Connection
import OpenaiAuth.Request.LegacyFloor
import OpenaiAuth.Request.PoolFloor
import OpenaiAuth.Accounts.Stops
import OpenaiAuth.Accounts.Roster
import OpenaiAuth.Limits.Classify
import OpenaiAuth.Limits.Recovery
import OpenaiAuth.Limits.Provenance
import OpenaiAuth.Quota.Marks
import OpenaiAuth.Mirror.Served
import OpenaiAuth.Accounts.Unchanged
import OpenaiAuth.CodexSessions.Kept
import OpenaiAuth.OpenCode2.Continued
import OpenaiAuth.OpenCode2.Reservations
import OpenaiAuth.Request.Plan
import OpenaiAuth.Effort.MidConversation
import OpenaiAuth.Effort.Wire
import OpenaiAuth.PoolLifecycle.Background
import OpenaiAuth.Heartbeat.Listed
import OpenaiAuth.PoolSource.Epochs
import OpenaiAuth.OAuth.Listener
import OpenaiAuth.LimitsLease.Tracking
import OpenaiAuth.CurrentStorage.Served
import OpenaiAuth.Request.Freshness
import OpenaiAuth.StickyRouting.Chosen
import OpenaiAuth.FrameTurns.Turns
import OpenaiAuth.KillswitchFloors.Migration
import OpenaiAuth.PiMain.Account
import OpenaiAuth.QuotaReports.Same
import OpenaiAuth.VaultRouting.Failures
import OpenaiAuth.RuntimeLayout.Leftover
import OpenaiAuth.RefreshAllQuota.Identity
import OpenaiAuth.Sidebar.Bounded
import OpenaiAuth.Sidebar.Freshness
import OpenaiAuth.Stamps.Register
import OpenaiAuth.Sidebar.Budget
import OpenaiAuth.StickyRouting.Break
import OpenaiAuth.Redaction.Literals
import OpenaiAuth.WebSocket.CanonicalTexts
import OpenaiAuth.RawWs.Writing
import OpenaiAuth.RawWs.Closing
import OpenaiAuth.RawWs.Upgrade
import OpenaiAuth.WebSocket.Settling
import OpenaiAuth.Redaction.RequestId
import OpenaiAuth.Semver.Precedence
import OpenaiAuth.VersionFence.Fence
