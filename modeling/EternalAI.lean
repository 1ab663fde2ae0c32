import EternalAI.Mcp.Safety
import EternalAI.Workflow.Once
import EternalAI.Dispatch.Reload
import EternalAI.Dispatch.Constraints
import EternalAI.Dispatch.Conversion
import EternalAI.Dispatch.Versions
import EternalAI.Dispatch.Masking
import EternalAI.Recurrence.Scheduled
import EternalAI.Recurrence.Replays
import EternalAI.Sync.Reconciliation
import EternalAI.Leases.Fencing
import EternalAI.Runs.Writes
import EternalAI.Requests.Claims
import EternalAI.Publications.Heads
import EternalAI.Messaging.Authority
import EternalAI.HumanGate.Agreement
import EternalAI.Jobs.Limits
import EternalAI.Jobs.Wrapper
import EternalAI.Dispatch.Options
import EternalAI.Mcp.Renewal
import EternalAI.Mcp.Driver
