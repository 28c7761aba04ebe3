import Fomowell.Lib.Checked
import Fomowell.Lib.Roots
import Fomowell.Lib.Runs
import Fomowell.Lib.Table
import Fomowell.Lib.Wire
import Fomowell.Candid
import Fomowell.Pmm.Math
import Fomowell.Pmm.Market
import Fomowell.Pmm.Sale
import Fomowell.Pmm.Coherence
import Fomowell.Pmm.Mirror
import Fomowell.Pmm.MidPrice
import Fomowell.Pmm.Decimals
import Fomowell.Pmm.Monotone
import Fomowell.Pmm.Rounding
import Fomowell.Pmm.Trade
import Fomowell.Pmm.Target
import Fomowell.Pmm.Integral
import Fomowell.Pmm.Conversion
import Fomowell.Token.Dip20
import Fomowell.Token.Supply
import Fomowell.Token.IToken
import Fomowell.Token.Allowances
import Fomowell.Token.Operations
import Fomowell.Lib.Sparse
import Fomowell.Token.Transfer
import Fomowell.Token.TransferFrom
import Fomowell.Token.FeeQuote
import Fomowell.Token.Canonical
import Fomowell.Lib.Pages
import Fomowell.Token.Holders
import Fomowell.Lib.Scripts
import Fomowell.IcpSwap.Launch
import Fomowell.IcpSwap.Funding
import Fomowell.Text
import Fomowell.Numerals
import Fomowell.Token.Metadata
import Fomowell.Lib.Canister
import Fomowell.Lib.Traces
import Fomowell.Lib.Countdown
import Fomowell.Lib.Ranking
import Fomowell.Launcher.State
import Fomowell.Launcher.System
import Fomowell.Launcher.PointSteps
import Fomowell.Launcher.Outcomes
import Fomowell.Launcher.Segments
import Fomowell.Launcher.Accounts
import Fomowell.Launcher.Projects
import Fomowell.Launcher.HandOff
import Fomowell.Launcher.Completion
import Fomowell.Launcher.Billing
import Fomowell.Launcher.Duties
import Fomowell.Launcher.Replies
import Fomowell.Launcher.Records
import Fomowell.Launcher.Grants
import Fomowell.Launcher.Ownership
import Fomowell.Launcher.Edits
import Fomowell.Launcher.Writes
import Fomowell.Launcher.TradeSlot
import Fomowell.Launcher.WriteBack
import Fomowell.Launcher.Wells
import Fomowell.Launcher.Milestones
import Fomowell.Launcher.Election
import Fomowell.Launcher.Profiles
import Fomowell.Lib.Snapshot
import Fomowell.Launcher.Upgrade
import Fomowell.Launcher.Identifiers
import Fomowell.Launcher.TopupRuns
import Fomowell.Launcher.Topups
import Fomowell.Project.State
import Fomowell.Project.Segments
import Fomowell.Project.Upgrade
import Fomowell.Project.Holding
import Fomowell.Project.Comments
import Fomowell.Project.Storage
import Fomowell.Launcher.Requests
import Fomowell.Launcher.Storage
import Fomowell.Launcher.Search
import Fomowell.Lib.Ranges
import Fomowell.KeyPages
import Fomowell.Truncation
import Fomowell.Launcher.Quotes
import Fomowell.Lib.Descent
import Fomowell.Launcher.Termination
import Fomowell.Project.Termination
import Fomowell.Launcher.Lineage
import Fomowell.Launcher.References
import Fomowell.Pmm.Curve
import Fomowell.Lib.Origins
import Fomowell.Launcher.Callers
import Fomowell.Launcher.Creations
import Fomowell.Launcher.Sanctions
import Fomowell.Project.Authorship
import Fomowell.Pool.State
import Fomowell.Pool.Orders
import Fomowell.Lib.Refinement
import Fomowell.Token.Ledger
import Fomowell.Token.Dispatch
import Fomowell.Pool.Dispatch
import Fomowell.Launcher.Dispatch
import Fomowell.Frontend.Batch
import Fomowell.Frontend.Attempts
import Fomowell.Frontend.Groups
import Fomowell.Frontend.Retries
import Fomowell.Lib.Powers
import Fomowell.Pmm.Power
import Fomowell.Lib.Hex
import Fomowell.Frontend.Identifiers
