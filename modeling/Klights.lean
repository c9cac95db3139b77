import Klights.Auth.SelectorScope
import Klights.Controllers.DaemonSetPatch
import Klights.Controllers.Workqueue
import Klights.Deployment.RolloutBounds
import Klights.Disruption.Limit
import Klights.Job.CronJob
import Klights.Job.CronSchedule
import Klights.Job.IndexHistory
import Klights.Leader.Proposal
import Klights.Network.PlanAgreement
import Klights.Network.ServiceInventory
import Klights.Network.ServiceRules
import Klights.Node.Endpoints
import Klights.Node.OutboxOrder
import Klights.Node.OutboxTimes
import Klights.Pod.CriInventory
import Klights.Pod.MainUpdate
import Klights.Pod.NodeLoss
import Klights.Pod.TerminalStatus
import Klights.Quantity.Effective
import Klights.Quantity.RoundTrip
import Klights.Selector.FieldRoundTrip
import Klights.Selector.Pushdown
import Klights.Service.AddressOwners
import Klights.Status.GenericConditions
import Klights.Store.Atomicity
import Klights.Store.BodyComparison
import Klights.Store.CommitHistory
import Klights.Store.Completeness
import Klights.Store.DeletionMarks
import Klights.Store.HistoricalPages
import Klights.Store.Indexes
import Klights.Store.KeyOrder
import Klights.Store.SubnetAllocation
import Klights.Watch.Snapshots
import Klights.Watch.WorkerHistory
