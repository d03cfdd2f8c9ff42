import FuturesOrchestra.Proofs.QueueSlots
import FuturesOrchestra.Proofs.Settlement
import FuturesOrchestra.Proofs.Cancellation
import FuturesOrchestra.Proofs.Shutdown
import FuturesOrchestra.Proofs.Sweep
import FuturesOrchestra.Proofs.Handles
import FuturesOrchestra.Proofs.Rejection
import FuturesOrchestra.Proofs.Notification
import FuturesOrchestra.Proofs.Closing
import FuturesOrchestra.Proofs.Backpressure
import FuturesOrchestra.Proofs.DispatchOrder
import FuturesOrchestra.Proofs.Progress
import FuturesOrchestra.Proofs.SlotMap
import FuturesOrchestra.Proofs.Deferral
import FuturesOrchestra.Proofs.Occupancy
import FuturesOrchestra.Proofs.Wakeup
import FuturesOrchestra.Proofs.ActiveCount
import FuturesOrchestra.Proofs.LabelCancel
import FuturesOrchestra.Proofs.DeliveryOrder
import FuturesOrchestra.Proofs.HandlerCalls
import FuturesOrchestra.Proofs.WorkConserving
import FuturesOrchestra.Proofs.Overtaking
import FuturesOrchestra.Proofs.Polling
import FuturesOrchestra.Proofs.Detach
import FuturesOrchestra.Proofs.WindingDown
import FuturesOrchestra.Proofs.CallsReturn
import FuturesOrchestra.Proofs.Submissions
import FuturesOrchestra.Proofs.Routing
import FuturesOrchestra.Proofs.Causes
import FuturesOrchestra.Proofs.Announcements
import FuturesOrchestra.Proofs.Finishing
import FuturesOrchestra.Proofs.Deadlock
