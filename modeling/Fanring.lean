import Fanring.Mpsc.Counting
import Fanring.Mpsc.Credit
import Fanring.Mpsc.Accounting
import Fanring.Mpsc.Scan
import Fanring.Mpsc.Delivery
import Fanring.Mpsc.Wakeups
import Fanring.Mpsc.Budget
import Fanring.Mpsc.Dropped
import Fanring.Mpsc.Identity
import Fanring.Mpsc.Waiting
import Fanring.Mpsc.Pausing
import Fanring.Yring.Refined
import Fanring.TeardownClose
import Fanring.Parking.Refined
import Fanring.Parking.Multi
import Fanring.Parking.Protocol
import Fanring.Yring.HintProof
import Fanring.Yring.AsyncProof
import Fanring.WorkProof
