import Fanring.Conc.System
import Fanring.Mpsc.Sender
import Fanring.Mpsc.Batch

/-!
# The MPSC channel as a system of threads

One thread for the receiver and one for the sender of each lane. A sender may call while its handle
lives, the receiver until it is dropped. The operations are the public ones of the two handles;
iterators and the futures that only repeat a poll are sequences of them. A `recv_timeout` is a
`recvDeadline`, or a `recv` when its deadline overflows. Capacities are validated before a
registration starts, and unpublished sends exist under the deferred policy only.
-/

set_option autoImplicit false

namespace Fanring.Mpsc

open Conc

inductive Tid
  | rx
  | tx (lane : Nat)
  deriving DecidableEq, Repr

inductive RecvOp (V : Type)
  | tryRecv (tagged : Bool)
  | tryRecvFair (tagged : Bool)
  | recv (tagged : Bool) (spins : Nat)
  | recvDeadline (tagged : Bool) (spins : Nat)
  | tryRecvBatch (limit : Nat)
  | tryRecvBatchWhile (limit : Nat) (accept : List V → V → Bool)
  | tryRecvScan (limit : Nat) (accept : List V → V → Bool)
  | recvBatch (limit spins : Nat)
  | pollRecv (tagged : Bool)
  | cancelRecvWait
  | releaseConsumed
  | pollAllLanes
  | pause (id : LaneId)
  | resume (id : LaneId)
  | tryRecvFrom (id : LaneId)
  | closeLane (id : LaneId)
  | drop

inductive SendOp (V : Type)
  | trySend (value : V)
  | trySendUnsignaled (value : V)
  | trySendDeferred (value : V)
  | flush
  | send (value : V) (spins : Nat)
  | sendDeadline (value : V) (spins : Nat)
  | pollReady
  | pollSend (value : V)
  | cancelSendWait
  | register (maxLanes capacity : Nat)
  | drop

inductive Op (V : Type)
  | recv (op : RecvOp V)
  | send (op : SendOp V)

variable {V : Type}

/-- The operation returns: the receiver's fields and the answer become visible. -/
def Receiver.reply (r : Reply V) (rx : Receiver) : Prog (Chan V) Unit :=
  Prog.write fun s => { s with rx := rx, history := s.history ++ [r] }

/-- The code of a receiver operation. -/
def RecvOp.code (P : Params) (op : RecvOp V) : Prog (Chan V) Unit := do
  let rx ← Prog.read (·.rx)
  match op with
  | .tryRecv tagged =>
    let (r, rx) ← rx.tryRecvOutput P tagged
    rx.reply (.recv r)
  | .tryRecvFair tagged =>
    let (r, rx) ← rx.tryRecvFairOutput P tagged
    rx.reply (.recv r)
  | .recv tagged spins =>
    let (r, rx) ← rx.recvOutput P tagged spins
    rx.reply (.recv r)
  | .recvDeadline tagged spins =>
    let (r, rx) ← rx.recvBlocking P tagged spins true
    rx.reply (.recv r)
  | .tryRecvBatch limit =>
    let (r, rx) ← rx.tryRecvBatch P limit none
    rx.reply (.batch r.1 r.2)
  | .tryRecvBatchWhile limit accept =>
    let (r, rx) ← rx.tryRecvBatch P limit (some accept)
    rx.reply (.batch r.1 r.2)
  | .tryRecvScan limit accept =>
    let (r, rx) ← rx.tryRecvScan P limit accept
    rx.reply (.batch r.1 r.2)
  | .recvBatch limit spins =>
    let (r, rx) ← rx.recvBatch P spins limit
    rx.reply (.batch r.1 r.2)
  | .pollRecv tagged =>
    let (r, rx) ← rx.pollRecv P tagged
    rx.reply (.poll r)
  | .cancelRecvWait =>
    Receiver.cancelRecvWait
    rx.reply (.control true)
  | .releaseConsumed =>
    let rx ← rx.releaseConsumed
    rx.reply (.control true)
  | .pollAllLanes =>
    let rx ← rx.pollAllLanes
    rx.reply (.control true)
  | .pause id =>
    let (ok, rx) ← rx.pause P id
    rx.reply (.control ok)
  | .resume id =>
    let (ok, rx) ← rx.resume P id
    rx.reply (.control ok)
  | .tryRecvFrom id =>
    let (r, rx) ← rx.tryRecvFrom P id
    rx.reply (.recv r)
  | .closeLane id =>
    let (ok, rx) ← rx.closeLane P id
    rx.reply (.control ok)
  | .drop => rx.drop P

/-- The code of an operation of the sender of lane `ℓ`. -/
def SendOp.code (P : Params) (ℓ : Nat) : SendOp V → Prog (Chan V) Unit
  | .trySend v => do
    let r ← Sender.trySend P ℓ v
    Sender.reply ℓ (r == .ok) r
  | .trySendUnsignaled v => do
    let r ← Sender.trySendUnsignaled P ℓ v
    Sender.reply ℓ false r
  | .trySendDeferred v => do
    let r ← Sender.trySendDeferred P ℓ v
    -- a full lane was flushed
    Sender.reply ℓ (r == .full) r
  | .flush => do
    Sender.flush ℓ
    Sender.reply ℓ true .ok
  | .send v spins => do
    let r ← Sender.send P ℓ spins v
    Sender.reply ℓ (r == .ok) r
  | .sendDeadline v spins => do
    let r ← Sender.sendDeadline P ℓ spins true v
    Sender.reply ℓ (r == .ok) r
  | .pollReady => do
    let r ← Sender.pollReady P ℓ
    Sender.reply ℓ false r
  | .pollSend v => do
    let r ← Sender.pollSend P ℓ v
    Sender.reply ℓ (r == .ok) r
  | .cancelSendWait => do
    Sender.cancelSendWait ℓ
    Sender.reply ℓ false .ok
  | .register maxLanes capacity => do
    let r ← Sender.registerSender maxLanes capacity
    Sender.reply ℓ false r
  | .drop => Sender.drop ℓ

/-- Whether a sender operation exists under the policy and its arguments pass validation. -/
def SendOp.valid (P : Params) : SendOp V → Bool
  | .trySendDeferred _ => !P.coordinated
  | .flush => !P.coordinated
  | .register _ capacity => decide (0 < capacity ∧ capacity ≤ maxCapacityPerSender)
  | _ => true

/-- The channel with parameters `P`. -/
def system (V : Type) (P : Params) : System (Chan V) Tid (Op V) where
  may
    | .rx, .recv _, s => s.receiverAlive
    | .tx ℓ, .send op, s => decide (ℓ < s.count) && !s.gone ℓ && op.valid P
    | _, _, _ => false
  code
    | .rx, .recv op => op.code P
    | .tx ℓ, .send op => op.code P ℓ
    | _, _ => .ret ()

/-- The channel as it is built, with nobody in an operation. -/
def start (V : Type) (P : Params) : Config (Chan V) Tid := ⟨Chan.initial P, fun _ => none⟩

end Fanring.Mpsc
