import Mathlib.Data.List.Basic

/-! Connection acceptance on the control loop. `HttpConnectionCallback`,
`GrpcConnectionCallback` and `MessageConnectionCallback` each build a connection and, when
the connection `status` is fine and `uv_accept` succeeds, register it with an IO worker
picked round robin: `PickHttpWorker` over `http_workers_` for HTTP and gRPC connections,
`PickIpcWorker` over `ipc_workers_` for message connections. The pools are filled by
`StartInternal` before the loop listens and do not change afterwards. -/

namespace Nightcore.Gateway

/-- The kinds of connection the control loop accepts. -/
inductive ConnKind
  | http
  | grpc
  | message
deriving DecidableEq, Repr

/-- A kind's pool: `ipc_workers_` for message connections, `http_workers_` for the others. -/
def ConnKind.ipc : ConnKind → Bool
  | .message => true
  | _ => false

/-- The fields of `Server` that acceptance uses. -/
structure Acceptor where
  /-- `http_workers_.size()`. -/
  httpWorkers : Nat
  /-- `ipc_workers_.size()`. -/
  ipcWorkers : Nat
  nextHttpWorkerId : Nat
  nextIpcWorkerId : Nat
  /-- The `RegisterConnection` calls, in order: the connection's kind and the index of its
  IO worker in its pool. -/
  registered : List (ConnKind × Nat)
deriving DecidableEq, Repr

namespace Acceptor

/-- The constructor sets both cursors to 0; `StartInternal` fills the pools. -/
def init (httpWorkers ipcWorkers : Nat) : Acceptor := ⟨httpWorkers, ipcWorkers, 0, 0, []⟩

/-- The IO worker pools `StartInternal` creates from its flags, or `none` when one of the
`CHECK_GT`s aborts. With `num_io_workers_ == -1` there are `num_http_workers_` HTTP
workers and `num_ipc_workers_` IPC workers; otherwise `num_io_workers_` workers serve both
kinds, and `http_workers_[i]` and `ipc_workers_[i]` are the same worker. -/
def startInternal (numIoWorkers numHttpWorkers numIpcWorkers : Int) : Option Acceptor :=
  if numIoWorkers = -1 then
    if 0 < numHttpWorkers ∧ 0 < numIpcWorkers then some (init numHttpWorkers.toNat numIpcWorkers.toNat)
    else none
  else if 0 < numIoWorkers then some (init numIoWorkers.toNat numIoWorkers.toNat)
  else none

/-- The body of `PickHttpWorker` and `PickIpcWorker`: the worker at the cursor, and the
cursor moved on modulo the pool's size. -/
def pickWorker (size next : Nat) : Nat × Nat := (next, (next + 1) % size)

/-- `PickHttpWorker`. -/
def pickHttpWorker (a : Acceptor) : Nat × Acceptor :=
  let r := pickWorker a.httpWorkers a.nextHttpWorkerId
  (r.1, { a with nextHttpWorkerId := r.2 })

/-- `PickIpcWorker`. -/
def pickIpcWorker (a : Acceptor) : Nat × Acceptor :=
  let r := pickWorker a.ipcWorkers a.nextIpcWorkerId
  (r.1, { a with nextIpcWorkerId := r.2 })

/-- The body of the three connection callbacks: `status` is whether `status == 0`, and
`accepted` whether `uv_accept` returned 0. -/
def connectionCallback (pick : Acceptor → Nat × Acceptor) (kind : ConnKind) (a : Acceptor)
    (status accepted : Bool) : Acceptor :=
  if status then
    if accepted then
      let r := pick a
      { r.2 with registered := r.2.registered ++ [(kind, r.1)] }
    else a
  else a

/-- `HttpConnectionCallback`. -/
def httpConnectionCallback (a : Acceptor) (status accepted : Bool) : Acceptor :=
  connectionCallback pickHttpWorker .http a status accepted

/-- `GrpcConnectionCallback`: a gRPC connection goes to an HTTP worker. -/
def grpcConnectionCallback (a : Acceptor) (status accepted : Bool) : Acceptor :=
  connectionCallback pickHttpWorker .grpc a status accepted

/-- `MessageConnectionCallback`. -/
def messageConnectionCallback (a : Acceptor) (status accepted : Bool) : Acceptor :=
  connectionCallback pickIpcWorker .message a status accepted

/-- The callback libuv runs for a new connection of a kind. -/
def accept (a : Acceptor) : ConnKind → Bool → Bool → Acceptor
  | .http => a.httpConnectionCallback
  | .grpc => a.grpcConnectionCallback
  | .message => a.messageConnectionCallback

/-- A run of connection callbacks, in the order the loop runs them. -/
def run (a : Acceptor) (evs : List (ConnKind × Bool × Bool)) : Acceptor :=
  evs.foldl (fun a e => a.accept e.1 e.2.1 e.2.2) a

end Acceptor

end Nightcore.Gateway
