import Nightcore.Protocol

/-! The state `Server` keeps for external calls, and the methods of
`ExternalFuncCallContext` that finalize a response. A context is named by its position
in `contexts`, the order in which `OnExternalFuncCall` and `OnNewGrpcCall` built them;
the tables hold these handles where the source holds `unique_ptr`s. -/

namespace Nightcore.Gateway

/-- What the core reads of the gateway's flags and function config, and the two
protocol constants it uses (`MESSAGE_INLINE_DATA_SIZE`, `kInvalidFuncCall`). -/
structure Config where
  maxRunningExternalRequests : Nat
  knownFuncId : UInt16 → Bool
  messageInlineDataSize : Nat
  invalidFuncCall : FuncCall

inductive Sink
  | http
  | grpc
deriving DecidableEq, Repr

inductive GrpcStatus
  | ok
  | notFound
  | unknown
  | unimplemented
deriving DecidableEq, Repr

/-- The part of an `ExternalFuncCallContext` fixed at construction: its call, the kind of
request context it holds, and `GetInput()`. -/
structure Ctx where
  call : FuncCall
  sink : Sink
  input : List UInt8
deriving DecidableEq, Repr

instance : Inhabited Ctx := ⟨⟨⟨0, 0, 0, 0⟩, .http, []⟩⟩

/-- What the HTTP or gRPC request context has been told; `finishes` counts `Finish()`. -/
structure Response where
  httpStatus : Nat := 200
  grpcStatus : GrpcStatus := .ok
  body : List UInt8 := []
  finishes : Nat := 0
deriving DecidableEq, Repr

/-- The mutable part of a context: its response, and whether `input_region_` and
`output_region_` hold a region. -/
structure CtxState where
  response : Response := {}
  inputRegion : Bool := false
  outputRegion : Bool := false
deriving DecidableEq, Repr

inductive ShmName
  | funcCallInput (fullCallId : FuncCall)
  | funcCallOutput (fullCallId : FuncCall)
deriving DecidableEq, Repr

/-- A call the gateway makes on a `Dispatcher`, with what `OnNewFuncCall` answered. -/
inductive DispatcherCall
  | onNewFuncCall (funcCall parentCall : FuncCall) (inputSize : Nat) (inlineInput : List UInt8)
      (shmInput accepted : Bool)
  | onFuncCallCompleted (funcCall : FuncCall) (processingTime dispatchDelay : Int32)
      (outputSize : Nat)
  | onFuncCallFailed (funcCall : FuncCall) (dispatchDelay : Int32)
deriving DecidableEq

abbrev RunningMap := AList (fun _ : FuncCall => Nat)

structure Server where
  nextCallId : UInt32
  contexts : List Ctx
  ctxState : Nat → CtxState
  running : RunningMap
  pending : List Nat
  discarded : List FuncCall
  dispatchers : List UInt16
  shm : ShmName → Option (List UInt8)
  dispatcherCalls : List DispatcherCall
  finishedInternal : List FuncCall
  inputUseShm : Nat

/-- The server as the constructor leaves it: `next_call_id_(1)` and empty tables. -/
def Server.init : Server :=
  ⟨1, [], fun _ => {}, ∅, [], [], [], fun _ => none, [], [], 0⟩

namespace Response

def append (r : Response) (bytes : List UInt8) : Response := { r with body := r.body ++ bytes }

def finish (r : Response) : Response := { r with finishes := r.finishes + 1 }

@[simp] theorem finish_finishes (r : Response) : r.finish.finishes = r.finishes + 1 := rfl

@[simp] theorem append_finishes (r : Response) (b : List UInt8) :
    (r.append b).finishes = r.finishes := rfl

end Response

def functionCallFailedText : List UInt8 := "Function call failed\n".toUTF8.data.toList

def dispatchFailedText (funcId : UInt16) : List UInt8 :=
  ("Dispatch failed for func_id " ++ toString funcId ++ "\n").toUTF8.data.toList

namespace Ctx

/-- `FinishWithOutput`, the same for both kinds of request context; an empty output
appends nothing. -/
def finishWithOutput (output : List UInt8) (r : Response) : Response :=
  (if output.length > 0 then r.append output else r).finish

def finishWithError (k : Ctx) (r : Response) : Response :=
  match k.sink with
  | .http => { r.append functionCallFailedText with httpStatus := 500 }.finish
  | .grpc => { r with grpcStatus := .unknown }.finish

def finishWithDispatchFailure (k : Ctx) (r : Response) : Response :=
  match k.sink with
  | .http => { r.append (dispatchFailedText k.call.funcId) with httpStatus := 404 }.finish
  | .grpc => { r with grpcStatus := .unimplemented }.finish

@[simp] theorem finishWithOutput_finishes (o : List UInt8) (r : Response) :
    (finishWithOutput o r).finishes = r.finishes + 1 := by
  unfold finishWithOutput; split <;> rfl

@[simp] theorem finishWithError_finishes (k : Ctx) (r : Response) :
    (k.finishWithError r).finishes = r.finishes + 1 := by
  unfold finishWithError; split <;> rfl

@[simp] theorem finishWithDispatchFailure_finishes (k : Ctx) (r : Response) :
    (k.finishWithDispatchFailure r).finishes = r.finishes + 1 := by
  unfold finishWithDispatchFailure; split <;> rfl

end Ctx

namespace Server

def ctx (s : Server) (c : Nat) : Ctx := s.contexts.getD c default

/-- `call().full_call_id` of a context. -/
def callOf (s : Server) (c : Nat) : FuncCall := (s.ctx c).call

def modifyCtx (s : Server) (c : Nat) (f : CtxState → CtxState) : Server :=
  { s with ctxState := Function.update s.ctxState c (f (s.ctxState c)) }

/-- Apply a finalization to the response of context `c`. -/
def respond (s : Server) (c : Nat) (f : Ctx → Response → Response) : Server :=
  s.modifyCtx c fun st => { st with response := f (s.ctx c) st.response }

/-- `~ExternalFuncCallContext`: both regions were set to remove on destruction, so the
names they hold are unlinked. -/
def destroy (s : Server) (c : Nat) : Server :=
  let st := s.ctxState c
  { s with
    shm := fun n =>
      if (st.inputRegion ∧ n = .funcCallInput (s.callOf c)) ∨
          (st.outputRegion ∧ n = .funcCallOutput (s.callOf c)) then none else s.shm n
    ctxState := Function.update s.ctxState c { st with inputRegion := false, outputRegion := false } }

/-- `running_external_func_calls_.size()`. -/
def runningSize (s : Server) : Nat := s.running.keys.length

/-- The admission test: no cap, or room under it. -/
def HasRoom (cfg : Config) (s : Server) : Prop :=
  cfg.maxRunningExternalRequests = 0 ∨ s.runningSize < cfg.maxRunningExternalRequests

instance (cfg : Config) (s : Server) : Decidable (s.HasRoom cfg) :=
  inferInstanceAs (Decidable (_ ∨ _))

/-- `running_external_func_calls_[id] = ctx`: a context already under `id` is destroyed. -/
def putRunning (s : Server) (id : FuncCall) (c : Nat) : Server :=
  match s.running.lookup id with
  | some old => { s with running := s.running.insert id c }.destroy old
  | none => { s with running := s.running.insert id c }

/-- `running_external_func_calls_.erase(id)`, which destroys the context it held. -/
def eraseRunning (s : Server) (id : FuncCall) : Server :=
  match s.running.lookup id with
  | some old => { s with running := s.running.erase id }.destroy old
  | none => s

@[simp] theorem respond_contexts (s : Server) (c f) : (s.respond c f).contexts = s.contexts := rfl
@[simp] theorem respond_running (s : Server) (c f) : (s.respond c f).running = s.running := rfl
@[simp] theorem respond_pending (s : Server) (c f) : (s.respond c f).pending = s.pending := rfl
@[simp] theorem respond_discarded (s : Server) (c f) : (s.respond c f).discarded = s.discarded := rfl
@[simp] theorem respond_shm (s : Server) (c f) : (s.respond c f).shm = s.shm := rfl
@[simp] theorem respond_nextCallId (s : Server) (c f) : (s.respond c f).nextCallId = s.nextCallId := rfl

@[simp] theorem destroy_contexts (s : Server) (c) : (s.destroy c).contexts = s.contexts := rfl
@[simp] theorem destroy_running (s : Server) (c) : (s.destroy c).running = s.running := rfl
@[simp] theorem destroy_pending (s : Server) (c) : (s.destroy c).pending = s.pending := rfl
@[simp] theorem destroy_discarded (s : Server) (c) : (s.destroy c).discarded = s.discarded := rfl
@[simp] theorem destroy_nextCallId (s : Server) (c) : (s.destroy c).nextCallId = s.nextCallId := rfl
@[simp] theorem destroy_dispatcherCalls (s : Server) (c) : (s.destroy c).dispatcherCalls = s.dispatcherCalls := rfl

@[simp] theorem modifyCtx_contexts (s : Server) (c f) : (s.modifyCtx c f).contexts = s.contexts := rfl
@[simp] theorem modifyCtx_running (s : Server) (c f) : (s.modifyCtx c f).running = s.running := rfl
@[simp] theorem modifyCtx_pending (s : Server) (c f) : (s.modifyCtx c f).pending = s.pending := rfl
@[simp] theorem modifyCtx_nextCallId (s : Server) (c f) : (s.modifyCtx c f).nextCallId = s.nextCallId := rfl
@[simp] theorem modifyCtx_discarded (s : Server) (c f) : (s.modifyCtx c f).discarded = s.discarded := rfl
@[simp] theorem modifyCtx_dispatchers (s : Server) (c f) : (s.modifyCtx c f).dispatchers = s.dispatchers := rfl
@[simp] theorem modifyCtx_shm (s : Server) (c f) : (s.modifyCtx c f).shm = s.shm := rfl
@[simp] theorem modifyCtx_dispatcherCalls (s : Server) (c f) :
    (s.modifyCtx c f).dispatcherCalls = s.dispatcherCalls := rfl
@[simp] theorem modifyCtx_inputUseShm (s : Server) (c f) : (s.modifyCtx c f).inputUseShm = s.inputUseShm := rfl

theorem erase_of_lookup_eq_none {m : RunningMap} {id : FuncCall} (h : m.lookup id = none) :
    m.erase id = m :=
  AList.ext (List.kerase_of_not_mem_keys (AList.mem_keys.not.1 (AList.lookup_eq_none.1 h)))

@[simp] theorem putRunning_running (s : Server) (id c) :
    (s.putRunning id c).running = s.running.insert id c := by
  unfold putRunning; split <;> rfl

@[simp] theorem eraseRunning_running (s : Server) (id) :
    (s.eraseRunning id).running = s.running.erase id := by
  unfold eraseRunning
  split
  · rfl
  · exact (erase_of_lookup_eq_none ‹_›).symm

@[simp] theorem putRunning_contexts (s : Server) (id c) : (s.putRunning id c).contexts = s.contexts := by
  unfold putRunning; split <;> rfl

@[simp] theorem eraseRunning_contexts (s : Server) (id) : (s.eraseRunning id).contexts = s.contexts := by
  unfold eraseRunning; split <;> rfl

@[simp] theorem putRunning_pending (s : Server) (id c) : (s.putRunning id c).pending = s.pending := by
  unfold putRunning; split <;> rfl

@[simp] theorem putRunning_nextCallId (s : Server) (id c) :
    (s.putRunning id c).nextCallId = s.nextCallId := by
  unfold putRunning; split <;> rfl

@[simp] theorem eraseRunning_nextCallId (s : Server) (id) :
    (s.eraseRunning id).nextCallId = s.nextCallId := by
  unfold eraseRunning; split <;> rfl

@[simp] theorem eraseRunning_pending (s : Server) (id) : (s.eraseRunning id).pending = s.pending := by
  unfold eraseRunning; split <;> rfl

@[simp] theorem putRunning_dispatcherCalls (s : Server) (id c) :
    (s.putRunning id c).dispatcherCalls = s.dispatcherCalls := by
  unfold putRunning; split <;> rfl

@[simp] theorem eraseRunning_dispatcherCalls (s : Server) (id) :
    (s.eraseRunning id).dispatcherCalls = s.dispatcherCalls := by
  unfold eraseRunning; split <;> rfl

@[simp] theorem putRunning_discarded (s : Server) (id c) : (s.putRunning id c).discarded = s.discarded := by
  unfold putRunning; split <;> rfl

@[simp] theorem eraseRunning_discarded (s : Server) (id) : (s.eraseRunning id).discarded = s.discarded := by
  unfold eraseRunning; split <;> rfl

theorem putRunning_of_lookup_eq_none {s : Server} {id : FuncCall} (h : s.running.lookup id = none)
    (c : Nat) : s.putRunning id c = { s with running := s.running.insert id c } := by
  simp only [putRunning, h]

theorem eraseRunning_of_lookup_eq_some {s : Server} {id : FuncCall} {c : Nat}
    (h : s.running.lookup id = some c) :
    s.eraseRunning id = { s with running := s.running.erase id }.destroy c := by
  simp only [eraseRunning, h]

theorem runningSize_insert_le (s : Server) (id c) :
    (s.running.insert id c).keys.length ≤ s.runningSize + 1 := by
  rw [AList.keys_insert, List.length_cons]
  exact Nat.succ_le_succ (List.length_erase_le _ _)

theorem runningSize_erase_le (s : Server) (id) : (s.running.erase id).keys.length ≤ s.runningSize := by
  rw [AList.keys_erase]; exact List.length_erase_le _ _

@[simp] theorem ctx_eq_of_contexts {s t : Server} (h : s.contexts = t.contexts) (c : Nat) :
    s.ctx c = t.ctx c := by simp [ctx, h]

theorem respond_response (s : Server) (c d : Nat) (f) :
    ((s.respond c f).ctxState d).response =
      if d = c then f (s.ctx c) (s.ctxState c).response else (s.ctxState d).response := by
  unfold respond modifyCtx
  by_cases h : d = c
  · subst h; simp
  · simp [h, Function.update_noteq]

theorem destroy_response (s : Server) (c d : Nat) :
    ((s.destroy c).ctxState d).response = (s.ctxState d).response := by
  unfold destroy
  by_cases h : d = c
  · subst h; simp
  · simp [h, Function.update_noteq]

theorem putRunning_response (s : Server) (id : FuncCall) (c d : Nat) :
    ((s.putRunning id c).ctxState d).response = (s.ctxState d).response := by
  unfold putRunning; split
  · exact destroy_response _ _ _
  · rfl

theorem eraseRunning_response (s : Server) (id : FuncCall) (d : Nat) :
    ((s.eraseRunning id).ctxState d).response = (s.ctxState d).response := by
  unfold eraseRunning; split
  · exact destroy_response _ _ _
  · rfl

@[simp] theorem respond_inputRegion (s : Server) (c d : Nat) (f) :
    ((s.respond c f).ctxState d).inputRegion = (s.ctxState d).inputRegion := by
  unfold respond modifyCtx
  by_cases h : d = c
  · subst h; simp
  · simp [h, Function.update_noteq]

@[simp] theorem respond_outputRegion (s : Server) (c d : Nat) (f) :
    ((s.respond c f).ctxState d).outputRegion = (s.ctxState d).outputRegion := by
  unfold respond modifyCtx
  by_cases h : d = c
  · subst h; simp
  · simp [h, Function.update_noteq]

@[simp] theorem respond_dispatcherCalls (s : Server) (c f) :
    (s.respond c f).dispatcherCalls = s.dispatcherCalls := rfl

theorem destroy_inputRegion (s : Server) (c d : Nat) :
    ((s.destroy c).ctxState d).inputRegion = if d = c then false else (s.ctxState d).inputRegion := by
  unfold destroy
  by_cases h : d = c
  · subst h; simp
  · simp [h, Function.update_noteq]

theorem destroy_outputRegion (s : Server) (c d : Nat) :
    ((s.destroy c).ctxState d).outputRegion = if d = c then false else (s.ctxState d).outputRegion := by
  unfold destroy
  by_cases h : d = c
  · subst h; simp
  · simp [h, Function.update_noteq]

theorem destroy_shm_input (s : Server) (c : Nat) (id : FuncCall) :
    (s.destroy c).shm (.funcCallInput id) =
      if (s.ctxState c).inputRegion ∧ id = s.callOf c then none else s.shm (.funcCallInput id) := by
  simp [destroy]

end Server

end Nightcore.Gateway
