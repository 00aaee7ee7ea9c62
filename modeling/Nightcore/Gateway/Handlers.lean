import Nightcore.Gateway.State

/-! The gateway's handlers cut at the lock: every section under `mu_` and every stretch
outside it is one function here. `exec` runs one such piece of a handler and returns the
pieces the handler goes on with, so that a handler is a list of `Instr`s consumed one at
a time, and several handlers can be interleaved piece by piece. The `ok` argument is the
outcome of the one call a piece makes into code outside this file (`ShmCreate`,
`ShmOpen`, `Dispatcher::OnNewFuncCall`). -/

namespace Nightcore.Gateway

namespace Server

variable (cfg : Config)

/-- `GetOrCreateDispatcherLocked`; `true` when it returns a dispatcher. -/
def getOrCreateDispatcherLocked (s : Server) (funcId : UInt16) : Server × Bool :=
  if funcId ∈ s.dispatchers then (s, true)
  else if cfg.knownFuncId funcId then ({ s with dispatchers := s.dispatchers ++ [funcId] }, true)
  else (s, false)

@[simp] theorem getOrCreateDispatcherLocked_fst (s : Server) (f : UInt16) :
    (getOrCreateDispatcherLocked cfg s f).1 =
      { s with dispatchers :=
          if f ∉ s.dispatchers ∧ cfg.knownFuncId f then s.dispatchers ++ [f] else s.dispatchers } := by
  unfold getOrCreateDispatcherLocked; split_ifs <;> simp_all

@[simp] theorem getOrCreateDispatcherLocked_snd (s : Server) (f : UInt16) :
    (getOrCreateDispatcherLocked cfg s f).2 = (decide (f ∈ s.dispatchers) || cfg.knownFuncId f) := by
  unfold getOrCreateDispatcherLocked; split_ifs <;> simp_all

/-- `OnExternalFuncCall` / `OnNewGrpcCall`: the context is built around
`next_call_id_.fetch_add(1)`. -/
def construct (s : Server) (sink : Sink) (funcId methodId : UInt16) (body : List UInt8) :
    Server :=
  { s with
    nextCallId := s.nextCallId + 1
    contexts := s.contexts ++ [⟨newFuncCallWithMethod funcId methodId 0 s.nextCallId, sink, body⟩] }

@[simp] theorem construct_contexts (s : Server) (sink f m body) :
    (s.construct sink f m body).contexts =
      s.contexts ++ [⟨newFuncCallWithMethod f m 0 s.nextCallId, sink, body⟩] := rfl

@[simp] theorem construct_nextCallId (s : Server) (sink f m body) :
    (s.construct sink f m body).nextCallId = s.nextCallId + 1 := rfl

@[simp] theorem construct_running (s : Server) (sink f m body) :
    (s.construct sink f m body).running = s.running := rfl

@[simp] theorem construct_pending (s : Server) (sink f m body) :
    (s.construct sink f m body).pending = s.pending := rfl

/-- The locked section of `NewExternalFuncCall`: `true` when `c` went to the running
table and is to be dispatched. -/
def newExternalFuncCallLocked (s : Server) (c : Nat) : Server × Bool :=
  if s.HasRoom cfg then (s.putRunning (s.callOf c) c, true)
  else ({ s with pending := s.pending ++ [c] }, false)

@[simp] theorem newExternalFuncCallLocked_contexts (s : Server) (c) : (newExternalFuncCallLocked cfg s c).1.contexts = s.contexts := by
  unfold newExternalFuncCallLocked; split <;> simp

@[simp] theorem newExternalFuncCallLocked_nextCallId (s : Server) (c) : (newExternalFuncCallLocked cfg s c).1.nextCallId = s.nextCallId := by
  unfold newExternalFuncCallLocked; split <;> simp

@[simp] theorem newExternalFuncCallLocked_dispatcherCalls (s : Server) (c) :
    (newExternalFuncCallLocked cfg s c).1.dispatcherCalls = s.dispatcherCalls := by
  unfold newExternalFuncCallLocked; split <;> simp

@[simp] theorem newExternalFuncCallLocked_discarded (s : Server) (c) :
    (newExternalFuncCallLocked cfg s c).1.discarded = s.discarded := by
  unfold newExternalFuncCallLocked; split <;> simp

/-- `CreateShmInput`; `ok` is whether `ShmCreate` succeeds. -/
def createShmInput (ok : Bool) (s : Server) (c : Nat) : Server × Bool :=
  if ok then
    ({ s.modifyCtx c (fun st => { st with inputRegion := true }) with
      shm := Function.update s.shm (.funcCallInput (s.callOf c)) (some (s.ctx c).input) }, true)
  else (s.respond c Ctx.finishWithError, false)

/-- `DispatchExternalFuncCall` up to its lock. -/
def dispatchStart (ok : Bool) (s : Server) (c : Nat) : Server × Bool :=
  if (s.ctx c).input.length > cfg.messageInlineDataSize then createShmInput ok s c else (s, true)

@[simp] theorem dispatchStart_contexts (ok s c) : (dispatchStart cfg ok s c).1.contexts = s.contexts := by
  unfold dispatchStart createShmInput; split_ifs <;> rfl

@[simp] theorem dispatchStart_nextCallId (ok s c) : (dispatchStart cfg ok s c).1.nextCallId = s.nextCallId := by
  unfold dispatchStart createShmInput; split_ifs <;> rfl

@[simp] theorem dispatchStart_running (ok s c) : (dispatchStart cfg ok s c).1.running = s.running := by
  unfold dispatchStart createShmInput; split_ifs <;> rfl

@[simp] theorem dispatchStart_pending (ok s c) : (dispatchStart cfg ok s c).1.pending = s.pending := by
  unfold dispatchStart createShmInput; split_ifs <;> rfl

@[simp] theorem dispatchStart_dispatcherCalls (ok s c) :
    (dispatchStart cfg ok s c).1.dispatcherCalls = s.dispatcherCalls := by
  unfold dispatchStart createShmInput; split_ifs <;> rfl

@[simp] theorem dispatchStart_discarded (ok s c) : (dispatchStart cfg ok s c).1.discarded = s.discarded := by
  unfold dispatchStart createShmInput; split_ifs <;> rfl

/-- The locked section of `DispatchExternalFuncCall`. -/
def dispatchLocked (s : Server) (c : Nat) : Server × Bool :=
  let s := if (s.ctx c).input.length > cfg.messageInlineDataSize then
    { s with inputUseShm := s.inputUseShm + 1 } else s
  getOrCreateDispatcherLocked cfg s (s.callOf c).funcId

theorem dispatchLocked_eq (s : Server) (c : Nat) :
    (dispatchLocked cfg s c).1 = { s with inputUseShm := (dispatchLocked cfg s c).1.inputUseShm,
                                           dispatchers := (dispatchLocked cfg s c).1.dispatchers } := by
  unfold dispatchLocked; split_ifs <;> simp

@[simp] theorem dispatchLocked_contexts (s c) : (dispatchLocked cfg s c).1.contexts = s.contexts := by
  unfold dispatchLocked; split_ifs <;> simp

@[simp] theorem dispatchLocked_nextCallId (s c) : (dispatchLocked cfg s c).1.nextCallId = s.nextCallId := by
  unfold dispatchLocked; split_ifs <;> simp

@[simp] theorem dispatchLocked_running (s c) : (dispatchLocked cfg s c).1.running = s.running := by
  unfold dispatchLocked; split_ifs <;> simp

@[simp] theorem dispatchLocked_pending (s c) : (dispatchLocked cfg s c).1.pending = s.pending := by
  unfold dispatchLocked; split_ifs <;> simp

/-- The rest of `DispatchExternalFuncCall`; `ok` is what `OnNewFuncCall` answers. -/
def dispatchTail (ok : Bool) (s : Server) (c : Nat) (found : Bool) : Server × Bool :=
  if found then
    let input := (s.ctx c).input
    let call := if input.length ≤ cfg.messageInlineDataSize then
        DispatcherCall.onNewFuncCall (s.callOf c) cfg.invalidFuncCall input.length input false ok
      else DispatcherCall.onNewFuncCall (s.callOf c) cfg.invalidFuncCall input.length [] true ok
    let s := { s with dispatcherCalls := s.dispatcherCalls ++ [call] }
    if ok then (s, true) else (s.respond c Ctx.finishWithDispatchFailure, false)
  else (s.respond c Ctx.finishWithDispatchFailure, false)

@[simp] theorem dispatchTail_contexts (ok s c d) : (dispatchTail cfg ok s c d).1.contexts = s.contexts := by
  unfold dispatchTail; split_ifs <;> rfl

@[simp] theorem dispatchTail_nextCallId (ok s c d) : (dispatchTail cfg ok s c d).1.nextCallId = s.nextCallId := by
  unfold dispatchTail; split_ifs <;> rfl

@[simp] theorem dispatchTail_running (ok s c d) : (dispatchTail cfg ok s c d).1.running = s.running := by
  unfold dispatchTail; split_ifs <;> rfl

@[simp] theorem dispatchTail_pending (ok s c d) : (dispatchTail cfg ok s c d).1.pending = s.pending := by
  unfold dispatchTail; split_ifs <;> rfl

@[simp] theorem dispatchTail_discarded (ok s c d) : (dispatchTail cfg ok s c d).1.discarded = s.discarded := by
  unfold dispatchTail; split_ifs <;> rfl

/-- `DispatchExternalFuncCall` run without interruption. -/
def dispatchExternalFuncCall (shmOk invokeOk : Bool) (s : Server) (c : Nat) : Server × Bool :=
  let a := dispatchStart cfg shmOk s c
  if a.2 then
    let b := dispatchLocked cfg a.1 c
    dispatchTail cfg invokeOk b.1 c b.2
  else (a.1, false)

/-- The front of `pending_external_func_calls_` moved into the running table. -/
def popPending (s : Server) : Server × Option Nat :=
  match s.pending with
  | p :: rest => ({ s with pending := rest }.putRunning (s.callOf p) p, some p)
  | [] => (s, none)

@[simp] theorem popPending_contexts (s : Server) : (popPending s).1.contexts = s.contexts := by
  unfold popPending; split <;> simp

@[simp] theorem popPending_nextCallId (s : Server) : (popPending s).1.nextCallId = s.nextCallId := by
  unfold popPending; split <;> simp

@[simp] theorem popPending_dispatcherCalls (s : Server) :
    (popPending s).1.dispatcherCalls = s.dispatcherCalls := by
  unfold popPending; split <;> simp

@[simp] theorem popPending_discarded (s : Server) : (popPending s).1.discarded = s.discarded := by
  unfold popPending; split <;> simp

/-- What the locked section of `OnRecvMessage`'s `FUNC_CALL_COMPLETE` /
`FUNC_CALL_FAILED` branch leaves: the external context it took out of the running table,
the pending one it promoted, and whether there is a dispatcher. -/
structure RecvOut where
  srv : Server
  taken : Option Nat
  promoted : Option Nat
  found : Bool

/-- The running-table part of that section. -/
def recvTake (s : Server) (fc : FuncCall) : Server × Option Nat × Option Nat :=
  match (if fc.clientId = 0 then s.running.lookup fc else none) with
  | some c =>
    let s := { s with running := s.running.erase fc }
    if s.pending ≠ [] ∧ s.HasRoom cfg then ((popPending s).1, some c, (popPending s).2)
    else (s, some c, none)
  | none => (s, none, none)

@[simp] theorem recvTake_contexts (s : Server) (fc) : (recvTake cfg s fc).1.contexts = s.contexts := by
  unfold recvTake; split
  · dsimp only; split_ifs <;> simp
  · rfl

@[simp] theorem recvTake_nextCallId (s : Server) (fc) : (recvTake cfg s fc).1.nextCallId = s.nextCallId := by
  unfold recvTake; split
  · dsimp only; split_ifs <;> simp
  · rfl

@[simp] theorem recvTake_dispatcherCalls (s : Server) (fc) :
    (recvTake cfg s fc).1.dispatcherCalls = s.dispatcherCalls := by
  unfold recvTake; split
  · dsimp only; split_ifs <;> simp
  · rfl

@[simp] theorem recvTake_discarded (s : Server) (fc) : (recvTake cfg s fc).1.discarded = s.discarded := by
  unfold recvTake; split
  · dsimp only; split_ifs <;> simp
  · rfl

def recvLocked (s : Server) (m : Message) : RecvOut :=
  let t := recvTake cfg s m.funcCall
  let d := getOrCreateDispatcherLocked cfg t.1 m.funcCall.funcId
  ⟨d.1, t.2.1, t.2.2, d.2⟩

/-- `FinishWithShmOutput`; `ok` is whether `ShmOpen` succeeds on a linked region. -/
def finishWithShmOutput (ok : Bool) (s : Server) (c : Nat) : Server :=
  match (if ok then s.shm (.funcCallOutput (s.callOf c)) else none) with
  | some data => (s.modifyCtx c fun st => { st with outputRegion := true }).respond c
      fun _ => Ctx.finishWithOutput data
  | none => s.respond c Ctx.finishWithError

@[simp] theorem finishWithShmOutput_contexts (ok s c) :
    (finishWithShmOutput ok s c).contexts = s.contexts := by
  unfold finishWithShmOutput; split <;> rfl

@[simp] theorem finishWithShmOutput_running (ok s c) :
    (finishWithShmOutput ok s c).running = s.running := by
  unfold finishWithShmOutput; split <;> rfl

@[simp] theorem finishWithShmOutput_pending (ok s c) :
    (finishWithShmOutput ok s c).pending = s.pending := by
  unfold finishWithShmOutput; split <;> rfl

@[simp] theorem finishWithShmOutput_nextCallId (ok s c) :
    (finishWithShmOutput ok s c).nextCallId = s.nextCallId := by
  unfold finishWithShmOutput; split <;> rfl

@[simp] theorem finishWithShmOutput_dispatcherCalls (ok s c) :
    (finishWithShmOutput ok s c).dispatcherCalls = s.dispatcherCalls := by
  unfold finishWithShmOutput; split <;> rfl

@[simp] theorem finishWithShmOutput_discarded (ok s c) :
    (finishWithShmOutput ok s c).discarded = s.discarded := by
  unfold finishWithShmOutput; split <;> rfl

theorem finishWithShmOutput_response_ne (ok : Bool) (s : Server) {c d : Nat} (h : d ≠ c) :
    ((finishWithShmOutput ok s c).ctxState d).response = (s.ctxState d).response := by
  unfold finishWithShmOutput; split <;> simp [respond_response, h, modifyCtx, Function.update_noteq h]

/-- `output_size` of a `FUNC_CALL_COMPLETE`. -/
def completeOutputSize (m : Message) : Nat := m.payloadSize.abs.toSizeT

/-- The rest of the `FUNC_CALL_COMPLETE` / `FUNC_CALL_FAILED` branch: the dispatcher hears
of it, and the external context taken out is finalized. -/
def recvTail (ok : Bool) (s : Server) (m : Message) (c : Option Nat) (found : Bool) : Server :=
  let s := if found then
      { s with dispatcherCalls := s.dispatcherCalls ++
          [if m.messageType = .funcCallComplete then
            .onFuncCallCompleted m.funcCall m.processingTime m.dispatchDelay (completeOutputSize m)
          else .onFuncCallFailed m.funcCall m.dispatchDelay] }
    else s
  if m.funcCall.clientId = 0 then
    match c with
    | some c =>
      if m.messageType = .funcCallComplete then
        if m.payloadSize.val < 0 then finishWithShmOutput ok s c
        else s.respond c fun _ => Ctx.finishWithOutput m.inlineData
      else s.respond c Ctx.finishWithError
    | none => s
  else s

theorem recvTail_eq (ok : Bool) (s : Server) (m : Message) (c : Option Nat) (found : Bool) :
    ∃ t : Server, t.contexts = s.contexts ∧ t.ctxState = s.ctxState ∧ t.shm = s.shm ∧
      recvTail ok s m c found = recvTail ok t m c false := by
  cases found
  · exact ⟨s, rfl, rfl, rfl, rfl⟩
  · refine ⟨_, ?_, ?_, ?_, rfl⟩ <;> rfl

theorem recvTail_frame (ok s m c d) :
    (recvTail ok s m c d).contexts = s.contexts ∧ (recvTail ok s m c d).nextCallId = s.nextCallId ∧
      (recvTail ok s m c d).running = s.running ∧ (recvTail ok s m c d).pending = s.pending ∧
      (recvTail ok s m c d).discarded = s.discarded := by
  have base : ∀ t : Server, t.contexts = s.contexts → t.nextCallId = s.nextCallId →
      t.running = s.running → t.pending = s.pending → t.discarded = s.discarded →
      (recvTail ok t m c false).contexts = s.contexts ∧ (recvTail ok t m c false).nextCallId = s.nextCallId ∧
        (recvTail ok t m c false).running = s.running ∧ (recvTail ok t m c false).pending = s.pending ∧
        (recvTail ok t m c false).discarded = s.discarded := by
    intro t h1 h2 h3 h4 h5
    simp only [recvTail, Bool.false_eq_true, ↓reduceIte]
    split_ifs <;> (try split) <;> simp only [finishWithShmOutput_contexts, finishWithShmOutput_nextCallId,
      finishWithShmOutput_running, finishWithShmOutput_pending, finishWithShmOutput_discarded, respond_contexts,
      respond_nextCallId, respond_running, respond_pending, respond_discarded, h1, h2, h3, h4, h5, and_self]
  cases d
  · exact base s rfl rfl rfl rfl rfl
  · exact base _ rfl rfl rfl rfl rfl

@[simp] theorem recvTail_contexts (ok s m c d) : (recvTail ok s m c d).contexts = s.contexts :=
  (recvTail_frame ok s m c d).1

@[simp] theorem recvTail_nextCallId (ok s m c d) : (recvTail ok s m c d).nextCallId = s.nextCallId :=
  (recvTail_frame ok s m c d).2.1

@[simp] theorem recvTail_running (ok s m c d) : (recvTail ok s m c d).running = s.running :=
  (recvTail_frame ok s m c d).2.2.1

@[simp] theorem recvTail_pending (ok s m c d) : (recvTail ok s m c d).pending = s.pending :=
  (recvTail_frame ok s m c d).2.2.2.1

@[simp] theorem recvTail_discarded (ok s m c d) : (recvTail ok s m c d).discarded = s.discarded :=
  (recvTail_frame ok s m c d).2.2.2.2

/-- The locked section of the `INVOKE_FUNC` branch of `OnRecvMessage`. -/
def recvInvokeLocked (s : Server) (m : Message) : Server × Bool :=
  let s := if m.payloadSize.val < 0 then { s with inputUseShm := s.inputUseShm + 1 } else s
  getOrCreateDispatcherLocked cfg s m.funcCall.funcId

theorem recvInvokeLocked_eq (s : Server) (m : Message) :
    (recvInvokeLocked cfg s m).1 = { s with inputUseShm := (recvInvokeLocked cfg s m).1.inputUseShm,
                                             dispatchers := (recvInvokeLocked cfg s m).1.dispatchers } := by
  unfold recvInvokeLocked; split_ifs <;> simp

@[simp] theorem recvInvokeLocked_contexts (s m) : (recvInvokeLocked cfg s m).1.contexts = s.contexts := by
  unfold recvInvokeLocked; split_ifs <;> simp

@[simp] theorem recvInvokeLocked_nextCallId (s m) : (recvInvokeLocked cfg s m).1.nextCallId = s.nextCallId := by
  unfold recvInvokeLocked; split_ifs <;> simp

@[simp] theorem recvInvokeLocked_running (s m) : (recvInvokeLocked cfg s m).1.running = s.running := by
  unfold recvInvokeLocked; split_ifs <;> simp

@[simp] theorem recvInvokeLocked_pending (s m) : (recvInvokeLocked cfg s m).1.pending = s.pending := by
  unfold recvInvokeLocked; split_ifs <;> simp

@[simp] theorem recvInvokeLocked_dispatcherCalls (s m) :
    (recvInvokeLocked cfg s m).1.dispatcherCalls = s.dispatcherCalls := by
  unfold recvInvokeLocked; split_ifs <;> simp

@[simp] theorem recvInvokeLocked_discarded (s m) : (recvInvokeLocked cfg s m).1.discarded = s.discarded := by
  unfold recvInvokeLocked; split_ifs <;> simp

/-- `input_size`, inline data and `shm_input` that the `INVOKE_FUNC` branch passes on. -/
def invokeInput (m : Message) : Nat × List UInt8 × Bool :=
  if m.payloadSize.val < 0 then (m.payloadSize.neg.toSizeT, [], true)
  else (m.payloadSize.toSizeT, m.inlineData, false)

/-- The rest of the `INVOKE_FUNC` branch; `ok` is what `OnNewFuncCall` answers. -/
def recvInvokeTail (ok : Bool) (s : Server) (m : Message) (found : Bool) : Server :=
  if found then
    { s with dispatcherCalls := s.dispatcherCalls ++
        [.onNewFuncCall m.funcCall m.parentCallId (invokeInput m).1 (invokeInput m).2.1
          (invokeInput m).2.2 ok] }
  else s

@[simp] theorem recvInvokeTail_contexts (ok s m d) : (recvInvokeTail ok s m d).contexts = s.contexts := by
  unfold recvInvokeTail; split <;> rfl

@[simp] theorem recvInvokeTail_nextCallId (ok s m d) : (recvInvokeTail ok s m d).nextCallId = s.nextCallId := by
  unfold recvInvokeTail; split <;> rfl

@[simp] theorem recvInvokeTail_running (ok s m d) : (recvInvokeTail ok s m d).running = s.running := by
  unfold recvInvokeTail; split <;> rfl

@[simp] theorem recvInvokeTail_pending (ok s m d) : (recvInvokeTail ok s m d).pending = s.pending := by
  unfold recvInvokeTail; split <;> rfl

@[simp] theorem recvInvokeTail_discarded (ok s m d) : (recvInvokeTail ok s m d).discarded = s.discarded := by
  unfold recvInvokeTail; split <;> rfl

/-- The first loop of `ProcessDiscardedFuncCallIfNecessary`: the external calls still in
the running table are taken out, the internal ones kept. -/
def takeDiscarded (s : Server) : List FuncCall → Server × List Nat × List FuncCall
  | [] => (s, [], [])
  | fc :: rest =>
    if fc.clientId = 0 then
      match s.running.lookup fc with
      | some c =>
        let r := takeDiscarded { s with running := s.running.erase fc } rest
        (r.1, c :: r.2.1, r.2.2)
      | none => takeDiscarded s rest
    else
      let r := takeDiscarded s rest
      (r.1, r.2.1, fc :: r.2.2)

theorem takeDiscarded_eq (s : Server) (l : List FuncCall) :
    (takeDiscarded s l).1 = { s with running := (takeDiscarded s l).1.running } := by
  induction l generalizing s with
  | nil => rfl
  | cons fc rest ih =>
    simp only [takeDiscarded]
    split_ifs
    · split
      · exact ih _
      · exact ih s
    · exact ih s

@[simp] theorem takeDiscarded_contexts (s : Server) (l) : (takeDiscarded s l).1.contexts = s.contexts := by
  rw [takeDiscarded_eq]

@[simp] theorem takeDiscarded_nextCallId (s : Server) (l) :
    (takeDiscarded s l).1.nextCallId = s.nextCallId := by
  rw [takeDiscarded_eq]

@[simp] theorem takeDiscarded_pending (s : Server) (l) : (takeDiscarded s l).1.pending = s.pending := by
  rw [takeDiscarded_eq]

@[simp] theorem takeDiscarded_dispatcherCalls (s : Server) (l) :
    (takeDiscarded s l).1.dispatcherCalls = s.dispatcherCalls := by
  rw [takeDiscarded_eq]

/-- The `while` loop of `ProcessDiscardedFuncCallIfNecessary`, over the queue that is
`pending_external_func_calls_`: fronts are promoted while there is room. -/
def promote (s : Server) : List Nat → Server × List Nat
  | [] => (s, [])
  | p :: rest =>
    if s.HasRoom cfg then
      let r := promote ({ s with pending := rest }.putRunning (s.callOf p) p) rest
      (r.1, p :: r.2)
    else (s, [])

@[simp] theorem promote_contexts (s : Server) (q : List Nat) :
    (promote cfg s q).1.contexts = s.contexts := by
  induction q generalizing s with
  | nil => rfl
  | cons p rest ih => simp only [promote]; split_ifs <;> simp [ih]

@[simp] theorem promote_nextCallId (s : Server) (q : List Nat) :
    (promote cfg s q).1.nextCallId = s.nextCallId := by
  induction q generalizing s with
  | nil => rfl
  | cons p rest ih => simp only [promote]; split_ifs <;> simp [ih]

@[simp] theorem promote_dispatcherCalls (s : Server) (q : List Nat) :
    (promote cfg s q).1.dispatcherCalls = s.dispatcherCalls := by
  induction q generalizing s with
  | nil => rfl
  | cons p rest ih => simp only [promote]; split_ifs <;> simp [ih]

@[simp] theorem promote_discarded (s : Server) (q : List Nat) :
    (promote cfg s q).1.discarded = s.discarded := by
  induction q generalizing s with
  | nil => rfl
  | cons p rest ih => simp only [promote]; split_ifs <;> simp [ih]

theorem popPending_response (s : Server) (d : Nat) :
    ((popPending s).1.ctxState d).response = (s.ctxState d).response := by
  unfold popPending; split
  · exact putRunning_response _ _ _ _
  · rfl

theorem promote_response (s : Server) (q : List Nat) (d : Nat) :
    ((promote cfg s q).1.ctxState d).response = (s.ctxState d).response := by
  induction q generalizing s with
  | nil => rfl
  | cons p rest ih =>
    simp only [promote]
    split_ifs
    · exact (ih _).trans (putRunning_response _ _ _ _)
    · rfl

/-- What the locked section of `ProcessDiscardedFuncCallIfNecessary` leaves: the external
contexts it took out, the internal calls to answer, and the contexts it promoted. -/
structure SweepOut where
  srv : Server
  external : List Nat
  internal : List FuncCall
  promoted : List Nat

def sweepLocked (s : Server) : SweepOut :=
  let t := takeDiscarded s s.discarded
  let p := promote cfg { t.1 with discarded := [] } t.1.pending
  ⟨p.1, t.2.1, t.2.2, p.2⟩

theorem recvLocked_response (s : Server) (m : Message) (d : Nat) :
    ((recvLocked cfg s m).srv.ctxState d).response = (s.ctxState d).response := by
  simp only [recvLocked, getOrCreateDispatcherLocked_fst]
  show ((recvTake cfg s m.funcCall).1.ctxState d).response = _
  unfold recvTake; split
  · dsimp only; split_ifs
    · exact popPending_response _ _
    · rfl
  · rfl

theorem sweepLocked_response (s : Server) (d : Nat) :
    ((sweepLocked cfg s).srv.ctxState d).response = (s.ctxState d).response := by
  simp only [sweepLocked]
  rw [promote_response]
  show ((takeDiscarded s s.discarded).1.ctxState d).response = _
  rw [takeDiscarded_eq]

end Server

/-- A piece of a handler still to run. -/
inductive Instr
  | newExternalFuncCall (c : Nat)
  | dispatch (c : Nat)
  | dispatchLocked (c : Nat)
  | dispatchTail (c : Nat) (found : Bool)
  | erase (c : Nat)
  | recv (m : Message)
  | recvTail (m : Message) (c : Option Nat) (found : Bool)
  | invokeTail (m : Message) (found : Bool)
  | destroy (c : Nat)
  | sweep
  | finishDiscarded (c : Nat)
  | notify (fc : FuncCall)
  | discard (fc : FuncCall)
deriving DecidableEq

open Server in
/-- Run one piece; the result is the new state and the pieces that come next. A failed
dispatch is followed by its caller's `erase`, whichever of the three callers it is. -/
def exec (cfg : Config) (ok : Bool) (s : Server) : Instr → Server × List Instr
  | .newExternalFuncCall c =>
    let r := newExternalFuncCallLocked cfg s c
    (r.1, if r.2 then [.dispatch c] else [])
  | .dispatch c =>
    let r := dispatchStart cfg ok s c
    (r.1, if r.2 then [.dispatchLocked c] else [.erase c])
  | .dispatchLocked c =>
    let r := dispatchLocked cfg s c
    (r.1, [.dispatchTail c r.2])
  | .dispatchTail c found =>
    let r := dispatchTail cfg ok s c found
    (r.1, if r.2 then [] else [.erase c])
  -- `running_external_func_calls_.erase(func_call_for_dispatch->call().full_call_id)` reads
  -- the call through the caller's raw pointer; if a sweep deleted the context first, that is
  -- a read of freed memory, which the model takes as the context's own call
  | .erase c => (s.eraseRunning (s.callOf c), [])
  | .recv m =>
    match m.messageType with
    | .invokeFunc =>
      let r := recvInvokeLocked cfg s m
      (r.1, [.invokeTail m r.2, .sweep])
    | .funcCallComplete | .funcCallFailed =>
      let r := recvLocked cfg s m
      (r.srv, .recvTail m r.taken r.found ::
        (r.promoted.toList.map .dispatch ++ r.taken.toList.map .destroy ++ [.sweep]))
    | _ => (s, [.sweep])
  | .recvTail m c found => (recvTail ok s m c found, [])
  | .invokeTail m found => (recvInvokeTail ok s m found, [])
  | .destroy c => (s.destroy c, [])
  | .sweep =>
    let r := sweepLocked cfg s
    (r.srv, r.external.map .finishDiscarded ++ r.external.map .destroy ++
      r.internal.map .notify ++ r.promoted.map .dispatch)
  | .finishDiscarded c => (s.respond c Ctx.finishWithDispatchFailure, [])
  | .notify fc => ({ s with finishedInternal := s.finishedInternal ++ [fc] }, [])
  | .discard fc => ({ s with discarded := s.discarded ++ [fc] }, [])

@[simp] theorem exec_contexts (cfg : Config) (ok : Bool) (s : Server) (i : Instr) :
    (exec cfg ok s i).1.contexts = s.contexts := by
  cases i <;> simp only [exec]
  case recv m => split <;> simp [Server.recvLocked]
  case sweep => simp [Server.sweepLocked]
  all_goals simp

@[simp] theorem exec_nextCallId (cfg : Config) (ok : Bool) (s : Server) (i : Instr) :
    (exec cfg ok s i).1.nextCallId = s.nextCallId := by
  cases i <;> simp only [exec]
  case recv m => split <;> simp [Server.recvLocked]
  case sweep => simp [Server.sweepLocked]
  all_goals simp

/-- What reaches the gateway from outside. A `connectionClose` is `OnConnectionClose` of
a message connection, during which the `WorkerManager`'s disconnect callbacks call
`DiscardFuncCall` on the listed calls. -/
inductive Event
  | httpCall (funcId : UInt16) (body : List UInt8)
  | grpcCall (funcId methodId : UInt16) (body : List UInt8)
  | message (m : Message)
  | handshake (m : Message)
  | connectionClose (discards : List FuncCall)
deriving DecidableEq

/-- A handler started by an event: the state it starts from and the pieces it runs.
A handshake that passes `OnNewHandshake`'s checks as a function worker's ends in
`ProcessDiscardedFuncCallIfNecessary`. -/
def spawn (cfg : Config) (s : Server) : Event → Server × List Instr
  | .httpCall f body => (s.construct .http f 0 body, [.newExternalFuncCall s.contexts.length])
  | .grpcCall f mth body => (s.construct .grpc f mth body, [.newExternalFuncCall s.contexts.length])
  | .message m => (s, [.recv m])
  | .handshake m =>
    (s, if m.messageType = .funcWorkerHandshake ∧ cfg.knownFuncId m.funcCall.funcId = true
      then [.sweep] else [])
  | .connectionClose fcs => (s, fcs.map .discard)

end Nightcore.Gateway
