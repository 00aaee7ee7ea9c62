import Nightcore.Gateway.Run

/-! How external contexts are finalized. `DispatchExternalFuncCall` finalizes a context
whose dispatch failed while the context is still in the running table, and its caller
erases it only afterwards; a sweep that runs in between finds the context there and
finalizes it a second time. -/

namespace Nightcore.Gateway

/-- A request whose `OnNewFuncCall` answers `false`; before the dispatching handler erases
it, the worker's connection closes, the call is discarded, and a worker handshake's
sweep takes the context out of the running table. -/
def dispatchFailureRace : List Action :=
  [.spawn (.httpCall 1 [104, 105]), .exec 0 true, .exec 0 true, .exec 0 true, .exec 0 false,
   .spawn (.connectionClose [⟨1, 0, 0, 1⟩]), .exec 1 true,
   .spawn (.handshake (workerHandshake 1)), .exec 2 true, .exec 2 true, .exec 2 true,
   .exec 0 true]

/-- The race ends with no handler mid-flight and the request's context finalized twice. -/
theorem dispatch_failure_race_finishes_twice :
    ∃ s, Sys.init.replay scenarioConfig dispatchFailureRace = some s ∧
      ProtoReachable scenarioConfig s ∧ s.Quiescent ∧ (s.srv.ctxState 0).response.finishes = 2 := by
  obtain ⟨s, hs, hq, hf⟩ : ∃ s, Sys.init.replay scenarioConfig dispatchFailureRace = some s ∧
      s.Quiescent ∧ (s.srv.ctxState 0).response.finishes = 2 := ⟨_, rfl, by decide, by decide⟩
  exact ⟨s, hs, Sys.replay_protoReachable _ .refl hs, hq, hf⟩

/-- The three ways `ExternalFuncCallContext` answers its client. -/
inductive Finalization
  /-- `FinishWithOutput`, and `FinishWithShmOutput` once the output region opened. -/
  | output (data : List UInt8)
  /-- `FinishWithError`: status 500, or `UNKNOWN`. -/
  | error
  /-- `FinishWithDispatchFailure`: status 404, or `UNIMPLEMENTED`. -/
  | dispatchFailure
deriving DecidableEq, Repr

/-- What a finalization does to the response of context `k`. -/
def Finalization.apply : Finalization → Ctx → Response → Response
  | .output data, _, r => Ctx.finishWithOutput data r
  | .error, k, r => k.finishWithError r
  | .dispatchFailure, k, r => k.finishWithDispatchFailure r

/-- Why running piece `ins` with outcome `ok` finalizes context `c`, and how: one
constructor for each way a context leaves. -/
inductive Finalizes (cfg : Config) (ok : Bool) (s : Server) (c : Nat) : Instr → Finalization → Prop
  /-- `ShmCreate` gives no input region for a body over the inline limit. -/
  | inputShmFailed : cfg.messageInlineDataSize < (s.ctx c).input.length → ok = false →
      Finalizes cfg ok s c (.dispatch c) .error
  /-- `GetOrCreateDispatcherLocked` finds no dispatcher. -/
  | noDispatcher : Finalizes cfg ok s c (.dispatchTail c false) .dispatchFailure
  /-- `Dispatcher::OnNewFuncCall` answers `false`. -/
  | rejected : ok = false → Finalizes cfg ok s c (.dispatchTail c true) .dispatchFailure
  /-- A `FUNC_CALL_COMPLETE` took the context out of the running table; inline output. -/
  | inlineOutput (m : Message) (found : Bool) : m.funcCall.clientId = 0 →
      m.messageType = .funcCallComplete → 0 ≤ m.payloadSize.val →
      Finalizes cfg ok s c (.recvTail m (some c) found) (.output m.inlineData)
  /-- The same with the output in a region that `ShmOpen` opens. -/
  | shmOutput (m : Message) (found : Bool) (data : List UInt8) : m.funcCall.clientId = 0 →
      m.messageType = .funcCallComplete → m.payloadSize.val < 0 → ok = true →
      s.shm (.funcCallOutput (s.callOf c)) = some data →
      Finalizes cfg ok s c (.recvTail m (some c) found) (.output data)
  /-- The same with an output region that does not open. -/
  | shmOutputMissing (m : Message) (found : Bool) : m.funcCall.clientId = 0 →
      m.messageType = .funcCallComplete → m.payloadSize.val < 0 →
      (ok = false ∨ s.shm (.funcCallOutput (s.callOf c)) = none) →
      Finalizes cfg ok s c (.recvTail m (some c) found) .error
  /-- A `FUNC_CALL_FAILED` took the context out of the running table. -/
  | failed (m : Message) (found : Bool) : m.funcCall.clientId = 0 →
      m.messageType = .funcCallFailed → Finalizes cfg ok s c (.recvTail m (some c) found) .error
  /-- A sweep took the context of a discarded call out of the running table. -/
  | discarded : Finalizes cfg ok s c (.finishDiscarded c) .dispatchFailure

open Server

theorem Finalizes.exec_response {cfg : Config} {ok : Bool} {s : Server} {c : Nat} {ins : Instr}
    {v : Finalization} (h : Finalizes cfg ok s c ins v) :
    ((exec cfg ok s ins).1.ctxState c).response = v.apply (s.ctx c) (s.ctxState c).response := by
  cases h with
  | inputShmFailed hbig hok =>
    subst hok
    simp [exec, dispatchStart, hbig, createShmInput, respond_response, Finalization.apply]
  | noDispatcher => simp [exec, dispatchTail, respond_response, Finalization.apply]
  | rejected hok =>
    subst hok
    simp [exec, dispatchTail, respond_response, Finalization.apply, ctx]
  | inlineOutput m found h0 hc hp =>
    obtain ⟨t, h1, h2, -, he⟩ := recvTail_eq ok s m (some c) found
    simp only [exec, he]
    simp [recvTail, h0, hc, not_lt.2 hp, respond_response, Finalization.apply, h2, ctx_eq_of_contexts h1]
  | shmOutput m found data h0 hc hp hok hd =>
    obtain ⟨t, h1, h2, h3, he⟩ := recvTail_eq ok s m (some c) found
    have hcall : t.callOf c = s.callOf c := congrArg Ctx.call (ctx_eq_of_contexts h1 c)
    subst hok
    simp only [exec, he]
    simp [recvTail, h0, hc, hp, finishWithShmOutput, hcall, h3, hd, respond_response, Finalization.apply,
      h2, modifyCtx]
  | shmOutputMissing m found h0 hc hp hd =>
    obtain ⟨t, h1, h2, h3, he⟩ := recvTail_eq ok s m (some c) found
    have hcall : t.callOf c = s.callOf c := congrArg Ctx.call (ctx_eq_of_contexts h1 c)
    have hnone : (if ok = true then t.shm (.funcCallOutput (t.callOf c)) else none) = none := by
      rcases hd with rfl | hd
      · rfl
      · simp [hcall, h3, hd]
    simp only [exec, he]
    simp [recvTail, h0, hc, hp, finishWithShmOutput, hnone, respond_response, Finalization.apply, h2,
      ctx_eq_of_contexts h1]
  | failed m found h0 hf =>
    obtain ⟨t, h1, h2, -, he⟩ := recvTail_eq ok s m (some c) found
    simp only [exec, he]
    simp [recvTail, h0, hf, respond_response, Finalization.apply, h2, ctx_eq_of_contexts h1]
  | discarded => simp [exec, respond_response, Finalization.apply]

@[simp] theorem Finalization.apply_finishes (v : Finalization) (k : Ctx) (r : Response) :
    (v.apply k r).finishes = r.finishes + 1 := by
  cases v <;> simp [Finalization.apply]

theorem Finalizes.finishes_pos {cfg : Config} {ok : Bool} {s : Server} {c : Nat} {ins : Instr}
    {v : Finalization} (h : Finalizes cfg ok s c ins v) :
    0 < ((exec cfg ok s ins).1.ctxState c).response.finishes := by
  rw [h.exec_response, Finalization.apply_finishes]
  omega

theorem Finalizes.recvTail_taken (cfg : Config) (ok : Bool) (s : Server) (c : Nat) {m : Message}
    (found : Bool) (h0 : m.funcCall.clientId = 0)
    (ht : m.messageType = .funcCallComplete ∨ m.messageType = .funcCallFailed) :
    ∃ v, Finalizes cfg ok s c (.recvTail m (some c) found) v := by
  rcases ht with hc | hf
  · by_cases hp : m.payloadSize.val < 0
    · cases ok with
      | false => exact ⟨_, .shmOutputMissing m found h0 hc hp (.inl rfl)⟩
      | true =>
        cases hs : s.shm (.funcCallOutput (s.callOf c)) with
        | none => exact ⟨_, .shmOutputMissing m found h0 hc hp (.inr hs)⟩
        | some data => exact ⟨_, .shmOutput m found data h0 hc hp rfl hs⟩
    · exact ⟨_, .inlineOutput m found h0 hc (le_of_not_lt hp)⟩
  · exact ⟨_, .failed m found h0 hf⟩

theorem exec_response_cases (cfg : Config) (ok : Bool) (s : Server) (ins : Instr) (c : Nat)
    (hins : ∀ m d found, ins = .recvTail m d found →
      m.messageType = .funcCallComplete ∨ m.messageType = .funcCallFailed) :
    ((exec cfg ok s ins).1.ctxState c).response = (s.ctxState c).response ∨
      ∃ v, Finalizes cfg ok s c ins v := by
  cases ins with
  | newExternalFuncCall d =>
    left
    simp only [exec, newExternalFuncCallLocked]
    split
    · exact putRunning_response _ _ _ _
    · rfl
  | dispatch d =>
    simp only [exec, dispatchStart]
    split_ifs with hbig
    · unfold createShmInput
      cases ok
      · simp only [Bool.false_eq_true, ↓reduceIte, respond_response]
        split_ifs with hcd
        · subst hcd; exact .inr ⟨_, .inputShmFailed hbig rfl⟩
        · exact .inl rfl
      · left
        by_cases hcd : c = d
        · subst hcd; simp [modifyCtx]
        · simp [modifyCtx, Function.update_noteq hcd]
    · exact .inl rfl
  | dispatchLocked d =>
    left
    simp only [exec]
    rw [dispatchLocked_eq]
  | dispatchTail d found =>
    by_cases hcd : c = d
    · subst hcd
      cases found
      · exact .inr ⟨_, .noDispatcher⟩
      · cases ok
        · exact .inr ⟨_, .rejected rfl⟩
        · exact .inl rfl
    · left
      cases found <;> cases ok <;> simp [exec, dispatchTail, respond_response, hcd]
  | erase d => exact .inl (eraseRunning_response _ _ _)
  | recv m =>
    left
    simp only [exec]
    split
    · rw [recvInvokeLocked_eq]
    · exact recvLocked_response _ _ _ _
    · exact recvLocked_response _ _ _ _
    · rfl
  | recvTail m d found =>
    by_cases hd : m.funcCall.clientId = 0 ∧ d = some c
    · obtain ⟨h0, rfl⟩ := hd
      exact .inr (Finalizes.recvTail_taken cfg ok s c found h0 (hins m _ found rfl))
    · -- another context, or a worker's own call: the response of `c` is untouched
      left
      obtain ⟨t, -, h2, -, he⟩ := recvTail_eq ok s m d found
      simp only [exec, he]
      unfold recvTail
      simp only [Bool.false_eq_true, ↓reduceIte]
      by_cases h0 : m.funcCall.clientId = 0
      · rcases d with _ | e
        · simp [h0, h2]
        · have hne : c ≠ e := fun h => hd ⟨h0, h ▸ rfl⟩
          simp only [h0, ↓reduceIte]
          split_ifs <;> simp [respond_response, finishWithShmOutput_response_ne _ _ hne, hne, h2]
      · simp [h0, h2]
  | invokeTail m found =>
    left
    simp only [exec, recvInvokeTail]
    split <;> rfl
  | destroy d => exact .inl (destroy_response _ _ _)
  | sweep => exact .inl (sweepLocked_response _ _ _)
  | finishDiscarded d =>
    by_cases hcd : c = d
    · subst hcd; exact .inr ⟨_, .discarded⟩
    · left; simp [exec, respond_response, hcd]
  | notify fc => exact .inl rfl
  | discard fc => exact .inl rfl

/-- A message handler's continuation is only ever for a completion or a failure. -/
def TailsOk (tasks : List Instr) : Prop :=
  ∀ m d found, Instr.recvTail m d found ∈ tasks →
    m.messageType = .funcCallComplete ∨ m.messageType = .funcCallFailed

theorem exec_recvTail {cfg : Config} {ok : Bool} {s : Server} {ins : Instr} {m : Message}
    {d : Option Nat} {found : Bool} (hm : Instr.recvTail m d found ∈ (exec cfg ok s ins).2) :
    m.messageType = .funcCallComplete ∨ m.messageType = .funcCallFailed := by
  cases ins <;> simp only [exec] at hm
  case recv m' =>
    split at hm <;> simp_all
  all_goals (try split_ifs at hm) <;> simp_all

theorem tailsOk_reachable {cfg : Config} {s : Sys} (h : Reachable cfg s) : TailsOk s.tasks := by
  induction h with
  | refl => intro m d found hm; simp [Sys.init, Sys.tasks] at hm
  | tail _ hst ih =>
    obtain ⟨a, ha⟩ := hst
    intro m d found hm
    cases a with
    | spawn e =>
      simp only [Sys.act, Option.some.injEq] at ha
      subst ha
      simp only [Sys.tasks, List.flatten_append, List.flatten_singleton, List.mem_append] at hm
      rcases hm with hm | hm
      · exact ih m d found hm
      · cases e <;> simp only [spawn] at hm
        all_goals first | split_ifs at hm <;> simp_all | simp_all
    | exec i ok =>
      obtain ⟨ins, rest, hi, rfl⟩ := Sys.act_exec ha
      obtain ⟨others, h1, h2⟩ := Sys.tasks_set hi (exec cfg ok _ ins).2
      rcases List.mem_append.1 (h2.subset hm) with hm | hm
      · exact exec_recvTail hm
      · exact ih m d found (h1.symm.subset (List.mem_cons_of_mem _ hm))
    | shmOutput id data =>
      simp only [Sys.act, Option.some.injEq] at ha
      subst ha
      exact ih m d found hm

end Nightcore.Gateway
