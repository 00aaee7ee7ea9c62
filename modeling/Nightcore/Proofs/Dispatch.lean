import Nightcore.Gateway.Handlers

/-! The input path of `DispatchExternalFuncCall`. Its three tests of the body's length
against `MESSAGE_INLINE_DATA_SIZE` agree: a longer body goes to a region named after the
call, filled with the body, and the dispatcher is told `shm_input`; a body that fits is
passed inline and no region is made. Either way the bytes a worker reads are the body. -/

namespace Nightcore.Gateway

open Server

variable (cfg : Config)

/-- What a worker given an `OnNewFuncCall` reads as the call's input: the inline bytes, or
the input region named after the call. -/
def Server.invocationInput (s : Server) : DispatcherCall → Option (List UInt8)
  | .onNewFuncCall fc _ _ inline shmInput _ => if shmInput then s.shm (.funcCallInput fc) else some inline
  | _ => none

theorem dispatchLocked_spec (s : Server) (c : Nat) :
    (dispatchLocked cfg s c).1.shm = s.shm ∧
    (dispatchLocked cfg s c).1.dispatcherCalls = s.dispatcherCalls ∧
    (dispatchLocked cfg s c).1.inputUseShm =
      s.inputUseShm + (if (s.ctx c).input.length > cfg.messageInlineDataSize then 1 else 0) ∧
    (dispatchLocked cfg s c).1.ctx c = s.ctx c ∧
    (dispatchLocked cfg s c).2 =
      (decide ((s.callOf c).funcId ∈ s.dispatchers) || cfg.knownFuncId (s.callOf c).funcId) := by
  unfold dispatchLocked
  split_ifs <;> simp [callOf, ctx]

theorem dispatchTail_spec (ok : Bool) (s : Server) (c : Nat) (found : Bool) :
    let input := (s.ctx c).input
    (dispatchTail cfg ok s c found).1.shm = s.shm ∧
    (dispatchTail cfg ok s c found).1.inputUseShm = s.inputUseShm ∧
    (dispatchTail cfg ok s c found).1.dispatcherCalls = s.dispatcherCalls ++
      if found then [.onNewFuncCall (s.callOf c) cfg.invalidFuncCall input.length
        (if input.length ≤ cfg.messageInlineDataSize then input else [])
        (decide (cfg.messageInlineDataSize < input.length)) ok] else [] := by
  unfold dispatchTail
  by_cases hb : (s.ctx c).input.length ≤ cfg.messageInlineDataSize
  · simp only [if_pos hb]; split_ifs <;> simp_all [respond, modifyCtx]
  · simp only [if_neg hb]; split_ifs <;> simp_all [respond, modifyCtx]

/-- The shm path is taken exactly for a body longer than the inline limit, at all three
tests; the region made on it holds the body; no region is made on the inline path; the
dispatcher is called once, with the body's length, exactly when the region (if any) was
made and a dispatcher exists, and what the worker reads is the body. -/
theorem dispatch_input_path (shmOk invokeOk : Bool) (s : Server) (c : Nat) :
    let body := (s.ctx c).input
    let shmPath := decide (cfg.messageInlineDataSize < body.length)
    let call := DispatcherCall.onNewFuncCall (s.callOf c) cfg.invalidFuncCall body.length
      (if shmPath then [] else body) shmPath invokeOk
    let r := (dispatchExternalFuncCall cfg shmOk invokeOk s c).1
    (shmPath = false → r.shm = s.shm) ∧
    (shmPath = true → shmOk = true → r.shm (.funcCallInput (s.callOf c)) = some body) ∧
    r.inputUseShm = s.inputUseShm + (if shmPath && shmOk then 1 else 0) ∧
    r.dispatcherCalls = s.dispatcherCalls ++
      (if (shmPath = false ∨ shmOk = true) ∧
          ((s.callOf c).funcId ∈ s.dispatchers ∨ cfg.knownFuncId (s.callOf c).funcId = true)
        then [call] else []) ∧
    (shmPath = false ∨ shmOk = true → r.invocationInput call = some body) := by
  intro body shmPath call r
  -- after the shm test, the locked section and the tail act on `t`
  have rest : ∀ t : Server, t.contexts = s.contexts → t.dispatchers = s.dispatchers →
      t.dispatcherCalls = s.dispatcherCalls →
      let r := (dispatchTail cfg invokeOk (dispatchLocked cfg t c).1 c (dispatchLocked cfg t c).2).1
      r.shm = t.shm ∧ r.inputUseShm = t.inputUseShm + (if shmPath then 1 else 0) ∧
      r.dispatcherCalls = s.dispatcherCalls ++
        if (s.callOf c).funcId ∈ s.dispatchers ∨ cfg.knownFuncId (s.callOf c).funcId = true then
          [call] else [] := by
    intro t hc hd hcalls
    obtain ⟨l1, l2, l3, l4, l5⟩ := dispatchLocked_spec cfg t c
    obtain ⟨t1, t2, t3⟩ := dispatchTail_spec cfg invokeOk (dispatchLocked cfg t c).1 c
      (dispatchLocked cfg t c).2
    have hct : t.ctx c = s.ctx c := ctx_eq_of_contexts hc c
    refine ⟨t1.trans l1, t2.trans (by simp [l3, hct, shmPath, body]), ?_⟩
    rw [t3, l2, hcalls, l5]
    simp only [l4, hct, callOf, hd, shmPath, body, call]
    by_cases hb : cfg.messageInlineDataSize < (s.ctx c).input.length
    · simp [hb, Nat.not_le.mpr hb]
    · simp [hb, Nat.not_lt.mp hb]
  simp only [r, dispatchExternalFuncCall, dispatchStart]
  by_cases hb : cfg.messageInlineDataSize < body.length
  · have hp : shmPath = true := decide_eq_true hb
    cases shmOk
    · -- `ShmCreate` fails: the call ends before the lock, with no dispatcher call
      simp [hb, createShmInput, respond, modifyCtx, hp]
    · obtain ⟨h1, h2, h3⟩ := rest (createShmInput true s c).1 rfl rfl rfl
      have hshm : (createShmInput true s c).1.shm (.funcCallInput (s.callOf c)) = some body := by
        simp [createShmInput, body]
      have hs : (createShmInput true s c).2 = true := rfl
      simp only [gt_iff_lt, hb, hs, ↓reduceIte]
      refine ⟨fun h => by simp [hp] at h, fun _ _ => by rw [h1]; exact hshm, ?_, ?_, fun _ => ?_⟩
      · rw [h2]; simp [createShmInput, hp]
      · simpa only [or_true, true_and] using h3
      · simp [call, invocationInput, h1, hshm, hp]
  · have hp : shmPath = false := decide_eq_false hb
    obtain ⟨h1, h2, h3⟩ := rest s rfl rfl rfl
    simp only [gt_iff_lt, hb, ↓reduceIte]
    refine ⟨fun _ => h1, fun h => by simp [hp] at h, by rw [h2]; simp [hp], ?_, fun _ => ?_⟩
    · simpa only [hp, true_or, true_and] using h3
    · simp [call, invocationInput, hp]

end Nightcore.Gateway
