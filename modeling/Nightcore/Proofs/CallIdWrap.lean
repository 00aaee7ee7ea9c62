import Nightcore.Proofs.Keys

/-! What happens past `2^32` arrivals. A request for function 1 is dispatched and its
worker never answers, so its context stays in `running_external_func_calls_`. Then
`2^32 - 1` requests for function 2, which has no configuration, arrive one after
another; each is admitted, fails its dispatch and is erased. The counter has then wrapped:
the next request for function 1 gets the id of the first context, and its admission
writes over the first context in the running table, which destroys it with its client
never answered. -/

namespace Nightcore.Gateway

open Server

/-- The id of the first context of the run. -/
def firstKey : FuncCall := ⟨1, 0, 0, 1⟩

/-- The server after the first request and `n` failed ones. -/
structure WrapState (n : Nat) (s : Server) : Prop where
  length : s.contexts.length = n + 1
  next : s.nextCallId = UInt32.ofNat (n + 2)
  first : s.ctx 0 = ⟨firstKey, .http, []⟩
  running : s.running.entries = [⟨firstKey, 0⟩]
  pending : s.pending = []
  dispatchers : s.dispatchers = [1]
  first_state : s.ctxState 0 = {}

theorem wrapState_arrival {n : Nat} {s : Server} (h : WrapState n s) :
    ∃ t, runAlone scenarioConfig (spawn scenarioConfig s (.httpCall 2 [])).1
      (spawn scenarioConfig s (.httpCall 2 [])).2 [true, true, true, true, true] = (t, []) ∧
      WrapState (n + 1) t := by
  set L := s.contexts.length
  set k := newFuncCallWithMethod 2 0 0 s.nextCallId
  set s1 := s.construct .http 2 0 []
  have hkey : s1.callOf L = k := construct_callOf_length s .http 2 0 []
  have hctx : s1.ctx L = ⟨k, .http, []⟩ := by simp [s1, L, k, ctx, List.getD_eq_getElem?_getD]
  have hroom : s1.HasRoom scenarioConfig := by
    simp [HasRoom, runningSize, AList.keys, h.running, scenarioConfig, s1, construct]
  have hne : k ≠ firstKey := by simp [k, newFuncCallWithMethod, firstKey]
  have hlook : s1.running.lookup k = none := by
    simp [s1, AList.lookup, h.running, List.dlookup_eq_none, List.keys, hne]
  -- admission
  set s2 : Server := { s1 with running := s1.running.insert k L }
  have e1 : exec scenarioConfig true s1 (.newExternalFuncCall L) = (s2, [.dispatch L]) := by
    simp only [exec, newExternalFuncCallLocked, hroom, ↓reduceIte, hkey,
      putRunning_of_lookup_eq_none hlook]
  -- an inline body, and no dispatcher for function 2
  have hctx2 : s2.ctx L = ⟨k, .http, []⟩ := hctx
  have hsmall : ¬ (s2.ctx L).input.length > scenarioConfig.messageInlineDataSize := by
    simp [hctx2, scenarioConfig]
  have e2 : exec scenarioConfig true s2 (.dispatch L) = (s2, [.dispatchLocked L]) := by
    simp only [exec, dispatchStart, hsmall, ↓reduceIte]
  have e3 : exec scenarioConfig true s2 (.dispatchLocked L) = (s2, [.dispatchTail L false]) := by
    have hcall2 : s2.callOf L = k := hkey
    have hd2 : s2.dispatchers = [1] := h.dispatchers
    simp only [exec, dispatchLocked, hsmall, ↓reduceIte, hcall2, getOrCreateDispatcherLocked, hd2]
    simp [k, newFuncCallWithMethod, scenarioConfig]
  -- dispatch failure, then the caller's erase
  set s3 := s2.respond L Ctx.finishWithDispatchFailure
  have e4 : exec scenarioConfig true s2 (.dispatchTail L false) = (s3, [.erase L]) := by
    simp [exec, dispatchTail, s3]
  have hcall3 : s3.callOf L = k := hkey
  have hlook3 : s3.running.lookup (s3.callOf L) = some L := by
    rw [hcall3]; exact AList.lookup_insert _
  have e5 : exec scenarioConfig true s3 (.erase L) =
      ({ s3 with running := s3.running.erase (s3.callOf L) }.destroy L, []) := by
    simp only [exec, eraseRunning_of_lookup_eq_some hlook3]
  refine ⟨{ s3 with running := s3.running.erase (s3.callOf L) }.destroy L, ?_, ?_⟩
  · show runAlone scenarioConfig s1 [.newExternalFuncCall L] [true, true, true, true, true] = _
    rw [runAlone_cons, e1]; dsimp only [List.singleton_append]
    rw [runAlone_cons, e2]; dsimp only [List.singleton_append]
    rw [runAlone_cons, e3]; dsimp only [List.singleton_append]
    rw [runAlone_cons, e4]; dsimp only [List.singleton_append]
    rw [runAlone_cons, e5]; rfl
  have hL0 : (0 : Nat) ≠ L := by simp [L, h.length]
  refine ⟨by simp [s3, s2, s1, L, h.length], by simp [s3, s2, s1, h.next, uint32_ofNat_succ], ?_, ?_,
    h.pending, h.dispatchers, ?_⟩
  · refine (ctx_eq_of_contexts (rfl : _ = s1.contexts) 0).trans (Eq.trans ?_ h.first)
    simp only [s1, ctx, List.getD_eq_getElem?_getD, construct_contexts,
      List.getElem?_append_left (show 0 < s.contexts.length by simp [h.length])]
  · simp only [destroy_running, hcall3]
    show List.kerase k (⟨k, L⟩ :: List.kerase k s.running.entries) = _
    simp [List.kerase, h.running, hne]
  · show Function.update _ L _ 0 = _
    rw [Function.update_noteq hL0]
    show Function.update _ L _ 0 = _
    rw [Function.update_noteq hL0]
    exact h.first_state

/-- The first request: admitted, dispatched, accepted, and never answered. -/
def firstArrival : Event × List Bool := (.httpCall 1 [], [true, true, true, true])

theorem wrapState_reachable (n : Nat) :
    ∃ S, ProtoReachable scenarioConfig S ∧ WrapState n S.srv ∧
      S.threads = List.replicate (n + 1) [] := by
  induction n with
  | zero =>
    obtain ⟨t, ht, hw⟩ : ∃ t, runAlone scenarioConfig (spawn scenarioConfig Server.init firstArrival.1).1
        (spawn scenarioConfig Server.init firstArrival.1).2 firstArrival.2 = (t, []) ∧ WrapState 0 t :=
      ⟨_, rfl, by decide, by decide, by decide, by decide, by decide, by decide, by decide⟩
    exact ⟨_, hstep_protoSteps (s := Sys.init) (e := firstArrival.1) trivial ht, hw, rfl⟩
  | succ n ih =>
    obtain ⟨S, hS, hw, hth⟩ := ih
    obtain ⟨t, ht, hw'⟩ := wrapState_arrival hw
    exact ⟨_, hS.trans (hstep_protoSteps (e := .httpCall 2 []) trivial ht), hw', by simp [hth, List.replicate_succ']⟩

/-- After the first request and `2^32 - 1` failed ones, the next request for function 1
is built with the first context's id while the first context is resident; its admission
puts it under that key, and the first context is left in no table and held by no handler,
never finalized. -/
theorem call_id_wrap_replaces_resident :
    ∃ s s', ProtoReachable scenarioConfig s ∧ ProtoStep scenarioConfig s s' ∧
      s.srv.contexts.length = 4294967297 ∧
      s.srv.callOf 4294967296 = s.srv.callOf 0 ∧
      s.srv.running.lookup (s.srv.callOf 0) = some 0 ∧
      s.tasks = [.newExternalFuncCall 4294967296] ∧
      s'.srv.running.lookup (s.srv.callOf 0) = some 4294967296 ∧
      (∀ k, s'.srv.running.lookup k ≠ some 0) ∧ 0 ∉ s'.srv.pending ∧
      (s'.srv.ctxState 0).response.finishes = 0 ∧
      s'.tasks = [.dispatch 4294967296] := by
  obtain ⟨S, hS, hw, hth⟩ := wrapState_reachable 4294967295
  have hL : S.srv.contexts.length = 4294967296 := hw.length
  set t := S.srv.construct .http 1 0 []
  have h0 : t.callOf 0 = firstKey :=
    (construct_callOf_lt _ _ _ _ _ (by omega)).trans (congrArg Ctx.call hw.first)
  have hnew : t.callOf 4294967296 = firstKey := by
    rw [← hL, construct_callOf_length, hw.next]; rfl
  have hlook : t.running.lookup firstKey = some 0 := by
    simp [t, AList.lookup, hw.running]
  have hroom : t.HasRoom scenarioConfig := by
    simp [HasRoom, runningSize, AList.keys, hw.running, scenarioConfig, t, construct]
  set t' : Server := { t with running := t.running.insert firstKey 4294967296 }.destroy 0
  have hexec : exec scenarioConfig true t (.newExternalFuncCall 4294967296) = (t', [.dispatch 4294967296]) := by
    simp only [exec, newExternalFuncCallLocked, hroom, ↓reduceIte]
    rw [hnew]
    simp only [putRunning, hlook, t']
  have hth' : S.threads.length = 4294967296 := by rw [hth, List.length_replicate]
  have a1 : ProtoReachable scenarioConfig ⟨t, S.threads ++ [[.newExternalFuncCall 4294967296]], S.answered ++ []⟩ :=
    hS.tail ⟨.spawn (.httpCall 1 []), trivial, by simp only [Sys.act, spawn, hL]; rfl⟩
  have hget : (S.threads ++ [[Instr.newExternalFuncCall 4294967296]])[4294967296]? =
      some [.newExternalFuncCall 4294967296] := by
    rw [List.getElem?_append_right (le_of_eq hth'), hth', Nat.sub_self]; rfl
  have hset : (S.threads ++ [[Instr.newExternalFuncCall 4294967296]]).set 4294967296
      ([.dispatch 4294967296] ++ []) = S.threads ++ [[.dispatch 4294967296]] := by
    rw [List.set_append_right _ _ (le_of_eq hth'), hth', Nat.sub_self]; rfl
  have hflat : ∀ x : Instr, (S.threads ++ [[x]]).flatten = [x] := fun x => by
    rw [List.flatten_append, hth, List.flatten_replicate_nil]; rfl
  refine ⟨⟨t, S.threads ++ [[.newExternalFuncCall 4294967296]], S.answered ++ []⟩,
    ⟨t', S.threads ++ [[.dispatch 4294967296]], S.answered ++ []⟩, a1,
    ⟨.exec 4294967296 true, trivial, ?_⟩, by simp [t, hL], by rw [hnew, h0], by rw [h0, hlook],
    by show List.flatten _ = _; exact hflat _, ?_, fun k hk => ?_, by simp [t', t, hw.pending], ?_,
    by show List.flatten _ = _; exact hflat _⟩
  · simp only [Sys.act, hget, hexec, hset]
  · show t'.running.lookup (t.callOf 0) = _
    rw [h0]; exact AList.lookup_insert _
  · simp only [t', destroy_running] at hk
    by_cases hkf : k = firstKey
    · rw [hkf, AList.lookup_insert] at hk; cases hk
    · rw [AList.lookup_insert_ne hkf] at hk
      simp [t, AList.lookup, hw.running, List.dlookup_eq_none, List.keys, hkf] at hk
  · simp [t', destroy_response, t, construct, hw.first_state]

end Nightcore.Gateway
