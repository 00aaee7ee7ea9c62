import Nightcore.Proofs.FinishOnce

/-! What the dispatchers are handed. A context enters `running_external_func_calls_` with its
dispatch still to run, and that dispatch either ends with `OnNewFuncCall` accepting the call
or fails, after which its caller erases the entry; so once no handler is mid-flight, every
entry of the running table is a call its `Dispatcher` accepted. The running table holds no
context whose dispatch failed.

And no external call is handed to `OnNewFuncCall` twice. A context is handed over by the last
piece of its dispatch, and it reaches a dispatch once: from its admission, or from the queue
through one promotion. Workers invoke internal calls only, whose client ids differ from the
external ones, and below `2^32` contexts no two external calls share an id. -/

namespace Nightcore.Gateway

open Server

/-- The context a handler reaches through the raw pointer it kept past `mu_`: a piece of
`DispatchExternalFuncCall`, or the erase its caller runs when that dispatch fails. -/
def Instr.rawCtx : Instr → Option Nat
  | .dispatch c | .dispatchLocked c | .dispatchTail c _ | .erase c => some c
  | _ => none

/-- Every context in the running table has been accepted by `OnNewFuncCall`, or a piece of
its dispatch, or the erase after it, is still to run. -/
def EntriesAccepted (s : Server) (tasks : List Instr) : Prop :=
  ∀ c, s.Resident c → s.Invoked (s.callOf c) true ∨ ∃ x ∈ tasks, x.rawCtx = some c

section

variable {cfg : Config} {ok : Bool} {s : Server} {ins : Instr} {tasks : List Instr}

theorem exec_resident_back (hk : KeyInv s (ins :: tasks)) {c : Nat}
    (h : (exec cfg ok s ins).1.Resident c) : s.Resident c ∨ Instr.dispatch c ∈ (exec cfg ok s ins).2 := by
  have hkey : ∀ k c, s.running.lookup k = some c → s.callOf c = k := fun k c h => (hk.running_key k c h).1
  have hfresh : ∀ p ∈ s.pending, s.running.lookup (s.callOf p) = none :=
    fun p hp => hk.fresh_absent p (.inr hp)
  rw [resident_iff (exec_contexts ..)] at h
  cases ins with
  | newExternalFuncCall e =>
    by_cases hr : s.HasRoom cfg
    · simp only [exec, newExternalFuncCallLocked, hr, ↓reduceIte, putRunning_running] at h ⊢
      by_cases he : s.callOf c = s.callOf e
      · rw [he, AList.lookup_insert] at h
        exact .inr (by cases h; exact List.mem_singleton_self _)
      · exact .inl (by rwa [AList.lookup_insert_ne he] at h)
    · simp only [exec, newExternalFuncCallLocked, hr, ↓reduceIte] at h
      exact .inl h
  | erase e => exact .inl (lookup_of_lookup_erase (by simpa [exec] using h))
  | recv m =>
    simp only [exec] at h ⊢
    split at h
    · exact .inl (by simpa using h)
    iterate 2
      rcases (recvLocked_back hkey hfresh).1 c ((resident_iff (by simp [recvLocked])).2 h) with hr | hp
      · exact .inl hr
      · exact .inr (by simp [hp])
    · exact .inl h
  | sweep =>
    rcases (sweepLocked_back hkey hfresh).1 c ((resident_iff (by simp [sweepLocked])).2 h) with hr | hp
    · exact .inl hr
    · exact .inr (by simp [exec, hp])
  | _ => exact .inl (by simpa [exec] using h)

theorem exec_rawCtx_next {c : Nat} (hx : ins.rawCtx = some c) (h : (exec cfg ok s ins).1.Resident c) :
    (exec cfg ok s ins).1.Invoked (s.callOf c) true ∨ ∃ x ∈ (exec cfg ok s ins).2, x.rawCtx = some c := by
  cases ins with
  | dispatch e =>
    cases hx
    simp only [exec]
    split <;> simp [Instr.rawCtx]
  | dispatchLocked e => cases hx; simp [exec, Instr.rawCtx]
  | dispatchTail e found =>
    cases hx
    cases found <;> cases ok
    case true.true => exact .inl (exec_invoked_true.2 (.inr (.inl ⟨c, rfl, rfl, rfl⟩)))
    all_goals simp [exec, dispatchTail, Instr.rawCtx]
  | erase e =>
    cases hx
    rw [resident_iff (exec_contexts ..)] at h
    simp [exec] at h
  | _ => cases hx

namespace EntriesAccepted

theorem perm {tasks' : List Instr} (h : EntriesAccepted s tasks) (hp : tasks.Perm tasks') :
    EntriesAccepted s tasks' :=
  fun c hc => (h c hc).imp_right fun ⟨x, hx, hxc⟩ => ⟨x, hp.subset hx, hxc⟩

theorem exec (h : EntriesAccepted s (ins :: tasks)) (hk : KeyInv s (ins :: tasks)) :
    EntriesAccepted (exec cfg ok s ins).1 ((exec cfg ok s ins).2 ++ tasks) := by
  intro c hc
  rw [exec_callOf]
  rcases exec_resident_back hk hc with hr | hd
  · rcases h c hr with hi | ⟨x, hx, hxc⟩
    · exact .inl (exec_invoked_true.2 (.inl hi))
    · rcases List.mem_cons.1 hx with rfl | hx
      · exact (exec_rawCtx_next hxc hc).imp_right fun ⟨y, hy, hyc⟩ => ⟨y, List.mem_append_left _ hy, hyc⟩
      · exact .inr ⟨x, List.mem_append_right _ hx, hxc⟩
  · exact .inr ⟨_, List.mem_append_left _ hd, rfl⟩

theorem append (h : EntriesAccepted s tasks) (next : List Instr) : EntriesAccepted s (tasks ++ next) :=
  fun c hc => (h c hc).imp_right fun ⟨x, hx, hxc⟩ => ⟨x, List.mem_append_left _ hx, hxc⟩

theorem construct (h : EntriesAccepted s tasks) (hk : KeyInv s tasks) (sink : Sink) (f mth : UInt16)
    (body : List UInt8) : EntriesAccepted (s.construct sink f mth body) tasks := by
  intro c hc
  have hlt : c < s.contexts.length := (hk.running_key _ c hc).2
  have hr : s.Resident c := by
    rwa [Resident, construct_callOf_lt _ _ _ _ _ hlt] at hc
  rw [construct_callOf_lt _ _ _ _ _ hlt]
  exact h c hr

end EntriesAccepted

end

theorem entriesAccepted_act {cfg : Config} {s s' : Sys} {a : Action} (h : EntriesAccepted s.srv s.tasks)
    (hk : KeyInv s.srv s.tasks) (ha : s.act cfg a = some s') : EntriesAccepted s'.srv s'.tasks := by
  cases a with
  | spawn e =>
    cases ha
    cases e
    case httpCall f body => simpa [Sys.tasks, spawn] using (h.construct hk .http f 0 body).append _
    case grpcCall f mth body => simpa [Sys.tasks, spawn] using (h.construct hk .grpc f mth body).append _
    all_goals simpa [Sys.tasks, spawn] using h.append _
  | exec i ok =>
    obtain ⟨ins, rest, hi, rfl⟩ := Sys.act_exec ha
    obtain ⟨others, h1, h2⟩ := Sys.tasks_set hi (exec cfg ok s.srv ins).2
    exact ((h.perm h1).exec (hk.subperm h1.symm.subperm)).perm h2.symm
  | shmOutput => cases ha; exact h

theorem entriesAccepted_reachable {cfg : Config} {s : Sys} (h : Reachable cfg s)
    (hL : s.srv.contexts.length ≤ 4294967296) : EntriesAccepted s.srv s.tasks := by
  induction h with
  | refl => intro c hc; simp [Resident, Sys.init, Server.init] at hc
  | tail hr hst ih =>
    obtain ⟨a, ha⟩ := hst
    have hL' := (contexts_length_le_act ha).trans hL
    exact entriesAccepted_act (ih hL') (keyInv_reachable hr hL') ha

/-- In every run that has built at most `2^32` contexts, under any interleaving and any
outcomes of `ShmCreate`, `ShmOpen` and `OnNewFuncCall`, once no handler is mid-flight every
entry of the running table is a context under its own `full_call_id` whose call its
`Dispatcher` accepted: no context whose dispatch failed stays in the table. -/
theorem running_holds_accepted_calls {cfg : Config} {s : Sys} (h : Reachable cfg s)
    (hL : s.srv.contexts.length ≤ 4294967296) (hq : s.Quiescent) :
    ∀ k c, s.srv.running.lookup k = some c → s.srv.callOf c = k ∧ s.srv.Invoked k true := by
  intro k c hkc
  have hkey := ((keyInv_reachable h hL).running_key k c hkc).1
  refine ⟨hkey, ?_⟩
  rcases entriesAccepted_reachable h hL c (by rw [Resident, hkey]; exact hkc) with hi | ⟨x, hx, -⟩
  · exact hkey ▸ hi
  · obtain ⟨t, ht, hxt⟩ := List.mem_flatten.1 hx
    exact absurd (hq t ht ▸ hxt) (List.not_mem_nil _)

theorem running_holds_accepted_calls_three_arrivals :
    ∃ s, Reachable scenarioConfig s ∧ s.srv.contexts.length ≤ 4294967296 ∧ s.Quiescent ∧
      s.srv.runningSize = 2 ∧
      ∀ k c, s.srv.running.lookup k = some c → s.srv.callOf c = k ∧ s.srv.Invoked k true := by
  obtain ⟨s, hs, hL, hq, hr⟩ : ∃ s, Sys.init.replay scenarioConfig threeArrivals = some s ∧
      s.srv.contexts.length = 3 ∧ s.Quiescent ∧ s.srv.runningSize = 2 :=
    ⟨_, rfl, by decide, by decide, by decide⟩
  have h := (Sys.replay_protoReachable _ .refl hs).reachable
  exact ⟨s, h, by omega, hq, hr, running_holds_accepted_calls h (by omega) hq⟩

/-- The call an `OnNewFuncCall` hands over. -/
def DispatcherCall.handedOver : DispatcherCall → Option FuncCall
  | .onNewFuncCall fc _ _ _ _ _ => some fc
  | _ => none

/-- How many times `OnNewFuncCall` has been called for `k`. -/
def Server.handovers (s : Server) (k : FuncCall) : Nat :=
  s.dispatcherCalls.countP (·.handedOver = some k)

/-- The call a piece hands to `OnNewFuncCall`: the end of a dispatch that found its
dispatcher, or the end of an `INVOKE_FUNC` that did. -/
def Instr.handsOver (s : Server) : Instr → Option FuncCall
  | .dispatchTail c true => some (s.callOf c)
  | .invokeTail m true => some m.funcCall
  | _ => none

/-- The context a piece is still to hand over: its admission, or a piece of its dispatch up
to the call. -/
def Instr.toHandOver : Instr → Option Nat
  | .newExternalFuncCall c | .dispatch c | .dispatchLocked c | .dispatchTail c _ => some c
  | _ => none

/-- The hand-overs context `c` has coming: its place in the queue, or a piece on its way to
`OnNewFuncCall`. -/
def comingHandovers (s : Server) (tasks : List Instr) (c : Nat) : Nat :=
  s.pending.count c + tasks.countP (·.toHandOver = some c)

/-- Every context has been handed over, or has a hand-over coming, at most once. -/
def HandedOnce (s : Server) (tasks : List Instr) : Prop :=
  ∀ c < s.contexts.length, s.handovers (s.callOf c) + comingHandovers s tasks c ≤ 1

@[simp] theorem Server.handovers_append (s : Server) (call : DispatcherCall) (k : FuncCall) :
    { s with dispatcherCalls := s.dispatcherCalls ++ [call] }.handovers k =
      s.handovers k + if call.handedOver = some k then 1 else 0 := by
  simp only [handovers, List.countP_append, List.countP_singleton, decide_eq_true_eq]

@[simp] theorem Server.handovers_respond (s : Server) (c : Nat) (f) (k : FuncCall) :
    (s.respond c f).handovers k = s.handovers k := by
  simp only [handovers, respond_dispatcherCalls]

theorem Server.handovers_pos_iff (s : Server) (k : FuncCall) : 0 < s.handovers k ↔ s.Invoked k false := by
  simp only [handovers, List.countP_pos_iff, Invoked, decide_eq_true_eq]
  constructor
  · rintro ⟨x, hx, he⟩
    cases x <;> simp only [DispatcherCall.handedOver, Option.some.injEq, reduceCtorEq] at he
    subst he
    exact ⟨_, _, _, _, _, hx, nofun⟩
  · rintro ⟨p, n, d, b, a, hx, -⟩
    exact ⟨_, hx, rfl⟩

section

variable {cfg : Config} {ok : Bool} {s : Server} {ins : Instr} {tasks : List Instr}

theorem recvTail_handovers (ok : Bool) (s : Server) (m : Message) (c : Option Nat) (found : Bool)
    (k : FuncCall) : (recvTail ok s m c found).handovers k = s.handovers k := by
  have base : ∀ t : Server, (recvTail ok t m c false).handovers k = t.handovers k := fun t => by
    simp only [recvTail, Bool.false_eq_true, ↓reduceIte]
    split_ifs <;> (try split) <;>
      simp only [handovers, finishWithShmOutput_dispatcherCalls, respond_dispatcherCalls]
  cases found
  · exact base s
  · refine (base { s with dispatcherCalls := s.dispatcherCalls ++
        [if m.messageType = .funcCallComplete then
          .onFuncCallCompleted m.funcCall m.processingTime m.dispatchDelay (completeOutputSize m)
        else .onFuncCallFailed m.funcCall m.dispatchDelay] }).trans ?_
    rw [handovers_append]
    split <;> rfl

theorem exec_handovers_le (k : FuncCall) :
    (exec cfg ok s ins).1.handovers k ≤ s.handovers k + if ins.handsOver s = some k then 1 else 0 := by
  have same : ∀ t : Server, t.dispatcherCalls = s.dispatcherCalls → t.handovers k = s.handovers k :=
    fun t h => by simp only [handovers, h]
  cases ins with
  | dispatchTail e found =>
    cases found
    · simp [exec, dispatchTail, same]
    · by_cases hb : (s.ctx e).input.length ≤ cfg.messageInlineDataSize <;> cases ok <;>
        simp [exec, dispatchTail, hb, DispatcherCall.handedOver, Instr.handsOver, same]
  | invokeTail m found =>
    cases found
    · simp [exec, recvInvokeTail]
    · simp [exec, recvInvokeTail, DispatcherCall.handedOver, Instr.handsOver]
  | recvTail m c found => simp [exec, recvTail_handovers]
  | recv m =>
    simp only [exec]
    split <;> simp [same, recvLocked]
  | dispatchLocked c =>
    simp only [exec]
    rw [dispatchLocked_eq]
    simp [same]
  | _ => simp [exec, same, sweepLocked]

theorem countP_map_dispatch (l : List Nat) (c : Nat) :
    (l.map Instr.dispatch).countP (·.toHandOver = some c) = l.count c := by
  induction l with
  | nil => rfl
  | cons p rest ih => by_cases hp : p = c <;> simp [List.count_cons, List.countP_cons, Instr.toHandOver, hp, ← ih]

theorem countP_map_toHandOver_none {α : Type} (f : α → Instr) (hf : ∀ a, (f a).toHandOver = none)
    (l : List α) (c : Nat) : (l.map f).countP (·.toHandOver = some c) = 0 :=
  List.countP_eq_zero.2 fun x hx => by obtain ⟨a, -, rfl⟩ := List.mem_map.1 hx; simp [hf a]

theorem exec_coming_le (hk : KeyInv s (ins :: tasks)) (hs : ShmInv cfg s (ins :: tasks))
    (hL : s.contexts.length ≤ 4294967296) {c : Nat} (hc : c < s.contexts.length) :
    (exec cfg ok s ins).1.pending.count c + (exec cfg ok s ins).2.countP (·.toHandOver = some c) +
        (if ins.handsOver s = some (s.callOf c) then 1 else 0) ≤
      s.pending.count c + if ins.toHandOver = some c then 1 else 0 := by
  have hkey : ∀ k c, s.running.lookup k = some c → s.callOf c = k := fun k c h => (hk.running_key k c h).1
  have hfresh : ∀ p ∈ s.pending, s.running.lookup (s.callOf p) = none :=
    fun p hp => hk.fresh_absent p (.inr hp)
  cases ins with
  | newExternalFuncCall e =>
    by_cases hr : s.HasRoom cfg
    · simp [exec, newExternalFuncCallLocked, hr, Instr.toHandOver, Instr.handsOver, List.countP_cons]
    · simp [exec, newExternalFuncCallLocked, hr, Instr.toHandOver, Instr.handsOver, List.countP_cons, List.count_append,
        List.count_singleton]
  | dispatch e =>
    simp only [exec]
    split <;> simp [Instr.toHandOver, Instr.handsOver, List.countP_cons]
  | dispatchLocked e => simp [exec, Instr.toHandOver, Instr.handsOver, List.countP_cons]
  | dispatchTail e found =>
    have he : e < s.contexts.length :=
      hk.tokens_lt e (List.mem_append_right _ (List.mem_filterMap.2 ⟨_, List.mem_cons_self _ _, rfl⟩))
    have hinj : s.callOf e = s.callOf c → e = c := hk.ids.callOf_inj hL he hc
    have hle : (if s.callOf e = s.callOf c then 1 else 0) ≤ if e = c then 1 else 0 := by
      split_ifs with h1 h2 <;> first | omega | exact absurd (hinj h1) h2
    have hnext : (exec cfg ok s (.dispatchTail e found)).2.countP (·.toHandOver = some c) = 0 := by
      simp only [exec]
      split <;> rfl
    rw [hnext, show (exec cfg ok s (.dispatchTail e found)).1.pending = s.pending from dispatchTail_pending ..]
    cases found <;> simp only [Instr.handsOver, Instr.toHandOver, Option.some.injEq, reduceCtorEq, if_false] <;>
      omega
  | invokeTail m found =>
    have hm : m.funcCall ≠ s.callOf c := fun he =>
      hs.invokeTail m found (List.mem_cons_self _ _) (he ▸ (hk.ids.2 c hc).1)
    cases found <;> simp [exec, Instr.toHandOver, Instr.handsOver, List.countP_cons, hm]
  | recv m =>
    simp only [exec]
    split
    · simp [Instr.toHandOver, Instr.handsOver, List.countP_cons]
    iterate 2
      rw [(@recvLocked_back cfg s m hkey hfresh).2.2]
      simp only [List.countP_cons, List.countP_append, countP_map_dispatch, List.count_append,
        countP_map_toHandOver_none Instr.destroy (fun _ => rfl)]
      simp [Instr.toHandOver, Instr.handsOver]
      omega
    · simp [Instr.toHandOver, Instr.handsOver, List.countP_cons]
  | sweep =>
    simp only [exec]
    rw [(@sweepLocked_back cfg s hkey hfresh).2.2.2]
    simp only [List.countP_append, countP_map_dispatch, List.count_append,
      countP_map_toHandOver_none Instr.destroy (fun _ => rfl),
      countP_map_toHandOver_none Instr.finishDiscarded (fun _ => rfl),
      countP_map_toHandOver_none Instr.notify (fun _ => rfl)]
    simp [Instr.handsOver, Instr.toHandOver]
    omega
  | _ => simp [exec, Instr.toHandOver, Instr.handsOver, List.countP_cons]

namespace HandedOnce

theorem perm {tasks' : List Instr} (h : HandedOnce s tasks) (hp : tasks.Perm tasks') : HandedOnce s tasks' :=
  fun c hc => by simpa only [comingHandovers, hp.countP_eq] using h c hc

theorem append (h : HandedOnce s tasks) {next : List Instr} (hn : ∀ x ∈ next, x.toHandOver = none) :
    HandedOnce s (tasks ++ next) := fun c hc => by
  have h0 : next.countP (·.toHandOver = some c) = 0 := List.countP_eq_zero.2 fun x hx => by simp [hn x hx]
  simpa only [comingHandovers, List.countP_append, h0, Nat.add_zero] using h c hc

theorem piece (h : HandedOnce s (ins :: tasks)) (hk : KeyInv s (ins :: tasks)) (hs : ShmInv cfg s (ins :: tasks))
    (hL : s.contexts.length ≤ 4294967296) :
    HandedOnce (exec cfg ok s ins).1 ((exec cfg ok s ins).2 ++ tasks) := by
  intro c hc
  rw [exec_contexts] at hc
  have h1 := h c hc
  have h2 : (exec cfg ok s ins).1.handovers (s.callOf c) ≤ _ := exec_handovers_le _
  have h3 : (exec cfg ok s ins).1.pending.count c + _ + _ ≤ _ := exec_coming_le hk hs hL hc
  simp only [comingHandovers, List.countP_append, List.countP_cons, decide_eq_true_eq, exec_callOf] at h1 ⊢
  omega

theorem construct (h : HandedOnce s tasks) (hk : KeyInv s tasks) (hs : ShmInv cfg s tasks) (sink : Sink)
    (f mth : UInt16) (body : List UInt8) (hL : s.contexts.length + 1 ≤ 4294967296) :
    HandedOnce (s.construct sink f mth body) (tasks ++ [.newExternalFuncCall s.contexts.length]) := by
  have hnone : ∀ x ∈ tasks, x.toHandOver ≠ some s.contexts.length := fun x hx he => by
    have : x.pipelineCtx = some s.contexts.length := by cases x <;> first | exact he | cases he
    exact Nat.lt_irrefl _ (hk.tokens_lt _ (List.mem_append_right _ (List.mem_filterMap.2 ⟨x, hx, this⟩)))
  have hp : s.contexts.length ∉ s.pending :=
    fun hm => Nat.lt_irrefl _ (hk.tokens_lt _ (List.mem_append_left _ hm))
  intro c hc
  simp only [construct_contexts, List.length_append, List.length_singleton] at hc
  simp only [comingHandovers, construct_pending, List.countP_append, List.countP_singleton]
  rcases Nat.lt_succ_iff_lt_or_eq.1 hc with hc | rfl
  · have := h c hc
    rw [construct_callOf_lt _ _ _ _ _ hc]
    simp only [comingHandovers] at this
    simp only [Instr.toHandOver, Option.some.injEq, Nat.ne_of_gt hc, decide_False]
    exact this
  · -- the new id was never handed over: only the gateway's own contexts' ids were
    have h0 : (s.construct sink f mth body).handovers (s.construct sink f mth body |>.callOf s.contexts.length) = 0 := by
      by_contra hne
      have hi := ((handovers_pos_iff _ _).1 (Nat.pos_of_ne_zero hne))
      obtain ⟨d, hd, he⟩ := hs.invoked _ hi (by rw [construct_callOf_length]; rfl)
      rw [← construct_callOf_lt s sink f mth body hd] at he
      have := (hk.ids.construct sink f mth body).callOf_inj (by simpa using hL) (by simp; omega) (by simp) he
      omega
    rw [h0, List.count_eq_zero_of_not_mem hp, List.countP_eq_zero.2 fun x hx => by simpa using hnone x hx]
    simp [Instr.toHandOver]

end HandedOnce

end

theorem handedOnce_act {cfg : Config} {s s' : Sys} {a : Action} (h : HandedOnce s.srv s.tasks)
    (hk : KeyInv s.srv s.tasks) (hs : ShmInv cfg s.srv s.tasks) (ha : s.act cfg a = some s')
    (hL : s'.srv.contexts.length ≤ 4294967296) : HandedOnce s'.srv s'.tasks := by
  cases a with
  | spawn e =>
    cases ha
    cases e
    case httpCall f body => simpa [Sys.tasks, spawn] using h.construct hk hs .http f 0 body (by simpa [spawn] using hL)
    case grpcCall f mth body =>
      simpa [Sys.tasks, spawn] using h.construct hk hs .grpc f mth body (by simpa [spawn] using hL)
    case handshake m =>
      have hn : ∀ x ∈ (spawn cfg s.srv (.handshake m)).2, x.toHandOver = none := by
        simp only [spawn]; split <;> simp [Instr.toHandOver]
      simpa [Sys.tasks, spawn] using h.append hn
    all_goals simpa [Sys.tasks, spawn] using h.append (by simp [spawn, Instr.toHandOver])
  | exec i ok =>
    obtain ⟨ins, rest, hi, rfl⟩ := Sys.act_exec ha
    obtain ⟨others, h1, h2⟩ := Sys.tasks_set hi (exec cfg ok s.srv ins).2
    exact ((h.perm h1).piece (hk.subperm h1.symm.subperm) (hs.perm h1) (by simpa using hL)).perm h2.symm
  | shmOutput => cases ha; exact h

theorem handedOnce_reachable {cfg : Config} {s : Sys} (h : ProtoReachable cfg s)
    (hL : s.srv.contexts.length ≤ 4294967296) : HandedOnce s.srv s.tasks := by
  induction h with
  | refl => intro c hc; simp [Sys.init, Server.init] at hc
  | tail hr hst ih =>
    obtain ⟨a, -, ha⟩ := hst
    have hL' := (contexts_length_le_act ha).trans hL
    exact handedOnce_act (ih hL') (keyInv_reachable (ProtoReachable.reachable hr) hL') (shmInv_reachable hr hL') ha hL

/-- No external call is dispatched twice: in every run of the worker protocol that has built
at most `2^32` contexts, under any interleaving and any outcomes, `OnNewFuncCall` has been
called at most once for each external `full_call_id`, and only for the id of a context the
gateway built. -/
theorem handed_over_at_most_once {cfg : Config} {s : Sys} (h : ProtoReachable cfg s)
    (hL : s.srv.contexts.length ≤ 4294967296) (k : FuncCall) (hk : k.clientId = 0) :
    s.srv.handovers k ≤ 1 ∧ (0 < s.srv.handovers k → ∃ c < s.srv.contexts.length, s.srv.callOf c = k) := by
  have built : 0 < s.srv.handovers k → ∃ c < s.srv.contexts.length, s.srv.callOf c = k := fun hp =>
    (shmInv_reachable h hL).invoked k ((handovers_pos_iff _ _).1 hp) hk
  refine ⟨?_, built⟩
  rcases Nat.eq_zero_or_pos (s.srv.handovers k) with h0 | hp
  · omega
  · obtain ⟨c, hc, rfl⟩ := built hp
    have := handedOnce_reachable h hL c hc
    omega

theorem handed_over_at_most_once_three_arrivals :
    ∃ s, ProtoReachable scenarioConfig s ∧ s.srv.contexts.length ≤ 4294967296 ∧
      s.srv.handovers ⟨1, 0, 0, 1⟩ = 1 ∧
      (s.srv.handovers ⟨1, 0, 0, 1⟩ ≤ 1 ∧
        (0 < s.srv.handovers ⟨1, 0, 0, 1⟩ → ∃ c < s.srv.contexts.length, s.srv.callOf c = ⟨1, 0, 0, 1⟩)) := by
  obtain ⟨s, hs, hL, h1⟩ : ∃ s, Sys.init.replay scenarioConfig threeArrivals = some s ∧
      s.srv.contexts.length = 3 ∧ s.srv.handovers ⟨1, 0, 0, 1⟩ = 1 := ⟨_, rfl, by decide, by decide⟩
  have h := Sys.replay_protoReachable _ .refl hs
  exact ⟨s, h, by omega, h1, handed_over_at_most_once h (by omega) _ rfl⟩

end Nightcore.Gateway
