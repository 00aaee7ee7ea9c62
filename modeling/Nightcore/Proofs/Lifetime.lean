import Nightcore.Proofs.Handover

/-! Raw pointers to contexts. `running_external_func_calls_` owns every admitted context,
and a handler that dispatches one keeps a raw pointer to it past `mu_`
(`func_call_for_dispatch` in `NewExternalFuncCall` and `OnRecvMessage`,
`func_calls_for_dispatch` in the sweep): the pieces of `DispatchExternalFuncCall` read the
context through it, and so does the erase after a failed dispatch, which reads `call()` to
find the key. A context leaves the table only to be destroyed, by the erase itself or by the
handler that took it out, so the pointer is valid exactly while its context is resident.

Under the worker protocol a dispatch under way keeps its context resident. The erase needs
more: nothing may take out a context whose `OnNewFuncCall` failed, which holds when the
`WorkerManager` discards only calls a worker accepted. Then every raw pointer a handler
holds points at a live context. Under the weaker protocol, where a call is discarded once
`OnNewFuncCall` was called for it, a sweep can destroy such a context before its caller's
erase reads it. -/

namespace Nightcore.Gateway

open Server

/-- The erase after a failed dispatch finds its context in the running table, where nothing
has accepted its call. -/
def EraseLive (s : Server) (tasks : List Instr) : Prop :=
  ∀ c, Instr.erase c ∈ tasks → s.Resident c ∧ ¬ s.Invoked (s.callOf c) true

namespace Server

variable {cfg : Config} {s : Server}

theorem resident_of_lookup {t : Server} {c : Nat} (h1 : t.contexts = s.contexts) (hr : s.Resident c)
    (h : t.running.lookup (s.callOf c) = s.running.lookup (s.callOf c)) : t.Resident c := by
  rw [resident_iff h1, h]; exact hr

theorem lookup_recvTake {k fc : FuncCall} (hfc : fc ≠ k) (hp : ∀ p ∈ s.pending, s.callOf p ≠ k) :
    (recvTake cfg s fc).1.running.lookup k = s.running.lookup k := by
  unfold recvTake
  split
  · dsimp only
    split_ifs with hr
    · obtain ⟨p, rest, hq⟩ := List.exists_cons_of_ne_nil hr.1
      simp only [popPending, hq, putRunning_running]
      exact (AList.lookup_insert_ne (hp p (by simp [hq])).symm).trans (AList.lookup_erase_ne hfc.symm)
    · exact AList.lookup_erase_ne hfc.symm
  · rfl

theorem lookup_takeDiscarded {k : FuncCall} : ∀ (l : List FuncCall) (s : Server), k ∉ l →
    (takeDiscarded s l).1.running.lookup k = s.running.lookup k
  | [], _, _ => rfl
  | fc :: rest, s, hl => by
    have hfc : fc ≠ k := fun he => hl (he ▸ List.mem_cons_self _ _)
    have hrest : k ∉ rest := fun hm => hl (List.mem_cons_of_mem _ hm)
    simp only [takeDiscarded]
    split_ifs
    · split
      · exact (lookup_takeDiscarded rest { s with running := s.running.erase fc } hrest).trans
          (AList.lookup_erase_ne hfc.symm)
      · exact lookup_takeDiscarded rest s hrest
    · exact lookup_takeDiscarded rest s hrest

theorem lookup_promote {k : FuncCall} : ∀ (q : List Nat) (s : Server), s.pending = q →
    (∀ p ∈ q, s.callOf p ≠ k) → (promote cfg s q).1.running.lookup k = s.running.lookup k
  | [], _, _, _ => rfl
  | p :: rest, s, hq, hp => by
    simp only [promote]
    split_ifs
    · refine (lookup_promote rest ({ s with pending := rest }.putRunning (s.callOf p) p) (by simp)
        fun p' hp' => by simpa only [callOf, ctx, putRunning_contexts] using hp p' (List.mem_cons_of_mem _ hp')).trans ?_
      rw [putRunning_running]
      exact AList.lookup_insert_ne (hp p (List.mem_cons_self _ _)).symm
    · rfl

end Server

section

variable {cfg : Config} {ok : Bool} {s : Server} {ins : Instr} {tasks : List Instr} {c : Nat}

theorem exec_resident_keep (hk : KeyInv s (ins :: tasks)) (hs : ShmInv cfg s (ins :: tasks))
    (hd : ∀ fc ∈ s.discarded, fc.clientId = 0 → s.Invoked fc true) (hL : s.contexts.length ≤ 4294967296)
    (hr : s.Resident c) (hni : ¬ s.Invoked (s.callOf c) true) (hne : ins ≠ .erase c) :
    (exec cfg ok s ins).1.Resident c := by
  have hc : c < s.contexts.length := (hk.running_key _ c hr).2
  have h0 : (s.callOf c).clientId = 0 := (hk.ids.2 c hc).1
  -- a key the running table does not hold is not `c`'s
  have hfresh : ∀ p, Instr.newExternalFuncCall p ∈ ins :: tasks ∨ p ∈ s.pending → s.callOf p ≠ s.callOf c :=
    fun p hp he => by have := hk.fresh_absent p hp; rw [he, hr] at this; cases this
  have frame : (exec cfg ok s ins).1.running = s.running → (exec cfg ok s ins).1.Resident c :=
    fun he => resident_of_lookup (exec_contexts ..) hr (by rw [he])
  cases ins with
  | newExternalFuncCall e =>
    by_cases hroom : s.HasRoom cfg
    · refine resident_of_lookup (exec_contexts ..) hr ?_
      simp only [exec, newExternalFuncCallLocked, hroom, ↓reduceIte, putRunning_running]
      exact AList.lookup_insert_ne (hfresh e (.inl (List.mem_cons_self _ _))).symm
    · exact frame (by simp [exec, newExternalFuncCallLocked, hroom])
  | erase e =>
    have he : e < s.contexts.length := hk.tokens_lt e (List.mem_append_right _ (by simp [Instr.pipelineCtx]))
    have hek : s.callOf e ≠ s.callOf c := fun h => hne (congrArg _ (hk.ids.callOf_inj hL he hc h))
    exact resident_of_lookup (exec_contexts ..) hr (by simpa [exec] using AList.lookup_erase_ne hek.symm)
  | recv m =>
    simp only [exec]
    split
    · exact resident_of_lookup (by simp) hr (by simp)
    iterate 2
      rename_i htype
      -- a completion or failure for `c`'s call would need a worker to have accepted it
      have hm : m.funcCall ≠ s.callOf c := fun he =>
        hni (he ▸ (hs.recv m (List.mem_cons_self _ _)).2 (by simp [htype]) (he ▸ h0))
      refine resident_of_lookup (by simp [recvLocked]) hr ?_
      simpa [recvLocked] using @lookup_recvTake cfg s _ _ hm fun p hp => hfresh p (.inr hp)
    · exact hr
  | sweep =>
    refine resident_of_lookup (by simp [exec, sweepLocked]) hr ?_
    -- a discarded call is an accepted one
    have hnd : s.callOf c ∉ s.discarded := fun hm => hni (hd _ hm h0)
    refine (lookup_promote _ { (takeDiscarded s s.discarded).1 with discarded := [] } rfl fun p hp => ?_).trans
      (lookup_takeDiscarded s.discarded s hnd)
    simpa only [callOf, ctx, takeDiscarded_contexts] using hfresh p (.inr (by simpa using hp))
  | _ => exact frame (by simp [exec])

theorem exec_erase_next (h : Instr.erase c ∈ (exec cfg ok s ins).2) :
    (exec cfg ok s ins).1.running = s.running ∧ ins.dispatchCtx = some c ∧
      ∀ e, ¬ (ins = .dispatchTail e true ∧ ok = true) := by
  cases ins with
  | dispatch e =>
    simp only [exec] at h ⊢
    split at h <;> simp_all [Instr.dispatchCtx]
  | dispatchTail e found =>
    cases found <;> cases ok <;> simp_all [exec, dispatchTail, Instr.dispatchCtx]
  | newExternalFuncCall e =>
    simp only [exec] at h
    split at h <;> simp at h
  | recv m =>
    simp only [exec] at h
    split at h <;> simp at h
  | _ => simp [exec] at h

namespace EraseLive

theorem piece (h : EraseLive s (ins :: tasks)) (hk : KeyInv s (ins :: tasks))
    (hs : ShmInv cfg s (ins :: tasks)) (hd : ∀ fc ∈ s.discarded, fc.clientId = 0 → s.Invoked fc true)
    (hL : s.contexts.length ≤ 4294967296) :
    EraseLive (exec cfg ok s ins).1 ((exec cfg ok s ins).2 ++ tasks) := by
  intro c hmem
  rw [exec_callOf, exec_invoked_true]
  rcases List.mem_append.1 hmem with hn | ht
  · -- left by the failed dispatch of `c`
    obtain ⟨hrun, hx, hno⟩ := exec_erase_next hn
    obtain ⟨hr, hni⟩ := hs.dispatching c ⟨ins, List.mem_cons_self _ _, hx⟩
    refine ⟨resident_of_lookup (exec_contexts ..) hr (by rw [hrun]), ?_⟩
    rintro (hi | ⟨e, he, hok, -⟩ | ⟨m, he, -⟩)
    · exact hni hi.of_true
    · exact hno e ⟨he, hok⟩
    · subst he; cases hx
  · obtain ⟨hr, hni⟩ := h c (List.mem_cons_of_mem _ ht)
    have hc : c < s.contexts.length := (hk.running_key _ c hr).2
    -- the erase holds `c`'s token, so the running piece is not `c`'s
    have hnc : ins.pipelineCtx ≠ some c := fun hx =>
      hk.head_ne hx (List.mem_append_right _ (List.mem_filterMap.2 ⟨_, ht, rfl⟩)) rfl
    refine ⟨exec_resident_keep hk hs hd hL hr hni fun he => hnc (he ▸ rfl), ?_⟩
    rintro (hi | ⟨e, rfl, -, he⟩ | ⟨m, rfl, -, he⟩)
    · exact hni hi
    · have hel : e < s.contexts.length := hk.tokens_lt e (List.mem_append_right _ (by simp [Instr.pipelineCtx]))
      exact hnc (by rw [hk.ids.callOf_inj hL hc hel he]; rfl)
    · exact hs.invokeTail m true (List.mem_cons_self _ _) (he ▸ (hk.ids.2 c hc).1)

theorem perm {tasks' : List Instr} (h : EraseLive s tasks) (hp : tasks.Perm tasks') : EraseLive s tasks' :=
  fun c hc => h c (hp.mem_iff.2 hc)

theorem append (h : EraseLive s tasks) {next : List Instr} (hn : ∀ c, Instr.erase c ∉ next) :
    EraseLive s (tasks ++ next) :=
  fun c hc => h c ((List.mem_append.1 hc).resolve_right (hn c))

theorem construct (h : EraseLive s tasks) (hk : KeyInv s tasks) (sink : Sink) (f mth : UInt16)
    (body : List UInt8) : EraseLive (s.construct sink f mth body) tasks := by
  intro c hc
  obtain ⟨hr, hni⟩ := h c hc
  have hlt : c < s.contexts.length := (hk.running_key _ c hr).2
  rw [construct_callOf_lt _ _ _ _ _ hlt]
  exact ⟨by rwa [Resident, construct_callOf_lt _ _ _ _ _ hlt], hni⟩

end EraseLive

end

theorem spawn_no_erase (cfg : Config) (s : Server) (e : Event) (c : Nat) : Instr.erase c ∉ (spawn cfg s e).2 := by
  cases e <;> simp only [spawn] <;> (first | split | skip) <;> simp

theorem eraseLive_act {cfg : Config} {s s' : Sys} {a : Action} (h : EraseLive s.srv s.tasks)
    (hk : KeyInv s.srv s.tasks) (hs : ShmInv cfg s.srv s.tasks)
    (hd : ∀ fc ∈ s.srv.discarded, fc.clientId = 0 → s.srv.Invoked fc true)
    (hL : s.srv.contexts.length ≤ 4294967296) (ha : s.act cfg a = some s') : EraseLive s'.srv s'.tasks := by
  cases a with
  | spawn e =>
    cases ha
    have hn := spawn_no_erase cfg s.srv e
    cases e
    case httpCall f body => simpa [Sys.tasks, spawn] using (h.construct hk .http f 0 body).append hn
    case grpcCall f mth body => simpa [Sys.tasks, spawn] using (h.construct hk .grpc f mth body).append hn
    all_goals simpa [Sys.tasks, spawn] using h.append hn
  | exec i ok =>
    obtain ⟨ins, rest, hi, rfl⟩ := Sys.act_exec ha
    obtain ⟨others, h1, h2⟩ := Sys.tasks_set hi (exec cfg ok s.srv ins).2
    exact ((h.perm h1).piece (hk.subperm h1.symm.subperm) (hs.perm h1) hd hL).perm h2.symm
  | shmOutput => cases ha; exact h

theorem eraseLive_reachable {cfg : Config} {s : Sys} (h : AcceptedReachable cfg s)
    (hL : s.srv.contexts.length ≤ 4294967296) : EraseLive s.srv s.tasks := by
  induction h with
  | refl => intro c hc; simp [Sys.tasks, Sys.init] at hc
  | tail hr hst ih =>
    obtain ⟨a, -, -, ha⟩ := hst
    have hL' := (contexts_length_le_act ha).trans hL
    have hp := AcceptedReachable.protoReachable hr
    exact eraseLive_act (ih hL') (keyInv_reachable hp.reachable hL') (shmInv_reachable hp hL')
      (onceInv_reachable hr hL').discarded hL' ha

theorem Instr.rawCtx_eq_some {x : Instr} {c : Nat} :
    x.rawCtx = some c ↔ x.dispatchCtx = some c ∨ x = .erase c := by
  cases x <;> simp [Instr.rawCtx, Instr.dispatchCtx, eq_comm]

/-- No use after free: in every run of the worker protocol in which the `WorkerManager`
discards an external call only after a worker accepted it, under any interleaving and any
outcomes, while at most `2^32` contexts have been built, every raw pointer a handler holds
past `mu_` (the context it dispatches, and the one whose failed dispatch it is about to
erase) points at a context of the running table. -/
theorem raw_pointers_stay_valid {cfg : Config} {s : Sys} (h : AcceptedReachable cfg s)
    (hL : s.srv.contexts.length ≤ 4294967296) :
    ∀ x ∈ s.tasks, ∀ c, x.rawCtx = some c → s.srv.Resident c := by
  intro x hx c hc
  rcases Instr.rawCtx_eq_some.1 hc with hd | rfl
  · exact ((shmInv_reachable h.protoReachable hL).dispatching c ⟨x, hx, hd⟩).1
  · exact (eraseLive_reachable h hL c hx).1

/-- A request whose `OnNewFuncCall` refuses: its handler is about to erase it, and the
context is still in the running table. -/
theorem raw_pointers_stay_valid_refused_dispatch :
    ∃ s, AcceptedReachable scenarioConfig s ∧ s.srv.contexts.length ≤ 4294967296 ∧
      Instr.erase 0 ∈ s.tasks ∧ ∀ x ∈ s.tasks, ∀ c, x.rawCtx = some c → s.srv.Resident c := by
  obtain ⟨s, hs, hL, he⟩ : ∃ s, Sys.init.acceptedReplay scenarioConfig (dispatchFailureRace.take 5) = some s ∧
      s.srv.contexts.length = 1 ∧ Instr.erase 0 ∈ s.tasks := ⟨_, rfl, by decide, by decide⟩
  have h := Sys.acceptedReplay_reachable _ .refl hs
  exact ⟨s, h, by omega, he, raw_pointers_stay_valid h (by omega)⟩

theorem erase_pointer_dangles_under_weaker_protocol :
    ∃ s, ProtoReachable scenarioConfig s ∧ s.srv.contexts.length ≤ 4294967296 ∧
      Instr.erase 0 ∈ s.tasks ∧ ¬ s.srv.Resident 0 ∧ Instr.destroy 0 ∉ s.tasks := by
  obtain ⟨s, hs, hL, he, hr, hd⟩ : ∃ s, Sys.init.replay scenarioConfig (dispatchFailureRace.take 11) = some s ∧
      s.srv.contexts.length = 1 ∧ Instr.erase 0 ∈ s.tasks ∧ s.srv.running.lookup (s.srv.callOf 0) = none ∧
      Instr.destroy 0 ∉ s.tasks :=
    ⟨_, rfl, by decide, by decide, by decide, by decide⟩
  exact ⟨s, Sys.replay_protoReachable _ .refl hs, by omega, he, by simp [Resident, hr], hd⟩

end Nightcore.Gateway
