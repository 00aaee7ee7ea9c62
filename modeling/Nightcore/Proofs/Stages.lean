import Nightcore.Proofs.Handover

/-! Contexts only move forward. An external context is built with its admission still to
run; `NewExternalFuncCall` puts it in the running table or at the back of the queue; a
promotion moves it from the queue's front into the table; a completion, a failure or a
discard takes it out of the table to a handler that finalizes and deletes it, and the
erase after a failed dispatch deletes it where it is. No piece moves a context back: once
out of the queue it is never queued again, once out of the running table it never
returns, and once deleted it is neither in a table nor held by a handler that is to delete
it. This holds along every run that has built at most `2^32` contexts, whatever the
workers send and in whatever order the handlers' pieces run. -/

namespace Nightcore.Gateway

open Server

/-- The stage of context `c`: 0 while its admission is still to run, 1 waiting in
`pending_external_func_calls_`, 2 in `running_external_func_calls_` under its own
`full_call_id`, 3 taken out by a handler that is still to delete it, 4 deleted. -/
def Sys.stage (s : Sys) (c : Nat) : Nat :=
  if Instr.newExternalFuncCall c ∈ s.tasks then 0
  else if c ∈ s.srv.pending then 1
  else if s.srv.Resident c then 2
  else if Instr.destroy c ∈ s.tasks then 3
  else 4

theorem Sys.stage_le_of {s s' : Sys} {c : Nat}
    (h0 : Instr.newExternalFuncCall c ∈ s'.tasks → Instr.newExternalFuncCall c ∈ s.tasks)
    (h1 : c ∈ s'.srv.pending → Instr.newExternalFuncCall c ∈ s.tasks ∨ c ∈ s.srv.pending)
    (h2 : s'.srv.Resident c →
      Instr.newExternalFuncCall c ∈ s.tasks ∨ c ∈ s.srv.pending ∨ s.srv.Resident c)
    (h3 : Instr.destroy c ∈ s'.tasks →
      Instr.newExternalFuncCall c ∈ s.tasks ∨ c ∈ s.srv.pending ∨ s.srv.Resident c ∨
        Instr.destroy c ∈ s.tasks) :
    s.stage c ≤ s'.stage c := by
  unfold Sys.stage
  by_cases a0 : Instr.newExternalFuncCall c ∈ s.tasks
  · rw [if_pos a0]
    exact Nat.zero_le _
  rw [if_neg a0, if_neg (mt h0 a0)]
  by_cases a1 : c ∈ s.srv.pending
  · rw [if_pos a1]
    split_ifs <;> omega
  rw [if_neg a1, if_neg fun h => (h1 h).elim a0 a1]
  by_cases a2 : s.srv.Resident c
  · rw [if_pos a2]
    split_ifs <;> omega
  rw [if_neg a2, if_neg fun h => (h2 h).elim a0 fun h => h.elim a1 a2]
  by_cases a3 : Instr.destroy c ∈ s.tasks
  · rw [if_pos a3]
    split_ifs <;> omega
  rw [if_neg a3, if_neg fun h => (h3 h).elim a0 fun h => h.elim a1 fun h => h.elim a2 a3]

theorem mem_completion_pieces {m : Message} {r : RecvOut} {x : Instr}
    (h : x ∈ Instr.recvTail m r.taken r.found ::
      (r.promoted.toList.map .dispatch ++ r.taken.toList.map .destroy ++ [.sweep])) :
    x = .recvTail m r.taken r.found ∨ ((∃ c, r.promoted = some c ∧ Instr.dispatch c = x) ∨
      ∃ c, r.taken = some c ∧ Instr.destroy c = x) ∨ x = .sweep := by
  simpa only [List.mem_cons, List.mem_append, List.mem_map, Option.mem_toList, Option.mem_def,
    List.not_mem_nil, or_false] using h

theorem resident_construct {s : Server} {c : Nat} (hc : c < s.contexts.length) (sink : Sink) (f m : UInt16)
    (body : List UInt8) : (s.construct sink f m body).Resident c ↔ s.Resident c := by
  unfold Resident
  rw [construct_callOf_lt _ _ _ _ _ hc]
  rfl

section Pieces

variable {cfg : Config} {ok : Bool} {s : Server} {ins : Instr} {tasks : List Instr}

theorem exec_no_admission (c : Nat) : Instr.newExternalFuncCall c ∉ (exec cfg ok s ins).2 := by
  cases ins with
  | newExternalFuncCall e | dispatch e | dispatchTail e _ =>
    simp only [exec]
    split <;> simp
  | recv m =>
    simp only [exec]
    split <;> simp
  | _ => simp [exec]

theorem exec_pending_back (hk : KeyInv s (ins :: tasks)) {c : Nat} (h : c ∈ (exec cfg ok s ins).1.pending) :
    ins = .newExternalFuncCall c ∨ c ∈ s.pending := by
  have hkey : ∀ k c, s.running.lookup k = some c → s.callOf c = k := fun k c h => (hk.running_key k c h).1
  have hfresh : ∀ p ∈ s.pending, s.running.lookup (s.callOf p) = none :=
    fun p hp => hk.fresh_absent p (.inr hp)
  cases ins with
  | newExternalFuncCall e =>
    simp only [exec, newExternalFuncCallLocked] at h
    split_ifs at h
    · exact .inr (by simpa using h)
    · rcases List.mem_append.1 h with h | h
      · exact .inr h
      · exact .inl (by rw [List.mem_singleton.1 h])
  | recv m =>
    simp only [exec] at h
    split at h
    · exact .inr (by simpa using h)
    iterate 2
      rw [(@recvLocked_back cfg s m hkey hfresh).2.2]
      exact .inr (List.mem_append_right _ h)
    · exact .inr h
  | sweep =>
    rw [(@sweepLocked_back cfg s hkey hfresh).2.2.2]
    exact .inr (List.mem_append_right _ h)
  | _ => exact .inr (by simpa [exec] using h)

theorem exec_dispatch_back (hk : KeyInv s (ins :: tasks)) {c : Nat} (h : Instr.dispatch c ∈ (exec cfg ok s ins).2) :
    ins = .newExternalFuncCall c ∨ c ∈ s.pending := by
  have hkey : ∀ k c, s.running.lookup k = some c → s.callOf c = k := fun k c h => (hk.running_key k c h).1
  have hfresh : ∀ p ∈ s.pending, s.running.lookup (s.callOf p) = none :=
    fun p hp => hk.fresh_absent p (.inr hp)
  cases ins with
  | newExternalFuncCall e =>
    simp only [exec] at h
    split at h
    · exact .inl (by rw [(Instr.dispatch.inj (List.mem_singleton.1 h))])
    · cases h
  | recv m =>
    simp only [exec] at h
    split at h
    · simp at h
    iterate 2
      rcases mem_completion_pieces h with h | (⟨p, hp, h⟩ | ⟨_, -, h⟩) | h
      · cases h
      · rw [← Instr.dispatch.inj h, (@recvLocked_back cfg s m hkey hfresh).2.2, hp]
        exact .inr (List.mem_cons_self _ _)
      · cases h
      · cases h
    · simp at h
  | sweep =>
    rw [(@sweepLocked_back cfg s hkey hfresh).2.2.2]
    simp only [exec, List.mem_append, List.mem_map, Instr.dispatch.injEq, exists_eq_right, reduceCtorEq,
      and_false, exists_false, false_or] at h
    exact .inr (List.mem_append_left _ h)
  | dispatch e | dispatchTail e _ =>
    simp only [exec] at h
    split at h <;> simp at h
  | _ => simp [exec] at h

theorem exec_destroy_back (hk : KeyInv s (ins :: tasks)) {c : Nat} (h : Instr.destroy c ∈ (exec cfg ok s ins).2) :
    s.Resident c := by
  have hkey : ∀ k c, s.running.lookup k = some c → s.callOf c = k := fun k c h => (hk.running_key k c h).1
  have hfresh : ∀ p ∈ s.pending, s.running.lookup (s.callOf p) = none :=
    fun p hp => hk.fresh_absent p (.inr hp)
  cases ins with
  | recv m =>
    simp only [exec] at h
    split at h
    · simp at h
    iterate 2
      rcases mem_completion_pieces h with h | (⟨_, -, h⟩ | ⟨d, hd, h⟩) | h
      · cases h
      · cases h
      · rw [← Instr.destroy.inj h]
        exact ((@recvLocked_back cfg s m hkey hfresh).2.1 d hd).1
      · cases h
    · simp at h
  | sweep =>
    simp only [exec, List.mem_append, List.mem_map, Instr.destroy.injEq, exists_eq_right, reduceCtorEq,
      and_false, exists_false, or_false, false_or] at h
    exact ((@sweepLocked_back cfg s hkey hfresh).2.1 c h).1
  | newExternalFuncCall e | dispatch e | dispatchTail e _ =>
    simp only [exec] at h
    split at h <;> simp at h
  | _ => simp [exec] at h

end Pieces

theorem stage_le_act {cfg : Config} {s s' : Sys} {a : Action} (hk : KeyInv s.srv s.tasks)
    (ha : s.act cfg a = some s') {c : Nat} (hc : c < s.srv.contexts.length) : s.stage c ≤ s'.stage c := by
  cases a with
  | spawn e =>
    simp only [Sys.act, Option.some.injEq] at ha
    subst ha
    have hsrv : (spawn cfg s.srv e).1.pending = s.srv.pending ∧
        ((spawn cfg s.srv e).1.Resident c ↔ s.srv.Resident c) := by
      cases e with
      | httpCall f body => exact ⟨rfl, resident_construct hc _ _ _ _⟩
      | grpcCall f mth body => exact ⟨rfl, resident_construct hc _ _ _ _⟩
      | _ => exact ⟨rfl, Iff.rfl⟩
    have htasks : ∀ x, x ∈ Sys.tasks ⟨(spawn cfg s.srv e).1, s.threads ++ [(spawn cfg s.srv e).2],
        s.answered ++ e.answers⟩ ↔ x ∈ s.tasks ∨ x ∈ (spawn cfg s.srv e).2 := fun x => by
      simp only [Sys.tasks, List.flatten_append, List.flatten_cons, List.flatten_nil, List.append_nil,
        List.mem_append]
    refine Sys.stage_le_of (fun h => ?_) (fun h => .inr (hsrv.1 ▸ h)) (fun h => .inr (.inr (hsrv.2.1 h)))
      fun h => ?_
    · rcases (htasks _).1 h with h | h
      · exact h
      · cases e <;> simp [spawn] at h
        all_goals omega
    · rcases (htasks _).1 h with h | h
      · exact .inr (.inr (.inr h))
      · cases e <;> simp [spawn] at h
  | exec i ok =>
    obtain ⟨ins, rest, hi, rfl⟩ := Sys.act_exec ha
    obtain ⟨others, hp, hp'⟩ := Sys.tasks_set hi (exec cfg ok s.srv ins).2
    have hk' : KeyInv s.srv (ins :: others) := hk.subperm hp.symm.subperm
    have hins : ins ∈ s.tasks := hp.symm.subset (List.mem_cons_self _ _)
    have hadm : ins = .newExternalFuncCall c → Instr.newExternalFuncCall c ∈ s.tasks := fun he => he ▸ hins
    have hold : ∀ x ∈ others, x ∈ s.tasks := fun x hx => hp.symm.subset (List.mem_cons_of_mem _ hx)
    -- a place held afterwards is in what the piece returned or among the other pieces
    have split : ∀ x, x ∈ (s.threads.set i ((exec cfg ok s.srv ins).2 ++ rest)).flatten →
        x ∈ (exec cfg ok s.srv ins).2 ∨ x ∈ s.tasks := fun x hx =>
      (List.mem_append.1 (hp'.subset hx)).imp_right (hold x)
    refine Sys.stage_le_of (fun h => ?_) (fun h => ?_) (fun h => ?_) fun h => ?_
    · exact (split _ h).resolve_left (exec_no_admission c)
    · exact (exec_pending_back hk' h).imp_left hadm
    · rcases exec_resident_back hk' h with hr | hd
      · exact .inr (.inr hr)
      · exact ((exec_dispatch_back hk' hd).imp_left hadm).elim .inl fun h => .inr (.inl h)
    · rcases split _ h with hd | hd
      · exact .inr (.inr (.inl (exec_destroy_back hk' hd)))
      · exact .inr (.inr (.inr hd))
  | shmOutput id data =>
    simp only [Sys.act, Option.some.injEq] at ha
    subst ha
    exact le_rfl

theorem contexts_length_le_steps {cfg : Config} {s s' : Sys} (h : Relation.ReflTransGen (Step cfg) s s') :
    s.srv.contexts.length ≤ s'.srv.contexts.length := by
  induction h with
  | refl => exact le_rfl
  | tail _ hst ih =>
    obtain ⟨a, ha⟩ := hst
    exact ih.trans (contexts_length_le_act ha)

/-- From any reachable state, along any later run that has built at most `2^32` contexts,
no context built moves back a stage: a context that left the queue is never queued again,
one taken out of the running table never returns to it, and one deleted is neither in a
table nor held by a handler that is to delete it. -/
theorem contexts_only_move_forward {cfg : Config} {s s' : Sys} (h : Reachable cfg s)
    (h' : Relation.ReflTransGen (Step cfg) s s') (hL : s'.srv.contexts.length ≤ 4294967296) :
    ∀ c < s.srv.contexts.length, s.stage c ≤ s'.stage c := by
  induction h' with
  | refl => exact fun _ _ => le_rfl
  | tail hr hst ih =>
    obtain ⟨a, ha⟩ := hst
    have hL' := (contexts_length_le_act ha).trans hL
    intro c hc
    exact (ih hL' c hc).trans (stage_le_act (keyInv_reachable (h.trans hr) hL') ha
      (lt_of_lt_of_le hc (contexts_length_le_steps hr)))

theorem Sys.replay_append {cfg : Config} :
    ∀ (s : Sys) (as bs : List Action), s.replay cfg (as ++ bs) = (s.replay cfg as).bind (·.replay cfg bs)
  | s, [], bs => rfl
  | s, a :: as, bs => by
    simp only [List.cons_append, Sys.replay]
    split
    · cases s.act cfg a with
      | none => rfl
      | some t => exact replay_append t as bs
    · rfl

theorem Sys.replay_steps {cfg : Config} :
    ∀ {s s' : Sys} (as : List Action), s.replay cfg as = some s' → Relation.ReflTransGen (Step cfg) s s'
  | s, s', [], he => by simp only [Sys.replay, Option.some.injEq] at he; exact he ▸ .refl
  | s, s', a :: as, he => by
    simp only [Sys.replay] at he
    split_ifs at he
    obtain ⟨t, ht, he⟩ := Option.bind_eq_some.1 he
    exact .head ⟨a, ht⟩ (replay_steps as he)

/-- The worker answers the first call of `threeArrivals`, and the handler of its message
runs its locked section. -/
def firstCompletes : List Action :=
  [.spawn (.message ⟨.funcCallComplete, ⟨1, 0, 0, 1⟩, ⟨0, 0, 0, 0⟩, .zero, .zero, .zero, []⟩), .exec 3 true]

/-- The third arrival of `threeArrivals` waits in the queue (stage 1); a completion of the
first call takes that call out (stage 3) and promotes the third into the table (stage 2). -/
theorem contexts_only_move_forward_promotion :
    ∃ s s', Reachable scenarioConfig s ∧ Relation.ReflTransGen (Step scenarioConfig) s s' ∧
      s.stage 2 = 1 ∧ s'.stage 2 = 2 ∧ s.stage 0 = 2 ∧ s'.stage 0 = 3 ∧
      ∀ c < s.srv.contexts.length, s.stage c ≤ s'.stage c := by
  obtain ⟨s, hs, h2, h0⟩ : ∃ s, Sys.init.replay scenarioConfig threeArrivals = some s ∧
      s.stage 2 = 1 ∧ s.stage 0 = 2 := ⟨_, rfl, by decide, by decide⟩
  obtain ⟨s', hs', hL', h2', h0'⟩ : ∃ s', Sys.init.replay scenarioConfig (threeArrivals ++ firstCompletes) =
      some s' ∧ s'.srv.contexts.length = 3 ∧ s'.stage 2 = 2 ∧ s'.stage 0 = 3 :=
    ⟨_, rfl, rfl, by decide, by decide⟩
  rw [Sys.replay_append, hs, Option.some_bind] at hs'
  have h := (Sys.replay_protoReachable _ .refl hs).reachable
  have h' := Sys.replay_steps _ hs'
  exact ⟨s, s', h, h', h2, h2', h0, h0', contexts_only_move_forward h h' (by omega)⟩

end Nightcore.Gateway
