import Nightcore.Gateway.Run

/-! Output regions are released. `FinishWithShmOutput` opens the worker's output region
for the context it finalizes and sets it to remove on destruction; it runs only in the
`FUNC_CALL_COMPLETE` branch of `OnRecvMessage`, on the context that branch took out of
`running_external_func_calls_`, and that branch deletes the context afterwards. So a
context holds an output region only while the handler that opened it has still to destroy
it, and once no handler is mid-flight no context holds one: every output region the
gateway opened has been unlinked. This holds along every run, whatever the workers send. -/

namespace Nightcore.Gateway

namespace Server

/-- No output region is opened: a context that holds one afterwards held one before. -/
def OpensNoOutput (s t : Server) : Prop :=
  ∀ c, (t.ctxState c).outputRegion = true → (s.ctxState c).outputRegion = true

theorem OpensNoOutput.refl (s : Server) : OpensNoOutput s s := fun _ h => h

theorem OpensNoOutput.trans {s t u : Server} (h : OpensNoOutput s t) (h' : OpensNoOutput t u) :
    OpensNoOutput s u := fun c hc => h c (h' c hc)

theorem OpensNoOutput.of_ctxState {s t : Server} (h : t.ctxState = s.ctxState) : OpensNoOutput s t :=
  fun _ hc => h ▸ hc

theorem opensNoOutput_destroy (s : Server) (c : Nat) : OpensNoOutput s (s.destroy c) := fun d h => by
  rw [destroy_outputRegion] at h
  split at h
  · cases h
  · exact h

theorem opensNoOutput_respond (s : Server) (c : Nat) (f) : OpensNoOutput s (s.respond c f) :=
  fun d h => by rwa [respond_outputRegion] at h

theorem opensNoOutput_putRunning (s : Server) (id : FuncCall) (c : Nat) :
    OpensNoOutput s (s.putRunning id c) := by
  unfold putRunning
  split
  · exact opensNoOutput_destroy _ _
  · exact .refl s

theorem opensNoOutput_eraseRunning (s : Server) (id : FuncCall) : OpensNoOutput s (s.eraseRunning id) := by
  unfold eraseRunning
  split
  · exact opensNoOutput_destroy _ _
  · exact .refl s

theorem opensNoOutput_popPending (s : Server) : OpensNoOutput s (popPending s).1 := by
  unfold popPending
  split
  · exact opensNoOutput_putRunning _ _ _
  · exact .refl s

theorem opensNoOutput_recvLocked (cfg : Config) (s : Server) (m : Message) :
    OpensNoOutput s (recvLocked cfg s m).srv := by
  simp only [recvLocked, getOrCreateDispatcherLocked_fst]
  show OpensNoOutput s (recvTake cfg s m.funcCall).1
  unfold recvTake
  split
  · dsimp only
    split_ifs
    · exact opensNoOutput_popPending _
    · exact .refl s
  · exact .refl s

theorem opensNoOutput_promote (cfg : Config) (s : Server) (q : List Nat) :
    OpensNoOutput s (promote cfg s q).1 := by
  induction q generalizing s with
  | nil => exact .refl s
  | cons p rest ih =>
    simp only [promote]
    split_ifs
    · exact (opensNoOutput_putRunning { s with pending := rest } _ _).trans (ih _)
    · exact .refl s

theorem opensNoOutput_sweepLocked (cfg : Config) (s : Server) : OpensNoOutput s (sweepLocked cfg s).srv :=
  (OpensNoOutput.of_ctxState (by rw [takeDiscarded_eq])).trans (opensNoOutput_promote cfg _ _)

theorem opensNoOutput_dispatchStart (cfg : Config) (ok : Bool) (s : Server) (c : Nat) :
    OpensNoOutput s (dispatchStart cfg ok s c).1 := by
  unfold dispatchStart createShmInput
  split_ifs
  · intro d h
    by_cases hd : d = c
    · subst hd; simpa [modifyCtx] using h
    · simpa [modifyCtx, Function.update_noteq hd] using h
  · exact opensNoOutput_respond _ _ _
  · exact .refl s

theorem opensNoOutput_dispatchTail (cfg : Config) (ok : Bool) (s : Server) (c : Nat) (found : Bool) :
    OpensNoOutput s (dispatchTail cfg ok s c found).1 := by
  unfold dispatchTail
  split_ifs
  · exact .refl s
  · exact opensNoOutput_respond _ _ _
  · exact opensNoOutput_respond _ _ _

theorem finishWithShmOutput_outputRegion {ok : Bool} {s : Server} {c d : Nat}
    (h : ((finishWithShmOutput ok s c).ctxState d).outputRegion = true) :
    d = c ∨ (s.ctxState d).outputRegion = true := by
  unfold finishWithShmOutput at h
  split at h
  · rw [respond_outputRegion] at h
    by_cases hd : d = c
    · exact .inl hd
    · exact .inr (by simpa [modifyCtx, Function.update_noteq hd] using h)
  · exact .inr (by rwa [respond_outputRegion] at h)

theorem recvTail_outputRegion {ok : Bool} {s : Server} {m : Message} {c : Option Nat} {found : Bool}
    {d : Nat} (h : ((recvTail ok s m c found).ctxState d).outputRegion = true) :
    c = some d ∨ (s.ctxState d).outputRegion = true := by
  obtain ⟨t, -, ht, -, he⟩ := recvTail_eq ok s m c found
  rw [he] at h
  rw [← ht]
  cases c with
  | none =>
    simp only [recvTail, Bool.false_eq_true, ↓reduceIte, ite_self] at h
    exact .inr h
  | some c =>
    simp only [recvTail, Bool.false_eq_true, ↓reduceIte] at h
    split_ifs at h
    · exact (finishWithShmOutput_outputRegion h).imp (fun hd => by rw [hd]) id
    · exact .inr (by rwa [respond_outputRegion] at h)
    · exact .inr (by rwa [respond_outputRegion] at h)
    · exact .inr h

end Server

open Server

theorem exec_outputRegion {cfg : Config} {ok : Bool} {s : Server} {ins : Instr} {c : Nat}
    (h : ((exec cfg ok s ins).1.ctxState c).outputRegion = true) :
    ((s.ctxState c).outputRegion = true ∧ ins ≠ .destroy c) ∨ ∃ m found, ins = .recvTail m (some c) found := by
  have keep : OpensNoOutput s (exec cfg ok s ins).1 → (∀ d, ins ≠ .destroy d) →
      ((s.ctxState c).outputRegion = true ∧ ins ≠ .destroy c) ∨ ∃ m found, ins = .recvTail m (some c) found :=
    fun ho hd => .inl ⟨ho c h, hd c⟩
  cases ins with
  | recvTail m d found =>
    rcases recvTail_outputRegion h with rfl | hb
    · exact .inr ⟨m, found, rfl⟩
    · exact .inl ⟨hb, by simp⟩
  | destroy d =>
    simp only [exec, destroy_outputRegion] at h
    split at h
    · cases h
    · exact .inl ⟨h, by simpa [eq_comm] using ‹¬c = d›⟩
  | newExternalFuncCall d =>
    refine keep ?_ (by simp)
    simp only [exec, newExternalFuncCallLocked]
    split_ifs
    · exact opensNoOutput_putRunning _ _ _
    · exact .of_ctxState rfl
  | dispatch d => exact keep (opensNoOutput_dispatchStart cfg ok s d) (by simp)
  | dispatchLocked d => exact keep (.of_ctxState (by simp only [exec]; rw [dispatchLocked_eq])) (by simp)
  | dispatchTail d found => exact keep (opensNoOutput_dispatchTail cfg ok s d found) (by simp)
  | erase d => exact keep (opensNoOutput_eraseRunning _ _) (by simp)
  | recv m =>
    refine keep ?_ (by simp)
    simp only [exec]
    split
    · exact .of_ctxState (by rw [recvInvokeLocked_eq])
    · exact opensNoOutput_recvLocked cfg s m
    · exact opensNoOutput_recvLocked cfg s m
    · exact .refl s
  | invokeTail m found =>
    refine keep (.of_ctxState ?_) (by simp)
    simp only [exec, recvInvokeTail]
    split <;> rfl
  | sweep => exact keep (opensNoOutput_sweepLocked cfg s) (by simp)
  | finishDiscarded d => exact keep (opensNoOutput_respond _ _ _) (by simp)
  | notify fc => exact keep (.refl s) (by simp)
  | discard fc => exact keep (.refl s) (by simp)

/-- The context a completion's tail took out of the running table. -/
def Instr.tailCtx : Instr → Option Nat
  | .recvTail _ c _ => c
  | _ => none

/-- In a handler's pieces still to run, every completion's tail that took out context `c`
is followed by `c`'s destruction. -/
def TailsDestroy : List Instr → Prop
  | [] => True
  | x :: rest => (∀ c, x.tailCtx = some c → Instr.destroy c ∈ rest) ∧ TailsDestroy rest

theorem TailsDestroy.append : ∀ {l l' : List Instr}, TailsDestroy l → TailsDestroy l' → TailsDestroy (l ++ l')
  | [], _, _, h' => h'
  | _ :: _, _, ⟨hx, hr⟩, h' => ⟨fun c hc => List.mem_append_left _ (hx c hc), hr.append h'⟩

theorem TailsDestroy.cons {x : Instr} {l : List Instr} (hx : x.tailCtx = none) (h : TailsDestroy l) :
    TailsDestroy (x :: l) :=
  ⟨fun c hc => (by rw [hx] at hc; cases hc), h⟩

theorem TailsDestroy.map {α : Type} (f : α → Instr) (hf : ∀ a, (f a).tailCtx = none) :
    ∀ l : List α, TailsDestroy (l.map f)
  | [] => trivial
  | a :: l => .cons (hf a) (map f hf l)

theorem tailsDestroy_completion (m : Message) (r : RecvOut) :
    TailsDestroy (.recvTail m r.taken r.found ::
      (r.promoted.toList.map .dispatch ++ r.taken.toList.map .destroy ++ [.sweep])) := by
  refine ⟨fun c hc => ?_, ((TailsDestroy.map Instr.dispatch (fun _ => rfl) _).append
    (.map Instr.destroy (fun _ => rfl) _)).append (.cons rfl trivial)⟩
  change r.taken = some c at hc
  simp [hc]

theorem exec_tailsDestroy (cfg : Config) (ok : Bool) (s : Server) (ins : Instr) :
    TailsDestroy (exec cfg ok s ins).2 := by
  cases ins with
  | recv m =>
    simp only [exec]
    split
    · exact .cons rfl (.cons rfl trivial)
    · exact tailsDestroy_completion m _
    · exact tailsDestroy_completion m _
    · exact .cons rfl trivial
  | sweep =>
    exact (((TailsDestroy.map Instr.finishDiscarded (fun _ => rfl) _).append
      (.map Instr.destroy (fun _ => rfl) _)).append (.map Instr.notify (fun _ => rfl) _)).append
      (.map Instr.dispatch (fun _ => rfl) _)
  | newExternalFuncCall d | dispatch d | dispatchTail d found =>
    simp only [exec]
    split
    all_goals first | exact .cons rfl trivial | trivial
  | dispatchLocked d => exact .cons rfl trivial
  | _ => trivial

theorem spawn_tailsDestroy (cfg : Config) (s : Server) (e : Event) : TailsDestroy (spawn cfg s e).2 := by
  cases e with
  | handshake m =>
    simp only [spawn]
    split
    · exact .cons rfl trivial
    · trivial
  | connectionClose fcs => exact .map Instr.discard (fun _ => rfl) _
  | _ => exact .cons rfl trivial

/-- Output regions and the handlers that own them. -/
structure OutputInv (s : Sys) : Prop where
  /-- On every thread, a completion's tail is followed by the destruction of the context it
  took out. -/
  tails : ∀ t ∈ s.threads, TailsDestroy t
  /-- A context holding an output region has its destruction still to come. -/
  held : ∀ c, (s.srv.ctxState c).outputRegion = true → Instr.destroy c ∈ s.tasks

theorem OutputInv.init : OutputInv Sys.init :=
  ⟨fun _ h => (nomatch h), fun _ h => (nomatch h)⟩

theorem OutputInv.act {cfg : Config} {s s' : Sys} {a : Action} (h : OutputInv s)
    (ha : s.act cfg a = some s') : OutputInv s' := by
  cases a with
  | spawn e =>
    simp only [Sys.act, Option.some.injEq] at ha
    subst ha
    have hst : (spawn cfg s.srv e).1.ctxState = s.srv.ctxState := by cases e <;> rfl
    refine ⟨fun t ht => ?_, fun c hc => ?_⟩
    · rcases List.mem_append.1 ht with ht | ht
      · exact h.tails t ht
      · rw [List.mem_singleton.1 ht]
        exact spawn_tailsDestroy cfg s.srv e
    · rw [hst] at hc
      simp only [Sys.tasks, List.flatten_append]
      exact List.mem_append_left _ (h.held c hc)
  | exec i ok =>
    obtain ⟨ins, rest, hi, rfl⟩ := Sys.act_exec ha
    obtain ⟨others, hp, hp'⟩ := Sys.tasks_set hi (exec cfg ok s.srv ins).2
    have hthr : ins :: rest ∈ s.threads := List.getElem?_mem hi
    have htl := h.tails _ hthr
    refine ⟨fun t ht => ?_, fun c hc => ?_⟩
    · rcases List.mem_or_eq_of_mem_set ht with ht | rfl
      · exact h.tails t ht
      · exact (exec_tailsDestroy cfg ok s.srv ins).append htl.2
    · -- the destruction was pending before, and the piece run is not it
      have pending : Instr.destroy c ∈ s.tasks ∧ ins ≠ .destroy c := by
        rcases exec_outputRegion hc with ⟨hb, hne⟩ | ⟨m, found, rfl⟩
        · exact ⟨h.held c hb, hne⟩
        · exact ⟨List.mem_flatten.2 ⟨_, hthr, List.mem_cons_of_mem _ (htl.1 c rfl)⟩, by simp⟩
      rcases List.mem_cons.1 (hp.subset pending.1) with heq | ho
      · exact absurd heq.symm pending.2
      · exact hp'.symm.subset (List.mem_append_right _ ho)
  | shmOutput id data =>
    simp only [Sys.act, Option.some.injEq] at ha
    subst ha
    exact ⟨h.tails, h.held⟩

end Nightcore.Gateway
