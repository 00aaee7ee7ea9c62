import Nightcore.Proofs.Finalization
import Nightcore.Proofs.Residency

/-! No request is lost. A context leaves the running table only to a handler that answers
it (a completion, a failure, a sweep of a discarded call), or after its failed dispatch
answered it; a context leaves the queue only for the running table. So while at most
`2^32` contexts have been built, every context is in a table, answered, or held by a piece
that will put it in a table or answer it, and when no handler is mid-flight every request
is in the running table, waiting in the queue, or answered. Past `2^32` arrivals this
fails: an admission can write over a resident context. -/

namespace Nightcore.Gateway

open Server

/-- The context a piece is to put in a table or to answer. -/
def Instr.held : Instr → Option Nat
  | .newExternalFuncCall c | .finishDiscarded c => some c
  | .recvTail _ (some c) _ => some c
  | _ => none

/-- The client of context `c` has been answered. -/
def Server.Finished (s : Server) (c : Nat) : Prop := 0 < (s.ctxState c).response.finishes

/-- Context `c` is in a table, has been answered, or is held by a piece that will put it in
a table or answer it. -/
def Accounted (s : Server) (tasks : List Instr) (c : Nat) : Prop :=
  s.Resident c ∨ c ∈ s.pending ∨ s.Finished c ∨ ∃ x ∈ tasks, x.held = some c

/-- Every context built is accounted for. -/
structure NoLoss (s : Server) (tasks : List Instr) : Prop where
  accounted : ∀ c < s.contexts.length, Accounted s tasks c
  /-- The caller erases a context only once its failed dispatch answered it. -/
  erase : ∀ c, Instr.erase c ∈ tasks → s.Finished c
  /-- A message handler takes only external contexts out of the table. -/
  tails : ∀ m c found, Instr.recvTail m (some c) found ∈ tasks → m.funcCall.clientId = 0

theorem exec_finished {cfg : Config} {ok : Bool} {s : Server} {ins : Instr}
    (hins : ∀ m d found, ins = .recvTail m d found →
      m.messageType = .funcCallComplete ∨ m.messageType = .funcCallFailed)
    {c : Nat} (hc : s.Finished c) : (exec cfg ok s ins).1.Finished c := by
  unfold Server.Finished at hc ⊢
  rcases exec_response_cases cfg ok s ins c hins with h | ⟨v, hv⟩
  · rwa [h]
  · exact hv.finishes_pos

theorem Server.Resident.of_running {s t : Server} {m : RunningMap} {d : Nat} (h1 : t.contexts = s.contexts)
    (h2 : t.running = m) (hd : m.lookup (s.callOf d) = some d) : t.Resident d := by
  unfold Resident
  rwa [h2, show t.callOf d = s.callOf d from congrArg Ctx.call (ctx_eq_of_contexts h1 d)]

theorem accounted_of_frame {s t : Server} {x : Instr} {next : List Instr} {d : Nat}
    (h1 : t.contexts = s.contexts) (h2 : t.running = s.running) (h3 : t.pending = s.pending)
    (hheld : ∀ c, x.held = some c → t.Finished c) (hd : s.Resident d ∨ d ∈ s.pending ∨ x.held = some d) :
    Accounted t next d := by
  rcases hd with hr | hp | hx
  · exact .inl (.of_running h1 h2 hr)
  · exact .inr (.inl (h3 ▸ hp))
  · exact .inr (.inr (.inl (hheld d hx)))

namespace NoLoss

variable {s t : Server} {x : Instr} {tasks rest next : List Instr}

theorem perm (h : NoLoss s tasks) (hp : tasks.Perm rest) : NoLoss s rest :=
  ⟨fun c hc => (h.accounted c hc).imp_right (·.imp_right (·.imp_right fun ⟨x, hx, he⟩ => ⟨x, hp.subset hx, he⟩)),
    fun c hc => h.erase c (hp.symm.subset hc), fun m c found hm => h.tails m c found (hp.symm.subset hm)⟩

theorem append (h : NoLoss s tasks) (he : ∀ c, Instr.erase c ∉ next)
    (ht : ∀ m c found, Instr.recvTail m (some c) found ∉ next) : NoLoss s (tasks ++ next) :=
  ⟨fun c hc => (h.accounted c hc).imp_right (·.imp_right (·.imp_right fun ⟨x, hx, hxc⟩ =>
      ⟨x, List.mem_append_left _ hx, hxc⟩)),
    fun c hc => h.erase c ((List.mem_append.1 hc).resolve_right (he c)),
    fun m c found hm => h.tails m c found ((List.mem_append.1 hm).resolve_right (ht m c found))⟩

theorem construct (h : NoLoss s tasks) (sink : Sink) (f mth : UInt16) (body : List UInt8) :
    NoLoss (s.construct sink f mth body) (tasks ++ [.newExternalFuncCall s.contexts.length]) := by
  refine ⟨fun c hc => ?_, fun c hc => h.erase c (by simpa using hc),
    fun m c found hm => h.tails m c found (by simpa using hm)⟩
  rw [construct_contexts, List.length_append, List.length_singleton] at hc
  rcases Nat.lt_succ_iff_lt_or_eq.1 hc with hc | rfl
  · rcases h.accounted c hc with hr | hp | hf | ⟨x, hx, hxc⟩
    · exact .inl (by unfold Resident; rwa [construct_callOf_lt _ _ _ _ _ hc])
    · exact .inr (.inl hp)
    · exact .inr (.inr (.inl hf))
    · exact .inr (.inr (.inr ⟨x, List.mem_append_left _ hx, hxc⟩))
  · exact .inr (.inr (.inr ⟨_, List.mem_append_right _ (List.mem_singleton_self _), rfl⟩))

theorem step (h : NoLoss s (x :: rest)) (h1 : t.contexts = s.contexts)
    (hfin : ∀ c, s.Finished c → t.Finished c)
    (hacc : ∀ c < s.contexts.length, s.Resident c ∨ c ∈ s.pending ∨ x.held = some c →
      Accounted t (next ++ rest) c)
    (herase : ∀ c, Instr.erase c ∈ next → t.Finished c)
    (htail : ∀ m c found, Instr.recvTail m (some c) found ∈ next → m.funcCall.clientId = 0) :
    NoLoss t (next ++ rest) := by
  refine ⟨fun c hc => ?_, fun c hc => ?_, fun m c found hm => ?_⟩
  · rw [h1] at hc
    rcases h.accounted c hc with hr | hp | hf | ⟨y, hy, hyc⟩
    · exact hacc c hc (.inl hr)
    · exact hacc c hc (.inr (.inl hp))
    · exact .inr (.inr (.inl (hfin c hf)))
    · rcases List.mem_cons.1 hy with rfl | hy
      · exact hacc c hc (.inr (.inr hyc))
      · exact .inr (.inr (.inr ⟨y, List.mem_append_right _ hy, hyc⟩))
  · rcases List.mem_append.1 hc with hc | hc
    · exact herase c hc
    · exact hfin c (h.erase c (List.mem_cons_of_mem _ hc))
  · rcases List.mem_append.1 hm with hm | hm
    · exact htail m c found hm
    · exact h.tails m c found (List.mem_cons_of_mem _ hm)

end NoLoss

section Keys

variable {cfg : Config} {s : Server} {tasks' : List Instr} (hk : KeyInv s tasks')
  (hL : s.contexts.length ≤ 4294967296)
include hk hL

theorem pop_accounted {p : Nat} {rest : List Nat} (hp : s.pending = p :: rest) {d : Nat}
    (hd : s.Resident d ∨ d ∈ s.pending) : (popPending s).1.Resident d ∨ d ∈ (popPending s).1.pending := by
  have hpm : p ∈ s.pending := hp ▸ List.mem_cons_self _ _
  have hpop : (popPending s).1 = { s with pending := rest, running := s.running.insert (s.callOf p) p } := by
    simp only [popPending, hp]
    rw [putRunning_of_lookup_eq_none (s := { s with pending := rest }) (hk.fresh_absent p (.inr hpm))]
  rw [hpop]
  rcases hd with hd | hd
  · exact .inl (ShmInv.resident_insert hk hL (hk.tokens_lt p (List.mem_append_left _ hpm)) hd)
  · rw [hp] at hd
    rcases List.mem_cons.1 hd with rfl | hd
    · exact .inl (AList.lookup_insert _)
    · exact .inr hd

theorem takeDiscarded_accounted (l : List FuncCall) {d : Nat} (hd : s.Resident d) :
    (takeDiscarded s l).1.Resident d ∨ d ∈ (takeDiscarded s l).2.1 := by
  induction l generalizing s with
  | nil => exact .inl hd
  | cons fc rest ih =>
    simp only [Server.takeDiscarded]
    split_ifs
    · split
      · rename_i c hc
        obtain ⟨rfl, hcl⟩ := hk.running_key fc c hc
        by_cases hdc : d = c
        · exact .inr (hdc ▸ List.mem_cons_self _ _)
        · exact (ih (hk.erase _) hL (ShmInv.resident_erase hk hL hcl hd hdc)).imp_right
            (List.mem_cons_of_mem _)
      · exact ih hk hL hd
    · exact ih hk hL hd

theorem promote_accounted (q : List Nat) (hq : s.pending = q) {d : Nat}
    (hd : s.Resident d ∨ d ∈ s.pending) :
    (promote cfg s q).1.Resident d ∨ d ∈ (promote cfg s q).1.pending := by
  induction q generalizing s tasks' with
  | nil => exact hd
  | cons p rest ih =>
    simp only [Server.promote]
    split_ifs
    · have h1 := pop_accounted hk hL hq hd
      have k1 := hk.pop hL hq
      simp only [popPending, hq] at h1 k1
      exact ih k1 (by simpa using hL) (by simp) h1
    · exact hd

theorem recvLocked_accounted (m : Message) {d : Nat} (hd : s.Resident d ∨ d ∈ s.pending) :
    (recvLocked cfg s m).srv.Resident d ∨ d ∈ (recvLocked cfg s m).srv.pending ∨
      (recvLocked cfg s m).taken = some d := by
  simp only [Server.recvLocked, getOrCreateDispatcherLocked_fst]
  show (recvTake cfg s m.funcCall).1.Resident d ∨ d ∈ (recvTake cfg s m.funcCall).1.pending ∨
    (recvTake cfg s m.funcCall).2.1 = some d
  unfold recvTake
  split
  · rename_i c hc
    split_ifs at hc with h0
    obtain ⟨hkc, hcl⟩ := hk.running_key _ c hc
    by_cases hdc : d = c
    · refine .inr (.inr ?_)
      dsimp only
      split_ifs <;> simp [hdc]
    · -- `d` stays where it was once `c` is out of the table
      have hd' : Resident { s with running := s.running.erase m.funcCall } d ∨
          d ∈ ({ s with running := s.running.erase m.funcCall } : Server).pending :=
        hd.imp_left fun hr => hkc ▸ ShmInv.resident_erase hk hL hcl hr hdc
      dsimp only
      split_ifs with hp
      · obtain ⟨p, rest, hpr⟩ := List.exists_cons_of_ne_nil hp.1
        exact (pop_accounted (hk.erase m.funcCall) hL hpr hd').imp_right .inl
      · exact hd'.imp_right .inl
  · exact hd.imp_right .inl

theorem sweepLocked_accounted {d : Nat} (hd : s.Resident d ∨ d ∈ s.pending) :
    (sweepLocked cfg s).srv.Resident d ∨ d ∈ (sweepLocked cfg s).srv.pending ∨
      d ∈ (sweepLocked cfg s).external := by
  simp only [Server.sweepLocked]
  have k1 := (hk.takeDiscarded s.discarded).congr (t := { (takeDiscarded s s.discarded).1 with discarded := [] })
    rfl rfl rfl rfl
  have h1 : Resident { (takeDiscarded s s.discarded).1 with discarded := [] } d ∨
      d ∈ ({ (takeDiscarded s s.discarded).1 with discarded := [] } : Server).pending ∨
      d ∈ (takeDiscarded s s.discarded).2.1 := by
    rcases hd with hd | hd
    · exact (takeDiscarded_accounted hk hL s.discarded hd).imp_right .inr
    · exact .inr (.inl (by simpa using hd))
  rcases h1 with h1 | h1 | h1
  · exact (promote_accounted k1 (by simpa using hL) _ rfl (.inl h1)).imp_right .inl
  · exact (promote_accounted k1 (by simpa using hL) _ rfl (.inr h1)).imp_right .inl
  · exact .inr (.inr h1)

end Keys

theorem recvLocked_taken {cfg : Config} {s : Server} {m : Message} {d : Nat}
    (h : (recvLocked cfg s m).taken = some d) : m.funcCall.clientId = 0 := by
  change (recvTake cfg s m.funcCall).2.1 = some d at h
  unfold recvTake at h
  split at h
  · rename_i c hc
    by_contra h0
    rw [if_neg h0] at hc
    cases hc
  · cases h

theorem exec_erase_finished {cfg : Config} {ok : Bool} {s : Server} {ins : Instr} {d : Nat}
    (hd : Instr.erase d ∈ (exec cfg ok s ins).2) : (exec cfg ok s ins).1.Finished d := by
  cases ins with
  | dispatch c =>
    have hf : (dispatchStart cfg ok s c).2 = false ∧ d = c := by
      simp only [exec] at hd; split at hd <;> simp_all
    obtain ⟨hf, rfl⟩ := hf
    unfold dispatchStart at hf
    split_ifs at hf with hbig
    cases ok
    · exact (Finalizes.inputShmFailed hbig rfl).finishes_pos
    · cases hf
  | dispatchTail c found =>
    have hf : (dispatchTail cfg ok s c found).2 = false ∧ d = c := by
      simp only [exec] at hd; split at hd <;> simp_all
    obtain ⟨hf, rfl⟩ := hf
    cases found
    · exact Finalizes.noDispatcher.finishes_pos
    · cases ok
      · exact (Finalizes.rejected rfl).finishes_pos
      · cases hf
  | recv m =>
    simp only [exec] at hd
    split at hd <;> simp at hd
  | _ => simp only [exec] at hd; (try split_ifs at hd) <;> simp at hd

theorem exec_recvTail_external {cfg : Config} {ok : Bool} {s : Server} {ins : Instr} {m : Message}
    {d : Nat} {found : Bool} (hm : Instr.recvTail m (some d) found ∈ (exec cfg ok s ins).2) :
    m.funcCall.clientId = 0 := by
  cases ins with
  | recv m' =>
    simp only [exec] at hm
    split at hm
    · simp at hm
    · simp only [List.mem_cons, Instr.recvTail.injEq] at hm
      rcases hm with ⟨rfl, ht, -⟩ | hm
      · exact recvLocked_taken ht.symm
      · simp at hm
    · simp only [List.mem_cons, Instr.recvTail.injEq] at hm
      rcases hm with ⟨rfl, ht, -⟩ | hm
      · exact recvLocked_taken ht.symm
      · simp at hm
    · simp at hm
  | _ => simp only [exec] at hm; (try split_ifs at hm) <;> simp at hm

theorem noLoss_exec (cfg : Config) (ok : Bool) {s : Server} {ins : Instr} {tasks : List Instr}
    (h : NoLoss s (ins :: tasks)) (hk : KeyInv s (ins :: tasks)) (hL : s.contexts.length ≤ 4294967296)
    (hins : ∀ m d found, ins = .recvTail m d found →
      m.messageType = .funcCallComplete ∨ m.messageType = .funcCallFailed) :
    NoLoss (exec cfg ok s ins).1 ((exec cfg ok s ins).2 ++ tasks) := by
  refine h.step (exec_contexts ..) (fun _ => exec_finished hins) (fun d _ hd => ?_)
    (fun _ => exec_erase_finished) (fun _ _ _ => exec_recvTail_external)
  have head_lt : ∀ c, ins.pipelineCtx = some c → c < s.contexts.length := fun c hc =>
    hk.tokens_lt c (List.mem_append_right _ (List.mem_filterMap.2 ⟨ins, List.mem_cons_self _ _, hc⟩))
  cases ins with
  | newExternalFuncCall c =>
    by_cases hr : s.HasRoom cfg
    · -- admitted: `c` goes into the table, whose other entries stay
      simp only [exec, newExternalFuncCallLocked, hr, ↓reduceIte]
      rw [putRunning_of_lookup_eq_none (hk.fresh_absent c (.inl (List.mem_cons_self _ _)))]
      rcases hd with hd | hd | hd
      · exact .inl (ShmInv.resident_insert hk hL (head_lt c rfl) hd)
      · exact .inr (.inl hd)
      · obtain rfl := Option.some.inj hd
        exact .inl (AList.lookup_insert _)
    · -- queued
      simp only [exec, newExternalFuncCallLocked, hr, ↓reduceIte]
      rcases hd with hd | hd | hd
      · exact .inl hd
      · exact .inr (.inl (List.mem_append_left _ hd))
      · obtain rfl := Option.some.inj hd
        exact .inr (.inl (List.mem_append_right _ (List.mem_singleton_self _)))
  | erase c =>
    -- the caller erases `c` only once its dispatch answered it
    by_cases hdc : d = c
    · subst hdc
      exact .inr (.inr (.inl (exec_finished hins (h.erase d (List.mem_cons_self _ _)))))
    · rcases hd with hd | hd | hd
      · exact .inl (.of_running (exec_contexts ..) (by simp [exec])
          (ShmInv.resident_erase hk hL (head_lt c rfl) hd hdc))
      · exact .inr (.inl (by simpa [exec] using hd))
      · cases hd
  | recv m =>
    have hd' : s.Resident d ∨ d ∈ s.pending := hd.imp_right (·.resolve_right fun h => by cases h)
    -- a completion or failure keeps `d` in a table, or its continuation holds it
    have done : ∀ next, Accounted (recvLocked cfg s m).srv
        (.recvTail m (recvLocked cfg s m).taken (recvLocked cfg s m).found :: next) d := fun next => by
      rcases recvLocked_accounted hk hL m hd' with hr | hp | ht
      · exact .inl hr
      · exact .inr (.inl hp)
      · exact .inr (.inr (.inr ⟨_, List.mem_cons_self _ _, by simp [Instr.held, ht]⟩))
    simp only [exec]
    split
    · exact accounted_of_frame (by simp) (by simp) (by simp) (fun _ h => by cases h) hd
    · exact done _
    · exact done _
    · exact accounted_of_frame rfl rfl rfl (fun _ h => by cases h) hd
  | recvTail m e found =>
    refine accounted_of_frame (by simp) (by simp [exec]) (by simp [exec]) (fun c hc => ?_) hd
    obtain rfl : e = some c := by cases e <;> cases hc; rfl
    obtain ⟨v, hv⟩ := Finalizes.recvTail_taken cfg ok s c found (h.tails m c found (List.mem_cons_self _ _))
      (hins m _ found rfl)
    exact hv.finishes_pos
  | sweep =>
    have hd' : s.Resident d ∨ d ∈ s.pending := hd.imp_right (·.resolve_right fun h => by cases h)
    simp only [exec]
    rcases sweepLocked_accounted hk hL hd' with hr | hp | he
    · exact .inl hr
    · exact .inr (.inl hp)
    · exact .inr (.inr (.inr ⟨.finishDiscarded d, by simp [he], rfl⟩))
  | finishDiscarded c =>
    refine accounted_of_frame (by simp) (by simp [exec]) (by simp [exec]) (fun c' hc => ?_) hd
    obtain rfl := Option.some.inj hc
    exact Finalizes.discarded.finishes_pos
  | _ => exact accounted_of_frame (by simp) (by simp [exec]) (by simp [exec]) (fun _ h => by cases h) hd

theorem noLoss_init : NoLoss Server.init [] :=
  ⟨fun _ hc => absurd hc (Nat.not_lt_zero _), fun _ hc => absurd hc (List.not_mem_nil _),
    fun _ _ _ hm => absurd hm (List.not_mem_nil _)⟩

theorem noLoss_spawn (cfg : Config) {s : Server} {tasks : List Instr} (h : NoLoss s tasks) (e : Event) :
    NoLoss (spawn cfg s e).1 (tasks ++ (spawn cfg s e).2) := by
  cases e with
  | httpCall f body => exact h.construct .http f 0 body
  | grpcCall f mth body => exact h.construct .grpc f mth body
  | message m => exact h.append (by simp [spawn]) (by simp [spawn])
  | handshake m =>
    exact h.append (by simp only [spawn]; split <;> simp) (by simp only [spawn]; split <;> simp)
  | connectionClose fcs => exact h.append (by simp [spawn]) (by simp [spawn])

theorem noLoss_act {cfg : Config} {s s' : Sys} {a : Action} (h : NoLoss s.srv s.tasks)
    (hk : KeyInv s.srv s.tasks) (ht : TailsOk s.tasks) (ha : s.act cfg a = some s')
    (hL : s'.srv.contexts.length ≤ 4294967296) : NoLoss s'.srv s'.tasks := by
  cases a with
  | spawn e =>
    simp only [Sys.act, Option.some.injEq] at ha
    subst ha
    simpa [Sys.tasks] using noLoss_spawn cfg h e
  | exec i ok =>
    obtain ⟨ins, rest, hi, rfl⟩ := Sys.act_exec ha
    obtain ⟨others, h1, h2⟩ := Sys.tasks_set hi (exec cfg ok s.srv ins).2
    refine (noLoss_exec cfg ok (h.perm h1) (hk.subperm h1.symm.subperm) (by simpa using hL)
      fun m d found he => ht m d found (h1.symm.subset (he ▸ List.mem_cons_self _ _))).perm h2.symm
  | shmOutput id data =>
    simp only [Sys.act, Option.some.injEq] at ha
    subst ha
    exact ⟨h.1, h.2, h.3⟩

theorem noLoss_reachable {cfg : Config} {s : Sys} (h : Reachable cfg s)
    (hL : s.srv.contexts.length ≤ 4294967296) : NoLoss s.srv s.tasks := by
  induction h with
  | refl => exact noLoss_init
  | tail hr hst ih =>
    obtain ⟨a, ha⟩ := hst
    have hL' := (contexts_length_le_act ha).trans hL
    exact noLoss_act (ih hL') (keyInv_reachable hr hL') (tailsOk_reachable hr) ha hL

/-- No request is lost: in every run of the worker protocol in which the `WorkerManager`
discards only accepted calls (so that every erase after a failed dispatch finds its context
still in the running table) and at most `2^32` contexts have been built, under any
interleaving and any outcomes, once no handler is mid-flight every request the gateway took
is in the running table, waiting in the queue, or answered. -/
theorem no_request_lost {cfg : Config} {s : Sys} (h : AcceptedReachable cfg s)
    (hL : s.srv.contexts.length ≤ 4294967296) (hq : s.Quiescent) :
    ∀ c < s.srv.contexts.length, s.srv.Resident c ∨ c ∈ s.srv.pending ∨ s.srv.Finished c := by
  intro c hc
  rcases (noLoss_reachable (AcceptedReachable.protoReachable h).reachable hL).accounted c hc with
    hr | hp | hf | ⟨x, hx, -⟩
  · exact .inl hr
  · exact .inr (.inl hp)
  · exact .inr (.inr hf)
  · obtain ⟨t, ht, hxt⟩ := List.mem_flatten.1 hx
    exact absurd (hq t ht ▸ hxt) (List.not_mem_nil _)

theorem no_request_lost_three_arrivals :
    ∃ s, AcceptedReachable scenarioConfig s ∧ s.srv.contexts.length ≤ 4294967296 ∧ s.Quiescent ∧
      s.srv.pending = [2] ∧
      ∀ c < s.srv.contexts.length, s.srv.Resident c ∨ c ∈ s.srv.pending ∨ s.srv.Finished c := by
  obtain ⟨s, hs, hL, hq, hp⟩ : ∃ s, Sys.init.acceptedReplay scenarioConfig threeArrivals = some s ∧
      s.srv.contexts.length = 3 ∧ s.Quiescent ∧ s.srv.pending = [2] :=
    ⟨_, rfl, by decide, by decide, by decide⟩
  have h := Sys.acceptedReplay_reachable _ .refl hs
  exact ⟨s, h, by omega, hq, hp, no_request_lost h (by omega) hq⟩

end Nightcore.Gateway
