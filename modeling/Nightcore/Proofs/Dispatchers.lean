import Nightcore.Gateway.Dispatchers
import Nightcore.Gateway.Run

/-! One dispatcher per func_id. Over any sequence of lookups, a func_id gets `nullptr`
exactly when it is not configured, and otherwise the one object made at its first lookup:
entries of `dispatchers_` are only ever added. In the gateway the lookups are those of the
locked sections of `DispatchExternalFuncCall` and of `OnRecvMessage`'s `INVOKE_FUNC` and
`FUNC_CALL_COMPLETE` / `FUNC_CALL_FAILED` branches; no other piece of any handler touches
the table, so along every run the func_ids with a dispatcher only grow, at their end. -/

namespace Nightcore.Gateway

namespace DispatcherTable

variable (cfg : Config)

theorem lookups_append (t : DispatcherTable) (fs gs : List UInt16) :
    lookups cfg t (fs ++ gs) =
      ((lookups cfg (lookups cfg t fs).1 gs).1, (lookups cfg t fs).2 ++ (lookups cfg (lookups cfg t fs).1 gs).2) := by
  induction fs generalizing t with
  | nil => rfl
  | cons f fs ih => simp only [List.cons_append, lookups, List.append_eq, ih]

theorem lookup_lookups {t : DispatcherTable} {g : UInt16} {d : Nat} (h : t.entries.lookup g = some d)
    (fs : List UInt16) : (lookups cfg t fs).1.entries.lookup g = some d := by
  induction fs generalizing t with
  | nil => exact h
  | cons f fs ih => exact ih (lookup_getOrCreateDispatcherLocked cfg t f h)

theorem mem_lookups (t : DispatcherTable) (fs : List UInt16) (g : UInt16) :
    g ∈ (lookups cfg t fs).1.entries ↔ g ∈ t.entries ∨ g ∈ fs ∧ cfg.knownFuncId g = true := by
  induction fs generalizing t with
  | nil => simp [lookups]
  | cons f fs ih =>
    simp only [lookups, ih, mem_getOrCreateDispatcherLocked, List.mem_cons]
    by_cases hg : g = f
    · subst hg; tauto
    · simp [hg]

theorem made_lookups {t : DispatcherTable} (h : t.made = t.entries.keys.length) (fs : List UInt16) :
    (lookups cfg t fs).1.made = (lookups cfg t fs).1.entries.keys.length := by
  induction fs generalizing t with
  | nil => exact h
  | cons f fs ih =>
    refine ih ?_
    rw [made_getOrCreateDispatcherLocked, keys_getOrCreateDispatcherLocked, h]
    split_ifs <;> simp

theorem lookups_results (t : DispatcherTable) (fs : List UInt16) :
    ∀ p ∈ fs.zip (lookups cfg t fs).2, p.2 = (lookups cfg t fs).1.entries.lookup p.1 := by
  induction fs generalizing t with
  | nil => simp [lookups]
  | cons f fs ih =>
    simp only [lookups, List.zip_cons_cons, List.mem_cons, forall_eq_or_imp]
    refine ⟨?_, ih _⟩
    rw [getOrCreateDispatcherLocked_snd]
    cases h : (t.getOrCreateDispatcherLocked cfg f).1.entries.lookup f with
    | some d => exact (lookup_lookups cfg h fs).symm
    | none =>
      -- no dispatcher after its own lookup: `f` is not configured, and never gets one
      have hf := AList.lookup_eq_none.1 h
      rw [mem_getOrCreateDispatcherLocked] at hf
      have hn : f ∉ (lookups cfg (t.getOrCreateDispatcherLocked cfg f).1 fs).1.entries := fun hm => by
        rcases (mem_lookups cfg _ fs f).1 hm with hm | ⟨-, hk⟩
        · exact hf ((mem_getOrCreateDispatcherLocked cfg t f).1 hm)
        · exact hf (.inr ⟨rfl, hk⟩)
      rw [AList.lookup_eq_none.2 hn]

end DispatcherTable

open DispatcherTable

theorem mem_zip_funcId {ks : List LookupCall} {rs : List (Option Nat)} {p : LookupCall × Option Nat}
    (hp : p ∈ ks.zip rs) : (p.1.funcId, p.2) ∈ (ks.map LookupCall.funcId).zip rs := by
  rw [List.zip_map_left]
  exact List.mem_map_of_mem _ hp

/-- The dispatcher of a func_id over every sequence of `GetOrCreateDispatcher` and
`GetOrCreateDispatcherLocked` calls, in the order they took `mu_`: `nullptr` exactly when
the func_id is not configured, and otherwise the same object at every call; one object is
made per configured func_id looked up, and no entry, once there, is ever replaced or
removed. -/
theorem dispatcher_per_func_id (cfg : Config) (ks : List LookupCall) :
    (∀ p ∈ ks.zip (lookupCalls cfg init ks).2, p.2 = none ↔ cfg.knownFuncId p.1.funcId = false) ∧
    (∀ p ∈ ks.zip (lookupCalls cfg init ks).2, ∀ q ∈ ks.zip (lookupCalls cfg init ks).2,
      p.1.funcId = q.1.funcId → p.2 = q.2) ∧
    ((lookupCalls cfg init ks).1.made = (lookupCalls cfg init ks).1.entries.keys.length ∧
      ∀ f, f ∈ (lookupCalls cfg init ks).1.entries ↔
        f ∈ ks.map LookupCall.funcId ∧ cfg.knownFuncId f = true) ∧
    ∀ pre, pre <+: ks → ∀ f d, (lookupCalls cfg init pre).1.entries.lookup f = some d →
      (lookupCalls cfg init ks).1.entries.lookup f = some d := by
  simp only [lookupCalls_eq]
  have hmem : ∀ f, f ∈ (lookups cfg init (ks.map LookupCall.funcId)).1.entries ↔
      f ∈ ks.map LookupCall.funcId ∧ cfg.knownFuncId f = true :=
    fun f => (mem_lookups cfg init _ f).trans (or_iff_right (by simp [init]))
  have hres := lookups_results cfg init (ks.map LookupCall.funcId)
  refine ⟨fun p hp => ?_, fun p hp q hq he => ?_, ⟨made_lookups cfg rfl _, hmem⟩, ?_⟩
  · rw [hres _ (mem_zip_funcId hp), AList.lookup_eq_none, hmem]
    simp [(List.of_mem_zip (mem_zip_funcId hp)).1]
  · rw [hres _ (mem_zip_funcId hp), hres _ (mem_zip_funcId hq), he]
  · rintro pre ⟨post, rfl⟩ f d h
    rw [List.map_append, lookups_append]
    exact lookup_lookups cfg h _

example : (lookupCalls scenarioConfig init
    [.getOrCreateDispatcher 1, .getOrCreateDispatcherLocked 2, .getOrCreateDispatcherLocked 1]).2 =
      [some 0, none, some 0] := by decide

namespace Server

variable (cfg : Config)

/-! Only `getOrCreateDispatcherLocked` changes the func_ids with a dispatcher. -/

@[simp] theorem respond_dispatchers (s : Server) (c f) : (s.respond c f).dispatchers = s.dispatchers := rfl

@[simp] theorem destroy_dispatchers (s : Server) (c) : (s.destroy c).dispatchers = s.dispatchers := rfl

@[simp] theorem putRunning_dispatchers (s : Server) (id c) : (s.putRunning id c).dispatchers = s.dispatchers := by
  unfold putRunning; split <;> rfl

@[simp] theorem eraseRunning_dispatchers (s : Server) (id) : (s.eraseRunning id).dispatchers = s.dispatchers := by
  unfold eraseRunning; split <;> rfl

@[simp] theorem newExternalFuncCallLocked_dispatchers (s : Server) (c) :
    (newExternalFuncCallLocked cfg s c).1.dispatchers = s.dispatchers := by
  unfold newExternalFuncCallLocked; split <;> simp

@[simp] theorem dispatchStart_dispatchers (ok s c) : (dispatchStart cfg ok s c).1.dispatchers = s.dispatchers := by
  unfold dispatchStart createShmInput; split_ifs <;> rfl

@[simp] theorem dispatchTail_dispatchers (ok s c d) :
    (dispatchTail cfg ok s c d).1.dispatchers = s.dispatchers := by
  unfold dispatchTail; split_ifs <;> rfl

@[simp] theorem popPending_dispatchers (s : Server) : (popPending s).1.dispatchers = s.dispatchers := by
  unfold popPending; split <;> simp

@[simp] theorem recvTake_dispatchers (s : Server) (fc) : (recvTake cfg s fc).1.dispatchers = s.dispatchers := by
  unfold recvTake; split
  · dsimp only; split_ifs <;> simp
  · rfl

@[simp] theorem finishWithShmOutput_dispatchers (ok s c) :
    (finishWithShmOutput ok s c).dispatchers = s.dispatchers := by
  unfold finishWithShmOutput; split <;> rfl

@[simp] theorem recvTail_dispatchers (ok s m c d) : (recvTail ok s m c d).dispatchers = s.dispatchers := by
  unfold recvTail
  split_ifs <;> (try split) <;> simp

@[simp] theorem recvInvokeTail_dispatchers (ok s m d) :
    (recvInvokeTail ok s m d).dispatchers = s.dispatchers := by
  unfold recvInvokeTail; split <;> rfl

@[simp] theorem takeDiscarded_dispatchers (s : Server) (l) :
    (takeDiscarded s l).1.dispatchers = s.dispatchers := by
  rw [takeDiscarded_eq]

@[simp] theorem promote_dispatchers (s : Server) (q : List Nat) :
    (promote cfg s q).1.dispatchers = s.dispatchers := by
  induction q generalizing s with
  | nil => rfl
  | cons p rest ih => simp only [promote]; split_ifs <;> simp [ih]

/-! The three locked sections that look a dispatcher up. -/

theorem dispatchLocked_dispatchers (s : Server) (c : Nat) :
    (dispatchLocked cfg s c).1.dispatchers = (s.getOrCreateDispatcherLocked cfg (s.callOf c).funcId).1.dispatchers := by
  unfold dispatchLocked; split_ifs <;> simp [callOf, ctx]

theorem recvInvokeLocked_dispatchers (s : Server) (m : Message) :
    (recvInvokeLocked cfg s m).1.dispatchers = (s.getOrCreateDispatcherLocked cfg m.funcCall.funcId).1.dispatchers := by
  unfold recvInvokeLocked; split_ifs <;> simp

theorem recvLocked_dispatchers (s : Server) (m : Message) :
    (recvLocked cfg s m).srv.dispatchers = (s.getOrCreateDispatcherLocked cfg m.funcCall.funcId).1.dispatchers := by
  simp [recvLocked]

end Server

/-- The func_id whose dispatcher a piece looks up under `mu_`, if any: the locked sections
of `DispatchExternalFuncCall` and of the `INVOKE_FUNC`, `FUNC_CALL_COMPLETE` and
`FUNC_CALL_FAILED` branches of `OnRecvMessage`. -/
def Instr.dispatcherLookup (s : Server) : Instr → Option UInt16
  | .dispatchLocked c => some (s.callOf c).funcId
  | .recv m =>
    match m.messageType with
    | .invokeFunc | .funcCallComplete | .funcCallFailed => some m.funcCall.funcId
    | _ => none
  | _ => none

open Server in
theorem exec_dispatchers (cfg : Config) (ok : Bool) (s : Server) (ins : Instr) :
    (exec cfg ok s ins).1.dispatchers =
      match ins.dispatcherLookup s with
      | some f => (s.getOrCreateDispatcherLocked cfg f).1.dispatchers
      | none => s.dispatchers := by
  cases ins with
  | dispatchLocked c => exact dispatchLocked_dispatchers cfg s c
  | recv m =>
    simp only [exec, Instr.dispatcherLookup]
    split <;> simp_all [recvInvokeLocked_dispatchers, recvLocked_dispatchers]
  | sweep => simp [exec, sweepLocked, Instr.dispatcherLookup]
  | _ => simp [exec, Instr.dispatcherLookup]

theorem act_dispatchers {cfg : Config} {t t' : Sys} {a : Action} (ha : t.act cfg a = some t')
    (hne : t'.srv.dispatchers ≠ t.srv.dispatchers) :
    ∃ i ok ins rest f, a = .exec i ok ∧ t.threads[i]? = some (ins :: rest) ∧
      ins.dispatcherLookup t.srv = some f ∧
      t'.srv.dispatchers = (t.srv.getOrCreateDispatcherLocked cfg f).1.dispatchers := by
  cases a with
  | spawn e =>
    simp only [Sys.act, Option.some.injEq] at ha
    subst ha
    exact absurd (by cases e <;> rfl) hne
  | exec i ok =>
    obtain ⟨ins, rest, hi, rfl⟩ := Sys.act_exec ha
    have hd := exec_dispatchers cfg ok t.srv ins
    cases hf : ins.dispatcherLookup t.srv with
    | none => rw [hf] at hd; exact absurd hd hne
    | some f => rw [hf] at hd; exact ⟨i, ok, ins, rest, f, rfl, hi, hf, hd⟩
  | shmOutput id data =>
    simp only [Sys.act, Option.some.injEq] at ha
    subst ha
    exact absurd rfl hne

theorem exec_refines_lookups (cfg : Config) (ok : Bool) (s : Server) (ins : Instr) (t : DispatcherTable)
    (h : s.dispatchers = t.funcIds) :
    (exec cfg ok s ins).1.dispatchers = (lookups cfg t (ins.dispatcherLookup s).toList).1.funcIds := by
  rw [exec_dispatchers]
  cases ins.dispatcherLookup s with
  | none => exact h
  | some f => exact (funcIds_getOrCreateDispatcherLocked cfg t f s h).1

/-- The func_ids with a dispatcher: each once, each configured. -/
structure DispatchersOk (cfg : Config) (ds : List UInt16) : Prop where
  nodup : ds.Nodup
  known : ∀ f ∈ ds, cfg.knownFuncId f = true

namespace DispatchersOk

variable {cfg : Config} {s : Server}

theorem getOrCreate (h : DispatchersOk cfg s.dispatchers) (f : UInt16) :
    s.dispatchers <+: (s.getOrCreateDispatcherLocked cfg f).1.dispatchers ∧
      DispatchersOk cfg (s.getOrCreateDispatcherLocked cfg f).1.dispatchers := by
  rw [Server.getOrCreateDispatcherLocked_fst]
  split_ifs with hf
  · refine ⟨List.prefix_append _ _, List.nodup_append.2 ⟨h.nodup, List.nodup_singleton f, ?_⟩, fun g hg => ?_⟩
    · exact List.disjoint_singleton.2 hf.1
    · rcases List.mem_append.1 hg with hg | hg
      · exact h.known g hg
      · rw [List.mem_singleton.1 hg]; exact hf.2
  · exact ⟨List.prefix_refl _, h⟩

theorem getOrCreate_snd (h : DispatchersOk cfg s.dispatchers) (f : UInt16) :
    (s.getOrCreateDispatcherLocked cfg f).2 = cfg.knownFuncId f := by
  rw [Server.getOrCreateDispatcherLocked_snd]
  by_cases hf : f ∈ s.dispatchers
  · simp [hf, h.known f hf]
  · simp [hf]

theorem step {s s' : Sys} (h : DispatchersOk cfg s.srv.dispatchers) (hs : Step cfg s s') :
    s.srv.dispatchers <+: s'.srv.dispatchers ∧ DispatchersOk cfg s'.srv.dispatchers := by
  obtain ⟨a, ha⟩ := hs
  cases a with
  | spawn e =>
    simp only [Sys.act, Option.some.injEq] at ha
    subst ha
    have he : (spawn cfg s.srv e).1.dispatchers = s.srv.dispatchers := by cases e <;> rfl
    rw [he]
    exact ⟨List.prefix_refl _, h⟩
  | exec i ok =>
    obtain ⟨ins, rest, -, rfl⟩ := Sys.act_exec ha
    show s.srv.dispatchers <+: (exec cfg ok s.srv ins).1.dispatchers ∧ _
    rw [exec_dispatchers]
    split
    · exact h.getOrCreate _
    · exact ⟨List.prefix_refl _, h⟩
  | shmOutput id data =>
    simp only [Sys.act, Option.some.injEq] at ha
    subst ha
    exact ⟨List.prefix_refl _, h⟩

theorem steps {s s' : Sys} (h : DispatchersOk cfg s.srv.dispatchers)
    (hs : Relation.ReflTransGen (Step cfg) s s') :
    s.srv.dispatchers <+: s'.srv.dispatchers ∧ DispatchersOk cfg s'.srv.dispatchers := by
  induction hs with
  | refl => exact ⟨List.prefix_refl _, h⟩
  | tail _ hst ih =>
    have := ih.2.step hst
    exact ⟨ih.1.trans this.1, this.2⟩

end DispatchersOk

/-- Along every run of the gateway, under any interleaving of its handlers: the func_ids
with a dispatcher only grow at their end, each appears once, and every lookup of
`GetOrCreateDispatcherLocked` returns a dispatcher exactly for a configured func_id. A step
changes them only by running a locked section that looks a dispatcher up, of
`DispatchExternalFuncCall` or of `OnRecvMessage`'s `INVOKE_FUNC`, `FUNC_CALL_COMPLETE` and
`FUNC_CALL_FAILED` branches, and then as that lookup does. -/
theorem dispatchers_only_grow {cfg : Config} {s s' : Sys} (h : Reachable cfg s)
    (h' : Relation.ReflTransGen (Step cfg) s s') :
    s.srv.dispatchers <+: s'.srv.dispatchers ∧ s'.srv.dispatchers.Nodup ∧
      (∀ f, (s'.srv.getOrCreateDispatcherLocked cfg f).2 = cfg.knownFuncId f) ∧
      ∀ (t t' : Sys) (a : Action), t.act cfg a = some t' → t'.srv.dispatchers ≠ t.srv.dispatchers →
        ∃ i ok ins rest f, a = .exec i ok ∧ t.threads[i]? = some (ins :: rest) ∧
          ins.dispatcherLookup t.srv = some f ∧
          t'.srv.dispatchers = (t.srv.getOrCreateDispatcherLocked cfg f).1.dispatchers := by
  have hs := (DispatchersOk.steps (s := Sys.init) ⟨List.nodup_nil, nofun⟩ h).2
  obtain ⟨hp, hok⟩ := hs.steps h'
  exact ⟨hp, hok.nodup, hok.getOrCreate_snd, fun _ _ _ => act_dispatchers⟩

theorem dispatchers_only_grow_three_arrivals :
    ∃ s, Reachable scenarioConfig s ∧ s.srv.dispatchers = [1] ∧
      (Sys.init.srv.dispatchers <+: s.srv.dispatchers ∧ s.srv.dispatchers.Nodup ∧
        (∀ f, (s.srv.getOrCreateDispatcherLocked scenarioConfig f).2 = scenarioConfig.knownFuncId f) ∧
        ∀ (t t' : Sys) (a : Action), t.act scenarioConfig a = some t' →
          t'.srv.dispatchers ≠ t.srv.dispatchers →
          ∃ i ok ins rest f, a = .exec i ok ∧ t.threads[i]? = some (ins :: rest) ∧
            ins.dispatcherLookup t.srv = some f ∧
            t'.srv.dispatchers = (t.srv.getOrCreateDispatcherLocked scenarioConfig f).1.dispatchers) := by
  obtain ⟨s, hs, hd⟩ : ∃ s, Sys.init.replay scenarioConfig threeArrivals = some s ∧ s.srv.dispatchers = [1] :=
    ⟨_, rfl, by decide⟩
  have h := (Sys.replay_protoReachable _ .refl hs).reachable
  exact ⟨s, h, hd, dispatchers_only_grow .refl h⟩

/-! Runs with their lookups. Each step of a run makes the lookups of the piece it runs, so a
run of the gateway comes with the sequence of func_ids looked up under `mu_`, and the
objects `dispatchers_` owns are those of that sequence. -/

/-- The func_ids the action's piece looks up under `mu_`. -/
def Sys.lookupsOf (s : Sys) : Action → List UInt16
  | .exec i _ =>
    match s.threads[i]? with
    | some (ins :: _) => (ins.dispatcherLookup s.srv).toList
    | _ => []
  | _ => []

/-- A step of a run, with the lookups it makes appended to those made so far. -/
def LookupStep (cfg : Config) (p p' : Sys × List UInt16) : Prop :=
  ∃ a, p.1.act cfg a = some p'.1 ∧ p'.2 = p.2 ++ p.1.lookupsOf a

def LookupReachable (cfg : Config) (p : Sys × List UInt16) : Prop :=
  Relation.ReflTransGen (LookupStep cfg) (Sys.init, []) p

/-- Replay a schedule, keeping the lookups. -/
def Sys.lookupReplay (cfg : Config) : Sys × List UInt16 → List Action → Option (Sys × List UInt16)
  | p, [] => some p
  | p, a :: as => (p.1.act cfg a).bind fun s' => lookupReplay cfg (s', p.2 ++ p.1.lookupsOf a) as

theorem Sys.lookupReplay_reachable {cfg : Config} :
    ∀ {p p' : Sys × List UInt16} (as : List Action), LookupReachable cfg p →
      Sys.lookupReplay cfg p as = some p' → LookupReachable cfg p'
  | p, p', [], h, he => by simp only [lookupReplay, Option.some.injEq] at he; exact he ▸ h
  | p, p', a :: as, h, he => by
    simp only [lookupReplay] at he
    obtain ⟨s', hs, he⟩ := Option.bind_eq_some.1 he
    exact lookupReplay_reachable as (h.tail ⟨a, hs, rfl⟩) he

theorem lookupReachable_of_reachable {cfg : Config} {s : Sys} (h : Reachable cfg s) :
    ∃ fs, LookupReachable cfg (s, fs) := by
  induction h with
  | refl => exact ⟨[], .refl⟩
  | tail _ hst ih =>
    obtain ⟨a, ha⟩ := hst
    obtain ⟨fs, hfs⟩ := ih
    exact ⟨_, hfs.tail ⟨a, ha, rfl⟩⟩

theorem act_refines_lookups {cfg : Config} {s s' : Sys} {a : Action} (t : DispatcherTable)
    (h : s.srv.dispatchers = t.funcIds) (ha : s.act cfg a = some s') :
    s'.srv.dispatchers = (lookups cfg t (s.lookupsOf a)).1.funcIds := by
  cases a with
  | spawn e =>
    simp only [Sys.act, Option.some.injEq] at ha
    subst ha
    have he : (spawn cfg s.srv e).1.dispatchers = s.srv.dispatchers := by cases e <;> rfl
    exact he.trans h
  | exec i ok =>
    obtain ⟨ins, rest, hi, rfl⟩ := Sys.act_exec ha
    simp only [Sys.lookupsOf, hi]
    exact exec_refines_lookups cfg ok s.srv ins t h
  | shmOutput id data =>
    simp only [Sys.act, Option.some.injEq] at ha
    subst ha
    exact h

theorem dispatchers_of_lookupReachable {cfg : Config} {p : Sys × List UInt16} (h : LookupReachable cfg p) :
    p.1.srv.dispatchers = (lookups cfg init p.2).1.funcIds := by
  induction h with
  | refl => rfl
  | tail _ hst ih =>
    obtain ⟨a, ha, hfs⟩ := hst
    rw [hfs, lookups_append]
    exact act_refines_lookups _ ih ha

/-- Along every run, under any interleaving: `dispatchers_` holds, for each func_id, the
object the run's lookups made, and any two lookups of one func_id, by
`DispatchExternalFuncCall` or by the `INVOKE_FUNC`, `FUNC_CALL_COMPLETE` or
`FUNC_CALL_FAILED` branch of `OnRecvMessage`, returned the same object: the Complete or
Failure of a call reaches the `Dispatcher` that received its Invoke. -/
theorem run_lookups_one_dispatcher {cfg : Config} {s : Sys} {fs : List UInt16}
    (h : LookupReachable cfg (s, fs)) :
    s.srv.dispatchers = (lookups cfg init fs).1.funcIds ∧
      ∀ p ∈ fs.zip (lookups cfg init fs).2, ∀ q ∈ fs.zip (lookups cfg init fs).2,
        p.1 = q.1 → p.2 = q.2 := by
  refine ⟨dispatchers_of_lookupReachable h, fun p hp q hq he => ?_⟩
  rw [lookups_results cfg init fs p hp, lookups_results cfg init fs q hq, he]

/-- An internal call for function 1: its Invoke, then its Complete. -/
def internalCallRun : List Action :=
  [.spawn (.message ⟨.invokeFunc, ⟨1, 0, 1, 7⟩, ⟨0, 0, 0, 0⟩, .zero, .zero, .zero, []⟩), .exec 0 true,
   .spawn (.message ⟨.funcCallComplete, ⟨1, 0, 1, 7⟩, ⟨0, 0, 0, 0⟩, .zero, .zero, .zero, []⟩), .exec 1 true]

theorem run_lookups_one_dispatcher_internal_call :
    ∃ s, LookupReachable scenarioConfig (s, [1, 1]) ∧ s.srv.dispatchers = [1] ∧
      (lookups scenarioConfig init [1, 1]).2 = [some 0, some 0] ∧
      (s.srv.dispatchers = (lookups scenarioConfig init [1, 1]).1.funcIds ∧
        ∀ p ∈ [(1 : UInt16), 1].zip (lookups scenarioConfig init [1, 1]).2,
          ∀ q ∈ [(1 : UInt16), 1].zip (lookups scenarioConfig init [1, 1]).2, p.1 = q.1 → p.2 = q.2) := by
  obtain ⟨s, hs, hd⟩ : ∃ s, Sys.lookupReplay scenarioConfig (Sys.init, []) internalCallRun = some (s, [1, 1]) ∧
      s.srv.dispatchers = [1] :=
    ⟨_, rfl, by decide⟩
  have h := Sys.lookupReplay_reachable _ .refl hs
  exact ⟨s, h, hd, rfl, run_lookups_one_dispatcher h⟩

end Nightcore.Gateway
