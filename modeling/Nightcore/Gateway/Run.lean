import Nightcore.Gateway.Handlers
import Mathlib.Logic.Relation

/-! Runs of the gateway. A `Sys` is the server with the handlers in progress, one list of
pieces per thread; an `Action` starts a handler, runs the next piece of one, or is a
worker creating an output region. Any interleaving of pieces is a run. `ProtoStep` keeps
the environment to the worker protocol: an external call gets at most one of
Complete, Failure and discard, a Complete or Failure only after `OnNewFuncCall` accepted
it, a discard only after `OnNewFuncCall` was called for it, and workers invoke only
internal calls. `AcceptedStep` also has the `WorkerManager` discard an external call only
after `OnNewFuncCall` accepted it. `HStep` runs one handler to its end with no other in
between. -/

namespace Nightcore.Gateway

structure Sys where
  srv : Server
  threads : List (List Instr)
  /-- The external calls the workers and the `WorkerManager` have answered or discarded. -/
  answered : List FuncCall

def Sys.init : Sys := ⟨Server.init, [], []⟩

/-- No handler is mid-flight. -/
def Sys.Quiescent (s : Sys) : Prop := ∀ t ∈ s.threads, t = []

instance (s : Sys) : Decidable s.Quiescent := inferInstanceAs (Decidable (∀ t ∈ _, _))

inductive Action
  | spawn (e : Event)
  | exec (i : Nat) (ok : Bool)
  | shmOutput (fullCallId : FuncCall) (data : List UInt8)
deriving DecidableEq

/-- The external calls an event answers or discards. -/
def Event.answers : Event → List FuncCall
  | .message m =>
    if (m.messageType = .funcCallComplete ∨ m.messageType = .funcCallFailed) ∧
      m.funcCall.clientId = 0 then [m.funcCall] else []
  | .connectionClose fcs => fcs.filter (·.clientId = 0)
  | _ => []

def Sys.act (cfg : Config) (s : Sys) : Action → Option Sys
  | .spawn e =>
    some ⟨(spawn cfg s.srv e).1, s.threads ++ [(spawn cfg s.srv e).2], s.answered ++ e.answers⟩
  | .exec i ok =>
    match s.threads[i]? with
    | some (ins :: rest) =>
      some { s with
        srv := (exec cfg ok s.srv ins).1
        threads := s.threads.set i ((exec cfg ok s.srv ins).2 ++ rest) }
    | _ => none
  | .shmOutput id data =>
    some { s with srv := { s.srv with shm := Function.update s.srv.shm (.funcCallOutput id) (some data) } }

def Step (cfg : Config) (s s' : Sys) : Prop := ∃ a, s.act cfg a = some s'

def Reachable (cfg : Config) (s : Sys) : Prop := Relation.ReflTransGen (Step cfg) Sys.init s

namespace Server

/-- `OnNewFuncCall` was called for `fc`, and answered `true` if `accepted` is. -/
def Invoked (s : Server) (fc : FuncCall) (accepted : Bool) : Prop :=
  ∃ p n d b a, DispatcherCall.onNewFuncCall fc p n d b a ∈ s.dispatcherCalls ∧ (accepted → a)

def invokedB (s : Server) (fc : FuncCall) (accepted : Bool) : Bool :=
  s.dispatcherCalls.any fun
    | .onNewFuncCall fc' _ _ _ _ a => fc' == fc && (!accepted || a)
    | _ => false

theorem invokedB_iff (s : Server) (fc : FuncCall) (accepted : Bool) :
    s.invokedB fc accepted = true ↔ s.Invoked fc accepted := by
  simp only [invokedB, List.any_eq_true, Invoked]
  constructor
  · rintro ⟨x, hx, h⟩
    cases x <;> simp at h
    obtain ⟨rfl, h⟩ := h
    exact ⟨_, _, _, _, _, hx, by cases accepted <;> simp_all⟩
  · rintro ⟨p, n, d, b, a, hx, h⟩
    exact ⟨_, hx, by cases accepted <;> cases a <;> simp_all⟩

instance (s : Server) (fc : FuncCall) (a : Bool) : Decidable (s.Invoked fc a) :=
  decidable_of_iff _ (s.invokedB_iff fc a)

end Server

/-- What the worker protocol allows the environment to do next. -/
def Sys.Allows (s : Sys) : Action → Prop
  | .spawn (.message m) =>
    (m.messageType = .invokeFunc → m.funcCall.clientId ≠ 0) ∧
    ((m.messageType = .funcCallComplete ∨ m.messageType = .funcCallFailed) →
      m.funcCall.clientId = 0 → s.srv.Invoked m.funcCall true ∧ m.funcCall ∉ s.answered)
  | .spawn (.connectionClose fcs) =>
    (fcs.filter (·.clientId = 0)).Nodup ∧
    ∀ fc ∈ fcs, fc.clientId = 0 → s.srv.Invoked fc false ∧ fc ∉ s.answered
  | _ => True

instance (s : Sys) (a : Action) : Decidable (s.Allows a) := by
  unfold Sys.Allows
  split <;> infer_instance

def ProtoStep (cfg : Config) (s s' : Sys) : Prop := ∃ a, s.Allows a ∧ s.act cfg a = some s'

def ProtoReachable (cfg : Config) (s : Sys) : Prop :=
  Relation.ReflTransGen (ProtoStep cfg) Sys.init s

theorem ProtoStep.step {cfg : Config} {s s' : Sys} (h : ProtoStep cfg s s') : Step cfg s s' :=
  let ⟨a, _, h⟩ := h; ⟨a, h⟩

theorem ProtoReachable.reachable {cfg : Config} {s : Sys} (h : ProtoReachable cfg s) :
    Reachable cfg s :=
  Relation.ReflTransGen.mono (fun _ _ => ProtoStep.step) h

/-- Replay a schedule of actions, checking the protocol at each. -/
def Sys.replay (cfg : Config) (s : Sys) : List Action → Option Sys
  | [] => some s
  | a :: as => if s.Allows a then (s.act cfg a).bind (·.replay cfg as) else none

theorem Sys.replay_protoReachable {cfg : Config} :
    ∀ {s s' : Sys} (as : List Action), ProtoReachable cfg s → s.replay cfg as = some s' →
      ProtoReachable cfg s'
  | s, s', [], h, he => by simp only [replay, Option.some.injEq] at he; exact he ▸ h
  | s, s', a :: as, h, he => by
    simp only [replay] at he
    split at he
    · cases ha : s.act cfg a with
      | none => simp [ha] at he
      | some t =>
        rw [ha, Option.some_bind] at he
        exact replay_protoReachable as (h.tail ⟨a, by assumption, ha⟩) he
    · cases he

/-- The calls an event discards. -/
def Action.discards : Action → List FuncCall
  | .spawn (.connectionClose fcs) => fcs
  | _ => []

/-- The `WorkerManager` discards an external call only after a worker accepted it. -/
def Sys.AcceptedDiscards (s : Sys) (a : Action) : Prop :=
  ∀ fc ∈ a.discards, fc.clientId = 0 → s.srv.Invoked fc true

instance (s : Sys) (a : Action) : Decidable (s.AcceptedDiscards a) :=
  inferInstanceAs (Decidable (∀ fc ∈ a.discards, _))

/-- A step of the worker protocol whose discards are all of accepted calls. -/
def AcceptedStep (cfg : Config) (s s' : Sys) : Prop :=
  ∃ a, s.Allows a ∧ s.AcceptedDiscards a ∧ s.act cfg a = some s'

def AcceptedReachable (cfg : Config) (s : Sys) : Prop :=
  Relation.ReflTransGen (AcceptedStep cfg) Sys.init s

theorem AcceptedReachable.protoReachable {cfg : Config} {s : Sys} (h : AcceptedReachable cfg s) :
    ProtoReachable cfg s :=
  Relation.ReflTransGen.mono (fun _ _ ⟨a, ha, _, h⟩ => ⟨a, ha, h⟩) h

/-- Replay a schedule, checking the protocol and that every discard is of an accepted
call. -/
def Sys.acceptedReplay (cfg : Config) (s : Sys) : List Action → Option Sys
  | [] => some s
  | a :: as =>
    if s.Allows a ∧ s.AcceptedDiscards a then (s.act cfg a).bind (·.acceptedReplay cfg as) else none

theorem Sys.acceptedReplay_reachable {cfg : Config} :
    ∀ {s s' : Sys} (as : List Action), AcceptedReachable cfg s → s.acceptedReplay cfg as = some s' →
      AcceptedReachable cfg s'
  | s, s', [], h, he => by simp only [acceptedReplay, Option.some.injEq] at he; exact he ▸ h
  | s, s', a :: as, h, he => by
    simp only [acceptedReplay] at he
    split_ifs at he with ha
    obtain ⟨t, ht, he⟩ := Option.bind_eq_some.1 he
    exact acceptedReplay_reachable as (h.tail ⟨a, ha.1, ha.2, ht⟩) he

/-- A handler run alone: each piece takes its outcome from `oks`, the handler stops when
its pieces or the outcomes run out. -/
def runAlone (cfg : Config) : Server → List Instr → List Bool → Server × List Instr
  | s, [], _ => (s, [])
  | s, is, [] => (s, is)
  | s, i :: is, ok :: oks =>
    let (s, next) := exec cfg ok s i
    runAlone cfg s (next ++ is) oks

theorem runAlone_cons (cfg : Config) (s : Server) (i : Instr) (is : List Instr) (ok : Bool)
    (oks : List Bool) :
    runAlone cfg s (i :: is) (ok :: oks) = runAlone cfg (exec cfg ok s i).1 ((exec cfg ok s i).2 ++ is) oks :=
  rfl

/-- One handler, started by `e`, runs to its end. -/
def HStep (cfg : Config) (s s' : Server) : Prop :=
  ∃ e oks, runAlone cfg (spawn cfg s e).1 (spawn cfg s e).2 oks = (s', [])

/-- Replay handlers one after another, each with the outcomes of its pieces. -/
def Server.hreplay (cfg : Config) (s : Server) : List (Event × List Bool) → Option Server
  | [] => some s
  | (e, oks) :: hs =>
    match runAlone cfg (spawn cfg s e).1 (spawn cfg s e).2 oks with
    | (s', []) => s'.hreplay cfg hs
    | _ => none

/-- A small deployment: a cap of two running external
requests, an inline limit of 1024 bytes, and function 1 the only one configured. -/
def scenarioConfig : Config :=
  ⟨2, fun f => f == 1, 1024, ⟨65535, 65535, 65535, UInt32.ofNat 4294967295⟩⟩

/-- The small deployment with an inline limit of two bytes, so that a short body already
goes through an input region. -/
def smallInlineConfig : Config := { scenarioConfig with messageInlineDataSize := 2 }

/-- Three requests for function 1 with the cap at two: the first two are admitted and
dispatched, the third waits in the queue. -/
def threeArrivals : List Action :=
  [.spawn (.httpCall 1 [97]), .exec 0 true, .exec 0 true, .exec 0 true, .exec 0 true,
   .spawn (.httpCall 1 [98]), .exec 1 true, .exec 1 true, .exec 1 true, .exec 1 true,
   .spawn (.httpCall 1 [99]), .exec 2 true]

/-- A function worker's handshake for `funcId`. -/
def workerHandshake (funcId : UInt16) : Message :=
  ⟨.funcWorkerHandshake, ⟨funcId, 0, 0, 0⟩, ⟨0, 0, 0, 0⟩, .zero, .zero, .zero, []⟩

/-- The pieces all handlers have still to run. -/
def Sys.tasks (s : Sys) : List Instr := s.threads.flatten

theorem set_self_of_getElem? {α : Type} {l : List α} {i : Nat} {t : α} (h : l[i]? = some t) :
    l.set i t = l :=
  List.ext_getElem? fun j => by
    rw [List.getElem?_set]
    split_ifs with hij hi
    · rw [← hij, h]
    · exact absurd (hij ▸ (List.getElem?_eq_some_iff.1 h).1) hi
    · rfl

theorem flatten_set_perm {α : Type} : ∀ {l : List (List α)} {i : Nat}, i < l.length →
    ∀ u : List α, List.Perm (l.set i u).flatten (u ++ (l.set i []).flatten)
  | _ :: _, 0, _, _ => by simp
  | t :: _, i + 1, h, u => by
    simp only [List.set_cons_succ, List.flatten_cons]
    refine ((flatten_set_perm (Nat.lt_of_succ_lt_succ h) u).append_left t).trans ?_
    simpa only [List.append_assoc] using List.perm_append_comm.append_right _

theorem Sys.tasks_set {s : Sys} {i : Nat} {ins : Instr} {rest : List Instr}
    (h : s.threads[i]? = some (ins :: rest)) (next : List Instr) :
    ∃ others, List.Perm s.tasks (ins :: others) ∧
      List.Perm (s.threads.set i (next ++ rest)).flatten (next ++ others) := by
  have hi : i < s.threads.length := (List.getElem?_eq_some_iff.1 h).1
  refine ⟨rest ++ (s.threads.set i []).flatten, ?_, ?_⟩
  · rw [tasks, ← set_self_of_getElem? h]
    simpa using flatten_set_perm hi (ins :: rest)
  · simpa using flatten_set_perm hi (next ++ rest)

theorem Sys.act_exec {cfg : Config} {s s' : Sys} {i : Nat} {ok : Bool}
    (h : s.act cfg (.exec i ok) = some s') :
    ∃ ins rest, s.threads[i]? = some (ins :: rest) ∧
      s' = { s with srv := (exec cfg ok s.srv ins).1,
                    threads := s.threads.set i ((exec cfg ok s.srv ins).2 ++ rest) } := by
  simp only [Sys.act] at h
  split at h
  · cases h; exact ⟨_, _, ‹_›, rfl⟩
  · cases h

theorem runAlone_protoSteps (cfg : Config) :
    ∀ (srv : Server) (is : List Instr) (oks : List Bool) (s : Sys) (i : Nat), s.srv = srv →
      s.threads[i]? = some is →
      Relation.ReflTransGen (ProtoStep cfg) s
        { s with srv := (runAlone cfg srv is oks).1,
                 threads := s.threads.set i (runAlone cfg srv is oks).2 }
  | _, [], _, s, _, rfl, hi => by simp only [runAlone, set_self_of_getElem? hi]; exact .refl
  | _, _ :: _, [], s, _, rfl, hi => by simp only [runAlone, set_self_of_getElem? hi]; exact .refl
  | _, ins :: is, ok :: oks, s, i, rfl, hi => by
    let s1 : Sys := { s with srv := (exec cfg ok s.srv ins).1,
                             threads := s.threads.set i ((exec cfg ok s.srv ins).2 ++ is) }
    have step : ProtoStep cfg s s1 := ⟨.exec i ok, trivial, by simp only [Sys.act, hi]⟩
    have hlt : i < s.threads.length := (List.getElem?_eq_some_iff.1 hi).1
    have rest := runAlone_protoSteps cfg s1.srv ((exec cfg ok s.srv ins).2 ++ is) oks s1 i rfl
      (by simp [s1, List.getElem?_set, hlt])
    simpa only [runAlone_cons, s1, List.set_set] using Relation.ReflTransGen.head step rest

theorem hstep_protoSteps {cfg : Config} {s : Sys} {e : Event} {oks : List Bool} {srv : Server}
    (ha : s.Allows (.spawn e)) (hr : runAlone cfg (spawn cfg s.srv e).1 (spawn cfg s.srv e).2 oks = (srv, [])) :
    Relation.ReflTransGen (ProtoStep cfg) s ⟨srv, s.threads ++ [[]], s.answered ++ e.answers⟩ := by
  let s1 : Sys := ⟨(spawn cfg s.srv e).1, s.threads ++ [(spawn cfg s.srv e).2], s.answered ++ e.answers⟩
  have start : ProtoStep cfg s s1 := ⟨.spawn e, ha, rfl⟩
  have rest := runAlone_protoSteps cfg s1.srv (spawn cfg s.srv e).2 oks s1 s.threads.length rfl
    (by simp [s1])
  rw [hr] at rest
  simpa only [List.set_append_right _ _ (le_refl _), Nat.sub_self, List.set_cons_zero]
    using Relation.ReflTransGen.head start rest

end Nightcore.Gateway
