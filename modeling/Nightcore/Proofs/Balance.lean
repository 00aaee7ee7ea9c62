import Nightcore.Gateway.Acceptor

/-! Round robin keeps the IO workers level. Each pool's cursor names the worker the next
connection goes to and then moves on, wrapping at the pool's size; so the workers before
the cursor hold one connection more than those from it on. After every run of connection
callbacks, each connection sits with a worker inside its pool, and any two workers of a
pool hold numbers of connections that differ by at most one. The pools must not be empty:
with no worker, `PickHttpWorker` reads past the end of `http_workers_`. The `CHECK_GT`s of
`StartInternal` see to it, so after a start every cursor stays inside its pool; and when
`num_io_workers_` workers serve both kinds, two workers' connections of all kinds together
differ by at most two. -/

namespace Nightcore.Gateway

namespace Acceptor

/-- A pool's size: `ipc_workers_` when `ipc`, `http_workers_` otherwise. -/
def poolSize (a : Acceptor) (ipc : Bool) : Nat := if ipc then a.ipcWorkers else a.httpWorkers

/-- A pool's cursor. -/
def cursor (a : Acceptor) (ipc : Bool) : Nat := if ipc then a.nextIpcWorkerId else a.nextHttpWorkerId

/-- The connections registered with worker `i` of a pool. -/
def load (a : Acceptor) (ipc : Bool) (i : Nat) : Nat :=
  a.registered.countP fun r => r.1.ipc == ipc && r.2 == i

variable {a : Acceptor}

theorem accept_fail (a : Acceptor) (k : ConnKind) {status accepted : Bool}
    (h : ¬ (status = true ∧ accepted = true)) : a.accept k status accepted = a := by
  cases status
  · cases k <;> rfl
  · cases accepted
    · cases k <;> rfl
    · exact absurd ⟨rfl, rfl⟩ h

@[simp] theorem accept_poolSize (a : Acceptor) (k : ConnKind) (status accepted : Bool) (p : Bool) :
    (a.accept k status accepted).poolSize p = a.poolSize p := by
  cases status <;> cases accepted <;> cases k <;> rfl

theorem accept_cursor (a : Acceptor) (k : ConnKind) (p : Bool) :
    (a.accept k true true).cursor p = if p = k.ipc then (a.cursor p + 1) % a.poolSize p else a.cursor p := by
  cases k <;> cases p <;> rfl

theorem accept_registered (a : Acceptor) (k : ConnKind) :
    (a.accept k true true).registered = a.registered ++ [(k, a.cursor k.ipc)] := by
  cases k <;> rfl

theorem load_accept (a : Acceptor) (k : ConnKind) (p : Bool) (i : Nat) :
    (a.accept k true true).load p i = a.load p i + if p = k.ipc ∧ i = a.cursor k.ipc then 1 else 0 := by
  simp only [load, accept_registered, List.countP_append, List.countP_singleton]
  congr 1
  simp only [Bool.and_eq_true, beq_iff_eq, @eq_comm _ k.ipc p, @eq_comm _ (a.cursor k.ipc) i]

/-- Round robin's invariant for a pool: the cursor is a worker's index, and the workers
before it hold one connection more than the others. -/
def Balanced (a : Acceptor) (p : Bool) : Prop :=
  a.cursor p < a.poolSize p ∧ ∃ base, ∀ i < a.poolSize p, a.load p i = base + if i < a.cursor p then 1 else 0

theorem balanced_init (httpWorkers ipcWorkers : Nat) (p : Bool)
    (h : 0 < (init httpWorkers ipcWorkers).poolSize p) : (init httpWorkers ipcWorkers).Balanced p := by
  cases p <;> exact ⟨h, 0, fun _ _ => rfl⟩

theorem Balanced.accept {p : Bool} (h : a.Balanced p) (k : ConnKind) (status accepted : Bool) :
    (a.accept k status accepted).Balanced p := by
  by_cases hok : status = true ∧ accepted = true
  · obtain ⟨rfl, rfl⟩ := hok
    obtain ⟨hc, base, hb⟩ := h
    simp only [Balanced, accept_poolSize, accept_cursor, load_accept]
    by_cases hp : p = k.ipc
    · subst hp
      simp only [if_true, true_and]
      by_cases hlast : a.cursor k.ipc + 1 = a.poolSize k.ipc
      · -- the last worker took it: the cursor wraps, and every worker has one more
        rw [hlast, Nat.mod_self]
        refine ⟨by omega, base + 1, fun i hi => ?_⟩
        rw [hb i hi]
        split_ifs <;> omega
      · rw [Nat.mod_eq_of_lt (by omega)]
        refine ⟨by omega, base, fun i hi => ?_⟩
        rw [hb i hi]
        split_ifs <;> omega
    · simp only [hp, if_false, false_and, Nat.add_zero]
      exact ⟨hc, base, hb⟩
  · rw [accept_fail a k hok]
    exact h

/-- Every connection sits with a worker inside its pool. -/
def InPool (a : Acceptor) : Prop := ∀ r ∈ a.registered, r.2 < a.poolSize r.1.ipc

theorem InPool.accept (h : a.InPool) (hb : ∀ p, a.Balanced p) (k : ConnKind) (status accepted : Bool) :
    (a.accept k status accepted).InPool := by
  by_cases hok : status = true ∧ accepted = true
  · obtain ⟨rfl, rfl⟩ := hok
    intro r hr
    rw [accept_registered, List.mem_append, List.mem_singleton] at hr
    rw [accept_poolSize]
    rcases hr with hr | rfl
    · exact h r hr
    · exact (hb k.ipc).1
  · rw [accept_fail a k hok]
    exact h

theorem run_cons (a : Acceptor) (e : ConnKind × Bool × Bool) (evs : List (ConnKind × Bool × Bool)) :
    a.run (e :: evs) = (a.accept e.1 e.2.1 e.2.2).run evs := rfl

theorem run_invariants (evs : List (ConnKind × Bool × Bool)) :
    ∀ a : Acceptor, a.InPool → (∀ p, a.Balanced p) → (a.run evs).InPool ∧ ∀ p, (a.run evs).Balanced p := by
  induction evs with
  | nil => exact fun a h hb => ⟨h, hb⟩
  | cons e evs ih =>
    intro a h hb
    rw [run_cons]
    exact ih _ (h.accept hb _ _ _) fun p => (hb p).accept _ _ _

@[simp] theorem run_poolSize (evs : List (ConnKind × Bool × Bool)) :
    ∀ (a : Acceptor) (p : Bool), (a.run evs).poolSize p = a.poolSize p := by
  induction evs with
  | nil => exact fun _ _ => rfl
  | cons e evs ih => intro a p; rw [run_cons, ih, accept_poolSize]

theorem startInternal_eq_some {io http ipc : Int} {a : Acceptor} (h : startInternal io http ipc = some a) :
    ∃ n m, 0 < n ∧ 0 < m ∧ a = init n m ∧ (io ≠ -1 → n = m) := by
  unfold startInternal at h
  split_ifs at h with hio hpos hpos' <;> cases h
  · exact ⟨_, _, by omega, by omega, rfl, fun h => absurd hio h⟩
  · exact ⟨_, _, by omega, by omega, rfl, fun _ => rfl⟩

end Acceptor

open Acceptor

/-- Round robin keeps each pool level: on a gateway started with at least one HTTP and one
IPC worker, after every run of connection callbacks, each connection was registered with a
worker inside its pool, and any two workers of a pool hold numbers of connections that
differ by at most one. -/
theorem io_worker_loads_level {httpWorkers ipcWorkers : Nat} (hh : 0 < httpWorkers) (hi : 0 < ipcWorkers)
    (evs : List (ConnKind × Bool × Bool)) :
    let a := (Acceptor.init httpWorkers ipcWorkers).run evs
    (∀ r ∈ a.registered, r.2 < a.poolSize r.1.ipc) ∧
      ∀ p, ∀ i < a.poolSize p, ∀ j < a.poolSize p, a.load p i ≤ a.load p j + 1 := by
  have hsize : ∀ p, 0 < (Acceptor.init httpWorkers ipcWorkers).poolSize p := fun p => by
    cases p <;> assumption
  obtain ⟨hin, hb⟩ := run_invariants evs _ (fun r hr => by simp [Acceptor.init] at hr)
    fun p => balanced_init httpWorkers ipcWorkers p (hsize p)
  refine ⟨hin, fun p i hi' j hj => ?_⟩
  obtain ⟨-, base, hload⟩ := hb p
  rw [hload i hi', hload j hj]
  split_ifs <;> omega

/-- Two HTTP workers and one IPC worker: three HTTP or gRPC connections, one of whose
`uv_accept` fails, and a message connection. -/
theorem io_worker_loads_level_two_http_workers :
    0 < 2 ∧ 0 < 1 ∧
      let a := (Acceptor.init 2 1).run [(.http, true, true), (.grpc, true, false), (.grpc, true, true),
        (.message, true, true), (.http, true, true)]
      a.registered = [(.http, 0), (.grpc, 1), (.message, 0), (.http, 0)] ∧
      (∀ r ∈ a.registered, r.2 < a.poolSize r.1.ipc) ∧
        ∀ p, ∀ i < a.poolSize p, ∀ j < a.poolSize p, a.load p i ≤ a.load p j + 1 :=
  ⟨by decide, by decide, rfl, io_worker_loads_level (by decide) (by decide) _⟩

/-- After `StartInternal`, every run of connection callbacks keeps both cursors inside their
pools, so `PickHttpWorker` and `PickIpcWorker` always read an element of `http_workers_`
and `ipc_workers_`; and when `num_io_workers_` workers serve both kinds, any two of them
hold numbers of connections, of all kinds together, that differ by at most two. -/
theorem started_io_workers_in_range {io http ipc : Int} {a : Acceptor} (h : startInternal io http ipc = some a)
    (evs : List (ConnKind × Bool × Bool)) :
    let b := a.run evs
    (∀ p, b.cursor p < b.poolSize p) ∧
      (io ≠ -1 → ∀ i < b.poolSize false, ∀ j < b.poolSize false,
        b.load false i + b.load true i ≤ b.load false j + b.load true j + 2) := by
  obtain ⟨n, m, hn, hm, rfl, hnm⟩ := startInternal_eq_some h
  obtain ⟨-, hb⟩ := run_invariants evs _ (fun r hr => by simp [Acceptor.init] at hr)
    fun p => balanced_init n m p (by cases p <;> assumption)
  refine ⟨fun p => (hb p).1, fun hio i hi j hj => ?_⟩
  have hsize : ((init n m).run evs).poolSize true = ((init n m).run evs).poolSize false := by
    rw [run_poolSize, run_poolSize, hnm hio]
    rfl
  obtain ⟨-, bh, hh⟩ := hb false
  obtain ⟨-, bi, hi'⟩ := hb true
  rw [hh i hi, hh j hj, hi' i (hsize ▸ hi), hi' j (hsize ▸ hj)]
  -- each pool gives worker `i` at most one connection more than its base
  have one : ∀ (P : Prop) [Decidable P], (if P then 1 else 0) ≤ 1 := fun P _ => by split <;> omega
  have := one (i < ((init n m).run evs).cursor false)
  have := one (i < ((init n m).run evs).cursor true)
  omega

/-- Two workers serving both kinds: an HTTP connection and a message connection both go to
worker 0, which then holds two connections more than worker 1. -/
theorem started_io_workers_in_range_shared :
    startInternal 2 0 0 = some (Acceptor.init 2 2) ∧
      let b := (Acceptor.init 2 2).run [(.http, true, true), (.message, true, true)]
      b.load false 0 + b.load true 0 = 2 ∧ b.load false 1 + b.load true 1 = 0 ∧
      ((∀ p, b.cursor p < b.poolSize p) ∧
        ((2 : Int) ≠ -1 → ∀ i < b.poolSize false, ∀ j < b.poolSize false,
          b.load false i + b.load true i ≤ b.load false j + b.load true j + 2)) :=
  ⟨by decide, by decide, by decide, @started_io_workers_in_range 2 0 0 _ (by decide) _⟩

end Nightcore.Gateway
