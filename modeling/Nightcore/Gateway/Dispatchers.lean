import Nightcore.Gateway.Handlers

/-! `dispatchers_`, the gateway's table of `Dispatcher`s, with the objects it owns. Every
`std::make_unique<Dispatcher>` makes a new object, so an object is named here by the number
of objects made before it. The lookups all run under `mu_`, so the calls of a run, in any
interleaving of its handlers, form one sequence. `Server.dispatchers` keeps the func_ids
only, in the order their dispatchers were made: it is this table with the objects
forgotten (`funcIds_getOrCreateDispatcherLocked`). -/

namespace Nightcore.Gateway

/-- `dispatchers_` with the objects it owns, and how many `Dispatcher`s have been made. -/
structure DispatcherTable where
  entries : AList (fun _ : UInt16 => Nat)
  made : Nat

namespace DispatcherTable

/-- The table as the constructor leaves it. -/
def init : DispatcherTable := ⟨∅, 0⟩

/-- `GetOrCreateDispatcherLocked`: the object `dispatchers_` holds for `funcId`, made on the
first lookup of a configured func_id; `none` is `nullptr`. -/
def getOrCreateDispatcherLocked (cfg : Config) (t : DispatcherTable) (funcId : UInt16) :
    DispatcherTable × Option Nat :=
  if funcId ∈ t.entries then (t, t.entries.lookup funcId)
  else if cfg.knownFuncId funcId then
    let t : DispatcherTable := ⟨t.entries.insert funcId t.made, t.made + 1⟩
    (t, t.entries.lookup funcId)
  else (t, none)

/-- `GetOrCreateDispatcher`: the same lookup, taking `mu_` itself. -/
def getOrCreateDispatcher (cfg : Config) (t : DispatcherTable) (funcId : UInt16) :
    DispatcherTable × Option Nat :=
  t.getOrCreateDispatcherLocked cfg funcId

/-- Lookups in the order they took `mu_`, with what each returned. -/
def lookups (cfg : Config) : DispatcherTable → List UInt16 → DispatcherTable × List (Option Nat)
  | t, [] => (t, [])
  | t, f :: fs =>
    let r := t.getOrCreateDispatcherLocked cfg f
    let rest := lookups cfg r.1 fs
    (rest.1, r.2 :: rest.2)

/-- A call on the table: `GetOrCreateDispatcher`, which takes `mu_` itself, or
`GetOrCreateDispatcherLocked` from a caller that holds it. -/
inductive LookupCall
  | getOrCreateDispatcher (funcId : UInt16)
  | getOrCreateDispatcherLocked (funcId : UInt16)
deriving DecidableEq, Repr

def LookupCall.funcId : LookupCall → UInt16
  | .getOrCreateDispatcher f | .getOrCreateDispatcherLocked f => f

def LookupCall.run (cfg : Config) (t : DispatcherTable) : LookupCall → DispatcherTable × Option Nat
  | .getOrCreateDispatcher f => t.getOrCreateDispatcher cfg f
  | .getOrCreateDispatcherLocked f => t.getOrCreateDispatcherLocked cfg f

/-- Calls in the order they took `mu_`, with what each returned. -/
def lookupCalls (cfg : Config) : DispatcherTable → List LookupCall → DispatcherTable × List (Option Nat)
  | t, [] => (t, [])
  | t, k :: ks =>
    let r := k.run cfg t
    let rest := lookupCalls cfg r.1 ks
    (rest.1, r.2 :: rest.2)

/-- The func_ids that have a dispatcher, in the order their dispatchers were made. -/
def funcIds (t : DispatcherTable) : List UInt16 := t.entries.keys.reverse

section

variable (cfg : Config) (t : DispatcherTable) (f : UInt16)

theorem LookupCall.run_eq (k : LookupCall) : k.run cfg t = t.getOrCreateDispatcherLocked cfg k.funcId := by
  cases k <;> rfl

theorem lookupCalls_eq (ks : List LookupCall) :
    lookupCalls cfg t ks = lookups cfg t (ks.map LookupCall.funcId) := by
  induction ks generalizing t with
  | nil => rfl
  | cons k ks ih => simp only [lookupCalls, lookups, List.map_cons, LookupCall.run_eq, ih]

theorem getOrCreateDispatcherLocked_snd :
    (t.getOrCreateDispatcherLocked cfg f).2 = (t.getOrCreateDispatcherLocked cfg f).1.entries.lookup f := by
  unfold getOrCreateDispatcherLocked
  split_ifs with h
  · rfl
  · rfl
  · exact (AList.lookup_eq_none.2 h).symm

theorem lookup_getOrCreateDispatcherLocked {g : UInt16} {d : Nat} (h : t.entries.lookup g = some d) :
    (t.getOrCreateDispatcherLocked cfg f).1.entries.lookup g = some d := by
  unfold getOrCreateDispatcherLocked
  split_ifs with hf
  · exact h
  · have hg : g ≠ f := fun he => hf (he ▸ AList.lookup_isSome.1 (by rw [h]; rfl))
    rw [AList.lookup_insert_ne hg]
    exact h
  · exact h

theorem mem_getOrCreateDispatcherLocked {g : UInt16} :
    g ∈ (t.getOrCreateDispatcherLocked cfg f).1.entries ↔ g ∈ t.entries ∨ g = f ∧ cfg.knownFuncId f = true := by
  unfold getOrCreateDispatcherLocked
  split_ifs with hf hk
  · exact ⟨.inl, fun h => h.elim id fun ⟨he, _⟩ => he ▸ hf⟩
  · simp [AList.mem_insert, hk, or_comm]
  · simp_all

theorem made_getOrCreateDispatcherLocked :
    (t.getOrCreateDispatcherLocked cfg f).1.made =
      t.made + if f ∉ t.entries ∧ cfg.knownFuncId f = true then 1 else 0 := by
  unfold getOrCreateDispatcherLocked
  split_ifs <;> simp_all

theorem keys_getOrCreateDispatcherLocked :
    (t.getOrCreateDispatcherLocked cfg f).1.entries.keys =
      if f ∉ t.entries ∧ cfg.knownFuncId f = true then f :: t.entries.keys else t.entries.keys := by
  unfold getOrCreateDispatcherLocked
  split_ifs with h1 h2 h3 <;> simp_all [AList.keys_insert, List.erase_of_not_mem, AList.mem_keys]

theorem funcIds_getOrCreateDispatcherLocked (s : Server) (h : s.dispatchers = t.funcIds) :
    (s.getOrCreateDispatcherLocked cfg f).1.dispatchers = (t.getOrCreateDispatcherLocked cfg f).1.funcIds ∧
      (s.getOrCreateDispatcherLocked cfg f).2 = (t.getOrCreateDispatcherLocked cfg f).2.isSome := by
  have hm : f ∈ s.dispatchers ↔ f ∈ t.entries := by
    rw [h, funcIds, List.mem_reverse, AList.mem_keys]
  refine ⟨?_, ?_⟩
  · simp only [Server.getOrCreateDispatcherLocked_fst, hm, funcIds, keys_getOrCreateDispatcherLocked]
    rw [h, funcIds]
    split_ifs <;> simp
  · rw [Server.getOrCreateDispatcherLocked_snd, getOrCreateDispatcherLocked_snd]
    unfold getOrCreateDispatcherLocked
    by_cases hf : f ∈ t.entries
    · simp [hm, hf, AList.lookup_isSome.2 hf]
    · by_cases hk : cfg.knownFuncId f = true <;> simp [hm, hf, hk, AList.lookup_eq_none.2 hf]

end

end DispatcherTable

end Nightcore.Gateway
