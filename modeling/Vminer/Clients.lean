import Vminer.Exec

/-!
# Clients of an interface

A client of an interface makes calls and goes on with their answers; what it does between two
calls is its own. An implementation of the interface answers calls and has a state. A client
that is run with an implementation is determined by the answers it gets, so two implementations
that give the same answers to the calls of a client, from related states on, are not told apart
by it (`Client.run_simulation`). A call may be one that is not allowed where it is made; then
nothing is said about it.
-/

/-- **A client of an interface**: it ends with a value, or it makes a call and goes on with the
answer. -/
inductive Client (Op Ans α : Type) where
  | done (a : α)
  | call (op : Op) (next : Ans → Client Op Ans α)

/-- An implementation of an interface: the answer to a call, and the state after it. -/
abbrev Handler (Op Ans σ : Type) : Type := Op → σ → Ans × σ

namespace Client

variable {Op Ans α σ τ : Type}

/-- The run of a client with an implementation. -/
def run (handler : Handler Op Ans σ) : Client Op Ans α → σ → α × σ
  | done a, s => (a, s)
  | call op next, s => (next (handler op s).1).run handler (handler op s).2

/-- **A client keeps the rules**: each of its calls is allowed in the state it is made in. -/
def Keeps (handler : Handler Op Ans σ) (allowed : Op → σ → Prop) : Client Op Ans α → σ → Prop
  | done _, _ => True
  | call op next, s =>
    allowed op s ∧ (next (handler op s).1).Keeps handler allowed (handler op s).2

@[simp] theorem run_done (handler : Handler Op Ans σ) (a : α) (s : σ) :
    (done a : Client Op Ans α).run handler s = (a, s) := rfl

@[simp] theorem run_call (handler : Handler Op Ans σ) (op : Op)
    (next : Ans → Client Op Ans α) (s : σ) :
    (call op next).run handler s = (next (handler op s).1).run handler (handler op s).2 := rfl

/-- **Simulation.** Two implementations that answer each allowed call alike and stay related
are not told apart by a client that keeps the rules. -/
theorem run_simulation {handler : Handler Op Ans σ} {handler' : Handler Op Ans τ}
    {allowed : Op → σ → Prop} {related : σ → τ → Prop}
    (hstep : ∀ op s t, related s t → allowed op s →
      (handler op s).1 = (handler' op t).1 ∧ related (handler op s).2 (handler' op t).2)
    (client : Client Op Ans α) {s : σ} {t : τ} (h : related s t)
    (hkeeps : client.Keeps handler allowed s) :
    (client.run handler s).1 = (client.run handler' t).1
      ∧ related (client.run handler s).2 (client.run handler' t).2 := by
  induction client generalizing s t with
  | done a => exact ⟨rfl, h⟩
  | call op next ih =>
    obtain ⟨hallowed, hrest⟩ := hkeeps
    obtain ⟨hanswer, hrelated⟩ := hstep op s t h hallowed
    rw [run_call, run_call, ← hanswer]
    exact ih _ hrelated hrest

/-- **What each allowed call keeps, a run keeps**, if the client keeps the rules. -/
theorem run_invariant {handler : Handler Op Ans σ} {allowed : Op → σ → Prop} {inv : σ → Prop}
    (hstep : ∀ op s, inv s → allowed op s → inv (handler op s).2) (client : Client Op Ans α)
    {s : σ} (h : inv s) (hkeeps : client.Keeps handler allowed s) :
    inv (client.run handler s).2 := by
  induction client generalizing s with
  | done a => exact h
  | call op next ih =>
    obtain ⟨hallowed, hrest⟩ := hkeeps
    exact ih _ (hstep op s h hallowed) hrest

end Client
