import Vminer.Exec

/-!
# Maps that are written once

A map from keys to values in which a value, once there, stays. A request computes
a key, and from it a value that is only computed if the map has none for the key;
a value that could not be computed leaves no trace.

Whether a request is answered as it is by an empty map is thus decided by the
first request before it that stored a value under the same key
(`answer_runAll_iff`).
-/

/-- `OnceMap` -/
structure OnceMap (κ α : Type) where
  get : κ → Option α

namespace OnceMap

variable {κ ε α : Type} [DecidableEq κ]

/-- `OnceMap::new` -/
def new : OnceMap κ α := ⟨fun _ => none⟩

/-- `OnceMap::try_insert` -/
def tryInsert (m : OnceMap κ α) (k : κ) (f : κ → Exec ε α) : Exec ε α × OnceMap κ α :=
  match m.get k with
  | some a => (.ok a, m)
  | none =>
    match f k with
    | .ok a => (.ok a, ⟨fun k' => if k' = k then some a else m.get k'⟩)
    | .error e => (.error e, m)

/-- What a map has under a key after that is what it had, or what is computed. -/
theorem get_tryInsert {m : OnceMap κ α} {k k' : κ} {f : κ → Exec ε α} {a : α}
    (h : (m.tryInsert k f).2.get k' = some a) : m.get k' = some a ∨ k' = k ∧ f k = .ok a := by
  unfold tryInsert at h
  cases hget : m.get k with
  | some b =>
    rw [hget] at h
    exact Or.inl h
  | none =>
    rw [hget] at h
    dsimp only at h
    cases hf : f k with
    | error e =>
      rw [hf] at h
      exact Or.inl h
    | ok b =>
      rw [hf] at h
      dsimp only at h
      by_cases hk : k' = k
      · rw [if_pos hk] at h
        exact Or.inr ⟨hk, congrArg Except.ok (Option.some.inj h)⟩
      · rw [if_neg hk] at h
        exact Or.inl h

/-- The answer is what the map had under the key, or what is computed for it. -/
theorem tryInsert_eq_ok {m : OnceMap κ α} {k : κ} {f : κ → Exec ε α} {a : α}
    (h : (m.tryInsert k f).1 = .ok a) : m.get k = some a ∨ f k = .ok a := by
  unfold tryInsert at h
  cases hget : m.get k with
  | some b =>
    rw [hget] at h
    exact Or.inl (congrArg some (Except.ok.inj h))
  | none =>
    rw [hget] at h
    dsimp only at h
    cases hf : f k with
    | error e =>
      rw [hf] at h
      cases h
    | ok b =>
      rw [hf] at h
      exact Or.inr h

/-- A map after an answer has the answer under its key. -/
theorem get_of_tryInsert_eq {m m' : OnceMap κ α} {k : κ} {f : κ → Exec ε α} {a : α}
    (h : m.tryInsert k f = (.ok a, m')) (k' : κ) :
    m'.get k' = if k' = k then some a else m.get k' := by
  unfold tryInsert at h
  cases hget : m.get k with
  | some b =>
    rw [hget] at h
    obtain ⟨hb, rfl⟩ := Prod.mk.inj h
    obtain rfl := Except.ok.inj hb
    split
    · next hk => rw [hk, hget]
    · rfl
  | none =>
    rw [hget] at h
    dsimp only at h
    cases hf : f k with
    | error e =>
      rw [hf] at h
      cases (Prod.mk.inj h).1
    | ok b =>
      rw [hf] at h
      obtain ⟨hb, rfl⟩ := Prod.mk.inj h
      obtain rfl := Except.ok.inj hb
      rfl

/-- A request: its key, and how the value of a key is computed. -/
structure Request (κ ε α : Type) where
  key : Exec ε κ
  value : κ → Exec ε α

namespace Request

/-- What a request asks for. -/
def result (q : Request κ ε α) : Exec ε α := q.key >>= q.value

/-- How it is answered. -/
def run (q : Request κ ε α) (m : OnceMap κ α) : Exec ε α × OnceMap κ α :=
  match q.key with
  | .ok k => m.tryInsert k q.value
  | .error e => (.error e, m)

/-- The value that it stores under a key where there is none. -/
def stores (q : Request κ ε α) (k : κ) : Option α :=
  match q.key with
  | .ok k' => if k = k' then (q.value k').toOption else none
  | .error _ => none

/-- **What a request leaves in the map.** -/
theorem get_run (q : Request κ ε α) (m : OnceMap κ α) (k : κ) :
    (q.run m).2.get k = (m.get k).or (q.stores k) := by
  unfold run stores
  cases q.key with
  | error e => exact Option.or_none.symm
  | ok k' =>
    dsimp only [tryInsert]
    cases hm : m.get k' with
    | some a =>
      by_cases hk : k = k'
      · rw [hk, hm, Option.some_or]
      · rw [if_neg hk, Option.or_none]
    | none =>
      cases q.value k' with
      | error e =>
        show m.get k = (m.get k).or (if k = k' then none else none)
        rw [ite_self, Option.or_none]
      | ok a =>
        show (if k = k' then some a else m.get k) = (m.get k).or (if k = k' then some a else none)
        by_cases hk : k = k'
        · rw [if_pos hk, if_pos hk, hk, hm, Option.none_or]
        · rw [if_neg hk, if_neg hk, Option.or_none]

/-- A request is answered with what it asks for unless the map has something
else. -/
theorem run_eq_result_iff (q : Request κ ε α) (m : OnceMap κ α) :
    (q.run m).1 = q.result
      ↔ ∀ k a, q.key = .ok k → m.get k = some a → q.value k = .ok a := by
  unfold run result
  cases hkey : q.key with
  | error e => exact ⟨fun _ _ _ hk => (nomatch hk), fun _ => rfl⟩
  | ok k =>
    show (m.tryInsert k q.value).1 = q.value k ↔ _
    unfold tryInsert
    cases hm : m.get k with
    | some a =>
      constructor
      · intro heq k' a' hk hget
        obtain rfl := Except.ok.inj hk
        rw [← heq, ← Option.some.inj (hm.symm.trans hget)]
      · exact fun h => (h k a rfl hm).symm
    | none =>
      refine ⟨fun _ k' a hk hget => ?_, fun _ => ?_⟩
      · obtain rfl := Except.ok.inj hk
        cases hm.symm.trans hget
      · cases q.value k <;> rfl

/-- On an empty map. -/
theorem run_new (q : Request κ ε α) : (q.run new).1 = q.result :=
  (q.run_eq_result_iff new).mpr fun _ _ _ hget => nomatch hget

end Request

/-- A map after some requests. -/
def runAll (m : OnceMap κ α) (qs : List (Request κ ε α)) : OnceMap κ α :=
  qs.foldl (fun m q => (q.run m).2) m

/-- **After any requests** a key has the value it had, or else the first one that
was stored. -/
theorem get_runAll (m : OnceMap κ α) (qs : List (Request κ ε α)) (k : κ) :
    (m.runAll qs).get k = (m.get k).or (qs.findSome? fun q => q.stores k) := by
  induction qs generalizing m with
  | nil => exact Option.or_none.symm
  | cons q qs ih =>
    show ((q.run m).2.runAll qs).get k = _
    rw [ih, q.get_run, Option.or_assoc, List.findSome?_cons]
    cases q.stores k <;> rfl

/-- **The answer to a request does not depend on those before it** exactly if the
value that its key has already is the one it asks for. -/
theorem answer_runAll_iff (m : OnceMap κ α) (qs : List (Request κ ε α)) (q : Request κ ε α) :
    (q.run (m.runAll qs)).1 = (q.run new).1
      ↔ ∀ k a, q.key = .ok k → (m.get k).or (qs.findSome? fun q => q.stores k) = some a →
        q.value k = .ok a := by
  rw [q.run_new, q.run_eq_result_iff]
  simp only [get_runAll]

end OnceMap
