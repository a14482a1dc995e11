import Vminer.LinkWalk
import Vminer.Os

/-!
# Walks that hand out what they find

A walk goes in rounds. Each finds something and hands it to a callback, and only
if the callback wants to go on does the walk look for the state of its next
round. The callback can stop a walk, but it has no influence on what is handed
out: that is `Delivers`, in which there is no callback.

A round may have loops of its own, for which it takes a step budget. A walk whose
callback always goes on ends exactly if each round it comes to does and if it
does not come back to a state.
-/

/-- **A round**: what it hands out, and how the walk goes on after that, with the
state of the next round or to its end. -/
structure Round (S α : Type) where
  item : α
  next : Exec VmError (Option S)

variable {S α σ : Type}

/-- The loop of a walk. -/
def walkRounds (round : S → Exec VmError (Round S α)) (f : Callback σ α) :
    ℕ → S → σ → Exec VmError σ
  | 0, _, _ => Exec.outOfFuel
  | rounds + 1, st, s => do
    let r ← round st
    match ← f r.item s with
    | (.Break, s) => return s
    | (.Continue, s) => do
      match ← r.next with
      | none => return s
      | some st => walkRounds round f rounds st s

/-- The state of the next round. -/
def LeadsTo (round : S → Exec VmError (Round S α)) (st st' : S) : Prop :=
  ∃ r, round st = .ok r ∧ r.next = .ok (some st')

/-- There is one next state, and something of it is known. -/
theorem leadsTo_of_map_eq {β : Type} {round : S → Exec VmError (Round S α)} {st : S} {g : S → β}
    {b : β} (h : (round st >>= Round.next).map (Option.map g) = .ok (some b)) :
    (∃ st', LeadsTo round st st') ∧ ∀ st', LeadsTo round st st' → g st' = b := by
  have hlead : ∀ st', LeadsTo round st st' ↔ (round st >>= Round.next) = .ok (some st') :=
    fun st' => (Exec.bind_eq_ok_iff _ _ _).symm
  simp only [hlead]
  match hround : round st >>= Round.next with
  | .ok (some st') =>
    rw [hround] at h
    have hb : g st' = b := Option.some.inj (Except.ok.inj h)
    refine ⟨⟨st', rfl⟩, fun st'' heq => ?_⟩
    rwa [← Option.some.inj (Except.ok.inj heq)]
  | .ok none =>
    rw [hround] at h
    cases h
  | .error e =>
    rw [hround] at h
    cases h

/-- **What a walk hands out**, from a state on. -/
def Delivers (round : S → Exec VmError (Round S α)) (st : S) (a : α) : Prop :=
  ∃ st' r, Relation.ReflTransGen (LeadsTo round) st st' ∧ round st' = .ok r ∧ r.item = a

/-! ## What the callback sees -/

section Callback

variable {round : S → Exec VmError (Round S α)}

/-- **The callback sees nothing else**: the walk does not tell two callbacks apart
that do the same with what is handed out. -/
theorem walkRounds_congr {f g : Callback σ α} {st : S}
    (h : ∀ a, Delivers round st a → f a = g a) (rounds : ℕ) (s : σ) :
    walkRounds round f rounds st s = walkRounds round g rounds st s := by
  induction rounds generalizing st s with
  | zero => rfl
  | succ rounds ih =>
    rw [walkRounds, walkRounds]
    cases hr : round st with
    | error e => rfl
    | ok r =>
      show (f r.item s >>= _) = (g r.item s >>= _)
      rw [h r.item ⟨st, r, .refl, hr, rfl⟩]
      refine congrArg _ (funext fun flow => ?_)
      match flow with
      | (.Break, s') => rfl
      | (.Continue, s') =>
        show (r.next >>= _) = (r.next >>= _)
        cases hnext : r.next with
        | error e => rfl
        | ok next =>
          match next with
          | none => rfl
          | some st' =>
            refine ih (fun a ⟨st'', r', hreach, hr', ha⟩ => h a ⟨st'', r', ?_, hr', ha⟩) s'
            exact .head ⟨r, hr, hnext⟩ hreach

/-- A callback that keeps what it sees, up to something. -/
def recordUntil [DecidableEq α] (a : α) : Callback (List α) α := fun x items =>
  return (if x = a then .Break else .Continue, items ++ [x])

/-- **The callback sees all of it.** -/
theorem exists_mem_walkRounds [DecidableEq α] {st : S} {a : α} (h : Delivers round st a) :
    ∃ rounds items, walkRounds round (recordUntil a) rounds st [] = .ok items ∧ a ∈ items := by
  obtain ⟨st', r, hreach, hr, rfl⟩ := h
  have hfrom : ∀ items, ∃ rounds items', walkRounds round (recordUntil r.item) rounds st items
      = .ok items' ∧ r.item ∈ items' := by
    induction hreach using Relation.ReflTransGen.head_induction_on with
    | refl =>
      refine fun items => ⟨1, items ++ [r.item], ?_, List.mem_append_right _ List.mem_cons_self⟩
      rw [walkRounds, hr, Exec.ok_bind, recordUntil, if_pos rfl]
      rfl
    | head hlead _ ih =>
      intro items
      obtain ⟨r₁, hr₁, hnext⟩ := hlead
      by_cases heq : r₁.item = r.item
      · refine ⟨1, items ++ [r₁.item], ?_, ?_⟩
        · rw [walkRounds, hr₁, Exec.ok_bind, recordUntil, if_pos heq]
          rfl
        · rw [heq]
          exact List.mem_append_right _ List.mem_cons_self
      · obtain ⟨rounds, items', hwalk, hmem⟩ := ih (items ++ [r₁.item])
        refine ⟨rounds + 1, items', ?_, hmem⟩
        rw [walkRounds, hr₁, Exec.ok_bind, recordUntil, if_neg heq]
        show (r₁.next >>= _) = _
        rw [hnext]
        exact hwalk
  exact hfrom []

end Callback

/-! ## Walks that end -/

/-- The state of the next round, for which some budget is enough. -/
def LeadsToWithin (round : ℕ → S → Exec VmError (Round S α)) (st st' : S) : Prop :=
  ∃ n, LeadsTo (round n) st st'

/-- **A round ends**: it finds what it hands out and, after that, how to go
on. -/
def RoundEnds (round : ℕ → S → Exec VmError (Round S α)) (st : S) : Prop :=
  Ends fun n => round n st >>= Round.next

variable {round : ℕ → S → Exec VmError (Round S α)} {f : Callback σ α}

/-- A walk goes on with its next round. -/
theorem walkRounds_continue (hf : Continues f) {round : S → Exec VmError (Round S α)} {st : S}
    {r : Round S α} (hr : round st = .ok r) (s : σ) : ∃ s', ∀ rounds,
      walkRounds round f (rounds + 1) st s = r.next >>= fun next =>
        match next with
        | none => return s'
        | some st => walkRounds round f rounds st s' := by
  obtain ⟨s', hs⟩ := hf r.item s
  refine ⟨s', fun rounds => ?_⟩
  rw [walkRounds, hr, Exec.ok_bind, hs]
  rfl

/-- A walk that ends has come to rounds that end only, and only to finitely
many. -/
theorem acc_of_walkRounds_ne_outOfFuel (hround : ∀ st, Settles fun n => round n st)
    (hf : Continues f) (n rounds : ℕ) {st : S} {s : σ}
    (h : walkRounds (round n) f rounds st s ≠ Exec.outOfFuel) :
    Acc (fun q p => LeadsToWithin round p q) st
      ∧ ∀ st', Relation.ReflTransGen (LeadsToWithin round) st st' → RoundEnds round st' := by
  induction rounds generalizing st s with
  | zero => exact absurd rfl h
  | succ rounds ih =>
    have hne : round n st ≠ Exec.outOfFuel := by
      intro heq
      refine h ?_
      rw [walkRounds, heq]
      rfl
    have hsettles : Settles fun n => round n st >>= Round.next :=
      (hround st).bind fun r => Settles.const r.next
    have hends : (round n st >>= Round.next) ≠ Exec.outOfFuel := by
      intro heq
      cases hr : round n st with
      | error e =>
        rw [hr] at heq
        obtain rfl : e = .fuel := Except.error.inj heq
        exact hne hr
      | ok r =>
        rw [hr] at heq
        obtain ⟨s', hs⟩ := walkRounds_continue hf hr s
        refine h ((hs rounds).trans ?_)
        rw [show r.next = Exec.outOfFuel from heq]
        rfl
    -- the next state does not depend on the budget
    have hnext : ∀ q, LeadsToWithin round st q →
        ∃ s', walkRounds (round n) f rounds q s' ≠ Exec.outOfFuel := by
      rintro q ⟨m, r, hr, hq⟩
      have hr' : round n st = .ok r :=
        ((hround st).eq hne fun heq => nomatch hr.symm.trans heq).trans hr
      obtain ⟨s', hs⟩ := walkRounds_continue hf hr' s
      refine ⟨s', fun heq => h ((hs rounds).trans ?_)⟩
      rw [hq]
      exact heq
    refine ⟨⟨st, fun q hq => ?_⟩, fun st' hreach => ?_⟩
    · obtain ⟨s', hs⟩ := hnext q hq
      exact (ih hs).1
    · obtain rfl | ⟨q, hq, hreach⟩ := hreach.cases_head
      · exact hsettles.ends_iff.mpr ⟨n, hends⟩
      · obtain ⟨s', hs⟩ := hnext q hq
        exact (ih hs).2 st' hreach

/-- A walk that comes to finitely many rounds, all of which end, ends. -/
theorem ends_walkRounds_of_acc (hround : ∀ st, Settles fun n => round n st) (hf : Continues f)
    {st : S} (hacc : Acc (fun q p => LeadsToWithin round p q) st)
    (hends : ∀ st', Relation.ReflTransGen (LeadsToWithin round) st st' → RoundEnds round st')
    (s : σ) : Ends fun n => walkRounds (round n) f n st s := by
  suffices hall : ∃ r, r ≠ Exec.outOfFuel ∧ ∃ n, ∀ m ≥ n, ∀ rounds ≥ n,
      walkRounds (round m) f rounds st s = r by
    obtain ⟨r, hr, n, hn⟩ := hall
    exact ⟨r, hr, n, fun m hm => hn m hm m hm⟩
  induction hacc generalizing s with
  | intro st _ ih =>
    have hsettles : Settles fun n => round n st >>= Round.next :=
      (hround st).bind fun r => Settles.const r.next
    obtain ⟨n, hn⟩ := hsettles.ends_iff.mp (hends st .refl)
    have hne : round n st ≠ Exec.outOfFuel := fun heq => hn (by rw [heq]; rfl)
    have hround' : ∀ m ≥ n, round m st = round n st := hround st n hne
    cases hr : round n st with
    | error e =>
      refine ⟨.error e, Exec.error_ne_outOfFuel (hr ▸ hne) rfl, n + 1, fun m hm rounds hle => ?_⟩
      obtain ⟨rounds, rfl⟩ := Nat.exists_eq_add_one.mpr (Nat.zero_lt_of_lt hle)
      rw [walkRounds, hround' m (Nat.le_of_succ_le hm), hr]
      rfl
    | ok r =>
      have hstep : ∃ s', ∀ m ≥ n, ∀ rounds, walkRounds (round m) f (rounds + 1) st s
          = r.next >>= fun next =>
            match next with
            | none => return s'
            | some st => walkRounds (round m) f rounds st s' := by
        obtain ⟨s', hs⟩ := hf r.item s
        refine ⟨s', fun m hm rounds => ?_⟩
        rw [walkRounds, hround' m hm, hr, Exec.ok_bind, hs]
        rfl
      obtain ⟨s', hs⟩ := hstep
      rw [hr] at hn
      cases hnext : r.next with
      | error e =>
        refine ⟨.error e, Exec.error_ne_outOfFuel hn hnext, n + 1, fun m hm rounds hle => ?_⟩
        obtain ⟨rounds, rfl⟩ := Nat.exists_eq_add_one.mpr (Nat.zero_lt_of_lt hle)
        rw [hs m (Nat.le_of_succ_le hm), hnext]
        rfl
      | ok next =>
        cases next with
        | none =>
          refine ⟨.ok s', Exec.ok_ne_outOfFuel s', n + 1, fun m hm rounds hle => ?_⟩
          obtain ⟨rounds, rfl⟩ := Nat.exists_eq_add_one.mpr (Nat.zero_lt_of_lt hle)
          rw [hs m (Nat.le_of_succ_le hm), hnext]
          rfl
        | some q =>
          have hq : LeadsToWithin round st q := ⟨n, r, hr, hnext⟩
          obtain ⟨res, hres, k, hk⟩ := ih q hq (fun st' h => hends st' (h.head hq)) s'
          refine ⟨res, hres, max n k + 1, fun m hm rounds hle => ?_⟩
          obtain ⟨rounds, rfl⟩ := Nat.exists_eq_add_one.mpr (Nat.zero_lt_of_lt hle)
          rw [hs m (by omega), hnext]
          exact hk m (by omega) rounds (by omega)

/-- **A walk ends** exactly if every round it comes to does and it comes to finitely many. -/
theorem ends_walkRounds_iff_acc (hround : ∀ st, Settles fun n => round n st) (hf : Continues f)
    {st : S} (s : σ) :
    (Ends fun n => walkRounds (round n) f n st s)
      ↔ (∀ st', Relation.ReflTransGen (LeadsToWithin round) st st' → RoundEnds round st')
        ∧ Acc (fun q p => LeadsToWithin round p q) st := by
  constructor
  · rintro ⟨r, hr, n, hn⟩
    have hne : walkRounds (round n) f n st s ≠ Exec.outOfFuel :=
      fun heq => hr ((hn n le_rfl).symm.trans heq)
    exact (acc_of_walkRounds_ne_outOfFuel hround hf n n hne).symm
  · exact fun ⟨hends, hacc⟩ => ends_walkRounds_of_acc hround hf hacc hends s

/-- **A walk that can come to finitely many states ends** exactly if every round it
comes to does and its states do not run into a cycle. -/
theorem ends_walkRounds_iff (hround : ∀ st, Settles fun n => round n st) (hf : Continues f)
    {st : S} (hfin : {q | Relation.ReflTransGen (LeadsToWithin round) st q}.Finite) (s : σ) :
    (Ends fun n => walkRounds (round n) f n st s)
      ↔ (∀ st', Relation.ReflTransGen (LeadsToWithin round) st st' → RoundEnds round st')
        ∧ ¬ RunsIntoCycle (LeadsToWithin round) st := by
  rw [← acc_iff_of_finite_reach hfin]
  exact ends_walkRounds_iff_acc hround hf s
