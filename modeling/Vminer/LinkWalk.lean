import Vminer.Exec

/-!
# Loops that follow links

A loop that goes from a position to the next one along links it does not
control ends exactly if the links it follows do not run into a cycle: among
finitely many positions a walk without end comes back to one of them.

A loop is given with a step budget, and it ends (`Ends`) when some budget is
enough and a larger one makes no difference. What a single round has to satisfy
for the loop to be one that follows links is `FollowsLinks`.
-/

/-- The links from a position run into a cycle. -/
def RunsIntoCycle {α : Type} (link : α → α → Prop) (a : α) : Prop :=
  ∃ p, Relation.ReflTransGen link a p ∧ Relation.TransGen link p p

/-- Where all walks are finite none comes back to where it has been. -/
theorem not_runsIntoCycle_of_acc {α : Type} {link : α → α → Prop} {a : α}
    (hacc : Acc (fun q p => link p q) a) : ¬ RunsIntoCycle link a := by
  rintro ⟨p, hap, hpp⟩
  have hp : Acc (fun q p => link p q) p :=
    Relation.ReflTransGen.head_induction_on hap (motive := fun a _ =>
      Acc (fun q p => link p q) a → Acc (fun q p => link p q) p) id
      (fun hlink _ ih hacc => ih (hacc.inv hlink)) hacc
  -- the cycle, followed backwards, would descend forever
  have hirrefl : ∀ p, Acc (Relation.TransGen fun q p => link p q) p →
      ¬ Relation.TransGen (fun q p => link p q) p p := by
    intro p hacc
    induction hacc with
    | intro p _ ih => exact fun hpp => ih p hpp hpp
  exact hirrefl p hp.transGen (Relation.transGen_swap.mpr hpp)

/-- **Among finitely many positions** all walks from one are finite exactly if
none of them comes back to where it has been. -/
theorem acc_iff_not_runsIntoCycle {α : Type} [Finite α] (link : α → α → Prop) (a : α) :
    Acc (fun q p => link p q) a ↔ ¬ RunsIntoCycle link a := by
  constructor
  · exact not_runsIntoCycle_of_acc
  · intro hcycle
    let below : α → α → Prop := fun q p =>
      Relation.ReflTransGen link a p ∧ Relation.TransGen link p q
    have : IsTrans α below := ⟨fun x y z hxy hyz => ⟨hyz.1, hyz.2.trans hxy.2⟩⟩
    have : Std.Irrefl below := ⟨fun p hp => hcycle ⟨p, hp.1, hp.2⟩⟩
    have hwf := Finite.wellFounded_of_trans_of_irrefl below
    have hall : ∀ p, Relation.ReflTransGen link a p → Acc (fun q p => link p q) p := by
      intro p
      induction p using hwf.induction with
      | _ p ih => exact fun hp => ⟨p, fun q hlink => ih q ⟨hp, .single hlink⟩ (hp.tail hlink)⟩
    exact hall a .refl

/-- **Where finitely many positions can be reached** from one, the same holds of
its walks. -/
theorem acc_iff_of_finite_reach {α : Type} {link : α → α → Prop} {a : α}
    (hfin : {q | Relation.ReflTransGen link a q}.Finite) :
    Acc (fun q p => link p q) a ↔ ¬ RunsIntoCycle link a := by
  let T := {q // Relation.ReflTransGen link a q}
  have : Finite T := hfin
  let link' : T → T → Prop := fun p q => link p.1 q.1
  have hlift : ∀ p : T, ∀ q, Relation.ReflTransGen link p.1 q →
      ∃ hq, Relation.ReflTransGen link' p ⟨q, hq⟩ := by
    intro p q hpq
    induction hpq with
    | refl => exact ⟨p.2, .refl⟩
    | tail _ hlink ih =>
      obtain ⟨hq, hwalk⟩ := ih
      exact ⟨hq.tail hlink, hwalk.tail hlink⟩
  have hacc : Acc (fun q p => link p q) a ↔ Acc (fun q p => link' p q) ⟨a, .refl⟩ := by
    constructor
    · intro h
      show Acc (InvImage (fun q p => link p q) Subtype.val) _
      exact InvImage.accessible Subtype.val h
    · intro h
      have hall : ∀ p : T, Acc (fun q p => link' p q) p → Acc (fun q p => link p q) p.1 := by
        intro p hp
        induction hp with
        | intro p _ ih => exact ⟨p.1, fun q hlink => ih ⟨q, p.2.tail hlink⟩ hlink⟩
      exact hall _ h
  rw [hacc, acc_iff_not_runsIntoCycle]
  refine not_congr ⟨?_, ?_⟩
  · rintro ⟨p, hap, hpp⟩
    exact ⟨p.1, p.2, hpp.lift Subtype.val fun _ _ h => h⟩
  · rintro ⟨p, hap, hpp⟩
    obtain ⟨hp, hwalk⟩ := hlift ⟨a, .refl⟩ p hap
    obtain ⟨q, hpq, hqp⟩ := Relation.TransGen.head'_iff.mp hpp
    obtain ⟨hp', hback⟩ := hlift ⟨q, hp.tail hpq⟩ p hqp
    exact ⟨⟨p, hp⟩, hwalk, .head' (show link' ⟨p, hp⟩ ⟨q, _⟩ from hpq) hback⟩

/-- **Links that depend on a part of a position only**: what is linked to it has parts
that are linked, and each link between parts is that of a position. -/
structure Projects {α β : Type} (link : α → α → Prop) (link' : β → β → Prop) (inv : α → Prop)
    (proj : α → β) : Prop where
  keeps : ∀ a b, inv a → link a b → inv b
  linked : ∀ a b, inv a → link a b → link' (proj a) (proj b)
  lift : ∀ a q, inv a → link' (proj a) q → ∃ b, link a b ∧ proj b = q

namespace Projects

variable {α β : Type} {link : α → α → Prop} {link' : β → β → Prop} {inv : α → Prop}
  {proj : α → β}

/-- A walk is one of the parts. -/
theorem reach (h : Projects link link' inv proj) {a b : α} (ha : inv a)
    (hreach : Relation.ReflTransGen link a b) :
    inv b ∧ Relation.ReflTransGen link' (proj a) (proj b) := by
  induction hreach with
  | refl => exact ⟨ha, .refl⟩
  | tail _ hlink ih => exact ⟨h.keeps _ _ ih.1 hlink, ih.2.tail (h.linked _ _ ih.1 hlink)⟩

end Projects

variable {ε α σ β : Type}

/-- **A computation with a step budget ends**: from some budget on it has one
and the same outcome. -/
def Ends (run : ℕ → Exec ε β) : Prop :=
  ∃ r, r ≠ Exec.outOfFuel ∧ ∃ n, ∀ m ≥ n, run m = r

/-- What takes no budget. -/
theorem ends_const {x : Exec ε β} (hx : x ≠ Exec.outOfFuel) : Ends fun _ => x :=
  ⟨x, hx, 0, fun _ _ => rfl⟩

namespace Ends

variable {run : ℕ → Exec ε α}

theorem exists_ne_outOfFuel (h : Ends run) : ∃ n, run n ≠ Exec.outOfFuel := by
  obtain ⟨r, hr, n, hn⟩ := h
  exact ⟨n, fun heq => hr ((hn n le_rfl).symm.trans heq)⟩

/-- A budget that is larger by one. -/
theorem of_succ (h : Ends fun n => run (n + 1)) : Ends run := by
  obtain ⟨r, hr, n, hn⟩ := h
  refine ⟨r, hr, n + 1, fun m hm => ?_⟩
  obtain ⟨m, rfl⟩ := Nat.exists_eq_add_one.mpr (Nat.zero_lt_of_lt hm)
  exact hn m (Nat.le_of_succ_le_succ hm)

/-- What is made of the outcome does not matter, as long as it ends. -/
theorem map {ε' : Type} {f : Exec ε α → Exec ε' β}
    (hf : ∀ x, x ≠ Exec.outOfFuel → f x ≠ Exec.outOfFuel) (h : Ends run) :
    Ends fun n => f (run n) := by
  obtain ⟨r, hr, n, hn⟩ := h
  exact ⟨f r, hf r hr, n, fun m hm => congrArg f (hn m hm)⟩

/-- **One computation after the other**, where the second one ends for whatever the first
one comes to. -/
theorem bind {next : α → ℕ → Exec ε β} (h : Ends run)
    (hnext : ∀ n a, run n = .ok a → Ends (next a)) : Ends fun n => run n >>= fun a => next a n := by
  obtain ⟨r, hr, n, hn⟩ := h
  cases hres : r with
  | error e =>
    refine ⟨.error e, Exec.error_ne_outOfFuel hr hres, n, fun m hm => ?_⟩
    dsimp only
    rw [hn m hm, hres]
    rfl
  | ok a =>
    obtain ⟨r', hr', k, hk⟩ := hnext n a ((hn n le_rfl).trans hres)
    refine ⟨r', hr', max n k, fun m hm => ?_⟩
    dsimp only
    rw [hn m ((le_max_left n k).trans hm), hres]
    exact hk m ((le_max_right n k).trans hm)

end Ends

/-- What is done once at the beginning makes no difference. -/
theorem ends_bind_iff {x : Exec ε α} (hx : x ≠ Exec.outOfFuel) (run : α → ℕ → Exec ε β) :
    (Ends fun n => x >>= fun a => run a n) ↔ ∀ a, x = .ok a → Ends (run a) := by
  cases x with
  | ok a => exact ⟨fun h _ heq => Except.ok.inj heq ▸ h, fun h => h a rfl⟩
  | error e =>
    refine iff_of_true ⟨.error e, Exec.error_ne_outOfFuel hx rfl, 0, fun _ _ => rfl⟩ ?_
    exact fun _ heq => nomatch heq

/-- **A larger budget makes no difference** to a computation for which a smaller
one is enough. -/
def Settles (run : ℕ → Exec ε β) : Prop :=
  ∀ n, run n ≠ Exec.outOfFuel → ∀ m ≥ n, run m = run n

namespace Settles

/-- What takes no budget. -/
theorem const (x : Exec ε β) : Settles fun _ => x := fun _ _ _ _ => rfl

/-- One computation after the other. -/
theorem bind {run : ℕ → Exec ε α} {next : α → ℕ → Exec ε β} (h : Settles run)
    (hnext : ∀ a, Settles (next a)) : Settles fun n => run n >>= fun a => next a n := by
  intro n hne m hm
  dsimp only at hne ⊢
  have hrun : run n ≠ Exec.outOfFuel := fun heq => hne (by rw [heq]; rfl)
  rw [h n hrun m hm]
  cases hx : run n with
  | error e => rfl
  | ok a =>
    rw [hx] at hne
    exact hnext a n hne m hm

/-- What is made of the outcome. -/
theorem map {ε' : Type} {run : ℕ → Exec ε α} (h : Settles run) {f : Exec ε α → Exec ε' β}
    (hf : f Exec.outOfFuel = Exec.outOfFuel) : Settles fun n => f (run n) := by
  intro n hne m hm
  exact congrArg f (h n (fun heq => hne (by dsimp only; rw [heq, hf])) m hm)

/-- It ends if some budget is enough. -/
theorem ends_iff {run : ℕ → Exec ε β} (h : Settles run) :
    Ends run ↔ ∃ n, run n ≠ Exec.outOfFuel := by
  refine ⟨Ends.exists_ne_outOfFuel, ?_⟩
  rintro ⟨n, hne⟩
  exact ⟨run n, hne, n, h n hne⟩

/-- Nor does what is made of its outcome matter. -/
theorem ends_bind_iff {run : ℕ → Exec ε α} (h : Settles run) {g : α → Exec ε β}
    (hg : ∀ a, g a ≠ Exec.outOfFuel) : (Ends fun n => run n >>= g) ↔ Ends run := by
  rw [(h.bind fun a => const (g a)).ends_iff, h.ends_iff]
  refine exists_congr fun n => not_congr ⟨fun heq => ?_, fun heq => by rw [heq]; rfl⟩
  by_contra hne
  exact Exec.bind_ne_outOfFuel hne (fun a _ => hg a) heq

/-- Two budgets that are enough give the same. -/
theorem eq {run : ℕ → Exec ε β} (h : Settles run) {n m : ℕ} (hn : run n ≠ Exec.outOfFuel)
    (hm : run m ≠ Exec.outOfFuel) : run n = run m := by
  rw [← h n hn (max n m) (le_max_left n m), h m hm (max n m) (le_max_right n m)]

end Settles

/-- **A loop that follows links**, with a state `σ` beside its position. Where
there is no link it stops, and along a link it goes on – what it does with the
outcome of the rest (`finish`) is nothing that could make it end or not. -/
structure FollowsLinks (link : α → α → Prop) (run : ℕ → α → σ → Exec ε β) : Prop where
  zero : ∀ a s, run 0 a s = Exec.outOfFuel
  stop : ∀ a s, (∀ q, ¬ link a q) → ∃ r, r ≠ Exec.outOfFuel ∧ ∀ n, run (n + 1) a s = r
  next : ∀ a s q, link a q → ∃ (s' : σ) (finish : Exec ε β → Exec ε β),
    (∀ r, finish r = Exec.outOfFuel ↔ r = Exec.outOfFuel)
      ∧ ∀ n, run (n + 1) a s = finish (run n q s')

namespace FollowsLinks

variable {link : α → α → Prop} {run : ℕ → α → σ → Exec ε β}

/-- A loop whose walks are finite ends. -/
theorem ends_of_acc (h : FollowsLinks link run) {a : α} (hacc : Acc (fun q p => link p q) a)
    (s : σ) : Ends fun n => run n a s := by
  induction hacc generalizing s with
  | intro a _ ih =>
    by_cases hlink : ∃ q, link a q
    · obtain ⟨q, hq⟩ := hlink
      obtain ⟨s', finish, hfinish, hnext⟩ := h.next a s q hq
      obtain ⟨r, hr, n, hn⟩ := ih q hq s'
      refine Ends.of_succ ⟨finish r, fun heq => hr ((hfinish r).mp heq), n, fun m hm => ?_⟩
      exact (hnext m).trans (congrArg finish (hn m hm))
    · obtain ⟨r, hr, hstop⟩ := h.stop a s (not_exists.mp hlink)
      exact Ends.of_succ ⟨r, hr, 0, fun m _ => hstop m⟩

/-- A loop that ends has followed only finite walks. -/
theorem acc_of_ne_outOfFuel (h : FollowsLinks link run) (n : ℕ) {a : α} {s : σ}
    (hrun : run n a s ≠ Exec.outOfFuel) : Acc (fun q p => link p q) a := by
  induction n generalizing a s with
  | zero => exact absurd (h.zero a s) hrun
  | succ n ih =>
    refine ⟨a, fun q hq => ?_⟩
    obtain ⟨s', finish, hfinish, hnext⟩ := h.next a s q hq
    rw [hnext] at hrun
    exact ih fun heq => hrun ((hfinish _).mpr heq)

/-- What a loop comes to does not depend on its budget. -/
theorem settles (h : FollowsLinks link run) (a : α) (s : σ) : Settles fun n => run n a s := by
  intro n
  induction n generalizing a s with
  | zero => exact fun hne => absurd (h.zero a s) hne
  | succ n ih =>
    intro hne m hm
    obtain ⟨m, rfl⟩ := Nat.exists_eq_add_one.mpr (Nat.zero_lt_of_lt hm)
    dsimp only at hne ⊢
    by_cases hlink : ∃ q, link a q
    · obtain ⟨q, hq⟩ := hlink
      obtain ⟨s', finish, hfinish, hnext⟩ := h.next a s q hq
      rw [hnext] at hne
      rw [hnext, hnext]
      exact congrArg finish (ih q s' (fun heq => hne ((hfinish _).mpr heq)) m
        (Nat.le_of_succ_le_succ hm))
    · obtain ⟨r, -, hstop⟩ := h.stop a s (not_exists.mp hlink)
      rw [hstop, hstop]

/-- **A loop that follows links ends** exactly if they do not run into a
cycle. -/
theorem ends_iff [Finite α] (h : FollowsLinks link run) (a : α) (s : σ) :
    (Ends fun n => run n a s) ↔ ¬ RunsIntoCycle link a := by
  rw [← acc_iff_not_runsIntoCycle]
  refine ⟨?_, fun hacc => h.ends_of_acc hacc s⟩
  rintro ⟨r, hr, n, hn⟩
  exact h.acc_of_ne_outOfFuel n (hn n le_rfl ▸ hr)

/-- Nor does it matter what is made of its value. -/
theorem ends_bind_iff [Finite α] (h : FollowsLinks link run) {γ : Type} (g : β → γ) (a : α)
    (s : σ) : (Ends fun n => run n a s >>= fun b => .ok (g b)) ↔ ¬ RunsIntoCycle link a := by
  rw [(h.settles a s).ends_bind_iff fun b => Exec.ok_ne_outOfFuel (g b), h.ends_iff]

end FollowsLinks

/-- **A loop goes along links**: it ends exactly if they do not run into a cycle, and panics only
where a step at a position that it comes to does. -/
structure GoesAlong (link : α → α → Prop) (panics : α → Prop) (a : α) (run : ℕ → Exec ε β) :
    Prop where
  ends_iff : Ends run ↔ ¬ RunsIntoCycle link a
  panic : ∀ n, run n = Exec.panicked → ∃ p, Relation.ReflTransGen link a p ∧ panics p

/-- **A loop that may panic on its way along links**: a round returns exactly if its position
is safe and the rest of the loop returns, if it goes on. -/
structure PanicsAlong (link : α → α → Prop) (safe : α → Prop) (run : ℕ → α → σ → Exec ε β) :
    Prop where
  unique : Relator.RightUnique link
  zero : ∀ a s, run 0 a s = Exec.outOfFuel
  round : ∀ a s, ∃ s', ∀ n, Exec.Returns (run (n + 1) a s)
    ↔ safe a ∧ ∀ q, link a q → Exec.Returns (run n q s')

/-- **Such a loop returns** exactly if the walks from its position are finite, and safe
wherever they get to. -/
theorem PanicsAlong.returns_iff {link : α → α → Prop} {safe : α → Prop}
    {run : ℕ → α → σ → Exec ε β} (h : PanicsAlong link safe run) (a : α) (s : σ) :
    (∃ n, Exec.Returns (run n a s))
      ↔ Acc (fun q p => link p q) a ∧ ∀ q, Relation.ReflTransGen link a q → safe q := by
  constructor
  · rintro ⟨n, hret⟩
    induction n generalizing a s with
    | zero =>
      rw [h.zero] at hret
      exact hret.elim
    | succ n ih =>
      obtain ⟨s', hround⟩ := h.round a s
      obtain ⟨hsafe, hnext⟩ := (hround n).mp hret
      refine ⟨⟨a, fun q hq => (ih q s' (hnext q hq)).1⟩, fun q hreach => ?_⟩
      obtain rfl | ⟨p, hp, hpq⟩ := hreach.cases_head
      · exact hsafe
      · exact (ih p s' (hnext p hp)).2 q hpq
  · rintro ⟨hacc, hall⟩
    induction hacc generalizing s with
    | intro a _ ih =>
      obtain ⟨s', hround⟩ := h.round a s
      by_cases hlink : ∃ q, link a q
      · obtain ⟨q, hq⟩ := hlink
        obtain ⟨n, hret⟩ := ih q hq s' fun q' hq' => hall q' (hq'.head hq)
        refine ⟨n + 1, (hround n).mpr ⟨hall a .refl, fun q' hq' => ?_⟩⟩
        rwa [h.unique hq' hq]
      · exact ⟨1, (hround 0).mpr ⟨hall a .refl, fun q hq => (hlink ⟨q, hq⟩).elim⟩⟩
