import Vminer.Exec

/-!
# Computations on a state that outlives their errors

A computation that acts on something outside the program – a device, a file,
another process – leaves what it has done behind when it stops with an error
or a panic. `Session` is a computation that always ends in a state, whatever
its outcome is; `Session.ensuring` runs a cleanup in that state, as the
destructor of a guard does.

`Session.Triple` is the judgement about such computations: started in a state
of the precondition, the outcome and the state they end in are as the
postcondition says, which speaks of errors as of values. `Session.Keeps` is its
case of an invariant that every outcome keeps.
-/

/-- A computation on states in `σ` with errors in `ε`. -/
def Session (σ ε α : Type) : Type := σ → Exec ε α × σ

namespace Session

variable {σ ε α β : Type}

instance : Monad (Session σ ε) where
  pure a s := (.ok a, s)
  bind x f s :=
    match x s with
    | (.ok a, s) => f a s
    | (.error e, s) => (.error e, s)

/-- A computation that does not look at the state. -/
def lift (x : Exec ε α) : Session σ ε α := fun s => (x, s)

/-- Part of the state. -/
def gets (f : σ → α) : Session σ ε α := fun s => (.ok (f s), s)

def modify (f : σ → σ) : Session σ ε Unit := fun s => (.ok (), f s)

/-- The outcome of a computation as a value; a panic goes on. -/
def attempt (x : Session σ ε α) : Session σ ε (Except ε α) := fun s =>
  match x s with
  | (.ok a, s) => (.ok (.ok a), s)
  | (.error (.err e), s) => (.ok (.error e), s)
  | (.error .panic, s) => (.error .panic, s)
  | (.error .fuel, s) => (.error .fuel, s)

/-- Convert the error. -/
def mapErr (f : ε → ε) (x : Session σ ε α) : Session σ ε α := fun s =>
  (Exec.mapErr f (x s).1, (x s).2)

/-- Whether a computation has not come to its end. -/
def isOutOfFuel : Exec ε α → Bool
  | .error .fuel => true
  | _ => false

/-- What a computation ends with that is followed by a cleanup. -/
def afterCleanup (r : Exec ε α) : Exec ε Unit → Exec ε α
  | .error .panic => .error .panic
  | .error .fuel => .error .fuel
  | _ => r

/-- **A computation and its cleanup**, which runs however the computation stops
and whose errors are dropped. -/
def ensuring (x : Session σ ε α) (cleanup : Session σ ε Unit) : Session σ ε α := fun s =>
  if isOutOfFuel (x s).1 then x s
  else (afterCleanup (x s).1 (cleanup (x s).2).1, (cleanup (x s).2).2)

/-! ## Steps -/

theorem bind_of_ok {x : Session σ ε β} {f : β → Session σ ε α} {s s' : σ} {b : β}
    (h : x s = (.ok b, s')) : (x >>= f) s = f b s' := by
  show (match x s with | (.ok a, s) => f a s | (.error e, s) => (.error e, s)) = f b s'
  rw [h]

theorem bind_of_error {x : Session σ ε β} {f : β → Session σ ε α} {s s' : σ} {e : Stop ε}
    (h : x s = (.error e, s')) : (x >>= f) s = (.error e, s') := by
  show (match x s with | (.ok a, s) => f a s | (.error e, s) => (.error e, s)) = (.error e, s')
  rw [h]

theorem mapErr_of_eq {f : ε → ε} {x : Session σ ε α} {s s' : σ} {r : Exec ε α}
    (h : x s = (r, s')) : mapErr f x s = (Exec.mapErr f r, s') := by
  rw [mapErr, h]

theorem afterCleanup_ne_outOfFuel {r : Exec ε α} {r' : Exec ε Unit} (h : r ≠ Exec.outOfFuel)
    (h' : r' ≠ Exec.outOfFuel) : afterCleanup r r' ≠ Exec.outOfFuel := by
  rcases r' with (e | _ | _) | _
  · exact h
  · exact Exec.panicked_ne_outOfFuel
  · exact absurd rfl h'
  · exact h

/-- A cleanup makes no value of an error. -/
theorem afterCleanup_eq_ok {r : Exec ε α} {r' : Exec ε Unit} {a : α}
    (h : afterCleanup r r' = .ok a) : r = .ok a := by
  rcases r' with (e | _ | _) | _
  · exact h
  · exact absurd h (fun heq => by cases heq)
  · exact absurd h (fun heq => by cases heq)
  · exact h

theorem lift_ok_bind (b : β) (f : β → Session σ ε α) : (lift (.ok b) >>= f) = f b := rfl

/-! ## Judgements -/

/-- **What a computation does** from the states of `P`. -/
def Triple (P : σ → Prop) (x : Session σ ε α) (Q : Exec ε α → σ → Prop) : Prop :=
  ∀ s, P s → Q (x s).1 (x s).2

/-- An invariant that every outcome keeps. -/
def Keeps (I : σ → Prop) (x : Session σ ε α) : Prop := Triple I x fun _ => I

namespace Triple

variable {P P' : σ → Prop} {Q Q' : Exec ε α → σ → Prop}

theorem mono {x : Session σ ε α} (h : Triple P x Q) (hP : ∀ s, P' s → P s)
    (hQ : ∀ r s, Q r s → Q' r s) : Triple P' x Q' :=
  fun s hs => hQ _ _ (h s (hP s hs))

theorem pure {a : α} (h : ∀ s, P s → Q (.ok a) s) :
    Triple P (Pure.pure a : Session σ ε α) Q := h

theorem lift {x : Exec ε α} (h : ∀ s, P s → Q x s) : Triple P (Session.lift x) Q := h

theorem gets {f : σ → α} (h : ∀ s, P s → Q (.ok (f s)) s) : Triple P (Session.gets f) Q := h

theorem modify {f : σ → σ} {Q : Exec ε Unit → σ → Prop} (h : ∀ s, P s → Q (.ok ()) (f s)) :
    Triple P (Session.modify f) Q := h

/-- **One computation after the other**: an error of the first is that of both. -/
theorem bind {x : Session σ ε β} {f : β → Session σ ε α} {R : Exec ε β → σ → Prop}
    (hx : Triple P x R) (hf : ∀ b, Triple (R (.ok b)) (f b) Q)
    (herror : ∀ e s, R (.error e) s → Q (.error e) s) : Triple P (x >>= f) Q := by
  intro s hs
  have hR := hx s hs
  rcases hxs : x s with ⟨e | b, s'⟩
  · rw [hxs] at hR
    rw [bind_of_error hxs]
    exact herror e s' hR
  · rw [hxs] at hR
    rw [bind_of_ok hxs]
    exact hf b s' hR

/-- The outcome as a value, by what the outcome is. -/
theorem attempt {x : Session σ ε α} {R : Exec ε α → σ → Prop}
    {Q : Exec ε (Except ε α) → σ → Prop} (hx : Triple P x R)
    (hok : ∀ a s, R (.ok a) s → Q (.ok (.ok a)) s)
    (herr : ∀ e s, R (.error (.err e)) s → Q (.ok (.error e)) s)
    (hpanic : ∀ s, R Exec.panicked s → Q Exec.panicked s)
    (hfuel : ∀ s, R Exec.outOfFuel s → Q Exec.outOfFuel s) : Triple P x.attempt Q := by
  intro s hs
  have hR := hx s hs
  rw [Session.attempt]
  rcases hxs : x s with ⟨r, s'⟩
  rw [hxs] at hR
  rcases r with (e | _ | _) | a
  · exact herr e s' hR
  · exact hpanic s' hR
  · exact hfuel s' hR
  · exact hok a s' hR

/-- **The cleanup runs in whatever state the computation ends**, unless it does
not end. -/
theorem ensuring {x : Session σ ε α} {cleanup : Session σ ε Unit}
    {R : Exec ε α → σ → Prop} (hx : Triple P x R)
    (hfuel : ∀ s, R Exec.outOfFuel s → Q Exec.outOfFuel s)
    (hclean : ∀ r, r ≠ Exec.outOfFuel →
      Triple (R r) cleanup fun r' s => Q (afterCleanup r r') s) :
    Triple P (x.ensuring cleanup) Q := by
  intro s hs
  have hR := hx s hs
  rw [Session.ensuring]
  by_cases hr : (x s).1 = Exec.outOfFuel
  · rw [hr] at hR
    rw [if_pos (by rw [hr]; rfl), hr]
    exact hfuel _ hR
  · have hnot : ¬ isOutOfFuel (x s).1 := by
      rcases hxs : (x s).1 with (e | _ | _) | a
      · exact Bool.false_ne_true
      · exact Bool.false_ne_true
      · exact absurd hxs hr
      · exact Bool.false_ne_true
    rw [if_neg hnot]
    exact hclean _ hr _ hR

end Triple

namespace Keeps

variable {I : σ → Prop}

theorem pure {a : α} : Keeps I (Pure.pure a : Session σ ε α) := fun _ hs => hs

theorem lift {x : Exec ε α} : Keeps I (Session.lift x) := fun _ hs => hs

theorem gets {f : σ → α} : Keeps I (Session.gets f : Session σ ε α) := fun _ hs => hs

theorem bind {x : Session σ ε β} {f : β → Session σ ε α} (hx : Keeps I x)
    (hf : ∀ b, Keeps I (f b)) : Keeps I (x >>= f) :=
  Triple.bind hx hf fun _ _ hs => hs

theorem attempt {x : Session σ ε α} (hx : Keeps I x) : Keeps I x.attempt :=
  Triple.attempt hx (fun _ _ hs => hs) (fun _ _ hs => hs) (fun _ hs => hs) fun _ hs => hs

end Keeps

end Session
