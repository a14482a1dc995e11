import Mathlib

/-!
# Outcomes of checked computations

A Rust function that returns a `Result` can end in three ways the model has
to tell apart: with a value, with an error of its own type, or with a panic –
an overflowing addition, an index past the end of a slice, a failed
assertion. A recursion that follows data it does not control needs a fourth,
the step budget of the model running out. `Exec` carries them all, so a
statement that a computation *is* `.ok v` says at once that no error was
returned, that nothing panicked and that the budget sufficed.

Arithmetic on machine words is checked: `checkedAdd` and its siblings panic
where the exact result does not fit. A build without overflow checks wraps
there instead, so a computation that ends in `.ok` is the same in both
builds, and one that ends in `.panic` is a fault in both.
-/

/-- **How a computation stops without a value.** -/
inductive Stop (ε : Type) where
  /-- The error the function returns. -/
  | err : ε → Stop ε
  /-- An overflow, an index out of range, a failed assertion. -/
  | panic : Stop ε
  /-- The step budget of the model is spent. -/
  | fuel : Stop ε
deriving DecidableEq, Repr

/-- The outcome of a computation with errors in `ε`. -/
abbrev Exec (ε α : Type) : Type := Except (Stop ε) α

namespace Exec

variable {ε ε' α β : Type}

/-- Whether a computation has a given value is decided whatever its errors
are. -/
instance [DecidableEq α] (x : Exec ε α) (a : α) : Decidable (x = .ok a) :=
  match x with
  | .ok b => decidable_of_iff (b = a) ⟨congrArg _, Except.ok.inj⟩
  | .error _ => isFalse (fun h => nomatch h)

/-- Return an error. -/
def fail (e : ε) : Exec ε α := .error (.err e)

/-- Panic. -/
def panicked : Exec ε α := .error .panic

/-- Run out of steps. -/
def outOfFuel : Exec ε α := .error .fuel

/-- **A computation that returns**, with a value or with an error of its own. -/
def Returns : Exec ε α → Prop
  | .error .panic => False
  | .error .fuel => False
  | _ => True

instance (x : Exec ε α) : Decidable (Exec.Returns x) :=
  match x with
  | .ok _ => isTrue trivial
  | .error (.err _) => isTrue trivial
  | .error .panic => isFalse id
  | .error .fuel => isFalse id

/-- The value of an option, or an error. -/
def okOr (o : Option α) (e : ε) : Exec ε α :=
  match o with
  | some a => .ok a
  | none => fail e

/-- Convert the error, as the `?` operator does between error types. -/
def mapErr (f : ε → ε') : Exec ε α → Exec ε' α
  | .ok a => .ok a
  | .error (.err e) => .error (.err (f e))
  | .error .panic => .error .panic
  | .error .fuel => .error .fuel

@[simp] theorem mapErr_ok (f : ε → ε') (a : α) :
    mapErr f (.ok a : Exec ε α) = .ok a := rfl

@[simp] theorem mapErr_err (f : ε → ε') (e : ε) :
    mapErr f (.error (.err e) : Exec ε α) = .error (.err (f e)) := rfl

@[simp] theorem mapErr_panic (f : ε → ε') :
    mapErr f (.error .panic : Exec ε α) = .error .panic := rfl

@[simp] theorem mapErr_fuel (f : ε → ε') :
    mapErr f (.error .fuel : Exec ε α) = .error .fuel := rfl

/-- Converting the error changes no value. -/
@[simp] theorem mapErr_eq_ok_iff (f : ε → ε') (x : Exec ε α) (a : α) :
    mapErr f x = .ok a ↔ x = .ok a := by
  match x with
  | .ok b => simp
  | .error (.err e) => simp
  | .error .panic => simp
  | .error .fuel => simp

@[simp] theorem ok_bind (a : α) (f : α → Exec ε β) :
    (Except.ok a >>= f : Exec ε β) = f a := rfl

@[simp] theorem error_bind (s : Stop ε) (f : α → Exec ε β) :
    ((.error s : Exec ε α) >>= f) = .error s := rfl

@[simp] theorem pure_eq_ok (a : α) : (pure a : Exec ε α) = .ok a := rfl

/-- **A sequence has a value when both its steps have one.** -/
theorem bind_eq_ok_iff (x : Exec ε α) (f : α → Exec ε β) (b : β) :
    (x >>= f) = .ok b ↔ ∃ a, x = .ok a ∧ f a = .ok b := by
  cases x with
  | ok a => simp
  | error s => simp

/-- **A sequence panics** where one of its steps does. -/
theorem bind_eq_panicked_iff (x : Exec ε α) (f : α → Exec ε β) :
    (x >>= f) = panicked ↔ x = panicked ∨ ∃ a, x = .ok a ∧ f a = panicked := by
  cases x with
  | ok a => simp [panicked]
  | error s => simp [panicked]

/-- **A loop that collects values** has one when each of its rounds has. -/
theorem mapM_eq_ok_iff (f : α → Exec ε β) (l : List α) (r : List β) :
    l.mapM f = .ok r ↔ List.Forall₂ (fun a b => f a = .ok b) l r := by
  induction l generalizing r with
  | nil =>
    rw [List.mapM_nil, pure_eq_ok, Except.ok.injEq, List.forall₂_nil_left_iff,
      eq_comm]
  | cons a l ih =>
    rw [List.mapM_cons, List.forall₂_cons_left_iff, bind_eq_ok_iff]
    constructor
    · rintro ⟨b, hb, h⟩
      obtain ⟨bs, hbs, h⟩ := (bind_eq_ok_iff _ _ _).mp h
      exact ⟨b, bs, hb, (ih bs).mp hbs, (Except.ok.inj h).symm⟩
    · rintro ⟨b, bs, hb, hbs, rfl⟩
      exact ⟨b, hb, (bind_eq_ok_iff _ _ _).mpr ⟨bs, (ih bs).mpr hbs, rfl⟩⟩

/-- A loop whose rounds all have a value has one. -/
theorem exists_mapM_eq_ok (f : α → Exec ε β) (l : List α)
    (h : ∀ a ∈ l, ∃ b, f a = .ok b) : ∃ r, l.mapM f = .ok r := by
  simp only [mapM_eq_ok_iff]
  induction l with
  | nil => exact ⟨[], .nil⟩
  | cons a l ih =>
    obtain ⟨b, hb⟩ := h a List.mem_cons_self
    obtain ⟨r, hr⟩ := ih fun a ha => h a (List.mem_cons_of_mem _ ha)
    exact ⟨b :: r, .cons hb hr⟩

/-- A loop whose rounds are known to have these values collects them. -/
theorem mapM_eq_ok_map {f : α → Exec ε β} {g : α → β} {l : List α}
    (h : ∀ a ∈ l, f a = .ok (g a)) : l.mapM f = .ok (l.map g) := by
  rw [mapM_eq_ok_iff, List.forall₂_map_right_iff, List.forall₂_same]
  exact h

/-- **What every round keeps**, with what the loop has gone through so far, holds when it
has a value. -/
theorem foldlM_eq_ok_induct {f : β → α → Exec ε β} {l : List α} {P : List α → β → Prop}
    (hstep : ∀ front a rest b b', l = front ++ a :: rest → P front b → f b a = .ok b' →
      P (front ++ [a]) b') {b b' : β} (hnil : P [] b) (h : l.foldlM f b = .ok b') : P l b' := by
  suffices hrest : ∀ rest front b, l = front ++ rest → P front b → rest.foldlM f b = .ok b' →
      P l b' from hrest l [] b rfl hnil h
  intro rest
  induction rest with
  | nil =>
    rintro front b hsplit hfront hb
    obtain rfl := Except.ok.inj hb
    rwa [hsplit, List.append_nil]
  | cons a rest ih =>
    intro front b hsplit hfront hb
    rw [List.foldlM_cons] at hb
    obtain ⟨b₁, hb₁, hb⟩ := (bind_eq_ok_iff _ _ _).mp hb
    refine ih (front ++ [a]) b₁ ?_ (hstep front a rest b b₁ hsplit hfront hb₁) hb
    rw [hsplit, List.append_assoc]
    rfl

/-! ### Computations within their budget -/

/-- A sequence stays within the budget when both its steps do. -/
theorem bind_ne_outOfFuel {x : Exec ε α} {f : α → Exec ε β} (hx : x ≠ outOfFuel)
    (hf : ∀ a, x = .ok a → f a ≠ outOfFuel) : (x >>= f) ≠ outOfFuel := by
  match x with
  | .ok a => exact hf a rfl
  | .error e => exact fun h => hx (congrArg Except.error (Except.error.inj h))

theorem mapErr_ne_outOfFuel (f : ε → ε') {x : Exec ε α} (hx : x ≠ outOfFuel) :
    mapErr f x ≠ outOfFuel := by
  match x with
  | .ok a => exact fun h => nomatch h
  | .error (.err e) => exact fun h => nomatch h
  | .error .panic => exact fun h => nomatch h
  | .error .fuel => exact absurd rfl hx

theorem ok_ne_outOfFuel (a : α) : (.ok a : Exec ε α) ≠ outOfFuel := fun h => nomatch h

theorem fail_ne_outOfFuel (e : ε) : (fail e : Exec ε α) ≠ outOfFuel := fun h => nomatch h

theorem panicked_ne_outOfFuel : (panicked : Exec ε α) ≠ outOfFuel := fun h => nomatch h

theorem error_ne_outOfFuel {x : Exec ε α} {e : Stop ε} (hx : x ≠ outOfFuel)
    (h : x = .error e) : (.error e : Exec ε β) ≠ outOfFuel :=
  fun heq => hx (h.trans (congrArg Except.error (Except.error.inj heq)))

theorem okOr_ne_outOfFuel (o : Option α) (e : ε) : okOr o e ≠ outOfFuel := by
  cases o with
  | none => exact fail_ne_outOfFuel e
  | some a => exact ok_ne_outOfFuel a

/-- So does a loop, when all its rounds do. -/
theorem foldlM_ne_outOfFuel {f : β → α → Exec ε β} {l : List α}
    (h : ∀ a ∈ l, ∀ b, f b a ≠ outOfFuel) (b : β) : l.foldlM f b ≠ outOfFuel := by
  induction l generalizing b with
  | nil => exact ok_ne_outOfFuel b
  | cons a l ih =>
    rw [List.foldlM_cons]
    obtain ⟨hfirst, hrest⟩ := List.forall_mem_cons.mp h
    exact bind_ne_outOfFuel (hfirst b) fun b' _ => ih hrest b'

theorem mapM_ne_outOfFuel {f : α → Exec ε β} {l : List α} (h : ∀ a ∈ l, f a ≠ outOfFuel) :
    l.mapM f ≠ outOfFuel := by
  induction l with
  | nil => exact ok_ne_outOfFuel []
  | cons a l ih =>
    rw [List.mapM_cons]
    obtain ⟨hfirst, hrest⟩ := List.forall_mem_cons.mp h
    refine bind_ne_outOfFuel hfirst fun b _ => ?_
    exact bind_ne_outOfFuel (ih hrest) fun bs _ => ok_ne_outOfFuel (b :: bs)

/-- A checked computation stays within the budget. -/
theorem ite_panicked_ne_outOfFuel (p : Prop) [Decidable p] (a : α) :
    (if p then .ok a else panicked : Exec ε α) ≠ outOfFuel := by
  split
  · exact ok_ne_outOfFuel a
  · exact panicked_ne_outOfFuel

@[simp] theorem okOr_eq_ok_iff (o : Option α) (e : ε) (a : α) :
    okOr o e = .ok a ↔ o = some a := by
  cases o with
  | none => simp [okOr, fail]
  | some b => simp [okOr]

/-! ### Computations that return -/

theorem returns_ok (a : α) : Exec.Returns (.ok a : Exec ε α) := trivial

theorem returns_fail (e : ε) : Exec.Returns (fail e : Exec ε α) := trivial

theorem not_returns_panicked : ¬ Exec.Returns (panicked : Exec ε α) := id

/-- **A sequence returns** when its first step does, and the second one where it is
reached. -/
theorem returns_bind_iff (x : Exec ε α) (f : α → Exec ε β) :
    Exec.Returns (x >>= f) ↔ Exec.Returns x ∧ ∀ a, x = .ok a → Exec.Returns (f a) := by
  match x with
  | .ok a => exact ⟨fun h => ⟨trivial, fun _ heq => Except.ok.inj heq ▸ h⟩, fun h => h.2 a rfl⟩
  | .error (.err e) => exact ⟨fun _ => ⟨trivial, fun _ heq => (nomatch heq)⟩, fun _ => trivial⟩
  | .error .panic => exact ⟨fun h => h.elim, fun h => h.1.elim⟩
  | .error .fuel => exact ⟨fun h => h.elim, fun h => h.1.elim⟩

theorem returns_okOr_bind_iff (o : Option α) (e : ε) (f : α → Exec ε β) :
    Exec.Returns (okOr o e >>= f) ↔ ∀ a, o = some a → Exec.Returns (f a) := by
  cases o with
  | none => exact ⟨fun _ _ heq => (nomatch heq), fun _ => trivial⟩
  | some a => exact ⟨fun h _ heq => Option.some.inj heq ▸ h, fun h => h a rfl⟩

end Exec

/-- The points of `start..stop` at distance `step`, as `step_by` visits
them. -/
def stepBy (start stop step : ℕ) : List ℕ :=
  List.range' start ((stop - start + step - 1) / step) step

@[simp] theorem length_stepBy (start stop step : ℕ) :
    (stepBy start stop step).length = (stop - start + step - 1) / step :=
  List.length_range'

theorem getElem_stepBy (start stop step i : ℕ)
    (hi : i < (stepBy start stop step).length) :
    (stepBy start stop step)[i] = start + step * i := List.getElem_range' ..

/-! ## Checked arithmetic on machine words -/

section Checked

variable {ε : Type} {w : ℕ}

/-- `a + b`, where the exact sum fits. -/
def checkedAdd (a b : BitVec w) : Exec ε (BitVec w) :=
  if a.toNat + b.toNat < 2 ^ w then .ok (a + b) else Exec.panicked

/-- `a - b`, where the exact difference fits. -/
def checkedSub (a b : BitVec w) : Exec ε (BitVec w) :=
  if b.toNat ≤ a.toNat then .ok (a - b) else Exec.panicked

/-- `a * b`, where the exact product fits. -/
def checkedMul (a b : BitVec w) : Exec ε (BitVec w) :=
  if a.toNat * b.toNat < 2 ^ w then .ok (a * b) else Exec.panicked

/-- `a + n` for a length `n`, where the exact sum fits. -/
def checkedAddNat (a : BitVec w) (n : ℕ) : Exec ε (BitVec w) :=
  if a.toNat + n < 2 ^ w then .ok (a + BitVec.ofNat w n) else Exec.panicked

/-- An unsigned word plus a signed one, where the exact sum fits the unsigned
range. -/
def checkedAddSigned (a b : BitVec w) : Exec ε (BitVec w) :=
  if 0 ≤ (a.toNat : ℤ) + b.toInt ∧ (a.toNat : ℤ) + b.toInt < 2 ^ w
    then .ok (a + b) else Exec.panicked

/-- Signed addition, where the exact sum fits the signed range. -/
def checkedAddInt (a b : BitVec w) : Exec ε (BitVec w) :=
  if a.toInt + b.toInt = (a + b).toInt then .ok (a + b) else Exec.panicked

theorem checkedAdd_eq_ok {a b : BitVec w} (h : a.toNat + b.toNat < 2 ^ w) :
    (checkedAdd a b : Exec ε (BitVec w)) = .ok (a + b) := if_pos h

theorem checkedAdd_eq_ok_iff (a b c : BitVec w) :
    (checkedAdd a b : Exec ε (BitVec w)) = .ok c
      ↔ a.toNat + b.toNat < 2 ^ w ∧ a + b = c := by
  unfold checkedAdd
  by_cases h : a.toNat + b.toNat < 2 ^ w
  · simp [h]
  · simp [h, Exec.panicked]

theorem checkedAdd_ne_outOfFuel (a b : BitVec w) :
    (checkedAdd a b : Exec ε (BitVec w)) ≠ Exec.outOfFuel := Exec.ite_panicked_ne_outOfFuel _ _

/-- **Going on with a sum** that fits, and panicking otherwise. -/
theorem checkedAdd_bind_eq {α : Type} {a b : BitVec w} {f : BitVec w → Exec ε α} {x : Exec ε α}
    (hfits : a.toNat + b.toNat < 2 ^ w → f (a + b) = x)
    (hnot : ¬ a.toNat + b.toNat < 2 ^ w → x = Exec.panicked) : (checkedAdd a b >>= f) = x := by
  by_cases h : a.toNat + b.toNat < 2 ^ w
  · rw [checkedAdd_eq_ok h]
    exact hfits h
  · rw [hnot h, checkedAdd, if_neg h]
    rfl

theorem returns_checkedAdd_bind_iff {α : Type} (a b : BitVec w) (f : BitVec w → Exec ε α) :
    Exec.Returns (checkedAdd a b >>= f)
      ↔ a.toNat + b.toNat < 2 ^ w ∧ Exec.Returns (f (a + b)) := by
  by_cases h : a.toNat + b.toNat < 2 ^ w
  · rw [checkedAdd_eq_ok h, Exec.ok_bind]
    exact (and_iff_right h).symm
  · rw [checkedAdd, if_neg h]
    exact ⟨fun hret => hret.elim, fun hand => absurd hand.1 h⟩

/-- A sum that is gone on with has to fit. -/
theorem exists_checkedAdd_bind_eq_ok_iff {α : Type} (a b : BitVec w)
    (f : BitVec w → Exec ε α) (Q : α → Prop) :
    (∃ res, (checkedAdd a b >>= f) = .ok res ∧ Q res)
      ↔ a.toNat + b.toNat < 2 ^ w ∧ ∃ res, f (a + b) = .ok res ∧ Q res := by
  by_cases h : a.toNat + b.toNat < 2 ^ w
  · rw [checkedAdd_eq_ok h, Exec.ok_bind]
    exact (and_iff_right h).symm
  · rw [checkedAdd, if_neg h]
    exact iff_of_false (fun ⟨_, h, _⟩ => nomatch h) fun hand => h hand.1

/-- A checked sum is the exact sum. -/
theorem toNat_add_of_lt {a b : BitVec w} (h : a.toNat + b.toNat < 2 ^ w) :
    (a + b).toNat = a.toNat + b.toNat := by
  rw [BitVec.toNat_add, Nat.mod_eq_of_lt h]

theorem checkedSub_eq_ok {a b : BitVec w} (h : b.toNat ≤ a.toNat) :
    (checkedSub a b : Exec ε (BitVec w)) = .ok (a - b) := if_pos h

theorem checkedSub_eq_ok_iff (a b c : BitVec w) :
    (checkedSub a b : Exec ε (BitVec w)) = .ok c
      ↔ b.toNat ≤ a.toNat ∧ a - b = c := by
  unfold checkedSub
  by_cases h : b.toNat ≤ a.toNat
  · simp [h]
  · simp [h, Exec.panicked]

theorem checkedSub_ne_outOfFuel (a b : BitVec w) :
    (checkedSub a b : Exec ε (BitVec w)) ≠ Exec.outOfFuel := Exec.ite_panicked_ne_outOfFuel _ _

/-- A checked difference is the exact difference. -/
theorem toNat_sub_of_le {a b : BitVec w} (h : b.toNat ≤ a.toNat) :
    (a - b).toNat = a.toNat - b.toNat := by
  rw [BitVec.toNat_sub]
  have ha := a.isLt
  have hb := b.isLt
  rw [show 2 ^ w - b.toNat + a.toNat = a.toNat - b.toNat + 2 ^ w by omega,
    Nat.add_mod_right, Nat.mod_eq_of_lt (by omega)]

theorem checkedAddNat_eq_ok {a : BitVec w} {n : ℕ} (h : a.toNat + n < 2 ^ w) :
    (checkedAddNat a n : Exec ε (BitVec w)) = .ok (a + BitVec.ofNat w n) :=
  if_pos h

/-- A checked offset is the exact sum. -/
theorem toNat_add_ofNat_of_lt {a : BitVec w} {n : ℕ} (h : a.toNat + n < 2 ^ w) :
    (a + BitVec.ofNat w n).toNat = a.toNat + n := by
  rw [BitVec.toNat_add, BitVec.toNat_ofNat, Nat.add_mod_mod, Nat.mod_eq_of_lt h]

theorem checkedMul_eq_ok {a b : BitVec w} (h : a.toNat * b.toNat < 2 ^ w) :
    (checkedMul a b : Exec ε (BitVec w)) = .ok (a * b) := if_pos h

/-- A checked product is the exact product. -/
theorem toNat_mul_of_lt {a b : BitVec w} (h : a.toNat * b.toNat < 2 ^ w) :
    (a * b).toNat = a.toNat * b.toNat := by
  rw [BitVec.toNat_mul, Nat.mod_eq_of_lt h]

theorem checkedAddSigned_eq_ok_iff (a b c : BitVec w) :
    (checkedAddSigned a b : Exec ε (BitVec w)) = .ok c
      ↔ (0 ≤ (a.toNat : ℤ) + b.toInt ∧ (a.toNat : ℤ) + b.toInt < 2 ^ w)
        ∧ a + b = c := by
  unfold checkedAddSigned
  by_cases h : 0 ≤ (a.toNat : ℤ) + b.toInt ∧ (a.toNat : ℤ) + b.toInt < 2 ^ w
  · simp [h]
  · simp [h, Exec.panicked]

/-- A checked sum of an unsigned and a signed word is the exact sum. -/
theorem toNat_add_of_signed {a b : BitVec w}
    (h : 0 ≤ (a.toNat : ℤ) + b.toInt ∧ (a.toNat : ℤ) + b.toInt < 2 ^ w) :
    ((a + b).toNat : ℤ) = a.toNat + b.toInt := by
  have hmod : ((a + b).toNat : ℤ) = ((a.toNat : ℤ) + b.toNat) % 2 ^ w := by
    rw [BitVec.toNat_add]
    push_cast
    rfl
  have hcong : ((a.toNat : ℤ) + b.toNat) % 2 ^ w
      = ((a.toNat : ℤ) + b.toInt) % 2 ^ w := by
    rw [BitVec.toInt_eq_toNat_cond]
    split
    · rfl
    · push_cast
      rw [← Int.add_sub_assoc, Int.sub_emod_right]
  rw [hmod, hcong, Int.emod_eq_of_lt h.1 h.2]

theorem checkedAddInt_eq_ok_iff (a b c : BitVec w) :
    (checkedAddInt a b : Exec ε (BitVec w)) = .ok c
      ↔ a.toInt + b.toInt = (a + b).toInt ∧ a + b = c := by
  unfold checkedAddInt
  by_cases h : a.toInt + b.toInt = (a + b).toInt
  · rw [if_pos h]
    exact ⟨fun heq => ⟨h, Except.ok.inj heq⟩, fun heq => congrArg Except.ok heq.2⟩
  · rw [if_neg h]
    exact ⟨fun heq => absurd heq (by rintro ⟨⟩), fun heq => absurd heq.1 h⟩

/-- A signed sum of 64-bit words that fits is the exact sum. -/
theorem toInt_add_eq_iff (a b : BitVec 64) :
    a.toInt + b.toInt = (a + b).toInt
      ↔ -2 ^ 63 ≤ a.toInt + b.toInt ∧ a.toInt + b.toInt < 2 ^ 63 := by
  rw [BitVec.toInt_add]
  constructor
  · intro h
    have hlo := Int.le_bmod (x := a.toInt + b.toInt) (m := 2 ^ 64) (by decide)
    have hhi := Int.bmod_lt (x := a.toInt + b.toInt) (m := 2 ^ 64) (by decide)
    omega
  · rintro ⟨hlo, hhi⟩
    exact (Int.bmod_eq_of_le (by omega) (by omega)).symm

end Checked
