import Vminer.Exec

/-!
# First points and first occurrences

Two general notions of searching. The first is the least point of a
half-open interval at which a predicate holds: `FirstIn P lo hi r` says that
`r` is that point, or that it is `none` and there is no such point. It is
stated once and then composed – an interval without a point may be put in
front (`FirstIn.of_none`), an interval after a point is irrelevant
(`FirstIn.of_some`), and a scan over consecutive blocks that stops at the
first hit finds the first point of their union (`firstIn_findSomeM?`).

The second is the least position at which a list occurs inside another one
(`findSub`), which is what a substring finder returns.
-/

/-! ## The first point of an interval -/

section FirstIn

variable {α : Type} [LinearOrder α] {P Q : α → Prop} {lo mid hi : α}

/-- **`r` is the first point of `[lo, hi)` where `P` holds**, `none` if there
is none. -/
def FirstIn (P : α → Prop) (lo hi : α) : Option α → Prop
  | none => ∀ x, lo ≤ x → x < hi → ¬ P x
  | some m => IsLeast {x | lo ≤ x ∧ x < hi ∧ P x} m

/-- An interval without a point may be put in front. -/
theorem FirstIn.of_none {r : Option α} (hlo : lo ≤ mid)
    (h : FirstIn P lo mid none) (h' : FirstIn P mid hi r) :
    FirstIn P lo hi r := by
  cases r with
  | none =>
    intro x hx hx'
    by_cases hm : x < mid
    · exact h x hx hm
    · exact h' x (not_lt.mp hm) hx'
  | some m =>
    obtain ⟨⟨hm, hm', hP⟩, hleast⟩ := h'
    refine ⟨⟨hlo.trans hm, hm', hP⟩, ?_⟩
    rintro x ⟨hx, hx', hPx⟩
    by_cases hxm : x < mid
    · exact absurd hPx (h x hx hxm)
    · exact hleast ⟨not_lt.mp hxm, hx', hPx⟩

/-- What comes after a first point does not matter. -/
theorem FirstIn.of_some {m : α} (hhi : mid ≤ hi)
    (h : FirstIn P lo mid (some m)) : FirstIn P lo hi (some m) := by
  obtain ⟨⟨hm, hm', hP⟩, hleast⟩ := h
  refine ⟨⟨hm, lt_of_lt_of_le hm' hhi, hP⟩, ?_⟩
  rintro x ⟨hx, hx', hPx⟩
  by_cases hxm : x < mid
  · exact hleast ⟨hx, hxm, hPx⟩
  · exact (lt_of_lt_of_le hm' (not_lt.mp hxm)).le

/-- Only the points of the interval matter. -/
theorem FirstIn.congr {r : Option α}
    (h : ∀ x, lo ≤ x → x < hi → (P x ↔ Q x)) (hP : FirstIn P lo hi r) :
    FirstIn Q lo hi r := by
  cases r with
  | none => exact fun x hx hx' hQ => hP x hx hx' ((h x hx hx').mpr hQ)
  | some m =>
    obtain ⟨⟨hm, hm', hPm⟩, hleast⟩ := hP
    refine ⟨⟨hm, hm', (h m hm hm').mp hPm⟩, ?_⟩
    rintro x ⟨hx, hx', hQx⟩
    exact hleast ⟨hx, hx', (h x hx hx').mpr hQx⟩

/-- **A scan over consecutive blocks that stops at the first hit finds the
first point of their union.** Block `i` is `[b i, b (i + 1))`; the entries
`l` are those of the blocks from `k` on, and `num` is the point a hit stands
for. -/
theorem firstIn_findSomeM? {ε β γ : Type} {b : ℕ → α} (hb : Monotone b)
    {f : β × ℕ → Exec ε (Option γ)} (num : γ → α) (l : List β) (k : ℕ)
    (h : ∀ i, (hi : i < l.length) → ∃ r, f (l[i], k + i) = .ok r
      ∧ FirstIn P (b (k + i)) (b (k + i + 1)) (r.map num)) :
    ∃ r, (l.zipIdx k).findSomeM? f = .ok r
      ∧ FirstIn P (b k) (b (k + l.length)) (r.map num) := by
  induction l generalizing k with
  | nil =>
    refine ⟨none, rfl, ?_⟩
    intro x hx hx'
    exact absurd hx' (not_lt.mpr hx)
  | cons e l ih =>
    obtain ⟨r, hr, hfirst⟩ := h 0 (by simp)
    obtain ⟨r', hr', hrest⟩ := ih (k + 1) (fun i hi => by
      have hi' := h (i + 1) (by simpa using hi)
      rw [List.getElem_cons_succ, show k + (i + 1) = k + 1 + i by omega] at hi'
      exact hi')
    rw [List.getElem_cons_zero, Nat.add_zero] at hr
    rw [List.zipIdx_cons, List.findSomeM?, hr, Exec.ok_bind, List.length_cons,
      show k + (l.length + 1) = k + 1 + l.length by omega]
    cases r with
    | none =>
      exact ⟨r', hr', FirstIn.of_none (hb (Nat.le_succ k)) hfirst hrest⟩
    | some m =>
      exact ⟨some m, rfl, FirstIn.of_some (hb (by omega)) hfirst⟩

end FirstIn

/-- Leaving out the first entries of a numbered list numbers the rest. -/
theorem drop_zipIdx {α : Type} (l : List α) (k i : ℕ) :
    (l.zipIdx k).drop i = (l.drop i).zipIdx (k + i) := by
  induction l generalizing k i with
  | nil => rw [List.zipIdx_nil, List.drop_nil, List.drop_nil, List.zipIdx_nil]
  | cons a l ih =>
    cases i with
    | zero => rfl
    | succ i =>
      rw [List.zipIdx_cons, List.drop_succ_cons, ih, List.drop_succ_cons,
        show k + 1 + i = k + (i + 1) by omega]

/-- A filter before a scan is a test inside it. -/
theorem findSomeM?_filter {ε α β : Type} (p : α → Bool)
    (f : α → Exec ε (Option β)) (l : List α) :
    (l.filter p).findSomeM? f
      = l.findSomeM? (fun a => if p a then f a else .ok none) := by
  induction l with
  | nil => rfl
  | cons a l ih =>
    rw [List.filter_cons, List.findSomeM?]
    by_cases h : p a = true
    · rw [if_pos h, if_pos h, List.findSomeM?, ih]
    · rw [if_neg h, if_neg h, ih]
      rfl

/-! ## The first occurrence of a list in another -/

section FindSub

variable {α : Type} [DecidableEq α]

/-- **The least position at which `needle` occurs in `hay`.** -/
def findSub (needle hay : List α) : Option ℕ :=
  (List.range (hay.length + 1)).find?
    (fun i => decide (needle <+: hay.drop i))

/-- What a finder returns is the first occurrence. -/
theorem findSub_eq_some_iff {needle hay : List α} {i : ℕ} :
    findSub needle hay = some i
      ↔ i ≤ hay.length ∧ needle <+: hay.drop i
        ∧ ∀ j < i, ¬ needle <+: hay.drop j := by
  unfold findSub
  rw [List.find?_range_eq_some]
  simp only [decide_eq_true_eq, List.mem_range, Bool.not_eq_true',
    decide_eq_false_iff_not, Nat.lt_succ_iff]
  exact ⟨fun ⟨h₁, h₂, h₃⟩ => ⟨h₂, h₁, h₃⟩, fun ⟨h₁, h₂, h₃⟩ => ⟨h₂, h₁, h₃⟩⟩

/-- A finder returns nothing exactly where there is no occurrence. -/
theorem findSub_eq_none_iff {needle hay : List α} :
    findSub needle hay = none
      ↔ ∀ i ≤ hay.length, ¬ needle <+: hay.drop i := by
  unfold findSub
  rw [List.find?_range_eq_none]
  simp only [Bool.not_eq_true', decide_eq_false_iff_not, Nat.lt_succ_iff]

omit [DecidableEq α] in
/-- An occurrence of a non-empty list begins inside. -/
theorem lt_length_of_prefix_drop {needle hay : List α} {i : ℕ}
    (hne : needle ≠ []) (h : needle <+: hay.drop i) : i < hay.length := by
  have hlen := h.length_le
  rw [List.length_drop] at hlen
  have hpos := List.length_pos_of_ne_nil hne
  omega

/-- **A finder finds the first occurrence among the points of a range.** -/
theorem firstIn_findSub {needle : List α} (hay : List α) (hne : needle ≠ [])
    (lo : ℕ) :
    FirstIn (fun x => needle <+: hay.drop (x - lo)) lo (lo + hay.length)
      ((findSub needle hay).map (lo + ·)) := by
  cases h : findSub needle hay with
  | none =>
    intro x hx hx'
    exact findSub_eq_none_iff.mp h (x - lo) (by omega)
  | some i =>
    obtain ⟨-, hocc, hleast⟩ := findSub_eq_some_iff.mp h
    have hi := lt_length_of_prefix_drop hne hocc
    show IsLeast _ (lo + i)
    refine ⟨⟨Nat.le_add_right lo i, by omega, ?_⟩, ?_⟩
    · show needle <+: hay.drop (lo + i - lo)
      rw [Nat.add_sub_cancel_left]
      exact hocc
    · rintro x ⟨hx, hx', hoccx⟩
      by_contra hlt
      exact hleast (x - lo) (by omega) hoccx

end FindSub

/-- `memmem::find_iter`: where a needle occurs, from some position on; an
occurrence is not looked for in the one before. -/
def findIter (needle : List UInt8) : ℕ → ℕ → List UInt8 → List ℕ
  | _, _, [] => []
  | i, skip + 1, _ :: hay => findIter needle (i + 1) skip hay
  | i, 0, b :: hay =>
    if needle <+: b :: hay then i :: findIter needle (i + 1) (needle.length - 1) hay
    else findIter needle (i + 1) 0 hay

section FindIter

variable {b : UInt8} {needle : List UInt8}

/-- The occurrences are found from the position on. -/
theorem le_of_mem_findIter {needle hay : List UInt8} {i skip j : ℕ}
    (h : j ∈ findIter needle i skip hay) : i ≤ j := by
  induction hay generalizing i skip with
  | nil => exact absurd h (by simp [findIter])
  | cons c hay ih =>
    cases skip with
    | succ skip => exact Nat.le_of_succ_le (ih h)
    | zero =>
      rw [findIter] at h
      split at h
      · obtain rfl | h := List.mem_cons.mp h
        · exact le_rfl
        · exact Nat.le_of_succ_le (ih h)
      · exact Nat.le_of_succ_le (ih h)

/-- They are found in their order. -/
theorem pairwise_findIter (needle hay : List UInt8) (i skip : ℕ) :
    (findIter needle i skip hay).Pairwise (· < ·) := by
  induction hay generalizing i skip with
  | nil => exact .nil
  | cons c hay ih =>
    cases skip with
    | succ skip => exact ih (i + 1) skip
    | zero =>
      rw [findIter]
      split
      · exact List.pairwise_cons.mpr ⟨fun j hj => le_of_mem_findIter hj, ih _ _⟩
      · exact ih _ _

/-- **All occurrences are found**, of a needle whose first byte does not occur in it
again. -/
theorem mem_findIter_iff (hb : b ∉ needle) (hay : List UInt8) (i skip j : ℕ)
    (hskip : ∀ t < skip, ¬ b :: needle <+: hay.drop t) :
    j ∈ findIter (b :: needle) i skip hay ↔ ∃ t, j = i + t ∧ b :: needle <+: hay.drop t := by
  induction hay generalizing i skip with
  | nil =>
    refine ⟨fun h => absurd h (by simp [findIter]), ?_⟩
    rintro ⟨t, -, hocc⟩
    rw [List.drop_nil] at hocc
    exact absurd (List.prefix_nil.mp hocc) (List.cons_ne_nil _ _)
  | cons c hay ih =>
    have htail : ∀ skip', (∀ t < skip', ¬ b :: needle <+: hay.drop t) →
        (j ∈ findIter (b :: needle) (i + 1) skip' hay
          ↔ ∃ t, j = i + (t + 1) ∧ b :: needle <+: (c :: hay).drop (t + 1)) := by
      intro skip' hskip'
      rw [ih (i + 1) skip' hskip']
      refine exists_congr fun t => ?_
      rw [Nat.add_assoc, Nat.add_comm 1 t]
      exact Iff.rfl
    rw [← Nat.or_exists_add_one]
    cases skip with
    | succ skip =>
      rw [findIter, htail skip fun t ht => hskip (t + 1) (Nat.succ_lt_succ ht)]
      exact (or_iff_right fun h => hskip 0 (Nat.succ_pos _) h.2).symm
    | zero =>
      rw [findIter]
      by_cases hocc : b :: needle <+: c :: hay
      · -- no occurrence begins in the one that was found
        have hrest : ∀ t < needle.length, ¬ b :: needle <+: hay.drop t := by
          intro t ht hocc'
          have hprefix := (List.cons_prefix_cons.mp hocc).2
          have hget := hprefix.getElem ht
          rw [List.drop_eq_getElem_cons (ht.trans_le hprefix.length_le)] at hocc'
          have hhead := (List.cons_prefix_cons.mp hocc').1
          exact hb (hhead ▸ hget ▸ List.getElem_mem ht)
        rw [if_pos hocc, List.mem_cons, List.length_cons, Nat.add_sub_cancel, htail _ hrest]
        exact or_congr_left ⟨fun h => ⟨h, hocc⟩, fun h => h.1⟩
      · rw [if_neg hocc, htail 0 fun t ht => absurd ht (Nat.not_lt_zero _)]
        exact (or_iff_right fun h => hocc h.2).symm

end FindIter
