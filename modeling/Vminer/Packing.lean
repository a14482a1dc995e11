import Mathlib

/-!
# Parts packed one after the other

A list of parts laid out one after the other: the offset of a part is the sum
of the sizes of the parts before it (`offsets`). The ranges of the parts
cover the whole without overlap (`exists_unique_offset`), and what stands at
the offset of a part is the part (`take_drop_flatMap`). Parts of one length
are the blocks of the whole (`forall₂_flatten_iff`). For sizes with a sign,
`PartialSums` says that every sum on the way stays in a range.
-/

/-- The offsets of parts of the given sizes, from `start` on. -/
def offsets : ℕ → List ℕ → List ℕ
  | _, [] => []
  | start, size :: rest => start :: offsets (start + size) rest

@[simp] theorem length_offsets (start : ℕ) (sizes : List ℕ) :
    (offsets start sizes).length = sizes.length := by
  induction sizes generalizing start with
  | nil => rfl
  | cons size rest ih => rw [offsets, List.length_cons, ih, List.length_cons]

/-- **The offset of a part is the sum of the sizes before it.** -/
theorem getElem_offsets (start : ℕ) (sizes : List ℕ) (i : ℕ)
    (hi : i < (offsets start sizes).length) :
    (offsets start sizes)[i] = start + (sizes.take i).sum := by
  induction sizes generalizing start i with
  | nil => exact absurd hi (Nat.not_lt_zero i)
  | cons size rest ih =>
    cases i with
    | zero => rfl
    | succ i =>
      have hi' : i < (offsets (start + size) rest).length := by
        rw [offsets, List.length_cons] at hi
        omega
      show (offsets (start + size) rest)[i] = _
      rw [ih (start + size) i hi', List.take_succ_cons, List.sum_cons]
      omega

/-- A part ends where the whole ends, or before. -/
theorem offset_add_size_le (start : ℕ) (sizes : List ℕ) (i : ℕ)
    (hi : i < sizes.length) :
    start + (sizes.take i).sum + sizes[i] ≤ start + sizes.sum := by
  have hsplit := congrArg List.sum (List.take_append_drop (i + 1) sizes)
  rw [List.sum_append, List.take_add_one, List.getElem?_eq_getElem hi,
    Option.toList_some, List.sum_append, List.sum_singleton] at hsplit
  omega

/-- **The parts cover the whole without overlap**: every place is in exactly
one part. -/
theorem exists_unique_offset (start : ℕ) (sizes : List ℕ) (x : ℕ)
    (hlo : start ≤ x) (hhi : x < start + sizes.sum) :
    ∃! i : Fin sizes.length, start + (sizes.take i).sum ≤ x
      ∧ x < start + (sizes.take i).sum + sizes[i] := by
  induction sizes generalizing start with
  | nil =>
    rw [List.sum_nil] at hhi
    omega
  | cons size rest ih =>
    rw [List.sum_cons] at hhi
    by_cases hfirst : x < start + size
    · refine ⟨⟨0, Nat.succ_pos _⟩, ⟨hlo, hfirst⟩, fun j hj => ?_⟩
      obtain ⟨j, hlt⟩ := j
      cases j with
      | zero => rfl
      | succ j =>
        have hle : start + (size + (rest.take j).sum) ≤ x := hj.1
        omega
    · obtain ⟨i, ⟨hi, hi'⟩, huniq⟩ := ih (start + size) (by omega) (by omega)
      refine ⟨i.succ, ⟨?_, ?_⟩, fun j hj => ?_⟩
      · show start + (size + (rest.take i).sum) ≤ x
        omega
      · show x < start + (size + (rest.take i).sum) + rest[i]
        omega
      · obtain ⟨j, hlt⟩ := j
        cases j with
        | zero =>
          have hlt' : x < start + 0 + size := hj.2
          omega
        | succ j =>
          have hlt' : j < rest.length := Nat.lt_of_succ_lt_succ hlt
          have hj₁ : start + (size + (rest.take j).sum) ≤ x := hj.1
          have hj₂ : x < start + (size + (rest.take j).sum) + rest[j] := hj.2
          have hmem : start + size + (rest.take j).sum ≤ x
              ∧ x < start + size + (rest.take j).sum + rest[j] :=
            ⟨by omega, by omega⟩
          have heq := huniq ⟨j, hlt'⟩ hmem
          exact Fin.ext (congrArg (fun i => i.val + 1) heq)

section FlatMap

variable {α β : Type}

/-- The length of parts laid out one after the other. -/
theorem length_flatMap_eq_sum (f : α → List β) (size : α → ℕ) (l : List α)
    (h : ∀ a ∈ l, (f a).length = size a) :
    (l.flatMap f).length = (l.map size).sum := by
  rw [List.length_flatMap]
  exact congrArg List.sum (List.map_congr_left h)

/-- **At the offset of a part stands the part.** -/
theorem take_drop_flatMap (f : α → List β) (size : α → ℕ) (l : List α)
    (h : ∀ a ∈ l, (f a).length = size a) (i : ℕ) (hi : i < l.length) :
    ((l.flatMap f).drop (((l.map size).take i).sum)).take (size l[i]) = f l[i] := by
  induction l generalizing i with
  | nil => exact absurd hi (Nat.not_lt_zero i)
  | cons a l ih =>
    have ha := h a List.mem_cons_self
    cases i with
    | zero =>
      rw [List.take_zero, List.sum_nil, List.drop_zero, List.flatMap_cons]
      exact List.take_left' ha
    | succ i =>
      have hi' : i < l.length := Nat.lt_of_succ_lt_succ hi
      rw [List.map_cons, List.take_succ_cons, List.sum_cons, List.flatMap_cons,
        ← ha, ← List.drop_drop, List.drop_left]
      exact ih (fun b hb => h b (List.mem_cons_of_mem a hb)) i hi'

end FlatMap

section Blocks

variable {α β : Type}

/-- The `i`-th block of length `k`. -/
def block (l : List β) (k i : ℕ) : List β := (l.drop (i * k)).take k

/-- The blocks after the first are those of what follows it. -/
theorem block_succ (l : List β) (k i : ℕ) : block l k (i + 1) = block (l.drop k) k i := by
  rw [block, block, List.drop_drop, Nat.add_one_mul, Nat.add_comm]

/-- **A list is given by its blocks.** -/
theorem eq_of_block_eq {l l' : List β} {k n : ℕ} (hl : l.length = n * k)
    (hl' : l'.length = n * k) (h : ∀ i < n, block l k i = block l' k i) : l = l' := by
  induction n generalizing l l' with
  | zero =>
    rw [Nat.zero_mul] at hl hl'
    rw [List.eq_nil_of_length_eq_zero hl, List.eq_nil_of_length_eq_zero hl']
  | succ n ih =>
    rw [Nat.add_one_mul] at hl hl'
    have hfirst : l.take k = l'.take k := by
      have h₀ := h 0 (Nat.succ_pos n)
      rwa [block, block, Nat.zero_mul, List.drop_zero, List.drop_zero] at h₀
    have hrest : l.drop k = l'.drop k := by
      refine ih (by rw [List.length_drop]; omega) (by rw [List.length_drop]; omega)
        fun i hi => ?_
      rw [← block_succ, ← block_succ]
      exact h (i + 1) (Nat.succ_lt_succ hi)
    rw [← List.take_append_drop k l, hfirst, hrest, List.take_append_drop]

/-- **Parts of one length are the blocks of the whole.** -/
theorem forall₂_flatten_iff (P : α → List β → Prop) (k : ℕ) (l : List α)
    (whole : List β) :
    (∃ parts, List.Forall₂ (fun a part => P a part ∧ part.length = k) l parts
        ∧ parts.flatten = whole)
      ↔ whole.length = l.length * k
        ∧ ∀ (i : ℕ) (hi : i < l.length), P l[i] (block whole k i) := by
  induction l generalizing whole with
  | nil =>
    simp only [List.forall₂_nil_left_iff, exists_eq_left, List.flatten_nil,
      List.length_nil, Nat.zero_mul, List.length_eq_zero_iff, Nat.not_lt_zero]
    exact ⟨fun h => ⟨h.symm, fun _ h => h.elim⟩, fun h => h.1.symm⟩
  | cons a l ih =>
    constructor
    · rintro ⟨parts, hparts, rfl⟩
      obtain ⟨part, rest, ⟨hpart, hlen⟩, hrest, rfl⟩ := List.forall₂_cons_left_iff.mp hparts
      obtain ⟨hlen', hblocks⟩ := (ih rest.flatten).mp ⟨rest, hrest, rfl⟩
      refine ⟨?_, fun i hi => ?_⟩
      · rw [List.flatten_cons, List.length_append, hlen, hlen', List.length_cons]
        ring
      · cases i with
        | zero =>
          rw [block, Nat.zero_mul, List.drop_zero, List.flatten_cons, List.take_left' hlen]
          exact hpart
        | succ i =>
          rw [block_succ, List.flatten_cons, List.drop_left' hlen]
          exact hblocks i (Nat.lt_of_succ_lt_succ hi)
    · rintro ⟨hlen, hblocks⟩
      rw [List.length_cons, Nat.add_one_mul] at hlen
      obtain ⟨rest, hrest, hflat⟩ := (ih (whole.drop k)).mpr
        ⟨by rw [List.length_drop]; omega, fun i hi => by
          rw [← block_succ]
          exact hblocks (i + 1) (Nat.succ_lt_succ hi)⟩
      have hpart := hblocks 0 (Nat.succ_pos _)
      rw [block, Nat.zero_mul, List.drop_zero] at hpart
      refine ⟨whole.take k :: rest, .cons ⟨hpart, ?_⟩ hrest, ?_⟩
      · rw [List.length_take]
        omega
      · rw [List.flatten_cons, hflat, List.take_append_drop]

end Blocks

/-! ## Sums on the way -/

/-- Every sum of the first few numbers, added to `start`, is in the range. -/
def PartialSums (InRange : ℤ → Prop) (start : ℤ) (l : List ℤ) : Prop :=
  ∀ k < l.length, InRange (start + (l.take (k + 1)).sum)

@[simp] theorem partialSums_nil (InRange : ℤ → Prop) (start : ℤ) :
    PartialSums InRange start [] := fun k hk => absurd hk (Nat.not_lt_zero k)

/-- The sums on the way of a list are its first and those from there on. -/
theorem partialSums_cons (InRange : ℤ → Prop) (start a : ℤ) (l : List ℤ) :
    PartialSums InRange start (a :: l)
      ↔ InRange (start + a) ∧ PartialSums InRange (start + a) l := by
  constructor
  · intro h
    refine ⟨?_, fun k hk => ?_⟩
    · have h₀ := h 0 (Nat.succ_pos _)
      rwa [List.take_succ_cons, List.take_zero, List.sum_singleton] at h₀
    · have hk' := h (k + 1) (Nat.succ_lt_succ hk)
      rwa [List.take_succ_cons, List.sum_cons, ← add_assoc] at hk'
  · rintro ⟨h₀, h⟩ k hk
    rw [List.take_succ_cons, List.sum_cons, ← add_assoc]
    cases k with
    | zero => rwa [List.take_zero, List.sum_nil, add_zero]
    | succ k => exact h k (Nat.lt_of_succ_lt_succ hk)

/-- The last sum is in the range, too. -/
theorem PartialSums.sum {InRange : ℤ → Prop} {start : ℤ} {l : List ℤ}
    (h : PartialSums InRange start l) (hstart : InRange start) :
    InRange (start + l.sum) := by
  induction l generalizing start with
  | nil => rwa [List.sum_nil, add_zero]
  | cons a l ih =>
    obtain ⟨hfirst, hrest⟩ := (partialSums_cons _ _ _ _).mp h
    rw [List.sum_cons, ← add_assoc]
    exact ih hrest hfirst
