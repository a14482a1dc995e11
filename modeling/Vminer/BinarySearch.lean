import Vminer.Exec

/-!
# Binary search and sorting

Binary search in a slice, with a comparison that may have effects, and what it
returns for a slice in the order of a key: the place of an element with the key
that was asked for, or the place in front of which all keys are smaller and
behind which all are greater (`IsSearchResult`).

The search is that of the standard library since its version 1.82: it halves the slice until one
element is left, and looks only at that one for equality. In a slice out of order other elements
are compared by a search that stops at the first one that is equal.

Where several elements have the key, any of them may be returned; and a sort
that is not stable arranges elements of equal keys in any order. `SortUnstable`
is such a sort, with what is known of it.
-/

/-! ## The search -/

section BinarySearch

variable {m : Type → Type} [Monad m] {α : Type}

/-- The loop of the search, among `size` elements from `base` on. An element that compares equal
does not end it: the number of rounds depends on the size only. -/
def binarySearchFrom (cmp : α → m Ordering) (xs : List α) : ℕ → ℕ → ℕ → m (Except ℕ ℕ)
  | 0, base, _ => return .error base
  | rounds + 1, base, size =>
    if 1 < size then
      let half := size / 2
      let mid := base + half
      match xs[mid]? with
      | none => return .error base
      | some x => do
        match ← cmp x with
        | .gt => binarySearchFrom cmp xs rounds base (size - half)
        | .lt | .eq => binarySearchFrom cmp xs rounds mid (size - half)
    else
      match xs[base]? with
      | none => return .error base
      | some x => do
        match ← cmp x with
        | .eq => return .ok base
        | .lt => return .error (base + 1)
        | .gt => return .error base

/-- `slice::binary_search_by`: the place of an element that compares equal, or
where one would have to be inserted. The comparison may have effects. -/
def binarySearchBy (cmp : α → m Ordering) (xs : List α) : m (Except ℕ ℕ) :=
  binarySearchFrom cmp xs xs.length 0 xs.length

/-- `slice::binary_search_by_key` -/
def binarySearchByKey {κ : Type} [LinearOrder κ] (key : α → m κ) (k : κ) (xs : List α) :
    m (Except ℕ ℕ) :=
  binarySearchBy (fun x => do
    let k' ← key x
    return compare k' k) xs

/-- A search whose comparisons have no effects. -/
theorem binarySearchFrom_eq_pure [LawfulMonad m] {f : α → m Ordering} {cmp : α → Ordering}
    {xs : List α} (h : ∀ x ∈ xs, f x = pure (cmp x)) (rounds base size : ℕ) :
    binarySearchFrom f xs rounds base size
      = pure (binarySearchFrom (m := Id) cmp xs rounds base size) := by
  induction rounds generalizing base size with
  | zero => rfl
  | succ rounds ih =>
    rw [binarySearchFrom, binarySearchFrom]
    by_cases hsize : 1 < size
    · rw [if_pos hsize, if_pos hsize]
      dsimp only
      cases hget : xs[base + size / 2]? with
      | none => rfl
      | some x =>
        dsimp only
        rw [h x (List.mem_of_getElem? hget), pure_bind]
        cases cmp x with
        | lt => exact ih _ _
        | gt => exact ih _ _
        | eq => exact ih _ _
    · rw [if_neg hsize, if_neg hsize]
      cases hget : xs[base]? with
      | none => rfl
      | some x =>
        dsimp only
        rw [h x (List.mem_of_getElem? hget), pure_bind]
        cases cmp x <;> rfl

end BinarySearch

/-! ## Elements that cannot be compared -/

section Probe

variable {α κ : Type} [LinearOrder κ] {valid : α → Bool} {key : α → κ} {k : κ} {xs : List α}

/-- A comparison that takes an element that cannot be compared for equal, and says that it came
across one. -/
def probe (valid : α → Bool) (key : α → κ) (k : κ) (x : α) : StateM Bool Ordering := do
  if valid x then return compare (key x) k
  else
    set true
    return .eq

/-- **The result of a search that came across no such element**: the two elements beside the
place that is found were compared. -/
def IsProbeResult (valid : α → Bool) (key : α → κ) (k : κ) (xs : List α) : Except ℕ ℕ → Prop
  | .ok i => ∃ x, xs[i]? = some x ∧ valid x = true ∧ key x = k
  | .error i => i ≤ xs.length
      ∧ (i = 0 ∨ ∃ x, xs[i - 1]? = some x ∧ valid x = true ∧ key x < k)
      ∧ (i = xs.length ∨ ∃ x, xs[i]? = some x ∧ valid x = true ∧ k < key x)

theorem probe_of_valid {x : α} (h : valid x = true) :
    probe valid key k x = pure (compare (key x) k) := by
  rw [probe, h]
  rfl

theorem probe_of_not_valid {x : α} (h : valid x = false) :
    probe valid key k x = (do set true; return .eq) := by
  rw [probe, h]
  rfl

/-- Once the search came across such an element, it goes on saying so. -/
theorem corrupted_binarySearchFrom (rounds base size : ℕ) :
    ((binarySearchFrom (probe valid key k) xs rounds base size).run true).2 = true := by
  induction rounds generalizing base size with
  | zero => rfl
  | succ rounds ih =>
    have hprobe : ∀ x, ∃ o, (probe valid key k x).run true = (o, true) := by
      intro x
      cases hvalid : valid x with
      | true => exact ⟨_, by rw [probe_of_valid hvalid]; rfl⟩
      | false => exact ⟨_, by rw [probe_of_not_valid hvalid]; rfl⟩
    rw [binarySearchFrom]
    split
    · dsimp only
      cases xs[base + size / 2]? with
      | none => rfl
      | some x =>
        obtain ⟨o, ho⟩ := hprobe x
        dsimp only
        rw [StateT.run_bind, ho]
        cases o with
        | lt => exact ih _ _
        | eq => exact ih _ _
        | gt => exact ih _ _
    · cases xs[base]? with
      | none => rfl
      | some x =>
        obtain ⟨o, ho⟩ := hprobe x
        dsimp only
        rw [StateT.run_bind, ho]
        cases o <;> rfl

/-- When one element is left, the elements beside it are known to be smaller and greater. -/
theorem isProbeResult_one (rounds : ℕ) {base : ℕ} (hlen : base + 1 ≤ xs.length)
    (hlow : base = 0 ∨ ∃ x, xs[base]? = some x ∧ valid x = true ∧ key x ≤ k)
    (hhigh : base + 1 = xs.length
      ∨ (∃ x, xs[base + 1]? = some x ∧ valid x = true ∧ k < key x)
      ∨ ∃ x, xs[base]? = some x ∧ valid x = true ∧ k < key x)
    {pos : Except ℕ ℕ} {corrupted : Bool}
    (h : (binarySearchFrom (probe valid key k) xs (rounds + 1) base 1).run false
      = (pos, corrupted)) :
    if corrupted then ∃ x ∈ xs, valid x = false else IsProbeResult valid key k xs pos := by
  have hget : xs[base]? = some xs[base] := List.getElem?_eq_getElem (by omega)
  rw [binarySearchFrom, if_neg (Nat.lt_irrefl 1), hget] at h
  dsimp only at h
  cases hvalid : valid xs[base] with
  | false =>
    rw [probe_of_not_valid hvalid] at h
    obtain ⟨-, rfl⟩ := Prod.mk.inj h
    exact ⟨xs[base], List.getElem_mem _, hvalid⟩
  | true =>
    rw [probe_of_valid hvalid, pure_bind] at h
    cases hcmp : compare (key xs[base]) k with
    | lt =>
      rw [hcmp] at h
      obtain ⟨rfl, rfl⟩ := Prod.mk.inj h
      have hless := compare_lt_iff_lt.mp hcmp
      refine ⟨hlen, Or.inr ⟨_, hget, hvalid, hless⟩, hhigh.imp_right fun habove => ?_⟩
      refine habove.resolve_right fun ⟨x, hx, _, hgreater⟩ => ?_
      obtain rfl := Option.some.inj (hget.symm.trans hx)
      exact lt_asymm hless hgreater
    | gt =>
      rw [hcmp] at h
      obtain ⟨rfl, rfl⟩ := Prod.mk.inj h
      have hgreater := compare_gt_iff_gt.mp hcmp
      refine ⟨by omega, Or.inl (hlow.resolve_right fun ⟨x, hx, _, hle⟩ => ?_),
        Or.inr ⟨_, hget, hvalid, hgreater⟩⟩
      obtain rfl := Option.some.inj (hget.symm.trans hx)
      exact absurd hgreater (not_lt.mpr hle)
    | eq =>
      rw [hcmp] at h
      obtain ⟨rfl, rfl⟩ := Prod.mk.inj h
      exact ⟨_, hget, hvalid, compare_eq_iff_eq.mp hcmp⟩

/-- **The loop keeps that the key is not in front of the base**, nor behind the last element: the
element there is greater, or the one before it, which stays in where the size is odd. -/
theorem isProbeResult_from (rounds base size : ℕ) (hpos : 0 < size) (hlen : base + size ≤ xs.length)
    (hrounds : size ≤ rounds)
    (hlow : base = 0 ∨ ∃ x, xs[base]? = some x ∧ valid x = true ∧ key x ≤ k)
    (hhigh : base + size = xs.length
      ∨ (∃ x, xs[base + size]? = some x ∧ valid x = true ∧ k < key x)
      ∨ ∃ x, xs[base + size - 1]? = some x ∧ valid x = true ∧ k < key x)
    {pos : Except ℕ ℕ} {corrupted : Bool}
    (h : (binarySearchFrom (probe valid key k) xs rounds base size).run false = (pos, corrupted)) :
    if corrupted then ∃ x ∈ xs, valid x = false else IsProbeResult valid key k xs pos := by
  induction rounds generalizing base size with
  | zero => omega
  | succ rounds ih =>
    by_cases hsize : 1 < size
    · rw [binarySearchFrom, if_pos hsize] at h
      dsimp only at h
      generalize hmid : base + size / 2 = mid at h
      have hget : xs[mid]? = some xs[mid] := List.getElem?_eq_getElem (by omega)
      rw [hget] at h
      dsimp only at h
      cases hvalid : valid xs[mid] with
      | false =>
        rw [probe_of_not_valid hvalid] at h
        have hcorrupted : corrupted = true :=
          (congrArg Prod.snd h).symm.trans (corrupted_binarySearchFrom rounds mid (size - size / 2))
        rw [hcorrupted, if_pos rfl]
        exact ⟨xs[mid], List.getElem_mem _, hvalid⟩
      | true =>
        rw [probe_of_valid hvalid, pure_bind] at h
        have hend : mid + (size - size / 2) = base + size := by omega
        cases hcmp : compare (key xs[mid]) k with
        | lt =>
          rw [hcmp] at h
          exact ih mid _ (by omega) (by omega) (by omega)
            (Or.inr ⟨_, hget, hvalid, (compare_lt_iff_lt.mp hcmp).le⟩) (hend ▸ hhigh) h
        | eq =>
          rw [hcmp] at h
          exact ih mid _ (by omega) (by omega) (by omega)
            (Or.inr ⟨_, hget, hvalid, (compare_eq_iff_eq.mp hcmp).le⟩) (hend ▸ hhigh) h
        | gt =>
          rw [hcmp] at h
          have hgreater := compare_gt_iff_gt.mp hcmp
          refine ih base _ (by omega) (by omega) (by omega) hlow (Or.inr ?_) h
          obtain heven | hodd : base + (size - size / 2) = mid
              ∨ base + (size - size / 2) - 1 = mid := by omega
          · exact Or.inl ⟨_, heven ▸ hget, hvalid, hgreater⟩
          · exact Or.inr ⟨_, hodd ▸ hget, hvalid, hgreater⟩
    · obtain rfl : size = 1 := by omega
      exact isProbeResult_one rounds hlen hlow hhigh h

/-- **The search comes across an element that cannot be compared, or it was not kept from
finding the place of the key.** -/
theorem isProbeResult_binarySearchBy {pos : Except ℕ ℕ} {corrupted : Bool}
    (h : (binarySearchBy (probe valid key k) xs).run false = (pos, corrupted)) :
    if corrupted then ∃ x ∈ xs, valid x = false else IsProbeResult valid key k xs pos := by
  obtain hlen | hlen := Nat.eq_zero_or_pos xs.length
  · rw [binarySearchBy, hlen] at h
    obtain ⟨rfl, rfl⟩ := Prod.mk.inj h
    exact ⟨Nat.zero_le _, Or.inl rfl, Or.inl hlen.symm⟩
  · exact isProbeResult_from _ _ _ hlen (Nat.zero_add _).le le_rfl (Or.inl rfl)
      (Or.inl (Nat.zero_add _)) h

end Probe

/-! ## What it returns -/

section Sorted

variable {α κ : Type} [LinearOrder κ] {key : α → κ} {k : κ} {xs : List α}

/-- **The result of a search for a key**: where an element with the key is, or
where the keys pass from smaller to greater ones. -/
def IsSearchResult (key : α → κ) (k : κ) (xs : List α) : Except ℕ ℕ → Prop
  | .ok i => ∃ x, xs[i]? = some x ∧ key x = k
  | .error i => i ≤ xs.length ∧ (∀ j x, xs[j]? = some x → (j < i → key x < k) ∧ (i ≤ j → k < key x))

/-- In a sorted list, later elements have greater keys. -/
theorem key_le_of_le (hs : xs.Pairwise fun a b => key a ≤ key b) {i j : ℕ} {x y : α}
    (hij : i ≤ j) (hx : xs[i]? = some x) (hy : xs[j]? = some y) : key x ≤ key y := by
  obtain ⟨hi, rfl⟩ := List.getElem?_eq_some_iff.mp hx
  obtain ⟨hj, rfl⟩ := List.getElem?_eq_some_iff.mp hy
  obtain rfl | hlt := Nat.eq_or_lt_of_le hij
  · exact le_rfl
  · exact List.pairwise_iff_getElem.mp hs i j hi hj hlt

/-- A search in which every element can be compared. -/
theorem isProbeResult_binarySearchByKey (key : α → κ) (k : κ) (xs : List α) :
    IsProbeResult (fun _ => true) key k xs (binarySearchByKey (m := Id) key k xs) := by
  have hpure : binarySearchBy (probe (fun _ => true) key k) xs
      = pure (binarySearchByKey (m := Id) key k xs) :=
    binarySearchFrom_eq_pure (fun x _ => probe_of_valid rfl) _ _ _
  have hrun : (binarySearchBy (probe (fun _ => true) key k) xs).run false
      = (binarySearchByKey (m := Id) key k xs, false) :=
    congrArg (fun search => StateT.run search false) hpure
  exact isProbeResult_binarySearchBy hrun

/-- **The search in a sorted list.** -/
theorem isSearchResult_binarySearchByKey (key : α → κ)
    (hs : xs.Pairwise fun a b => key a ≤ key b) (k : κ) :
    IsSearchResult key k xs (binarySearchByKey (m := Id) key k xs) := by
  have hresult := isProbeResult_binarySearchByKey key k xs
  match binarySearchByKey (m := Id) key k xs, hresult with
  | .ok i, ⟨x, hx, _, hkey⟩ => exact ⟨x, hx, hkey⟩
  | .error i, ⟨hlen, hbelow, habove⟩ =>
    refine ⟨hlen, fun j x hj => ⟨fun hji => ?_, fun hij => ?_⟩⟩
    · obtain ⟨y, hy, _, hless⟩ := hbelow.resolve_left (by omega)
      exact (key_le_of_le hs (Nat.le_sub_one_of_lt hji) hj hy).trans_lt hless
    · have hlt := (List.getElem?_eq_some_iff.mp hj).1
      obtain ⟨y, hy, _, hgreater⟩ := habove.resolve_left (by omega)
      exact hgreater.trans_le (key_le_of_le hs hij hy hj)

/-- What a search by key finds has the key, also in a list that is not sorted. -/
theorem binarySearchByKey_ok {i : ℕ} (h : binarySearchByKey (m := Id) key k xs = Except.ok i) :
    ∃ x, xs[i]? = some x ∧ key x = k := by
  have hresult := isProbeResult_binarySearchByKey key k xs
  rw [h] at hresult
  obtain ⟨x, hx, _, hkey⟩ := hresult
  exact ⟨x, hx, hkey⟩

end Sorted

/-- **A search whose keys are all computed without error** is the search for
these keys. -/
theorem binarySearchByKey_eq_ok {ε α κ : Type} [LinearOrder κ] {f : α → Exec ε κ} {key : α → κ}
    {xs : List α} (h : ∀ x ∈ xs, f x = .ok (key x)) (k : κ) :
    binarySearchByKey f k xs = .ok (binarySearchByKey (m := Id) key k xs) := by
  refine binarySearchFrom_eq_pure (fun x hx => ?_) _ _ _
  rw [h x hx]
  rfl

/-! ## Sorting -/

/-- **A sort that need not be stable**: it arranges the elements in order. -/
structure SortUnstable where
  sort : {α : Type} → (α → α → Bool) → List α → List α
  perm : ∀ {α : Type} (le : α → α → Bool) (l : List α), (sort le l).Perm l
  pairwise : ∀ {α : Type} {le : α → α → Bool},
    (∀ a b c, le a b = true → le b c = true → le a c = true) →
    (∀ a b, (le a b || le b a) = true) → ∀ l, (sort le l).Pairwise fun a b => le a b = true

namespace SortUnstable

/-- A stable sort is one of them. -/
def stable : SortUnstable where
  sort le l := l.mergeSort le
  perm le l := List.mergeSort_perm l le
  pairwise htrans htotal l := List.pairwise_mergeSort htrans htotal l

variable {α κ : Type} [LinearOrder κ]

/-- `slice::sort_unstable_by_key` -/
def byKey (sorts : SortUnstable) (key : α → κ) (l : List α) : List α :=
  sorts.sort (fun a b => decide (key a ≤ key b)) l

theorem perm_byKey (sorts : SortUnstable) (key : α → κ) (l : List α) :
    (sorts.byKey key l).Perm l := sorts.perm _ l

theorem pairwise_byKey (sorts : SortUnstable) (key : α → κ) (l : List α) :
    (sorts.byKey key l).Pairwise fun a b => key a ≤ key b := by
  have htrans : ∀ a b c : α, decide (key a ≤ key b) = true → decide (key b ≤ key c) = true →
      decide (key a ≤ key c) = true := fun a b c hab hbc =>
    decide_eq_true ((of_decide_eq_true hab).trans (of_decide_eq_true hbc))
  have htotal : ∀ a b : α, (decide (key a ≤ key b) || decide (key b ≤ key a)) = true := by
    intro a b
    rw [Bool.or_eq_true, decide_eq_true_eq, decide_eq_true_eq]
    exact le_total _ _
  exact (sorts.pairwise htrans htotal l).imp fun hab => of_decide_eq_true hab

end SortUnstable
