import Vminer.BinarySearch

/-!
# Searching intervals

Values that span intervals `[start, stop)`, kept in a search tree or in a list
that is sorted by where they start, and the value that covers a given point.

In a tree the intervals of a left subtree are below the one at the node and
those of a right subtree above it; the descent that turns left below an interval
and right above it finds what a scan from left to right finds first. In a list
the last value that starts no later than the point is looked up, and taken if it
covers the point. That is the first one a scan finds where no two intervals
overlap.
-/

section Cover

variable {α κ : Type} [LinearOrder κ] (start stop : α → κ)

/-- Whether the interval of a value covers a point. -/
def covers (k : κ) (a : α) : Bool := decide (start a ≤ k ∧ k < stop a)

variable {start stop}

theorem covers_iff {k : κ} {a : α} : covers start stop k a = true ↔ start a ≤ k ∧ k < stop a :=
  decide_eq_true_iff

/-- What ends before a point does not cover it. -/
theorem covers_eq_false_of_stop_le {k : κ} {a : α} (h : stop a ≤ k) :
    covers start stop k a = false :=
  decide_eq_false fun hc => absurd hc.2 (not_lt.mpr h)

/-- What begins after a point does not cover it. -/
theorem covers_eq_false_of_lt_start {k : κ} {a : α} (h : k < start a) :
    covers start stop k a = false :=
  decide_eq_false fun hc => absurd hc.1 (not_le.mpr h)

end Cover

/-! ## In a tree -/

namespace BinaryTree

variable {α κ : Type} [LinearOrder κ] (start stop : α → κ)

/-- The values of a tree, from left to right. -/
def inorder : BinaryTree α → List α
  | nil => []
  | node a l r => l.inorder ++ a :: r.inorder

/-- **A search tree of intervals**, none of them empty. -/
def Ordered : BinaryTree α → Prop
  | nil => True
  | node a l r => start a < stop a
      ∧ (∀ b ∈ l.inorder, stop b ≤ start a) ∧ (∀ b ∈ r.inorder, stop a ≤ start b)
      ∧ Ordered l ∧ Ordered r

/-- The descent to a point. -/
def descend (k : κ) : BinaryTree α → Option α
  | nil => none
  | node a l r =>
    if k < start a then descend k l
    else if k < stop a then some a
    else descend k r

variable {start stop}

/-- **The descent finds what the scan finds.** -/
theorem descend_eq_find? {t : BinaryTree α} (h : t.Ordered start stop) (k : κ) :
    t.descend start stop k = t.inorder.find? (covers start stop k) := by
  induction t with
  | nil => rfl
  | node a l r ihl ihr =>
    obtain ⟨hne, hl, hr, hol, hor⟩ := h
    rw [inorder, List.find?_append, List.find?_cons, descend]
    by_cases hlt : k < start a
    · -- nothing from this node on covers the point
      have hrest : r.inorder.find? (covers start stop k) = none :=
        List.find?_eq_none.mpr fun b hb => by
          rw [covers_eq_false_of_lt_start (hlt.trans_le (hne.le.trans (hr b hb)))]
          exact Bool.false_ne_true
      rw [if_pos hlt, covers_eq_false_of_lt_start hlt, hrest, ihl hol]
      exact (Option.or_none).symm
    · have hleft : l.inorder.find? (covers start stop k) = none :=
        List.find?_eq_none.mpr fun b hb => by
          rw [covers_eq_false_of_stop_le ((hl b hb).trans (not_lt.mp hlt))]
          exact Bool.false_ne_true
      rw [if_neg hlt, hleft, Option.none_or]
      by_cases hcov : k < stop a
      · rw [if_pos hcov, covers, decide_eq_true ⟨not_lt.mp hlt, hcov⟩]
      · rw [if_neg hcov, covers_eq_false_of_stop_le (not_lt.mp hcov)]
        exact ihr hor

/-- The intervals lie one after the other. -/
theorem Ordered.pairwise {t : BinaryTree α} (h : t.Ordered start stop) :
    t.inorder.Pairwise fun a b => stop a ≤ start b := by
  induction t with
  | nil => exact List.Pairwise.nil
  | node a l r ihl ihr =>
    obtain ⟨hne, hl, hr, hol, hor⟩ := h
    refine List.pairwise_append.mpr ⟨ihl hol, List.pairwise_cons.mpr ⟨hr, ihr hor⟩, ?_⟩
    intro b hb c hc
    obtain rfl | hc := List.mem_cons.mp hc
    · exact hl b hb
    · exact (hl b hb).trans (hne.le.trans (hr c hc))

/-- **At most one interval covers a point.** -/
theorem Ordered.eq_of_covers {t : BinaryTree α} (h : t.Ordered start stop) {k : κ} {a b : α}
    (ha : a ∈ t.inorder) (hb : b ∈ t.inorder) (hak : covers start stop k a = true)
    (hbk : covers start stop k b = true) : a = b := by
  have h₁ : t.inorder.Pairwise fun a b => covers start stop k a = true →
      covers start stop k b = true → a = b := by
    refine h.pairwise.imp fun {a b} hle ha hb => ?_
    have hlt := (of_decide_eq_true ha).2.trans_le (hle.trans (of_decide_eq_true hb).1)
    exact absurd hlt (lt_irrefl k)
  have h₂ : t.inorder.Pairwise (flip fun a b => covers start stop k a = true →
      covers start stop k b = true → a = b) :=
    h₁.imp fun hab hb ha => (hab ha hb).symm
  exact h₁.forall_of_forall_of_flip (fun _ _ _ _ => rfl) h₂ ha hb hak hbk

end BinaryTree

/-! ## In a sorted list -/

section Lookup

variable {α κ : Type} [LinearOrder κ] (start stop : α → κ)

/-- The value that starts at a point, or the last one that starts before it if
it covers the point. -/
def lookup (k : κ) (xs : List α) : Option α :=
  match binarySearchByKey (m := Id) start k xs with
  | .ok i => xs[i]?
  | .error 0 => none
  | .error (i + 1) => xs[i]?.filter (covers start stop k)

variable {start stop} {xs : List α}

/-- Where the starts are distinct, a value is known by its own. -/
theorem eq_of_start_eq (hs : xs.Pairwise fun a b => start a < start b) {x y : α} (hx : x ∈ xs)
    (hy : y ∈ xs) (heq : start x = start y) : x = y := by
  have hne : xs.Pairwise fun a b => start a = start b → a = b :=
    hs.imp fun hlt heq => absurd heq hlt.ne
  have hflip : xs.Pairwise (flip fun a b => start a = start b → a = b) :=
    hs.imp fun hlt heq => absurd heq hlt.ne'
  exact hne.forall_of_forall_of_flip (fun _ _ _ => rfl) hflip hx hy heq

/-- **What is looked up** is the last value that starts no later than the point,
if that one covers it. -/
theorem lookup_eq_some_iff (hs : xs.Pairwise fun a b => start a < start b)
    (hne : ∀ x ∈ xs, start x < stop x) (k : κ) (x : α) :
    lookup start stop k xs = some x
      ↔ x ∈ xs ∧ covers start stop k x = true ∧ ∀ y ∈ xs, start y ≤ k → start y ≤ start x := by
  have hsorted := hs.imp (S := fun a b => start a ≤ start b) le_of_lt
  have hsearch := isSearchResult_binarySearchByKey start hsorted k
  unfold lookup
  cases hres : binarySearchByKey (m := Id) start k xs with
  | ok i =>
    rw [hres] at hsearch
    obtain ⟨y, hy, rfl⟩ := hsearch
    have hmem := List.mem_of_getElem? hy
    dsimp only
    rw [hy, Option.some.injEq]
    constructor
    · rintro rfl
      exact ⟨hmem, covers_iff.mpr ⟨le_rfl, hne y hmem⟩, fun _ _ hle => hle⟩
    · rintro ⟨hx, hcov, hlast⟩
      exact eq_of_start_eq hs hmem hx
        (le_antisymm (hlast y hmem le_rfl) (covers_iff.mp hcov).1)
  | error i =>
    rw [hres] at hsearch
    obtain ⟨hlen, hsides⟩ := hsearch
    cases i with
    | zero =>
      refine iff_of_false (fun h => nomatch h) ?_
      rintro ⟨hx, hcov, -⟩
      obtain ⟨j, hj⟩ := List.mem_iff_getElem?.mp hx
      exact absurd (covers_iff.mp hcov).1 (not_le.mpr ((hsides j x hj).2 (Nat.zero_le j)))
    | succ i =>
      have hz : xs[i]? = some (xs.get ⟨i, hlen⟩) := List.getElem?_eq_getElem hlen
      generalize xs.get ⟨i, hlen⟩ = z at hz
      have hmem := List.mem_of_getElem? hz
      have hzk : start z ≤ k := ((hsides i z hz).1 (Nat.lt_succ_self i)).le
      -- what starts no later than the point is at or before `z`
      have hlast : ∀ y ∈ xs, start y ≤ k → start y ≤ start z := by
        intro y hy hle
        obtain ⟨j, hj⟩ := List.mem_iff_getElem?.mp hy
        have hij : j ≤ i := by
          by_contra hlt
          exact absurd hle (not_le.mpr ((hsides j y hj).2 (Nat.succ_le_of_lt (not_le.mp hlt))))
        exact key_le_of_le hsorted hij hj hz
      dsimp only
      rw [hz, Option.filter_eq_some_iff, Option.some.injEq]
      constructor
      · rintro ⟨rfl, hcov⟩
        exact ⟨hmem, hcov, hlast⟩
      · rintro ⟨hx, hcov, hxlast⟩
        obtain rfl := eq_of_start_eq hs hmem hx
          (le_antisymm (hxlast z hmem hzk) (hlast x hx (covers_iff.mp hcov).1))
        exact ⟨rfl, hcov⟩

/-- Intervals that lie one after the other start one after the other. -/
theorem pairwise_start_lt (hd : xs.Pairwise fun a b => stop a ≤ start b)
    (hne : ∀ x ∈ xs, start x < stop x) : xs.Pairwise fun a b => start a < start b :=
  hd.imp_of_mem fun ha _ hle => (hne _ ha).trans_le hle

/-- **Where no two intervals overlap the lookup is the scan.** -/
theorem lookup_eq_find? (hd : xs.Pairwise fun a b => stop a ≤ start b)
    (hne : ∀ x ∈ xs, start x < stop x) (k : κ) :
    lookup start stop k xs = xs.find? (covers start stop k) := by
  have hs := pairwise_start_lt hd hne
  cases hfind : xs.find? (covers start stop k) with
  | some x =>
    have hx := List.mem_of_find?_eq_some hfind
    have hcov := List.find?_some hfind
    refine (lookup_eq_some_iff hs hne k x).mpr ⟨hx, hcov, fun y hy hle => ?_⟩
    have hlast : xs.Pairwise fun a b => start b ≤ k → k < stop a → start b ≤ start a :=
      hd.imp fun hab hle hlt => absurd hlt (not_lt.mpr (hab.trans hle))
    have hlast' : xs.Pairwise (flip fun a b => start b ≤ k → k < stop a → start b ≤ start a) :=
      hs.imp fun hab _ _ => hab.le
    exact hlast.forall_of_forall_of_flip (fun _ _ _ _ => le_rfl) hlast' hx hy hle
      (covers_iff.mp hcov).2
  | none =>
    refine Option.eq_none_iff_forall_ne_some.mpr fun x hx => ?_
    obtain ⟨hmem, hcov, -⟩ := (lookup_eq_some_iff hs hne k x).mp hx
    exact List.find?_eq_none.mp hfind x hmem hcov

/-- Where no two intervals overlap, a scan finds the one that covers a point. -/
theorem find?_eq_some_iff_of_disjoint
    (hd : xs.Pairwise fun a b => stop a ≤ start b ∨ stop b ≤ start a) {k : κ} {x : α} :
    xs.find? (covers start stop k) = some x ↔ x ∈ xs ∧ covers start stop k x = true := by
  have : Std.Symm fun a b : α => stop a ≤ start b ∨ stop b ≤ start a := ⟨fun _ _ h => h.symm⟩
  constructor
  · exact fun h => ⟨List.mem_of_find?_eq_some h, List.find?_some h⟩
  · rintro ⟨hx, hcov⟩
    obtain ⟨y, hy⟩ := Option.isSome_iff_exists.mp (List.find?_isSome.mpr ⟨x, hx, hcov⟩)
    have hxk := covers_iff.mp hcov
    have hyk := covers_iff.mp (List.find?_some hy)
    rw [hy, Option.some.injEq]
    by_contra hne
    obtain hle | hle := hd.forall (List.mem_of_find?_eq_some hy) hx hne
    · exact absurd (hle.trans hxk.1) (not_le.mpr hyk.2)
    · exact absurd (hle.trans hyk.1) (not_le.mpr hxk.2)

/-- Then the order of the values is of no matter to a scan. -/
theorem find?_covers_perm (hd : xs.Pairwise fun a b => stop a ≤ start b ∨ stop b ≤ start a)
    {ys : List α} (hp : xs.Perm ys) (k : κ) :
    xs.find? (covers start stop k) = ys.find? (covers start stop k) := by
  have hd' := hp.pairwise hd fun {_ _} h => h.symm
  ext x
  rw [find?_eq_some_iff_of_disjoint hd, find?_eq_some_iff_of_disjoint hd', hp.mem_iff]

/-- Sorted by where they start, they follow one another. -/
theorem pairwise_stop_le (hd : xs.Pairwise fun a b => stop a ≤ start b ∨ stop b ≤ start a)
    (hs : xs.Pairwise fun a b => start a ≤ start b) (hne : ∀ x ∈ xs, start x < stop x) :
    xs.Pairwise fun a b => stop a ≤ start b :=
  (hd.and hs).imp_of_mem fun {_ b} _ hb ⟨hd, hle⟩ =>
    hd.resolve_right fun hba => absurd ((hne b hb).trans_le hba) (not_lt.mpr hle)

/-- **Where intervals that overlap end together**, what is covered is looked up,
if perhaps another value than one that a scan finds. -/
theorem lookup_ne_none (hs : xs.Pairwise fun a b => start a < start b)
    (hd : xs.Pairwise fun a b => stop a ≤ start b ∨ stop a = stop b) {k : κ} {x : α}
    (hx : x ∈ xs) (hcov : covers start stop k x = true) : lookup start stop k xs ≠ none := by
  have hsearch := isSearchResult_binarySearchByKey start (hs.imp le_of_lt) k
  obtain ⟨j, hj⟩ := List.mem_iff_getElem?.mp hx
  have hxk := covers_iff.mp hcov
  unfold lookup
  cases hres : binarySearchByKey (m := Id) start k xs with
  | ok i =>
    rw [hres] at hsearch
    obtain ⟨y, hy, -⟩ := hsearch
    dsimp only
    rw [hy]
    exact Option.some_ne_none y
  | error i =>
    rw [hres] at hsearch
    obtain ⟨hlen, hsides⟩ := hsearch
    have hji : j < i := by
      by_contra hle
      exact absurd hxk.1 (not_le.mpr ((hsides j x hj).2 (not_lt.mp hle)))
    cases i with
    | zero => exact absurd hji (Nat.not_lt_zero j)
    | succ i =>
      have hz : xs[i]? = some (xs.get ⟨i, hlen⟩) := List.getElem?_eq_getElem hlen
      generalize xs.get ⟨i, hlen⟩ = z at hz
      have hzk : start z < k := (hsides i z hz).1 (Nat.lt_succ_self i)
      have hzcov : covers start stop k z = true := by
        obtain rfl | hlt := Nat.eq_or_lt_of_le (Nat.le_of_lt_succ hji)
        · exact Option.some.inj (hj.symm.trans hz) ▸ hcov
        · obtain ⟨hjlen, rfl⟩ := List.getElem?_eq_some_iff.mp hj
          obtain ⟨hilen, rfl⟩ := List.getElem?_eq_some_iff.mp hz
          obtain hle | heq := List.pairwise_iff_getElem.mp hd j i hjlen hilen hlt
          · exact absurd (hle.trans hzk.le) (not_le.mpr hxk.2)
          · exact covers_iff.mpr ⟨hzk.le, heq ▸ hxk.2⟩
      dsimp only
      rw [hz, Option.filter_some, if_pos hzcov]
      exact Option.some_ne_none z

end Lookup
