import Vminer.Dwarf
import Vminer.Pdb

/-!
# Counts of array elements

An array type carries the number of its elements in 32 bits: the product of what its
dimensions have. In DWARF a dimension gives the number itself, and the loader multiplies
the low halves of these numbers. In a program database a dimension gives its size in
bytes, with the lower dimensions in it; the loader multiplies these sizes as though they
were numbers of elements, which is right for hardly any array (`arrays_carryCount_iff`).
-/

open Symbols

/-! ## Products of 32 bits -/

/-- **A product of the first numbers does not fit 32 bits.** -/
def Overflows (ms : List ℕ) : Prop := ∃ front, front <+: ms ∧ 2 ^ 32 ≤ front.prod

/-- **An array type carries its element count**, if that fits 32 bits; otherwise there is
no array type. -/
def CarriesCount {ε : Type} (load : Exec ε (Option TypeKind)) (elem : TypeKind) (ns : List ℕ) :
    Prop :=
  if ns.prod < 2 ^ 32 then load = .ok (some (.Array elem (BitVec.ofNat 32 ns.prod)))
  else ∀ typ, load ≠ .ok (some typ)

section Products

variable {ε : Type}

/-- **A checked product** is the product, if every one on the way fits. -/
theorem foldlM_checkedMul_eq_ok_iff (ms : List (BitVec 32)) (a r : BitVec 32) :
    (ms.foldlM checkedMul a : Exec ε (BitVec 32)) = .ok r
      ↔ (∀ front, front <+: ms.map BitVec.toNat → a.toNat * front.prod < 2 ^ 32)
        ∧ r.toNat = a.toNat * (ms.map BitVec.toNat).prod := by
  induction ms generalizing a with
  | nil =>
    rw [List.foldlM_nil]
    constructor
    · intro h
      obtain rfl := Except.ok.inj h
      refine ⟨fun front hfront => ?_, by simp⟩
      rw [List.prefix_nil.mp hfront, List.prod_nil, Nat.mul_one]
      exact a.isLt
    · rintro ⟨-, h⟩
      rw [List.map_nil, List.prod_nil, Nat.mul_one] at h
      rw [BitVec.eq_of_toNat_eq h]
      rfl
  | cons m ms ih =>
    rw [List.foldlM_cons, Exec.bind_eq_ok_iff, List.map_cons, List.prod_cons, ← Nat.mul_assoc]
    by_cases hfits : a.toNat * m.toNat < 2 ^ 32
    · rw [checkedMul_eq_ok hfits]
      simp only [Except.ok.injEq, exists_eq_left']
      rw [ih, toNat_mul_of_lt hfits]
      refine and_congr_left fun _ => ⟨fun h front hfront => ?_, fun h front hfront => ?_⟩
      · cases front with
        | nil => rw [List.prod_nil, Nat.mul_one]; exact a.isLt
        | cons k front =>
          obtain ⟨rfl, hrest⟩ := List.cons_prefix_cons.mp hfront
          rw [List.prod_cons, ← Nat.mul_assoc]
          exact h front hrest
      · rw [Nat.mul_assoc, ← List.prod_cons]
        exact h _ (List.cons_prefix_cons.mpr ⟨rfl, hfront⟩)
    · refine iff_of_false ?_ fun h => hfits ?_
      · rintro ⟨b, hb, -⟩
        rw [checkedMul, if_neg hfits] at hb
        cases hb
      · have := h.1 [m.toNat] (List.cons_prefix_cons.mpr ⟨rfl, List.nil_prefix⟩)
        rwa [List.prod_singleton] at this

/-- **The count of an array**, as a product of 32 bits is computed. -/
theorem carriesCount_iff {load : Exec ε (Option TypeKind)} {elem : TypeKind} {ns : List ℕ}
    {ms : List (BitVec 32)}
    (h : load = do
      let dim ← ms.foldlM checkedMul 1
      return some (.Array elem dim)) :
    CarriesCount load elem ns
      ↔ if ns.prod < 2 ^ 32 then
          ¬ Overflows (ms.map BitVec.toNat) ∧ (ms.map BitVec.toNat).prod = ns.prod
        else Overflows (ms.map BitVec.toNat) := by
  have hok : ∀ typ, load = .ok (some typ)
      ↔ ∃ dim : BitVec 32, typ = .Array elem dim ∧ ¬ Overflows (ms.map BitVec.toNat)
        ∧ dim.toNat = (ms.map BitVec.toNat).prod := by
    intro typ
    have hone : (1 : BitVec 32).toNat = 1 := rfl
    rw [h, Exec.bind_eq_ok_iff]
    simp only [foldlM_checkedMul_eq_ok_iff, hone, Nat.one_mul, Overflows, not_exists, not_and,
      Nat.not_le]
    constructor
    · rintro ⟨dim, ⟨hfits, hdim⟩, heq⟩
      exact ⟨dim, (Option.some.inj (Except.ok.inj heq)).symm, hfits, hdim⟩
    · rintro ⟨dim, rfl, hfits, hdim⟩
      exact ⟨dim, ⟨hfits, hdim⟩, rfl⟩
  unfold CarriesCount
  by_cases hlt : ns.prod < 2 ^ 32
  · rw [if_pos hlt, if_pos hlt, hok]
    constructor
    · rintro ⟨dim, heq, hfits, hdim⟩
      obtain rfl := (TypeKind.Array.inj heq).2
      rw [BitVec.toNat_ofNat, Nat.mod_eq_of_lt hlt] at hdim
      exact ⟨hfits, hdim.symm⟩
    · rintro ⟨hfits, hprod⟩
      exact ⟨_, rfl, hfits, by rw [BitVec.toNat_ofNat, Nat.mod_eq_of_lt hlt, hprod]⟩
  · rw [if_neg hlt, if_neg hlt]
    constructor
    · intro hnone
      by_contra hfits
      have hall : (ms.map BitVec.toNat).prod < 2 ^ 32 := by
        by_contra hge
        exact hfits ⟨_, List.prefix_rfl, Nat.le_of_not_lt hge⟩
      refine hnone (.Array elem (BitVec.ofNat 32 (ms.map BitVec.toNat).prod))
        ((hok _).mpr ⟨_, rfl, hfits, ?_⟩)
      rw [BitVec.toNat_ofNat, Nat.mod_eq_of_lt hall]
    · intro hover typ heq
      obtain ⟨dim, -, hfits, -⟩ := (hok typ).mp heq
      exact hfits hover

/-- The first of some positive numbers have a product that is no larger. -/
theorem prod_le_of_front {front ns : List ℕ} (h : front <+: ns) (hpos : 0 ∉ ns) :
    front.prod ≤ ns.prod := by
  obtain ⟨rest, rfl⟩ := h
  rw [List.prod_append]
  exact Nat.le_mul_of_pos_right _ (List.prod_pos fun n hn => Nat.pos_of_ne_zero fun hzero =>
    hpos (hzero ▸ List.mem_append_right _ hn))

/-- Products of positive numbers fit if all of them do. -/
theorem overflows_iff_of_pos {ns : List ℕ} (hpos : 0 ∉ ns) : Overflows ns ↔ 2 ^ 32 ≤ ns.prod :=
  ⟨fun ⟨_, hfront, hle⟩ => hle.trans (prod_le_of_front hfront hpos),
    fun h => ⟨ns, List.prefix_rfl, h⟩⟩

end Products

/-! ## DWARF -/

namespace Dwarf

variable {G : Type}

/-- **The number of elements of a subrange**: one more than its upper bound, or its count;
none if neither is known. -/
inductive HasCount (child : DwarfEntry G) : ℕ → Prop
  | upperBound {b : BitVec 64} (h : child.upperBound = .ok (some b)) (hb : b.toNat < 2 ^ 63) :
      HasCount child (b.toNat + 1)
  | negative {b : BitVec 64} (h : child.upperBound = .ok (some b)) (hb : 2 ^ 63 ≤ b.toNat) :
      HasCount child 0
  | count {c : U64} (h : child.upperBound = .ok none) (hc : child.count = .ok (some c)) :
      HasCount child c.toNat
  | unknown (h : child.upperBound = .ok none) (hc : child.count = .ok none) : HasCount child 0

/-- **An array of DWARF**, with the numbers of elements of its dimensions. -/
structure IsArray (node : DwarfNode G) (typ : UnitOffset) (ns : List ℕ) : Prop where
  tag : node.entry.tag = .arrayType
  name : ∃ name, node.entry.name = .ok name
  type : node.entry.type = .ok (some typ)
  subranges : ∀ child ∈ node.children, child.tag = .subrangeType
  counts : List.Forall₂ HasCount node.children ns
  stop : node.stop = none

/-- What a unit makes of one of its entries: it is read, and later classified. -/
def loadArray (getType : UnitOffset → Cells → Exec Empty (Option TypeKind × Cells))
    (node : DwarfNode G) (cells : Cells) : ResolveTypeResult G (Option TypeKind) := do
  match ← node.readType with
  | none => return none
  | some (name, dwarfType) => do
    let (typ, _) ← Exec.mapErr Empty.elim
      (TypeList.classifyType getType ⟨node.entry.offset, name, dwarfType⟩ cells)
    return typ

/-- **The counts that come out right**: where none is 0, all fit 32 bits, or what is left
of them overflows; where one is, nothing does. -/
def CountsFit (ns : List ℕ) : Prop :=
  if 0 ∈ ns then ¬ Overflows (ns.map (· % 2 ^ 32))
  else (∀ n ∈ ns, n < 2 ^ 32) ∨ Overflows (ns.map (· % 2 ^ 32))

/-- A bound is negative from the middle on. -/
theorem slt_zero_eq (b : BitVec 64) : b.slt 0 = decide (2 ^ 63 ≤ b.toNat) :=
  BitVec.slt_zero_eq_msb.trans (BitVec.msb_eq_decide b)

/-- The size of a subrange is its count. -/
theorem HasCount.readSubrange_eq {child : DwarfEntry G} {n : ℕ} (h : HasCount child n)
    (htag : child.tag = .subrangeType) :
    ∃ size, DwarfNode.readSubrange child = .ok size ∧ size.toNat = n := by
  unfold DwarfNode.readSubrange
  rw [if_neg (not_not.mpr htag)]
  cases h with
  | @upperBound b h hb =>
    have hadd : b.toNat + (1 : BitVec 64).toNat < 2 ^ 64 := by
      show b.toNat + 1 < 2 ^ 64
      omega
    refine ⟨b + 1, ?_, toNat_add_of_lt hadd⟩
    rw [h, Exec.ok_bind]
    dsimp only
    rw [slt_zero_eq, decide_eq_false (Nat.not_le_of_lt hb), checkedAdd_eq_ok hadd]
    rfl
  | @negative b h hb =>
    refine ⟨0, ?_, rfl⟩
    rw [h, Exec.ok_bind]
    dsimp only
    rw [slt_zero_eq, decide_eq_true hb]
    rfl
  | @count c h hc =>
    refine ⟨c, ?_, rfl⟩
    rw [h, Exec.ok_bind]
    dsimp only
    rw [hc]
    rfl
  | unknown h hc =>
    refine ⟨0, ?_, rfl⟩
    rw [h, Exec.ok_bind]
    dsimp only
    rw [hc]
    rfl

/-- **The dimensions are multiplied**, as far as they fit 32 bits. -/
theorem foldlM_readSubrange {children : List (DwarfEntry G)} {ns : List ℕ}
    (h : List.Forall₂ HasCount children ns)
    (htag : ∀ child ∈ children, child.tag = .subrangeType) (dim : BitVec 32) :
    (children.foldlM (fun dim child => do
        let size ← DwarfNode.readSubrange child
        checkedMul dim (size.setWidth 32)) dim : ResolveTypeResult G (BitVec 32))
      = (ns.map (BitVec.ofNat 32)).foldlM checkedMul dim := by
  induction h generalizing dim with
  | nil => rfl
  | cons hchild _ ih =>
    obtain ⟨htag, hrest⟩ := List.forall_mem_cons.mp htag
    obtain ⟨size, hsize, rfl⟩ := hchild.readSubrange_eq htag
    rw [List.foldlM_cons, List.map_cons, List.foldlM_cons, hsize, Exec.ok_bind]
    exact congrArg _ (funext fun dim => ih hrest dim)

/-- **What is made of an array.** -/
theorem IsArray.loadArray_eq {node : DwarfNode G} {typ : UnitOffset} {ns : List ℕ}
    (h : IsArray node typ ns)
    {getType : UnitOffset → Cells → Exec Empty (Option TypeKind × Cells)} {cells cells' : Cells}
    {elem : TypeKind} (helem : getType typ cells = .ok (some elem, cells')) :
    loadArray getType node cells = do
      let dim ← (ns.map (BitVec.ofNat 32)).foldlM checkedMul 1
      return some (.Array elem dim) := by
  obtain ⟨name, hname⟩ := h.name
  have harray : node.readArray = do
      let dim ← (ns.map (BitVec.ofNat 32)).foldlM checkedMul 1
      return (typ, dim) := by
    rw [DwarfNode.readArray, h.type, foldlM_readSubrange h.counts h.subranges,
      DwarfNode.endOfChildren, h.stop]
    rfl
  rw [loadArray, DwarfNode.readType, hname, h.tag, Exec.ok_bind]
  dsimp only
  rw [harray]
  cases (ns.map (BitVec.ofNat 32)).foldlM checkedMul (1 : BitVec 32) with
  | error stop => rfl
  | ok dim =>
    show (Exec.mapErr Empty.elim (TypeList.classifyType getType _ cells) >>= _) = _
    rw [TypeList.classifyType]
    dsimp only
    rw [helem]
    rfl

/-- **When the count of an array of DWARF is right.** -/
theorem countsFit_iff (ns : List ℕ) :
    (if ns.prod < 2 ^ 32 then
      ¬ Overflows (ns.map (· % 2 ^ 32)) ∧ (ns.map (· % 2 ^ 32)).prod = ns.prod
      else Overflows (ns.map (· % 2 ^ 32))) ↔ CountsFit ns := by
  unfold CountsFit
  by_cases hzero : 0 ∈ ns
  · have hprod : ns.prod = 0 := List.prod_eq_zero hzero
    have hlow : (ns.map (· % 2 ^ 32)).prod = 0 :=
      List.prod_eq_zero (List.mem_map.mpr ⟨0, hzero, rfl⟩)
    rw [if_pos hzero, hprod, hlow, if_pos (by decide)]
    exact and_iff_left rfl
  · rw [if_neg hzero]
    by_cases hall : ∀ n ∈ ns, n < 2 ^ 32
    · have hlow : ns.map (· % 2 ^ 32) = ns :=
        (List.map_congr_left fun n hn => Nat.mod_eq_of_lt (hall n hn)).trans (List.map_id' ns)
      rw [hlow, overflows_iff_of_pos hzero]
      refine iff_of_true ?_ (Or.inl hall)
      split
      · next hlt => exact ⟨Nat.not_le_of_lt hlt, rfl⟩
      · next hge => exact Nat.le_of_not_lt hge
    · rw [or_iff_right hall, if_neg]
      push Not at hall
      obtain ⟨n, hn, hle⟩ := hall
      refine Nat.not_lt_of_le (hle.trans (Nat.le_of_dvd ?_ (List.dvd_prod hn)))
      exact List.prod_pos fun m hm => Nat.pos_of_ne_zero fun hm0 => hzero (hm0 ▸ hm)

end Dwarf

/-! ## Program databases -/

namespace Pdb

/-- **The sizes of the dimensions** of an array, of elements of a size: each with the
lower ones in it. -/
def sizes : ℕ → List ℕ → List ℕ
  | _, [] => []
  | s, n :: ns => s * n :: sizes (s * n) ns

/-- **The counts that come out right**: there is no dimension, or the elements are bytes
and the lower dimensions have one, or some dimension has none and nothing overflows. -/
def CountsFit (s : ℕ) (ns : List ℕ) : Prop :=
  ns = [] ∨ (s = 1 ∧ ∀ n ∈ ns.dropLast, n = 1) ∨ (0 ∈ ns ∧ ¬ Overflows (sizes s ns))

section Sizes

variable {s : ℕ} {ns : List ℕ}

/-- The size of the whole array is the last one. -/
theorem mul_prod_mem_sizes (s : ℕ) (hne : ns ≠ []) : s * ns.prod ∈ sizes s ns := by
  induction ns generalizing s with
  | nil => exact absurd rfl hne
  | cons n ns ih =>
    cases ns with
    | nil => simp [sizes]
    | cons m ns =>
      rw [List.prod_cons, ← Nat.mul_assoc]
      exact List.mem_cons_of_mem _ (ih (s * n) (List.cons_ne_nil _ _))

/-- A dimension without elements has no size, nor have the higher ones. -/
theorem zero_mem_sizes_iff : 0 ∈ sizes s ns ↔ ns ≠ [] ∧ (s = 0 ∨ 0 ∈ ns) := by
  induction ns generalizing s with
  | nil => simp [sizes]
  | cons n ns ih =>
    rw [sizes, List.mem_cons, ih, List.mem_cons]
    by_cases hnil : ns = []
    · simp [hnil, eq_comm]
    · simp only [hnil, ne_eq, not_false_eq_true, true_and, reduceCtorEq, mul_eq_zero,
        eq_comm (a := 0)]
      tauto

/-- Elements without a size make none. -/
theorem not_overflows_sizes_zero : ¬ Overflows (sizes 0 ns) := by
  have hall : ∀ ns, ∀ d ∈ sizes 0 ns, d = 0 := by
    intro ns
    induction ns with
    | nil => exact fun _ h => absurd h List.not_mem_nil
    | cons n ns ih =>
      rw [sizes, Nat.zero_mul]
      exact List.forall_mem_cons.mpr ⟨rfl, ih⟩
  rintro ⟨front, hfront, hle⟩
  cases front with
  | nil => exact absurd hle (by decide)
  | cons d front =>
    rw [hall ns d (hfront.subset List.mem_cons_self), List.prod_cons, Nat.zero_mul] at hle
    exact absurd hle (by decide)

/-- The sizes of single bytes, one after the other. -/
theorem sizes_one (h : ∀ n ∈ ns.dropLast, n = 1) : sizes 1 ns = ns := by
  induction ns with
  | nil => rfl
  | cons n ns ih =>
    cases ns with
    | nil => simp [sizes]
    | cons m ns =>
      obtain ⟨rfl, hrest⟩ := List.forall_mem_cons.mp h
      rw [sizes, Nat.mul_one, ih hrest]

/-- **The sizes multiply to the count** only if the elements are bytes and all lower
dimensions have one. -/
theorem prod_sizes_eq_iff (hs : s ≠ 0) (hne : ns ≠ []) (hpos : 0 ∉ ns) :
    (sizes s ns).prod = ns.prod ↔ s = 1 ∧ ∀ n ∈ ns.dropLast, n = 1 := by
  refine ⟨?_, fun ⟨hone, h⟩ => by rw [hone, sizes_one h]⟩
  induction ns generalizing s with
  | nil => exact absurd rfl hne
  | cons n ns ih =>
    obtain ⟨hn, hrest⟩ : 0 < n ∧ 0 ∉ ns := by
      simp only [List.mem_cons, not_or] at hpos
      exact ⟨Nat.pos_of_ne_zero (Ne.symm hpos.1), hpos.2⟩
    cases ns with
    | nil =>
      intro h
      have hmul : s * n = 1 * n := by simpa [sizes] using h
      exact ⟨Nat.eq_of_mul_eq_mul_right hn hmul, by simp⟩
    | cons m ns =>
      intro h
      have hprod : 0 < (m :: ns).prod :=
        List.prod_pos fun k hk => Nat.pos_of_ne_zero fun hk0 => hrest (hk0 ▸ hk)
      have hsn : s * n ≠ 0 := Nat.mul_ne_zero hs hn.ne'
      have hsizes : 0 < (sizes (s * n) (m :: ns)).prod :=
        List.prod_pos fun k hk => Nat.pos_of_ne_zero fun hk0 => by
          obtain ⟨-, h0 | h0⟩ := zero_mem_sizes_iff.mp (hk0 ▸ hk)
          · exact hsn h0
          · exact hrest h0
      have hle : s * n * (m :: ns).prod ≤ (sizes (s * n) (m :: ns)).prod :=
        Nat.le_of_dvd hsizes (List.dvd_prod (mul_prod_mem_sizes (s * n) (List.cons_ne_nil _ _)))
      rw [sizes, List.prod_cons, List.prod_cons (a := n)] at h
      have hsq : s * n * (s * n) ≤ n := by
        refine Nat.le_of_mul_le_mul_right ?_ hprod
        calc s * n * (s * n) * (m :: ns).prod
          _ = s * n * (s * n * (m :: ns).prod) := Nat.mul_assoc _ _ _
          _ ≤ s * n * (sizes (s * n) (m :: ns)).prod := Nat.mul_le_mul_left _ hle
          _ = n * (m :: ns).prod := h
      have hone : s * n = 1 := by
        have hle' : n ≤ s * n := Nat.le_mul_of_pos_left _ (Nat.pos_of_ne_zero hs)
        have hpos' := Nat.pos_of_ne_zero hsn
        nlinarith
      obtain ⟨rfl, rfl⟩ := mul_eq_one.mp hone
      rw [Nat.mul_one, Nat.one_mul, Nat.one_mul] at h
      obtain ⟨-, hones⟩ := ih one_ne_zero (List.cons_ne_nil _ _) hrest h
      exact ⟨rfl, List.forall_mem_cons.mpr ⟨rfl, hones⟩⟩

/-- Single bytes do not overflow. -/
theorem not_overflows_of_ones (h : ∀ n ∈ ns.dropLast, n = 1) (hlt : ∀ n ∈ ns, n < 2 ^ 32) :
    ¬ Overflows ns := by
  rintro ⟨front, hfront, hle⟩
  obtain rfl | ⟨init, last, rfl⟩ := List.eq_nil_or_concat ns
  · rw [List.prefix_nil.mp hfront] at hle
    exact absurd hle (by decide)
  · rw [List.concat_eq_append] at h hlt hfront
    rw [List.dropLast_concat] at h
    have hones : ∀ front, front <+: init → front.prod = 1 := fun front hfront =>
      List.prod_eq_one fun n hn => h n (hfront.subset hn)
    have hlast := hlt last (by simp)
    obtain hfront | rfl := List.prefix_concat_iff.mp hfront |>.symm
    · rw [hones front hfront] at hle
      exact absurd hle (by decide)
    · rw [List.prod_append, hones init List.prefix_rfl, List.prod_singleton, Nat.one_mul] at hle
      omega

/-- **When the count of an array of a database is right.** -/
theorem countsFit_iff (hlt : ∀ d ∈ sizes s ns, d < 2 ^ 32) :
    (if ns.prod < 2 ^ 32 then ¬ Overflows (sizes s ns) ∧ (sizes s ns).prod = ns.prod
      else Overflows (sizes s ns)) ↔ CountsFit s ns := by
  unfold CountsFit
  by_cases hne : ns = []
  · refine iff_of_true ?_ (Or.inl hne)
    rw [hne, List.prod_nil, if_pos (by decide)]
    refine ⟨?_, rfl⟩
    rintro ⟨front, hfront, hle⟩
    rw [sizes, List.prefix_nil] at hfront
    rw [hfront] at hle
    exact absurd hle (by decide)
  rw [or_iff_right hne]
  by_cases hzero : 0 ∈ ns
  · have hprod : ns.prod = 0 := List.prod_eq_zero hzero
    have hsizes : (sizes s ns).prod = 0 :=
      List.prod_eq_zero (zero_mem_sizes_iff.mpr ⟨hne, Or.inr hzero⟩)
    rw [hprod, hsizes, if_pos (by decide), and_iff_left rfl]
    constructor
    · exact fun h => Or.inr ⟨hzero, h⟩
    · rintro (⟨rfl, hones⟩ | ⟨-, h⟩)
      · rw [sizes_one hones] at hlt ⊢
        exact not_overflows_of_ones hones hlt
      · exact h
  · rw [or_iff_left fun h => hzero h.1]
    have hpos : 0 < ns.prod :=
      List.prod_pos fun n hn => Nat.pos_of_ne_zero fun hn0 => hzero (hn0 ▸ hn)
    by_cases hs : s = 0
    · subst hs
      have hsizes : (sizes 0 ns).prod = 0 :=
        List.prod_eq_zero (zero_mem_sizes_iff.mpr ⟨hne, Or.inl rfl⟩)
      refine iff_of_false ?_ fun h => absurd h.1 (by decide)
      split
      · exact fun h => hpos.ne (hsizes.symm.trans h.2)
      · exact not_overflows_sizes_zero
    · have hsizes : 0 ∉ sizes s ns := fun h =>
        (zero_mem_sizes_iff.mp h).2.elim hs hzero
      have hfits : ns.prod < 2 ^ 32 :=
        (Nat.le_mul_of_pos_left _ (Nat.pos_of_ne_zero hs)).trans_lt
          (hlt _ (mul_prod_mem_sizes s hne))
      rw [if_pos hfits, overflows_iff_of_pos hsizes, prod_sizes_eq_iff hs hne hzero]
      refine and_iff_right_of_imp fun h => ?_
      rw [(prod_sizes_eq_iff hs hne hzero).mpr h]
      exact Nat.not_le_of_lt hfits

end Sizes

/-- **What is made of an array record.** -/
theorem classifyType_array {a : ArrayType}
    {getType : TypeIndex → Cells → Exec Empty (Option TypeKind × Cells)} {cells cells' : Cells}
    {elem : TypeKind} (helem : getType a.elementType cells = .ok (some elem, cells')) :
    Prod.fst <$> TypeList.classifyType getType (.Array a) cells = do
      let dim ← a.dimensions.foldlM checkedMul 1
      return some (.Array elem dim) := by
  rw [TypeList.classifyType, helem, Exec.ok_bind]
  dsimp only
  cases a.dimensions.foldlM checkedMul (1 : BitVec 32) with
  | error stop => rfl
  | ok dim => rfl

end Pdb

/-! ## Both -/

/-- **Array types carry their element count** exactly where the counts come out right: in
DWARF for every array whose counts fit 32 bits and are not 0, in a program database for
hardly any but those of single bytes. -/
theorem arrays_carryCount_iff (elem : TypeKind) (ns : List ℕ) :
    (∀ (G : Type) (node : Dwarf.DwarfNode G) (typ : Dwarf.UnitOffset)
      (getType : Dwarf.UnitOffset → Dwarf.Cells → Exec Empty (Option TypeKind × Dwarf.Cells))
      (cells cells' : Dwarf.Cells),
      Dwarf.IsArray node typ ns → getType typ cells = .ok (some elem, cells') →
        (CarriesCount (Dwarf.loadArray getType node cells) elem ns ↔ Dwarf.CountsFit ns))
    ∧ ∀ (a : Pdb.ArrayType) (s : ℕ)
      (getType : Pdb.TypeIndex → Pdb.Cells → Exec Empty (Option TypeKind × Pdb.Cells))
      (cells cells' : Pdb.Cells),
      a.dimensions.map BitVec.toNat = Pdb.sizes s ns →
        getType a.elementType cells = .ok (some elem, cells') →
        (CarriesCount (Prod.fst <$> Pdb.TypeList.classifyType getType (.Array a) cells) elem ns
          ↔ Pdb.CountsFit s ns) := by
  constructor
  · intro G node typ getType cells cells' harray helem
    rw [carriesCount_iff (harray.loadArray_eq helem), ← Dwarf.countsFit_iff]
    have hlow : (ns.map (BitVec.ofNat 32)).map BitVec.toNat = ns.map (· % 2 ^ 32) := by
      rw [List.map_map]
      exact List.map_congr_left fun n _ => BitVec.toNat_ofNat n 32
    rw [hlow]
  · intro a s getType cells cells' hsizes helem
    have hlt : ∀ d ∈ Pdb.sizes s ns, d < 2 ^ 32 := by
      intro d hd
      rw [← hsizes] at hd
      obtain ⟨dim, -, rfl⟩ := List.mem_map.mp hd
      exact dim.isLt
    rw [carriesCount_iff (Pdb.classifyType_array helem), hsizes, Pdb.countsFit_iff hlt]

section Example

/-- An entry of an array, with the bound or the count of a subrange. -/
def arrayEntry (tag : Dwarf.DwTag) (upperBound : Option (BitVec 64)) (count : Option U64) :
    Dwarf.DwarfEntry Empty :=
  { Dwarf.DwarfEntry.bare 0 tag with
    type := .ok (some 1), upperBound := .ok upperBound, count := .ok count }

/-- An array of two rows of three elements. -/
def rowsArray : Dwarf.DwarfNode Empty :=
  ⟨arrayEntry .arrayType none none,
    [arrayEntry .subrangeType (some 1) none, arrayEntry .subrangeType none (some 3)], none⟩

/-- An array of more than 32 bits. -/
def longArray : Dwarf.DwarfNode Empty :=
  ⟨arrayEntry .arrayType none none, [arrayEntry .subrangeType none (some 0x100000001)], none⟩

theorem isArray_rowsArray : Dwarf.IsArray rowsArray 1 [2, 3] where
  tag := rfl
  name := ⟨_, rfl⟩
  type := rfl
  subranges := by simp [rowsArray, arrayEntry, Dwarf.DwarfEntry.bare]
  counts := .cons (.upperBound (b := 1) rfl (by decide)) (.cons (.count (c := 3) rfl rfl) .nil)
  stop := rfl

theorem isArray_longArray : Dwarf.IsArray longArray 1 [0x100000001] where
  tag := rfl
  name := ⟨_, rfl⟩
  type := rfl
  subranges := by simp [longArray, arrayEntry, Dwarf.DwarfEntry.bare]
  counts := .cons (.count (c := 0x100000001) rfl rfl) .nil
  stop := rfl

/-- **Six elements in DWARF**, and five characters in a program database. -/
theorem arrays_carryCount_some :
    CarriesCount (Dwarf.loadArray (fun _ cells => .ok (some (.Primitive .U32), cells)) rowsArray
        fun _ => none) (.Primitive .U32) [2, 3]
      ∧ CarriesCount (Prod.fst <$> Pdb.TypeList.classifyType
        (fun _ cells => .ok (some (.Primitive .U8), cells)) (.Array ⟨0x20, [5]⟩) fun _ => none)
        (.Primitive .U8) [5] := by
  constructor
  · refine ((arrays_carryCount_iff _ _).1 Empty rowsArray 1 _ _ _ isArray_rowsArray rfl).mpr ?_
    unfold Dwarf.CountsFit
    rw [if_neg (by decide)]
    exact Or.inl (by decide)
  · exact ((arrays_carryCount_iff _ _).2 ⟨0x20, [5]⟩ 1 _ _ _ rfl rfl).mpr
      (Or.inr (Or.inl ⟨rfl, by simp⟩))

/-- **Four words in a program database are sixteen**, and in DWARF 2³² + 1 elements are
one. -/
theorem not_arrays_carryCount :
    (Prod.fst <$> Pdb.TypeList.classifyType
        (fun _ cells => .ok (some (.Primitive .U32), cells)) (.Array ⟨0x22, [16]⟩) fun _ => none)
        = .ok (some (.Array (.Primitive .U32) 16))
      ∧ Pdb.sizes 4 [4] = [16]
      ∧ ¬ CarriesCount (Prod.fst <$> Pdb.TypeList.classifyType
        (fun _ cells => .ok (some (.Primitive .U32), cells)) (.Array ⟨0x22, [16]⟩) fun _ => none)
        (.Primitive .U32) [4]
      ∧ Dwarf.IsArray longArray 1 [0x100000001]
      ∧ Dwarf.loadArray (fun _ cells => .ok (some (.Primitive .U32), cells)) longArray
        (fun _ => none) = .ok (some (.Array (.Primitive .U32) 1))
      ∧ ¬ CarriesCount (Dwarf.loadArray (fun _ cells => .ok (some (.Primitive .U32), cells))
        longArray fun _ => none) (.Primitive .U32) [0x100000001] := by
  refine ⟨rfl, rfl, ?_, isArray_longArray, rfl, ?_⟩
  · unfold CarriesCount
    rw [if_pos (by decide)]
    intro h
    have hdim := (TypeKind.Array.inj (Option.some.inj (Except.ok.inj h))).2
    exact absurd hdim (by decide)
  · unfold CarriesCount
    rw [if_neg (by decide)]
    exact fun h => h _ rfl

end Example
