import Vminer.Mem

/-!
# Relocated ranges and the end of the address space

`MemRemap` relocates a range by the first mapping that holds it. The test for that
adds the length of the range to its address, and the relocation adds the distance
from the start of the mapping as a signed number. Neither can be done for all ranges
that a caller may ask for: the sum leaves the address space for a range that does,
and a distance of half the address space is a negative number.

Everywhere else a range is read where it should be (`readsFirstHolding_iff`).
-/

namespace MemRemap

variable {M : Type} [Memory M]

/-- The first mapping that holds a range, and where it is relocated. -/
def firstHolding (m : MemRemap M) (addr : PhysicalAddress) (len : ℕ) :
    Option (MemoryMap × PhysicalAddress) :=
  (m.mappings.zip m.remapAt).find? fun x => decide (x.1.Holds addr len)

/-- **Each mapping is relocated into the inner memory.** -/
structure InsideInner (m : MemRemap M) : Prop where
  length_remapAt : m.mappings.length = m.remapAt.length
  ordered : ∀ mapping ∈ m.mappings, mapping.start ≤ mapping.stop
  target : ∀ x ∈ m.mappings.zip m.remapAt, ∃ inner ∈ Memory.memoryMappings m.inner,
    inner.Holds x.2 (x.1.stop.toNat - x.1.start.toNat)

/-- **A range is read where the first mapping that holds it puts it**, is valid if
there is one, and nothing overflows on the way. -/
structure ReadsFirstHolding (m : MemRemap M) (addr : PhysicalAddress) (len : ℕ) : Prop where
  read : Memory.readPhysical m addr len =
    match m.firstHolding addr len with
    | some (mapping, remapAt) =>
      Memory.readPhysical m.inner
        (BitVec.ofNat 64 (remapAt.toNat + (addr.toNat - mapping.start.toNat))) len
    | none => Exec.fail .outOfBounds
  valid : Memory.isValid m addr len = .ok (m.firstHolding addr len).isSome
  noOverflow : remap (m.mappings.zip m.remapAt) addr len ≠ Exec.panicked

/-- **What the arithmetic is good for**: the range ends in the address space or begins
before all mappings, and it is less than half the address space from the start of its
mapping. -/
structure Fits (m : MemRemap M) (addr : PhysicalAddress) (len : ℕ) : Prop where
  stop : addr.toNat + len < 2 ^ 64 ∨ ∀ mapping ∈ m.mappings, addr < mapping.start
  distance : ∀ x, m.firstHolding addr len = some x → addr.toNat - x.1.start.toNat < 2 ^ 63

/-! ## The loop -/

omit [Memory M] in
/-- A range that ends in the address space is relocated by the first mapping that
holds it. -/
theorem remap_eq_find? {addr : PhysicalAddress} {len : ℕ} (hlt : addr.toNat + len < 2 ^ 64)
    (l : List (MemoryMap × PhysicalAddress)) :
    remap l addr len =
      match l.find? fun x => decide (x.1.Holds addr len) with
      | some x => checkedAddSigned x.2 (addr - x.1.start)
      | none => Exec.fail .outOfBounds := by
  induction l with
  | nil => rfl
  | cons x rest ih =>
    obtain ⟨mapping, remapAt⟩ := x
    have hstop : addr + BitVec.ofNat 64 len ≤ mapping.stop
        ↔ addr.toNat + len ≤ mapping.stop.toNat := by
      rw [BitVec.le_def, toNat_add_ofNat_of_lt hlt]
    rw [remap]
    by_cases hholds : mapping.Holds addr len
    · rw [if_pos hholds.1, checkedAddNat_eq_ok hlt, Exec.ok_bind, if_pos (hstop.mpr hholds.2),
        List.find?_cons_of_pos (by simpa using hholds)]
    · rw [List.find?_cons_of_neg (by simpa using hholds), ← ih]
      by_cases hstart : mapping.start ≤ addr
      · rw [if_pos hstart, checkedAddNat_eq_ok hlt, Exec.ok_bind,
          if_neg fun h => hholds ⟨hstart, hstop.mp h⟩]
      · rw [if_neg hstart]

omit [Memory M] in
/-- A range that leaves the address space overflows at the first mapping that begins
before it. -/
theorem remap_eq_panicked {addr : PhysicalAddress} {len : ℕ} (hge : ¬ addr.toNat + len < 2 ^ 64)
    {l : List (MemoryMap × PhysicalAddress)} (h : ∃ x ∈ l, x.1.start ≤ addr) :
    remap l addr len = Exec.panicked := by
  induction l with
  | nil =>
    obtain ⟨x, hx, -⟩ := h
    cases hx
  | cons x rest ih =>
    obtain ⟨mapping, remapAt⟩ := x
    rw [remap]
    by_cases hstart : mapping.start ≤ addr
    · rw [if_pos hstart, checkedAddNat, if_neg hge]
      rfl
    · rw [if_neg hstart]
      obtain ⟨y, hy, hle⟩ := h
      obtain rfl | hy := List.mem_cons.mp hy
      · exact absurd hle hstart
      · exact ih ⟨y, hy, hle⟩

omit [Memory M] in
/-- Where all mappings begin behind it, nothing is added. -/
theorem remap_eq_fail_of_lt {addr : PhysicalAddress} {len : ℕ}
    {l : List (MemoryMap × PhysicalAddress)} (h : ∀ x ∈ l, addr < x.1.start) :
    remap l addr len = Exec.fail .outOfBounds := by
  induction l with
  | nil => rfl
  | cons x rest ih =>
    obtain ⟨mapping, remapAt⟩ := x
    rw [remap, if_neg (BitVec.not_le.mpr (h _ List.mem_cons_self))]
    exact ih fun y hy => h y (List.mem_cons_of_mem _ hy)

/-- `is_valid` makes the same test. -/
theorem defaultIsValid_eq {addr : PhysicalAddress} {len : ℕ} {mappings : List MemoryMap}
    (h : addr.toNat + len < 2 ^ 64 ∨ ∀ mapping ∈ mappings, addr < mapping.start) :
    defaultIsValid mappings addr len = .ok (decide (∃ m ∈ mappings, m.Holds addr len)) := by
  by_cases hex : ∃ m ∈ mappings, m.Holds addr len
  · rw [(defaultIsValid_eq_true_iff mappings addr len).mpr hex, decide_eq_true hex]
  · rw [decide_eq_false hex]
    induction mappings with
    | nil => rfl
    | cons mapping rest ih =>
      have hrest := ih (h.imp id fun h m hm => h m (List.mem_cons_of_mem _ hm))
        fun ⟨m, hm, hholds⟩ => hex ⟨m, List.mem_cons_of_mem _ hm, hholds⟩
      rw [defaultIsValid]
      by_cases hstart : mapping.start ≤ addr
      · obtain hlt | hbefore := h
        · have hstop : ¬ addr + BitVec.ofNat 64 len ≤ mapping.stop := by
            rw [BitVec.le_def, toNat_add_ofNat_of_lt hlt]
            exact fun hstop => hex ⟨mapping, List.mem_cons_self, hstart, hstop⟩
          rw [if_pos hstart, checkedAddNat_eq_ok hlt, Exec.ok_bind, if_neg hstop, hrest]
        · exact absurd hstart (BitVec.not_le.mpr (hbefore mapping List.mem_cons_self))
      · rw [if_neg hstart, hrest]

/-! ## The relocated address -/

variable {m : MemRemap M} {addr : PhysicalAddress} {len : ℕ}

omit [Memory M] in
/-- The mapping that is found holds the range. -/
theorem holds_of_firstHolding {x : MemoryMap × PhysicalAddress}
    (hx : m.firstHolding addr len = some x) : x.1.Holds addr len := by
  unfold firstHolding at hx
  have h := List.find?_some hx
  exact of_decide_eq_true h

/-- **The distance from the start of a mapping** is added where it is not negative,
and only there. -/
theorem InsideInner.relocate (h : m.InsideInner) {x : MemoryMap × PhysicalAddress}
    (hx : m.firstHolding addr len = some x) :
    (checkedAddSigned x.2 (addr - x.1.start) : Exec MemoryAccessError PhysicalAddress)
      = if addr.toNat - x.1.start.toNat < 2 ^ 63 then
          .ok (BitVec.ofNat 64 (x.2.toNat + (addr.toNat - x.1.start.toNat)))
        else Exec.panicked := by
  have hmem := List.mem_of_find?_eq_some hx
  have hholds : x.1.Holds addr len := holds_of_firstHolding hx
  obtain ⟨inner, -, -, htarget⟩ := h.target x hmem
  have hstop := inner.stop.isLt
  have hstart : x.1.start.toNat ≤ addr.toNat := hholds.1
  have hend := hholds.2
  have hdist : (addr - x.1.start).toNat = addr.toNat - x.1.start.toNat := toNat_sub_of_le hstart
  have hsum : x.2.toNat + (addr.toNat - x.1.start.toNat) < 2 ^ 64 := by omega
  unfold checkedAddSigned
  rw [BitVec.toInt_eq_toNat_cond, hdist]
  by_cases hhalf : addr.toNat - x.1.start.toNat < 2 ^ 63
  · rw [if_pos hhalf, if_pos (show 2 * (addr.toNat - x.1.start.toNat) < 2 ^ 64 by omega),
      if_pos (by omega)]
    refine congrArg Except.ok (BitVec.eq_of_toNat_eq ?_)
    rw [toNat_add_of_lt (by omega), hdist, BitVec.toNat_ofNat, Nat.mod_eq_of_lt hsum]
  · rw [if_neg hhalf, if_neg (show ¬ 2 * (addr.toNat - x.1.start.toNat) < 2 ^ 64 by omega),
      if_neg (by push_cast; omega)]

/-- A mapping that holds the range is in the list. -/
theorem InsideInner.exists_holds_iff (h : m.InsideInner) :
    (∃ mapping ∈ m.mappings, mapping.Holds addr len) ↔ (m.firstHolding addr len).isSome = true := by
  rw [firstHolding, List.find?_isSome]
  constructor
  · rintro ⟨mapping, hm, hholds⟩
    obtain ⟨i, hi, rfl⟩ := List.getElem_of_mem hm
    have hi' : i < (m.mappings.zip m.remapAt).length := by
      rw [List.length_zip, ← h.length_remapAt, min_self]
      exact hi
    refine ⟨(m.mappings.zip m.remapAt)[i], List.getElem_mem hi', ?_⟩
    rw [List.getElem_zip]
    exact decide_eq_true hholds
  · rintro ⟨x, hx, hholds⟩
    exact ⟨x.1, (List.of_mem_zip hx).1, of_decide_eq_true hholds⟩

/-- **A range is read where it should be** exactly if it ends in the address space, or
begins before all mappings, and is less than half the address space from the start of
its mapping. -/
theorem readsFirstHolding_iff {M : Type} [Memory M] (m : MemRemap M) (h : m.InsideInner)
    (addr : PhysicalAddress) (len : ℕ) : m.ReadsFirstHolding addr len ↔ m.Fits addr len := by
  have hread : Memory.readPhysical m addr len
      = remap (m.mappings.zip m.remapAt) addr len
        >>= fun addr => Memory.readPhysical m.inner addr len := if_pos h.length_remapAt
  constructor
  · intro hreads
    have hstop : addr.toNat + len < 2 ^ 64 ∨ ∀ mapping ∈ m.mappings, addr < mapping.start := by
      by_contra hnot
      obtain ⟨hge, hbefore⟩ := not_or.mp hnot
      push Not at hbefore
      obtain ⟨mapping, hm, hle⟩ := hbefore
      obtain ⟨i, hi, rfl⟩ := List.getElem_of_mem hm
      have hi' : i < (m.mappings.zip m.remapAt).length := by
        rw [List.length_zip, ← h.length_remapAt, min_self]
        exact hi
      refine hreads.noOverflow (remap_eq_panicked hge ⟨_, List.getElem_mem hi', ?_⟩)
      rw [List.getElem_zip]
      exact BitVec.not_lt.mp hle
    refine ⟨hstop, fun x hx => ?_⟩
    by_contra hhalf
    have hholds : x.1.Holds addr len := holds_of_firstHolding hx
    have hlt : addr.toNat + len < 2 ^ 64 := lt_of_le_of_lt hholds.2 x.1.stop.isLt
    refine hreads.noOverflow ?_
    rw [remap_eq_find? hlt, show List.find? _ _ = some x from hx]
    exact (h.relocate hx).trans (if_neg hhalf)
  · intro hfits
    have hvalid : Memory.isValid m addr len = .ok (m.firstHolding addr len).isSome := by
      refine (defaultIsValid_eq hfits.stop).trans (congrArg Except.ok ?_)
      rw [Bool.eq_iff_iff, decide_eq_true_iff]
      exact h.exists_holds_iff
    cases hx : m.firstHolding addr len with
    | none =>
      have hremap : remap (m.mappings.zip m.remapAt) addr len = Exec.fail .outOfBounds := by
        obtain hlt | hbefore := hfits.stop
        · rw [remap_eq_find? hlt, show List.find? _ _ = none from hx]
        · exact remap_eq_fail_of_lt fun x hx => hbefore x.1 (List.of_mem_zip hx).1
      refine ⟨?_, hvalid, ?_⟩
      · rw [hread, hremap, hx]
        rfl
      · rw [hremap]
        exact fun heq => nomatch heq
    | some x =>
      have hholds : x.1.Holds addr len := holds_of_firstHolding hx
      have hlt : addr.toNat + len < 2 ^ 64 := lt_of_le_of_lt hholds.2 x.1.stop.isLt
      have hremap : remap (m.mappings.zip m.remapAt) addr len
          = .ok (BitVec.ofNat 64 (x.2.toNat + (addr.toNat - x.1.start.toNat))) := by
        rw [remap_eq_find? hlt, show List.find? _ _ = some x from hx]
        exact (h.relocate hx).trans (if_pos (hfits.distance x hx))
      refine ⟨?_, hvalid, ?_⟩
      · rw [hread, hremap, hx]
        rfl
      · rw [hremap]
        exact fun heq => nomatch heq

/-- One page of 16 bytes, which is relocated to the beginning of a buffer. -/
def onePage : MemRemap RawMemory where
  mappings := [⟨0x1000, 0x1010⟩]
  remapAt := [0]
  inner := .new (List.replicate 16 7)

/-- **Two bytes from the last address on** make the addition overflow, though no
mapping holds them. -/
theorem not_readsFirstHolding_lastAddress :
    onePage.InsideInner ∧ onePage.firstHolding (-1) 2 = none
      ∧ Memory.readPhysical onePage (-1) 2 = Exec.panicked
      ∧ ¬ onePage.ReadsFirstHolding (-1) 2 := by
  refine ⟨⟨rfl, by decide, by decide⟩, by decide, rfl, fun h => ?_⟩
  exact h.noOverflow rfl

/-- Two bytes in the page are read. -/
theorem readsFirstHolding_onePage : onePage.ReadsFirstHolding 0x1008 2 :=
  (readsFirstHolding_iff onePage ⟨rfl, by decide, by decide⟩ 0x1008 2).mpr
    ⟨Or.inl (by decide), by decide⟩

end MemRemap
