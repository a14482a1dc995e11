import Vminer.Mem

/-!
# Searching a page through a scratch buffer

`Memory::search` reads the page at once where the scratch buffer holds it.
Where it does not, it reads chunks of the buffer's length that overlap by the
length of the needle, so that no occurrence is lost between two of them; but
the position it returns is the one in the chunk. It is the position in the page
exactly for an occurrence in the first chunk
(`defaultSearch_findsFirst_iff`).
-/

/-! ## Scans without errors -/

/-- A scan whose rounds all have a value has one. -/
theorem findSomeM?_eq_ok {ε α β : Type} {f : α → Exec ε (Option β)} {g : α → Option β}
    {l : List α} (h : ∀ a ∈ l, f a = .ok (g a)) : l.findSomeM? f = .ok (l.findSome? g) := by
  induction l with
  | nil => rfl
  | cons a l ih =>
    rw [List.findSomeM?, h a List.mem_cons_self, Exec.ok_bind, List.findSome?_cons]
    cases g a with
    | none => exact ih fun b hb => h b (List.mem_cons_of_mem a hb)
    | some b => rfl

/-- **What a scan of increasing points returns is the value at the first hit.** -/
theorem exists_first_of_findSome? {β : Type} {g : ℕ → Option β} {l : List ℕ}
    (hl : l.Pairwise (· < ·)) {b : β} (h : l.findSome? g = some b) :
    ∃ a ∈ l, g a = some b ∧ ∀ a' ∈ l, a' < a → g a' = none := by
  obtain ⟨front, a, back, rfl, ha, hfront⟩ := List.findSome?_eq_some_iff.mp h
  refine ⟨a, by simp, ha, fun a' ha' hlt => ?_⟩
  obtain hmem | rfl | hmem : a' ∈ front ∨ a' = a ∨ a' ∈ back := by simpa using ha'
  · exact hfront a' hmem
  · exact absurd hlt (lt_irrefl a')
  · have hback := List.rel_of_pairwise_cons (List.pairwise_append.mp hl).2.1 hmem
    exact absurd hlt (not_lt.mpr hback.le)

/-- The points at distance `step` below `stop`. -/
theorem mem_stepBy_iff {stop step o : ℕ} (hstep : 0 < step) :
    o ∈ stepBy 0 stop step ↔ o < stop ∧ step ∣ o := by
  have hcount : ∀ k, k < (stop - 0 + step - 1) / step ↔ step * k < stop := by
    intro k
    rw [Nat.sub_zero, ← Nat.succ_le_iff, Nat.le_div_iff_mul_le hstep, Nat.succ_mul,
      Nat.mul_comm]
    omega
  unfold stepBy
  rw [List.mem_range']
  constructor
  · rintro ⟨k, hk, rfl⟩
    rw [Nat.zero_add]
    exact ⟨(hcount k).mp hk, Dvd.intro k rfl⟩
  · rintro ⟨hlt, k, rfl⟩
    exact ⟨k, (hcount k).mpr hlt, (Nat.zero_add _).symm⟩

theorem pairwise_stepBy (start stop : ℕ) {step : ℕ} (hstep : 0 < step) :
    (stepBy start stop step).Pairwise (· < ·) := List.pairwise_lt_range' step hstep

/-! ## Occurrences in a window -/

section Window

variable {needle bytes : List UInt8} {o size : ℕ}

/-- An occurrence in a window is one in the list that fits into the window. -/
theorem prefix_drop_window_iff {j : ℕ} (hne : needle ≠ []) :
    needle <+: ((bytes.drop o).take size).drop j
      ↔ needle <+: bytes.drop (o + j) ∧ j + needle.length ≤ size := by
  have hpos := List.length_pos_of_ne_nil hne
  rw [List.drop_take, List.drop_drop, List.prefix_take_iff]
  refine and_congr_right fun h => ?_
  omega

/-- The first occurrence in a window, where there is one in it. -/
theorem findSub_window_eq_some {i j : ℕ} (hne : needle ≠ [])
    (hi : findSub needle bytes = some i) (hlo : o ≤ i)
    (h : findSub needle ((bytes.drop o).take size) = some j) : o + j = i := by
  obtain ⟨hle, hocc, hleast⟩ := findSub_eq_some_iff.mp hi
  obtain ⟨-, hocc', hleast'⟩ := findSub_eq_some_iff.mp h
  obtain ⟨hocc', hfits⟩ := (prefix_drop_window_iff hne).mp hocc'
  refine le_antisymm (not_lt.mp fun hlt => ?_) (not_lt.mp fun hlt => hleast _ hlt hocc')
  refine hleast' (i - o) (by omega) ((prefix_drop_window_iff hne).mpr ⟨?_, by omega⟩)
  rwa [Nat.add_sub_cancel' hlo]

/-- A window that holds the first occurrence has one. -/
theorem findSub_window_ne_none {i : ℕ} (hne : needle ≠ [])
    (hi : findSub needle bytes = some i) (hlo : o ≤ i) (hhi : i + needle.length ≤ o + size) :
    findSub needle ((bytes.drop o).take size) ≠ none := by
  intro hnone
  obtain ⟨hle, hocc, -⟩ := findSub_eq_some_iff.mp hi
  have hwin : needle <+: ((bytes.drop o).take size).drop (i - o) := by
    refine (prefix_drop_window_iff hne).mpr ⟨?_, by omega⟩
    rwa [Nat.add_sub_cancel' hlo]
  have hlt := lt_length_of_prefix_drop hne hwin
  exact findSub_eq_none_iff.mp hnone (i - o) hlt.le hwin

/-- Where the list has no occurrence, no window has one. -/
theorem findSub_window_eq_none (hne : needle ≠ []) (h : findSub needle bytes = none) :
    findSub needle ((bytes.drop o).take size) = none := by
  refine findSub_eq_none_iff.mpr fun j _ hocc => ?_
  obtain ⟨hocc, -⟩ := (prefix_drop_window_iff hne).mp hocc
  have hlt := lt_length_of_prefix_drop hne hocc
  exact findSub_eq_none_iff.mp h (o + j) hlt.le hocc

end Window

/-! ## The search -/

section Memory

variable {M : Type} [Memory M]

/-- **A range of memory holds these bytes**: every part of it is readable. -/
structure Memory.HoldsBytes (m : M) (addr : PhysicalAddress) (bytes : List UInt8) : Prop where
  fits : addr.toNat + bytes.length ≤ 2 ^ 64
  read_eq : ∀ i n, i + n ≤ bytes.length →
    Memory.readPhysical m (addr + BitVec.ofNat 64 i) n = .ok ((bytes.drop i).take n)

variable {m : M} {addr : PhysicalAddress} {bytes : List UInt8} {pageSize : U64}
  {needle : List UInt8} {bufLen : ℕ}

/-- **One chunk is searched for what it holds.** -/
theorem searchChunks_eq (needle : List UInt8) (bufLen : ℕ) (hm : Memory.HoldsBytes m addr bytes)
    (hlen : bytes.length = pageSize.toNat) {o : ℕ} (ho : o < pageSize.toNat) :
    searchChunks (Memory.readPhysical m) addr pageSize needle bufLen o
      = .ok ((findSub needle
          ((bytes.drop o).take (min bufLen (pageSize.toNat - o)))).map (BitVec.ofNat 64)) := by
  have hfits := hm.fits
  unfold searchChunks
  rw [checkedAddNat_eq_ok (by omega), Exec.ok_bind, hm.read_eq o _ (by omega), Exec.ok_bind]
  rfl

/-- The chunk an occurrence begins in holds all of it. -/
theorem le_chunk_end {i step : ℕ} (hstep : bufLen - needle.length = step)
    (hbuf : needle.length < bufLen) (hend : i + needle.length ≤ pageSize.toNat) :
    i + needle.length
      ≤ i / step * step + min bufLen (pageSize.toNat - i / step * step) := by
  have hdiv := Nat.div_add_mod' i step
  have hmod := Nat.mod_lt i (show 0 < step by omega)
  omega

/-- **What the chunked search returns** for an occurrence at `i`: the place of
the occurrence in the first chunk that holds it. -/
theorem defaultSearch_of_chunked (hm : Memory.HoldsBytes m addr bytes)
    (hlen : bytes.length = pageSize.toNat) (hne : needle ≠ [])
    (hbuf : needle.length < bufLen) (hpage : bufLen < pageSize.toNat) {i : ℕ}
    (hi : findSub needle bytes = some i) :
    ∃ o ≤ i, defaultSearch (Memory.readPhysical m) addr pageSize needle bufLen
        = .ok (some (BitVec.ofNat 64 (i - o)))
      ∧ (i + needle.length ≤ bufLen ↔ o = 0) := by
  have hstep : 0 < bufLen - needle.length := by omega
  obtain ⟨-, hocc, -⟩ := findSub_eq_some_iff.mp hi
  have hend : i + needle.length ≤ pageSize.toNat := by
    have hle := hocc.length_le
    have hlt := lt_length_of_prefix_drop hne hocc
    rw [List.length_drop] at hle
    omega
  have hlt := lt_length_of_prefix_drop hne hocc
  -- the chunk the occurrence begins in
  have hlo := Nat.div_mul_le_self i (bufLen - needle.length)
  have hmem : i / (bufLen - needle.length) * (bufLen - needle.length)
      ∈ stepBy 0 pageSize.toNat (bufLen - needle.length) :=
    (mem_stepBy_iff hstep).mpr ⟨by omega, Dvd.intro_left _ rfl⟩
  have hhit := findSub_window_ne_none hne hi hlo (le_chunk_end rfl hbuf hend)
  have hscan := findSomeM?_eq_ok (l := stepBy 0 pageSize.toNat (bufLen - needle.length))
    fun o ho => searchChunks_eq needle bufLen hm hlen
      ((mem_stepBy_iff hstep).mp ho).1
  cases hres : (stepBy 0 pageSize.toNat (bufLen - needle.length)).findSome? fun o =>
      (findSub needle ((bytes.drop o).take (min bufLen (pageSize.toNat - o)))).map
        (BitVec.ofNat 64) with
  | none =>
    have hnone := List.findSome?_eq_none_iff.mp hres _ hmem
    exact absurd (Option.map_eq_none_iff.mp hnone) hhit
  | some r =>
    obtain ⟨o, homem, hr, hfirst⟩ := exists_first_of_findSome? (pairwise_stepBy 0 _ hstep) hres
    obtain ⟨j, hj, rfl⟩ := Option.map_eq_some_iff.mp hr
    have hole : o ≤ i := by
      refine le_trans (not_lt.mp fun hgt => ?_) hlo
      exact hhit (Option.map_eq_none_iff.mp (hfirst _ hmem hgt))
    have hsum := findSub_window_eq_some hne hi hole hj
    refine ⟨o, hole, ?_, ?_⟩
    · unfold defaultSearch
      rw [if_neg (by omega), if_pos hbuf, hscan, hres, ← hsum, Nat.add_sub_cancel_left]
    · constructor
      · intro hle
        by_contra ho
        -- the first chunk would have held the occurrence
        have hzero := hfirst 0 ((mem_stepBy_iff hstep).mpr ⟨by omega, dvd_zero _⟩) (by omega)
        exact findSub_window_ne_none hne hi (Nat.zero_le i) (by omega)
          (Option.map_eq_none_iff.mp hzero)
      · rintro rfl
        obtain ⟨-, hocc', -⟩ := findSub_eq_some_iff.mp hj
        have hfits := ((prefix_drop_window_iff hne).mp hocc').2
        omega

/-- A search of the chunks of a page without an occurrence finds nothing. -/
theorem defaultSearch_of_absent (hm : Memory.HoldsBytes m addr bytes)
    (hlen : bytes.length = pageSize.toNat) (hne : needle ≠ [])
    (hbuf : needle.length < bufLen) (hpage : bufLen < pageSize.toNat)
    (hnone : findSub needle bytes = none) :
    defaultSearch (Memory.readPhysical m) addr pageSize needle bufLen = .ok none := by
  have hstep : 0 < bufLen - needle.length := by omega
  unfold defaultSearch
  rw [if_neg (by omega), if_pos hbuf, findSomeM?_eq_ok fun o ho =>
    searchChunks_eq needle bufLen hm hlen
      ((mem_stepBy_iff hstep).mp ho).1]
  refine congrArg _ (List.findSome?_eq_none_iff.mpr fun o _ => ?_)
  rw [findSub_window_eq_none hne hnone]
  rfl

/-- A page that fits into the buffer is searched at once. -/
theorem defaultSearch_of_fits (needle : List UInt8) (hm : Memory.HoldsBytes m addr bytes)
    (hlen : bytes.length = pageSize.toNat) (hpage : pageSize.toNat ≤ bufLen) :
    defaultSearch (Memory.readPhysical m) addr pageSize needle bufLen
      = .ok ((findSub needle bytes).map (BitVec.ofNat 64)) := by
  have hread := hm.read_eq 0 pageSize.toNat (by omega)
  rw [show addr + BitVec.ofNat 64 0 = addr from BitVec.add_zero addr, List.drop_zero,
    List.take_of_length_le hlen.le] at hread
  unfold defaultSearch
  rw [if_pos hpage, hread]
  rfl

/-- **A search finds the first occurrence in the range**, `none` if there is
none. -/
def FindsFirst (bytes needle : List UInt8)
    (result : Exec MemoryAccessError (Option U64)) : Prop :=
  ∃ r, result = .ok r
    ∧ FirstIn (fun i => needle <+: bytes.drop i) 0 bytes.length (r.map BitVec.toNat)

/-- The position a finder returns is the only first one. -/
theorem findsFirst_iff (hlen : bytes.length = pageSize.toNat) (hne : needle ≠ [])
    (result : Exec MemoryAccessError (Option U64)) :
    FindsFirst bytes needle result
      ↔ result = .ok ((findSub needle bytes).map (BitVec.ofNat 64)) := by
  have hfirst := firstIn_findSub bytes hne 0
  simp only [Nat.sub_zero, Nat.zero_add, Option.map_id'] at hfirst
  have hbound : ∀ i, findSub needle bytes = some i → (BitVec.ofNat 64 i).toNat = i := by
    intro i hi
    have hlt := lt_length_of_prefix_drop hne (findSub_eq_some_iff.mp hi).2.1
    have := pageSize.isLt
    exact Nat.mod_eq_of_lt (by omega)
  constructor
  · rintro ⟨r, rfl, hr⟩
    cases hsub : findSub needle bytes with
    | none =>
      rw [hsub] at hfirst
      cases r with
      | none => rfl
      | some a => exact absurd hr.1.2.2 (hfirst _ (Nat.zero_le _) hr.1.2.1)
    | some i =>
      rw [hsub] at hfirst
      cases r with
      | none => exact absurd hfirst.1.2.2 (hr _ (Nat.zero_le _) hfirst.1.2.1)
      | some a =>
        have heq : a.toNat = i := IsLeast.unique hr hfirst
        refine congrArg (fun x => Except.ok (some x)) (BitVec.eq_of_toNat_eq ?_)
        rw [heq, hbound i hsub]
  · rintro rfl
    refine ⟨_, rfl, ?_⟩
    cases hsub : findSub needle bytes with
    | none =>
      rw [hsub] at hfirst
      exact hfirst
    | some i =>
      rw [hsub] at hfirst
      rw [Option.map_some, Option.map_some, hbound i hsub]
      exact hfirst

/-- **The default search is right exactly where the first occurrence is in the
first chunk**: the page fits into the scratch buffer, or it has no occurrence,
or the first one ends inside the buffer's length. There it also agrees with the
search of a flat buffer that holds the same bytes. -/
theorem defaultSearch_findsFirst_iff (m : M) (addr : PhysicalAddress) (bytes : List UInt8)
    (hm : Memory.HoldsBytes m addr bytes) (pageSize : U64)
    (hlen : bytes.length = pageSize.toNat) (needle : List UInt8) (hne : needle ≠ [])
    (bufLen : ℕ) (hbuf : needle.length < bufLen) :
    (FindsFirst bytes needle (defaultSearch (Memory.readPhysical m) addr pageSize needle bufLen)
        ∧ ∀ raw : RawMemory, raw.bytes.length < 2 ^ 64 →
          addr.toNat + pageSize.toNat ≤ raw.bytes.length →
          (raw.bytes.drop addr.toNat).take pageSize.toNat = bytes →
          defaultSearch (Memory.readPhysical m) addr pageSize needle bufLen
            = Memory.search raw addr pageSize needle bufLen)
      ↔ pageSize.toNat ≤ bufLen
        ∨ ∀ i, findSub needle bytes = some i → i + needle.length ≤ bufLen := by
  have hraw : ∀ raw : RawMemory, raw.bytes.length < 2 ^ 64 →
      addr.toNat + pageSize.toNat ≤ raw.bytes.length →
      (raw.bytes.drop addr.toNat).take pageSize.toNat = bytes →
      Memory.search raw addr pageSize needle bufLen
        = .ok ((findSub needle bytes).map (BitVec.ofNat 64)) := by
    intro raw hlt hle heq
    rw [(RawMemory.contract raw).search_eq _ _ _ _ (by omega),
      (RawMemory.readPhysical_eq_ok_iff raw addr _ bytes).mpr ⟨hle, heq⟩]
    rfl
  rw [findsFirst_iff hlen hne]
  by_cases hfits : pageSize.toNat ≤ bufLen
  · have heq := defaultSearch_of_fits needle hm hlen hfits
    exact iff_of_true ⟨heq, fun raw h₁ h₂ h₃ => heq.trans (hraw raw h₁ h₂ h₃).symm⟩
      (Or.inl hfits)
  have hpage : bufLen < pageSize.toNat := not_le.mp hfits
  rw [or_iff_right hfits]
  cases hsub : findSub needle bytes with
  | none =>
    have heq := defaultSearch_of_absent hm hlen hne hbuf hpage hsub
    refine iff_of_true ⟨heq, fun raw h₁ h₂ h₃ => ?_⟩ (fun i hi => absurd hi (by simp))
    rw [heq, hraw raw h₁ h₂ h₃, hsub]
    rfl
  | some i =>
    obtain ⟨o, ho, heq, hzero⟩ := defaultSearch_of_chunked hm hlen hne hbuf hpage hsub
    have hlt := lt_length_of_prefix_drop hne (findSub_eq_some_iff.mp hsub).2.1
    constructor
    · rintro ⟨hright, -⟩ i' hi'
      obtain rfl := Option.some.inj hi'
      rw [heq, Except.ok.injEq, Option.map_some, Option.some.injEq] at hright
      have hnat := congrArg BitVec.toNat hright
      have hsize := pageSize.isLt
      rw [BitVec.toNat_ofNat, BitVec.toNat_ofNat, Nat.mod_eq_of_lt (by omega),
        Nat.mod_eq_of_lt (by omega)] at hnat
      exact hzero.mpr (by omega)
    · intro hcond
      obtain rfl := hzero.mp (hcond i rfl)
      refine ⟨heq, fun raw h₁ h₂ h₃ => ?_⟩
      rw [heq, hraw raw h₁ h₂ h₃, hsub]
      rfl

end Memory

/-- Eight bytes, with a needle in the second half. -/
def lateNeedle : RawMemory := RawMemory.new [0, 0, 0, 0, 0, 7, 0, 0]

theorem lateNeedle_holdsBytes : Memory.HoldsBytes lateNeedle 0 lateNeedle.bytes where
  fits := by decide
  read_eq i n hin := by
    have hlen : lateNeedle.bytes.length = 8 := rfl
    have hi : (0 + BitVec.ofNat 64 i : PhysicalAddress).toNat = i := by
      rw [BitVec.toNat_add, BitVec.toNat_ofNat, show (0 : PhysicalAddress).toNat = 0 from rfl]
      omega
    refine (RawMemory.readPhysical_eq_ok_iff _ _ _ _).mpr ⟨by omega, ?_⟩
    rw [hi]

/-- With a buffer of six bytes the needle is in the first chunk. -/
theorem defaultSearch_lateNeedle :
    FindsFirst lateNeedle.bytes [7]
      (defaultSearch (Memory.readPhysical lateNeedle) 0 8 [7] 6) := by
  refine ((defaultSearch_findsFirst_iff lateNeedle 0 lateNeedle.bytes lateNeedle_holdsBytes 8 rfl
    [7] (by decide) 6 (by decide)).mpr (Or.inr fun i hi => ?_)).1
  obtain rfl : 5 = i := Option.some.inj hi
  decide

/-- **With a buffer of three bytes the search returns the place in a later
chunk**: the needle is at 5, in the chunk that begins at 4. -/
theorem not_findsFirst_lateNeedle :
    defaultSearch (Memory.readPhysical lateNeedle) 0 8 [7] 3 = .ok (some 1)
      ∧ ¬ FindsFirst lateNeedle.bytes [7]
        (defaultSearch (Memory.readPhysical lateNeedle) 0 8 [7] 3) := by
  have hsearch : defaultSearch (Memory.readPhysical lateNeedle) 0 8 [7] 3
      = .ok (some 1) := by decide
  refine ⟨hsearch, ?_⟩
  rintro ⟨r, hr, hfirst⟩
  obtain rfl : some 1 = r := Except.ok.inj (hsearch.symm.trans hr)
  exact absurd hfirst.1.2.2 (by decide)
