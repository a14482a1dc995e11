import Vminer.WindowsSymbols

/-!
# Which codeview records are found

The image of a module is searched through a window: a page, and before it the last
8 bytes of the window before. A record that does not end in the window is read again,
from where its place in the window is thought to be in the image.

The windows lag behind. The first two hold the first page, the second one with the end
of that page before it, and the page that is read last is not looked at. What is read
again is read 8 bytes too far in the first window, and a page and 8 bytes too far in the
others. So which records are found depends on where they lie (`ReadsRight`), and what is
found may be no record at all (`ReadsWrong`).
-/

namespace Codeview

/-! ## Readings -/

/-- **The first record that has a name**, of those that are read one after the other. -/
def firstNamed : List (Exec VmError (List UInt8)) → Exec VmError (Option Codeview)
  | [] => return none
  | reading :: readings => do
    let bytes ← reading
    if (ofBytes bytes).pdbName.isSome then return some (ofBytes bytes)
    else firstNamed readings

/-- A reading that ends the search: what was read has a name, or it could not be read. -/
def Ends (reading : Exec VmError (List UInt8)) : Prop :=
  ∀ bytes, reading = .ok bytes → (ofBytes bytes).pdbName.isSome = true

theorem exists_of_not_ends {reading : Exec VmError (List UInt8)} (h : ¬ Ends reading) :
    ∃ bytes, reading = .ok bytes ∧ ¬ (ofBytes bytes).pdbName.isSome = true := by
  unfold Ends at h
  push Not at h
  exact h

/-- Where no reading ends the search, nothing is found. -/
theorem firstNamed_of_not_ends {readings : List (Exec VmError (List UInt8))}
    (h : ∀ reading ∈ readings, ¬ Ends reading) : firstNamed readings = .ok none := by
  induction readings with
  | nil => rfl
  | cons reading readings ih =>
    obtain ⟨bytes, rfl, hname⟩ := exists_of_not_ends (h _ List.mem_cons_self)
    rw [firstNamed, Exec.ok_bind, if_neg hname]
    exact ih fun reading hreading => h reading (List.mem_cons_of_mem _ hreading)

/-- **The first reading that ends the search** decides it. -/
theorem firstNamed_of_ends {before after : List (Exec VmError (List UInt8))}
    {reading : Exec VmError (List UInt8)} (hbefore : ∀ reading ∈ before, ¬ Ends reading)
    (hends : Ends reading) :
    firstNamed (before ++ reading :: after)
      = reading >>= fun bytes => .ok (some (ofBytes bytes)) := by
  induction before with
  | nil =>
    rw [List.nil_append, firstNamed]
    cases reading with
    | error s => rfl
    | ok bytes =>
      rw [Exec.ok_bind, Exec.ok_bind, if_pos (hends bytes rfl)]
      rfl
  | cons reading' before ih =>
    obtain ⟨bytes, rfl, hname⟩ := exists_of_not_ends (hbefore _ List.mem_cons_self)
    rw [List.cons_append, firstNamed, Exec.ok_bind, if_neg hname]
    exact ih fun reading hreading => hbefore reading (List.mem_cons_of_mem _ hreading)

/-- Readings after others. -/
theorem firstNamed_append (xs ys : List (Exec VmError (List UInt8))) :
    firstNamed (xs ++ ys) = firstNamed xs >>= fun codeview => match codeview with
      | some codeview => .ok (some codeview)
      | none => firstNamed ys := by
  induction xs with
  | nil => rfl
  | cons reading xs ih =>
    rw [List.cons_append, firstNamed, firstNamed]
    cases reading with
    | error s => rfl
    | ok bytes =>
      rw [Exec.ok_bind, Exec.ok_bind]
      by_cases hname : (ofBytes bytes).pdbName.isSome = true
      · rw [if_pos hname, if_pos hname]
        rfl
      · rw [if_neg hname, if_neg hname]
        exact ih

/-! ## Windows -/

section Image

variable (tryReadMemory : TryRead) (addr : VirtualAddress) (image : List UInt8)

/-- A page of the image. -/
def pageAt (j : ℕ) : List UInt8 := (image.drop (0x1000 * j)).take 0x1000

/-- What a window begins with. -/
def carried : ℕ → List UInt8
  | 0 => List.replicate 8 0
  | k + 1 => (pageAt image (k - 1)).drop 0xff8

/-- **A window of the search.** The first two hold the first page. -/
def window (k : ℕ) : List UInt8 := carried image k ++ pageAt image (k - 1)

/-- An occurrence of the magic number in one of the windows. -/
def IsOccurrence (n : ℕ) (o : ℕ × ℕ) : Prop :=
  o.1 < n ∧ rsds <+: (window image o.1).drop o.2

/-- What is read for an occurrence. -/
def reading (o : ℕ × ℕ) : Exec VmError (List UInt8) :=
  if o.2 + size ≤ 0x1008 then .ok (((window image o.1).drop o.2).take size)
  else tryReadMemory (addr + BitVec.ofNat 64 (0x1000 * o.1 + o.2)) (List.replicate size 0)

/-- One occurrence before another, in the order of the search. -/
def Before (o o' : ℕ × ℕ) : Prop :=
  o.1 < o'.1 ∨ o.1 = o'.1 ∧ o.2 < o'.2

/-- **An occurrence whose record is not what is read**: it is cut off by the end of the
window, or it lies before the first page in the second window. -/
def IsMisread (o : ℕ × ℕ) : Prop := 0x1008 < o.2 + size ∨ o.1 = 1 ∧ o.2 < 8

/-- The occurrences in their order. -/
def occurrences (n : ℕ) : List (ℕ × ℕ) :=
  (List.range' 0 n).flatMap fun k => (findIter rsds 0 0 (window image k)).map (Prod.mk k)

/-- **A reader to which the image is readable.** -/
def Reads : Prop :=
  ∀ (start : ℕ) (buf : List UInt8), start + buf.length ≤ image.length →
    tryReadMemory (addr + BitVec.ofNat 64 start) buf = .ok ((image.drop start).take buf.length)

variable {image} {n : ℕ}

theorem mem_occurrences_iff (o : ℕ × ℕ) :
    o ∈ occurrences image n ↔ IsOccurrence image n o := by
  have hiter : ∀ k index, index ∈ findIter rsds 0 0 (window image k)
      ↔ rsds <+: (window image k).drop index := by
    intro k index
    rw [rsds, mem_findIter_iff (by decide) _ _ _ _ fun t ht => absurd ht (Nat.not_lt_zero _)]
    simp only [Nat.zero_add, exists_eq_left']
  obtain ⟨k, index⟩ := o
  rw [occurrences, List.mem_flatMap, IsOccurrence, ← hiter k index]
  constructor
  · rintro ⟨k', hk', hmem⟩
    obtain ⟨index', hindex', heq⟩ := List.mem_map.mp hmem
    obtain ⟨rfl, rfl⟩ := Prod.mk.inj heq
    exact ⟨by simpa using (List.mem_range'_1.mp hk').2, hindex'⟩
  · rintro ⟨hk, hindex⟩
    exact ⟨k, List.mem_range'_1.mpr ⟨Nat.zero_le _, by simpa using hk⟩,
      List.mem_map.mpr ⟨index, hindex, rfl⟩⟩

theorem pairwise_occurrences (image : List UInt8) (n : ℕ) :
    (occurrences image n).Pairwise Before := by
  rw [occurrences, List.pairwise_flatMap]
  refine ⟨fun k _ => List.pairwise_map.mpr ?_, ?_⟩
  · exact (pairwise_findIter _ _ _ _).imp fun hlt => Or.inr ⟨rfl, hlt⟩
  · refine (List.pairwise_lt_range' ..).imp fun hlt o ho o' ho' => Or.inl ?_
    obtain ⟨index, -, rfl⟩ := List.mem_map.mp ho
    obtain ⟨index', -, rfl⟩ := List.mem_map.mp ho'
    exact hlt

/-! ## The search -/

section Search

variable {tryReadMemory addr} (hlen : image.length = 0x1000 * n)

include hlen

theorem length_pageAt {j : ℕ} (hj : j < n) : (pageAt image j).length = 0x1000 := by
  rw [pageAt, List.length_take, List.length_drop, hlen]
  omega

theorem length_carried {k : ℕ} (hk : k ≤ n) (hn : 0 < n) : (carried image k).length = 8 := by
  cases k with
  | zero => rfl
  | succ k => rw [carried, List.length_drop, length_pageAt hlen (by omega)]

theorem length_window {k : ℕ} (hk : k ≤ n) (hn : 0 < n) : (window image k).length = 0x1008 := by
  rw [window, List.length_append, length_carried hlen hk hn, length_pageAt hlen (by omega)]

/-- The address of a page of the image. -/
theorem checkedAdd_page (hfit : addr.toNat + image.length < 2 ^ 64) {k : ℕ} (hk : k < n) :
    (checkedAdd addr (BitVec.ofNat 64 (0x1000 * k)) : Exec VmError U64)
      = .ok (addr + BitVec.ofNat 64 (0x1000 * k)) := by
  refine checkedAdd_eq_ok ?_
  rw [BitVec.toNat_ofNat, Nat.mod_eq_of_lt (by omega)]
  omega

variable (hpage : addr.toNat % 0x1000 = 0) (hfit : addr.toNat + image.length < 2 ^ 64)

include hpage hfit

/-- **The occurrences of a window** are read one after the other. -/
theorem findCodeview_eq {k : ℕ} (hk : k < n) {indices : List ℕ}
    (h : ∀ index ∈ indices, index < 0x1008) :
    findCodeview tryReadMemory addr (BitVec.ofNat 64 (0x1000 * k)) (window image k) indices
      = firstNamed (indices.map fun index => reading tryReadMemory addr image (k, index)) := by
  induction indices with
  | nil => rfl
  | cons index indices ih =>
    have hindex := h index List.mem_cons_self
    rw [List.map_cons, firstNamed, ← ih fun index hindex => h index (List.mem_cons_of_mem _ hindex),
      findCodeview, length_window hlen hk.le (Nat.zero_lt_of_lt hk), reading]
    by_cases hwhole : index + size ≤ 0x1008
    · rw [if_pos hwhole, if_pos hwhole]
      rfl
    · have hnat : (addr + BitVec.ofNat 64 (0x1000 * k)).toNat = addr.toNat + 0x1000 * k := by
        rw [toNat_add_of_lt, BitVec.toNat_ofNat, Nat.mod_eq_of_lt (by omega)]
        rw [BitVec.toNat_ofNat, Nat.mod_eq_of_lt (by omega)]
        omega
      have hstart : (checkedAddNat (addr + BitVec.ofNat 64 (0x1000 * k)) index : Exec VmError U64)
          = .ok (addr + BitVec.ofNat 64 (0x1000 * k + index)) := by
        rw [checkedAddNat_eq_ok (by omega), BitVec.add_assoc, ← BitVec.ofNat_add]
      rw [if_neg hwhole, if_neg hwhole, checkedAdd_page hlen hfit hk, Exec.ok_bind, hstart,
        Exec.ok_bind]

/-- **The loop goes through the windows.** -/
theorem peGetPdbGuidFrom_eq (hread : Reads tryReadMemory addr image) {k pages : ℕ}
    (hpages : k + pages = n) :
    peGetPdbGuidFrom tryReadMemory addr pages (BitVec.ofNat 64 (0x1000 * k)) (window image k)
      = firstNamed (((List.range' k pages).flatMap fun k =>
          (findIter rsds 0 0 (window image k)).map (Prod.mk k)).map
            (reading tryReadMemory addr image)) := by
  induction pages generalizing k with
  | zero => rfl
  | succ pages ih =>
    have hk : k < n := by omega
    have hwindow := length_window hlen hk.le (Nat.zero_lt_of_lt hk)
    have hindices : ∀ index ∈ findIter rsds 0 0 (window image k), index < 0x1008 := by
      intro index hindex
      rw [rsds, mem_findIter_iff (by decide) _ _ _ _ fun t ht => absurd ht (Nat.not_lt_zero _)]
        at hindex
      obtain ⟨t, rfl, hocc⟩ := hindex
      rw [Nat.zero_add, ← hwindow]
      exact lt_length_of_prefix_drop (List.cons_ne_nil _ _) hocc
    have hpageLen : ((window image k).drop 8).length = 0x1000 := by
      rw [List.length_drop, hwindow]
    have hnext := hread (0x1000 * k) ((window image k).drop 8) (by omega)
    have hcarried : (window image k).drop 0x1000 = carried image (k + 1) := by
      rw [window, List.drop_append, length_carried hlen hk.le (Nat.zero_lt_of_lt hk),
        List.drop_eq_nil_of_le (by rw [length_carried hlen hk.le (Nat.zero_lt_of_lt hk)]; decide)]
      rfl
    have hoffset : (BitVec.ofNat 64 (0x1000 * k) + 0x1000 : U64)
        = BitVec.ofNat 64 (0x1000 * (k + 1)) := by
      rw [Nat.mul_succ, BitVec.ofNat_add]
      rfl
    rw [peGetPdbGuidFrom, findCodeview_eq hlen hpage hfit hk hindices, List.range'_succ,
      List.flatMap_cons, List.map_append, firstNamed_append, List.map_map]
    refine congrArg _ (funext fun codeview => ?_)
    cases codeview with
    | some codeview => rfl
    | none =>
      rw [hpageLen] at hnext
      show (do
        let start ← checkedAdd addr (BitVec.ofNat 64 (0x1000 * k))
        let page ← tryReadMemory start ((window image k).drop 8)
        peGetPdbGuidFrom tryReadMemory addr pages (BitVec.ofNat 64 (0x1000 * k) + 0x1000)
          ((window image k).drop 0x1000 ++ page)) = _
      rw [checkedAdd_page hlen hfit hk, Exec.ok_bind, hnext, Exec.ok_bind, hcarried, hoffset]
      exact ih (by omega)

/-- **The search reads the occurrences in their order.** -/
theorem peGetPdbGuid_eq (hread : Reads tryReadMemory addr image) (hn : 0 < n) :
    peGetPdbGuid tryReadMemory addr (BitVec.ofNat 64 image.length)
      = firstNamed ((occurrences image n).map (reading tryReadMemory addr image)) := by
  have hfirst := hread 0 (List.replicate 0x1000 0) (by rw [List.length_replicate]; omega)
  rw [BitVec.add_zero, List.length_replicate] at hfirst
  have hcount : ((BitVec.ofNat 64 image.length).toNat + 0xfff) / 0x1000 = n := by
    rw [BitVec.toNat_ofNat, Nat.mod_eq_of_lt (by omega)]
    omega
  rw [peGetPdbGuid, hfirst, Exec.ok_bind, hcount]
  exact peGetPdbGuidFrom_eq hlen hpage hfit hread (Nat.zero_add n)

end Search

/-! ## Records -/

variable (image)

/-- **A complete record of the image**, with a name. -/
structure IsRecordAt (p : ℕ) (codeview : Codeview) : Prop where
  fits : p + size ≤ image.length
  magic : rsds <+: image.drop p
  eq_ofBytes : codeview = ofBytes ((image.drop p).take size)
  named : codeview.pdbName.isSome = true

/-- An image with a record. -/
def HasRecord : Prop := ∃ p codeview, IsRecordAt image p codeview

/-- **What a search should find**: a record of the image, if there is one. -/
def FindsRecord (found : Exec VmError (Option Codeview)) : Prop :=
  ((∃ codeview, found = .ok (some codeview)) ↔ HasRecord image)
    ∧ ∀ codeview, found = .ok (some codeview) → ∃ p, IsRecordAt image p codeview

/-- What was read is a record of the image, or it could not be read and there is none. -/
def IsGenuine (reading : Exec VmError (List UInt8)) : Prop :=
  (∃ bytes, reading = .ok bytes ∧ ∃ p, IsRecordAt image p (ofBytes bytes))
    ∨ (∃ s, reading = .error s) ∧ ¬ HasRecord image

/-! ## What is right in the search, and what is wrong -/

/-- **When a record of the image is read**, by the round and the place in its window: it ends in
its page, which is the first one or not the last, or it begins in the last 8 bytes of a page that
two others follow. -/
inductive ReadsRight (n : ℕ) : ℕ × ℕ → ℕ → Prop
  | firstPage {p : ℕ} : p + size ≤ 0x1000 → ReadsRight n (0, p + 8) p
  | page {p : ℕ} : p % 0x1000 + size ≤ 0x1000 → p / 0x1000 + 1 < n →
      ReadsRight n (p / 0x1000 + 1, p % 0x1000 + 8) p
  | carried {p : ℕ} : 0xff8 ≤ p % 0x1000 → p / 0x1000 + 2 < n →
      ReadsRight n (p / 0x1000 + 2, p % 0x1000 - 0xff8) p

/-- **A magic number near the end of its page**, which has no room for the record. -/
structure IsCutAt (p : ℕ) : Prop where
  magic : rsds <+: image.drop p
  inside : p % 0x1000 + 4 ≤ 0x1000
  cut : 0x1000 < p % 0x1000 + size

/-- The image after the last 8 bytes of its first page. -/
def seam : List UInt8 := (image.take 0x1000).drop 0xff8 ++ image

/-- **When something else is read for a record**: for one that is cut, in the first round what is
8 bytes behind it, later what is a page and 8 bytes behind it; and in the second round what
begins in the end of the first page that is before it. -/
inductive ReadsWrong (n : ℕ) : ℕ × ℕ → Exec VmError (List UInt8) → Prop
  | firstPage {p : ℕ} : IsCutAt image p → p < 0x1000 →
      ReadsWrong n (0, p + 8)
        (tryReadMemory (addr + BitVec.ofNat 64 (p + 8)) (List.replicate size 0))
  | page {p : ℕ} : IsCutAt image p → p / 0x1000 + 1 < n →
      ReadsWrong n (p / 0x1000 + 1, p % 0x1000 + 8)
        (tryReadMemory (addr + BitVec.ofNat 64 (p + 0x1008)) (List.replicate size 0))
  | seam {i : ℕ} : i < 8 → 1 < n → rsds <+: (seam image).drop i →
      ReadsWrong n (1, i) (.ok (((seam image).drop i).take size))

/-- Bytes that are also those at a magic number of the image. -/
def AreAtMagic (bytes : List UInt8) : Prop :=
  ∃ p, p + size ≤ image.length ∧ rsds <+: image.drop p
    ∧ ofBytes bytes = ofBytes ((image.drop p).take size)

variable {image}

/-- A search that finds nothing. -/
theorem findsRecord_none_iff : FindsRecord image (.ok none) ↔ ¬ HasRecord image := by
  unfold FindsRecord
  simp

/-- A search that a reading ended. -/
theorem findsRecord_bind_iff (reading : Exec VmError (List UInt8)) :
    FindsRecord image (reading >>= fun bytes => .ok (some (ofBytes bytes)))
      ↔ IsGenuine image reading := by
  cases reading with
  | error s =>
    rw [Exec.error_bind]
    constructor
    · exact fun h => Or.inr ⟨⟨s, rfl⟩, fun hrecord => (nomatch (h.1.mpr hrecord).choose_spec)⟩
    · rintro (⟨bytes, hbytes, -⟩ | ⟨-, hnone⟩)
      · cases hbytes
      · exact ⟨⟨fun h => (nomatch h.choose_spec), fun hrecord => absurd hrecord hnone⟩,
          fun codeview h => (nomatch h)⟩
  | ok bytes =>
    rw [Exec.ok_bind]
    constructor
    · exact fun h => Or.inl ⟨bytes, rfl, h.2 _ rfl⟩
    · rintro (⟨bytes', hbytes, p, hp⟩ | ⟨⟨s, hs⟩, -⟩)
      · obtain rfl := Except.ok.inj hbytes
        refine ⟨⟨fun _ => ⟨p, _, hp⟩, fun _ => ⟨_, rfl⟩⟩, fun codeview h => ⟨p, ?_⟩⟩
        obtain rfl := Option.some.inj (Except.ok.inj h)
        exact hp
      · cases hs

/-- An occurrence that nothing comes before ends the search, or none does. -/
theorem exists_first_occurrence (image : List UInt8) (n : ℕ) (ends : ℕ × ℕ → Prop) :
    (∀ o, IsOccurrence image n o → ¬ ends o)
      ∨ ∃ before o after, occurrences image n = before ++ o :: after ∧ ends o
        ∧ ∀ o' ∈ before, ¬ ends o' := by
  classical
  cases hfind : (occurrences image n).find? (ends ·) with
  | none =>
    refine Or.inl fun o ho => ?_
    exact of_decide_eq_false (Bool.not_eq_true _ ▸
      List.find?_eq_none.mp hfind o ((mem_occurrences_iff o).mpr ho))
  | some o =>
    obtain ⟨hends, before, after, heq, hbefore⟩ := List.find?_eq_some_iff_append.mp hfind
    refine Or.inr ⟨before, o, after, heq, of_decide_eq_true hends, fun o' ho' => ?_⟩
    simpa using hbefore o' ho'

theorem mem_of_before {before after : List (ℕ × ℕ)} {o o' : ℕ × ℕ}
    (heq : occurrences image n = before ++ o :: after) (ho' : IsOccurrence image n o')
    (hlt : Before o' o) : o' ∈ before := by
  have hmem := (mem_occurrences_iff o').mpr ho'
  rw [heq, List.mem_append, List.mem_cons] at hmem
  have hafter := (List.pairwise_cons.mp
    (List.pairwise_append.mp (heq ▸ pairwise_occurrences image n)).2.1).1
  unfold Before at hlt hafter
  obtain h | rfl | h := hmem
  · exact h
  · omega
  · have := hafter o' h
    omega

/-- The first occurrence to end the search is the only one. -/
theorem eq_of_first {before after : List (ℕ × ℕ)} {o o' : ℕ × ℕ} {ends : ℕ × ℕ → Prop}
    (heq : occurrences image n = before ++ o :: after) (hends : ends o)
    (hbefore : ∀ o' ∈ before, ¬ ends o') (ho' : IsOccurrence image n o') (hends' : ends o')
    (hfirst : ∀ o'', IsOccurrence image n o'' → Before o'' o' → ¬ ends o'') : o' = o := by
  have hmem := (mem_occurrences_iff o').mpr ho'
  rw [heq, List.mem_append, List.mem_cons] at hmem
  obtain h | h | h := hmem
  · exact absurd hends' (hbefore o' h)
  · exact h
  · have hlt := (List.pairwise_cons.mp (List.pairwise_append.mp
      (heq ▸ pairwise_occurrences image n)).2.1).1 o' h
    have ho := (mem_occurrences_iff o).mp (heq ▸ List.mem_append_right _ List.mem_cons_self)
    exact absurd hends (hfirst o ho hlt)

/-! ## What is in the windows -/

section Windows

variable (hlen : image.length = 0x1000 * n)

include hlen

/-- **A byte of a window is one of the image**, but for what the first two windows begin
with. -/
theorem window_getElem? {k i p : ℕ} (hk : k < n) (hi : i < 0x1008) (hcarried : 8 ≤ i ∨ 2 ≤ k)
    (hp : p + 8 = 0x1000 * (k - 1) + i) : (window image k)[i]? = image[p]? := by
  have hlength := length_carried hlen hk.le (Nat.zero_lt_of_lt hk)
  have hpageAt : ∀ j t, t < 0x1000 → (pageAt image j)[t]? = image[0x1000 * j + t]? := by
    intro j t ht
    rw [pageAt, List.getElem?_take_of_lt ht, List.getElem?_drop]
  obtain h | h := lt_or_ge i 8
  · obtain ⟨k, rfl⟩ := Nat.exists_eq_add_of_le' (hcarried.resolve_left (Nat.not_le.mpr h))
    rw [window, List.getElem?_append_left (hlength ▸ h), carried, List.getElem?_drop,
      hpageAt _ _ (by omega)]
    congr 1
    omega
  · rw [window, List.getElem?_append_right (hlength ▸ h), hlength, hpageAt _ _ (by omega)]
    congr 1
    omega

/-- **What is whole in a window** is that of the image. -/
theorem window_take_eq {k i p m : ℕ} (hk : k < n) (hwhole : i + m ≤ 0x1008)
    (hcarried : 8 ≤ i ∨ 2 ≤ k) (hp : p + 8 = 0x1000 * (k - 1) + i) :
    ((window image k).drop i).take m = (image.drop p).take m := by
  refine List.ext_getElem? fun t => ?_
  rw [List.getElem?_take, List.getElem?_take]
  split
  · rw [List.getElem?_drop, List.getElem?_drop]
    exact window_getElem? hlen hk (by omega) (hcarried.imp_left fun h => Nat.le_add_right_of_le h)
      (by omega)
  · rfl

omit hlen in
/-- A place in a window is one of the image. -/
theorem readsRight_iff (hn : 0 < n) (k i p : ℕ) :
    ReadsRight n (k, i) p
      ↔ k < n ∧ i + size ≤ 0x1008 ∧ (8 ≤ i ∨ 2 ≤ k) ∧ p + 8 = 0x1000 * (k - 1) + i := by
  have hsize : size = 48 := rfl
  constructor
  · rintro (hfits | ⟨hfits, hlt⟩ | ⟨hlast, hlt⟩)
    · omega
    · omega
    · omega
  · rintro ⟨hk, hwhole, hcarried, hp⟩
    obtain rfl | hpos := Nat.eq_zero_or_pos k
    · obtain rfl : i = p + 8 := by omega
      exact .firstPage (by omega)
    · by_cases hi : 8 ≤ i
      · obtain ⟨rfl, rfl⟩ : k = p / 0x1000 + 1 ∧ i = p % 0x1000 + 8 := by omega
        exact .page (by omega) hk
      · have hround : k = p / 0x1000 + 2 := by omega
        have hplace : i = p % 0x1000 - 0xff8 := by omega
        rw [hround] at hk ⊢
        rw [hplace]
        exact .carried (by omega) hk

/-- The magic number is in the window where it is in the image. -/
theorem isOccurrence_iff {k i p : ℕ} (hk : k < n) (hwhole : i + 4 ≤ 0x1008)
    (hcarried : 8 ≤ i ∨ 2 ≤ k) (hp : p + 8 = 0x1000 * (k - 1) + i) :
    IsOccurrence image n (k, i) ↔ rsds <+: image.drop p := by
  have htake : ((window image k).drop i).take 4 = (image.drop p).take 4 :=
    window_take_eq hlen hk hwhole hcarried hp
  have hlength : rsds.length = 4 := rfl
  rw [IsOccurrence, List.prefix_iff_eq_take, List.prefix_iff_eq_take, hlength, htake]
  exact and_iff_right hk

/-- The end of an occurrence is in the window. -/
theorem add_four_le {o : ℕ × ℕ} (hocc : IsOccurrence image n o) : o.2 + 4 ≤ 0x1008 := by
  have hlength : rsds.length = 4 := rfl
  have hle := hocc.2.length_le
  rw [List.length_drop, length_window hlen hocc.1.le (Nat.zero_lt_of_lt hocc.1)] at hle
  omega

omit hlen in
/-- The first window begins with zeros. -/
theorem eight_le_of_isOccurrence {i : ℕ} (hocc : IsOccurrence image n (0, i)) : 8 ≤ i := by
  by_contra hnot
  have hzero : (window image 0)[i]? = some 0 := by
    rw [window, carried, List.getElem?_append_left (by rw [List.length_replicate]; omega),
      List.getElem?_replicate, if_pos (by omega)]
  obtain ⟨rest, hrest⟩ := hocc.2
  have hhead : ((window image 0).drop i)[0]? = some 0 := by
    rw [List.getElem?_drop, Nat.add_zero, hzero]
  rw [← hrest] at hhead
  exact absurd (Option.some.inj hhead) (by decide)

/-- **An occurrence that is not misread** is one of the image, and is read as it is
there. -/
theorem exists_isRecordAt {o : ℕ × ℕ} (hocc : IsOccurrence image n o) (hread : ¬ IsMisread o)
    (hends : Ends (reading tryReadMemory addr image o)) :
    ∃ p, reading tryReadMemory addr image o = .ok ((image.drop p).take size)
      ∧ IsRecordAt image p (ofBytes ((image.drop p).take size)) ∧ ReadsRight n o p := by
  obtain ⟨k, i⟩ := o
  have hmisread : ¬ (0x1008 < i + size ∨ k = 1 ∧ i < 8) := hread
  have hk : k < n := hocc.1
  have hwhole : i + size ≤ 0x1008 := by omega
  have hcarried : 8 ≤ i ∨ 2 ≤ k := by
    by_contra hnot
    obtain rfl : k = 0 := by omega
    have := eight_le_of_isOccurrence hocc
    omega
  have hsize : size = 48 := rfl
  obtain ⟨p, hp⟩ : ∃ p, p + 8 = 0x1000 * (k - 1) + i := ⟨0x1000 * (k - 1) + i - 8, by omega⟩
  have hreading : reading tryReadMemory addr image (k, i) = .ok ((image.drop p).take size) := by
    rw [reading, if_pos hwhole, window_take_eq hlen hk hwhole hcarried hp]
  refine ⟨p, hreading, ⟨?_, ?_, rfl, hends _ hreading⟩, ?_⟩
  · omega
  · exact (isOccurrence_iff hlen hk (by omega) hcarried hp).mp hocc
  · exact (readsRight_iff (Nat.zero_lt_of_lt hk) k i p).mpr ⟨hk, hwhole, hcarried, hp⟩

/-- **A record that is whole in a window is read**, and ends the search if no other
occurrence does before. -/
theorem isOccurrence_of_readsRight {p : ℕ} {codeview : Codeview} {o : ℕ × ℕ} (hn : 0 < n)
    (hrecord : IsRecordAt image p codeview) (hright : ReadsRight n o p) :
    IsOccurrence image n o ∧ ¬ IsMisread o ∧ Ends (reading tryReadMemory addr image o) := by
  have hsize : size = 48 := rfl
  obtain ⟨k, i⟩ := o
  obtain ⟨hk, hwhole, hcarried, hp⟩ := (readsRight_iff hn k i p).mp hright
  refine ⟨(isOccurrence_iff hlen hk (by omega) hcarried hp).mpr hrecord.magic, ?_,
    fun bytes hbytes => ?_⟩
  · show ¬ (0x1008 < i + size ∨ k = 1 ∧ i < 8)
    omega
  · rw [reading, if_pos hwhole, window_take_eq hlen hk hwhole hcarried hp] at hbytes
    rw [← Except.ok.inj hbytes, ← hrecord.eq_ofBytes]
    exact hrecord.named

omit hlen in
/-- The second window is the beginning of the seam. -/
theorem window_one (image : List UInt8) (hlen : 8 ≤ ((image.take 0x1000).drop 0xff8).length) :
    window image 1 = (seam image).take 0x1008 := by
  have height : ((image.take 0x1000).drop 0xff8).length = 8 :=
    le_antisymm (by rw [List.length_drop, List.length_take]; omega) hlen
  rw [seam, List.take_append, List.take_of_length_le (by omega), height]
  rfl

/-- **An occurrence that is misread**, in terms of the image. -/
theorem readsWrong_iff (hn : 0 < n) (o : ℕ × ℕ) (taken : Exec VmError (List UInt8)) :
    ReadsWrong tryReadMemory addr image n o taken
      ↔ IsOccurrence image n o ∧ IsMisread o ∧ reading tryReadMemory addr image o = taken := by
  have hsize : size = 48 := rfl
  have hseam : window image 1 = (seam image).take 0x1008 := by
    refine window_one image ?_
    rw [List.length_drop, List.length_take, hlen]
    omega
  have hmagic : ∀ i, i < 8 → (rsds <+: (window image 1).drop i ↔ rsds <+: (seam image).drop i) := by
    intro i hi
    rw [hseam, List.drop_take, List.prefix_take_iff]
    exact and_iff_left (show 4 ≤ 0x1008 - i by omega)
  have hcut : ∀ {k i p : ℕ}, k < n → 0x1008 < i + size → p + 8 = 0x1000 * (k - 1) + i →
      i + 4 ≤ 0x1008 → (IsOccurrence image n (k, i) ↔ IsCutAt image p) := by
    intro k i p hk hlong hp hinside
    rw [isOccurrence_iff hlen hk hinside (Or.inl (by omega)) hp]
    exact ⟨fun h => ⟨h, by omega, by omega⟩, fun h => h.magic⟩
  have hreading : ∀ {k i p : ℕ}, 0x1008 < i + size → 0x1000 * k + i = p →
      reading tryReadMemory addr image (k, i)
        = tryReadMemory (addr + BitVec.ofNat 64 p) (List.replicate size 0) := by
    rintro k i p hlong rfl
    exact if_neg (Nat.not_le.mpr hlong)
  constructor
  · rintro (⟨hp, hfirst⟩ | ⟨hp, hlt⟩ | ⟨hi, hlt, hseamMagic⟩)
    · obtain ⟨-, hinside, hlong⟩ := id hp
      exact ⟨(hcut hn (by omega) (by omega) (by omega)).mpr hp, Or.inl (by dsimp only; omega),
        hreading (by omega) (by omega)⟩
    · obtain ⟨-, hinside, hlong⟩ := id hp
      exact ⟨(hcut hlt (by omega) (by omega) (by omega)).mpr hp, Or.inl (by dsimp only; omega),
        hreading (by omega) (by omega)⟩
    · refine ⟨⟨hlt, (hmagic _ hi).mpr hseamMagic⟩, Or.inr ⟨rfl, hi⟩, ?_⟩
      rw [reading, if_pos (by dsimp only; omega), hseam, List.drop_take, List.take_take,
        Nat.min_eq_left (by dsimp only; omega)]
  · rintro ⟨hocc, hmisread, rfl⟩
    have hinside := add_four_le hlen hocc
    obtain ⟨k, i⟩ := o
    have hk : k < n := hocc.1
    by_cases hlong : 0x1008 < i + size
    · obtain ⟨p, hp⟩ : ∃ p, p + 8 = 0x1000 * (k - 1) + i := ⟨0x1000 * (k - 1) + i - 8, by omega⟩
      have hcutAt := (hcut hk hlong hp hinside).mp hocc
      obtain rfl | hpos := Nat.eq_zero_or_pos k
      · obtain rfl : i = p + 8 := by omega
        rw [hreading (p := p + 8) hlong (by omega)]
        exact .firstPage hcutAt (by omega)
      · obtain ⟨rfl, rfl⟩ : k = p / 0x1000 + 1 ∧ i = p % 0x1000 + 8 := by
          dsimp only at hinside
          omega
        rw [hreading (p := p + 0x1008) hlong (by omega)]
        exact .page hcutAt hk
    · obtain ⟨rfl, hi⟩ : k = 1 ∧ i < 8 := hmisread.resolve_left hlong
      have htake :
          reading tryReadMemory addr image (1, i) = .ok (((seam image).drop i).take size) := by
        rw [reading, if_pos (by dsimp only; omega), hseam, List.drop_take, List.take_take,
          Nat.min_eq_left (by dsimp only; omega)]
      rw [htake]
      exact .seam hi hk ((hmagic i hi).mp hocc.2)

end Windows

/-- **In terms of the windows**: nothing misread is taken for a record, and one lies where a
window holds it. -/
theorem findsRecord_iff_windows {tryReadMemory : TryRead} {addr : VirtualAddress} (hn : 0 < n)
    (hlen : image.length = 0x1000 * n) (hpage : addr.toNat % 0x1000 = 0)
    (hfit : addr.toNat + image.length < 2 ^ 64) (hread : Reads tryReadMemory addr image) :
    FindsRecord image (peGetPdbGuid tryReadMemory addr (BitVec.ofNat 64 image.length))
      ↔ (∀ o, IsOccurrence image n o → IsMisread o → Ends (reading tryReadMemory addr image o) →
          (∀ o', IsOccurrence image n o' → Before o' o →
            ¬ Ends (reading tryReadMemory addr image o')) →
          IsGenuine image (reading tryReadMemory addr image o))
        ∧ (HasRecord image →
          (∃ p codeview o, IsRecordAt image p codeview ∧ ReadsRight n o p)
            ∨ ∃ o, IsOccurrence image n o ∧ IsMisread o
              ∧ Ends (reading tryReadMemory addr image o)) := by
  rw [peGetPdbGuid_eq hlen hpage hfit hread hn]
  obtain hnone | ⟨before, o, after, heq, hends, hbefore⟩ :=
    exists_first_occurrence image n fun o => Ends (reading tryReadMemory addr image o)
  · -- nothing ends the search
    rw [firstNamed_of_not_ends fun reading' hmem => by
      obtain ⟨o, ho, rfl⟩ := List.mem_map.mp hmem
      exact hnone o ((mem_occurrences_iff o).mp ho), findsRecord_none_iff]
    refine ⟨fun hrecord => ⟨fun o ho _ hends => absurd hends (hnone o ho),
      fun h => absurd h hrecord⟩, fun h hrecord => ?_⟩
    obtain ⟨p, codeview, o, hp, hright⟩ | ⟨o, ho, -, hends⟩ := h.2 hrecord
    · obtain ⟨ho, -, hends⟩ := isOccurrence_of_readsRight tryReadMemory addr hlen hn hp hright
      exact hnone o ho hends
    · exact hnone o ho hends
  · have ho : IsOccurrence image n o :=
      (mem_occurrences_iff o).mp (heq ▸ List.mem_append_right _ List.mem_cons_self)
    rw [heq, List.map_append, List.map_cons, firstNamed_of_ends (fun reading' hmem => by
      obtain ⟨o', ho', rfl⟩ := List.mem_map.mp hmem
      exact hbefore o' ho') hends, findsRecord_bind_iff]
    by_cases hmisread : IsMisread o
    · constructor
      · refine fun hgenuine => ⟨fun o' ho' _ hends' hfirst => ?_,
          fun _ => Or.inr ⟨o, ho, hmisread, hends⟩⟩
        rwa [eq_of_first heq hends hbefore ho' hends' hfirst]
      · exact fun h => h.1 o ho hmisread hends fun o' ho' hlt =>
          hbefore o' (mem_of_before heq ho' hlt)
    · obtain ⟨p, hreading, hrecord, hright⟩ :=
        exists_isRecordAt tryReadMemory addr hlen ho hmisread hends
      refine iff_of_true (Or.inl ⟨_, hreading, p, hrecord⟩)
        ⟨fun o' ho' hmisread' hends' hfirst => ?_, fun _ => Or.inl ⟨p, _, o, hrecord, hright⟩⟩
      exact absurd (eq_of_first heq hends hbefore ho' hends' hfirst ▸ hmisread') hmisread

/-- What ends the search is genuine if it is also at a magic number of the image. -/
theorem isGenuine_iff {taken : Exec VmError (List UInt8)} (hends : Ends taken) :
    IsGenuine image taken ↔ (∀ bytes, taken = .ok bytes → AreAtMagic image bytes)
      ∧ ((∃ s, taken = .error s) → ¬ HasRecord image) := by
  cases taken with
  | error s =>
    exact ⟨fun h => ⟨fun _ hbytes => (nomatch hbytes), fun _ => h.elim
      (fun ⟨_, hbytes, _⟩ => (nomatch hbytes)) And.right⟩, fun h => Or.inr ⟨⟨s, rfl⟩, h.2 ⟨s, rfl⟩⟩⟩
  | ok bytes =>
    have hname := hends bytes rfl
    constructor
    · rintro (⟨bytes', hbytes, p, hp⟩ | ⟨⟨s, hs⟩, -⟩)
      · obtain rfl := Except.ok.inj hbytes
        refine ⟨fun bytes' hbytes' => ?_, fun ⟨s, hs⟩ => (nomatch hs)⟩
        obtain rfl := Except.ok.inj hbytes'
        exact ⟨p, hp.fits, hp.magic, hp.eq_ofBytes⟩
      · cases hs
    · intro h
      obtain ⟨p, hfits, hmagic, heq⟩ := h.1 bytes rfl
      exact Or.inl ⟨bytes, rfl, p, hfits, hmagic, heq, hname⟩

end Image

/-- **A record of an image is found** exactly if nothing else is taken for one before, and one
lies where it is read.

The image is any number of pages, and what is read of it is what it holds. What comes
after it may read as anything. -/
theorem peGetPdbGuid_finds_iff (tryReadMemory : TryRead) (addr : VirtualAddress)
    (image : List UInt8) (n : ℕ) (hn : 0 < n) (hlen : image.length = 0x1000 * n)
    (hpage : addr.toNat % 0x1000 = 0) (hfit : addr.toNat + image.length < 2 ^ 64)
    (hread : Reads tryReadMemory addr image) :
    FindsRecord image (peGetPdbGuid tryReadMemory addr (BitVec.ofNat 64 image.length))
      ↔ (∀ o taken, ReadsWrong tryReadMemory addr image n o taken → Ends taken →
          (∀ o' p codeview, IsRecordAt image p codeview → ReadsRight n o' p → ¬ Before o' o) →
          (∀ o' taken', ReadsWrong tryReadMemory addr image n o' taken' → Ends taken' →
            ¬ Before o' o) →
          (∀ bytes, taken = .ok bytes → AreAtMagic image bytes)
            ∧ ((∃ s, taken = .error s) → ¬ HasRecord image))
        ∧ (HasRecord image →
          (∃ p codeview o, IsRecordAt image p codeview ∧ ReadsRight n o p)
            ∨ ∃ o taken, ReadsWrong tryReadMemory addr image n o taken ∧ Ends taken) := by
  have hwrong := readsWrong_iff tryReadMemory addr hlen hn
  rw [findsRecord_iff_windows hn hlen hpage hfit hread]
  refine and_congr ⟨fun h o taken hreads hends hright hfirst => ?_,
    fun h o ho hmisread hends hfirst => ?_⟩ (imp_congr_right fun _ => or_congr_right ?_)
  · obtain ⟨ho, hmisread, rfl⟩ := (hwrong o taken).mp hreads
    refine (isGenuine_iff hends).mp (h o ho hmisread hends fun o' ho' hlt hends' => ?_)
    by_cases hmisread' : IsMisread o'
    · exact hfirst o' _ ((hwrong o' _).mpr ⟨ho', hmisread', rfl⟩) hends' hlt
    · obtain ⟨p, -, hrecord, hreads'⟩ :=
        exists_isRecordAt tryReadMemory addr hlen ho' hmisread' hends'
      exact hright o' p _ hrecord hreads' hlt
  · refine (isGenuine_iff hends).mpr (h o _ ((hwrong o _).mpr ⟨ho, hmisread, rfl⟩) hends ?_ ?_)
    · intro o' p codeview hrecord hreads' hlt
      obtain ⟨ho', -, hends'⟩ :=
        isOccurrence_of_readsRight tryReadMemory addr hlen hn hrecord hreads'
      exact hfirst o' ho' hlt hends'
    · intro o' taken' hreads' hends' hlt
      obtain ⟨ho', -, rfl⟩ := (hwrong o' taken').mp hreads'
      exact hfirst o' ho' hlt hends'
  · constructor
    · rintro ⟨o, ho, hmisread, hends⟩
      exact ⟨o, _, (hwrong o _).mpr ⟨ho, hmisread, rfl⟩, hends⟩
    · rintro ⟨o, taken, hreads, hends⟩
      obtain ⟨ho, hmisread, rfl⟩ := (hwrong o taken).mp hreads
      exact ⟨o, ho, hmisread, hends⟩

end Codeview

namespace Codeview

/-- A reader of an image, where what is not of the image stays as it was. -/
def readImage (addr : VirtualAddress) (image : List UInt8) : TryRead := fun start buf =>
  .ok ((image.drop (start - addr).toNat).take buf.length
    ++ buf.drop (image.length - (start - addr).toNat))

theorem reads_readImage {addr : VirtualAddress} {image : List UInt8}
    (hfit : addr.toNat + image.length < 2 ^ 64) : Reads (readImage addr image) addr image := by
  intro start buf hle
  by_cases hbuf : buf = []
  · rw [readImage, hbuf, List.drop_nil, List.append_nil]
    rfl
  · have hpos := List.length_pos_of_ne_nil hbuf
    have hstart : (addr + BitVec.ofNat 64 start - addr).toNat = start := by
      rw [add_sub_cancel_left, BitVec.toNat_ofNat, Nat.mod_eq_of_lt (by omega)]
    have hrest : buf.drop (image.length - start) = [] := List.drop_eq_nil_of_le (by omega)
    rw [readImage, hstart, hrest, List.append_nil]

/-- A page that begins with a record. -/
def onePage : List UInt8 := rsds ++ List.replicate 20 0 ++ 0x61 :: List.replicate 0xfe7 0

/-- Two pages, the second one of which begins with a record. -/
def lastPage : List UInt8 := List.replicate 0x1000 0 ++ onePage

theorem length_onePage : onePage.length = 0x1000 * 1 := by
  rw [onePage, List.length_append, List.length_append, List.length_cons, List.length_replicate,
    List.length_replicate]
  rfl

theorem length_lastPage : lastPage.length = 0x1000 * 2 := by
  rw [lastPage, List.length_append, List.length_replicate, length_onePage]

theorem isRecordAt_onePage : IsRecordAt onePage 0 (ofBytes ((onePage.drop 0).take size)) := by
  refine ⟨length_onePage ▸ by decide, ?_, rfl, by decide +kernel⟩
  rw [onePage, List.append_assoc]
  exact List.prefix_append _ _

/-- The record of one page is found. -/
theorem onePage_finds :
    FindsRecord onePage (peGetPdbGuid (readImage 0x140000000 onePage) 0x140000000
      (BitVec.ofNat 64 onePage.length)) := by
  refine (peGetPdbGuid_finds_iff (readImage 0x140000000 onePage) 0x140000000 onePage 1 (by decide)
    length_onePage (by decide) (length_onePage ▸ by decide)
    (reads_readImage (length_onePage ▸ by decide))).mpr ⟨?_, ?_⟩
  · -- behind the record there are zeros
    have hzero : ∀ p, IsCutAt onePage p → False := by
      rintro p ⟨⟨rest, hrest⟩, hinside, hcut⟩
      have hsize : size = 48 := rfl
      obtain ⟨t, rfl⟩ := Nat.exists_eq_add_of_le (by omega : 25 ≤ p)
      have htail : onePage.drop (25 + t) = (List.replicate 0xfe7 0).drop t := by
        have hhead : onePage
            = (rsds ++ List.replicate 20 0 ++ [0x61]) ++ List.replicate 0xfe7 0 := by
          rw [onePage, List.append_assoc _ [0x61], List.singleton_append]
        have hlength : (rsds ++ List.replicate 20 0 ++ [0x61] : List UInt8).length = 25 := rfl
        rw [← List.drop_drop, hhead, List.drop_left' hlength]
      have hmem : (0x52 : UInt8) ∈ onePage.drop (25 + t) := by
        rw [← hrest]
        exact List.mem_append_left _ (by decide)
      rw [htail] at hmem
      exact absurd (List.eq_of_mem_replicate (List.mem_of_mem_drop hmem)) (by decide)
    intro o taken hwrong
    obtain hcut | hcut | ⟨-, hlt, -⟩ := hwrong
    · exact (hzero _ hcut).elim
    · exact (hzero _ hcut).elim
    · exact absurd hlt (by decide)
  · exact fun _ => Or.inl ⟨0, _, _, isRecordAt_onePage, .firstPage (by decide)⟩

theorem isRecordAt_lastPage :
    IsRecordAt lastPage 0x1000 (ofBytes ((onePage.drop 0).take size)) := by
  have hdrop : lastPage.drop 0x1000 = onePage.drop 0 := List.drop_left' (List.length_replicate ..)
  have hfits : 0x1000 + size ≤ lastPage.length := by
    rw [length_lastPage]
    exact Nat.add_le_add_left (by decide : size ≤ 0x1000) 0x1000
  refine ⟨hfits, ?_, ?_, isRecordAt_onePage.named⟩
  · rw [hdrop]
    exact isRecordAt_onePage.magic
  · rw [hdrop]

/-- Its windows hold the first page only. -/
theorem not_isOccurrence_lastPage (o : ℕ × ℕ) : ¬ IsOccurrence lastPage 2 o := by
  rintro ⟨hk, hocc⟩
  have hpage : pageAt lastPage 0 = List.replicate 0x1000 0 := by
    rw [pageAt, lastPage, Nat.mul_zero, List.drop_zero, List.take_left' List.length_replicate]
  have hcarried : ∀ b ∈ carried lastPage o.1, b = 0 := by
    obtain h | h : o.1 = 0 ∨ o.1 = 1 := by omega
    · rw [h]
      exact fun b hb => List.eq_of_mem_replicate hb
    · rw [h, carried, hpage]
      exact fun b hb => List.eq_of_mem_replicate (List.mem_of_mem_drop hb)
  have hzero : ∀ b ∈ window lastPage o.1, b = 0 := by
    rw [window, show o.1 - 1 = 0 by omega, hpage]
    exact List.forall_mem_append.mpr ⟨hcarried, fun b hb => List.eq_of_mem_replicate hb⟩
  exact absurd (hzero 0x52 (List.mem_of_mem_drop (hocc.subset (by decide)))) (by decide)

/-- The last page is not looked at. -/
theorem not_findsRecord_lastPage :
    ¬ ∀ (tryReadMemory : TryRead) (addr : VirtualAddress) (image : List UInt8) (n : ℕ), 0 < n →
      image.length = 0x1000 * n → addr.toNat % 0x1000 = 0 → addr.toNat + image.length < 2 ^ 64 →
      Reads tryReadMemory addr image →
      FindsRecord image (peGetPdbGuid tryReadMemory addr (BitVec.ofNat 64 image.length)) := by
  intro h
  have hfit : (0x140000000 : VirtualAddress).toNat + lastPage.length < 2 ^ 64 :=
    length_lastPage ▸ by decide
  have hread := reads_readImage hfit
  have hfound := h (readImage 0x140000000 lastPage) 0x140000000 lastPage 2 (by decide)
    length_lastPage (by decide) hfit hread
  have hnone : occurrences lastPage 2 = [] :=
    List.eq_nil_iff_forall_not_mem.mpr fun o ho =>
      not_isOccurrence_lastPage o ((mem_occurrences_iff o).mp ho)
  rw [peGetPdbGuid_eq length_lastPage (by decide) hfit hread (by decide), hnone, List.map_nil,
    firstNamed, Exec.pure_eq_ok, findsRecord_none_iff] at hfound
  exact hfound ⟨_, _, isRecordAt_lastPage⟩

end Codeview
