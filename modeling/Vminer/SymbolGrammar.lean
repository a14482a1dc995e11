import Vminer.SymbolsFile

/-!
# Which lines give a symbol

A line of a symbol file should have sixteen hexadecimal digits, a character, the
letter of a kind, a character and a name, which ends at a tab or at the end of the
line (`IsSymbolLine`). The newline is none of these characters. The parser cuts the line
at byte positions instead, and leaves the digits to the standard library, which also
takes a sign.

So it gives up on lines that are too short for its cuts or have a character where it
cuts (`SafeLine`), and it differs from the form where there is a sign before fifteen
digits, a character of more than one byte before the kind, or nothing but the newline
behind the kind.
-/

/-! ## Digits -/

/-- The value of hexadecimal digits. -/
def hexValue (digits : List UInt8) : ℕ :=
  digits.foldl (fun acc b => acc * 16 + (hexDigit b).getD 0) 0

/-- Hexadecimal digits, of either case. -/
def AreHexDigits (digits : List UInt8) : Prop := ∀ b ∈ digits, (hexDigit b).isSome = true

/-- A digit is below the base. -/
theorem hexDigit_lt {b : UInt8} {d : ℕ} (h : hexDigit b = some d) : d < 16 := by
  have hall : ∀ b : Fin 256, (hexDigit (UInt8.ofNat b)).all (· < 16) = true := by decide +kernel
  have hb := hall ⟨b.toNat, UInt8.toNat_lt b⟩
  rw [UInt8.ofNat_toNat, h] at hb
  exact of_decide_eq_true hb

/-- The loop over the digits, which are few enough for the number to fit. -/
theorem foldlM_hexDigit {digits : List UInt8} (h : AreHexDigits digits) {acc : ℕ}
    (hacc : (acc + 1) * 16 ^ digits.length ≤ 2 ^ 64) :
    digits.foldlM (fun acc b => do
        let d ← hexDigit b
        if acc * 16 + d < 2 ^ 64 then some (acc * 16 + d) else none) acc
      = some (digits.foldl (fun acc b => acc * 16 + (hexDigit b).getD 0) acc) := by
  induction digits generalizing acc with
  | nil => rfl
  | cons b digits ih =>
    obtain ⟨d, hd⟩ := Option.isSome_iff_exists.mp (h b List.mem_cons_self)
    have hlt := hexDigit_lt hd
    have hpow : 1 ≤ 16 ^ digits.length :=
      Nat.one_le_two_pow.trans (Nat.pow_le_pow_left (by decide) _)
    have hnext : (acc * 16 + d + 1) * 16 ^ digits.length ≤ 2 ^ 64 := by
      have hle : acc * 16 + d + 1 ≤ (acc + 1) * 16 := by omega
      refine (Nat.mul_le_mul_right _ hle).trans ?_
      rwa [Nat.mul_assoc, ← Nat.pow_succ']
    have hfits : acc * 16 + d < 2 ^ 64 :=
      (Nat.le_mul_of_pos_right _ hpow).trans hnext
    rw [List.foldlM_cons, List.foldl_cons, hd]
    show (if acc * 16 + d < 2 ^ 64 then some (acc * 16 + d) else none).bind _ = _
    rw [if_pos hfits]
    exact ih (fun b hb => h b (List.mem_cons_of_mem _ hb)) hnext

/-- It stops at what is not a digit. -/
theorem areHexDigits_of_foldlM {digits : List UInt8} {acc n : ℕ}
    (h : digits.foldlM (fun acc b => do
        let d ← hexDigit b
        if acc * 16 + d < 2 ^ 64 then some (acc * 16 + d) else none) acc = some n) :
    AreHexDigits digits := by
  induction digits generalizing acc with
  | nil => exact fun _ hb => absurd hb List.not_mem_nil
  | cons b digits ih =>
    rw [List.foldlM_cons] at h
    obtain ⟨acc', hacc, h⟩ := Option.bind_eq_some_iff.mp h
    obtain ⟨d, hd, -⟩ := Option.bind_eq_some_iff.mp hacc
    exact List.forall_mem_cons.mpr ⟨by rw [hd]; rfl, ih h⟩

/-- Without the sign that the standard library takes. -/
def unsigned (digits : List UInt8) : List UInt8 :=
  match digits with
  | 43 :: rest => rest
  | _ => digits

/-- **Sixteen digits are a number**, if they are digits, and so are fifteen behind a
sign. -/
theorem fromStrRadix16_eq_some_iff {digits : List UInt8} (h : digits.length = 16) (addr : U64) :
    fromStrRadix16 digits = some addr
      ↔ AreHexDigits (unsigned digits) ∧ addr = BitVec.ofNat 64 (hexValue (unsigned digits)) := by
  have hlen : (unsigned digits).length ≤ 16 ∧ unsigned digits ≠ [] := by
    unfold unsigned
    split
    · next rest =>
      have hrest : rest.length = 15 := Nat.succ.inj h
      exact ⟨by omega, fun heq => by simp [heq] at hrest⟩
    · exact ⟨h.le, fun heq => by simp [heq] at h⟩
  have hfold : fromStrRadix16 digits = (unsigned digits).foldlM (fun acc b => do
      let d ← hexDigit b
      if acc * 16 + d < 2 ^ 64 then some (acc * 16 + d) else none) 0 >>= fun n =>
        return BitVec.ofNat 64 n := if_neg hlen.2
  have hpow : (0 + 1) * 16 ^ (unsigned digits).length ≤ 2 ^ 64 := by
    rw [Nat.zero_add, Nat.one_mul]
    exact (Nat.pow_le_pow_right (by decide) hlen.1).trans (by decide)
  rw [hfold]
  constructor
  · intro heq
    obtain ⟨n, hn, hret⟩ := Option.bind_eq_some_iff.mp heq
    have hdigits := areHexDigits_of_foldlM hn
    rw [foldlM_hexDigit hdigits hpow] at hn
    obtain rfl := Option.some.inj hn
    exact ⟨hdigits, (Option.some.inj hret).symm⟩
  · rintro ⟨hdigits, rfl⟩
    rw [foldlM_hexDigit hdigits hpow]
    rfl

/-! ## Cuts -/

/-- The letter of a kind, of either case. -/
def IsKind (b : UInt8) : Prop := toAsciiUppercase b ∈ ([84, 65, 68, 82] : List UInt8)

/-- What comes before a tab or a newline. -/
def untilTab (rest : List UInt8) : List UInt8 := rest.takeWhile fun b => !(b == 9 || b == 10)

/-- **A line that can be cut** into its fixed part and the name, and the address off the
fixed part. -/
structure SafeLine (line : List UInt8) : Prop where
  length_le : 19 ≤ line.length
  address_end : isCharBoundary line 16 = true
  name_start : isCharBoundary line 19 = true

/-- The name is found. -/
theorem exists_findName_eq (rest : Str) :
    ∃ name, findName rest = .ok name ∧ name.bytes = untilTab rest.bytes := by
  obtain ⟨name, hname, -⟩ := exists_findName rest
  refine ⟨name, hname, ?_⟩
  have hbytes : untilTab rest.bytes
      = rest.bytes.take (rest.bytes.findIdx fun b => b == 9 || b == 10) := by
    rw [untilTab, List.takeWhile_eq_take_findIdx_not]
    simp only [Bool.not_not]
  rw [hbytes, List.findIdx_eq_getD_findIdx?]
  unfold findName at hname
  cases hfind : rest.bytes.findIdx? (fun b => b == 9 || b == 10) with
  | none =>
    rw [hfind] at hname
    obtain rfl := Except.ok.inj hname
    rw [Option.getD_none, List.take_length]
  | some i =>
    rw [hfind] at hname
    dsimp only at hname
    rw [Str.sliceTo, Str.splitAt] at hname
    split at hname
    · obtain rfl := Except.ok.inj hname
      rfl
    · cases hname

/-- **A line that can be cut is parsed**: it gives a symbol if the standard library takes
its digits and there is a kind. -/
theorem exists_parseLine_eq {line : Str} (h : SafeLine line.bytes) :
    ∃ sym, parseLine line = .ok sym ∧ ∀ name addr, sym = some (name, addr)
      ↔ fromStrRadix16 (line.bytes.take 16) = some addr
        ∧ (∃ kind, line.bytes[17]? = some kind ∧ IsKind kind)
        ∧ name.bytes = untilTab (line.bytes.drop 19) := by
  have hlen := h.length_le
  have hsplit : (line.splitAt 19 : Exec VmError (Str × Str))
      = .ok (line.cutLeft 19 hlen h.name_start, line.cutRight 19 hlen h.name_start) :=
    dif_pos ⟨hlen, h.name_start⟩
  have hstart : (line.cutLeft 19 hlen h.name_start).bytes = line.bytes.take 19 := rfl
  have hstartLen : (line.bytes.take 19).length = 19 := by
    rw [List.length_take, Nat.min_eq_left hlen]
  have hbound : isCharBoundary (line.bytes.take 19) 16 = true := by
    have hend := h.address_end
    rw [isCharBoundary] at hend ⊢
    rw [List.getElem?_take_of_lt (by decide)]
    rw [List.getElem?_eq_getElem (by omega)] at hend ⊢
    exact hend
  have hdigits : ∃ digits : Str, ((line.cutLeft 19 hlen h.name_start).sliceTo 16 : Exec VmError Str)
      = .ok digits ∧ digits.bytes = line.bytes.take 16 := by
    refine ⟨(line.cutLeft 19 hlen h.name_start).cutLeft 16 (by rw [hstart]; omega) hbound, ?_, ?_⟩
    · rw [Str.sliceTo, Str.splitAt, dif_pos ⟨by rw [hstart]; omega, hbound⟩]
      rfl
    · show (line.bytes.take 19).take 16 = _
      rw [List.take_take]
      rfl
  obtain ⟨digits, hslice, hdigits⟩ := hdigits
  obtain ⟨name, hname, hnameBytes⟩ := exists_findName_eq (line.cutRight 19 hlen h.name_start)
  have hkind : (line.bytes.take 19)[17]? = line.bytes[17]? := List.getElem?_take_of_lt (by decide)
  have hget : line.bytes[17]? = some (line.bytes.get ⟨17, by omega⟩) :=
    List.getElem?_eq_getElem (by omega)
  generalize line.bytes.get ⟨17, by omega⟩ = kind at hget
  simp only [parseLine, hsplit, Exec.ok_bind, hslice, hdigits, hstart, hkind, hget]
  cases hradix : fromStrRadix16 (line.bytes.take 16) with
  | none =>
    exact ⟨none, rfl, fun name addr => iff_of_false (Option.some_ne_none _).symm fun h =>
      (Option.some_ne_none _).symm h.1⟩
  | some addr =>
    dsimp only
    by_cases hmem : toAsciiUppercase kind ∈ ([84, 65, 68, 82] : List UInt8)
    · rw [if_pos hmem, hname]
      refine ⟨some (name, addr), rfl, fun name' addr' => ?_⟩
      rw [Option.some.injEq, Prod.mk.injEq, Option.some.injEq, Str.ext_iff, hnameBytes]
      constructor
      · rintro ⟨hbytes, rfl⟩
        exact ⟨rfl, ⟨kind, rfl, hmem⟩, hbytes.symm⟩
      · rintro ⟨rfl, -, hbytes⟩
        exact ⟨hbytes.symm, rfl⟩
    · rw [if_neg hmem]
      refine ⟨none, rfl, fun name' addr' => iff_of_false (Option.some_ne_none _).symm ?_⟩
      rintro ⟨-, ⟨kind', hkind', hmem'⟩, -⟩
      obtain rfl := Option.some.inj hkind'
      exact absurd hmem' hmem

/-- **No other line is.** -/
theorem parseLine_eq_panicked {line : Str} (h : ¬ SafeLine line.bytes) :
    parseLine line = Exec.panicked := by
  by_cases hsplit : 19 ≤ line.bytes.length ∧ isCharBoundary line.bytes 19 = true
  · have hbound : ¬ isCharBoundary (line.bytes.take 19) 16 = true := by
      refine fun hbound => h ⟨hsplit.1, ?_, hsplit.2⟩
      rw [isCharBoundary, List.getElem?_take_of_lt (by decide)] at hbound
      rw [isCharBoundary]
      rw [List.getElem?_eq_getElem (by omega)] at hbound ⊢
      exact hbound
    have hslice : ((line.cutLeft 19 hsplit.1 hsplit.2).sliceTo 16 : Exec VmError Str)
        = Exec.panicked := by
      rw [Str.sliceTo, Str.splitAt, dif_neg fun hcut => hbound hcut.2]
      rfl
    rw [parseLine, Str.splitAt, dif_pos hsplit, Exec.ok_bind]
    dsimp only
    rw [hslice]
    rfl
  · rw [parseLine, Str.splitAt, dif_neg hsplit]
    rfl

/-! ## The form of a line -/

/-- **A line of the form**: sixteen digits, a character, the letter of a kind, a character
and a name. The line is what is read, with its newline, which only ends it. -/
def IsSymbolLine (line : List UInt8) (addr : U64) (name : List UInt8) : Prop :=
  ∃ digits c₁ kind c₂ rest,
    line = digits ++ String.utf8EncodeChar c₁ ++ kind :: (String.utf8EncodeChar c₂ ++ rest)
      ∧ digits.length = 16 ∧ AreHexDigits digits ∧ IsKind kind ∧ c₂ ≠ '\n'
      ∧ addr = BitVec.ofNat 64 (hexValue digits) ∧ name = untilTab rest

/-- A sign before fifteen digits, with a kind behind them. -/
def HasSign (bytes : List UInt8) : Prop :=
  ∃ digits, bytes.take 16 = 43 :: digits ∧ AreHexDigits digits
    ∧ ∃ kind, bytes[17]? = some kind ∧ IsKind kind

/-- A line of the form in which the character before the kind has more than one byte. -/
def HasWideGap (line : List UInt8) : Prop :=
  ∃ digits c₁ kind c₂ rest,
    line = digits ++ String.utf8EncodeChar c₁ ++ kind :: (String.utf8EncodeChar c₂ ++ rest)
      ∧ digits.length = 16 ∧ AreHexDigits digits ∧ IsKind kind ∧ c₂ ≠ '\n'
      ∧ (String.utf8EncodeChar c₁).length ≠ 1

/-- A line that is over behind its kind. -/
def EndsAtKind (bytes : List UInt8) : Prop :=
  AreHexDigits (bytes.take 16) ∧ (∃ kind, bytes[17]? = some kind ∧ IsKind kind)
    ∧ bytes[18]? = some 10

/-- A letter is a byte of its own. -/
theorem IsKind.lt {b : UInt8} (h : IsKind b) : b < 0x80 := by
  have hall : ∀ b : Fin 256, toAsciiUppercase (UInt8.ofNat b) ∈ ([84, 65, 68, 82] : List UInt8) →
      UInt8.ofNat b < 0x80 := by decide +kernel
  have hb := hall ⟨b.toNat, UInt8.toNat_lt b⟩
  rw [UInt8.ofNat_toNat] at hb
  exact hb h

/-- A byte below the others does not go on with a character. -/
theorem isContinuation_of_lt {b : UInt8} (h : b < 0x80) : isContinuation b = false := by
  rw [isContinuation, Bool.and_eq_false_iff]
  exact Or.inl (decide_eq_false (UInt8.not_le.mpr h))

/-- The second cut of two that are one byte apart. -/
theorem isCharBoundary_drop {bytes : List UInt8} {i : ℕ} (hi : i + 1 ≤ bytes.length)
    (h : isCharBoundary bytes (i + 1) = true) : isCharBoundary (bytes.drop i) 1 = true := by
  have hget : (bytes.drop i)[1]? = bytes[i + 1]? := List.getElem?_drop
  unfold isCharBoundary at h ⊢
  rw [hget, List.length_drop]
  cases hb : bytes[i + 1]? with
  | some b => simpa [hb] using h
  | none =>
    have hlen := List.getElem?_eq_none_iff.mp hb
    simp
    omega

/-- **A character that is cut off behind its first byte** has no other. -/
theorem length_utf8EncodeChar_eq_one {c : Char} {rest : List UInt8}
    (h : isCharBoundary (String.utf8EncodeChar c ++ rest) 1 = true) :
    (String.utf8EncodeChar c).length = 1 := by
  have hpos : 0 < (String.utf8EncodeChar c).length := by
    rw [String.length_utf8EncodeChar]
    exact c.utf8Size_pos
  by_contra hne
  have hlt : 1 < (String.utf8EncodeChar c).length := by omega
  have hget := List.getElem?_eq_getElem hlt
  have hcont := Str.isContinuation_getElem_utf8EncodeChar c Nat.zero_lt_one hget
  rw [isCharBoundary, List.getElem?_append_left hlt, hget] at h
  simp [hcont] at h

/-- Bits that are added do not make a byte low. -/
theorem not_or_lt {x y : UInt8} (hy : 0x80 ≤ y) : ¬ x ||| y < 0x80 := by
  refine UInt8.not_lt.mpr (UInt8.le_trans hy ?_)
  rw [UInt8.le_iff_toNat_le, UInt8.toNat_or]
  exact Nat.right_le_or

/-- **A character that begins with a low byte** has no other. -/
theorem utf8EncodeChar_eq_of_lt {c : Char} {rest rest' : List UInt8} {b : UInt8} (hb : b < 0x80)
    (h : String.utf8EncodeChar c ++ rest = b :: rest') : String.utf8EncodeChar c = [b] := by
  obtain hc | hc | hc | hc := c.utf8Size_eq
  · rw [String.utf8EncodeChar_eq_singleton hc] at h ⊢
    rw [(List.cons.inj h).1]
  · rw [String.utf8EncodeChar_eq_cons_cons hc] at h
    exact absurd hb ((List.cons.inj h).1 ▸ not_or_lt (by decide))
  · rw [String.utf8EncodeChar_eq_cons_cons_cons hc] at h
    exact absurd hb ((List.cons.inj h).1 ▸ not_or_lt (by decide))
  · rw [String.utf8EncodeChar_eq_cons_cons_cons_cons hc] at h
    exact absurd hb ((List.cons.inj h).1 ▸ not_or_lt (by decide))

/-- **Only the newline** begins with its byte. -/
theorem eq_newline_iff (c : Char) (rest : List UInt8) :
    (String.utf8EncodeChar c ++ rest)[0]? = some 10 ↔ c = '\n' := by
  constructor
  · intro hget
    have hcons : String.utf8EncodeChar c ++ rest
        = 10 :: (String.utf8EncodeChar c ++ rest).tail := by
      cases hbytes : String.utf8EncodeChar c ++ rest with
      | nil => rw [hbytes] at hget; cases hget
      | cons b rest' => rw [hbytes] at hget; rw [Option.some.inj hget]; rfl
    have hone := utf8EncodeChar_eq_of_lt (by decide) hcons
    have hsize : c.utf8Size = 1 := by
      rw [← String.length_utf8EncodeChar, hone]
      rfl
    rw [String.utf8EncodeChar_eq_singleton hsize, List.singleton_inj] at hone
    have hval : c.val.toNat % 256 = 10 := congrArg UInt8.toNat hone
    have hle : c.val.toNat ≤ 127 := UInt32.le_iff_toNat_le.mp (Char.utf8Size_eq_one_iff.mp hsize)
    rw [Nat.mod_eq_of_lt (by omega)] at hval
    exact Char.ext (UInt32.toNat_inj.mp hval)
  · rintro rfl
    rfl

/-- **What follows a boundary** begins with a character. -/
theorem exists_drop_eq (s : Str) {i : ℕ} (hi : i < s.bytes.length)
    (h : isCharBoundary s.bytes i = true) :
    ∃ c, ∃ rest : Str, s.bytes.drop i = String.utf8EncodeChar c ++ rest.bytes := by
  obtain ⟨chars, hchars⟩ := (s.cutRight i hi.le h).valid
  have hdrop : s.bytes.drop i = chars.flatMap String.utf8EncodeChar := hchars
  cases chars with
  | nil =>
    have hlen := congrArg List.length hdrop
    rw [List.length_drop, List.flatMap_nil, List.length_nil] at hlen
    omega
  | cons c chars => exact ⟨c, Str.ofChars chars, hdrop.trans (List.flatMap_cons)⟩

/-- **Between two boundaries that are one byte apart** is a character of one byte. -/
theorem exists_drop_eq_of_boundaries (s : Str) {i : ℕ} (hi : i + 1 ≤ s.bytes.length)
    (h : isCharBoundary s.bytes i = true) (h' : isCharBoundary s.bytes (i + 1) = true) :
    ∃ c, s.bytes.drop i = String.utf8EncodeChar c ++ s.bytes.drop (i + 1) := by
  obtain ⟨c, rest, hdrop⟩ := exists_drop_eq s hi h
  have hone := length_utf8EncodeChar_eq_one (hdrop ▸ isCharBoundary_drop hi h')
  refine ⟨c, ?_⟩
  rw [← List.drop_drop, hdrop, ← hone, List.drop_left]

/-- **A low byte at a boundary** has a boundary behind it. -/
theorem isCharBoundary_succ (s : Str) {i : ℕ} {b : UInt8} (hget : s.bytes[i]? = some b)
    (hb : b < 0x80) (h : isCharBoundary s.bytes i = true) (hi : i + 1 < s.bytes.length) :
    isCharBoundary s.bytes (i + 1) = true := by
  obtain ⟨c, rest, hdrop⟩ := exists_drop_eq s (Nat.lt_of_succ_lt hi) h
  have hcons : s.bytes.drop i = b :: s.bytes.drop (i + 1) := by
    have hlt := Nat.lt_of_succ_lt hi
    rw [List.getElem?_eq_getElem hlt, Option.some.injEq] at hget
    rw [List.drop_eq_getElem_cons hlt, hget]
  have hone := utf8EncodeChar_eq_of_lt hb (hdrop.symm.trans hcons)
  rw [hcons, hone, List.singleton_append, List.cons.injEq] at hdrop
  have hhead : s.bytes[i + 1]? = rest.bytes[0]? := by
    rw [← hdrop.2, List.getElem?_drop, Nat.add_zero]
  rw [List.getElem?_eq_getElem hi] at hhead
  rw [isCharBoundary, List.getElem?_eq_getElem hi]
  simp [Str.isContinuation_head rest hhead.symm]

/-! ## Exactness -/

/-- The address and the name that a line gives. -/
def pairOf (sym : Option (Str × U64)) : Option (U64 × List UInt8) :=
  sym.map fun p => (p.2, p.1.bytes)

/-- What the first part of a line of the form is. -/
theorem take_digits {digits rest : List UInt8} (h : digits.length = 16) :
    (digits ++ rest).take 16 = digits := h ▸ List.take_left

/-- Digits have no sign. -/
theorem unsigned_eq_self {digits : List UInt8} (h : AreHexDigits digits) :
    unsigned digits = digits := by
  unfold unsigned
  split
  · exact absurd (h 43 List.mem_cons_self) (by decide)
  · rfl

/-- **What a line that can be cut gives**, in terms of its digits. -/
theorem pairOf_eq_some_iff {line : Str} (h : SafeLine line.bytes) {sym : Option (Str × U64)}
    (hparse : parseLine line = .ok sym) (addr : U64) (name : List UInt8) :
    pairOf sym = some (addr, name)
      ↔ (AreHexDigits (unsigned (line.bytes.take 16))
          ∧ addr = BitVec.ofNat 64 (hexValue (unsigned (line.bytes.take 16))))
        ∧ (∃ kind, line.bytes[17]? = some kind ∧ IsKind kind)
        ∧ name = untilTab (line.bytes.drop 19) := by
  obtain ⟨sym', hparse', hsym⟩ := exists_parseLine_eq h
  obtain rfl := Except.ok.inj (hparse'.symm.trans hparse)
  have hlen : (line.bytes.take 16).length = 16 := by
    rw [List.length_take, Nat.min_eq_left ((by decide : 16 ≤ 19).trans h.length_le)]
  rw [← fromStrRadix16_eq_some_iff hlen]
  constructor
  · intro heq
    obtain ⟨⟨name', addr'⟩, hsome, hpair⟩ := Option.map_eq_some_iff.mp heq
    obtain ⟨rfl, rfl⟩ := Prod.mk.inj hpair
    exact (hsym name' addr').mp hsome
  · rintro ⟨haddr, hkind, rfl⟩
    obtain ⟨name', -, hname'⟩ := exists_findName_eq (line.cutRight 19 h.length_le h.name_start)
    rw [(hsym name' addr).mpr ⟨haddr, hkind, hname'⟩]
    exact congrArg (fun name => some (addr, name)) hname'

section Exact

variable {line : Str} (h : SafeLine line.bytes) {sym : Option (Str × U64)}
  (hparse : parseLine line = .ok sym) {addr : U64} {name : List UInt8}

include h hparse

/-- **A line that gives a symbol has the form**, if there is no sign and it goes on behind
the kind. -/
theorem isSymbolLine_of_pairOf (hsign : ¬ HasSign line.bytes) (hend : ¬ EndsAtKind line.bytes)
    (hsome : pairOf sym = some (addr, name)) : IsSymbolLine line.bytes addr name := by
  obtain ⟨⟨hdigits, haddr⟩, ⟨kind, hkind, hletter⟩, hname⟩ :=
    (pairOf_eq_some_iff h hparse addr name).mp hsome
  have hlen := h.length_le
  have hself : unsigned (line.bytes.take 16) = line.bytes.take 16 := by
    unfold unsigned at hdigits ⊢
    split
    · next rest heq =>
      rw [heq] at hdigits
      exact absurd ⟨rest, heq, hdigits, kind, hkind, hletter⟩ hsign
    · rfl
  rw [hself] at hdigits haddr
  have hlt : 17 < line.bytes.length := Nat.lt_of_lt_of_le (by decide) hlen
  have hafter : isCharBoundary line.bytes 17 = true := by
    simp [isCharBoundary, hkind, isContinuation_of_lt hletter.lt]
  -- the letter is a character of its own, so the next cut is a boundary as well
  have hgap := isCharBoundary_succ line hkind hletter.lt hafter hlen
  obtain ⟨c₁, hc₁⟩ := exists_drop_eq_of_boundaries line hlt.le h.address_end hafter
  obtain ⟨c₂, hc₂⟩ := exists_drop_eq_of_boundaries line hlen hgap h.name_start
  have hcons : line.bytes.drop 17 = kind :: line.bytes.drop 18 := by
    rw [List.getElem?_eq_getElem hlt, Option.some.injEq] at hkind
    rw [List.drop_eq_getElem_cons hlt, hkind]
  have hc₂' : c₂ ≠ '\n' := by
    intro hnewline
    have hget := (eq_newline_iff c₂ (line.bytes.drop 19)).mpr hnewline
    rw [← hc₂, List.getElem?_drop] at hget
    exact hend ⟨hdigits, ⟨kind, hkind, hletter⟩, hget⟩
  refine ⟨line.bytes.take 16, c₁, kind, c₂, line.bytes.drop 19, ?_, ?_, hdigits, hletter, hc₂',
    haddr, hname⟩
  · calc line.bytes = line.bytes.take 16 ++ line.bytes.drop 16 := (List.take_append_drop ..).symm
      _ = _ := by rw [hc₁, hcons, hc₂, List.append_assoc]
  · rw [List.length_take, Nat.min_eq_left ((by decide : 16 ≤ 19).trans hlen)]

/-- **A line of the form gives a symbol**, if the gap is not wide. -/
theorem pairOf_of_isSymbolLine (hgap : ¬ HasWideGap line.bytes)
    (hform : IsSymbolLine line.bytes addr name) : pairOf sym = some (addr, name) := by
  obtain ⟨digits, c₁, kind, c₂, rest, hline, hlen, hdigits, hletter, hc₂, haddr, hname⟩ := hform
  have hone : (String.utf8EncodeChar c₁).length = 1 := by
    by_contra hne
    exact hgap ⟨digits, c₁, kind, c₂, rest, hline, hlen, hdigits, hletter, hc₂, hne⟩
  have htake : line.bytes.take 16 = digits := by
    rw [hline, List.append_assoc, take_digits hlen]
  have hstart : (digits ++ String.utf8EncodeChar c₁).length = 17 := by
    rw [List.length_append, hlen, hone]
  have hkind : line.bytes[17]? = some kind := by
    rw [hline, List.getElem?_append_right hstart.le, hstart]
    rfl
  have hdrop : line.bytes.drop 18 = String.utf8EncodeChar c₂ ++ rest := by
    rw [hline, show 18 = 17 + 1 from rfl, ← List.drop_drop, List.drop_left' hstart]
    rfl
  have hone' := length_utf8EncodeChar_eq_one
    (hdrop ▸ isCharBoundary_drop h.length_le h.name_start)
  have hrest : line.bytes.drop 19 = rest := by
    rw [show 19 = 18 + 1 from rfl, ← List.drop_drop, hdrop, ← hone', List.drop_left]
  refine (pairOf_eq_some_iff h hparse addr name).mpr ⟨?_, ⟨kind, hkind, hletter⟩, ?_⟩
  · rw [htake, unsigned_eq_self hdigits]
    exact ⟨hdigits, haddr⟩
  · rw [hrest]
    exact hname

omit hparse h in
/-- A sign is not a digit. -/
theorem not_isSymbolLine_of_hasSign (hsign : HasSign line.bytes) :
    ¬ IsSymbolLine line.bytes addr name := by
  rintro ⟨digits, c₁, kind, c₂, rest, hline, hlen, hdigits, -⟩
  obtain ⟨digits', htake, -⟩ := hsign
  rw [hline, List.append_assoc, take_digits hlen] at htake
  exact absurd (hdigits 43 (htake ▸ List.mem_cons_self)) (by decide)

/-- A line with a sign gives a symbol all the same. -/
theorem exists_pairOf_of_hasSign (hsign : HasSign line.bytes) :
    ∃ addr name, pairOf sym = some (addr, name) := by
  obtain ⟨digits, htake, hdigits, hkind⟩ := hsign
  have hunsigned : unsigned (line.bytes.take 16) = digits := by
    rw [htake]
    rfl
  exact ⟨_, _, (pairOf_eq_some_iff h hparse _ _).mpr
    ⟨⟨hunsigned.symm ▸ hdigits, rfl⟩, hkind, rfl⟩⟩

/-- A line with a wide gap gives none. -/
theorem pairOf_of_hasWideGap (hgap : HasWideGap line.bytes) :
    pairOf sym ≠ some (addr, name) := by
  intro hsome
  obtain ⟨-, ⟨kind', hkind', hletter'⟩, -⟩ := (pairOf_eq_some_iff h hparse addr name).mp hsome
  obtain ⟨digits, c₁, kind, c₂, rest, hline, hlen, -, -, -, hne⟩ := hgap
  have hpos : 0 < (String.utf8EncodeChar c₁).length := by
    rw [String.length_utf8EncodeChar]
    exact c₁.utf8Size_pos
  have hlt : 1 < (String.utf8EncodeChar c₁).length := by omega
  have hget : line.bytes[17]? = some (String.utf8EncodeChar c₁)[1] := by
    rw [hline, List.append_assoc, List.getElem?_append_right (hlen.le.trans (by decide)), hlen,
      List.getElem?_append_left hlt, List.getElem?_eq_getElem hlt]
  have hcont := Str.isContinuation_getElem_utf8EncodeChar c₁ Nat.zero_lt_one
    (List.getElem?_eq_getElem hlt)
  rw [hget, Option.some.injEq] at hkind'
  rw [hkind', isContinuation_of_lt hletter'.lt] at hcont
  cases hcont

/-- A line that is over behind its kind gives a symbol all the same. -/
theorem exists_pairOf_of_endsAtKind (hend : EndsAtKind line.bytes) :
    ∃ addr name, pairOf sym = some (addr, name) := by
  obtain ⟨hdigits, hkind, -⟩ := hend
  exact ⟨_, _, (pairOf_eq_some_iff h hparse _ _).mpr
    ⟨⟨(unsigned_eq_self hdigits).symm ▸ hdigits, rfl⟩, hkind, rfl⟩⟩

omit hparse h in
/-- It does not have the form, unless its gap is wide. -/
theorem not_isSymbolLine_of_endsAtKind (hend : EndsAtKind line.bytes)
    (hgap : ¬ HasWideGap line.bytes) : ¬ IsSymbolLine line.bytes addr name := by
  rintro ⟨digits, c₁, kind, c₂, rest, hline, hlen, hdigits, hletter, hc₂, -⟩
  have hone : (String.utf8EncodeChar c₁).length = 1 := by
    by_contra hne
    exact hgap ⟨digits, c₁, kind, c₂, rest, hline, hlen, hdigits, hletter, hc₂, hne⟩
  have hstart : (digits ++ String.utf8EncodeChar c₁).length = 17 := by
    rw [List.length_append, hlen, hone]
  have hget := hend.2.2
  rw [hline, List.getElem?_append_right (by omega), hstart] at hget
  exact hc₂ ((eq_newline_iff c₂ rest).mp hget)

/-- **A line gives the symbol of its form** exactly if it has neither a sign nor a wide
gap and goes on behind its kind. -/
theorem pairOf_iff_isSymbolLine :
    (∀ addr name, pairOf sym = some (addr, name) ↔ IsSymbolLine line.bytes addr name)
      ↔ ¬ HasSign line.bytes ∧ ¬ HasWideGap line.bytes ∧ ¬ EndsAtKind line.bytes := by
  constructor
  · intro hforms
    have hgap : ¬ HasWideGap line.bytes := by
      intro hgap
      have hnone : ∀ addr name, pairOf sym ≠ some (addr, name) :=
        fun _ _ => pairOf_of_hasWideGap h hparse hgap
      obtain ⟨digits, c₁, kind, c₂, rest, hline, hlen, hdigits, hletter, hc₂, -⟩ := hgap
      exact hnone _ _ ((hforms _ _).mpr
        ⟨digits, c₁, kind, c₂, rest, hline, hlen, hdigits, hletter, hc₂, rfl, rfl⟩)
    refine ⟨fun hsign => ?_, hgap, fun hend => ?_⟩
    · obtain ⟨addr, name, hsome⟩ := exists_pairOf_of_hasSign h hparse hsign
      exact not_isSymbolLine_of_hasSign hsign ((hforms addr name).mp hsome)
    · obtain ⟨addr, name, hsome⟩ := exists_pairOf_of_endsAtKind h hparse hend
      exact not_isSymbolLine_of_endsAtKind hend hgap ((hforms addr name).mp hsome)
  · rintro ⟨hsign, hgap, hend⟩ addr name
    exact ⟨isSymbolLine_of_pairOf h hparse hsign hend, pairOf_of_isSymbolLine h hparse hgap⟩

end Exact

/-! ## Files -/

/-- The lines of a file, each with its newline. -/
def linesOf : List UInt8 → List (List UInt8)
  | [] => []
  | b :: bytes =>
    if b = 10 then [10] :: linesOf bytes
    else
      match linesOf bytes with
      | [] => [[b]]
      | line :: lines => (b :: line) :: lines

/-- Where the first line ends. -/
def lineEnd (bytes : List UInt8) : ℕ :=
  match bytes.findIdx? (· == 10) with
  | some i => i + 1
  | none => bytes.length

/-- **What the lines give**, one after the other: how the parser ends, and what it made of
each line until then. -/
def symbolsOf : List (List UInt8) → Exec VmError Unit × List (Option (Str × U64))
  | [] => (.ok (), [])
  | bytes :: lines =>
    match Str.fromUtf8 bytes with
    | none => (Exec.fail (.io .invalidData), [])
    | some line =>
      match parseLine line with
      | .error s => (.error s, [])
      | .ok sym => ((symbolsOf lines).1, sym :: (symbolsOf lines).2)

theorem lineEnd_cons {b : UInt8} (h : b ≠ 10) (bytes : List UInt8) :
    lineEnd (b :: bytes) = lineEnd bytes + 1 := by
  unfold lineEnd
  rw [List.findIdx?_cons, beq_eq_false_iff_ne.mpr h, if_neg Bool.false_ne_true]
  cases bytes.findIdx? (· == 10) with
  | some i => rfl
  | none => rfl

/-- **The first line and the others.** -/
theorem linesOf_cons (b : UInt8) (bytes : List UInt8) :
    linesOf (b :: bytes) = (b :: bytes).take (lineEnd (b :: bytes))
      :: linesOf ((b :: bytes).drop (lineEnd (b :: bytes))) := by
  induction bytes generalizing b with
  | nil =>
    by_cases hb : b = 10
    · rw [hb]
      rfl
    · rw [linesOf, if_neg hb, lineEnd_cons hb]
      rfl
  | cons b' bytes ih =>
    by_cases hb : b = 10
    · rw [hb, linesOf, if_pos rfl]
      rfl
    · rw [linesOf, if_neg hb, lineEnd_cons hb, ih b']
      rfl

/-- **The reader takes the first line.** -/
theorem readOneLineStd_eq (bytes : List UInt8) :
    readOneLineStd bytes Str.empty = match Str.fromUtf8 (bytes.take (lineEnd bytes)) with
      | some line => .ok (lineEnd bytes, bytes.drop (lineEnd bytes), line)
      | none => Exec.fail (.io .invalidData) := rfl

/-- **The loop reads line after line.** -/
theorem parseSymbolFileInner_eq (fuel : ℕ) (bytes : List UInt8) (hfuel : bytes.length < fuel)
    (syms : ModuleSymbolsBuilder) :
    parseSymbolFileInner readOneLineStd fuel bytes syms
      = ((symbolsOf (linesOf bytes)).1,
        (symbolsOf (linesOf bytes)).2.foldl ModuleSymbolsBuilder.pushSymbol syms) := by
  induction fuel generalizing bytes syms with
  | zero => exact absurd hfuel (Nat.not_lt_zero _)
  | succ fuel ih =>
    cases bytes with
    | nil => exact parseSymbolFileInner_end _ _ _ rfl
    | cons b bytes =>
      have hread := readOneLineStd_eq (b :: bytes)
      obtain ⟨n, hn⟩ : ∃ n, lineEnd (b :: bytes) = n + 1 := by
        unfold lineEnd
        cases (b :: bytes).findIdx? (· == 10) with
        | some i => exact ⟨i, rfl⟩
        | none => exact ⟨bytes.length, rfl⟩
      rw [linesOf_cons, symbolsOf]
      cases hutf8 : Str.fromUtf8 ((b :: bytes).take (lineEnd (b :: bytes))) with
      | none =>
        rw [hutf8] at hread
        rw [parseSymbolFileInner, hread]
        rfl
      | some line =>
        rw [hutf8, hn] at hread
        rw [parseSymbolFileInner, hread]
        dsimp only
        cases parseLine line with
        | error s => rfl
        | ok sym =>
          have hlen : ((b :: bytes).drop (n + 1)).length < fuel := by
            rw [List.length_drop]
            exact (Nat.sub_lt (Nat.succ_pos _) (Nat.succ_pos n)).trans_le
              (Nat.le_of_lt_succ hfuel)
          rw [hn]
          exact ih _ hlen _

/-- **What the parser of a file does.** -/
theorem readFromBytes_eq (content : List UInt8) (syms : ModuleSymbolsBuilder) :
    readFromBytes readOneLineStd content syms
      = ((symbolsOf (linesOf content)).1,
        (symbolsOf (linesOf content)).2.foldl ModuleSymbolsBuilder.pushSymbol syms) :=
  parseSymbolFileInner_eq _ content (Nat.lt_succ_self _) syms

/-- A line that is text. -/
def IsText (line : List UInt8) : Prop := (Str.fromUtf8 line).isSome = true

instance (line : List UInt8) : Decidable (IsText line) := inferInstanceAs (Decidable (_ = _))

/-- What text is read as. -/
theorem IsText.exists_str {line : List UInt8} (h : IsText line) :
    ∃ s : Str, Str.fromUtf8 line = some s ∧ s.bytes = line := by
  obtain ⟨s, hs⟩ := Option.isSome_iff_exists.mp h
  refine ⟨s, hs, ?_⟩
  unfold Str.fromUtf8 at hs
  split at hs
  · obtain rfl := Option.some.inj hs
    rfl
  · cases hs

section Lines

variable {line : List UInt8} {lines : List (List UInt8)}

theorem symbolsOf_of_not_isText (h : ¬ IsText line) :
    symbolsOf (line :: lines) = (Exec.fail (.io .invalidData), []) := by
  rw [symbolsOf, Option.not_isSome_iff_eq_none.mp h]

theorem symbolsOf_of_not_safe (h : IsText line) (hsafe : ¬ SafeLine line) :
    symbolsOf (line :: lines) = (Exec.panicked, []) := by
  obtain ⟨s, hs, rfl⟩ := h.exists_str
  rw [symbolsOf, hs]
  dsimp only
  rw [parseLine_eq_panicked hsafe]
  rfl

theorem exists_symbolsOf_eq (lines : List (List UInt8)) (h : IsText line) (hsafe : SafeLine line) :
    ∃ s sym, s.bytes = line ∧ parseLine s = .ok sym
      ∧ symbolsOf (line :: lines) = ((symbolsOf lines).1, sym :: (symbolsOf lines).2) := by
  obtain ⟨s, hs, rfl⟩ := h.exists_str
  obtain ⟨sym, hparse, -⟩ := exists_parseLine_eq hsafe
  refine ⟨s, sym, rfl, hparse, ?_⟩
  rw [symbolsOf, hs]
  dsimp only
  rw [hparse]

end Lines

/-- **The parser returns** exactly if every line can be cut, up to the first one that is
not text. -/
theorem returns_symbolsOf_iff (lines : List (List UInt8)) :
    Exec.Returns (symbolsOf lines).1 ↔ ∀ line ∈ lines.takeWhile (IsText ·), SafeLine line := by
  induction lines with
  | nil => exact ⟨fun _ _ hmem => absurd hmem List.not_mem_nil, fun _ => trivial⟩
  | cons line lines ih =>
    by_cases htext : IsText line
    · have htake : (line :: lines).takeWhile (IsText ·) = line :: lines.takeWhile (IsText ·) :=
        List.takeWhile_cons_of_pos (decide_eq_true htext)
      rw [htake, List.forall_mem_cons]
      by_cases hsafe : SafeLine line
      · obtain ⟨s, sym, -, -, heq⟩ := exists_symbolsOf_eq lines htext hsafe
        rw [heq, ih]
        exact (and_iff_right hsafe).symm
      · rw [symbolsOf_of_not_safe htext hsafe]
        exact ⟨fun hret => hret.elim, fun hall => absurd hall.1 hsafe⟩
    · have htake : (line :: lines).takeWhile (IsText ·) = [] :=
        List.takeWhile_cons_of_neg fun hpos => htext (of_decide_eq_true hpos)
      rw [symbolsOf_of_not_isText htext, htake]
      exact ⟨fun _ _ hmem => absurd hmem List.not_mem_nil, fun _ => trivial⟩

/-- **It gets to the end** exactly if every line is text that can be cut. -/
theorem symbolsOf_eq_ok_iff (lines : List (List UInt8)) :
    (symbolsOf lines).1 = .ok () ↔ ∀ line ∈ lines, IsText line ∧ SafeLine line := by
  induction lines with
  | nil => exact ⟨fun _ _ hmem => absurd hmem List.not_mem_nil, fun _ => rfl⟩
  | cons line lines ih =>
    rw [List.forall_mem_cons]
    by_cases htext : IsText line
    · by_cases hsafe : SafeLine line
      · obtain ⟨s, sym, -, -, heq⟩ := exists_symbolsOf_eq lines htext hsafe
        rw [heq, ih]
        exact (and_iff_right ⟨htext, hsafe⟩).symm
      · rw [symbolsOf_of_not_safe htext hsafe]
        exact ⟨fun h => (nomatch h), fun hall => absurd hall.1.2 hsafe⟩
    · rw [symbolsOf_of_not_isText htext]
      exact ⟨fun h => (nomatch h), fun hall => absurd hall.1.1 htext⟩

/-- **It then gives the symbols of the form** exactly if no line has a sign or a wide gap
or is over behind its kind. -/
theorem forall₂_isSymbolLine_iff {lines : List (List UInt8)}
    (h : ∀ line ∈ lines, IsText line ∧ SafeLine line) :
    List.Forall₂ (fun line sym => ∀ addr name, pairOf sym = some (addr, name)
        ↔ IsSymbolLine line addr name) lines (symbolsOf lines).2
      ↔ ∀ line ∈ lines, ¬ HasSign line ∧ ¬ HasWideGap line ∧ ¬ EndsAtKind line := by
  induction lines with
  | nil => exact ⟨fun _ _ hmem => absurd hmem List.not_mem_nil, fun _ => .nil⟩
  | cons line lines ih =>
    obtain ⟨⟨htext, hsafe⟩, hrest⟩ := List.forall_mem_cons.mp h
    obtain ⟨s, sym, rfl, hparse, heq⟩ := exists_symbolsOf_eq lines htext hsafe
    rw [heq, List.forall₂_cons, List.forall_mem_cons, ih hrest,
      pairOf_iff_isSymbolLine hsafe hparse]

/-- **A symbol file is parsed by its grammar** exactly if each line that is reached can be
cut, and, where all are text, none has a sign or a wide gap or is over behind its kind.

What the loop pushes is what it makes of its lines, in order: the parser should return,
and where it gets to the end it should have made a symbol out of exactly the lines that
have the form, that of the form. -/
theorem readFromBytes_grammar_iff (content : List UInt8) :
    (∀ syms, readFromBytes readOneLineStd content syms
      = ((symbolsOf (linesOf content)).1,
        (symbolsOf (linesOf content)).2.foldl ModuleSymbolsBuilder.pushSymbol syms))
    ∧ ((Exec.Returns (symbolsOf (linesOf content)).1
        ∧ ((symbolsOf (linesOf content)).1 = .ok () →
          List.Forall₂ (fun line sym => ∀ addr name, pairOf sym = some (addr, name)
            ↔ IsSymbolLine line addr name) (linesOf content) (symbolsOf (linesOf content)).2))
      ↔ (∀ line ∈ (linesOf content).takeWhile (IsText ·), SafeLine line)
        ∧ ((∀ line ∈ linesOf content, IsText line) →
          ∀ line ∈ linesOf content, ¬ HasSign line ∧ ¬ HasWideGap line ∧ ¬ EndsAtKind line)) := by
  refine ⟨readFromBytes_eq content, ?_⟩
  rw [returns_symbolsOf_iff]
  refine and_congr_right fun hsafe => ?_
  -- lines that are all text can be cut
  have hall : (∀ line ∈ linesOf content, IsText line)
      ↔ ∀ line ∈ linesOf content, IsText line ∧ SafeLine line := by
    refine ⟨fun htext line hline => ⟨htext line hline, hsafe line ?_⟩,
      fun hboth line hline => (hboth line hline).1⟩
    rwa [List.takeWhile_eq_self_iff.mpr fun line hline => decide_eq_true (htext line hline)]
  rw [hall, symbolsOf_eq_ok_iff]
  exact forall_congr' fun hboth => forall₂_isSymbolLine_iff hboth

/-- An empty line is cut at a place it does not have. -/
theorem not_returns_emptyLine :
    ¬ ∀ (content : List UInt8) (syms : ModuleSymbolsBuilder),
      Exec.Returns (readFromBytes readOneLineStd content syms).1 := by
  intro h
  have hempty := h [10] .new
  rw [readFromBytes_eq, show linesOf [10] = [[10]] from rfl,
    symbolsOf_of_not_safe (by decide) fun hsafe => absurd hsafe.length_le (by decide)] at hempty
  exact hempty
