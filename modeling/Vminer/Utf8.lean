import Vminer.Exec

/-!
# Strings as bytes

A `str` is a string of bytes that encode characters, and it is cut at byte
positions: a cut that is out of range or inside a character is a panic. `Str`
carries its validity; what is proved of cuts is that those of a string stay
what they are when another one is appended to it, that the appended one can be
cut out again, and that a cut at boundaries is a string itself.
-/

/-- **A `str`**: the bytes of a sequence of characters. -/
@[ext] structure Str where
  bytes : List UInt8
  valid : ∃ chars : List Char, bytes = chars.flatMap String.utf8EncodeChar

instance : DecidableEq Str := fun s t => decidable_of_iff (s.bytes = t.bytes) Str.ext_iff.symm

/-- Whether a byte goes on with a character that began before it. -/
def isContinuation (b : UInt8) : Bool := 0x80 ≤ b && b < 0xc0

/-- `str::is_char_boundary` -/
def isCharBoundary (bytes : List UInt8) (i : ℕ) : Bool :=
  i == 0 ||
    match bytes[i]? with
    | some b => !isContinuation b
    | none => i == bytes.length

/-- `&s[start..stop]` -/
def strSlice {ε : Type} (bytes : List UInt8) (start stop : ℕ) : Exec ε (List UInt8) :=
  if start ≤ stop ∧ stop ≤ bytes.length ∧ isCharBoundary bytes start = true
      ∧ isCharBoundary bytes stop = true
  then .ok ((bytes.take stop).drop start)
  else Exec.panicked

theorem strSlice_eq_ok_iff {ε : Type} (bytes : List UInt8) (start stop : ℕ)
    (r : List UInt8) :
    (strSlice bytes start stop : Exec ε (List UInt8)) = .ok r
      ↔ (start ≤ stop ∧ stop ≤ bytes.length ∧ isCharBoundary bytes start = true
        ∧ isCharBoundary bytes stop = true) ∧ (bytes.take stop).drop start = r := by
  unfold strSlice
  split
  · next h => exact ⟨fun heq => ⟨h, Except.ok.inj heq⟩, fun heq => congrArg _ heq.2⟩
  · next h => exact ⟨fun heq => absurd heq (by rintro ⟨⟩), fun heq => absurd heq.1 h⟩

namespace Str

/-- The string of these characters. -/
def ofChars (chars : List Char) : Str := ⟨chars.flatMap String.utf8EncodeChar, chars, rfl⟩

/-- The empty string. -/
def empty : Str := ⟨[], [], rfl⟩

/-- `String::push_str` -/
def append (s t : Str) : Str where
  bytes := s.bytes ++ t.bytes
  valid := by
    obtain ⟨cs, hs⟩ := s.valid
    obtain ⟨ct, ht⟩ := t.valid
    exact ⟨cs ++ ct, by rw [hs, ht, List.flatMap_append]⟩

/-- The first byte of a character does not go on with another one. -/
theorem isContinuation_of_isUTF8FirstByte (b : UInt8) (h : b.IsUTF8FirstByte) :
    isContinuation b = false := by
  have hall : ∀ b : Fin 256, (UInt8.ofNat b).IsUTF8FirstByte →
      isContinuation (UInt8.ofNat b) = false := by decide +kernel
  have hb := hall ⟨b.toNat, UInt8.toNat_lt b⟩
  rw [UInt8.ofNat_toNat] at hb
  exact hb h

/-- **A string begins with a character.** -/
theorem isContinuation_head (s : Str) {b : UInt8} (h : s.bytes[0]? = some b) :
    isContinuation b = false := by
  obtain ⟨chars, hs⟩ := s.valid
  cases chars with
  | nil =>
    rw [hs] at h
    exact absurd h (by simp)
  | cons c chars =>
    have hpos : 0 < (String.utf8EncodeChar c).length := by
      rw [String.length_utf8EncodeChar]
      exact c.utf8Size_pos
    rw [hs, List.flatMap_cons, List.getElem?_append_left hpos, List.getElem?_eq_getElem hpos,
      Option.some.injEq] at h
    subst h
    exact isContinuation_of_isUTF8FirstByte _ UInt8.isUTF8FirstByte_getElem_zero_utf8EncodeChar

/-- The end of a string is a boundary, whatever string follows. -/
theorem isCharBoundary_append_length (s t : Str) :
    isCharBoundary (s.bytes ++ t.bytes) s.bytes.length = true := by
  unfold isCharBoundary
  rw [List.getElem?_append_right le_rfl, Nat.sub_self]
  cases hget : t.bytes[0]? with
  | some b => simp [isContinuation_head t hget]
  | none =>
    have hlen : t.bytes.length = 0 := Nat.le_zero.mp (List.getElem?_eq_none_iff.mp hget)
    simp [hlen]

/-- A boundary of a string stays one when another string follows. -/
theorem isCharBoundary_append (s t : Str) {i : ℕ}
    (h : isCharBoundary s.bytes i = true) : isCharBoundary (s.bytes ++ t.bytes) i = true := by
  by_cases hlt : i < s.bytes.length
  · unfold isCharBoundary at h ⊢
    rw [List.getElem?_append_left hlt]
    rw [List.getElem?_eq_getElem hlt] at h ⊢
    exact h
  · obtain rfl | hi : i = 0 ∨ i = s.bytes.length := by
      unfold isCharBoundary at h
      rw [List.getElem?_eq_none (not_lt.mp hlt)] at h
      simpa using h
    · rfl
    · exact hi ▸ isCharBoundary_append_length s t

/-- After its first byte a character goes on. -/
theorem isContinuation_getElem_utf8EncodeChar (c : Char) {i : ℕ} (hpos : 0 < i) {b : UInt8}
    (h : (String.utf8EncodeChar c)[i]? = some b) : isContinuation b = true := by
  have htail : ∀ x : ℕ, isContinuation (UInt8.ofNat (x % 64 + 128)) = true := by
    have hall : ∀ x : Fin 64, isContinuation (UInt8.ofNat (x + 128)) = true := by decide
    exact fun x => hall ⟨x % 64, Nat.mod_lt x (by decide)⟩
  obtain ⟨i, rfl⟩ := Nat.exists_eq_add_of_lt hpos
  unfold String.utf8EncodeChar at h
  dsimp only at h
  split at h
  · simp at h
  split at h
  · match i, h with
    | 0, h => exact Option.some.inj h ▸ htail _
  split at h
  · match i, h with
    | 0, h => exact Option.some.inj h ▸ htail _
    | 1, h => exact Option.some.inj h ▸ htail _
  · match i, h with
    | 0, h => exact Option.some.inj h ▸ htail _
    | 1, h => exact Option.some.inj h ▸ htail _
    | 2, h => exact Option.some.inj h ▸ htail _

/-- **A boundary lies between two characters.** -/
theorem exists_chars_of_isCharBoundary (chars : List Char) {i : ℕ}
    (hle : i ≤ (chars.flatMap String.utf8EncodeChar).length)
    (h : isCharBoundary (chars.flatMap String.utf8EncodeChar) i = true) :
    ∃ before after : List Char, chars = before ++ after
      ∧ (before.flatMap String.utf8EncodeChar).length = i := by
  induction chars generalizing i with
  | nil => exact ⟨[], [], rfl, (Nat.le_zero.mp hle).symm⟩
  | cons c chars ih =>
    rw [List.flatMap_cons] at hle h
    obtain hlt | hge := lt_or_ge i (String.utf8EncodeChar c).length
    · refine ⟨[], c :: chars, rfl, ?_⟩
      by_contra hne
      have hpos : 0 < i := Nat.pos_of_ne_zero (Ne.symm hne)
      have hget := List.getElem?_eq_getElem hlt
      rw [isCharBoundary, List.getElem?_append_left hlt, hget] at h
      have hcont := isContinuation_getElem_utf8EncodeChar c hpos hget
      simp [hcont, hpos.ne'] at h
    · obtain ⟨k, rfl⟩ := Nat.exists_eq_add_of_le hge
      have hk : isCharBoundary (chars.flatMap String.utf8EncodeChar) k = true := by
        cases k with
        | zero => rfl
        | succ k =>
          have hpos : (String.utf8EncodeChar c).length + (k + 1) ≠ 0 := Nat.succ_ne_zero _
          rw [isCharBoundary, List.getElem?_append_right (Nat.le_add_right _ _),
            Nat.add_sub_cancel_left, List.length_append] at h
          unfold isCharBoundary
          cases hget : (chars.flatMap String.utf8EncodeChar)[k + 1]? with
          | some b => simpa [hget, hpos] using h
          | none =>
            rw [hget, beq_eq_false_iff_ne.mpr hpos, Bool.false_or, beq_iff_eq,
              Nat.add_right_inj] at h
            exact Bool.or_eq_true_iff.mpr (.inr (beq_iff_eq.mpr h))
      rw [List.length_append] at hle
      obtain ⟨before, after, rfl, hlen⟩ := ih (Nat.add_le_add_iff_left.mp hle) hk
      refine ⟨c :: before, after, rfl, ?_⟩
      rw [List.flatMap_cons, List.length_append, hlen]

/-- The string before a boundary. -/
def cutLeft (s : Str) (i : ℕ) (hle : i ≤ s.bytes.length)
    (h : isCharBoundary s.bytes i = true) : Str where
  bytes := s.bytes.take i
  valid := by
    obtain ⟨chars, hs⟩ := s.valid
    rw [hs] at hle h
    obtain ⟨before, after, rfl, rfl⟩ := exists_chars_of_isCharBoundary chars hle h
    exact ⟨before, by rw [hs, List.flatMap_append, List.take_left]⟩

/-- The string after a boundary. -/
def cutRight (s : Str) (i : ℕ) (hle : i ≤ s.bytes.length)
    (h : isCharBoundary s.bytes i = true) : Str where
  bytes := s.bytes.drop i
  valid := by
    obtain ⟨chars, hs⟩ := s.valid
    rw [hs] at hle h
    obtain ⟨before, after, rfl, rfl⟩ := exists_chars_of_isCharBoundary chars hle h
    exact ⟨after, by rw [hs, List.flatMap_append, List.drop_left]⟩

variable {ε : Type}

/-- `str::split_at` -/
def splitAt (s : Str) (i : ℕ) : Exec ε (Str × Str) :=
  if h : i ≤ s.bytes.length ∧ isCharBoundary s.bytes i = true
  then .ok (s.cutLeft i h.1 h.2, s.cutRight i h.1 h.2)
  else Exec.panicked

/-- `&s[..i]` -/
def sliceTo (s : Str) (i : ℕ) : Exec ε Str := Prod.fst <$> s.splitAt i

/-- `core::str::from_utf8` -/
def fromUtf8 (bytes : List UInt8) : Option Str :=
  if h : bytes.toByteArray.validateUTF8 = true then
    some
      { bytes
        valid := by
          obtain ⟨chars, hchars⟩ := ByteArray.validateUTF8_eq_true_iff.mp h
          refine ⟨chars, ?_⟩
          have hdata := congrArg (fun b : ByteArray => b.data.toList) hchars
          simpa [List.utf8Encode] using hdata }
  else none

/-- **Every string is what its bytes are read as.** -/
theorem fromUtf8_bytes (s : Str) : fromUtf8 s.bytes = some s := by
  obtain ⟨chars, hs⟩ := s.valid
  have h : s.bytes.toByteArray.validateUTF8 = true := by
    refine ByteArray.validateUTF8_eq_true_iff.mpr ⟨chars, ?_⟩
    rw [hs]
    rfl
  exact dif_pos h

/-- **What was cut out of a string** is still there when another one follows. -/
theorem strSlice_append_left (s t : Str) {start stop : ℕ} {r : List UInt8}
    (h : (strSlice s.bytes start stop : Exec ε (List UInt8)) = .ok r) :
    (strSlice (s.append t).bytes start stop : Exec ε (List UInt8)) = .ok r := by
  obtain ⟨⟨hle, hstop, hb, hb'⟩, rfl⟩ := (strSlice_eq_ok_iff _ _ _ _).mp h
  refine (strSlice_eq_ok_iff _ _ _ _).mpr ⟨⟨hle, ?_, isCharBoundary_append s t hb,
    isCharBoundary_append s t hb'⟩, ?_⟩
  · exact hstop.trans (by rw [append, List.length_append]; exact Nat.le_add_right _ _)
  · rw [append, List.take_append_of_le_length hstop]

/-- **A string that was appended can be cut out again.** -/
theorem strSlice_append_right (s t : Str) :
    (strSlice (s.append t).bytes s.bytes.length (s.append t).bytes.length
      : Exec ε (List UInt8)) = .ok t.bytes := by
  refine (strSlice_eq_ok_iff _ _ _ _).mpr ⟨⟨?_, le_rfl, isCharBoundary_append_length s t, ?_⟩, ?_⟩
  · rw [append, List.length_append]
    exact Nat.le_add_right _ _
  · have h := isCharBoundary_append_length (s.append t) empty
    rwa [empty, List.append_nil] at h
  · rw [List.take_length, append, List.drop_left]

end Str

/-! ## Bytes that may not be a string -/

/-- How many bytes a character has that begins with this byte, and between what
bytes its second one is. -/
def leadByte (b : UInt8) : Option (ℕ × UInt8 × UInt8) :=
  if 0xc2 ≤ b ∧ b ≤ 0xdf then some (2, 0x80, 0xbf)
  else if b = 0xe0 then some (3, 0xa0, 0xbf)
  else if b = 0xed then some (3, 0x80, 0x9f)
  else if 0xe1 ≤ b ∧ b ≤ 0xef then some (3, 0x80, 0xbf)
  else if b = 0xf0 then some (4, 0x90, 0xbf)
  else if 0xf1 ≤ b ∧ b ≤ 0xf3 then some (4, 0x80, 0xbf)
  else if b = 0xf4 then some (4, 0x80, 0x8f)
  else none

/-- The character of these bytes. -/
def charOfBytes (lead : ℕ) (rest : List UInt8) : Char :=
  Char.ofNat (rest.foldl (fun n b => n * 64 + (b.toNat - 0x80)) lead)

/-- `String::from_utf8_lossy`: each longest part that begins a character without
ending it is one replacement character. -/
def fromUtf8Lossy : List UInt8 → List Char
  | [] => []
  | a :: rest =>
    if a < 0x80 then Char.ofNat a.toNat :: fromUtf8Lossy rest
    else
      match leadByte a, rest with
      | none, rest => Char.ofNat 0xfffd :: fromUtf8Lossy rest
      | some _, [] => [Char.ofNat 0xfffd]
      | some (n, lo, hi), b :: rest' =>
        if lo ≤ b ∧ b ≤ hi then
          if n = 2 then charOfBytes (a.toNat - 0xc0) [b] :: fromUtf8Lossy rest'
          else
            match rest' with
            | [] => [Char.ofNat 0xfffd]
            | c :: rest'' =>
              if isContinuation c then
                if n = 3 then charOfBytes (a.toNat - 0xe0) [b, c] :: fromUtf8Lossy rest''
                else
                  match rest'' with
                  | [] => [Char.ofNat 0xfffd]
                  | d :: rest''' =>
                    if isContinuation d then
                      charOfBytes (a.toNat - 0xf0) [b, c, d] :: fromUtf8Lossy rest'''
                    else Char.ofNat 0xfffd :: fromUtf8Lossy (d :: rest''')
              else Char.ofNat 0xfffd :: fromUtf8Lossy (c :: rest'')
        else Char.ofNat 0xfffd :: fromUtf8Lossy (b :: rest')
