import Mathlib

/-!
# Byte layouts of plain data

A plain value – a machine word, an array of words, a record of them – has a
fixed number of bytes, and every string of that many bytes is one. `Layout`
is such an encoding together with the proof that decoding undoes it, so a
layout built from others needs no round trip proved again: words are laid
out little endian (`Layout.word`), arrays element after element
(`Layout.array`), pairs one after the other (`Layout.pair`) and a record
through the tuple of its fields (`Layout.via`).

`Layout.read` consumes a layout from the front of a byte string and fails
when too few bytes are left; `Layout.readMany` consumes a given number of
them.
-/

/-! ## Little-endian words -/

/-- The `n` low bytes of a number, least significant first. -/
def leBytes : ℕ → ℕ → List UInt8
  | 0, _ => []
  | n + 1, x => UInt8.ofNat x :: leBytes n (x / 256)

/-- The number whose bytes are `bs`, least significant first. -/
def leNat (bs : List UInt8) : ℕ := Nat.ofDigits 256 (bs.map UInt8.toNat)

@[simp] theorem length_leBytes (n x : ℕ) : (leBytes n x).length = n := by
  induction n generalizing x with
  | zero => rfl
  | succ n ih => rw [leBytes, List.length_cons, ih]

/-- Decoding the low bytes gives the number modulo their range. -/
theorem leNat_leBytes (n x : ℕ) : leNat (leBytes n x) = x % 256 ^ n := by
  unfold leNat
  induction n generalizing x with
  | zero => rw [leBytes, List.map_nil, Nat.ofDigits_nil, pow_zero, Nat.mod_one]
  | succ n ih =>
    rw [leBytes, List.map_cons, Nat.ofDigits_cons, ih, pow_succ', Nat.mod_mul]
    rfl

/-- The bytes of a number are fewer than its range. -/
theorem leNat_lt (bs : List UInt8) : leNat bs < 256 ^ bs.length := by
  have hlt := Nat.ofDigits_lt_base_pow_length (b := 256) (l := bs.map UInt8.toNat) (by norm_num) ?_
  · rwa [List.length_map] at hlt
  · intro d hd
    obtain ⟨b, -, rfl⟩ := List.mem_map.mp hd
    exact b.toNat_lt

/-- Bytes come back from their number. -/
theorem leBytes_leNat (bs : List UInt8) : leBytes bs.length (leNat bs) = bs := by
  induction bs with
  | nil => rfl
  | cons b bs ih =>
    have hb := b.toNat_lt
    have hcons : leNat (b :: bs) = b.toNat + 256 * leNat bs := Nat.ofDigits_cons
    have hdiv : leNat (b :: bs) / 256 = leNat bs := by omega
    have hmod : UInt8.ofNat (leNat (b :: bs)) = b := by
      apply UInt8.toNat_inj.mp
      rw [UInt8.toNat_ofNat']
      omega
    rw [List.length_cons, leBytes, hdiv, hmod, ih]

/-- The word of width `w` whose bytes are `bs`. -/
def leWord (w : ℕ) (bs : List UInt8) : BitVec w := BitVec.ofNat w (leNat bs)

/-- A word comes back from its own bytes. -/
theorem leWord_leBytes {w n : ℕ} (hw : 2 ^ w = 256 ^ n) (x : BitVec w) :
    leWord w (leBytes n x.toNat) = x := by
  unfold leWord
  rw [leNat_leBytes, ← hw, Nat.mod_eq_of_lt x.isLt]
  exact BitVec.ofNat_toNat w x |>.trans (BitVec.setWidth_eq x)

/-! ## Layouts -/

/-- **A fixed-size byte encoding of `α`.** -/
structure Layout (α : Type) where
  /-- How many bytes a value takes. -/
  size : ℕ
  /-- The bytes of a value. -/
  enc : α → List UInt8
  /-- The value of a byte string of the right length. -/
  dec : List UInt8 → α
  length_enc : ∀ a, (enc a).length = size
  dec_enc : ∀ a, dec (enc a) = a

namespace Layout

variable {α β : Type}

/-- A little-endian word of `n` bytes. -/
def word (w n : ℕ) (hw : 2 ^ w = 256 ^ n) : Layout (BitVec w) where
  size := n
  enc x := leBytes n x.toNat
  dec := leWord w
  length_enc x := length_leBytes n x.toNat
  dec_enc x := leWord_leBytes hw x

/-- Every string of the right length is the bytes of a word. -/
theorem word_enc_dec {w n : ℕ} (hw : 2 ^ w = 256 ^ n) {bs : List UInt8} (h : bs.length = n) :
    (word w n hw).enc ((word w n hw).dec bs) = bs := by
  have hlt : leNat bs < 2 ^ w := by
    rw [hw, ← h]
    exact leNat_lt bs
  show leBytes n (BitVec.ofNat w (leNat bs)).toNat = bs
  rw [BitVec.toNat_ofNat, Nat.mod_eq_of_lt hlt, ← h, leBytes_leNat]

/-- A value without bytes. -/
def unit : Layout Unit where
  size := 0
  enc _ := []
  dec _ := ()
  length_enc _ := rfl
  dec_enc _ := rfl

/-- Two values, one after the other. -/
def pair (L : Layout α) (M : Layout β) : Layout (α × β) where
  size := L.size + M.size
  enc p := L.enc p.1 ++ M.enc p.2
  dec bs := (L.dec (bs.take L.size), M.dec (bs.drop L.size))
  length_enc p := by rw [List.length_append, L.length_enc, M.length_enc]
  dec_enc p := by
    rw [List.take_left' (L.length_enc p.1), List.drop_left' (L.length_enc p.1),
      L.dec_enc, M.dec_enc]

/-- A layout read through a record: `split` takes the record apart and
`join` puts it together again. -/
def via (L : Layout α) (split : β → α) (join : α → β)
    (h : ∀ b, join (split b) = b) : Layout β where
  size := L.size
  enc b := L.enc (split b)
  dec bs := join (L.dec bs)
  length_enc b := L.length_enc (split b)
  dec_enc b := by rw [L.dec_enc, h]

/-- The bytes of the values of a list, one after the other. -/
def encList (L : Layout α) (l : List α) : List UInt8 := l.flatMap L.enc

@[simp] theorem encList_nil (L : Layout α) : L.encList [] = [] := rfl

@[simp] theorem encList_cons (L : Layout α) (a : α) (l : List α) :
    L.encList (a :: l) = L.enc a ++ L.encList l := rfl

theorem length_encList (L : Layout α) (l : List α) :
    (L.encList l).length = l.length * L.size := by
  induction l with
  | nil => rw [encList_nil, List.length_nil, List.length_nil, Nat.zero_mul]
  | cons a l ih =>
    rw [encList_cons, List.length_append, L.length_enc, ih, List.length_cons]
    ring

/-- The `i`-th stretch of a list's bytes is its `i`-th value's. -/
theorem take_drop_encList (L : Layout α) (l : List α) (i : ℕ)
    (hi : i < l.length) :
    ((L.encList l).drop (i * L.size)).take L.size = L.enc l[i] := by
  induction l generalizing i with
  | nil => exact absurd hi (Nat.not_lt_zero i)
  | cons a l ih =>
    rw [encList_cons]
    cases i with
    | zero =>
      rw [Nat.zero_mul, List.drop_zero, List.take_left' (L.length_enc a)]
      rfl
    | succ i =>
      rw [show (i + 1) * L.size = (L.enc a).length + i * L.size by
          rw [L.length_enc]; ring,
        ← List.drop_drop, List.drop_left]
      exact ih i (by simpa using hi)

/-- An array, element after element. -/
def array (L : Layout α) (n : ℕ) : Layout (Fin n → α) where
  size := n * L.size
  enc f := L.encList (List.ofFn f)
  dec bs := fun i => L.dec ((bs.drop (i * L.size)).take L.size)
  length_enc f := by rw [length_encList, List.length_ofFn]
  dec_enc f := by
    funext i
    rw [take_drop_encList L (List.ofFn f) i (by simp), L.dec_enc,
      List.getElem_ofFn]

/-! ## Reading from the front of a byte string -/

/-- **Consume one value**, if enough bytes are left. -/
def read (L : Layout α) (bs : List UInt8) : Option (α × List UInt8) :=
  if L.size ≤ bs.length then some (L.dec (bs.take L.size), bs.drop L.size)
  else none

@[simp] theorem read_enc_append (L : Layout α) (a : α) (bs : List UInt8) :
    L.read (L.enc a ++ bs) = some (a, bs) := by
  unfold read
  have hle : L.size ≤ (L.enc a ++ bs).length := by
    rw [List.length_append, L.length_enc]
    exact Nat.le_add_right _ _
  rw [if_pos hle, List.take_left' (L.length_enc a),
    List.drop_left' (L.length_enc a), L.dec_enc]

/-- What is left after a value is what follows its bytes. -/
theorem length_of_read {L : Layout α} {bs rest : List UInt8} {a : α}
    (h : L.read bs = some (a, rest)) : bs.length = L.size + rest.length := by
  unfold read at h
  by_cases hle : L.size ≤ bs.length
  · rw [if_pos hle] at h
    obtain ⟨-, rfl⟩ := Prod.mk.inj (Option.some.inj h)
    rw [List.length_drop]
    omega
  · rw [if_neg hle] at h
    exact absurd h (by simp)

/-- **What has been read was at the front**, if every string of the right length is the
bytes of a value. -/
theorem eq_append_of_read {L : Layout α}
    (hL : ∀ {bs : List UInt8}, bs.length = L.size → L.enc (L.dec bs) = bs)
    {bs rest : List UInt8} {a : α} (h : L.read bs = some (a, rest)) : bs = L.enc a ++ rest := by
  unfold read at h
  by_cases hle : L.size ≤ bs.length
  · rw [if_pos hle] at h
    obtain ⟨rfl, rfl⟩ := Prod.mk.inj (Option.some.inj h)
    rw [hL (by rw [List.length_take, Nat.min_eq_left hle]), List.take_append_drop]
  · rw [if_neg hle] at h
    cases h

/-- **Consume `n` values.** -/
def readMany (L : Layout α) : ℕ → List UInt8 → Option (List α × List UInt8)
  | 0, bs => some ([], bs)
  | n + 1, bs =>
    match L.read bs with
    | none => none
    | some (a, rest) =>
      (L.readMany n rest).map (fun p => (a :: p.1, p.2))

@[simp] theorem readMany_encList_append (L : Layout α) (l : List α)
    (bs : List UInt8) :
    L.readMany l.length (L.encList l ++ bs) = some (l, bs) := by
  induction l with
  | nil => rfl
  | cons a l ih =>
    rw [List.length_cons, encList_cons, List.append_assoc, readMany,
      read_enc_append]
    simp only [ih, Option.map_some]

/-- Where there are enough bytes, the values are there. -/
theorem exists_readMany (L : Layout α) {n : ℕ} {bs : List UInt8} (h : n * L.size ≤ bs.length) :
    ∃ p, L.readMany n bs = some p := by
  induction n generalizing bs with
  | zero => exact ⟨_, rfl⟩
  | succ n ih =>
    rw [Nat.add_one_mul] at h
    have hread : L.read bs = some (L.dec (bs.take L.size), bs.drop L.size) :=
      if_pos ((Nat.le_add_left _ _).trans h)
    obtain ⟨p, hp⟩ := ih (show n * L.size ≤ (bs.drop L.size).length by
      rw [List.length_drop]
      exact Nat.le_sub_of_add_le h)
    rw [readMany, hread]
    exact ⟨_, congrArg (Option.map _) hp⟩

theorem length_of_readMany {L : Layout α} {n : ℕ} {bs rest : List UInt8}
    {l : List α} (h : L.readMany n bs = some (l, rest)) :
    l.length = n ∧ bs.length = n * L.size + rest.length := by
  induction n generalizing bs l with
  | zero =>
    obtain ⟨rfl, rfl⟩ := Prod.mk.inj (Option.some.inj h)
    exact ⟨rfl, by omega⟩
  | succ n ih =>
    rw [readMany] at h
    cases hr : L.read bs with
    | none => rw [hr] at h; exact absurd h (by simp)
    | some p =>
      obtain ⟨a, mid⟩ := p
      rw [hr] at h
      obtain ⟨⟨l', rest'⟩, hl', heq⟩ := Option.map_eq_some_iff.mp h
      obtain ⟨rfl, rfl⟩ := Prod.mk.inj heq
      obtain ⟨hlen, hbs⟩ := ih hl'
      refine ⟨by rw [List.length_cons, hlen], ?_⟩
      rw [length_of_read hr, hbs]
      ring

end Layout
