import Vminer.VirtualRead

/-!
# Reading what is mapped

`try_read_virtual_memory` reads a range page by page as `read_virtual_memory`
does and passes over the pages that are not mapped: what the buffer held there
stays. Only a memory error ends it.

A reader of pages treats all addresses of a page alike (`PageReader`). Over
such a reader the read is one byte after the other (`tryBytes`), a description
in which there are no pages any more; that it depends neither on where the
pages end nor on how a caller splits the range is then an append law.
-/

/-- How memory is read into a buffer: what is not mapped stays as it was. -/
abbrev TryRead : Type := VirtualAddress → List UInt8 → Exec VmError (List UInt8)

/-- The closure of `try_read_virtual_memory`: an invalid entry is passed
over. -/
def skipInvalid (readMemory : Reader TranslationError) : Reader MemoryAccessError :=
  fun addr buf =>
    match readMemory addr buf with
    | (.ok (), buf) => (.ok (), buf)
    | (.error (.err (.invalid _)), buf) => (.ok (), buf)
    | (.error (.err (.memory e)), buf) => (Exec.fail e, buf)
    | (.error .panic, buf) => (Exec.panicked, buf)
    | (.error .fuel, buf) => (Exec.outOfFuel, buf)

/-- `try_read_virtual_memory` -/
def tryReadVirtualMemory (addr : VirtualAddress) (buf : List UInt8)
    (readMemory : Reader TranslationError) : Exec MemoryAccessError Unit × List UInt8 :=
  readVirtualMemory addr buf (skipInvalid readMemory)

/-! ## Readers of pages -/

/-- How a page reads. -/
inductive PageState where
  | mapped
  | invalid (entry : U64)
  | failed (e : MemoryAccessError)
deriving DecidableEq, Repr

/-- The bytes from an address on. -/
def bytesFrom (byte : VirtualAddress → UInt8) (addr : VirtualAddress) (len : ℕ) :
    List UInt8 :=
  (List.range len).map fun i => byte (addr + BitVec.ofNat 64 i)

/-- **A reader of pages**: the outcome of a read inside a page is that of the
page, and the buffer is written only where the page is mapped. -/
structure PageReader where
  read : Reader TranslationError
  /-- How the page at an address reads. -/
  page : U64 → PageState
  /-- The bytes of the mapped pages. -/
  byte : VirtualAddress → UInt8
  read_eq : ∀ (addr : VirtualAddress) (buf : List UInt8),
    addr.toNat % 4096 + buf.length ≤ 4096 →
    read addr buf =
      match page (pageBase addr) with
      | .mapped => (.ok (), bytesFrom byte addr buf.length)
      | .invalid entry => (Exec.fail (.invalid entry), buf)
      | .failed e => (Exec.fail (.memory e), buf)

namespace PageReader

variable (reader : PageReader)

/-- How the page of an address reads. -/
def stateAt (addr : VirtualAddress) : PageState := reader.page (pageBase addr)

/-- **The read, byte by byte.** -/
def tryBytes : VirtualAddress → List UInt8 → Exec MemoryAccessError Unit × List UInt8
  | _, [] => (.ok (), [])
  | addr, b :: buf =>
    match reader.stateAt addr with
    | .failed e => (Exec.fail e, b :: buf)
    | .invalid _ => (tryBytes (addr + 1) buf).map id (b :: ·)
    | .mapped => (tryBytes (addr + 1) buf).map id (reader.byte addr :: ·)

/-- Reading one range after another: the second is left alone where the first
ends in an error. -/
def andThen (first : Exec MemoryAccessError Unit × List UInt8) (buf : List UInt8)
    (second : Exec MemoryAccessError Unit × List UInt8) :
    Exec MemoryAccessError Unit × List UInt8 :=
  match first with
  | (.ok (), front) => second.map id (front ++ ·)
  | (.error e, front) => (.error e, front ++ buf)

/-- The address of a byte is that of the rest of the range, one byte on. -/
theorem add_one_add (addr : VirtualAddress) (n : ℕ) :
    addr + 1 + BitVec.ofNat 64 n = addr + BitVec.ofNat 64 (n + 1) := by
  rw [BitVec.add_assoc, Nat.add_comm n 1, BitVec.ofNat_add]
  rfl

/-- **A range that is split reads as its parts do.** -/
theorem tryBytes_append (addr : VirtualAddress) (front back : List UInt8) :
    reader.tryBytes addr (front ++ back)
      = andThen (reader.tryBytes addr front) back
        (reader.tryBytes (addr + BitVec.ofNat 64 front.length) back) := by
  induction front generalizing addr with
  | nil =>
    rw [List.nil_append, List.length_nil, show addr + BitVec.ofNat 64 0 = addr from
      BitVec.add_zero addr]
    rfl
  | cons b front ih =>
    have hstep : ∀ c, (reader.tryBytes (addr + 1) (front ++ back)).map id (c :: ·)
        = andThen ((reader.tryBytes (addr + 1) front).map id (c :: ·)) back
          (reader.tryBytes (addr + BitVec.ofNat 64 (b :: front).length) back) := by
      intro c
      rw [ih, add_one_add, List.length_cons]
      obtain ⟨result, bytes⟩ := reader.tryBytes (addr + 1) front
      cases result <;> rfl
    rw [List.cons_append, tryBytes, tryBytes]
    cases reader.stateAt addr with
    | mapped => exact hstep _
    | invalid entry => exact hstep _
    | failed e => rfl

/-! ## Pages are bytes -/

/-- In a page all addresses read alike. -/
theorem stateAt_add {addr : VirtualAddress} {i : ℕ} (hi : addr.toNat % 4096 + i < 4096) :
    reader.stateAt (addr + BitVec.ofNat 64 i) = reader.stateAt addr := by
  unfold stateAt
  rw [pageBase_add hi]

theorem bytesFrom_succ (byte : VirtualAddress → UInt8) (addr : VirtualAddress) (n : ℕ) :
    bytesFrom byte addr (n + 1) = byte addr :: bytesFrom byte (addr + 1) n := by
  unfold bytesFrom
  rw [List.range_succ_eq_map, List.map_cons, List.map_map,
    show addr + BitVec.ofNat 64 0 = addr from BitVec.add_zero addr]
  refine congrArg _ (List.map_congr_left fun i _ => congrArg byte ?_)
  rw [add_one_add]

/-- Where everything is mapped, the buffer is filled. -/
theorem tryBytes_mapped {addr : VirtualAddress} {buf : List UInt8}
    (h : ∀ i < buf.length, reader.stateAt (addr + BitVec.ofNat 64 i) = .mapped) :
    reader.tryBytes addr buf = (.ok (), bytesFrom reader.byte addr buf.length) := by
  induction buf generalizing addr with
  | nil => rfl
  | cons b buf ih =>
    have h0 := h 0 (Nat.succ_pos _)
    rw [show addr + BitVec.ofNat 64 0 = addr from BitVec.add_zero addr] at h0
    rw [tryBytes, h0, List.length_cons, bytesFrom_succ]
    dsimp only
    rw [ih fun i hi => by rw [add_one_add]; exact h (i + 1) (Nat.succ_lt_succ hi)]
    rfl

/-- Where nothing is mapped, the buffer stays as it is. -/
theorem tryBytes_invalid {addr : VirtualAddress} {entry : U64} {buf : List UInt8}
    (h : ∀ i < buf.length, reader.stateAt (addr + BitVec.ofNat 64 i) = .invalid entry) :
    reader.tryBytes addr buf = (.ok (), buf) := by
  induction buf generalizing addr with
  | nil => rfl
  | cons b buf ih =>
    have h0 := h 0 (Nat.succ_pos _)
    rw [show addr + BitVec.ofNat 64 0 = addr from BitVec.add_zero addr] at h0
    rw [tryBytes, h0]
    dsimp only
    rw [ih fun i hi => by rw [add_one_add]; exact h (i + 1) (Nat.succ_lt_succ hi)]
    rfl

/-- **A read inside a page is the read of its bytes.** -/
theorem skipInvalid_eq_tryBytes {addr : VirtualAddress} {buf : List UInt8}
    (hpos : 0 < buf.length) (hpage : addr.toNat % 4096 + buf.length ≤ 4096) :
    skipInvalid reader.read addr buf = reader.tryBytes addr buf := by
  have hstate : ∀ i < buf.length,
      reader.stateAt (addr + BitVec.ofNat 64 i) = reader.stateAt addr :=
    fun i hi => reader.stateAt_add (by omega)
  unfold skipInvalid
  rw [reader.read_eq addr buf hpage]
  cases hs : reader.page (pageBase addr) with
  | mapped => rw [reader.tryBytes_mapped fun i hi => (hstate i hi).trans hs]
  | invalid entry =>
    rw [reader.tryBytes_invalid fun i hi => (hstate i hi).trans hs]
    rfl
  | failed e =>
    obtain ⟨b, buf, rfl⟩ := List.exists_cons_of_length_pos hpos
    rw [tryBytes, show reader.stateAt addr = .failed e from hs]
    rfl

/-- **The loop over the pages is the read of the bytes.** -/
theorem readVirtualMemoryLoop_eq_tryBytes (fuel : ℕ) (addr : VirtualAddress)
    (buf : List UInt8) (hpos : 0 < buf.length) (hfuel : buf.length < fuel) :
    readVirtualMemoryLoop (skipInvalid reader.read) fuel addr (pageBase addr) buf
      = reader.tryBytes addr buf := by
  induction fuel generalizing addr buf with
  | zero => exact absurd hfuel (Nat.not_lt_zero _)
  | succ fuel ih =>
    have hmod : addr.toNat % 4096 < 4096 := Nat.mod_lt _ (by decide)
    obtain ⟨hnext, hpage, -⟩ := nextPage_eq addr
    rw [readVirtualMemoryLoop]
    dsimp only
    rw [toNat_nextPage_sub]
    by_cases hle : buf.length ≤ 4096 - addr.toNat % 4096
    · rw [if_pos hle]
      exact reader.skipInvalid_eq_tryBytes hpos (by omega)
    · rw [if_neg hle]
      generalize hdiff : 4096 - addr.toNat % 4096 = diff at *
      have htake : (buf.take diff).length = diff := by
        rw [List.length_take]
        omega
      have hdrop : (buf.drop diff).length = buf.length - diff := List.length_drop
      -- the rest of the range begins at a page of its own
      have hrest := ih (pageBase addr + 0x1000) (buf.drop diff) (by omega) (by omega)
      rw [hpage] at hrest
      conv_rhs => rw [← List.take_append_drop diff buf]
      rw [reader.tryBytes_append, htake, ← hnext, hrest,
        reader.skipInvalid_eq_tryBytes (by omega) (by omega)]
      obtain ⟨result, front⟩ := reader.tryBytes addr (buf.take diff)
      cases result <;> rfl

theorem tryReadVirtualMemory_eq_tryBytes (addr : VirtualAddress) {buf : List UInt8}
    (hpos : 0 < buf.length) :
    tryReadVirtualMemory addr buf reader.read = reader.tryBytes addr buf :=
  reader.readVirtualMemoryLoop_eq_tryBytes _ addr buf hpos (Nat.lt_succ_self _)

/-- An empty range still asks for its page. -/
theorem tryReadVirtualMemory_nil (addr : VirtualAddress) :
    tryReadVirtualMemory addr [] reader.read =
      match reader.stateAt addr with
      | .failed e => (Exec.fail e, [])
      | _ => (.ok (), []) := by
  have hmod : addr.toNat % 4096 < 4096 := Nat.mod_lt _ (by decide)
  show skipInvalid reader.read addr [] = _
  unfold skipInvalid stateAt
  rw [reader.read_eq addr [] (by rw [List.length_nil]; omega)]
  cases reader.page (pageBase addr) <;> rfl

/-- A single byte is read as its page is. -/
theorem readVirtualMemory_one (addr : VirtualAddress) (x : UInt8)
    (h : reader.stateAt addr = .mapped) :
    readVirtualMemory addr [x] reader.read = (.ok (), [reader.byte addr]) := by
  have hmod : addr.toNat % 4096 < 4096 := Nat.mod_lt _ (by decide)
  have hle : [x].length ≤ 4096 - addr.toNat % 4096 := by
    rw [List.length_singleton]
    omega
  rw [readVirtualMemory, readVirtualMemoryLoop]
  dsimp only
  rw [toNat_nextPage_sub, if_pos hle, reader.read_eq addr [x] (by omega),
    show reader.page (pageBase addr) = .mapped from h]
  exact congrArg (fun a => ((.ok (), [reader.byte a]) : Exec TranslationError Unit × _))
    (BitVec.add_zero addr)

/-! ## What a read leaves behind -/

/-- What a byte of the buffer is after a read that got past it. -/
def ByteRead (addr : VirtualAddress) (old new : Option UInt8) : Prop :=
  (reader.stateAt addr = .mapped ∧ new = some (reader.byte addr))
    ∨ ∃ entry, reader.stateAt addr = .invalid entry ∧ new = old

/-- **What a read of a range comes to**: it gets to the end, or it ends at the
first byte of a page that fails and leaves the buffer alone from there. -/
def Reads (addr : VirtualAddress) (buf : List UInt8)
    (out : Exec MemoryAccessError Unit × List UInt8) : Prop :=
  out.2.length = buf.length
    ∧ ((out.1 = .ok ()
        ∧ ∀ k < buf.length, reader.ByteRead (addr + BitVec.ofNat 64 k) buf[k]? out.2[k]?)
      ∨ ∃ off < buf.length, ∃ e, out.1 = Exec.fail e
        ∧ reader.stateAt (addr + BitVec.ofNat 64 off) = .failed e
        ∧ (∀ k < off, ∀ e', reader.stateAt (addr + BitVec.ofNat 64 k) ≠ .failed e')
        ∧ out.2.drop off = buf.drop off)

/-- A byte in front of a range, with the state of its own page. -/
theorem Reads.cons {addr : VirtualAddress} {b c : UInt8} {buf : List UInt8}
    {out : Exec MemoryAccessError Unit × List UInt8} (h : reader.Reads (addr + 1) buf out)
    (hc : reader.ByteRead addr (some b) (some c)) :
    reader.Reads addr (b :: buf) (out.map id (c :: ·)) := by
  have hzero : addr + BitVec.ofNat 64 0 = addr := BitVec.add_zero addr
  obtain ⟨hlen, hrest⟩ := h
  simp only [add_one_add] at hrest
  refine ⟨congrArg Nat.succ hlen, ?_⟩
  obtain ⟨hok, hbytes⟩ | ⟨off, hoff, e, hfail, hpage, hbefore, hdrop⟩ := hrest
  · refine Or.inl ⟨hok, fun k hk => ?_⟩
    cases k with
    | zero => rw [hzero]; exact hc
    | succ k => exact hbytes k (Nat.lt_of_succ_lt_succ hk)
  · refine Or.inr ⟨off + 1, Nat.succ_lt_succ hoff, e, hfail, hpage, fun k hk e' => ?_, hdrop⟩
    cases k with
    | zero =>
      rw [hzero]
      obtain ⟨hs, -⟩ | ⟨entry, hs, -⟩ := hc <;> simp [hs]
    | succ k => exact hbefore k (Nat.lt_of_succ_lt_succ hk) e'

theorem reads_tryBytes (addr : VirtualAddress) (buf : List UInt8) :
    reader.Reads addr buf (reader.tryBytes addr buf) := by
  induction buf generalizing addr with
  | nil => exact ⟨rfl, Or.inl ⟨rfl, fun k hk => absurd hk (Nat.not_lt_zero k)⟩⟩
  | cons b buf ih =>
    rw [tryBytes]
    cases hs : reader.stateAt addr with
    | mapped => exact Reads.cons reader (ih (addr + 1)) (Or.inl ⟨hs, rfl⟩)
    | invalid entry => exact Reads.cons reader (ih (addr + 1)) (Or.inr ⟨entry, hs, rfl⟩)
    | failed e =>
      have hzero : addr + BitVec.ofNat 64 0 = addr := BitVec.add_zero addr
      refine ⟨rfl, Or.inr ⟨0, Nat.succ_pos _, e, rfl, by rw [hzero, hs], ?_, rfl⟩⟩
      exact fun k hk => absurd hk (Nat.not_lt_zero k)

/-- Whether an address belongs to a page the read asks for. An empty range
still asks for the page it begins in. -/
def Asks (off len : ℕ) : Prop := off = 0 ∨ off < len

/-- The read of a range of any length. -/
theorem tryReadVirtualMemory_cases (addr : VirtualAddress) (buf : List UInt8) :
    (∃ bytes, tryReadVirtualMemory addr buf reader.read = (.ok (), bytes)
        ∧ bytes.length = buf.length
        ∧ (∀ off, Asks off buf.length → ∀ e,
          reader.stateAt (addr + BitVec.ofNat 64 off) ≠ .failed e)
        ∧ ∀ k < buf.length, reader.ByteRead (addr + BitVec.ofNat 64 k) buf[k]? bytes[k]?)
      ∨ ∃ off e bytes, tryReadVirtualMemory addr buf reader.read = (Exec.fail e, bytes)
        ∧ Asks off buf.length
        ∧ bytes.length = buf.length
        ∧ reader.stateAt (addr + BitVec.ofNat 64 off) = .failed e
        ∧ (∀ k < off, ∀ e', reader.stateAt (addr + BitVec.ofNat 64 k) ≠ .failed e')
        ∧ bytes.drop off = buf.drop off := by
  have hzero : addr + BitVec.ofNat 64 0 = addr := BitVec.add_zero addr
  obtain hnil | hpos := Nat.eq_zero_or_pos buf.length
  · obtain rfl := List.length_eq_zero_iff.mp hnil
    have hnone : (∀ e, reader.stateAt addr ≠ .failed e) →
        ∀ off, Asks off 0 → ∀ e, reader.stateAt (addr + BitVec.ofNat 64 off) ≠ .failed e := by
      rintro hs off (rfl | hoff)
      · rwa [hzero]
      · exact absurd hoff (Nat.not_lt_zero off)
    rw [reader.tryReadVirtualMemory_nil]
    cases hs : reader.stateAt addr with
    | mapped =>
      exact Or.inl ⟨[], rfl, rfl, hnone (by simp [hs]), fun k hk => absurd hk (Nat.not_lt_zero k)⟩
    | invalid entry =>
      exact Or.inl ⟨[], rfl, rfl, hnone (by simp [hs]), fun k hk => absurd hk (Nat.not_lt_zero k)⟩
    | failed e =>
      exact Or.inr ⟨0, e, [], rfl, Or.inl rfl, rfl, by rw [hzero, hs],
        fun k hk => absurd hk (Nat.not_lt_zero k), rfl⟩
  · rw [reader.tryReadVirtualMemory_eq_tryBytes addr hpos]
    obtain ⟨hlen, ⟨hok, hbytes⟩ | ⟨off, hoff, e, hfail, hpage, hbefore, hdrop⟩⟩ :=
      reader.reads_tryBytes addr buf
    · refine Or.inl ⟨_, Prod.ext hok rfl, hlen, fun off hoff e he => ?_, hbytes⟩
      have hlt : off < buf.length := by
        obtain rfl | hlt := hoff
        · exact hpos
        · exact hlt
      obtain ⟨hs, -⟩ | ⟨entry, hs, -⟩ := hbytes off hlt <;> simp [he] at hs
    · exact Or.inr ⟨off, e, _, Prod.ext hfail rfl, Or.inr hoff, hlen, hpage, hbefore, hdrop⟩

end PageReader

/-- **Reading what is mapped.** A read that succeeds leaves the bytes of the
strict read where the page is mapped and the former content where it is not;
it fails exactly where some page fails with a memory error, and then it has
written nothing from that page on; and it does not matter how a range is
split. -/
theorem tryReadVirtualMemory_spec (reader : PageReader) (addr : VirtualAddress)
    (buf : List UInt8) :
    (∀ bytes, tryReadVirtualMemory addr buf reader.read = (.ok (), bytes) →
        bytes.length = buf.length ∧ ∀ k < buf.length,
          (reader.stateAt (addr + BitVec.ofNat 64 k) = .mapped →
            ∃ b, bytes[k]? = some b ∧ ∀ x,
              readVirtualMemory (addr + BitVec.ofNat 64 k) [x] reader.read = (.ok (), [b]))
          ∧ ∀ entry, reader.stateAt (addr + BitVec.ofNat 64 k) = .invalid entry →
            bytes[k]? = buf[k]?)
      ∧ ((∃ bytes, tryReadVirtualMemory addr buf reader.read = (.ok (), bytes))
        ↔ ∀ off, PageReader.Asks off buf.length → ∀ e,
          reader.stateAt (addr + BitVec.ofNat 64 off) ≠ .failed e)
      ∧ ((∃ e bytes, tryReadVirtualMemory addr buf reader.read = (Exec.fail e, bytes))
        ↔ ∃ off, PageReader.Asks off buf.length ∧ ∃ e,
          reader.stateAt (addr + BitVec.ofNat 64 off) = .failed e)
      ∧ (∀ e bytes, tryReadVirtualMemory addr buf reader.read = (Exec.fail e, bytes) →
        ∃ off, PageReader.Asks off buf.length
          ∧ reader.stateAt (addr + BitVec.ofNat 64 off) = .failed e
          ∧ (∀ k < off, ∀ e', reader.stateAt (addr + BitVec.ofNat 64 k) ≠ .failed e')
          ∧ bytes.length = buf.length ∧ bytes.drop off = buf.drop off)
      ∧ ∀ front back : List UInt8, 0 < front.length → 0 < back.length →
        tryReadVirtualMemory addr (front ++ back) reader.read
          = PageReader.andThen (tryReadVirtualMemory addr front reader.read) back
            (tryReadVirtualMemory (addr + BitVec.ofNat 64 front.length) back
              reader.read) := by
  refine ⟨?_, ?_, ?_, ?_, ?_⟩
  · intro bytes h
    obtain ⟨bytes', h', hlen, -, hbytes⟩ | ⟨off, e, bytes', h', -⟩ :=
      reader.tryReadVirtualMemory_cases addr buf
    · obtain rfl : bytes' = bytes := congrArg Prod.snd (h'.symm.trans h)
      refine ⟨hlen, fun k hk => ⟨fun hs => ?_, fun entry hs => ?_⟩⟩
      · obtain ⟨-, hb⟩ | ⟨entry, hs', -⟩ := hbytes k hk
        · exact ⟨_, hb, fun x => reader.readVirtualMemory_one _ x hs⟩
        · simp [hs] at hs'
      · obtain ⟨hs', -⟩ | ⟨entry', -, hb⟩ := hbytes k hk
        · simp [hs] at hs'
        · exact hb
    · rw [h'] at h
      exact absurd (congrArg Prod.fst h) (by simp [Exec.fail])
  · obtain ⟨bytes, h, -, hnone, -⟩ | ⟨off, e, bytes, h, hoff, -, hs, -⟩ :=
      reader.tryReadVirtualMemory_cases addr buf
    · exact ⟨fun _ => hnone, fun _ => ⟨bytes, h⟩⟩
    · refine ⟨?_, fun hnone => absurd hs (hnone off hoff e)⟩
      rintro ⟨bytes', h'⟩
      rw [h] at h'
      exact absurd (congrArg Prod.fst h') (by simp [Exec.fail])
  · obtain ⟨bytes, h, -, hnone, -⟩ | ⟨off, e, bytes, h, hoff, -, hs, -⟩ :=
      reader.tryReadVirtualMemory_cases addr buf
    · constructor
      · rintro ⟨e, bytes', h'⟩
        rw [h] at h'
        exact absurd (congrArg Prod.fst h') (by simp [Exec.fail])
      · rintro ⟨off, hoff, e, hs⟩
        exact absurd hs (hnone off hoff e)
    · exact ⟨fun _ => ⟨off, hoff, e, hs⟩, fun _ => ⟨e, bytes, h⟩⟩
  · intro e bytes h
    obtain ⟨bytes', h', -⟩ | ⟨off, e', bytes', h', hoff, hlen, hs, hbefore, hdrop⟩ :=
      reader.tryReadVirtualMemory_cases addr buf
    · rw [h'] at h
      exact absurd (congrArg Prod.fst h) (by simp [Exec.fail])
    · obtain ⟨he, rfl⟩ := Prod.mk.inj (h'.symm.trans h)
      obtain rfl : e' = e := by simpa [Exec.fail] using he
      exact ⟨off, hoff, hs, hbefore, hlen, hdrop⟩
  · intro front back hfront hback
    rw [reader.tryReadVirtualMemory_eq_tryBytes _ (by rw [List.length_append]; omega),
      reader.tryReadVirtualMemory_eq_tryBytes _ hfront,
      reader.tryReadVirtualMemory_eq_tryBytes _ hback]
    exact reader.tryBytes_append addr front back

/-- Pages that read as a table says. -/
def PageReader.ofPages (page : U64 → PageState) (byte : VirtualAddress → UInt8) : PageReader where
  read addr buf :=
    match page (pageBase addr) with
    | .mapped => (.ok (), bytesFrom byte addr buf.length)
    | .invalid entry => (Exec.fail (.invalid entry), buf)
    | .failed e => (Exec.fail (.memory e), buf)
  page := page
  byte := byte
  read_eq _ _ _ := rfl

/-- A mapped page, one without an entry, and pages that cannot be read. -/
def threePages : PageReader := PageReader.ofPages
  (fun page =>
    if page = 0 then .mapped else if page = 0x1000 then .invalid 0 else .failed .outOfBounds)
  fun addr => UInt8.ofNat addr.toNat

/-- A read over the end of the mapped page, and one that goes on to the pages that cannot be
read. -/
theorem tryReadVirtualMemory_threePages :
    tryReadVirtualMemory 0xffe [7, 7, 7, 7] threePages.read = (.ok (), [0xfe, 0xff, 7, 7])
      ∧ ∃ e bytes, tryReadVirtualMemory 0xffe (List.replicate 4100 7) threePages.read
          = (Exec.fail e, bytes) ∧ bytes.drop 4098 = [7, 7] := by
  obtain ⟨hbytes, hok, -⟩ := tryReadVirtualMemory_spec threePages 0xffe [7, 7, 7, 7]
  obtain ⟨-, -, hfail, hleft, -⟩ := tryReadVirtualMemory_spec threePages 0xffe
    (List.replicate 4100 7)
  have hmany : (List.replicate 4100 (7 : UInt8)).length = 4100 := List.length_replicate
  have hlast : threePages.stateAt (0xffe + BitVec.ofNat 64 4098) = .failed .outOfBounds := rfl
  refine ⟨?_, ?_⟩
  · have hnone : ∀ off, PageReader.Asks off 4 → ∀ e,
        threePages.stateAt (0xffe + BitVec.ofNat 64 off) ≠ .failed e := by
      intro off hoff e
      have hlt : off < 4 := by obtain rfl | hlt := hoff <;> omega
      interval_cases off <;> exact PageState.noConfusion
    obtain ⟨bytes, hread⟩ := hok.mpr hnone
    obtain ⟨hlen, hbyte⟩ := hbytes bytes hread
    obtain ⟨b₀, h₀, hb₀⟩ := (hbyte 0 (by decide)).1 rfl
    obtain ⟨b₁, h₁, hb₁⟩ := (hbyte 1 (by decide)).1 rfl
    have h₂ := (hbyte 2 (by decide)).2 0 rfl
    have h₃ := (hbyte 3 (by decide)).2 0 rfl
    obtain rfl : 0xfe = b₀ := (List.cons.inj (congrArg Prod.snd (hb₀ 0))).1
    obtain rfl : 0xff = b₁ := (List.cons.inj (congrArg Prod.snd (hb₁ 0))).1
    rw [hread]
    refine congrArg (Prod.mk _) (List.ext_getElem? fun k => ?_)
    match k with
    | 0 => exact h₀
    | 1 => exact h₁
    | 2 => exact h₂
    | 3 => exact h₃
    | k + 4 =>
      rw [List.getElem?_eq_none (hlen.le.trans (Nat.le_add_left 4 k))]
      rfl
  · obtain ⟨e, bytes, hread⟩ :=
      hfail.mpr ⟨4098, Or.inr (by rw [hmany]; decide), .outOfBounds, hlast⟩
    obtain ⟨off, -, -, hbefore, -, hdrop⟩ := hleft e bytes hread
    have hle : off ≤ 4098 := Nat.not_lt.mp fun hlt => hbefore 4098 hlt _ hlast
    refine ⟨e, bytes, hread, ?_⟩
    rw [← Nat.add_sub_cancel' hle, ← List.drop_drop, hdrop, List.drop_drop,
      Nat.add_sub_cancel' hle, List.drop_replicate]
    rfl
