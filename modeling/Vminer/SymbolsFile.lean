import Vminer.Symbols

/-!
# Symbol files

A `System.map` file has one symbol a line. The loop that reads it takes line
after line from a reader until it gets an empty one, and there are two readers:
with the standard library a line includes its newline, without it the line ends
before the newline, *which is not taken either*. The next line then begins with
the newline that ended the one before and is empty, so that such a build stops
after the first line.

`readFromBytes_agree_iff` says what this amounts to: the two builds push the
same symbols for the files in which only the first line has one.
-/

/-- `BufRead::read_one_line`: the bytes taken, those that remain, and the buffer
with the line. -/
abbrev LineReader : Type := List UInt8 → Str → Exec VmError (ℕ × List UInt8 × Str)

/-- A reader of lines that takes `stop i` bytes where there is a newline at
`i`. -/
def readLineTo (stop : ℕ → ℕ) (e : VmError) : LineReader := fun bytes buf =>
  let n := match bytes.findIdx? (· == 10) with
    | some i => stop i
    | none => bytes.length
  match Str.fromUtf8 (bytes.take n) with
  | some line => .ok (n, bytes.drop n, buf.append line)
  | none => Exec.fail e

/-- `read_one_line` with the standard library, that is `BufRead::read_line`. -/
def readOneLineStd : LineReader := readLineTo (· + 1) (.io .invalidData)

/-- `read_one_line` without it. -/
def readOneLineNoStd : LineReader := readLineTo id (VmError.new "invalid utf-8 sequence")

/-- `char::to_digit(16)` -/
def hexDigit (b : UInt8) : Option ℕ :=
  if 48 ≤ b ∧ b ≤ 57 then some (b.toNat - 48)
  else if 65 ≤ b ∧ b ≤ 70 then some (b.toNat - 55)
  else if 97 ≤ b ∧ b ≤ 102 then some (b.toNat - 87)
  else none

/-- `u64::from_str_radix(digits, 16)` -/
def fromStrRadix16 (digits : List UInt8) : Option U64 :=
  let digits := match digits with
    | 43 :: rest => rest
    | _ => digits
  if digits = [] then none
  else do
    let n ← digits.foldlM (fun acc b => do
      let d ← hexDigit b
      if acc * 16 + d < 2 ^ 64 then some (acc * 16 + d) else none) 0
    return BitVec.ofNat 64 n

/-- `u8::to_ascii_uppercase` -/
def toAsciiUppercase (b : UInt8) : UInt8 := if 97 ≤ b ∧ b ≤ 122 then b - 32 else b

/-- The name a line ends with, up to a tab or a newline. -/
def findName (rest : Str) : Exec VmError Str :=
  match rest.bytes.findIdx? (fun b => b == 9 || b == 10) with
  | some i => rest.sliceTo i
  | none => .ok rest

/-- The closure of `parse_symbol_file_inner`: the name and the address a line
gives, where it is of an interesting kind. -/
def parseLine (line : Str) : Exec VmError (Option (Str × U64)) := do
  let (start, rest) ← line.splitAt 19
  let digits ← start.sliceTo 16
  match fromStrRadix16 digits.bytes with
  | none => return none
  | some addr =>
    match start.bytes[17]? with
    | none => Exec.panicked
    | some kind =>
      -- one of the letters T, A, D and R
      if toAsciiUppercase kind ∈ ([84, 65, 68, 82] : List UInt8) then do
        let name ← findName rest
        return some (name, addr)
      else return none

/-- Push the symbol of a line, if it gives one. -/
def ModuleSymbolsBuilder.pushSymbol (syms : ModuleSymbolsBuilder) :
    Option (Str × U64) → ModuleSymbolsBuilder
  | none => syms
  | some (name, addr) => syms.push addr name

/-- The loop of `parse_symbol_file_inner`. -/
def parseSymbolFileInner (readOneLine : LineReader) :
    ℕ → List UInt8 → ModuleSymbolsBuilder → Exec VmError Unit × ModuleSymbolsBuilder
  | 0, _, syms => (Exec.outOfFuel, syms)
  | fuel + 1, r, syms =>
    match readOneLine r Str.empty with
    | .error s => (.error s, syms)
    | .ok (0, _, _) => (.ok (), syms)
    | .ok (_ + 1, r, line) =>
      match parseLine line with
      | .error s => (.error s, syms)
      | .ok sym => parseSymbolFileInner readOneLine fuel r (syms.pushSymbol sym)

/-- `read_from_bytes`; each round but the last takes a byte. -/
def readFromBytes (readOneLine : LineReader) (bytes : List UInt8)
    (syms : ModuleSymbolsBuilder) : Exec VmError Unit × ModuleSymbolsBuilder :=
  parseSymbolFileInner readOneLine (bytes.length + 1) bytes syms

/-! ## Files of lines -/

/-- The string of a newline. -/
def Str.newline : Str := ⟨[10], ['\n'], by decide⟩

/-- **A line of a symbol file**: at least as long as its fixed part, which ends
between two characters, as the address does. -/
structure SymbolLine where
  text : Str
  no_newline : 10 ∉ text.bytes
  length_le : 19 ≤ text.bytes.length
  address_end : isCharBoundary text.bytes 16 = true
  name_start : isCharBoundary text.bytes 19 = true

/-- A file of these lines, with or without a newline at the end. -/
def symbolFile (final : Bool) : List SymbolLine → List UInt8
  | [] => []
  | [l] => l.text.bytes ++ if final then [10] else []
  | l :: l' :: ls => l.text.bytes ++ 10 :: symbolFile final (l' :: ls)

/-- The address and the name of each symbol of a builder. -/
def ModuleSymbolsBuilder.table (syms : ModuleSymbolsBuilder) :
    List (VirtualAddress × List UInt8) :=
  syms.symbols.map fun e => (e.1, nameOf syms.buffer e)

namespace SymbolLine

variable (l : SymbolLine)

/-- The line with its newline. -/
def terminated : Str := l.text.append Str.newline

/-- A line without a newline is all there is. -/
theorem findIdx?_last : l.text.bytes.findIdx? (· == 10) = none := by
  refine List.findIdx?_eq_none_iff.mpr fun b hb => beq_eq_false_iff_ne.mpr ?_
  rintro rfl
  exact l.no_newline hb

/-- A newline is found where the line ends. -/
theorem findIdx?_newline (rest : List UInt8) :
    (l.text.bytes ++ 10 :: rest).findIdx? (· == 10) = some l.text.bytes.length := by
  simp [List.findIdx?_append, l.findIdx?_last, List.findIdx?_cons]

/-- **The two parts of a line**; the newline is in the second one. -/
theorem exists_splitAt : ∃ start rest : Str,
    (l.text.splitAt 19 : Exec VmError (Str × Str)) = .ok (start, rest)
      ∧ (l.terminated.splitAt 19 : Exec VmError (Str × Str))
        = .ok (start, rest.append Str.newline)
      ∧ start.bytes = l.text.bytes.take 19 := by
  have hlen : 19 ≤ l.terminated.bytes.length := by
    rw [terminated, Str.append, List.length_append]
    exact Nat.le_add_right_of_le l.length_le
  have hbound := Str.isCharBoundary_append l.text Str.newline l.name_start
  refine ⟨l.text.cutLeft 19 l.length_le l.name_start,
    l.text.cutRight 19 l.length_le l.name_start, dif_pos ⟨l.length_le, l.name_start⟩, ?_, rfl⟩
  rw [Str.splitAt, dif_pos ⟨hlen, hbound⟩]
  refine congrArg Except.ok (Prod.ext (Str.ext ?_) (Str.ext ?_))
  · exact List.take_append_of_le_length l.length_le
  · exact List.drop_append_of_le_length l.length_le

end SymbolLine

/-- **The name ends before the newline**, whether the line has one or not. -/
theorem exists_findName (rest : Str) :
    ∃ name, findName rest = .ok name ∧ findName (rest.append Str.newline) = .ok name := by
  have happend : (rest.append Str.newline).bytes = rest.bytes ++ [10] := rfl
  cases hfind : rest.bytes.findIdx? (fun b => b == 9 || b == 10) with
  | none =>
    have hfind' : (rest.append Str.newline).bytes.findIdx? (fun b => b == 9 || b == 10)
        = some rest.bytes.length := by
      simp [happend, List.findIdx?_append, hfind, List.findIdx?_cons]
    refine ⟨rest, by rw [findName, hfind], ?_⟩
    have hbound := Str.isCharBoundary_append_length rest Str.newline
    have hle : rest.bytes.length ≤ (rest.append Str.newline).bytes.length :=
      happend ▸ List.length_append ▸ Nat.le_add_right _ _
    rw [findName, hfind']
    dsimp only
    rw [Str.sliceTo, Str.splitAt, dif_pos ⟨hle, hbound⟩]
    exact congrArg Except.ok (Str.ext (List.take_left' rfl))
  | some i =>
    obtain ⟨hlt, hb, -⟩ := List.findIdx?_eq_some_iff_getElem.mp hfind
    have hbound : isCharBoundary rest.bytes i = true := by
      have htab : ∀ b : UInt8, (b == 9 || b == 10) = true → isContinuation b = false := by
        intro b hb
        obtain h | h := Bool.or_eq_true_iff.mp hb
        · rw [beq_iff_eq.mp h]
          rfl
        · rw [beq_iff_eq.mp h]
          rfl
      rw [isCharBoundary, List.getElem?_eq_getElem hlt]
      simp [htab _ hb]
    have hfind' : (rest.append Str.newline).bytes.findIdx? (fun b => b == 9 || b == 10)
        = some i := by
      rw [happend, List.findIdx?_append, hfind, Option.some_or]
    have hle : i ≤ (rest.append Str.newline).bytes.length :=
      happend ▸ List.length_append ▸ Nat.le_add_right_of_le hlt.le
    have hbound' := Str.isCharBoundary_append rest Str.newline hbound
    refine ⟨rest.cutLeft i hlt.le hbound, ?_, ?_⟩
    · rw [findName, hfind]
      dsimp only
      rw [Str.sliceTo, Str.splitAt, dif_pos ⟨hlt.le, hbound⟩]
      rfl
    · rw [findName, hfind']
      dsimp only
      rw [Str.sliceTo, Str.splitAt, dif_pos ⟨hle, hbound'⟩]
      exact congrArg Except.ok (Str.ext (List.take_append_of_le_length hlt.le))

namespace SymbolLine

variable (l : SymbolLine)

/-- **A line is parsed alike with and without its newline**, and not given
up. -/
theorem exists_parseLine :
    ∃ sym, parseLine l.text = .ok sym ∧ parseLine l.terminated = .ok sym := by
  obtain ⟨start, rest, hsplit, hsplit', hstart⟩ := l.exists_splitAt
  obtain ⟨name, hname, hname'⟩ := exists_findName rest
  have hlen : start.bytes.length = 19 := by
    rw [hstart, List.length_take, Nat.min_eq_left l.length_le]
  have hbound : isCharBoundary start.bytes 16 = true := by
    have h := l.address_end
    rw [isCharBoundary] at h ⊢
    rw [hstart, List.getElem?_take_of_lt (by decide)]
    rw [List.getElem?_eq_getElem (by have := l.length_le; omega)] at h ⊢
    exact h
  have hdigits : (start.sliceTo 16 : Exec VmError Str)
      = .ok (start.cutLeft 16 (by omega) hbound) := by
    rw [Str.sliceTo, Str.splitAt, dif_pos ⟨by omega, hbound⟩]
    rfl
  obtain ⟨kind, hkind⟩ : ∃ kind, start.bytes[17]? = some kind :=
    ⟨_, List.getElem?_eq_getElem (by omega)⟩
  simp only [parseLine, hsplit, hsplit', hdigits, hkind, hname, hname', Exec.ok_bind]
  cases fromStrRadix16 (start.cutLeft 16 (by omega) hbound).bytes with
  | none => exact ⟨none, rfl, rfl⟩
  | some addr =>
    by_cases hmem : toAsciiUppercase kind ∈ ([84, 65, 68, 82] : List UInt8)
    · simp only [if_pos hmem]
      exact ⟨some (name, addr), rfl, rfl⟩
    · simp only [if_neg hmem]
      exact ⟨none, rfl, rfl⟩

/-- The symbol a line gives. -/
def symbol : Option (Str × U64) :=
  match parseLine l.text with
  | .ok sym => sym
  | .error _ => none

theorem parseLine_text : parseLine l.text = .ok l.symbol := by
  obtain ⟨sym, h, -⟩ := l.exists_parseLine
  rw [symbol, h]

theorem parseLine_terminated : parseLine l.terminated = .ok l.symbol := by
  obtain ⟨sym, h, h'⟩ := l.exists_parseLine
  rw [symbol, h, h']

end SymbolLine

/-! ## The two readers -/

/-- A reader of lines at a newline. -/
theorem readLineTo_newline (stop : ℕ → ℕ) (e : VmError) (l : SymbolLine) (rest : List UInt8)
    (line : Str) (hline : (l.text.bytes ++ 10 :: rest).take (stop l.text.bytes.length)
      = line.bytes) :
    readLineTo stop e (l.text.bytes ++ 10 :: rest) Str.empty
      = .ok (stop l.text.bytes.length,
        (l.text.bytes ++ 10 :: rest).drop (stop l.text.bytes.length), line) := by
  rw [readLineTo, l.findIdx?_newline]
  dsimp only
  rw [hline, Str.fromUtf8_bytes]
  rfl

/-- A reader of lines at the last line. -/
theorem readLineTo_last (stop : ℕ → ℕ) (e : VmError) (l : SymbolLine) :
    readLineTo stop e l.text.bytes Str.empty = .ok (l.text.bytes.length, [], l.text) := by
  rw [readLineTo, l.findIdx?_last]
  dsimp only
  rw [List.take_length, List.drop_length, Str.fromUtf8_bytes]
  rfl

/-- **With the standard library the newline is taken.** -/
theorem readOneLineStd_newline (l : SymbolLine) (rest : List UInt8) :
    readOneLineStd (l.text.bytes ++ 10 :: rest) Str.empty
      = .ok (l.text.bytes.length + 1, rest, l.terminated) := by
  have hsplit : l.text.bytes ++ 10 :: rest = l.terminated.bytes ++ rest :=
    (List.append_assoc l.text.bytes [10] rest).symm
  have hlen : l.terminated.bytes.length = l.text.bytes.length + 1 := List.length_append
  have h := readLineTo_newline (· + 1) (.io .invalidData) l rest l.terminated
    (by rw [hsplit, ← hlen, List.take_left])
  rwa [hsplit, ← hlen, List.drop_left, ← hsplit, hlen] at h

/-- **Without it the newline is left.** -/
theorem readOneLineNoStd_newline (l : SymbolLine) (rest : List UInt8) :
    readOneLineNoStd (l.text.bytes ++ 10 :: rest) Str.empty
      = .ok (l.text.bytes.length, 10 :: rest, l.text) := by
  have h := readLineTo_newline id (VmError.new "invalid utf-8 sequence") l rest l.text
    List.take_left
  rwa [id, List.drop_left] at h

section Loop

variable (readOneLine : LineReader) (fuel : ℕ) (syms : ModuleSymbolsBuilder)

/-- A round in which the reader takes a line. -/
theorem parseSymbolFileInner_line {bytes rest : List UInt8} {line : Str} {n : ℕ}
    {sym : Option (Str × U64)} (hread : readOneLine bytes Str.empty = .ok (n + 1, rest, line))
    (hparse : parseLine line = .ok sym) :
    parseSymbolFileInner readOneLine (fuel + 1) bytes syms
      = parseSymbolFileInner readOneLine fuel rest (syms.pushSymbol sym) := by
  rw [parseSymbolFileInner, hread]
  dsimp only
  rw [hparse]

/-- A round in which there is no line any more. -/
theorem parseSymbolFileInner_end {bytes rest : List UInt8} {line : Str}
    (hread : readOneLine bytes Str.empty = .ok (0, rest, line)) :
    parseSymbolFileInner readOneLine (fuel + 1) bytes syms = (.ok (), syms) := by
  rw [parseSymbolFileInner, hread]

end Loop

/-- The length of a line, as a reader that takes it counts it. -/
theorem SymbolLine.length_eq_succ (l : SymbolLine) :
    ∃ n, l.text.bytes.length = n + 1 :=
  Nat.exists_eq_add_one.mpr (lt_of_lt_of_le (by decide) l.length_le)

/-- **With the standard library every line is pushed.** -/
theorem parseSymbolFileInner_std (final : Bool) (lines : List SymbolLine) (fuel : ℕ)
    (hfuel : lines.length < fuel) (syms : ModuleSymbolsBuilder) :
    parseSymbolFileInner readOneLineStd fuel (symbolFile final lines) syms
      = (.ok (), lines.foldl (fun syms l => syms.pushSymbol l.symbol) syms) := by
  induction lines generalizing fuel syms with
  | nil =>
    obtain ⟨fuel, rfl⟩ := Nat.exists_eq_add_one.mpr hfuel
    exact parseSymbolFileInner_end _ _ _ rfl
  | cons l ls ih =>
    obtain ⟨fuel, rfl⟩ := Nat.exists_eq_add_one.mpr (Nat.zero_lt_of_lt hfuel)
    have hrest := fun syms => ih fuel (Nat.lt_of_succ_lt_succ hfuel) syms
    cases ls with
    | nil =>
      cases final with
      | true =>
        rw [symbolFile, if_pos rfl, parseSymbolFileInner_line _ _ _
          (readOneLineStd_newline l []) l.parseLine_terminated]
        exact hrest _
      | false =>
        obtain ⟨n, hn⟩ := l.length_eq_succ
        have hread : readOneLineStd l.text.bytes Str.empty = _ := readLineTo_last _ _ l
        rw [hn] at hread
        rw [symbolFile, if_neg Bool.false_ne_true, List.append_nil,
          parseSymbolFileInner_line _ _ _ hread l.parseLine_text]
        exact hrest _
    | cons l' ls =>
      rw [symbolFile, parseSymbolFileInner_line _ _ _
        (readOneLineStd_newline l _) l.parseLine_terminated]
      exact hrest _

/-- **Without it only the first line is pushed.** -/
theorem parseSymbolFileInner_noStd (final : Bool) (l : SymbolLine) (ls : List SymbolLine)
    (fuel : ℕ) (syms : ModuleSymbolsBuilder) :
    parseSymbolFileInner readOneLineNoStd (fuel + 2) (symbolFile final (l :: ls)) syms
      = (.ok (), syms.pushSymbol l.symbol) := by
  obtain ⟨n, hn⟩ := l.length_eq_succ
  have hnewline : ∀ rest : List UInt8,
      parseSymbolFileInner readOneLineNoStd (fuel + 2) (l.text.bytes ++ 10 :: rest) syms
        = (.ok (), syms.pushSymbol l.symbol) := by
    intro rest
    have hread := readOneLineNoStd_newline l rest
    rw [hn] at hread
    rw [parseSymbolFileInner_line _ _ _ hread l.parseLine_text]
    exact parseSymbolFileInner_end _ _ _ rfl
  cases ls with
  | cons l' ls => exact hnewline _
  | nil =>
    cases final with
    | true => exact hnewline []
    | false =>
      have hread : readOneLineNoStd l.text.bytes Str.empty = _ := readLineTo_last _ _ l
      rw [hn] at hread
      rw [symbolFile, if_neg Bool.false_ne_true, List.append_nil,
        parseSymbolFileInner_line _ _ _ hread l.parseLine_text]
      exact parseSymbolFileInner_end _ _ _ rfl

/-! ## Agreement -/

namespace ModuleSymbolsBuilder

/-- The lines after the first push one entry for each symbol they give. -/
theorem length_symbols_foldl (lines : List SymbolLine) (syms : ModuleSymbolsBuilder) :
    (lines.foldl (fun syms l => syms.pushSymbol l.symbol) syms).symbols.length
      = syms.symbols.length + lines.countP (fun l => l.symbol.isSome) := by
  induction lines generalizing syms with
  | nil => rfl
  | cons l ls ih =>
    rw [List.foldl_cons, ih, List.countP_cons]
    cases h : l.symbol with
    | none => rfl
    | some p =>
      rw [pushSymbol, push, List.length_append, Option.isSome_some, if_pos rfl]
      exact Nat.add_right_comm _ _ _

/-- Lines that give no symbol push nothing. -/
theorem foldl_pushSymbol_of_none {lines : List SymbolLine} (h : ∀ l ∈ lines, l.symbol = none)
    (syms : ModuleSymbolsBuilder) :
    lines.foldl (fun syms l => syms.pushSymbol l.symbol) syms = syms := by
  induction lines with
  | nil => rfl
  | cons l ls ih =>
    rw [List.foldl_cons, h l List.mem_cons_self, pushSymbol]
    exact ih fun l hl => h l (List.mem_cons_of_mem _ hl)

/-- Two builders with the same table have as many entries. -/
theorem length_symbols_of_table {syms syms' : ModuleSymbolsBuilder}
    (h : syms.table = syms'.table) : syms.symbols.length = syms'.symbols.length := by
  have hlen := congrArg List.length h
  rwa [table, table, List.length_map, List.length_map] at hlen

end ModuleSymbolsBuilder

/-- Every line has a byte. -/
theorem length_le_length_symbolFile (final : Bool) (lines : List SymbolLine) :
    lines.length ≤ (symbolFile final lines).length := by
  induction lines with
  | nil => exact Nat.zero_le _
  | cons l ls ih =>
    have hl := l.length_le
    cases ls with
    | nil =>
      rw [symbolFile, List.length_append, List.length_singleton]
      omega
    | cons l' ls =>
      have hlen : (symbolFile final (l :: l' :: ls)).length
          = l.text.bytes.length + ((symbolFile final (l' :: ls)).length + 1) := List.length_append
      rw [hlen, List.length_cons]
      omega

/-- What the build with the standard library pushes. -/
theorem readFromBytes_std (final : Bool) (lines : List SymbolLine) (syms : ModuleSymbolsBuilder) :
    readFromBytes readOneLineStd (symbolFile final lines) syms
      = (.ok (), lines.foldl (fun syms l => syms.pushSymbol l.symbol) syms) :=
  parseSymbolFileInner_std final lines _
    (Nat.lt_succ_of_le (length_le_length_symbolFile final lines)) syms

/-- What the build without it pushes. -/
theorem readFromBytes_noStd (final : Bool) (l : SymbolLine) (ls : List SymbolLine)
    (syms : ModuleSymbolsBuilder) :
    readFromBytes readOneLineNoStd (symbolFile final (l :: ls)) syms
      = (.ok (), syms.pushSymbol l.symbol) := by
  obtain ⟨fuel, hfuel⟩ := Nat.exists_eq_add_one.mpr
    (lt_of_lt_of_le (Nat.zero_lt_succ _) (length_le_length_symbolFile final (l :: ls)))
  rw [readFromBytes, hfuel]
  exact parseSymbolFileInner_noStd final l ls fuel syms

/-- **The two builds agree on the files in which only the first line may have a
symbol.** Both read every file of lines to its end without an error, and what
they push is the same exactly when no line after the first one gives a
symbol. -/
theorem readFromBytes_agree_iff (lines : List SymbolLine) (final : Bool)
    (syms : ModuleSymbolsBuilder) :
    (readFromBytes readOneLineStd (symbolFile final lines) syms).1 = .ok ()
      ∧ (readFromBytes readOneLineNoStd (symbolFile final lines) syms).1 = .ok ()
      ∧ ((readFromBytes readOneLineNoStd (symbolFile final lines) syms).2.table
          = (readFromBytes readOneLineStd (symbolFile final lines) syms).2.table
        ↔ ∀ l ∈ lines.tail, parseLine l.text = .ok none) := by
  cases lines with
  | nil =>
    have hnil : ∀ reader : LineReader, reader [] Str.empty = .ok (0, [], Str.empty) →
        readFromBytes reader (symbolFile final []) syms = (.ok (), syms) :=
      fun reader hreader => parseSymbolFileInner_end reader 0 syms hreader
    rw [hnil readOneLineStd rfl, hnil readOneLineNoStd rfl]
    exact ⟨rfl, rfl, fun _ l hl => absurd hl List.not_mem_nil, fun _ => rfl⟩
  | cons l ls =>
    rw [readFromBytes_std, readFromBytes_noStd, List.foldl_cons]
    refine ⟨rfl, rfl, fun h l' hl' => ?_, fun h => ?_⟩
    · have hlen := ModuleSymbolsBuilder.length_symbols_of_table h
      rw [ModuleSymbolsBuilder.length_symbols_foldl, Nat.left_eq_add, List.countP_eq_zero] at hlen
      rw [l'.parseLine_text, Option.not_isSome_iff_eq_none.mp (hlen l' hl')]
    · have hnone : ∀ l' ∈ ls, l'.symbol = none := fun l' hl' => by
        rw [SymbolLine.symbol, h l' hl']
      rw [ModuleSymbolsBuilder.foldl_pushSymbol_of_none hnone]

/-- A line of the kernel's banner. -/
def bannerLine : SymbolLine where
  text := Str.ofChars "ffffffffba000200 D linux_banner".toList
  no_newline := by decide +kernel
  length_le := by decide +kernel
  address_end := by decide +kernel
  name_start := by decide +kernel

/-- The second of two lines is lost without the standard library. -/
theorem not_agree_twoLines :
    ¬ ∀ (lines : List SymbolLine) (final : Bool) (syms : ModuleSymbolsBuilder),
      (readFromBytes readOneLineNoStd (symbolFile final lines) syms).2.table
        = (readFromBytes readOneLineStd (symbolFile final lines) syms).2.table := by
  intro h
  have hlines := h [bannerLine, bannerLine] true .new
  revert hlines
  decide +kernel
