import Vminer.SymbolsFile

/-!
# The mappings of a process

`/proc/{pid}/maps` has one mapping a line: its first address, a dash, its end, and
after a space its rights and the file it is of. `find_lib` takes the address of the
first executable line with a given name in it; `find_memory` takes the largest
mapping, which is hoped to be the memory of the virtual machine, and leaves the
libraries out.

`MapsEntry` is a line as the kernel writes it. On a file of such lines the two
functions are what they are for: `findLib` a search (`findLib_mapsFile`) and
`findMemory` a maximum, the first one of its size (`findMemory_mapsFile`).
-/

/-! ## Lines -/

/-- `str::contains` -/
def containsBytes (pattern bytes : List UInt8) : Bool :=
  bytes.tails.any fun tail => pattern.isPrefixOf tail

/-- What `BufRead::lines` takes from the end of a line. -/
def stripNewline (line : List UInt8) : List UInt8 :=
  if line.getLast? = some 10 then
    if line.dropLast.getLast? = some 13 then line.dropLast.dropLast else line.dropLast
  else line

/-- The bytes of a text. -/
def textBytes (text : String) : List UInt8 := (Str.ofChars text.toList).bytes

/-- The text of a `ParseIntError` of `from_str_radix(digits, 16)`, after the digits that have
been read. -/
def parseIntErrorFrom : ℕ → List UInt8 → String
  | _, [] => "cannot parse integer from empty string"
  | acc, b :: rest =>
    match hexDigit b with
    | none => "invalid digit found in string"
    | some d =>
      if acc * 16 + d < 2 ^ 64 then parseIntErrorFrom (acc * 16 + d) rest
      else "number too large to fit in target type"

/-- The text of a `ParseIntError` of `from_str_radix(digits, 16)`. -/
def parseIntError : List UInt8 → String
  | [43] => "invalid digit found in string"
  | 43 :: rest => parseIntErrorFrom 0 rest
  | digits => parseIntErrorFrom 0 digits

/-! ## Finding a library -/

/-- The loop of `find_lib` over the lines of the file at `path`. -/
def findLibLoop (path name : String) : ℕ → List UInt8 → Exec VmError U64
  | 0, _ => Exec.outOfFuel
  | fuel + 1, r => do
    let (n, r, line) ← readOneLineStd r Str.empty
    if n = 0 then
      Exec.fail (VmError.new ("failed to find address of \"" ++ name ++ "\""))
    else
      let line := stripNewline line.bytes
      if containsBytes (textBytes name) line && containsBytes (textBytes "r-xp ") line then
        match line.findIdx? (· == 45) with
        | none => Exec.panicked
        | some i =>
          match fromStrRadix16 (line.take i) with
          | some addr => return addr
          | none => Exec.fail (.context ("failed to parse " ++ path)
              (some (VmError.new (parseIntError (line.take i)))))
      else findLibLoop path name fuel r

/-- `find_lib`, on the contents of the file of mappings, if it can be opened. -/
def findLib (path : String) (file : Except IoError (List UInt8)) (name : String) :
    Exec VmError U64 :=
  match file with
  | .error e => Exec.fail (.io e)
  | .ok bytes => findLibLoop path name (bytes.length + 1) bytes

/-! ## Finding the memory -/

/-- The closure of `Kvm::find_memory`: the range of a line that may be the memory. -/
def mapsRange (line : List UInt8) : Option (U64 × U64) := do
  let i ← line.findIdx? (· == 45)
  let start ← fromStrRadix16 (line.take i)
  let line := line.drop i
  let j ← line.findIdx? (· == 32)
  let stop ← fromStrRadix16 ((line.take j).drop 1)
  if containsBytes (textBytes "/usr/") (line.drop j) then none
  else return (start, stop)

/-- The loop of `Kvm::find_memory`, with `map_guess` and `map_size`. -/
def findMemoryLoop : ℕ → List UInt8 → U64 → U64 → Exec VmError (U64 × U64)
  | 0, _, _, _ => Exec.outOfFuel
  | fuel + 1, r, mapGuess, mapSize => do
    let (n, r, line) ← readOneLineStd r Str.empty
    if n = 0 then return (mapGuess, mapSize)
    else
      match mapsRange line.bytes with
      | none => findMemoryLoop fuel r mapGuess mapSize
      | some (start, stop) => do
        let curSize ← checkedSub stop start
        if mapSize < curSize then findMemoryLoop fuel r start curSize
        else findMemoryLoop fuel r mapGuess mapSize

/-- `Kvm::find_memory`: where the memory is in the process. -/
def findMemory (file : Except IoError (List UInt8)) : Exec VmError (U64 × U64) :=
  match file with
  | .error e => Exec.fail (.io e)
  | .ok bytes => do
    let (mapGuess, mapSize) ← findMemoryLoop (bytes.length + 1) bytes 0 0
    if mapGuess = 0 then Exec.fail (VmError.new "failed to find VM memory")
    else
      let stop ← checkedAdd mapGuess mapSize
      return (mapGuess, stop)

/-! ## The file as the kernel writes it -/

/-- **A line of the file of mappings.** The first digits are those of its address,
those after the dash of its end. -/
structure MapsEntry where
  start : U64
  stop : U64
  startDigits : List UInt8
  stopDigits : List UInt8
  rest : List UInt8
  text : Str
  text_eq : text.bytes = startDigits ++ 45 :: (stopDigits ++ 32 :: rest)
  start_digits : ∀ b ∈ startDigits, (hexDigit b).isSome
  stop_digits : ∀ b ∈ stopDigits, (hexDigit b).isSome
  parse_start : fromStrRadix16 startDigits = some start
  parse_stop : fromStrRadix16 stopDigits = some stop
  lt : start.toNat < stop.toNat
  no_newline : 10 ∉ text.bytes

/-- The file of these lines. -/
def mapsFile (entries : List MapsEntry) : List UInt8 :=
  entries.flatMap fun m => m.text.bytes ++ [10]

namespace MapsEntry

variable (m : MapsEntry)

/-- The line as `BufRead::lines` gives it. -/
def line : List UInt8 := stripNewline (m.text.bytes ++ [10])

/-- An executable mapping with this name in its line. -/
def isLib (name : String) : Bool :=
  containsBytes (textBytes name) m.line && containsBytes (textBytes "r-xp ") m.line

/-- A mapping that may be the memory of a virtual machine. -/
def mayBeMemory : Bool := !containsBytes (textBytes "/usr/") (32 :: (m.rest ++ [10]))

def size : ℕ := m.stop.toNat - m.start.toNat

theorem size_pos : 0 < m.size := Nat.sub_pos_of_lt m.lt

/-- No character of a number is a sign between numbers. -/
theorem not_mem_of_digits {digits : List UInt8} {b : UInt8} (hb : hexDigit b = none)
    (h : ∀ d ∈ digits, (hexDigit d).isSome) : b ∉ digits := by
  intro hmem
  have hsome := h b hmem
  rw [hb] at hsome
  exact absurd hsome Bool.false_ne_true

end MapsEntry

/-- The first place of a byte is behind what has none of it. -/
theorem findIdx?_append_cons {bytes : List UInt8} {b : UInt8} (h : b ∉ bytes)
    (rest : List UInt8) : (bytes ++ b :: rest).findIdx? (· == b) = some bytes.length := by
  have hnone : bytes.findIdx? (· == b) = none :=
    List.findIdx?_eq_none_iff.mpr fun c hc => beq_eq_false_iff_ne.mpr fun heq => h (heq ▸ hc)
  rw [List.findIdx?_append, hnone, List.findIdx?_cons, if_pos (beq_self_eq_true b)]
  exact congrArg some (Nat.zero_add _)

/-- **One line is read from a file of lines.** -/
theorem readOneLineStd_append (text : Str) (h : 10 ∉ text.bytes) (rest : List UInt8) :
    readOneLineStd (text.bytes ++ 10 :: rest) Str.empty
      = .ok (text.bytes.length + 1, rest, text.append Str.newline) := by
  have hsplit : text.bytes ++ 10 :: rest = (text.append Str.newline).bytes ++ rest :=
    (List.append_assoc text.bytes [10] rest).symm
  have hlen : (text.append Str.newline).bytes.length = text.bytes.length + 1 :=
    List.length_append
  have htake : (text.bytes ++ 10 :: rest).take (text.bytes.length + 1)
      = (text.append Str.newline).bytes := by
    rw [hsplit, ← hlen, List.take_left]
  rw [readOneLineStd, readLineTo, findIdx?_append_cons h]
  dsimp only
  rw [htake, Str.fromUtf8_bytes, hsplit, ← hlen, List.drop_left]
  rfl

/-- A line that is not text is not read. -/
theorem readOneLineStd_of_fromUtf8 {line : List UInt8} (h : 10 ∉ line)
    (hutf8 : Str.fromUtf8 (line ++ [10]) = none) (rest : List UInt8) :
    readOneLineStd (line ++ 10 :: rest) Str.empty = Exec.fail (.io .invalidData) := by
  have htake : (line ++ 10 :: rest).take (line.length + 1) = line ++ [10] := by
    rw [List.append_cons, List.take_left' (by rw [List.length_append, List.length_singleton])]
  rw [readOneLineStd, readLineTo, findIdx?_append_cons h]
  dsimp only
  rw [htake, hutf8]

/-- The end of the file. -/
theorem readOneLineStd_nil : readOneLineStd [] Str.empty = .ok (0, [], Str.empty) := rfl

theorem mapsFile_cons (m : MapsEntry) (entries : List MapsEntry) :
    mapsFile (m :: entries) = m.text.bytes ++ 10 :: mapsFile entries := by
  rw [mapsFile, List.flatMap_cons, List.append_assoc]
  rfl

/-- Every line takes a byte. -/
theorem length_le_length_mapsFile (entries : List MapsEntry) :
    entries.length ≤ (mapsFile entries).length := by
  induction entries with
  | nil => exact Nat.zero_le _
  | cons m entries ih =>
    rw [mapsFile_cons, List.length_append, List.length_cons, List.length_cons]
    omega

namespace MapsEntry

variable (m : MapsEntry)

theorem text_append_newline : m.text.bytes ++ [10]
    = m.startDigits ++ 45 :: (m.stopDigits ++ 32 :: (m.rest ++ [10])) := by
  rw [m.text_eq]
  simp only [List.append_assoc, List.cons_append]

/-- A line that is stripped of its end still begins with its address and the dash. -/
theorem exists_line_eq : ∃ tail, m.line = m.startDigits ++ 45 :: tail := by
  have hnewline : stripNewline (m.text.bytes ++ [10])
      = if m.text.bytes.getLast? = some 13 then m.text.bytes.dropLast else m.text.bytes := by
    rw [stripNewline, List.getLast?_concat, if_pos rfl, List.dropLast_concat]
  rw [line, hnewline]
  split
  · refine ⟨(m.stopDigits ++ 32 :: m.rest).dropLast, ?_⟩
    rw [m.text_eq, List.dropLast_append_of_ne_nil (List.cons_ne_nil _ _),
      List.dropLast_cons_of_ne_nil (List.append_ne_nil_of_right_ne_nil _ (List.cons_ne_nil _ _))]
  · exact ⟨_, m.text_eq⟩

/-- Where the dash is, the number before it is the address. -/
theorem parse_line : m.line.findIdx? (· == 45) = some m.startDigits.length
    ∧ m.line.take m.startDigits.length = m.startDigits := by
  obtain ⟨tail, htail⟩ := m.exists_line_eq
  rw [htail]
  exact ⟨findIdx?_append_cons (not_mem_of_digits rfl m.start_digits) tail, List.take_left⟩

/-- **The range of a line.** -/
theorem mapsRange_text : mapsRange (m.text.append Str.newline).bytes
    = if m.mayBeMemory then some (m.start, m.stop) else none := by
  have hline : (m.text.append Str.newline).bytes
      = m.startDigits ++ 45 :: (m.stopDigits ++ 32 :: (m.rest ++ [10])) :=
    m.text_append_newline
  have hdash : 45 :: (m.stopDigits ++ 32 :: (m.rest ++ [10]))
      = (45 :: m.stopDigits) ++ 32 :: (m.rest ++ [10]) := rfl
  have hspace : 32 ∉ 45 :: m.stopDigits := by
    rw [List.mem_cons, not_or]
    exact ⟨by decide, not_mem_of_digits rfl m.stop_digits⟩
  rw [mapsRange, hline, findIdx?_append_cons (not_mem_of_digits rfl m.start_digits)]
  simp only [Option.bind_eq_bind, Option.bind_some, List.take_left, List.drop_left,
    m.parse_start, hdash, findIdx?_append_cons hspace]
  rw [List.drop_succ_cons, List.drop_zero, m.parse_stop]
  rw [mayBeMemory]
  cases containsBytes (textBytes "/usr/") (32 :: (m.rest ++ [10])) with
  | true => rfl
  | false => rfl

end MapsEntry

/-! ## What is found -/

/-- **The first executable line with the name in it**, whatever file the line is of. -/
theorem findLib_mapsFile (path name : String) (entries : List MapsEntry) :
    findLib path (.ok (mapsFile entries)) name
      = match entries.find? (fun m => m.isLib name) with
        | some m => .ok m.start
        | none => Exec.fail (VmError.new ("failed to find address of \"" ++ name ++ "\"")) := by
  suffices hloop : ∀ fuel, entries.length < fuel →
      findLibLoop path name fuel (mapsFile entries)
        = match entries.find? (fun m => m.isLib name) with
          | some m => .ok m.start
          | none => Exec.fail (VmError.new ("failed to find address of \"" ++ name ++ "\"")) from
    hloop _ (Nat.lt_succ_of_le (length_le_length_mapsFile entries))
  induction entries with
  | nil =>
    intro fuel hfuel
    obtain ⟨fuel, rfl⟩ := Nat.exists_eq_add_one.mpr hfuel
    exact congrArg (· >>= _) readOneLineStd_nil
  | cons m entries ih =>
    intro fuel hfuel
    obtain ⟨fuel, rfl⟩ := Nat.exists_eq_add_one.mpr (Nat.zero_lt_of_lt hfuel)
    obtain ⟨hdash, hdigits⟩ := m.parse_line
    have hline : stripNewline (m.text.append Str.newline).bytes = m.line := rfl
    rw [mapsFile_cons, findLibLoop, readOneLineStd_append _ m.no_newline, Exec.ok_bind]
    dsimp only
    rw [if_neg (Nat.succ_ne_zero _), hline, ← MapsEntry.isLib, List.find?_cons]
    cases m.isLib name with
    | true =>
      rw [if_pos rfl, hdash]
      dsimp only
      rw [hdigits, m.parse_start]
      rfl
    | false =>
      rw [if_neg Bool.false_ne_true]
      exact ih fuel (Nat.lt_of_succ_lt_succ hfuel)

/-- What the loop has found when it has also seen this line. -/
def better (found : U64 × U64) : Option MapsEntry → U64 × U64
  | some m => if found.2.toNat < m.size then (m.start, m.stop - m.start) else found
  | none => found

theorem better_of_lt {found : U64 × U64} {m : MapsEntry} (h : found.2.toNat < m.size) :
    better found (some m) = (m.start, m.stop - m.start) := if_pos h

theorem better_of_le {found : U64 × U64} {m : MapsEntry} (h : m.size ≤ found.2.toNat) :
    better found (some m) = found := if_neg h.not_gt

/-- **The lines can be seen one after the other**: a later mapping only counts when it is
larger. -/
theorem better_argmax_cons (found : U64 × U64) (m : MapsEntry) (entries : List MapsEntry) :
    better found ((m :: entries).argmax MapsEntry.size)
      = better (better found (some m)) (entries.argmax MapsEntry.size) := by
  rw [List.argmax_cons]
  cases entries.argmax MapsEntry.size with
  | none => rfl
  | some c =>
    dsimp only
    have hsize : (m.start, m.stop - m.start).2.toNat = m.size := toNat_sub_of_le m.lt.le
    by_cases hm : found.2.toNat < m.size
    · rw [better_of_lt hm]
      by_cases hc : m.size < c.size
      · rw [if_pos hc, better_of_lt (hm.trans hc), better_of_lt (hsize.trans_lt hc)]
      · rw [if_neg hc, better_of_lt hm, better_of_le ((not_lt.mp hc).trans_eq hsize.symm)]
    · have hle := not_lt.mp hm
      rw [better_of_le hle]
      by_cases hc : m.size < c.size
      · rw [if_pos hc]
      · rw [if_neg hc, better_of_le hle, better_of_le ((not_lt.mp hc).trans hle)]

/-- What the loop has found behind these lines, from what it has found so far. -/
theorem findMemoryLoop_append (entries : List MapsEntry) (fuel : ℕ) (tail : List UInt8)
    (found : U64 × U64) :
    findMemoryLoop (entries.length + fuel) (mapsFile entries ++ tail) found.1 found.2
      = findMemoryLoop fuel tail
        (better found ((entries.filter MapsEntry.mayBeMemory).argmax MapsEntry.size)).1
        (better found ((entries.filter MapsEntry.mayBeMemory).argmax MapsEntry.size)).2 := by
  induction entries generalizing found with
  | nil =>
    rw [List.length_nil, Nat.zero_add]
    rfl
  | cons m entries ih =>
    rw [mapsFile_cons, List.append_assoc, List.cons_append, List.length_cons,
      Nat.add_right_comm, findMemoryLoop, readOneLineStd_append _ m.no_newline, Exec.ok_bind]
    dsimp only
    rw [if_neg (Nat.succ_ne_zero _), m.mapsRange_text, List.filter_cons]
    cases m.mayBeMemory with
    | false => exact ih found
    | true =>
      have hsize : (m.stop - m.start).toNat = m.size := toNat_sub_of_le m.lt.le
      rw [if_pos rfl, if_pos rfl, better_argmax_cons]
      dsimp only
      rw [checkedSub_eq_ok m.lt.le, Exec.ok_bind, ← ih]
      by_cases hm : found.2.toNat < m.size
      · rw [if_pos (BitVec.lt_def.mpr (hsize.symm ▸ hm)), better_of_lt hm]
      · rw [if_neg fun hlt => hm (hsize ▸ BitVec.lt_def.mp hlt), better_of_le (by omega)]

theorem findMemoryLoop_nil (fuel : ℕ) (mapGuess mapSize : U64) :
    findMemoryLoop (fuel + 1) [] mapGuess mapSize = .ok (mapGuess, mapSize) :=
  congrArg (· >>= _) readOneLineStd_nil

/-- The loop has fuel for these lines and for what is behind them. -/
theorem exists_findMemoryLoop_eq (entries : List MapsEntry) (tail : List UInt8) :
    ∃ fuel, findMemoryLoop ((mapsFile entries ++ tail).length + 1) (mapsFile entries ++ tail) 0 0
      = findMemoryLoop (fuel + 1) tail
        (better (0, 0) ((entries.filter MapsEntry.mayBeMemory).argmax MapsEntry.size)).1
        (better (0, 0) ((entries.filter MapsEntry.mayBeMemory).argmax MapsEntry.size)).2 := by
  have hlen := length_le_length_mapsFile entries
  refine ⟨(mapsFile entries ++ tail).length - entries.length, ?_⟩
  rw [← findMemoryLoop_append entries _ tail (0, 0)]
  congr 1
  rw [List.length_append]
  omega

/-- **The largest mapping that is not of a library**, the first one of that size. None is found
at the address zero, which is also what stands for no mapping, and none in a file with a line
that is not text. -/
theorem findMemory_mapsFile (entries : List MapsEntry) :
    findMemory (.ok (mapsFile entries))
        = (match (entries.filter MapsEntry.mayBeMemory).argmax MapsEntry.size with
          | some m =>
            if m.start = 0 then Exec.fail (VmError.new "failed to find VM memory")
            else .ok (m.start, m.stop)
          | none => Exec.fail (VmError.new "failed to find VM memory"))
      ∧ ∀ line rest, 10 ∉ line → Str.fromUtf8 (line ++ [10]) = none →
        findMemory (.ok (mapsFile entries ++ line ++ 10 :: rest))
          = Exec.fail (.io .invalidData) := by
  constructor
  · obtain ⟨fuel, hloop⟩ := exists_findMemoryLoop_eq entries []
    rw [List.append_nil] at hloop
    rw [findMemory]
    dsimp only
    rw [hloop, findMemoryLoop_nil, Exec.ok_bind]
    cases (entries.filter MapsEntry.mayBeMemory).argmax MapsEntry.size with
    | none => rfl
    | some m =>
      have hfound : better (0, 0) (some m) = (m.start, m.stop - m.start) := if_pos m.size_pos
      have hsize : (m.stop - m.start).toNat = m.size := toNat_sub_of_le m.lt.le
      have hsum : m.start.toNat + (m.stop - m.start).toNat = m.stop.toNat := by
        rw [hsize, MapsEntry.size]
        exact Nat.add_sub_cancel' m.lt.le
      simp only [hfound]
      split
      · rfl
      · rw [checkedAdd_eq_ok (by rw [hsum]; exact m.stop.isLt), Exec.ok_bind,
          show m.start + (m.stop - m.start) = m.stop from BitVec.eq_of_toNat_eq (by
            rw [toNat_add_of_lt (by rw [hsum]; exact m.stop.isLt), hsum])]
        rfl
  · intro line rest hline hutf8
    obtain ⟨fuel, hloop⟩ := exists_findMemoryLoop_eq entries (line ++ 10 :: rest)
    rw [findMemory]
    dsimp only
    rw [List.append_assoc, hloop, findMemoryLoop, readOneLineStd_of_fromUtf8 hline hutf8]
    rfl

/-- The line of a mapping between two numbers. -/
def MapsEntry.ofDigits (start stop : U64) (startDigits stopDigits rest : String)
    (hdigits : ∀ b ∈ textBytes startDigits ++ textBytes stopDigits, (hexDigit b).isSome)
    (hstart : fromStrRadix16 (textBytes startDigits) = some start)
    (hstop : fromStrRadix16 (textBytes stopDigits) = some stop)
    (hlt : start.toNat < stop.toNat)
    (hnewline : 10 ∉ textBytes (startDigits ++ "-" ++ stopDigits ++ " " ++ rest)) :
    MapsEntry where
  start := start
  stop := stop
  startDigits := textBytes startDigits
  stopDigits := textBytes stopDigits
  rest := textBytes rest
  text := Str.ofChars (startDigits ++ "-" ++ stopDigits ++ " " ++ rest).toList
  text_eq := by
    simp only [textBytes, Str.ofChars, String.toList_append, List.flatMap_append,
      List.append_assoc]
    rfl
  start_digits b hb := hdigits b (List.mem_append_left _ hb)
  stop_digits b hb := hdigits b (List.mem_append_right _ hb)
  parse_start := hstart
  parse_stop := hstop
  lt := hlt
  no_newline := hnewline

/-- A library, the memory of a guest, and a stack. -/
def guestMappings : List MapsEntry :=
  [.ofDigits 0x7f0000000000 0x7f0000400000 "7f0000000000" "7f0000400000"
      "r-xp 00000000 08:01 42 /usr/lib/libc.so" (by decide +kernel) (by decide +kernel)
      (by decide +kernel) (by decide) (by decide +kernel),
    .ofDigits 0x7f1000000000 0x7f1000200000 "7f1000000000" "7f1000200000"
      "rw-p 00000000 00:00 0" (by decide +kernel) (by decide +kernel)
      (by decide +kernel) (by decide) (by decide +kernel),
    .ofDigits 0x7ffc00000000 0x7ffc00021000 "7ffc00000000" "7ffc00021000"
      "rw-p 00000000 00:00 0 [stack]" (by decide +kernel) (by decide +kernel)
      (by decide +kernel) (by decide) (by decide +kernel)]

/-- The memory is found, though the library is larger, unless a line behind is not text. -/
theorem findMemory_guestMappings :
    findMemory (.ok (mapsFile guestMappings)) = .ok (0x7f1000000000, 0x7f1000200000)
      ∧ findMemory (.ok (mapsFile guestMappings ++ [0xff] ++ [10]))
        = Exec.fail (.io .invalidData) := by
  obtain ⟨hfound, hfails⟩ := findMemory_mapsFile guestMappings
  have hlargest : ((guestMappings.filter MapsEntry.mayBeMemory).argmax MapsEntry.size).map
      (fun m => (m.start, m.stop)) = some (0x7f1000000000, 0x7f1000200000) := by
    decide +kernel
  obtain ⟨m, hm, hrange⟩ := Option.map_eq_some_iff.mp hlargest
  obtain ⟨hstart, hstop⟩ := Prod.mk.inj hrange
  rw [hm] at hfound
  dsimp only at hfound
  rw [hstart, hstop, if_neg (by decide)] at hfound
  exact ⟨hfound, hfails [0xff] [] (by decide) (by decide +kernel)⟩

/-! ## Every file is read to its end -/

/-- A line that is read takes bytes away. -/
theorem length_readOneLineStd_lt {bytes rest : List UInt8} {n : ℕ} {line : Str} (hn : n ≠ 0)
    (h : readOneLineStd bytes Str.empty = .ok (n, rest, line)) : rest.length < bytes.length := by
  rw [readOneLineStd, readLineTo] at h
  split at h
  · obtain ⟨rfl, h'⟩ := Prod.mk.inj (Except.ok.inj h)
    obtain ⟨rfl, -⟩ := Prod.mk.inj h'
    rw [List.length_drop]
    have hpos : 0 < bytes.length := by
      by_contra hzero
      rw [List.length_eq_zero_iff.mp (Nat.eq_zero_of_not_pos hzero)] at hn
      exact hn rfl
    exact Nat.sub_lt hpos (Nat.pos_of_ne_zero hn)
  · exact absurd h fun heq => by cases heq

theorem readOneLineStd_ne_outOfFuel (bytes : List UInt8) :
    readOneLineStd bytes Str.empty ≠ Exec.outOfFuel := by
  rw [readOneLineStd, readLineTo]
  split
  · exact Exec.ok_ne_outOfFuel _
  · exact Exec.fail_ne_outOfFuel _

theorem findLib_ne_outOfFuel (path : String) (file : Except IoError (List UInt8))
    (name : String) : findLib path file name ≠ Exec.outOfFuel := by
  cases file with
  | error e => exact Exec.fail_ne_outOfFuel _
  | ok bytes =>
    suffices hloop : ∀ fuel bytes, bytes.length < fuel →
        findLibLoop path name fuel bytes ≠ Exec.outOfFuel from hloop _ _ (Nat.lt_succ_self _)
    intro fuel
    induction fuel with
    | zero => exact fun _ h => absurd h (Nat.not_lt_zero _)
    | succ fuel ih =>
      intro bytes hlt
      rw [findLibLoop]
      refine Exec.bind_ne_outOfFuel (readOneLineStd_ne_outOfFuel bytes) fun a ha => ?_
      obtain ⟨n, rest, line⟩ := a
      dsimp only
      by_cases hn : n = 0
      · rw [if_pos hn]
        exact Exec.fail_ne_outOfFuel _
      · rw [if_neg hn]
        split
        · cases (stripNewline line.bytes).findIdx? (· == 45) with
          | none => exact Exec.panicked_ne_outOfFuel
          | some i =>
            dsimp only
            cases fromStrRadix16 ((stripNewline line.bytes).take i) with
            | none => exact Exec.fail_ne_outOfFuel _
            | some addr => exact Exec.ok_ne_outOfFuel _
        · have hrest := length_readOneLineStd_lt hn ha
          exact ih rest (by omega)
