import Mathlib

/-!
# Records sent through a stream

Two parties share a stream: a writer that obtains records one after the other
and writes each as a few chunks, and a reader that knows how many records to
expect and fills buffers of fixed sizes, from which it makes a value for every
record. Neither a write nor a read has to be of a whole chunk or buffer: each
moves as many elements as it happens to move, and the parties take their steps
in any order. Each of them may fail wherever it calls on something outside, and
closes its end of the stream when it returns.

`Conforms` is what holds in every state of every run: the values the reader has
made are those of the records written first, and of the other records all is
either in the buffers of the reader, in the stream, or still to be written. A
reader that returns its values therefore returns those of all records, in
order, whatever the order of the steps (`Conforms.received_eq_ok`). A writer
that has not returned can take a step that is not a failure, and so can a reader
once the writer has returned (`exists_writer_step`,
`Conforms.exists_reader_step`); no run goes on forever (`wellFounded_steps`); and
where nothing fails the parties return no error (`Untroubled.step`).
-/

namespace Transfer

/-! ## The two parties -/

/-- **How a record travels**: the chunks its writer writes, the sizes of the
buffers its reader fills, and the value made of the full buffers. -/
structure Format (ρ α ν : Type) where
  chunks : ρ → List (List α)
  sizes : List ℕ
  value : List (List α) → ν

namespace Format

variable {ρ α ν : Type}

/-- All that is written of a record. -/
def elements (F : Format ρ α ν) (r : ρ) : List α := (F.chunks r).flatten

/-- **A format that carries values**: what is written of a record fills the
buffers, and the value made of them is that of the record. -/
structure Carries (F : Format ρ α ν) (decode : ρ → ν) : Prop where
  sum_pos : 0 < F.sizes.sum
  length_elements : ∀ r, (F.elements r).length = F.sizes.sum
  value_eq : ∀ r, F.value (F.sizes.splitLengths (F.elements r)) = decode r

end Format

/-- The writer, the stream and the reader. A party has returned when it has a
result, and its end of the stream is closed then. -/
structure State (ι α ν ε : Type) where
  connected : Bool
  /-- The records not yet obtained. -/
  todo : List ι
  /-- The chunks of the current record that are not yet written. -/
  pending : List (List α)
  sent : Option (Except ε Unit)
  inFlight : List α
  accepted : Bool
  /-- How many values the reader still has to make. -/
  left : ℕ
  /-- The full buffers of the current record. -/
  filled : List (List α)
  /-- The sizes of the others, the one being filled first. -/
  toFill : List ℕ
  buffer : List α
  values : List ν
  received : Option (Except ε (List ν))

/-- What a step does. -/
inductive Event (ι α ε : Type) where
  | connect
  | connectFails (e : ε)
  | connectionRefused
  | obtain (i : ι)
  | obtainFails (e : ε)
  | write (bytes : List α)
  | chunkWritten
  | brokenPipe
  | writeFails (e : ε)
  | writerReturns
  | accept
  | acceptFails (e : ε)
  | read (bytes : List α)
  | bufferFilled
  | endOfStream
  | readFails (e : ε)
  | recordRead
  | readerReturns

/-- The failures that nothing in the state of the parties calls for. -/
def Event.IsFailure {ι α ε : Type} : Event ι α ε → Prop
  | connectFails _ | writeFails _ | acceptFails _ | readFails _ => True
  | _ => False

section Steps

variable {ι ρ α ν ε : Type}

/-- The errors of a closed stream. -/
structure Closed (ε : Type) where
  connectionRefused : ε
  brokenPipe : ε
  unexpectedEof : ε

variable (F : Format ρ α ν) (source : ι → Except ε ρ) (closed : Closed ε)

/-- **The steps of the two parties.** A write moves part of the current chunk
into the stream as long as the reader has its end open, a read moves part of
what is in the stream into the current buffer. -/
inductive Step : Event ι α ε → State ι α ν ε → State ι α ν ε → Prop
  | connect {s} (open_ : s.sent = none) (first : s.connected = false)
      (listening : s.received = none) :
      Step .connect s { s with connected := true }
  | connectionRefused {s} {result : Except ε (List ν)} (open_ : s.sent = none)
      (first : s.connected = false) (closed_ : s.received = some result) :
      Step .connectionRefused s { s with sent := some (.error closed.connectionRefused) }
  | connectFails {s} {e : ε} (open_ : s.sent = none) (first : s.connected = false) :
      Step (.connectFails e) s { s with sent := some (.error e) }
  | obtain {s} {i : ι} {rest : List ι} {r : ρ} (open_ : s.sent = none)
      (connected : s.connected = true) (written : s.pending = []) (next : s.todo = i :: rest)
      (record : source i = .ok r) :
      Step (.obtain i) s { s with todo := rest, pending := F.chunks r }
  | obtainFails {s} {i : ι} {rest : List ι} {e : ε} (open_ : s.sent = none)
      (connected : s.connected = true) (written : s.pending = []) (next : s.todo = i :: rest)
      (error : source i = .error e) :
      Step (.obtainFails e) s { s with sent := some (.error e) }
  | write {s} {bytes chunk : List α} {chunks : List (List α)} (open_ : s.sent = none)
      (readable : s.received = none) (next : s.pending = (bytes ++ chunk) :: chunks)
      (some_ : bytes ≠ []) :
      Step (.write bytes) s
        { s with pending := chunk :: chunks, inFlight := s.inFlight ++ bytes }
  | chunkWritten {s} {chunks : List (List α)} (open_ : s.sent = none)
      (next : s.pending = [] :: chunks) :
      Step .chunkWritten s { s with pending := chunks }
  | brokenPipe {s} {chunk : List α} {chunks : List (List α)} {result : Except ε (List ν)}
      (open_ : s.sent = none) (next : s.pending = chunk :: chunks) (some_ : chunk ≠ [])
      (closed_ : s.received = some result) :
      Step .brokenPipe s { s with sent := some (.error closed.brokenPipe) }
  | writeFails {s} {chunk : List α} {chunks : List (List α)} {e : ε} (open_ : s.sent = none)
      (next : s.pending = chunk :: chunks) :
      Step (.writeFails e) s { s with sent := some (.error e) }
  | writerReturns {s} (open_ : s.sent = none) (connected : s.connected = true)
      (written : s.pending = []) (last : s.todo = []) :
      Step .writerReturns s { s with sent := some (.ok ()) }
  | accept {s} (open_ : s.received = none) (connected : s.connected = true)
      (first : s.accepted = false) :
      Step .accept s { s with accepted := true }
  | acceptFails {s} {e : ε} (open_ : s.received = none) (first : s.accepted = false) :
      Step (.acceptFails e) s { s with received := some (.error e) }
  | read {s} {bytes rest : List α} {n : ℕ} {sizes : List ℕ} (open_ : s.received = none)
      (accepted : s.accepted = true) (more : 0 < s.left) (next : s.toFill = n :: sizes)
      (fits : s.buffer.length + bytes.length ≤ n) (some_ : bytes ≠ [])
      (available : s.inFlight = bytes ++ rest) :
      Step (.read bytes) s { s with inFlight := rest, buffer := s.buffer ++ bytes }
  | bufferFilled {s} {n : ℕ} {sizes : List ℕ} (open_ : s.received = none)
      (accepted : s.accepted = true) (more : 0 < s.left) (next : s.toFill = n :: sizes)
      (full : s.buffer.length = n) :
      Step .bufferFilled s
        { s with filled := s.filled ++ [s.buffer], toFill := sizes, buffer := [] }
  | endOfStream {s} {n : ℕ} {sizes : List ℕ} {result : Except ε Unit}
      (open_ : s.received = none) (accepted : s.accepted = true) (more : 0 < s.left)
      (next : s.toFill = n :: sizes) (short : s.buffer.length < n) (empty : s.inFlight = [])
      (closed_ : s.sent = some result) :
      Step .endOfStream s { s with received := some (.error closed.unexpectedEof) }
  | readFails {s} {n : ℕ} {sizes : List ℕ} {e : ε} (open_ : s.received = none)
      (accepted : s.accepted = true) (more : 0 < s.left) (next : s.toFill = n :: sizes)
      (short : s.buffer.length < n) :
      Step (.readFails e) s { s with received := some (.error e) }
  | recordRead {s} {left : ℕ} (open_ : s.received = none) (accepted : s.accepted = true)
      (more : s.left = left + 1) (full : s.toFill = []) :
      Step .recordRead s
        { s with
          left := left
          values := s.values ++ [F.value s.filled]
          filled := []
          toFill := F.sizes }
  | readerReturns {s} (open_ : s.received = none) (accepted : s.accepted = true)
      (last : s.left = 0) :
      Step .readerReturns s { s with received := some (.ok s.values) }

/-- Before the parties meet. -/
def initial (ids : List ι) : State ι α ν ε where
  connected := false
  todo := ids
  pending := []
  sent := none
  inFlight := []
  accepted := false
  left := ids.length
  filled := []
  toFill := F.sizes
  buffer := []
  values := []
  received := none

/-- The events of the writer. -/
def Event.ByWriter : Event ι α ε → Prop
  | connect | connectFails _ | connectionRefused | obtain _ | obtainFails _ | write _
  | chunkWritten | brokenPipe | writeFails _ | writerReturns => True
  | _ => False

/-- Some step, whatever it does. -/
abbrev StepAny (s s' : State ι α ν ε) : Prop := ∃ e, Step F source closed e s s'

/-- A connection stays, and so does what a party has returned. -/
theorem Step.connected {F : Format ρ α ν} {source : ι → Except ε ρ} {closed : Closed ε}
    {e : Event ι α ε} {s s' : State ι α ν ε} (step : Step F source closed e s s')
    (h : s.connected = true) : s'.connected = true := by
  cases step <;> first | exact h | rfl

theorem Step.sent {F : Format ρ α ν} {source : ι → Except ε ρ} {closed : Closed ε}
    {e : Event ι α ε} {s s' : State ι α ν ε} (step : Step F source closed e s s')
    {result : Except ε Unit} (h : s.sent = some result) : s'.sent = some result := by
  cases step <;> simp_all

theorem Step.received {F : Format ρ α ν} {source : ι → Except ε ρ} {closed : Closed ε}
    {e : Event ι α ε} {s s' : State ι α ν ε} (step : Step F source closed e s s')
    {result : Except ε (List ν)} (h : s.received = some result) : s'.received = some result := by
  cases step <;> simp_all

/-- A writer that has returned takes no more steps. -/
theorem Step.writer_open {F : Format ρ α ν} {source : ι → Except ε ρ} {closed : Closed ε}
    {e : Event ι α ε} {s s' : State ι α ν ε} (step : Step F source closed e s s')
    (h : e.ByWriter) : s.sent = none := by
  cases step <;> first | assumption | exact h.elim

/-- Nothing is to be written before the connection is made. -/
theorem Step.pending {F : Format ρ α ν} {source : ι → Except ε ρ} {closed : Closed ε}
    {e : Event ι α ε} {s s' : State ι α ν ε} (step : Step F source closed e s s')
    (h : s.connected = false → s.pending = []) (h' : s'.connected = false) : s'.pending = [] := by
  cases step <;> simp_all

/-- A writer returns without a connection only where it did not get one. -/
theorem Step.sent_cases {F : Format ρ α ν} {source : ι → Except ε ρ} {closed : Closed ε}
    {e : Event ι α ε} {s s' : State ι α ν ε} (step : Step F source closed e s s')
    (h : s.connected = false → s.pending = []) {result : Except ε Unit}
    (hsent : s'.sent = some result) :
    s.sent = some result ∨ s'.connected = true
      ∨ result = .error closed.connectionRefused
      ∨ ∃ err, e = .connectFails err ∧ result = .error err := by
  cases step <;> simp_all

end Steps

/-! ## What every run keeps -/

section Invariant

variable {ι ρ α ν ε : Type} {F : Format ρ α ν} {source : ι → Except ε ρ} {closed : Closed ε}
  {decode : ρ → ν} {ids : List ι} {s s' : State ι α ν ε}

/-- **The two parties agree** about the records obtained so far, of which the
reader has made the values of those in `front` and not yet of those in `back`. -/
structure Agrees (F : Format ρ α ν) (source : ι → Except ε ρ) (decode : ρ → ν) (ids : List ι)
    (front back : List ρ) (s : State ι α ν ε) : Prop where
  obtained : ∃ done, ids = done ++ s.todo
    ∧ List.Forall₂ (fun i r => source i = .ok r) done (front ++ back)
  values_eq : s.values = front.map decode
  left_eq : s.values.length + s.left = ids.length
  elements_eq : back.flatMap F.elements
    = s.filled.flatten ++ s.buffer ++ s.inFlight ++ s.pending.flatten
  sizes_eq : s.filled.map List.length ++ s.toFill = F.sizes
  buffer_le : s.buffer.length ≤ s.toFill.headD 0
  sent_ok : s.sent = some (.ok ()) → s.connected = true ∧ s.todo = [] ∧ s.pending = []
  received_ok : ∀ vs, s.received = some (.ok vs) → s.left = 0 ∧ vs = s.values

/-- **The invariant of the runs.** -/
def Conforms (F : Format ρ α ν) (source : ι → Except ε ρ) (decode : ρ → ν) (ids : List ι)
    (s : State ι α ν ε) : Prop := ∃ front back, Agrees F source decode ids front back s

/-- Lists put one after the other are found again by their lengths. -/
theorem splitLengths_flatten {α : Type} (ls : List (List α)) :
    (ls.map List.length).splitLengths ls.flatten = ls := by
  induction ls with
  | nil => rfl
  | cons l ls ih =>
    rw [List.map_cons, List.flatten_cons, List.splitLengths_cons, List.take_left' rfl,
      List.drop_left' rfl, ih]

theorem conforms_initial : Conforms F source decode ids (initial F ids : State ι α ν ε) :=
  ⟨[], [], {
    obtained := ⟨[], rfl, .nil⟩
    values_eq := rfl
    left_eq := Nat.zero_add _
    elements_eq := rfl
    sizes_eq := rfl
    buffer_le := Nat.zero_le _
    sent_ok := fun h => nomatch h
    received_ok := fun _ h => nomatch h }⟩

namespace Agrees

variable {front back : List ρ}

/-- The elements of a record that has just been obtained are all still to be
written. -/
theorem obtain (h : Agrees F source decode ids front back s)
    {i : ι} {rest : List ι} {r : ρ} (hsent : s.sent = none) (hpending : s.pending = [])
    (htodo : s.todo = i :: rest) (hr : source i = .ok r) :
    Agrees F source decode ids front (back ++ [r])
      { s with todo := rest, pending := F.chunks r } := by
  obtain ⟨done, hids, hdone⟩ := h.obtained
  refine { h with
    obtained := ⟨done ++ [i], ?_, ?_⟩
    elements_eq := ?_
    sent_ok := fun hok => absurd (hsent.symm.trans hok) (fun h => nomatch h) }
  · rw [hids, htodo, List.append_assoc]
    rfl
  · rw [← List.append_assoc]
    exact List.rel_append hdone (.cons hr .nil)
  · have helements := h.elements_eq
    rw [hpending, List.flatten_nil, List.append_nil] at helements
    rw [List.flatMap_append, helements, List.flatMap_singleton]
    rfl

/-- A full record is made a value: its buffers are those of the first record
whose value is still to be made. -/
theorem recordRead (hF : F.Carries decode) (h : Agrees F source decode ids front back s)
    {left : ℕ} (hleft : s.left = left + 1) (htoFill : s.toFill = [])
    (hreceived : s.received = none) :
    ∃ r rest, back = r :: rest ∧ Agrees F source decode ids (front ++ [r]) rest
      { s with
        left := left
        values := s.values ++ [F.value s.filled]
        filled := []
        toFill := F.sizes } := by
  have hsizes := h.sizes_eq
  rw [htoFill, List.append_nil] at hsizes
  have hbuffer : s.buffer = [] := by
    have hle := h.buffer_le
    rw [htoFill] at hle
    exact List.eq_nil_of_length_eq_zero (Nat.le_zero.mp hle)
  have hlength : s.filled.flatten.length = F.sizes.sum := by
    rw [List.length_flatten, hsizes]
  have helements := h.elements_eq
  cases back with
  | nil =>
    -- the buffers are not empty, so there is something they have been filled from
    have hpos := hF.sum_pos
    rw [List.flatMap_nil, List.append_assoc, List.append_assoc] at helements
    rw [← hlength, (List.append_eq_nil_iff.mp helements.symm).1] at hpos
    exact absurd hpos (Nat.lt_irrefl 0)
  | cons r rest =>
    rw [List.flatMap_cons, hbuffer, List.append_nil, List.append_assoc] at helements
    obtain ⟨hrecord, hrest⟩ := List.append_inj helements
      ((hF.length_elements r).trans hlength.symm)
    refine ⟨r, rest, rfl, { h with
      obtained := ?_
      values_eq := ?_
      left_eq := ?_
      elements_eq := ?_
      sizes_eq := rfl
      buffer_le := ?_
      received_ok := fun _ hok => absurd (hreceived.symm.trans hok) (fun h => nomatch h) }⟩
    · rw [List.append_assoc]
      exact h.obtained
    · have hvalue : F.value s.filled = decode r := by
        rw [← hF.value_eq r, hrecord, ← hsizes]
        exact congrArg F.value (splitLengths_flatten s.filled).symm
      rw [h.values_eq, hvalue, List.map_append]
      rfl
    · show (s.values ++ [F.value s.filled]).length + left = ids.length
      rw [List.length_append, List.length_singleton, ← h.left_eq, hleft]
      omega
    · rw [hbuffer]
      exact hrest
    · rw [hbuffer]
      exact Nat.zero_le _

/-- A party that returns an error changes nothing the agreement speaks of. -/
theorem sent_error (h : Agrees F source decode ids front back s) (e : ε) :
    Agrees F source decode ids front back { s with sent := some (.error e) } :=
  { h with sent_ok := fun hok => nomatch hok }

theorem received_error (h : Agrees F source decode ids front back s) (e : ε) :
    Agrees F source decode ids front back { s with received := some (.error e) } :=
  { h with received_ok := fun _ hok => nomatch hok }

/-- Nothing is lost where elements move on. -/
theorem moved (h : Agrees F source decode ids front back s) {pending : List (List α)}
    {inFlight buffer : List α} (hsent : s.sent = none)
    (hle : buffer.length ≤ s.toFill.headD 0)
    (heq : buffer ++ inFlight ++ pending.flatten = s.buffer ++ s.inFlight ++ s.pending.flatten) :
    Agrees F source decode ids front back
      { s with pending := pending, inFlight := inFlight, buffer := buffer } := by
  refine { h with
    elements_eq := ?_
    buffer_le := hle
    sent_ok := fun hok => absurd (hsent.symm.trans hok) (fun h => nomatch h) }
  rw [h.elements_eq]
  simp only [List.append_assoc] at heq ⊢
  rw [heq]

end Agrees

/-- **Every step keeps the agreement.** -/
theorem Conforms.step (hF : F.Carries decode) (h : Conforms F source decode ids s)
    {e : Event ι α ε} (step : Step F source closed e s s') :
    Conforms F source decode ids s' := by
  obtain ⟨front, back, h⟩ := h
  cases step with
  | connect open_ _ _ =>
    exact ⟨front, back, { h with
      sent_ok := fun hok => absurd (open_.symm.trans hok) (fun h => nomatch h) }⟩
  | connectFails _ _ => exact ⟨front, back, h.sent_error _⟩
  | connectionRefused _ _ _ => exact ⟨front, back, h.sent_error _⟩
  | obtain open_ _ written next record =>
    exact ⟨front, _, h.obtain open_ written next record⟩
  | obtainFails _ _ _ _ _ => exact ⟨front, back, h.sent_error _⟩
  | write open_ _ next _ =>
    refine ⟨front, back, h.moved open_ h.buffer_le ?_⟩
    rw [next, List.flatten_cons, List.flatten_cons]
    simp only [List.append_assoc]
  | chunkWritten open_ next =>
    refine ⟨front, back, h.moved open_ h.buffer_le ?_⟩
    rw [next, List.flatten_cons, List.nil_append]
  | brokenPipe _ _ _ _ => exact ⟨front, back, h.sent_error _⟩
  | writeFails _ _ => exact ⟨front, back, h.sent_error _⟩
  | writerReturns _ connected written last =>
    exact ⟨front, back, { h with sent_ok := fun _ => ⟨connected, last, written⟩ }⟩
  | accept _ _ _ => exact ⟨front, back, { h with }⟩
  | acceptFails _ _ => exact ⟨front, back, h.received_error _⟩
  | read _ _ _ next fits _ available =>
    refine ⟨front, back, { h with elements_eq := ?_, buffer_le := ?_ }⟩
    · rw [h.elements_eq, available]
      simp only [List.append_assoc]
    · rw [next, List.headD_cons, List.length_append]
      exact fits
  | bufferFilled _ _ _ next full =>
    refine ⟨front, back, { h with elements_eq := ?_, sizes_eq := ?_, buffer_le := ?_ }⟩
    · rw [h.elements_eq, List.flatten_append, List.flatten_singleton, List.append_nil]
    · rw [List.map_append, List.append_assoc, ← h.sizes_eq, next, ← full]
      rfl
    · exact Nat.zero_le _
  | endOfStream _ _ _ _ _ _ _ => exact ⟨front, back, h.received_error _⟩
  | readFails _ _ _ _ _ => exact ⟨front, back, h.received_error _⟩
  | recordRead open_ _ more full =>
    obtain ⟨r, rest, -, h⟩ := h.recordRead hF more full open_
    exact ⟨_, rest, h⟩
  | readerReturns _ _ last =>
    refine ⟨front, back, { h with received_ok := fun vs hok => ⟨last, ?_⟩ }⟩
    exact (Except.ok.inj (Option.some.inj hok)).symm

/-- The values made so far are those of the first records, in their order. -/
theorem Conforms.values_eq (h : Conforms F source decode ids s) :
    List.Forall₂ (fun i v => ∃ r, source i = .ok r ∧ v = decode r)
      (ids.take s.values.length) s.values := by
  obtain ⟨front, back, h⟩ := h
  obtain ⟨done, hids, hdone⟩ := h.obtained
  have htake := List.forall₂_take front.length hdone
  have hlen : front.length ≤ done.length := by
    rw [hdone.length_eq, List.length_append]
    exact Nat.le_add_right _ _
  rw [h.values_eq, List.length_map, hids, List.take_append_of_le_length hlen,
    List.forall₂_map_right_iff]
  rw [List.take_left' rfl] at htake
  exact htake.imp fun i r hr => ⟨r, hr, rfl⟩

/-- When none is left to make, they are those of all records. -/
theorem Conforms.forall_values (h : Conforms F source decode ids s) (hleft : s.left = 0) :
    List.Forall₂ (fun i v => ∃ r, source i = .ok r ∧ v = decode r) ids s.values := by
  have hvalues := h.values_eq
  obtain ⟨front, back, h⟩ := h
  have hcount := h.left_eq
  rw [hleft, Nat.add_zero] at hcount
  rwa [hcount, List.take_length] at hvalues

/-- **A reader that returns its values has those of all records**, in their
order, each once. -/
theorem Conforms.received_eq_ok (h : Conforms F source decode ids s)
    {vs : List ν} (hvs : s.received = some (.ok vs)) :
    List.Forall₂ (fun i v => ∃ r, source i = .ok r ∧ v = decode r) ids vs := by
  obtain ⟨front, back, hagrees⟩ := h
  obtain ⟨hleft, rfl⟩ := hagrees.received_ok vs hvs
  exact Conforms.forall_values ⟨front, back, hagrees⟩ hleft

end Invariant

/-! ## Every run ends -/

/-- Steps that cannot go on forever can be taken until none is left. -/
theorem exists_stuck {σ : Type} {r : σ → σ → Prop} (hr : WellFounded fun s' s => r s s') (s : σ) :
    ∃ s', Relation.ReflTransGen r s s' ∧ ∀ s'', ¬ r s' s'' := by
  induction s using hr.induction with
  | _ s ih =>
    by_cases hs : ∃ s₁, r s s₁
    · obtain ⟨s₁, hstep⟩ := hs
      obtain ⟨s', hrun, hstuck⟩ := ih s₁ hstep
      exact ⟨s', hrun.head hstep, hstuck⟩
    · exact ⟨s, .refl, fun s'' hstep => hs ⟨s'', hstep⟩⟩

section Ending

variable {ι ρ α ν ε : Type} {F : Format ρ α ν} {source : ι → Except ε ρ} {closed : Closed ε}
  {decode : ρ → ν} {ids : List ι} {s s' : State ι α ν ε}

/-- A writer that has not returned can go on. -/
theorem exists_writer_step (F : Format ρ α ν) (source : ι → Except ε ρ) (closed : Closed ε)
    (hsent : s.sent = none) :
    ∃ e s', Step F source closed e s s' ∧ ¬ e.IsFailure := by
  cases hconnected : s.connected with
  | false =>
    cases hreceived : s.received with
    | none => exact ⟨_, _, .connect hsent hconnected hreceived, id⟩
    | some result => exact ⟨_, _, .connectionRefused hsent hconnected hreceived, id⟩
  | true =>
    cases hpending : s.pending with
    | nil =>
      cases htodo : s.todo with
      | nil => exact ⟨_, _, .writerReturns hsent hconnected hpending htodo, id⟩
      | cons i rest =>
        cases hi : source i with
        | ok r => exact ⟨_, _, .obtain hsent hconnected hpending htodo hi, id⟩
        | error e => exact ⟨_, _, .obtainFails hsent hconnected hpending htodo hi, id⟩
    | cons chunk chunks =>
      cases chunk with
      | nil => exact ⟨_, _, .chunkWritten hsent hpending, id⟩
      | cons a chunk =>
        cases hreceived : s.received with
        | none =>
          exact ⟨.write [a], _, .write hsent hreceived hpending (List.cons_ne_nil a []), id⟩
        | some result =>
          exact ⟨_, _, .brokenPipe hsent hpending (List.cons_ne_nil a chunk) hreceived, id⟩

/-- So can a reader, once the writer it is connected to has returned. -/
theorem Conforms.exists_reader_step (h : Conforms F source decode ids s) (closed : Closed ε)
    {result : Except ε Unit} (hsent : s.sent = some result) (hconnected : s.connected = true)
    (hreceived : s.received = none) : ∃ e s', Step F source closed e s s' ∧ ¬ e.IsFailure := by
  obtain ⟨front, back, h⟩ := h
  cases haccepted : s.accepted with
  | false => exact ⟨_, _, .accept hreceived hconnected haccepted, id⟩
  | true =>
    cases hleft : s.left with
    | zero => exact ⟨_, _, .readerReturns hreceived haccepted hleft, id⟩
    | succ left =>
      have hmore : 0 < s.left := by omega
      cases htoFill : s.toFill with
      | nil => exact ⟨_, _, .recordRead hreceived haccepted hleft htoFill, id⟩
      | cons n sizes =>
        have hle := h.buffer_le
        rw [htoFill, List.headD_cons] at hle
        rcases hle.eq_or_lt with hfull | hshort
        · exact ⟨_, _, .bufferFilled hreceived haccepted hmore htoFill hfull, id⟩
        · cases hinFlight : s.inFlight with
          | nil =>
            exact ⟨_, _, .endOfStream hreceived haccepted hmore htoFill hshort hinFlight hsent, id⟩
          | cons a rest =>
            exact ⟨.read [a], _, .read hreceived haccepted hmore htoFill hshort
              (List.cons_ne_nil a []) hinFlight, id⟩

/-- What decreases: the records to obtain, the elements to write, those in the
stream, the values to make, the buffers to fill, and what the parties have not
done yet. -/
def remaining (s : State ι α ν ε) : ℕ × ℕ × ℕ × ℕ × ℕ × ℕ :=
  (s.todo.length, s.pending.flatten.length + s.pending.length, s.inFlight.length, s.left,
    s.toFill.length, (!s.connected).toNat + s.sent.isNone.toNat + (!s.accepted).toNat
      + s.received.isNone.toNat)

/-- **Every step leaves less to do.** -/
theorem remaining_lt {e : Event ι α ε} (step : Step F source closed e s s') :
    Prod.Lex (· < ·) (Prod.Lex (· < ·) (Prod.Lex (· < ·) (Prod.Lex (· < ·)
      (Prod.Lex (· < ·) (· < ·))))) (remaining s') (remaining s) := by
  simp only [remaining, Prod.lex_def]
  cases step with
  | connect _ first _ => simp [first]
  | connectFails open_ _ => simp [open_]
  | connectionRefused open_ _ _ => simp [open_]
  | obtain _ _ _ next _ => simp [next]
  | obtainFails open_ _ _ _ _ => simp [open_]
  | write _ _ next some_ =>
    have hpos := List.length_pos_of_ne_nil some_
    simp [next]
    omega
  | chunkWritten _ next => simp [next]
  | brokenPipe open_ _ _ _ => simp [open_]
  | writeFails open_ _ => simp [open_]
  | writerReturns open_ _ _ _ => simp [open_]
  | accept _ _ first => simp [first]
  | acceptFails open_ _ => simp [open_]
  | read _ _ _ _ _ some_ available =>
    have hpos := List.length_pos_of_ne_nil some_
    simp [available]
    omega
  | bufferFilled _ _ _ next _ => simp [next]
  | endOfStream open_ _ _ _ _ _ _ => simp [open_]
  | readFails open_ _ _ _ _ => simp [open_]
  | recordRead _ _ more _ => simp [more]
  | readerReturns open_ _ _ => simp [open_]

/-- **No run goes on forever.** -/
theorem wellFounded_steps :
    WellFounded fun s' s : State ι α ν ε => StepAny F source closed s s' := by
  refine Subrelation.wf (fun ⟨_, step⟩ => remaining_lt step) (InvImage.wf remaining ?_)
  exact .prod_lex wellFounded_lt (.prod_lex wellFounded_lt (.prod_lex wellFounded_lt
    (.prod_lex wellFounded_lt (.prod_lex wellFounded_lt wellFounded_lt))))

/-! ## Runs in which nothing fails -/

/-- A step that is not a failure. -/
abbrev CalmStep (F : Format ρ α ν) (source : ι → Except ε ρ) (closed : Closed ε)
    (s s' : State ι α ν ε) : Prop :=
  ∃ e, Step F source closed e s s' ∧ ¬ e.IsFailure

/-- The agreement of a run without failures: no party has returned an error. -/
structure Untroubled (F : Format ρ α ν) (source : ι → Except ε ρ) (decode : ρ → ν)
    (ids : List ι) (s : State ι α ν ε) : Prop where
  conforms : Conforms F source decode ids s
  connected : s.accepted = true → s.connected = true
  sent_ok : ∀ result, s.sent = some result → result = .ok ()
  received_ok : ∀ result, s.received = some result →
    result = .ok s.values ∧ s.accepted = true ∧ s.left = 0

namespace Untroubled

/-- Once the reader has all values, nothing is left to write. -/
theorem elements_eq_nil (h : Untroubled F source decode ids s)
    (hleft : s.left = 0) : s.inFlight = [] ∧ s.pending.flatten = [] := by
  obtain ⟨front, back, hagrees⟩ := h.conforms
  obtain ⟨done, hids, hdone⟩ := hagrees.obtained
  have hcount := hagrees.left_eq
  have hlength := hdone.length_eq
  rw [hleft, hagrees.values_eq, List.length_map, hids, List.length_append] at hcount
  rw [List.length_append] at hlength
  have hback : back = [] := List.eq_nil_of_length_eq_zero (by omega)
  have helements := hagrees.elements_eq
  rw [hback, List.flatMap_nil] at helements
  obtain ⟨helements, hpending⟩ := List.append_eq_nil_iff.mp helements.symm
  exact ⟨(List.append_eq_nil_iff.mp helements).2, hpending⟩

/-- A reader that waits for elements still gets some: all of a record is
written before the writer returns. -/
theorem not_short (hF : F.Carries decode) (h : Untroubled F source decode ids s)
    {n : ℕ} {sizes : List ℕ} {result : Except ε Unit} (hleft : 0 < s.left)
    (htoFill : s.toFill = n :: sizes) (hshort : s.buffer.length < n)
    (hsent : s.sent = some result) : s.inFlight ≠ [] := by
  intro hinFlight
  obtain ⟨front, back, hagrees⟩ := h.conforms
  obtain ⟨-, htodo, hpending⟩ := hagrees.sent_ok (hsent.trans (congrArg _ (h.sent_ok _ hsent)))
  obtain ⟨done, hids, hdone⟩ := hagrees.obtained
  have hcount := hagrees.left_eq
  have hlength := hdone.length_eq
  rw [htodo, List.append_nil] at hids
  rw [hagrees.values_eq, List.length_map, hids] at hcount
  rw [List.length_append] at hlength
  have helements := congrArg List.length hagrees.elements_eq
  rw [hinFlight, hpending, List.flatten_nil, List.append_nil, List.append_nil,
    List.length_append, List.length_flatten] at helements
  have hsizes := congrArg List.sum hagrees.sizes_eq
  rw [htoFill, List.sum_append, List.sum_cons] at hsizes
  cases back with
  | nil =>
    rw [List.length_nil] at hlength
    omega
  | cons r rest =>
    rw [List.flatMap_cons, List.length_append, hF.length_elements] at helements
    omega

/-- **Nothing that does not fail leads to an error.** -/
theorem step (hF : F.Carries decode) (hsource : ∀ i ∈ ids, ∃ r, source i = .ok r)
    (h : Untroubled F source decode ids s) (hstep : CalmStep F source closed s s') :
    Untroubled F source decode ids s' := by
  obtain ⟨e, hstep, hcalm⟩ := hstep
  have hconforms := h.conforms.step hF hstep
  cases hstep with
  | connect _ _ _ => exact { h with conforms := hconforms, connected := fun _ => rfl }
  | connectFails _ _ => exact absurd trivial hcalm
  | connectionRefused _ first closed_ =>
    -- the reader has only returned if it has accepted a connection
    have hconnected := h.connected (h.received_ok _ closed_).2.1
    rw [first] at hconnected
    cases hconnected
  | obtain _ _ _ _ _ => exact { h with conforms := hconforms }
  | obtainFails _ _ _ next error =>
    obtain ⟨front, back, hagrees⟩ := h.conforms
    obtain ⟨done, hids, -⟩ := hagrees.obtained
    obtain ⟨r, hr⟩ := hsource _ (by
      rw [hids, next]
      exact List.mem_append_right _ List.mem_cons_self)
    rw [error] at hr
    cases hr
  | write _ _ _ _ => exact { h with conforms := hconforms }
  | chunkWritten _ _ => exact { h with conforms := hconforms }
  | brokenPipe _ next some_ closed_ =>
    -- nor before it has read all that is written
    have hpending := (h.elements_eq_nil (h.received_ok _ closed_).2.2).2
    rw [next, List.flatten_cons] at hpending
    exact absurd (List.append_eq_nil_iff.mp hpending).1 some_
  | writeFails _ _ => exact absurd trivial hcalm
  | writerReturns _ _ _ _ =>
    exact { h with
      conforms := hconforms
      sent_ok := fun _ hresult => (Option.some.inj hresult).symm }
  | accept open_ connected _ =>
    exact { h with
      conforms := hconforms
      connected := fun _ => connected
      received_ok := fun _ hresult => absurd (open_.symm.trans hresult) (fun h => nomatch h) }
  | acceptFails _ _ => exact absurd trivial hcalm
  | read open_ _ _ _ _ _ _ => exact { h with conforms := hconforms }
  | bufferFilled open_ _ _ _ _ => exact { h with conforms := hconforms }
  | endOfStream _ _ more next short empty closed_ =>
    exact absurd empty (h.not_short hF more next short closed_)
  | readFails _ _ _ _ _ => exact absurd trivial hcalm
  | recordRead open_ _ _ _ =>
    exact { h with
      conforms := hconforms
      received_ok := fun _ hresult => absurd (open_.symm.trans hresult) (fun h => nomatch h) }
  | readerReturns _ accepted last =>
    exact { h with
      conforms := hconforms
      received_ok := fun _ hresult => ⟨(Option.some.inj hresult).symm, accepted, last⟩ }

end Untroubled

theorem untroubled_initial :
    Untroubled F source decode ids (initial F ids : State ι α ν ε) where
  conforms := conforms_initial
  connected := fun h => nomatch h
  sent_ok := fun _ h => nomatch h
  received_ok := fun _ h => nomatch h

end Ending

end Transfer
