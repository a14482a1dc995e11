import Vminer.Dump
import Vminer.ReadTermination
import Vminer.Rounds
import Vminer.WindowsTree

/-!
# Walks over the structures of a guest

The lists, the areas, the names of files and the tree of descriptors are the
guest's, and nothing in the code keeps track of where a walk has been. So a
walk ends exactly if the links it follows do not run into a cycle
(`walks_end_iff`), a circular list being one that comes back to its head.

What a link is, is said for each walk: a read that gives the next position,
where the walk goes on and does not end. A read itself always ends if the reads
of physical memory do, but for the one of a process, which has to be asked to.

A walk that ends does so with a value or an error, unless a step of it panics: where
the address of a field or of an element is none, or a name does not end.
-/

open Exec

theorem StructField.offset_ne_panicked (layouts : Layouts) (field : StructField) :
    field.offset layouts ≠ Exec.panicked := by
  have hokOr : ∀ {α : Type} (o : Option α) (e : VmError), okOr o e ≠ Exec.panicked := by
    intro α o e
    cases o with
    | none => exact fun h => nomatch h
    | some a => exact fun h => nomatch h
  intro h
  obtain h | ⟨layout, -, h⟩ := (bind_eq_panicked_iff _ _).mp h
  · exact hokOr _ _ h
  · exact hokOr _ _ h

/-- A callback that never breaks a walk off does not panic. -/
theorem Continues.bind_eq_panicked {σ α β : Type} {f : Callback σ α} (hf : Continues f) {a : α}
    {s : σ} {next : ControlFlow × σ → Exec VmError β} (h : (f a s >>= next) = Exec.panicked) :
    ∃ s', next (.Continue, s') = Exec.panicked := by
  obtain ⟨s', hs'⟩ := hf a s
  rw [hs'] at h
  exact ⟨s', h⟩

/-! ## Lists -/

section Lists

variable (readMemory : ReadMemory) (layouts : Layouts) (next link : StructField)
  (head : VirtualAddress)

/-- The links of a list: from a position to the next one, which is not the head,
and not below the place of an element in its element. -/
def ListLink (p q : VirtualAddress) : Prop :=
  Pointer.readPointerField readMemory layouts p next = .ok q ∧ q ≠ head
    ∧ ∃ offset, link.offset layouts = .ok offset ∧ offset.toNat ≤ q.toNat

/-- **A step of a list panics**: the read of the next position does, or the position is below the
place of an element in its element. -/
def ListPanics (p : VirtualAddress) : Prop :=
  Pointer.readPointerField readMemory layouts p next = Exec.panicked
    ∨ ∃ q offset, Pointer.readPointerField readMemory layouts p next = .ok q ∧ q ≠ head
      ∧ link.offset layouts = .ok offset ∧ q.toNat < offset.toNat

/-- A round of `iterate_list`: the next position and, if that is not the head, the element
there. -/
def listRound (offset : U64) (pos : VirtualAddress) :
    Exec VmError (Round VirtualAddress (Option VirtualAddress)) := do
  let pos ← Pointer.readPointerField readMemory layouts pos next
  if pos = head then return ⟨none, .ok none⟩
  else do
    let item ← checkedSub pos offset
    return ⟨some item, .ok (some pos)⟩

/-- A callback for elements, where there may be none. -/
def Callback.onSome {σ α : Type} (f : Callback σ α) : Callback σ (Option α) := fun a s =>
  match a with
  | some a => f a s
  | none => return (.Continue, s)

/-- The loop of `iterate_list` goes round by round. -/
theorem iterateListFrom_eq_walkRounds {σ : Type} (offset : U64) (f : Callback σ VirtualAddress)
    (n : ℕ) (pos : VirtualAddress) (s : σ) :
    Pointer.iterateListFrom readMemory layouts next head offset f n pos s
      = walkRounds (listRound readMemory layouts next head offset) f.onSome n pos s := by
  induction n generalizing pos s with
  | zero => rfl
  | succ n ih =>
    rw [Pointer.iterateListFrom, walkRounds, listRound]
    cases Pointer.readPointerField readMemory layouts pos next with
    | error e => rfl
    | ok q =>
      rw [ok_bind, ok_bind]
      by_cases hq : q = head
      · rw [if_pos hq, if_pos hq]
        rfl
      · rw [if_neg hq, if_neg hq]
        cases checkedSub q offset with
        | error e => rfl
        | ok item =>
          show (f item s >>= _) = (f item s >>= _)
          refine congrArg _ (funext ?_)
          rintro ⟨flow, s'⟩
          cases flow with
          | Break => rfl
          | Continue => exact ih q s'

variable {readMemory layouts next link head}

/-- It panics at a step only. -/
theorem exists_listPanics {σ : Type} {f : Callback σ VirtualAddress} (hf : Continues f) {n : ℕ}
    {s : σ} (h : Pointer.iterateList readMemory layouts next link n head f s = Exec.panicked) :
    ∃ q, Relation.ReflTransGen (ListLink readMemory layouts next link head) head q
      ∧ ListPanics readMemory layouts next link head q := by
  obtain hoffset | ⟨offset, hoffset, h⟩ := (bind_eq_panicked_iff _ _).mp h
  · exact absurd hoffset (link.offset_ne_panicked layouts)
  have hloop : ∀ (n : ℕ) (p : VirtualAddress) (s : σ),
      Pointer.iterateListFrom readMemory layouts next head offset f n p s = Exec.panicked →
      ∃ q, Relation.ReflTransGen (ListLink readMemory layouts next link head) p q
        ∧ ListPanics readMemory layouts next link head q := by
    intro n
    induction n with
    | zero => exact fun p s h => nomatch h
    | succ n ih =>
      intro p s h
      rw [Pointer.iterateListFrom, bind_eq_panicked_iff] at h
      obtain hread | ⟨q, hread, h⟩ := h
      · exact ⟨p, .refl, .inl hread⟩
      · split at h
        · cases h
        · next hne =>
          rw [bind_eq_panicked_iff] at h
          obtain hsub | ⟨item, hsub, h⟩ := h
          · refine ⟨p, .refl, .inr ⟨q, offset, hread, hne, hoffset, ?_⟩⟩
            by_contra hle
            rw [checkedSub_eq_ok (not_lt.mp hle)] at hsub
            cases hsub
          · obtain ⟨s', h⟩ := Continues.bind_eq_panicked hf h
            obtain ⟨r, hreach, hpanics⟩ := ih q s' h
            exact ⟨r, .head ⟨hread, hne, offset, hoffset, ((checkedSub_eq_ok_iff _ _ _).mp hsub).1⟩
              hreach, hpanics⟩
  exact hloop n head s h

end Lists

/-- The links of a list with reads that take a step budget: some budget is enough for one. -/
def ListLinkWithin (read : ℕ → ReadMemory) (layouts : Layouts) (next link : StructField)
    (head p q : VirtualAddress) : Prop :=
  ∃ n, ListLink (read n) layouts next link head p q

section Budget

variable {read : ℕ → ReadMemory} (hread : ∀ addr len, Settles fun n => read n addr len)
  (layouts : Layouts) (next link : StructField) (head : VirtualAddress)

include hread

theorem settles_readPointerField (p : VirtualAddress) :
    Settles fun n => Pointer.readPointerField (read n) layouts p next :=
  (Settles.const _).bind fun addr => (hread addr _).bind fun _ => .const _

omit hread in
/-- The next state of a round is the next position. -/
theorem leadsTo_listRound_iff {readMemory : ReadMemory} {offset : U64}
    (hoffset : link.offset layouts = .ok offset) (p q : VirtualAddress) :
    LeadsTo (listRound readMemory layouts next head offset) p q
      ↔ ListLink readMemory layouts next link head p q := by
  unfold LeadsTo listRound ListLink
  rw [hoffset]
  constructor
  · rintro ⟨r, hr, hnext⟩
    obtain ⟨pos, hpos, hr⟩ := (bind_eq_ok_iff _ _ _).mp hr
    split at hr
    · obtain rfl := Except.ok.inj hr
      cases hnext
    · next hne =>
      obtain ⟨item, hitem, hr⟩ := (bind_eq_ok_iff _ _ _).mp hr
      obtain rfl := Except.ok.inj hr
      obtain rfl := Option.some.inj (Except.ok.inj hnext)
      exact ⟨hpos, hne, offset, rfl, ((checkedSub_eq_ok_iff _ _ _).mp hitem).1⟩
  · rintro ⟨hpos, hne, offset', hoffset', hle⟩
    obtain rfl := Except.ok.inj hoffset'
    rw [hpos, ok_bind, if_neg hne, checkedSub_eq_ok hle]
    exact ⟨_, rfl, rfl⟩

/-- A round ends if the read of its position does. -/
theorem roundEnds_listRound_iff (offset : U64) (p : VirtualAddress) :
    RoundEnds (fun n => listRound (read n) layouts next head offset) p
      ↔ Ends fun n => Pointer.readPointerField (read n) layouts p next := by
  unfold RoundEnds listRound
  simp only [bind_assoc]
  refine (settles_readPointerField hread layouts next p).ends_bind_iff fun q => ?_
  split
  · exact ok_ne_outOfFuel _
  · rw [bind_assoc]
    exact bind_ne_outOfFuel (ite_panicked_ne_outOfFuel _ _) fun _ _ => ok_ne_outOfFuel _

/-- **`iterate_list` ends** exactly if the reads of the positions it comes to do and its links do
not run into a cycle. -/
theorem iterateList_ends_iff_within {σ : Type} {f : Callback σ VirtualAddress} (hf : Continues f)
    (s : σ) :
    (Ends fun n => Pointer.iterateList (read n) layouts next link n head f s)
      ↔ ∀ offset, link.offset layouts = .ok offset →
        (∀ p, Relation.ReflTransGen (ListLinkWithin read layouts next link head) head p →
          Ends fun n => Pointer.readPointerField (read n) layouts p next)
        ∧ ¬ RunsIntoCycle (ListLinkWithin read layouts next link head) head := by
  refine (ends_bind_iff (link.offset_ne_outOfFuel layouts) _).trans
    (forall_congr' fun offset => imp_congr_right fun hoffset => ?_)
  have hlink : LeadsToWithin (fun n => listRound (read n) layouts next head offset)
      = ListLinkWithin read layouts next link head := by
    funext p q
    exact propext (exists_congr fun n => leadsTo_listRound_iff layouts next link head hoffset p q)
  have hround : ∀ p, Settles fun n => listRound (read n) layouts next head offset p := fun p =>
    (settles_readPointerField hread layouts next p).bind fun _ => .const _
  have hsome : Continues f.onSome := fun a s =>
    match a with
    | some a => hf a s
    | none => ⟨s, rfl⟩
  simp only [iterateListFrom_eq_walkRounds]
  rw [ends_walkRounds_iff hround hsome (Set.toFinite _), hlink]
  exact and_congr_left' (forall₂_congr fun p _ =>
    roundEnds_listRound_iff hread layouts next head offset p)

end Budget

/-- **`iterate_list` goes along its links**, if its reads end. -/
theorem goesAlong_list {readMemory : ReadMemory} (layouts : Layouts) (next link : StructField)
    (head : VirtualAddress) (h : ∀ addr len, readMemory addr len ≠ Exec.outOfFuel) {σ : Type}
    {f : Callback σ VirtualAddress} (hf : Continues f) (s : σ) :
    GoesAlong (ListLink readMemory layouts next link head)
      (ListPanics readMemory layouts next link head) head
      fun n => Pointer.iterateList readMemory layouts next link n head f s := by
  refine ⟨?_, fun n => exists_listPanics hf⟩
  have hlink : ListLinkWithin (fun _ => readMemory) layouts next link head
      = ListLink readMemory layouts next link head := by
    funext p q
    exact propext (exists_const ℕ)
  have hends := iterateList_ends_iff_within (fun addr len => .const (readMemory addr len)) layouts
    next link head hf s
  rw [hlink] at hends
  refine hends.trans ⟨fun hall hcycle => ?_, fun hcycle offset _ => ⟨fun p _ => ?_, hcycle⟩⟩
  · obtain ⟨p, -, hback⟩ := id hcycle
    obtain ⟨q, ⟨-, -, offset, hoffset, -⟩, -⟩ := Relation.TransGen.head'_iff.mp hback
    exact (hall offset hoffset).2 hcycle
  · exact ends_const (Pointer.readField_ne_outOfFuel h layouts Layout.u64 p next)

/-! ## Areas, modules and names -/

namespace Linux

variable {B : Type} [Memory B] [HasVcpus B] {linux : Linux B} {σ : Type}

/-- Reading a field of the kernel ends. -/
theorem readField_ne_outOfFuel (h : Memory.ReadsEnd linux.backend) {α : Type} (L : Layout α)
    (addr : VirtualAddress) (field : StructField) :
    linux.readField L addr field ≠ Exec.outOfFuel :=
  Pointer.readField_ne_outOfFuel (readKernelMemory_ne_outOfFuel h) _ L addr field

variable (linux)

/-- The links of the areas of a process. -/
def VmaLink (p q : VirtualAddress) : Prop :=
  VirtualAddress.isNull p = false ∧ linux.readPointerField p (vmAreaStruct "vm_next") = .ok q

/-- The links of the areas that are backed by one file. -/
def SpanLink (f p q : VirtualAddress) : Prop :=
  linux.readPointerField p (vmAreaStruct "vm_next") = .ok q ∧ VirtualAddress.isNull q = false
    ∧ linux.readPointerField q (vmAreaStruct "vm_file") = .ok f

/-- The links of a directory entry to the one it is in. The root is in
itself. -/
def ParentLink (p q : VirtualAddress) : Prop :=
  linux.readPointerField p (dentry "d_parent") = .ok q ∧ q ≠ p

/-- A step of the loop of `module_span` panics: one of the reads at an area does. -/
def SpanPanics (p : VirtualAddress) : Prop :=
  linux.readPointerField p (vmAreaStruct "vm_next") = Exec.panicked
    ∨ (∃ q, linux.readPointerField p (vmAreaStruct "vm_next") = .ok q
      ∧ linux.readPointerField q (vmAreaStruct "vm_file") = Exec.panicked)
    ∨ linux.readField Layout.u64 p (vmAreaStruct "vm_end") = Exec.panicked

/-- **A step of `build_path` panics**: the read of the parent, or that of the name. -/
def PathPanics (p : VirtualAddress) : Prop :=
  linux.readPointerField p (dentry "d_parent") = Exec.panicked
    ∨ ∃ buf, linux.readFileNameTo p buf = Exec.panicked

/-- **A step of `process_for_each_vma` panics**: on the way to the areas, or at the read of a next
one. -/
def VmaWalkPanics (proc : Os.Process) : Prop :=
  linux.processMm proc = Exec.panicked
    ∨ ∃ mm, linux.processMm proc = .ok (some mm)
      ∧ (linux.readPointerField mm (mmStruct "mmap") = Exec.panicked
        ∨ ∃ first q, linux.readPointerField mm (mmStruct "mmap") = .ok first
          ∧ Relation.ReflTransGen linux.VmaLink first q
          ∧ linux.readPointerField q (vmAreaStruct "vm_next") = Exec.panicked)

/-- **A step of `module_span` panics**: before its loop, or in it. -/
def ModuleSpanPanics (module : Os.Module) : Prop :=
  linux.readPointerField module.addr (vmAreaStruct "vm_file") = Exec.panicked
    ∨ linux.readField Layout.u64 module.addr (vmAreaStruct "vm_start") = Exec.panicked
    ∨ ∃ f q, linux.readPointerField module.addr (vmAreaStruct "vm_file") = .ok f
      ∧ Relation.ReflTransGen (linux.SpanLink f) module.addr q ∧ linux.SpanPanics q

variable {linux} (h : Memory.ReadsEnd linux.backend)

include h

/-- The loop of `process_for_each_vma` follows the areas. -/
theorem followsLinks_vma {f : Callback σ Os.Vma} (hf : Continues f) :
    FollowsLinks linux.VmaLink (linux.forEachVmaFrom f) where
  zero _ _ := rfl
  stop p s hstop := by
    cases hnull : VirtualAddress.isNull p with
    | true =>
      refine ⟨.ok s, ok_ne_outOfFuel s, fun n => ?_⟩
      rw [forEachVmaFrom, hnull]
      rfl
    | false =>
      obtain ⟨s', hs'⟩ := hf ⟨p⟩ s
      have hread := readField_ne_outOfFuel h Layout.u64 p (vmAreaStruct "vm_next")
      cases hnext : linux.readPointerField p (vmAreaStruct "vm_next") with
      | ok q => exact absurd ⟨hnull, hnext⟩ (hstop q)
      | error e =>
        refine ⟨.error e, error_ne_outOfFuel hread hnext, fun n => ?_⟩
        rw [forEachVmaFrom, hnull, if_neg Bool.false_ne_true, hs']
        show (linux.readPointerField p (vmAreaStruct "vm_next") >>= _) = _
        rw [hnext]
        rfl
  next p s q hlink := by
    obtain ⟨s', hs'⟩ := hf ⟨p⟩ s
    refine ⟨s', id, fun r => Iff.rfl, fun n => ?_⟩
    rw [forEachVmaFrom, hlink.1, if_neg Bool.false_ne_true, hs']
    show (linux.readPointerField p (vmAreaStruct "vm_next") >>= _) = _
    rw [hlink.2]
    rfl

omit h in
/-- It panics at the read of a next area only. -/
theorem exists_of_forEachVmaFrom {f : Callback σ Os.Vma} (hf : Continues f) {n : ℕ}
    {p : VirtualAddress} {s : σ} (h : linux.forEachVmaFrom f n p s = Exec.panicked) :
    ∃ q, Relation.ReflTransGen linux.VmaLink p q
      ∧ linux.readPointerField q (vmAreaStruct "vm_next") = Exec.panicked := by
  induction n generalizing p s with
  | zero => cases h
  | succ n ih =>
    rw [forEachVmaFrom] at h
    split at h
    · cases h
    · next hnull =>
      obtain ⟨s', h⟩ := Continues.bind_eq_panicked hf h
      obtain hread | ⟨q, hread, h⟩ := (bind_eq_panicked_iff _ _).mp h
      · exact ⟨p, .refl, hread⟩
      · obtain ⟨r, hreach, hpanics⟩ := ih h
        exact ⟨r, .head ⟨eq_false_of_ne_true hnull, hread⟩ hreach, hpanics⟩

/-- The loop of `module_span` follows the areas of its file. -/
theorem followsLinks_span (f : VirtualAddress) :
    FollowsLinks (linux.SpanLink f) (fun n p (_ : Unit) => linux.moduleEndFrom f n p) where
  zero _ _ := rfl
  stop p s hstop := by
    have hread := readField_ne_outOfFuel h Layout.u64 p (vmAreaStruct "vm_next")
    have hend := readField_ne_outOfFuel h Layout.u64 p (vmAreaStruct "vm_end")
    cases hnext : linux.readPointerField p (vmAreaStruct "vm_next") with
    | error e =>
      refine ⟨.error e, error_ne_outOfFuel hread hnext, fun n => ?_⟩
      rw [moduleEndFrom, hnext]
      rfl
    | ok q =>
      cases hnull : VirtualAddress.isNull q with
      | true =>
        refine ⟨_, hend, fun n => ?_⟩
        rw [moduleEndFrom, hnext, ok_bind, hnull]
        rfl
      | false =>
        have hread := readField_ne_outOfFuel h Layout.u64 q (vmAreaStruct "vm_file")
        cases hfile : linux.readPointerField q (vmAreaStruct "vm_file") with
        | error e =>
          refine ⟨.error e, error_ne_outOfFuel hread hfile, fun n => ?_⟩
          rw [moduleEndFrom, hnext, ok_bind, hnull, if_neg Bool.false_ne_true, hfile]
          rfl
        | ok g =>
          have hne : (g != f) = true := bne_iff_ne.mpr fun heq =>
            hstop q ⟨hnext, hnull, hfile.trans (congrArg _ heq)⟩
          refine ⟨_, hend, fun n => ?_⟩
          rw [moduleEndFrom, hnext, ok_bind, hnull, if_neg Bool.false_ne_true, hfile, ok_bind]
          show (if (g != f) = true then _ else _) = _
          rw [if_pos hne]
  next p s q hlink := by
    obtain ⟨hnext, hnull, hfile⟩ := hlink
    refine ⟨(), id, fun r => Iff.rfl, fun n => ?_⟩
    have heq : (f != f) = false := bne_self_eq_false f
    rw [moduleEndFrom, hnext, ok_bind, hnull, if_neg Bool.false_ne_true, hfile, ok_bind]
    show (if (f != f) = true then _ else _) = _
    rw [heq, if_neg Bool.false_ne_true]
    rfl

omit h in
/-- It panics at a read only. -/
theorem exists_of_moduleEndFrom {file : VirtualAddress} {n : ℕ} {p : VirtualAddress}
    (h : linux.moduleEndFrom file n p = Exec.panicked) :
    ∃ q, Relation.ReflTransGen (linux.SpanLink file) p q ∧ linux.SpanPanics q := by
  induction n generalizing p with
  | zero => cases h
  | succ n ih =>
    rw [moduleEndFrom, bind_eq_panicked_iff] at h
    obtain hread | ⟨q, hread, h⟩ := h
    · exact ⟨p, .refl, .inl hread⟩
    dsimp only at h
    split at h
    · exact ⟨p, .refl, .inr (.inr h)⟩
    · next hnull =>
      obtain hfile | ⟨nextFile, hfile, h⟩ := (bind_eq_panicked_iff _ _).mp h
      · exact ⟨p, .refl, .inr (.inl ⟨q, hread, hfile⟩)⟩
      · rw [pure_eq_ok, ok_bind] at h
        split at h
        · exact ⟨p, .refl, .inr (.inr h)⟩
        · next hsame =>
          obtain ⟨r, hreach, hpanics⟩ := ih h
          have heq : nextFile = file := by simpa using hsame
          exact ⟨r, .head ⟨hread, eq_false_of_ne_true hnull, heq ▸ hfile⟩ hreach, hpanics⟩

/-- Appending a name ends. -/
theorem readFileNameTo_ne_outOfFuel (d : VirtualAddress) (buf : List UInt8) :
    linux.readFileNameTo d buf ≠ Exec.outOfFuel := by
  refine bind_ne_outOfFuel (Pointer.field_ne_outOfFuel _ _ _) fun name _ => ?_
  refine bind_ne_outOfFuel (readField_ne_outOfFuel h _ _ _) fun name _ => ?_
  refine bind_ne_outOfFuel (readKernelMemory_ne_outOfFuel h _ _) fun bytes _ => ?_
  split
  · exact ok_ne_outOfFuel _
  · exact panicked_ne_outOfFuel

/-- The recursion of `build_path` follows the parents. -/
theorem followsLinks_path : FollowsLinks linux.ParentLink linux.buildPath where
  zero _ _ := rfl
  stop p s hstop := by
    have hread := readField_ne_outOfFuel h Layout.u64 p (dentry "d_parent")
    cases hparent : linux.readPointerField p (dentry "d_parent") with
    | error e =>
      refine ⟨.error e, error_ne_outOfFuel hread hparent, fun n => ?_⟩
      rw [buildPath, hparent]
      rfl
    | ok q =>
      have heq : ¬ q ≠ p := fun hne => hstop q ⟨hparent, hne⟩
      refine ⟨_, readFileNameTo_ne_outOfFuel h p s, fun n => ?_⟩
      rw [buildPath, hparent, ok_bind, if_neg heq]
      rfl
  next p s q hlink := by
    refine ⟨s, fun r => r >>= linux.readFileNameTo p, fun r => ?_, fun n => ?_⟩
    · constructor
      · intro hr
        by_contra hne
        exact bind_ne_outOfFuel hne (fun buf _ => readFileNameTo_ne_outOfFuel h p buf) hr
      · rintro rfl
        rfl
    · rw [buildPath, hlink.1, ok_bind, if_pos hlink.2]

omit h in
/-- It panics at a read only. -/
theorem exists_of_buildPath {n : ℕ} {p : VirtualAddress} {buf : List UInt8}
    (h : linux.buildPath n p buf = Exec.panicked) :
    ∃ q, Relation.ReflTransGen linux.ParentLink p q ∧ linux.PathPanics q := by
  induction n generalizing p buf with
  | zero => cases h
  | succ n ih =>
    rw [buildPath, bind_eq_panicked_iff] at h
    obtain hread | ⟨q, hread, h⟩ := h
    · exact ⟨p, .refl, .inl hread⟩
    dsimp only at h
    split at h
    · next hne =>
      obtain hrest | ⟨buf', -, h⟩ := (bind_eq_panicked_iff _ _).mp h
      · obtain ⟨r, hreach, hpanics⟩ := ih hrest
        exact ⟨r, .head ⟨hread, hne⟩ hreach, hpanics⟩
      · exact ⟨p, .refl, .inr ⟨buf', h⟩⟩
    · exact ⟨p, .refl, .inr ⟨buf, h⟩⟩

end Linux

/-! ## The tree of descriptors -/

namespace Windows

variable {B : Type} [Memory B] [HasVcpus B] (windows : Windows B) {σ : Type}

/-- The children of all the descriptors below a pointer can be read. -/
inductive SubtreeRead : VirtualAddress → Prop
  | null (p : VirtualAddress) (hp : VirtualAddress.isNull p = true) : SubtreeRead p
  | node (p l r : VirtualAddress) (hp : VirtualAddress.isNull p = false)
      (hl : windows.leftChild p = .ok l) (hr : windows.rightChild p = .ok r)
      (left : SubtreeRead l) (right : SubtreeRead r) : SubtreeRead p

/-- The links of the tree: to the left child, and after what is below that also
to the right one. -/
def TreeLink (p q : VirtualAddress) : Prop :=
  VirtualAddress.isNull q = false ∧ (windows.leftChild p = .ok q
    ∨ ∃ l, windows.leftChild p = .ok l ∧ windows.SubtreeRead l ∧ windows.rightChild p = .ok q)

/-- **A step of the tree panics**: the read of a child. -/
def TreePanics (p : VirtualAddress) : Prop :=
  windows.leftChild p = Exec.panicked ∨ windows.rightChild p = Exec.panicked

/-- `iterate_tree` on one side of a descriptor, which may be empty. -/
def iterateSide (f : Callback σ VirtualAddress) (fuel : ℕ) (p : VirtualAddress) (s : σ) :
    Exec VmError (ControlFlow × σ) :=
  if VirtualAddress.isNull p then pure (.Continue, s) else windows.iterateTree f fuel p s

variable {windows}

theorem iterateTree_succ (f : Callback σ VirtualAddress) (fuel : ℕ) (p : VirtualAddress) (s : σ) :
    windows.iterateTree f (fuel + 1) p s = (do
      let left ← windows.leftChild p
      ControlFlow.andThen (windows.iterateSide f fuel left s) fun s =>
        ControlFlow.andThen (f p s) fun s => do
          let right ← windows.rightChild p
          windows.iterateSide f fuel right s) := rfl

theorem iterateSide_null (f : Callback σ VirtualAddress) (fuel : ℕ) {p : VirtualAddress} (s : σ)
    (hp : VirtualAddress.isNull p = true) :
    windows.iterateSide f fuel p s = .ok (.Continue, s) := if_pos hp

theorem iterateSide_node (f : Callback σ VirtualAddress) (fuel : ℕ) {p : VirtualAddress} (s : σ)
    (hp : VirtualAddress.isNull p = false) :
    windows.iterateSide f fuel p s = windows.iterateTree f fuel p s :=
  if_neg (ne_true_of_eq_false hp)

variable {f : Callback σ VirtualAddress} (hf : Continues f)

include hf

/-- A round at a descriptor, once its left side is done. -/
theorem iterateTree_of_left {p l : VirtualAddress} (hl : windows.leftChild p = .ok l) {fuel : ℕ}
    {s s' : σ} (hside : windows.iterateSide f fuel l s = .ok (.Continue, s')) :
    ∃ s'', windows.iterateTree f (fuel + 1) p s
      = (windows.rightChild p >>= fun r => windows.iterateSide f fuel r s'') := by
  obtain ⟨s'', hs''⟩ := hf p s'
  refine ⟨s'', ?_⟩
  rw [iterateTree_succ, hl, ok_bind, hside]
  show ControlFlow.andThen (f p s') _ = _
  rw [hs'']
  rfl

/-- What can be read is walked to its end. -/
theorem iterateSide_of_subtreeRead {p : VirtualAddress} (hread : windows.SubtreeRead p)
    {fuel : ℕ} {s : σ} (hrun : windows.iterateSide f fuel p s ≠ Exec.outOfFuel) :
    ∃ s', windows.iterateSide f fuel p s = .ok (.Continue, s') := by
  induction hread generalizing fuel s with
  | null p hp => exact ⟨s, iterateSide_null f fuel s hp⟩
  | node p l r hp hl hr _ _ ihl ihr =>
    rw [iterateSide_node f fuel s hp] at hrun ⊢
    cases fuel with
    | zero => exact absurd rfl hrun
    | succ fuel =>
      have hleft : windows.iterateSide f fuel l s ≠ Exec.outOfFuel := by
        intro heq
        rw [iterateTree_succ, hl, ok_bind, heq] at hrun
        exact hrun rfl
      obtain ⟨s₁, hs₁⟩ := ihl hleft
      obtain ⟨s₂, hs₂⟩ := iterateTree_of_left hf hl hs₁
      rw [hs₂, hr, ok_bind] at hrun ⊢
      exact ihr hrun

omit hf in
/-- Reading a child ends. -/
theorem vadChild_ne_outOfFuel (h : Memory.ReadsEnd windows.backend) (name oldName : String)
    (vad : VirtualAddress) : windows.vadChild name oldName vad ≠ Exec.outOfFuel := by
  have hread := readKernelMemory_ne_outOfFuel h
  rw [vadChild]
  split
  · exact bind_ne_outOfFuel (Pointer.field_ne_outOfFuel _ _ _)
      fun _ _ => Pointer.readField_ne_outOfFuel hread _ _ _ _
  · exact Pointer.readField_ne_outOfFuel hread _ _ _ _

/-- What is walked to its end can be read. -/
theorem subtreeRead_of_iterateSide {fuel : ℕ} {p : VirtualAddress} {s : σ}
    {x : ControlFlow × σ} (hrun : windows.iterateSide f fuel p s = .ok x) :
    x.1 = .Continue ∧ windows.SubtreeRead p := by
  induction fuel generalizing p s x with
  | zero =>
    cases hp : VirtualAddress.isNull p with
    | true =>
      rw [iterateSide_null f 0 s hp] at hrun
      exact ⟨congrArg Prod.fst (Except.ok.inj hrun).symm, .null p hp⟩
    | false =>
      rw [iterateSide_node f 0 s hp] at hrun
      cases hrun
  | succ fuel ih =>
    cases hp : VirtualAddress.isNull p with
    | true =>
      rw [iterateSide_null f _ s hp] at hrun
      exact ⟨congrArg Prod.fst (Except.ok.inj hrun).symm, .null p hp⟩
    | false =>
      rw [iterateSide_node f _ s hp, iterateTree_succ] at hrun
      obtain ⟨l, hl, hleft⟩ := (bind_eq_ok_iff _ _ _).mp hrun
      obtain ⟨⟨flow, s'⟩, hside, -⟩ := (bind_eq_ok_iff _ _ _).mp hleft
      obtain ⟨rfl, hreadl⟩ := ih hside
      obtain ⟨s'', hs''⟩ := iterateTree_of_left hf hl hside
      rw [← iterateTree_succ, hs''] at hrun
      obtain ⟨r, hr, hright⟩ := (bind_eq_ok_iff _ _ _).mp hrun
      obtain ⟨hflow, hreadr⟩ := ih hright
      exact ⟨hflow, .node p l r hp hl hr hreadl hreadr⟩

/-- It panics at the read of a child only. -/
theorem exists_of_iterateTree {n : ℕ} {p : VirtualAddress} {s : σ}
    (h : windows.iterateTree f n p s = Exec.panicked) :
    ∃ q, Relation.ReflTransGen windows.TreeLink p q ∧ windows.TreePanics q := by
  induction n generalizing p s with
  | zero => cases h
  | succ n ih =>
    rw [iterateTree_succ] at h
    obtain hl | ⟨l, hl, h⟩ := (bind_eq_panicked_iff _ _).mp h
    · exact ⟨p, .refl, .inl hl⟩
    · have hside : ∀ {q s'}, windows.iterateSide f n q s' = Exec.panicked →
          (VirtualAddress.isNull q = false → windows.TreeLink p q) →
          ∃ q, Relation.ReflTransGen windows.TreeLink p q ∧ windows.TreePanics q := by
        intro q s' h hlink
        cases hq : VirtualAddress.isNull q with
        | true =>
          rw [iterateSide_null f n s' hq] at h
          cases h
        | false =>
          rw [iterateSide_node f n s' hq] at h
          obtain ⟨r, hreach, hpanics⟩ := ih h
          exact ⟨r, .head (hlink hq) hreach, hpanics⟩
      obtain hleft | ⟨⟨flow, s'⟩, hleft, h⟩ := (bind_eq_panicked_iff _ _).mp h
      · exact hside hleft fun hq => ⟨hq, .inl hl⟩
      · obtain ⟨rfl, hread⟩ := subtreeRead_of_iterateSide hf hleft
        obtain ⟨s'', h⟩ := Continues.bind_eq_panicked hf h
        obtain hr | ⟨r, hr, h⟩ := (bind_eq_panicked_iff _ _).mp h
        · exact ⟨p, .refl, .inr hr⟩
        · exact hside h fun hq => ⟨hq, .inr ⟨l, hl, hread, hr⟩⟩
/-- **Along finite walks the tree is walked to its end**, with an error where a
child cannot be read. -/
theorem iterateTree_ends_of_acc (h : Memory.ReadsEnd windows.backend) {p : VirtualAddress}
    (hacc : Acc (fun q p => windows.TreeLink p q) p) (s : σ) :
    Ends fun n => windows.iterateTree f n p s := by
  induction hacc generalizing s with
  | intro p _ ih =>
    -- a side of the descriptor, if there is a link to it where it is not empty
    have hside : ∀ q, (VirtualAddress.isNull q = false → windows.TreeLink p q) → ∀ s,
        Ends fun n => windows.iterateSide f n q s := by
      intro q hlink s
      cases hq : VirtualAddress.isNull q with
      | true =>
        simp only [iterateSide_null f _ s hq]
        exact ends_const (ok_ne_outOfFuel _)
      | false =>
        simp only [iterateSide_node f _ s hq]
        exact ih q (hlink hq) s
    refine Ends.of_succ ?_
    simp only [iterateTree_succ]
    refine (ends_bind_iff (vadChild_ne_outOfFuel h _ _ _) _).mpr fun l hl => ?_
    refine (hside l (fun hq => ⟨hq, .inl hl⟩) s).bind fun n x hx => ?_
    obtain ⟨flow, s'⟩ := x
    obtain ⟨rfl, hleft⟩ := subtreeRead_of_iterateSide hf hx
    obtain ⟨s'', hs''⟩ := hf p s'
    dsimp only
    rw [hs'']
    refine (ends_bind_iff (vadChild_ne_outOfFuel h _ _ _) _).mpr fun r hr => ?_
    exact hside r (fun hq => ⟨hq, .inr ⟨l, hl, hleft, hr⟩⟩) s''

/-- **A walk of the tree that ends** has followed only finite walks. -/
theorem acc_of_iterateTree_ne_outOfFuel (n : ℕ) {p : VirtualAddress} {s : σ}
    (hrun : windows.iterateTree f n p s ≠ Exec.outOfFuel) :
    Acc (fun q p => windows.TreeLink p q) p := by
  induction n generalizing p s with
  | zero => exact absurd rfl hrun
  | succ n ih =>
    refine ⟨p, fun q hlink => ?_⟩
    obtain ⟨hq, hl | ⟨l, hl, hleft, hr⟩⟩ := hlink
    · refine ih (s := s) fun heq => hrun ?_
      rw [iterateTree_succ, hl, ok_bind, iterateSide_node f n s hq, heq]
      rfl
    · have hne : windows.iterateSide f n l s ≠ Exec.outOfFuel := by
        intro heq
        rw [iterateTree_succ, hl, ok_bind, heq] at hrun
        exact hrun rfl
      obtain ⟨s₁, hs₁⟩ := iterateSide_of_subtreeRead hf hleft hne
      obtain ⟨s₂, hs₂⟩ := iterateTree_of_left hf hl hs₁
      refine ih (s := s₂) fun heq => hrun ?_
      rw [hs₂, hr, ok_bind, iterateSide_node f n s₂ hq, heq]

/-- **`iterate_tree` ends** exactly if its links do not run into a cycle. -/
theorem iterateTree_ends_iff (h : Memory.ReadsEnd windows.backend) (p : VirtualAddress) (s : σ) :
    (Ends fun n => windows.iterateTree f n p s) ↔ ¬ RunsIntoCycle windows.TreeLink p := by
  rw [← acc_iff_not_runsIntoCycle]
  constructor
  · intro hends
    obtain ⟨n, hne⟩ := hends.exists_ne_outOfFuel
    exact acc_of_iterateTree_ne_outOfFuel hf n hne
  · exact fun hacc => iterateTree_ends_of_acc hf h hacc s

end Windows

/-! ## All of them -/

namespace Linux

variable {B : Type} [Memory B] [HasVcpus B] {linux : Linux B} {σ : Type}
  (h : Memory.ReadsEnd linux.backend)

include h

theorem processMm_ne_outOfFuel (proc : Os.Process) : linux.processMm proc ≠ Exec.outOfFuel := by
  have hnull : ∀ mm : VirtualAddress,
      Pointer.mapNonNull mm (fun mm => pure mm) ≠ Exec.outOfFuel := by
    intro mm
    rw [Pointer.mapNonNull]
    split
    · exact ok_ne_outOfFuel _
    · exact ok_ne_outOfFuel _
  refine bind_ne_outOfFuel (readField_ne_outOfFuel h _ _ _) fun mm _ => ?_
  dsimp only
  split
  · exact bind_ne_outOfFuel (readField_ne_outOfFuel h _ _ _) fun mm _ => hnull mm
  · exact hnull mm

/-- **`process_for_each_vma` ends** exactly if the areas of the process do not
run into a cycle. -/
theorem processForEachVma_ends_iff (proc : Os.Process) {f : Callback σ Os.Vma}
    (hf : Continues f) (s : σ) :
    (Ends fun n => linux.processForEachVma n proc f s)
      ↔ ∀ mm first, linux.processMm proc = .ok (some mm) →
        linux.readPointerField mm (mmStruct "mmap") = .ok first →
        ¬ RunsIntoCycle linux.VmaLink first := by
  refine (ends_bind_iff (processMm_ne_outOfFuel h proc) _).trans ⟨fun hall mm first hmm => ?_,
    fun hall mm? hmm => ?_⟩
  · have hread := readField_ne_outOfFuel h Layout.u64 mm (mmStruct "mmap")
    intro hfirst
    have hends := (ends_bind_iff hread _).mp (hall _ hmm) first hfirst
    exact ((followsLinks_vma h hf).ends_iff first s).mp hends
  · cases mm? with
    | none => exact ⟨.ok s, ok_ne_outOfFuel s, 0, fun _ _ => rfl⟩
    | some mm =>
      have hread := readField_ne_outOfFuel h Layout.u64 mm (mmStruct "mmap")
      refine (ends_bind_iff hread _).mpr fun first hfirst => ?_
      exact ((followsLinks_vma h hf).ends_iff first s).mpr (hall mm first hmm hfirst)

omit h in
/-- It panics on its way to the areas, or at the read of a next one. -/
theorem panics_of_processForEachVma {proc : Os.Process} {f : Callback σ Os.Vma}
    (hf : Continues f) {n : ℕ} {s : σ} (h : linux.processForEachVma n proc f s = Exec.panicked) :
    linux.VmaWalkPanics proc := by
  obtain hmm | ⟨mm?, hmm, h⟩ := (bind_eq_panicked_iff _ _).mp h
  · exact .inl hmm
  · cases mm? with
    | none => cases h
    | some mm =>
      obtain hfirst | ⟨first, hfirst, h⟩ := (bind_eq_panicked_iff _ _).mp h
      · exact .inr ⟨mm, hmm, .inl hfirst⟩
      · obtain ⟨q, hreach, hread⟩ := exists_of_forEachVmaFrom hf h
        exact .inr ⟨mm, hmm, .inr ⟨first, q, hfirst, hreach, hread⟩⟩

omit h in
theorem panics_of_moduleSpan {module : Os.Module} {n : ℕ}
    (h : linux.moduleSpan n module = Exec.panicked) : linux.ModuleSpanPanics module := by
  obtain hfile | ⟨file, hfile, h⟩ := (bind_eq_panicked_iff _ _).mp h
  · exact .inl hfile
  · obtain hstart | ⟨start, -, h⟩ := (bind_eq_panicked_iff _ _).mp h
    · exact .inr (.inl hstart)
    · obtain hstop | ⟨stop, -, h⟩ := (bind_eq_panicked_iff _ _).mp h
      · obtain ⟨q, hreach, hpanics⟩ := exists_of_moduleEndFrom hstop
        exact .inr (.inr ⟨file, q, hfile, hreach, hpanics⟩)
      · cases h

/-- **`module_span` ends** exactly if the areas of its file do not run into a
cycle. -/
theorem moduleSpan_ends_iff (module : Os.Module) :
    (Ends fun n => linux.moduleSpan n module)
      ↔ ∀ f start, linux.readPointerField module.addr (vmAreaStruct "vm_file") = .ok f →
        linux.readField Layout.u64 module.addr (vmAreaStruct "vm_start") = .ok start →
        ¬ RunsIntoCycle (linux.SpanLink f) module.addr := by
  have hfile := readField_ne_outOfFuel h Layout.u64 module.addr (vmAreaStruct "vm_file")
  have hstart := readField_ne_outOfFuel h Layout.u64 module.addr (vmAreaStruct "vm_start")
  refine (ends_bind_iff hfile _).trans (forall_congr' fun f => ?_)
  rw [forall_comm]
  refine imp_congr_right fun _ => (ends_bind_iff hstart _).trans ?_
  refine forall_congr' fun start => imp_congr_right fun _ => ?_
  exact (followsLinks_span h f).ends_bind_iff (fun stop => (start, stop)) module.addr ()

end Linux

/-- **The walks end exactly if their links do not run into a cycle.** The code
does not keep track of where a walk has been: each of them, with a callback that
never breaks it off, makes finitely many steps if and only if the links it
follows from its start never come back to where it has been – a list to its
head and the root directory to itself excepted, which end it. A list in the memory
of a Windows process is read with its tree of descriptors, so there each read has to
end as well. A walk panics only where one of its steps does. -/
theorem walks_end_iff {B : Type} [Memory B] [HasVcpus B] (linux : Linux B) (windows : Windows B)
    (hl : Memory.ReadsEnd linux.backend) (hw : Memory.ReadsEnd windows.backend) (σ : Type)
    (s : σ) :
    (∀ (link : StructField) (head : VirtualAddress) (f : Callback σ VirtualAddress),
      Continues f →
      GoesAlong
        (ListLink linux.readKernelMemory linux.layouts (Linux.listHead "next") link head)
        (ListPanics linux.readKernelMemory linux.layouts (Linux.listHead "next") link head) head
        fun n => linux.iterateList link n head f s)
    ∧ (∀ (link : StructField) (head : VirtualAddress) (f : Callback σ VirtualAddress),
      Continues f →
      GoesAlong
        (ListLink windows.readKernelMemory windows.layouts (Windows.listEntry "Flink") link head)
        (ListPanics windows.readKernelMemory windows.layouts (Windows.listEntry "Flink") link head)
        head fun n => windows.iterateList windows.readKernelMemory link n head f s)
    ∧ (∀ (proc : Os.Process) (pgd : PhysicalAddress) (link : StructField) (head : VirtualAddress)
        (f : Callback σ VirtualAddress), Continues f →
      let link' := ListLinkWithin (fun n => windows.procSpace n proc pgd) windows.layouts
        (Windows.listEntry "Flink") link head
      ((Ends fun n => windows.iterateList (windows.procSpace n proc pgd) link n head f s)
        ↔ ∀ offset, link.offset windows.layouts = .ok offset →
          (∀ p, Relation.ReflTransGen link' head p →
            Ends fun n => Pointer.readPointerField (windows.procSpace n proc pgd) windows.layouts p
              (Windows.listEntry "Flink"))
          ∧ ¬ RunsIntoCycle link' head)
      ∧ ∀ n, windows.iterateList (windows.procSpace n proc pgd) link n head f s = Exec.panicked →
        ∃ p, Relation.ReflTransGen link' head p
          ∧ ListPanics (windows.procSpace n proc pgd) windows.layouts (Windows.listEntry "Flink")
            link head p)
    ∧ (∀ (proc : Os.Process) (f : Callback σ Os.Vma), Continues f →
      ((Ends fun n => linux.processForEachVma n proc f s)
        ↔ ∀ mm first, linux.processMm proc = .ok (some mm) →
          linux.readPointerField mm (Linux.mmStruct "mmap") = .ok first →
          ¬ RunsIntoCycle linux.VmaLink first)
      ∧ ∀ n, linux.processForEachVma n proc f s = Exec.panicked → linux.VmaWalkPanics proc)
    ∧ (∀ module : Os.Module, ((Ends fun n => linux.moduleSpan n module)
        ↔ ∀ f start,
          linux.readPointerField module.addr (Linux.vmAreaStruct "vm_file") = .ok f →
          linux.readField Layout.u64 module.addr (Linux.vmAreaStruct "vm_start") = .ok start →
          ¬ RunsIntoCycle (linux.SpanLink f) module.addr)
      ∧ ∀ n, linux.moduleSpan n module = Exec.panicked → linux.ModuleSpanPanics module)
    ∧ (∀ (d : VirtualAddress) (buf : List UInt8),
      GoesAlong linux.ParentLink linux.PathPanics d fun n => linux.buildPath n d buf)
    ∧ ∀ (ptr : VirtualAddress) (f : Callback σ VirtualAddress), Continues f →
      GoesAlong windows.TreeLink windows.TreePanics ptr fun n => windows.iterateTree f n ptr s :=
  ⟨fun link head _ hf => goesAlong_list linux.layouts _ link head
      (Linux.readKernelMemory_ne_outOfFuel hl) hf s,
    fun link head _ hf => goesAlong_list windows.layouts _ link head
      (Windows.readKernelMemory_ne_outOfFuel hw) hf s,
    fun proc pgd link head _ hf => ⟨iterateList_ends_iff_within (windows.settles_procSpace proc pgd)
      windows.layouts _ link head hf s, fun n hpanic => by
        obtain ⟨p, hreach, hpanics⟩ := exists_listPanics hf hpanic
        exact ⟨p, hreach.lift id fun _ _ h => ⟨n, h⟩, hpanics⟩⟩,
    fun proc _ hf => ⟨Linux.processForEachVma_ends_iff hl proc hf s,
      fun _ => Linux.panics_of_processForEachVma hf⟩,
    fun module => ⟨Linux.moduleSpan_ends_iff hl module, fun _ => Linux.panics_of_moduleSpan⟩,
    fun d buf => ⟨(Linux.followsLinks_path hl).ends_iff d buf, fun _ => Linux.exists_of_buildPath⟩,
    fun ptr _ hf => ⟨Windows.iterateTree_ends_iff hf hw ptr s,
      fun _ => Windows.exists_of_iterateTree hf⟩⟩

/-- Reads of a dump end. -/
theorem DumbDump.readsEnd (dump : DumbDump RawMemory) : Memory.ReadsEnd dump := by
  intro addr len
  show MemRemap.readPhysical dump.mem addr len ≠ _
  rw [MemRemap.readPhysical]
  split
  · refine bind_ne_outOfFuel ?_ fun p _ => ?_
    · generalize dump.mem.mappings.zip dump.mem.remapAt = l
      induction l with
      | nil => exact fail_ne_outOfFuel _
      | cons x rest ih =>
        rw [MemRemap.remap]
        split
        · refine bind_ne_outOfFuel (ite_panicked_ne_outOfFuel _ _) fun stop _ => ?_
          split
          · exact ite_panicked_ne_outOfFuel _ _
          · exact ih
        · exact ih
    · rw [RawMemory.readPhysical_eq]
      split
      · exact ok_ne_outOfFuel _
      · exact fail_ne_outOfFuel _
  · exact panicked_ne_outOfFuel

/-- A guest with a list whose only element links to itself and not to the
head, with a list of two elements, and with a directory in the root. -/
def cyclicList : Linux (DumbDump RawMemory) where
  backend := .ofWords [0x83, 16, 16, 32, 40, 24]
  layouts := fun _ => some fun _ => some 0
  kpgd := 0

/-- The list of two elements is walked to its end, the path of the directory to the root, and a
tree of three descriptors. -/
theorem walks_end_twoElements :
    (Ends fun n => cyclicList.iterateList (Linux.taskStruct "tasks") n 24
        (fun _ (_ : Unit) => .ok (.Continue, ())) ())
      ∧ (Ends fun n => cyclicList.buildPath n 8 [])
      ∧ Ends fun n => Windows.threeVads.iterateTree
        (fun _ (_ : Unit) => .ok (.Continue, ())) n 16 () := by
  have hf : Continues fun (_ : VirtualAddress) (_ : Unit) => .ok (.Continue, ()) :=
    fun _ _ => ⟨(), rfl⟩
  obtain ⟨hlist, -, -, -, -, hpath, htree⟩ := walks_end_iff cyclicList Windows.threeVads
    (DumbDump.readsEnd _) (DumbDump.readsEnd _) Unit ()
  refine ⟨(hlist _ 24 _ hf).ends_iff.mpr ?_, (hpath 8 []).ends_iff.mpr ?_,
    (htree 16 _ hf).ends_iff.mpr ?_⟩
  · -- the links are from the head to the first element and from there to the second
    rw [← acc_iff_not_runsIntoCycle]
    have hread : ∀ p q : VirtualAddress, Pointer.readPointerField cyclicList.readKernelMemory
        cyclicList.layouts p (Linux.listHead "next") = .ok q → ∀ r, ListLink
          cyclicList.readKernelMemory cyclicList.layouts (Linux.listHead "next")
          (Linux.taskStruct "tasks") 24 p r → r = q ∧ r ≠ 24 :=
      fun p q hq r hr => ⟨Except.ok.inj (hr.1.symm.trans hq), hr.2.1⟩
    refine ⟨_, fun p hp => ?_⟩
    obtain ⟨rfl, -⟩ := hread 24 32 (by decide +kernel) p hp
    refine ⟨_, fun p hp => ?_⟩
    obtain ⟨rfl, -⟩ := hread 32 40 (by decide +kernel) p hp
    refine ⟨_, fun p hp => ?_⟩
    obtain ⟨rfl, hne⟩ := hread 40 24 (by decide +kernel) p hp
    exact absurd rfl hne
  · -- the one link is to the root
    rw [← acc_iff_not_runsIntoCycle]
    have hread : ∀ p q : VirtualAddress, cyclicList.readPointerField p (Linux.dentry "d_parent")
        = .ok q → ∀ r, cyclicList.ParentLink p r → r = q ∧ r ≠ p :=
      fun p q hq r hr => ⟨Except.ok.inj (hr.1.symm.trans hq), hr.2⟩
    refine ⟨_, fun p hp => ?_⟩
    obtain ⟨rfl, -⟩ := hread 8 16 (by decide +kernel) p hp
    refine ⟨_, fun p hp => ?_⟩
    obtain ⟨rfl, hne⟩ := hread 16 16 (by decide +kernel) p hp
    exact absurd rfl hne
  · rw [← acc_iff_not_runsIntoCycle]
    have hrun : Windows.threeVads.iterateTree (fun _ (_ : Unit) => .ok (.Continue, ())) 2 16 ()
        = .ok (.Continue, ()) := by decide +kernel
    exact Windows.acc_of_iterateTree_ne_outOfFuel hf 2 (hrun ▸ ok_ne_outOfFuel _)

/-- **The walk of the other one makes no end of steps**, whatever the
budget. -/
theorem not_ends_cyclicList :
    ¬ Ends fun n => cyclicList.iterateList (Linux.taskStruct "tasks") n 8
      (fun _ (_ : Unit) => .ok (.Continue, ())) () := by
  have hlink : ∀ p : VirtualAddress, p = 8 ∨ p = 16 → ListLink cyclicList.readKernelMemory
      cyclicList.layouts (Linux.listHead "next") (Linux.taskStruct "tasks") 8 p 16 := by
    rintro p (rfl | rfl)
    · exact ⟨by decide +kernel, by decide, 0, rfl, Nat.zero_le _⟩
    · exact ⟨by decide +kernel, by decide, 0, rfl, Nat.zero_le _⟩
  have hread : ∀ addr len, cyclicList.readKernelMemory addr len ≠ Exec.outOfFuel :=
    Linux.readKernelMemory_ne_outOfFuel (DumbDump.readsEnd _)
  have hf : Continues fun (_ : VirtualAddress) (_ : Unit) => .ok (.Continue, ()) :=
    fun _ _ => ⟨(), rfl⟩
  intro hends
  refine (goesAlong_list cyclicList.layouts (Linux.listHead "next") (Linux.taskStruct "tasks") 8
    hread hf ()).ends_iff.mp hends ?_
  exact ⟨16, .single (hlink 8 (.inl rfl)), .single (hlink 16 (.inr rfl))⟩
