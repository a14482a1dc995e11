import Vminer.UnwindInfo
import Vminer.UnwindRanges

/-!
# What the entries of a chain undo

The loop of `unwind_with_infos` goes from an entry to its parent. For each it puts back what the
instructions of its part took from the stack that have been executed; all of a parent's have.
`UnwindData.ReadsParts` is what it reads on the way.

If the sums fit (`PartsFit`), it comes to where the stack pointer was before the first of them, and
`rbp` is where the last part to save it has it (`UnwindData.exists_chainFrom_eq_ok_iff`). In the
order of a prolog that is where it has been stored first (`slotOfParts_eq`). What is read are the
parts of the entries, if each with a parent fills an even number of slots
(`UnwindData.HoldsChain.readsParts`).
-/

open UnwindOp FunctionEntry

/-! ## What the entries of a chain undo -/

/-- Instructions that have been executed are undone, and nothing else is behind them. -/
theorem undoneOf_codes (function : FunctionEntry) (ip : Option U32)
    {codes : List (BitVec 8 × UnwindCode)} (h : ∀ code ∈ codes, code.2.op.isInstr = true) :
    undoneOf ip (codes.map fun code => some (code.1, code.2.op))
        = (codes.filter fun code => !isAhead ip code.1).map (fun code => code.2.op)
      ∧ endingOf function ip (codes.map fun code => some (code.1, code.2.op)) = .function := by
  induction codes with
  | nil => exact ⟨rfl, rfl⟩
  | cons code codes ih =>
    obtain ⟨hundone, hend⟩ := ih fun code hcode => h code (List.mem_cons_of_mem _ hcode)
    rw [List.map_cons]
    by_cases hahead : isAhead ip code.1 = true
    · rw [List.filter_cons_of_neg (by simp [hahead])]
      exact ⟨(if_pos hahead).trans hundone, (if_pos hahead).trans hend⟩
    · have hop : code.2.op.isMachFrame = false := by
        have hinstr := h code List.mem_cons_self
        cases hc : code.2.op with
        | PushMachFrame error => rw [hc] at hinstr; cases hinstr
        | _ => rfl
      obtain ⟨hcons, hcons'⟩ := undoneOf_cons function hahead hop
        (codes.map fun code => some (code.1, code.2.op))
      rw [hcons, hcons', hundone, hend, List.filter_cons_of_pos (by simp [hahead]), List.map_cons]
      exact ⟨rfl, rfl⟩

namespace UnwindInfo

/-- Whether there are only instructions of a prolog in a part. -/
def IsPart (info : UnwindInfo) : Prop := ∀ code ∈ info.codes, code.2.op.isInstr = true

/-- The operations of a part that have been executed at an offset, the last one first. Behind the
part all have been. -/
def executed (info : UnwindInfo) (ip : Option U32) : List UnwindOp :=
  (info.codes.filter fun code => !isAhead ip code.1).map fun code => code.2.op

theorem undone_entry {info : UnwindInfo} (h : info.IsPart) (ip : Option U32) :
    info.entry.undone ip = info.executed ip := by
  rw [undone, items_iterCodes]
  exact (undoneOf_codes info.entry ip h).1

theorem ending_entry {info : UnwindInfo} (h : info.IsPart) (ip : Option U32) :
    info.entry.ending ip = .function := by
  rw [ending, items_iterCodes]
  exact (undoneOf_codes info.entry ip h).2

end UnwindInfo

namespace UnwindData

/-- **A chain of entries**, from that of a function to the last parent. -/
inductive HoldsChain (data : UnwindData) : RuntimeFunction → List UnwindInfo → Prop where
  | last {rt : RuntimeFunction} {info : UnwindInfo} (holds : data.Holds rt info)
      (mother : info.mother = none) : data.HoldsChain rt [info]
  | child {rt rt' : RuntimeFunction} {info : UnwindInfo} {infos : List UnwindInfo}
      (holds : data.Holds rt info) (mother : info.mother = some rt')
      (parents : data.HoldsChain rt' infos) : data.HoldsChain rt (info :: infos)

theorem HoldsChain.holds {data : UnwindData} {rt : RuntimeFunction} {info : UnwindInfo}
    {infos : List UnwindInfo} (h : data.HoldsChain rt (info :: infos)) : data.Holds rt info := by
  cases h with
  | last holds _ => exact holds
  | child holds _ _ => exact holds

/-- An entry that is not the last has its parent behind it. -/
theorem HoldsChain.exists_mother {data : UnwindData} {rt : RuntimeFunction} {info : UnwindInfo}
    {infos : List UnwindInfo} (h : data.HoldsChain rt (info :: infos)) (hne : infos ≠ []) :
    ∃ rt', info.mother = some rt' ∧ data.HoldsChain rt' infos := by
  cases h with
  | last _ _ => exact absurd rfl hne
  | child _ mother parents => exact ⟨_, mother, parents⟩

/-- The function of a chain is in the image. -/
theorem HoldsChain.inside {data : UnwindData} {rt : RuntimeFunction} {infos : List UnwindInfo}
    (h : data.HoldsChain rt infos) :
    rt.start.toNat < rt.stop.toNat ∧ rt.stop.toNat ≤ data.content.length := by
  cases h with
  | last holds _ => exact ⟨holds.nonempty, holds.inside⟩
  | child holds _ _ => exact ⟨holds.nonempty, holds.inside⟩

end UnwindData

/-- What has been executed of the parts of a chain, part by part. The parents are executed when
their child is. -/
def executedParts : Option U32 → List UnwindInfo → List (List UnwindOp)
  | _, [] => []
  | ip, info :: infos => info.executed ip :: executedParts none infos

/-- **The sums for some parts fit**: the size of each, where it saves `rbp`, and what is behind
the return address. -/
def PartsFit : ℕ → List (List UnwindOp) → Prop
  | sp, [] => sp + 8 < 2 ^ 64
  | sp, part :: parts =>
    totalSize part < 2 ^ 32 ∧ (∀ n ∈ lastSlot part 0 none, sp + n < 2 ^ 64)
      ∧ sp + totalSize part < 2 ^ 64 ∧ PartsFit (sp + totalSize part) parts

/-- Where some parts have saved `rbp`. A parent's place is taken instead of a child's. -/
def slotOfParts : VirtualAddress → Option VirtualAddress → List (List UnwindOp) →
    Option VirtualAddress
  | _, bpAddr, [] => bpAddr
  | sp, bpAddr, part :: parts =>
    slotOfParts (sp + BitVec.ofNat 64 (totalSize part))
      (((lastSlot part 0 none).map fun n => sp + BitVec.ofNat 64 n).or bpAddr) parts

namespace UnwindData

/-- The place of `rbp` has to fit. -/
theorem exists_bpAddrFrom_bind_eq_ok_iff {α : Type} {slot : Option ℕ}
    (hslot : ∀ n ∈ slot, n < 2 ^ 32) (sp : VirtualAddress) (bpAddr : Option VirtualAddress)
    (f : Option VirtualAddress → Exec VmError α) (Q : α → Prop) :
    (∃ res, (bpAddrFrom sp (slot.map (BitVec.ofNat 32)) bpAddr >>= f) = .ok res ∧ Q res)
      ↔ (∀ n ∈ slot, sp.toNat + n < 2 ^ 64)
        ∧ ∃ res, f ((slot.map fun n => sp + BitVec.ofNat 64 n).or bpAddr) = .ok res ∧ Q res := by
  cases slot with
  | none => exact (and_iff_right fun _ h => (nomatch h)).symm
  | some n =>
    rw [Option.map_some, bpAddrFrom, bind_assoc, exists_checkedAdd_bind_eq_ok_iff,
      toNat_setWidth_ofNat (hslot n rfl), setWidth_ofNat_of_lt (hslot n rfl)]
    exact and_congr_left fun _ => ⟨fun h m hm => Option.some.inj hm ▸ h, fun h => h n rfl⟩

/-- How the loop goes on from where the stack pointer was before an entry: to its parent, or to
the return address. -/
def chainAfter (data : UnwindData) (n : ℕ) (mother : Option RuntimeFunction) (sp : VirtualAddress)
    (bpAddr : Option VirtualAddress) (funStart : VirtualAddress) : Exec VmError UnwindResult :=
  match mother with
  | some mother => do
    let _ ← Exec.okOr (data.parseFunction mother) (.new "failed to parse unwind data")
    let funStart ← checkedAdd data.offset (mother.start.setWidth 64)
    data.chainFrom n (none, mother, sp, bpAddr, funStart)
  | none => do
    let addr ← checkedAdd sp 8
    return { nextSp := .Value addr, nextIpAddr := sp, nextBpAddr := bpAddr,
             funStart := some funStart }

/-- **What is read along a chain of entries**: the operations that each of them undoes, from an
entry to one without a parent. -/
inductive ReadsParts (data : UnwindData) :
    Option U32 → RuntimeFunction → List (List UnwindOp) → Prop where
  | last {ip : Option U32} {rt : RuntimeFunction} {function : FunctionEntry}
      (parse : data.parseFunction rt = some function) (ending : function.ending ip = .function)
      (mother : function.mother = none) : data.ReadsParts ip rt [function.undone ip]
  | child {ip : Option U32} {rt rt' : RuntimeFunction} {function : FunctionEntry}
      {parts : List (List UnwindOp)} (parse : data.parseFunction rt = some function)
      (ending : function.ending ip = .function) (mother : function.mother = some rt')
      (start : data.offset.toNat + rt'.start.toNat < 2 ^ 64)
      (parents : data.ReadsParts none rt' parts) :
      data.ReadsParts ip rt (function.undone ip :: parts)

/-- It is read in one way only. -/
theorem ReadsParts.unique {data : UnwindData} {ip : Option U32} {rt : RuntimeFunction}
    {parts parts' : List (List UnwindOp)} (h : data.ReadsParts ip rt parts)
    (h' : data.ReadsParts ip rt parts') : parts = parts' := by
  induction h generalizing parts' with
  | last parse _ mother =>
    cases h' with
    | last parse' _ _ => rw [Option.some.inj (parse.symm.trans parse')]
    | child parse' _ mother' _ _ =>
      obtain rfl := Option.some.inj (parse.symm.trans parse')
      cases mother.symm.trans mother'
  | child parse _ mother _ _ ih =>
    cases h' with
    | last parse' _ mother' =>
      obtain rfl := Option.some.inj (parse.symm.trans parse')
      cases mother.symm.trans mother'
    | child parse' _ mother' _ parents' =>
      obtain rfl := Option.some.inj (parse.symm.trans parse')
      obtain rfl := Option.some.inj (mother.symm.trans mother')
      rw [ih parents']

/-- An entry from which something is read parses. -/
theorem ReadsParts.exists_parse {data : UnwindData} {ip : Option U32} {rt : RuntimeFunction}
    {parts : List (List UnwindOp)} (h : data.ReadsParts ip rt parts) :
    ∃ function, data.parseFunction rt = some function := by
  cases h with
  | last parse _ _ => exact ⟨_, parse⟩
  | child parse _ _ _ _ => exact ⟨_, parse⟩

/-- What is read from an entry with a parent. -/
theorem readsParts_iff_of_mother {data : UnwindData} {rt rt' : RuntimeFunction}
    {function : FunctionEntry} (hparse : data.parseFunction rt = some function) {ip : Option U32}
    (hend : function.ending ip = .function) (hmother : function.mother = some rt')
    (parts : List (List UnwindOp)) :
    data.ReadsParts ip rt parts
      ↔ data.offset.toNat + rt'.start.toNat < 2 ^ 64
        ∧ ∃ rest, data.ReadsParts none rt' rest ∧ parts = function.undone ip :: rest := by
  constructor
  · intro h
    cases h with
    | last parse _ mother =>
      obtain rfl := Option.some.inj (hparse.symm.trans parse)
      cases hmother.symm.trans mother
    | child parse _ mother start parents =>
      obtain rfl := Option.some.inj (hparse.symm.trans parse)
      obtain rfl := Option.some.inj (hmother.symm.trans mother)
      exact ⟨start, _, parents, rfl⟩
  · rintro ⟨start, rest, parents, rfl⟩
    exact .child hparse hend hmother start parents

/-- **Padding before the record of a parent**, for the first time in a chain. -/
structure PaddedAt (infos front : List UnwindInfo) (padded : UnwindInfo)
    (mother : RuntimeFunction) : Prop where
  append : ∃ back, infos = front ++ padded :: back
  even : ∀ info ∈ front, info.mother.isSome = true → info.IsEven
  odd : ¬ padded.IsEven
  mother_eq : padded.mother = some mother

theorem exists_paddedAt {infos : List UnwindInfo}
    (h : ¬ ∀ info ∈ infos, info.mother.isSome = true → info.IsEven) :
    ∃ front padded mother, PaddedAt infos front padded mother := by
  induction infos with
  | nil => exact absurd (fun _ h => absurd h List.not_mem_nil) h
  | cons info infos ih =>
    by_cases heven : info.mother.isSome = true → info.IsEven
    · obtain ⟨front, padded, mother, ⟨back, rfl⟩, hfront, hodd, hmother⟩ := ih fun hall =>
        h (List.forall_mem_cons.mpr ⟨heven, hall⟩)
      exact ⟨info :: front, padded, mother, ⟨back, rfl⟩, List.forall_mem_cons.mpr ⟨heven, hfront⟩,
        hodd, hmother⟩
    · obtain ⟨hsome, hodd⟩ := Classical.not_imp.mp heven
      obtain ⟨mother, hmother⟩ := Option.isSome_iff_exists.mp hsome
      exact ⟨[], info, mother, ⟨infos, rfl⟩, fun _ h => absurd h List.not_mem_nil, hodd, hmother⟩

/-- **What is read of a chain with padding** are the parts up to it, and then what is at the record
that is read instead of the parent's. -/
theorem HoldsChain.readsParts_iff_of_paddedAt {data : UnwindData}
    (himage : data.offset.toNat + data.content.length ≤ 2 ^ 64) {rt : RuntimeFunction}
    {infos front : List UnwindInfo} {padded : UnwindInfo} {mother : RuntimeFunction}
    (h : data.HoldsChain rt infos) (hparts : ∀ info ∈ infos, info.IsPart)
    (hpadded : PaddedAt infos front padded mother) (ip : Option U32)
    (parts : List (List UnwindOp)) :
    data.ReadsParts ip rt parts
      ↔ data.offset.toNat + (padded.misread mother).start.toNat < 2 ^ 64
        ∧ ∃ rest, data.ReadsParts none (padded.misread mother) rest
          ∧ parts = executedParts ip (front ++ [padded]) ++ rest := by
  obtain ⟨⟨back, rfl⟩, heven, hodd, hmother⟩ := hpadded
  induction front generalizing rt ip parts with
  | nil =>
    have hpart := hparts padded List.mem_cons_self
    have hread : padded.entry.mother = some (padded.misread mother) :=
      (padded.readMother_of_odd hodd).trans (by rw [hmother, Option.map_some])
    rw [readsParts_iff_of_mother (parseFunction_of_holds h.holds) (padded.ending_entry hpart ip)
      hread, padded.undone_entry hpart]
    rfl
  | cons info front ih =>
    obtain ⟨rt', hmother', hparents⟩ := h.exists_mother (List.append_ne_nil_of_right_ne_nil _
      (List.cons_ne_nil _ _))
    have hpart := hparts info List.mem_cons_self
    have hread : info.entry.mother = some rt' := (info.readMother_of_even
      (heven info List.mem_cons_self (by rw [hmother']; rfl))).trans hmother'
    have hstart : data.offset.toNat + rt'.start.toNat < 2 ^ 64 := by
      obtain ⟨hnonempty, hinside⟩ := hparents.inside
      omega
    have hrest := fun parts => ih none parts
      (fun info' h => heven info' (List.mem_cons_of_mem _ h)) hparents
      fun info' h => hparts info' (List.mem_cons_of_mem _ h)
    rw [readsParts_iff_of_mother (parseFunction_of_holds h.holds) (info.ending_entry hpart ip)
      hread, and_iff_right hstart, info.undone_entry hpart]
    simp only [hrest]
    constructor
    · rintro ⟨_, ⟨hfits, rest, hreads, rfl⟩, rfl⟩
      exact ⟨hfits, rest, hreads, rfl⟩
    · rintro ⟨hfits, rest, hreads, rfl⟩
      exact ⟨_, ⟨hfits, rest, hreads, rfl⟩, rfl⟩

/-- **What is read of a chain of entries** are its parts, if there is no padding before the record
of a parent. -/
theorem HoldsChain.readsParts {data : UnwindData}
    (himage : data.offset.toNat + data.content.length ≤ 2 ^ 64) {rt : RuntimeFunction}
    {infos : List UnwindInfo} (h : data.HoldsChain rt infos)
    (hparts : ∀ info ∈ infos, info.IsPart)
    (heven : ∀ info ∈ infos, info.mother.isSome = true → info.IsEven) (ip : Option U32) :
    data.ReadsParts ip rt (executedParts ip infos) := by
  induction h generalizing ip with
  | @last rt info holds mother =>
    have hpart := hparts info List.mem_cons_self
    have hmother : info.entry.mother = none := by
      show info.mother.map _ = none
      rw [mother, Option.map_none]
    rw [executedParts, executedParts, ← info.undone_entry hpart]
    exact .last (parseFunction_of_holds holds) (info.ending_entry hpart ip) hmother
  | @child rt rt' info infos holds mother parents ih =>
    have hpart := hparts info List.mem_cons_self
    have hmother : info.entry.mother = some rt' :=
      (info.readMother_of_even (heven info List.mem_cons_self (by rw [mother]; rfl))).trans mother
    have hstart : data.offset.toNat + rt'.start.toNat < 2 ^ 64 := by
      obtain ⟨hnonempty, hinside⟩ := parents.inside
      omega
    rw [executedParts, ← info.undone_entry hpart]
    exact .child (parseFunction_of_holds holds) (info.ending_entry hpart ip) hmother hstart
      (ih (fun info' h => hparts info' (List.mem_cons_of_mem _ h))
        (fun info' h => heven info' (List.mem_cons_of_mem _ h)) none)

/-- **An entry is undone** if its sums fit. -/
theorem exists_chainFrom_succ_eq_ok_iff {data : UnwindData} {rt : RuntimeFunction}
    {function : FunctionEntry} (hparse : data.parseFunction rt = some function) {ip : Option U32}
    (hend : function.ending ip = .function) (n : ℕ) (sp : VirtualAddress)
    (bpAddr : Option VirtualAddress) (funStart : VirtualAddress) (Q : UnwindResult → Prop) :
    (∃ res, data.chainFrom (n + 1) (ip, rt, sp, bpAddr, funStart) = .ok res ∧ Q res)
      ↔ totalSize (function.undone ip) < 2 ^ 32
        ∧ (∀ n ∈ lastSlot (function.undone ip) 0 none, sp.toNat + n < 2 ^ 64)
        ∧ sp.toNat + totalSize (function.undone ip) < 2 ^ 64
        ∧ ∃ res, data.chainAfter n function.mother
            (sp + BitVec.ofNat 64 (totalSize (function.undone ip)))
            (((lastSlot (function.undone ip) 0 none).map fun n => sp + BitVec.ofNat 64 n).or bpAddr)
            funStart = .ok res ∧ Q res := by
  have hsize : function.stackSize ip = totalSize (function.undone ip) := rfl
  have hslot : function.rbpSlot ip = lastSlot (function.undone ip) 0 none := rfl
  rw [chainFrom_succ_of_parse hparse, readUnwindCodes_eq, hend, hsize, hslot, finish]
  by_cases hfits : totalSize (function.undone ip) < 2 ^ 32
  · rw [if_pos hfits, and_iff_right hfits]
    rw [Exec.ok_bind, exists_bpAddrFrom_bind_eq_ok_iff (hslot ▸ rbpSlot_lt (hsize ▸ hfits))]
    refine and_congr_right fun _ => ?_
    rw [chainStep, bind_assoc, exists_checkedAdd_bind_eq_ok_iff, toNat_setWidth_ofNat hfits,
      setWidth_ofNat_of_lt hfits]
    refine and_congr_right fun _ => ?_
    unfold chainAfter
    cases function.mother with
    | none => simp only [bind_assoc, Exec.pure_eq_ok, Exec.ok_bind, Sum.elim_inl]
    | some mother => simp only [bind_assoc, Exec.pure_eq_ok, Exec.ok_bind, Sum.elim_inr]
  · rw [if_neg hfits]
    refine iff_of_false ?_ fun h => hfits h.1
    rintro ⟨_, h, _⟩
    cases h

/-- Where the stack pointer is computed, there is no machine frame in the entry. -/
theorem ending_of_chainFrom {data : UnwindData} {rt : RuntimeFunction} {function : FunctionEntry}
    (hparse : data.parseFunction rt = some function) {n : ℕ} {ip : Option U32}
    {sp : VirtualAddress} {bpAddr : Option VirtualAddress} {funStart addr : VirtualAddress}
    {res : UnwindResult} (h : data.chainFrom (n + 1) (ip, rt, sp, bpAddr, funStart) = .ok res)
    (hsp : res.nextSp = .Value addr) : function.ending ip = .function := by
  rw [chainFrom_succ_of_parse hparse] at h
  obtain ⟨⟨slot, step⟩, hcodes, h⟩ := (Exec.bind_eq_ok_iff _ _ _).mp h
  cases step with
  | SpOffset size => exact (ending_of_readUnwindCodes hcodes).2.1
  | MachInst offset =>
    obtain ⟨_, -, h⟩ := (Exec.bind_eq_ok_iff _ _ _).mp h
    obtain ⟨_, hstep, h⟩ := (Exec.bind_eq_ok_iff _ _ _).mp h
    obtain ⟨_, -, hstep⟩ := (Exec.bind_eq_ok_iff _ _ _).mp hstep
    obtain ⟨_, -, hstep⟩ := (Exec.bind_eq_ok_iff _ _ _).mp hstep
    obtain rfl := Except.ok.inj hstep
    obtain rfl := Except.ok.inj h
    cases hsp

/-- A loop that computes the stack pointer has put back what it reads, part by part. -/
theorem exists_readsParts_of_chainFrom (data : UnwindData) {n : ℕ} {ip : Option U32}
    {rt : RuntimeFunction} {sp : VirtualAddress} {bpAddr : Option VirtualAddress}
    {funStart addr : VirtualAddress} {res : UnwindResult}
    (hres : data.chainFrom n (ip, rt, sp, bpAddr, funStart) = .ok res)
    (hsp : res.nextSp = .Value addr) :
    ∃ parts, data.ReadsParts ip rt parts ∧ PartsFit sp.toNat parts
      ∧ sp + BitVec.ofNat 64 (totalSize parts.flatten) + 8 = addr
      ∧ sp + BitVec.ofNat 64 (totalSize parts.flatten) = res.nextIpAddr
      ∧ slotOfParts sp bpAddr parts = res.nextBpAddr := by
  induction n generalizing ip rt sp bpAddr funStart with
  | zero => cases hres
  | succ n ih =>
    cases hparse : data.parseFunction rt with
    | none =>
      rw [chainFrom_succ, chainRound, hparse] at hres
      cases hres
    | some function =>
      have hend := ending_of_chainFrom hparse hres hsp
      obtain ⟨hsize, hslot, hfits, res', hres', rfl⟩ := (exists_chainFrom_succ_eq_ok_iff hparse
        hend n sp bpAddr funStart (· = res)).mp ⟨res, hres, rfl⟩
      cases hmother : function.mother with
      | none =>
        rw [hmother] at hres'
        obtain ⟨top, htop, hres'⟩ := (Exec.bind_eq_ok_iff _ _ _).mp hres'
        obtain ⟨hnext, rfl⟩ := (checkedAdd_eq_ok_iff _ _ _).mp htop
        obtain rfl := Except.ok.inj hres'
        obtain rfl := NextSp.Value.inj hsp
        rw [toNat_add_ofNat_of_lt hfits] at hnext
        refine ⟨_, .last hparse hend hmother, ⟨hsize, hslot, hfits, hnext⟩, ?_⟩
        rw [slotOfParts, slotOfParts, List.flatten_singleton]
        exact ⟨rfl, rfl, rfl⟩
      | some rt' =>
        rw [hmother] at hres'
        obtain ⟨_, _, hres'⟩ := (Exec.bind_eq_ok_iff _ _ _).mp hres'
        obtain ⟨start, hstart, hres'⟩ := (Exec.bind_eq_ok_iff _ _ _).mp hres'
        have hstart := ((checkedAdd_eq_ok_iff _ _ _).mp hstart).1
        rw [BitVec.toNat_setWidth_of_le (by decide)] at hstart
        obtain ⟨parts, hparts, hpartsFit, hright⟩ := ih hres'
        refine ⟨_, .child hparse hend hmother hstart hparts, ⟨hsize, hslot, hfits, ?_⟩, ?_⟩
        · rwa [toNat_add_ofNat_of_lt hfits] at hpartsFit
        · rw [slotOfParts, List.flatten_cons, totalSize_append, BitVec.ofNat_add,
            ← BitVec.add_assoc]
          exact hright

/-- A loop that reads parts for which the sums fit computes the stack pointer. -/
theorem ReadsParts.exists_chainFrom_eq_ok {data : UnwindData} {ip : Option U32}
    {rt : RuntimeFunction} {parts : List (List UnwindOp)} (h : data.ReadsParts ip rt parts)
    {sp : VirtualAddress} (hfits : PartsFit sp.toNat parts) (bpAddr : Option VirtualAddress)
    (funStart : VirtualAddress) :
    ∃ n res, data.chainFrom n (ip, rt, sp, bpAddr, funStart) = .ok res
      ∧ res.nextSp = .Value (sp + BitVec.ofNat 64 (totalSize parts.flatten) + 8)
      ∧ res.nextIpAddr = sp + BitVec.ofNat 64 (totalSize parts.flatten)
      ∧ res.nextBpAddr = slotOfParts sp bpAddr parts := by
  induction h generalizing sp bpAddr funStart with
  | last parse ending mother =>
    obtain ⟨hsize, hslot, hfits, hnext⟩ := hfits
    rw [slotOfParts, slotOfParts, List.flatten_singleton]
    obtain ⟨res, hres, rfl⟩ := (exists_chainFrom_succ_eq_ok_iff parse ending 0 sp bpAddr
      funStart (· = _)).mpr ⟨hsize, hslot, hfits, _, by
        rw [mother, chainAfter, checkedAdd_eq_ok (by rwa [toNat_add_ofNat_of_lt hfits])]
        rfl, rfl⟩
    exact ⟨1, _, hres, rfl, rfl, rfl⟩
  | @child ip rt rt' function parts parse ending mother start parents ih =>
    obtain ⟨hsize, hslot, hsum, hrest⟩ := hfits
    rw [slotOfParts, List.flatten_cons, totalSize_append, BitVec.ofNat_add, ← BitVec.add_assoc]
    rw [← toNat_add_ofNat_of_lt hsum] at hrest
    obtain ⟨n, res, hres, hright⟩ := ih hrest _ (data.offset + rt'.start.setWidth 64)
    obtain ⟨function', hparse'⟩ := parents.exists_parse
    obtain ⟨res', hres', rfl⟩ := (exists_chainFrom_succ_eq_ok_iff parse ending n sp bpAddr
      funStart (· = res)).mpr
      ⟨hsize, hslot, hsum, res, by
        rw [mother, chainAfter, hparse', Exec.okOr, Exec.ok_bind, checkedAdd_eq_ok (by
          rwa [BitVec.toNat_setWidth_of_le (by decide)]), Exec.ok_bind]
        exact hres, rfl⟩
    exact ⟨n + 1, res', hres', hright⟩

/-- **The loop of `unwind_with_infos`** computes the stack pointer exactly if the sums for what it
reads fit: it puts that back, part by part. -/
theorem exists_chainFrom_eq_ok_iff (data : UnwindData) (ip : Option U32) (rt : RuntimeFunction)
    (sp : VirtualAddress) (bpAddr : Option VirtualAddress) (funStart : VirtualAddress)
    (Q : VirtualAddress → VirtualAddress → Option VirtualAddress → Prop) :
    (∃ n res addr, data.chainFrom n (ip, rt, sp, bpAddr, funStart) = .ok res
        ∧ res.nextSp = .Value addr ∧ Q addr res.nextIpAddr res.nextBpAddr)
      ↔ ∃ parts, data.ReadsParts ip rt parts ∧ PartsFit sp.toNat parts
        ∧ Q (sp + BitVec.ofNat 64 (totalSize parts.flatten) + 8)
          (sp + BitVec.ofNat 64 (totalSize parts.flatten)) (slotOfParts sp bpAddr parts) := by
  constructor
  · rintro ⟨n, res, addr, hres, hsp, hQ⟩
    obtain ⟨parts, hparts, hfits, rfl, hip, hbp⟩ := data.exists_readsParts_of_chainFrom hres hsp
    rw [← hip, ← hbp] at hQ
    exact ⟨parts, hparts, hfits, hQ⟩
  · rintro ⟨parts, hparts, hfits, hQ⟩
    obtain ⟨n, res, hres, hsp, hip, hbp⟩ := hparts.exists_chainFrom_eq_ok hfits bpAddr funStart
    exact ⟨n, res, _, hres, hsp, by rwa [hip, hbp]⟩

end UnwindData

/-! ## Where `rbp` is, and when the sums fit -/

namespace UnwindOp

/-- **What is saved elsewhere is saved last**: nothing is put back before it. -/
def SavesLast (undone : List UnwindOp) : Prop :=
  ∀ front back offset, undone = front ++ .Save Reg.rbp offset :: back → totalSize front = 0

theorem totalSize_reverse (ops : List UnwindOp) : totalSize ops.reverse = totalSize ops := by
  rw [totalSize, List.map_reverse, List.sum_reverse]
  rfl

/-- So it is in a prolog. -/
theorem savesLast_of_isProlog {undone : List UnwindOp} (h : IsProlog undone.reverse) :
    SavesLast undone := by
  rintro front back offset rfl
  have hsize := (h.saved back.reverse front.reverse offset (by simp)).1
  rwa [totalSize_reverse] at hsize

/-- Where an instruction has stored `rbp`, as a number and as an address. -/
theorem map_slotOf (rsp : VirtualAddress) {below : ℕ} {op : UnwindOp}
    (h : ∀ offset, op = .Save Reg.rbp offset → below = 0) :
    (op.slotOf below).map (fun n => rsp + BitVec.ofNat 64 n)
      = op.slotAt (rsp + BitVec.ofNat 64 below) := by
  cases op with
  | Push reg =>
    show (if reg = Reg.rbp then some below else none).map _
      = if reg = Reg.rbp then some (rsp + BitVec.ofNat 64 below) else none
    split <;> rfl
  | Save reg offset =>
    show (if reg = Reg.rbp then some offset.toNat else none).map _
      = if reg = Reg.rbp then some (rsp + BitVec.ofNat 64 below + offset.setWidth 64) else none
    by_cases hreg : reg = Reg.rbp
    · obtain rfl := h offset (by rw [hreg])
      rw [if_pos hreg, if_pos hreg, Option.map_some, BitVec.ofNat_toNat,
        show rsp + BitVec.ofNat 64 0 = rsp from BitVec.add_zero rsp]
    · rw [if_neg hreg, if_neg hreg]
      rfl
  | _ => rfl

/-- **The last slot of a part** is where its first instruction to store `rbp` put it. -/
theorem map_lastSlot (rsp : VirtualAddress) (part : List UnwindOp) (below : ℕ) (slot : Option ℕ)
    (h : ∀ front back offset, part = front ++ .Save Reg.rbp offset :: back →
      below + totalSize front = 0) :
    (lastSlot part below slot).map (fun n => rsp + BitVec.ofNat 64 n)
      = (firstSlot (rsp + BitVec.ofNat 64 below) part).or
          (slot.map fun n => rsp + BitVec.ofNat 64 n) := by
  induction part generalizing below slot with
  | nil => rfl
  | cons op part ih =>
    have hop : (op.slotOf below).map (fun n => rsp + BitVec.ofNat 64 n)
        = op.slotAt (rsp + BitVec.ofNat 64 below) :=
      map_slotOf rsp fun offset heq => h [] part offset (by rw [heq]; rfl)
    rw [lastSlot, firstSlot, ih, Option.map_or, hop, BitVec.ofNat_add, ← BitVec.add_assoc,
      Option.or_assoc]
    intro front back offset heq
    have hsize := h (op :: front) back offset (by rw [heq]; rfl)
    rwa [totalSize_cons, ← Nat.add_assoc] at hsize

/-- It is among what the part took from the stack, or `rbp` was saved elsewhere. -/
theorem lt_of_mem_lastSlot {part : List UnwindOp} {below n : ℕ} {slot : Option ℕ}
    (hn : n ∈ lastSlot part below slot) (hslot : ∀ n ∈ slot, n < below) :
    n < below + totalSize part
      ∨ ∃ front back offset, part = front ++ .Save Reg.rbp offset :: back := by
  induction part generalizing below slot with
  | nil => exact Or.inl (hslot n hn)
  | cons op part ih =>
    by_cases hsave : ∃ offset, op = .Save Reg.rbp offset
    · obtain ⟨offset, rfl⟩ := hsave
      exact Or.inr ⟨[], part, offset, rfl⟩
    · have hop : ∀ m ∈ (op.slotOf below).or slot, m < below + op.size := by
        intro m hm
        obtain hm | ⟨-, hm⟩ := Option.or_eq_some_iff.mp hm
        · cases op with
          | Push reg =>
            obtain rfl := Option.some.inj (Option.ite_none_right_eq_some.mp hm).2
            exact Nat.lt_add_of_pos_right (show 0 < 8 by decide)
          | Save reg offset =>
            exact absurd ⟨offset, by rw [(Option.ite_none_right_eq_some.mp hm).1]⟩ hsave
          | _ => cases hm
        · exact (hslot m hm).trans_le (Nat.le_add_right _ _)
      rw [totalSize_cons, ← Nat.add_assoc]
      refine (ih hn hop).imp_right ?_
      rintro ⟨front, back, offset, rfl⟩
      exact ⟨op :: front, back, offset, rfl⟩

/-- What is saved last in some parts is so in those behind the first, which took nothing. -/
theorem SavesLast.right {part undone : List UnwindOp} (h : SavesLast (part ++ undone))
    {front back : List UnwindOp} {offset : U32}
    (heq : undone = front ++ .Save Reg.rbp offset :: back) :
    totalSize part = 0 ∧ totalSize front = 0 := by
  have hsize := h (part ++ front) back offset (by rw [heq, List.append_assoc])
  rw [totalSize_append] at hsize
  exact Nat.add_eq_zero_iff.mp hsize

theorem SavesLast.left {part undone : List UnwindOp} (h : SavesLast (part ++ undone)) :
    SavesLast part :=
  fun front back offset heq => h front (back ++ undone) offset (by
    rw [heq, List.append_assoc]
    rfl)

end UnwindOp

/-- **The place of `rbp` that is found** is where the first instruction to store it put it. -/
theorem slotOfParts_eq (rsp : VirtualAddress) (bpAddr : Option VirtualAddress)
    {parts : List (List UnwindOp)} (h : SavesLast parts.flatten) :
    slotOfParts rsp bpAddr parts = (firstSlot rsp parts.flatten).or bpAddr := by
  induction parts generalizing rsp bpAddr with
  | nil => rfl
  | cons part parts ih =>
    rw [List.flatten_cons] at h ⊢
    have hslot := map_lastSlot rsp part 0 none fun front back offset heq => by
      rw [Nat.zero_add]
      exact h.left front back offset heq
    rw [show rsp + BitVec.ofNat 64 0 = rsp from BitVec.add_zero rsp, Option.map_none,
      Option.or_none] at hslot
    rw [slotOfParts, ih _ _ fun front back offset heq => (h.right heq).2, hslot, firstSlot_append,
      Option.or_assoc]

/-- **When the sums fit**: what each part took from the stack fits 32 bits, and neither the
return address nor where `rbp` is saved is too far. -/
theorem partsFit_iff {sp : ℕ} {parts : List (List UnwindOp)} (h : SavesLast parts.flatten) :
    PartsFit sp parts
      ↔ (∀ part ∈ parts, totalSize part < 2 ^ 32) ∧ sp + totalSize parts.flatten + 8 < 2 ^ 64
        ∧ ∀ part ∈ parts, ∀ n ∈ lastSlot part 0 none, sp + n < 2 ^ 64 := by
  induction parts generalizing sp with
  | nil => simp [PartsFit]
  | cons part parts ih =>
    rw [List.flatten_cons] at h ⊢
    rw [PartsFit, ih fun front back offset heq => (h.right heq).2, totalSize_append,
      List.forall_mem_cons, List.forall_mem_cons]
    have hslots : sp + (totalSize part + totalSize parts.flatten) + 8 < 2 ^ 64 →
        ((∀ part' ∈ parts, ∀ n ∈ lastSlot part' 0 none, sp + totalSize part + n < 2 ^ 64)
          ↔ ∀ part' ∈ parts, ∀ n ∈ lastSlot part' 0 none, sp + n < 2 ^ 64) := by
      intro hsum
      refine forall₂_congr fun part' hpart' => forall₂_congr fun n hn => ?_
      obtain hlt | ⟨front, back, offset, heq⟩ := lt_of_mem_lastSlot hn fun _ h => (nomatch h)
      · have hle : totalSize part' ≤ totalSize parts.flatten := by
          obtain ⟨front, back, heq⟩ := List.append_of_mem hpart'
          rw [heq, List.flatten_append, List.flatten_cons, totalSize_append, totalSize_append]
          omega
        exact iff_of_true (by omega) (by omega)
      · obtain ⟨front', back', heq'⟩ := List.append_of_mem hpart'
        have hlater : parts.flatten
            = (front'.flatten ++ front) ++ .Save Reg.rbp offset :: (back ++ back'.flatten) := by
          rw [heq', List.flatten_append, List.flatten_cons, heq]
          simp
        have hzero : totalSize part = 0 := (h.right hlater).1
        rw [hzero, Nat.add_zero]
    constructor
    · rintro ⟨hsize, hslot, -, hsizes, hsum, hrest⟩
      have hsum' : sp + (totalSize part + totalSize parts.flatten) + 8 < 2 ^ 64 := by omega
      exact ⟨⟨hsize, hsizes⟩, hsum', hslot, (hslots hsum').mp hrest⟩
    · rintro ⟨⟨hsize, hsizes⟩, hsum, hslot, hrest⟩
      exact ⟨hsize, hslot, by omega, hsizes, by omega, (hslots hsum).mpr hrest⟩

