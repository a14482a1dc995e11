import Vminer.Dump
import Vminer.IntervalSearch
import Vminer.Windows

/-!
# The tree of address descriptors

The descriptors of a process form a search tree in kernel memory. A walk over
all of them goes down both sides of every node, left to right; the search for
the descriptor of an address follows one path. Over a finite ordered tree the
two give the same answer, whichever of its two layouts a node has and however
its page numbers are stored: `HoldsTree` only says what the children and the
bounds of a node are read as.
-/

namespace Windows

variable {B : Type} [Memory B] [HasVcpus B] {σ : Type}

/-- `iterate_tree`. The tree is the guest's, which may make it a cycle. -/
def iterateTree (windows : Windows B) (f : Callback σ VirtualAddress) :
    ℕ → VirtualAddress → σ → Exec VmError (ControlFlow × σ)
  | 0, _, _ => Exec.outOfFuel
  | fuel + 1, ptr, s => do
    let left ← windows.leftChild ptr
    ControlFlow.andThen
      (if VirtualAddress.isNull left then return (.Continue, s)
        else iterateTree windows f fuel left s) fun s =>
    ControlFlow.andThen (f ptr s) fun s => do
    let right ← windows.rightChild ptr
    if VirtualAddress.isNull right then return (.Continue, s)
    else iterateTree windows f fuel right s

/-- `Windows::process_for_each_vma` -/
def processForEachVma (windows : Windows B) (fuel : ℕ) (proc : Os.Process)
    (f : Callback σ Os.Vma) (s : σ) : Exec VmError σ := do
  let root ← windows.vadRoot proc
  let (_, s) ← windows.iterateTree (fun mmvad => f ⟨mmvad⟩) fuel root s
  return s

/-- `Os::vma_contains` -/
def vmaContains (windows : Windows B) : Os.Vma → VirtualAddress → Exec VmError Bool :=
  Os.vmaContains windows.vmaStart windows.vmaEnd

/-- What `Os::process_find_vma_by_address` is where a guest system does not have
its own: a search through all descriptors. -/
def processFindVmaByAddressLinear (windows : Windows B) (fuel : ℕ) (proc : Os.Process) :
    VirtualAddress → Exec VmError (Option Os.Vma) :=
  Os.processFindVmaByAddress (windows.processForEachVma fuel proc) windows.vmaContains

/-! ## Trees in memory -/

/-- A descriptor: where it is and what it describes. -/
structure VadNode where
  addr : VirtualAddress
  start : VirtualAddress
  stop : VirtualAddress
deriving DecidableEq, Repr

namespace VadNode

/-- The first address, as a number. -/
def first (n : VadNode) : ℕ := n.start.toNat

/-- The address after the last one, as a number. -/
def bound (n : VadNode) : ℕ := n.stop.toNat

/-- Whether a descriptor is the one of an address. -/
def Contains (n : VadNode) (addr : VirtualAddress) : Prop := n.start ≤ addr ∧ addr < n.stop

theorem covers_iff (n : VadNode) (addr : VirtualAddress) :
    covers first bound addr.toNat n = true ↔ n.Contains addr :=
  decide_eq_true_iff

end VadNode

/-- **A tree of descriptors in kernel memory**, as the children and the bounds
of its nodes are read. -/
def HoldsTree (windows : Windows B) : BinaryTree VadNode → VirtualAddress → Prop
  | .nil, ptr => ptr = 0
  | .node n left right, ptr => ptr ≠ 0 ∧ n.addr = ptr
      ∧ windows.vmaStart ⟨ptr⟩ = .ok n.start ∧ windows.vmaEnd ⟨ptr⟩ = .ok n.stop
      ∧ (∃ l, windows.leftChild ptr = .ok l ∧ windows.HoldsTree left l)
      ∧ ∃ r, windows.rightChild ptr = .ok r ∧ windows.HoldsTree right r

variable {windows : Windows B}

/-- Only the empty tree has no address. -/
theorem HoldsTree.isNull_iff {t : BinaryTree VadNode} {ptr : VirtualAddress}
    (h : windows.HoldsTree t ptr) : VirtualAddress.isNull ptr = true ↔ t = .nil := by
  cases t with
  | nil => exact ⟨fun _ => rfl, fun _ => beq_iff_eq.mpr h⟩
  | node n l r => exact ⟨fun hnull => absurd (beq_iff_eq.mp hnull) h.1, fun heq => by cases heq⟩

/-- The bounds of a descriptor are what it is read as. -/
theorem HoldsTree.bounds {t : BinaryTree VadNode} {ptr : VirtualAddress}
    (h : windows.HoldsTree t ptr) : ∀ n ∈ t.inorder,
      windows.vmaStart ⟨n.addr⟩ = .ok n.start ∧ windows.vmaEnd ⟨n.addr⟩ = .ok n.stop := by
  induction t generalizing ptr with
  | nil => exact fun n hn => absurd hn List.not_mem_nil
  | node n l r ihl ihr =>
    obtain ⟨-, rfl, hstart, hstop, ⟨pl, -, hl⟩, pr, -, hr⟩ := h
    intro m hm
    obtain hm | hm := List.mem_append.mp hm
    · exact ihl hl m hm
    obtain rfl | hm := List.mem_cons.mp hm
    · exact ⟨hstart, hstop⟩
    · exact ihr hr m hm

/-! ## The walk and the search -/

/-- **The walk visits the nodes from left to right.** -/
theorem iterateTree_eq_forEach (f : Callback σ VirtualAddress) {t : BinaryTree VadNode}
    {ptr : VirtualAddress} (h : windows.HoldsTree t ptr) (hne : t ≠ .nil) {fuel : ℕ}
    (hfuel : t.height ≤ fuel) (s : σ) :
    windows.iterateTree f fuel ptr s = forEach f (t.inorder.map VadNode.addr) s := by
  induction t generalizing ptr fuel s with
  | nil => exact absurd rfl hne
  | node n l r ihl ihr =>
    obtain ⟨-, rfl, -, -, ⟨pl, hpl, hl⟩, pr, hpr, hr⟩ := h
    obtain ⟨fuel, rfl⟩ := Nat.exists_eq_add_one.mpr (Nat.zero_lt_of_lt hfuel)
    have hheight : max l.height r.height ≤ fuel := Nat.le_of_succ_le_succ hfuel
    -- one side of the node, which may be empty
    have hside : ∀ {t : BinaryTree VadNode} {p : VirtualAddress}, windows.HoldsTree t p →
        (t ≠ .nil → ∀ s, windows.iterateTree f fuel p s
          = forEach f (t.inorder.map VadNode.addr) s) → ∀ s,
        (if VirtualAddress.isNull p then pure (.Continue, s)
          else windows.iterateTree f fuel p s)
        = forEach f (t.inorder.map VadNode.addr) s := by
      intro t p ht ih s
      by_cases hnil : t = .nil
      · rw [if_pos (ht.isNull_iff.mpr hnil), hnil]
        rfl
      · rw [if_neg fun hnull => hnil (ht.isNull_iff.mp hnull), ih hnil]
    rw [iterateTree, hpl, Exec.ok_bind,
      hside hl fun hnil => ihl hl hnil (le_trans (le_max_left _ _) hheight),
      BinaryTree.inorder, List.map_append, forEach_append]
    refine congrArg _ (funext fun s => ?_)
    rw [List.map_cons, forEach]
    refine congrArg _ (funext fun s => ?_)
    rw [hpr, Exec.ok_bind,
      hside hr fun hnil => ihr hr hnil (le_trans (le_max_right _ _) hheight)]

/-- The comparison of `process_find_vma_by_address`. -/
def compareVma (windows : Windows B) (addr mmvad : VirtualAddress) : Exec VmError Ordering := do
  let start ← windows.vmaStart ⟨mmvad⟩
  if addr < start then return .gt
  else do
    let stop ← windows.vmaEnd ⟨mmvad⟩
    if addr < stop then return .eq else return .lt

/-- **The search is the descent.** -/
theorem findInTree_eq_descend (addr : VirtualAddress) {t : BinaryTree VadNode}
    {ptr : VirtualAddress} (h : windows.HoldsTree t ptr) (hne : t ≠ .nil) {fuel : ℕ}
    (hfuel : t.height ≤ fuel) :
    windows.findInTree (windows.compareVma addr) fuel ptr
      = .ok ((t.descend VadNode.first VadNode.bound addr.toNat).map VadNode.addr) := by
  induction t generalizing ptr fuel with
  | nil => exact absurd rfl hne
  | node n l r ihl ihr =>
    obtain ⟨-, rfl, hstart, hstop, ⟨pl, hpl, hl⟩, pr, hpr, hr⟩ := h
    obtain ⟨fuel, rfl⟩ := Nat.exists_eq_add_one.mpr (Nat.zero_lt_of_lt hfuel)
    have hheight : max l.height r.height ≤ fuel := Nat.le_of_succ_le_succ hfuel
    rw [findInTree, compareVma, hstart, Exec.ok_bind, BinaryTree.descend]
    by_cases hlt : addr < n.start
    · rw [if_pos hlt, if_pos (show addr.toNat < n.first from hlt)]
      show (windows.leftChild n.addr >>= _) = _
      rw [hpl, Exec.ok_bind]
      by_cases hnil : l = .nil
      · rw [if_pos (hl.isNull_iff.mpr hnil), hnil]
        rfl
      · rw [if_neg fun hnull => hnil (hl.isNull_iff.mp hnull)]
        exact ihl hl hnil (le_trans (le_max_left _ _) hheight)
    · rw [if_neg hlt, if_neg (show ¬ addr.toNat < n.first from hlt), hstop, Exec.ok_bind]
      by_cases hcov : addr < n.stop
      · rw [if_pos hcov, if_pos (show addr.toNat < n.bound from hcov)]
        rfl
      · rw [if_neg hcov, if_neg (show ¬ addr.toNat < n.bound from hcov)]
        show (windows.rightChild n.addr >>= _) = _
        rw [hpr, Exec.ok_bind]
        by_cases hnil : r = .nil
        · rw [if_pos (hr.isNull_iff.mpr hnil), hnil]
          rfl
        · rw [if_neg fun hnull => hnil (hr.isNull_iff.mp hnull)]
          exact ihr hr hnil (le_trans (le_max_right _ _) hheight)

/-- Whether a descriptor is the one of an address, as the code tells. -/
theorem vmaContains_eq {n : VadNode} (hstart : windows.vmaStart ⟨n.addr⟩ = .ok n.start)
    (hstop : windows.vmaEnd ⟨n.addr⟩ = .ok n.stop) (addr : VirtualAddress) :
    windows.vmaContains ⟨n.addr⟩ addr
      = .ok (covers VadNode.first VadNode.bound addr.toNat n) := by
  rw [vmaContains, Os.vmaContains, hstart, Exec.ok_bind]
  by_cases hle : n.start ≤ addr
  · rw [if_pos hle, hstop, Exec.ok_bind]
    refine congrArg Except.ok (decide_eq_decide.mpr ?_)
    exact (and_iff_right (show n.first ≤ addr.toNat from hle)).symm
  · rw [if_neg hle]
    exact congrArg Except.ok (decide_eq_false fun hc => hle hc.1).symm

/-- **The linear search is the scan.** -/
theorem processFindVmaByAddressLinear_eq {t : BinaryTree VadNode} {proc : Os.Process}
    {root : VirtualAddress} (hroot : windows.vadRoot proc = .ok root)
    (h : windows.HoldsTree t root) (hne : t ≠ .nil) {fuel : ℕ} (hfuel : t.height ≤ fuel)
    (addr : VirtualAddress) :
    windows.processFindVmaByAddressLinear fuel proc addr
      = .ok ((t.inorder.find? (covers VadNode.first VadNode.bound addr.toNat)).map
        fun n => ⟨n.addr⟩) := by
  have hscan := forEach_find (fun v => windows.vmaContains v addr)
    (fun n : VadNode => (⟨n.addr⟩ : Os.Vma)) t.inorder
    (fun n hn => vmaContains_eq (h.bounds n hn).1 (h.bounds n hn).2 addr) none
  rw [processFindVmaByAddressLinear, Os.processFindVmaByAddress, processForEachVma, hroot,
    Exec.ok_bind, iterateTree_eq_forEach _ h hne hfuel, forEach_map,
    ← forEach_map _ (fun n : VadNode => (⟨n.addr⟩ : Os.Vma)), hscan, Exec.ok_bind]
  cases t.inorder.find? (covers VadNode.first VadNode.bound addr.toNat) <;> rfl

/-- **Both searches find the descriptor of an address.** Over every finite
ordered tree in kernel memory the descent and the search through all
descriptors have the same result: the only one that contains the address, and
none if no one does. -/
theorem processFindVmaByAddress_eq_linear (windows : Windows B) (proc : Os.Process)
    (addr root : VirtualAddress) (t : BinaryTree VadNode) (fuel : ℕ)
    (hroot : windows.vadRoot proc = .ok root) (hne : root ≠ 0)
    (h : windows.HoldsTree t root) (hord : t.Ordered VadNode.first VadNode.bound)
    (hfuel : t.height ≤ fuel) :
    ∃ r, windows.processFindVmaByAddress fuel proc addr = .ok r
      ∧ windows.processFindVmaByAddressLinear fuel proc addr = .ok r
      ∧ (∀ n ∈ t.inorder, n.Contains addr → r = some ⟨n.addr⟩)
      ∧ ∀ vma, r = some vma → ∃ n ∈ t.inorder, n.addr = vma.addr ∧ n.Contains addr := by
  have hnil : t ≠ .nil := fun heq => hne (beq_iff_eq.mp (h.isNull_iff.mpr heq))
  refine ⟨_, ?_, processFindVmaByAddressLinear_eq hroot h hnil hfuel addr, ?_, ?_⟩
  · have hdescend := findInTree_eq_descend addr h hnil hfuel
    rw [BinaryTree.descend_eq_find? hord] at hdescend
    show (windows.vadRoot proc >>= fun root =>
      windows.findInTree (windows.compareVma addr) fuel root >>= fun mmvad => _) = _
    rw [hroot, Exec.ok_bind, hdescend, Exec.ok_bind, Option.map_map]
    rfl
  · intro n hn hcontains
    have hcov := (n.covers_iff addr).mpr hcontains
    obtain ⟨m, hm⟩ := Option.isSome_iff_exists.mp (List.find?_isSome.mpr ⟨n, hn, hcov⟩)
    rw [hm, hord.eq_of_covers (List.mem_of_find?_eq_some hm) hn (List.find?_some hm) hcov]
    rfl
  · intro vma hr
    obtain ⟨n, hn, rfl⟩ := Option.map_eq_some_iff.mp hr
    exact ⟨n, List.mem_of_find?_eq_some hn, rfl, (n.covers_iff addr).mp (List.find?_some hn)⟩

/-- A guest with three descriptors, in the older layout. Its first word maps
the memory to itself. -/
def threeVads : Windows (DumbDump RawMemory) where
  backend := .ofWords [0x83, 16,
    48, 80, 5, 6,
    0, 0, 2, 2,
    0, 0, 9, 9]
  kpgd := 0
  baseAddr := 0
  layouts := fun name =>
    if name = "_EPROCESS" then some fun field => if field = "VadRoot" then some 0 else none
    else if name = "_RTL_AVL_TREE" then some fun field => if field = "Root" then some 0 else none
    else if name = "_MMVAD_SHORT" then some fun field =>
      if field = "LeftChild" then some 0
      else if field = "RightChild" then some 8
      else if field = "StartingVpn" then some 16
      else if field = "EndingVpn" then some 24
      else none
    else none
  psLoadedModuleList := 0
  unswizzleMask := ~~~ 0

/-- The first address of the right descriptor is found. -/
theorem processFindVmaByAddress_threeVads :
    ∃ r, threeVads.processFindVmaByAddress 2 ⟨8⟩ 0x9000 = .ok r
      ∧ threeVads.processFindVmaByAddressLinear 2 ⟨8⟩ 0x9000 = .ok r
      ∧ r = some ⟨80⟩ := by
  let leaf := fun addr start stop : VirtualAddress =>
    BinaryTree.node (VadNode.mk addr start stop) .nil .nil
  have hheld : threeVads.HoldsTree
      (.node ⟨16, 0x5000, 0x7000⟩ (leaf 48 0x2000 0x3000) (leaf 80 0x9000 0xa000)) 16 := by
    refine ⟨by decide, rfl, by decide +kernel, by decide +kernel, ⟨48, by decide +kernel, ?_⟩,
      80, by decide +kernel, ?_⟩
    all_goals exact ⟨by decide, rfl, by decide +kernel, by decide +kernel,
      ⟨0, by decide +kernel, rfl⟩, 0, by decide +kernel, rfl⟩
  have hord : BinaryTree.Ordered VadNode.first VadNode.bound
      (.node ⟨16, 0x5000, 0x7000⟩ (leaf 48 0x2000 0x3000) (leaf 80 0x9000 0xa000)) := by
    refine ⟨by decide, by decide, by decide, ?_, ?_⟩
    all_goals exact ⟨by decide, by decide, by decide, trivial, trivial⟩
  obtain ⟨r, hr, hr', hall, -⟩ := processFindVmaByAddress_eq_linear threeVads ⟨8⟩ 0x9000 16 _ 2
    (by decide +kernel) (by decide) hheld hord (by decide)
  exact ⟨r, hr, hr', hall ⟨80, 0x9000, 0xa000⟩ (by decide) ⟨by decide, by decide⟩⟩

end Windows
