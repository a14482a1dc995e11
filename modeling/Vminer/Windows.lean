import Vminer.Os

/-!
# Windows guests

The state the tool keeps of a Windows guest, and the memory of its processes.
`read_virtual_memory_raw` first lets the backend translate an address. Where
the hardware walk meets an entry that is not valid, the entry is read again as
what Windows stores in it: a page in transition, a page of zeros, a prototype
entry kept elsewhere, or nothing, in which case the tree of virtual address
descriptors (VADs) of the process tells where to look.

The tree is read from kernel memory, which is read without a process, so the
two readers do not depend on each other (`readVirtualMemoryRawWith` is the part
they share).
-/

/-! ## Page table entries -/

/-- `MmPte` -/
abbrev MmPte : Type := U64

/-- `MmPteKind` -/
inductive MmPteKind where
  | Software
  | Transition
  | Vad
  | Zero
  | Unknown
deriving DecidableEq, Repr

/-- `VAD_MASK` -/
def vadMask : U64 := 0xffffffff00000000

namespace MmPte

/-- `MMPTE_VALID_BIT` -/
def validBit : U64 := (1 : U64) <<< 0

/-- `MMPTE_SWIZZLE_BIT` -/
def swizzleBit : U64 := (1 : U64) <<< 4

/-- `MMPTE_SOFTWARE_BIT` -/
def softwareBit : U64 := (1 : U64) <<< 10

/-- `MMPTE_TRANSITION_BIT` -/
def transitionBit : U64 := (1 : U64) <<< 11

/-- `MmPte::is_valid` -/
def isValid (pte : MmPte) : Bool := pte &&& validBit != 0

/-- `MmPte::transition_page` -/
def transitionPage (pte : MmPte) : PhysicalAddress := pte &&& maskRange 12 40

/-- `MmPte::classify` -/
def classify (pte : MmPte) : MmPteKind :=
  if pte &&& softwareBit ≠ 0 then
    if pte &&& vadMask = vadMask then .Vad else .Software
  else if pte = 0 then .Vad
  else if pte &&& transitionBit ≠ 0 then .Transition
  else if pte >>> 32 = 0 then .Zero
  else .Unknown

end MmPte

/-! ## The guest -/

/-- `Windows`: the backend and what was found out when the guest was
recognised. Of the profile these are the layouts of structures and the one
symbol that modules are found by. -/
structure Windows (B : Type) where
  backend : B
  kpgd : PhysicalAddress
  baseAddr : VirtualAddress
  layouts : Layouts
  psLoadedModuleList : U64
  unswizzleMask : U64

namespace Windows

/-- Fields of `_EPROCESS`. -/
def eprocess (name : String) : StructField := ⟨"Eprocess", "_EPROCESS", name⟩

/-- Fields of `_KPROCESS`. -/
def kprocess (name : String) : StructField := ⟨"Kprocess", "_KPROCESS", name⟩

/-- Fields of `_LDR_DATA_TABLE_ENTRY`. -/
def ldrDataTableEntry (name : String) : StructField :=
  ⟨"LdrDataTableEntry", "_LDR_DATA_TABLE_ENTRY", name⟩

/-- Fields of `_LIST_ENTRY`. -/
def listEntry (name : String) : StructField := ⟨"ListEntry", "_LIST_ENTRY", name⟩

/-- Fields of `_MMVAD_SHORT`. -/
def mmvadShort (name : String) : StructField := ⟨"MmvadShort", "_MMVAD_SHORT", name⟩

/-- Fields of `_MMVAD`. -/
def mmvad (name : String) : StructField := ⟨"Mmvad", "_MMVAD", name⟩

/-- Fields of `_PEB`. -/
def peb (name : String) : StructField := ⟨"_Peb", "_PEB", name⟩

/-- Fields of `_PEB_LDR_DATA`. -/
def pebLdrData (name : String) : StructField := ⟨"PebLdrData", "_PEB_LDR_DATA", name⟩

/-- Fields of `_RTL_AVL_TREE`. -/
def rtlAvlTree (name : String) : StructField := ⟨"RtlAvlTree", "_RTL_AVL_TREE", name⟩

/-- Fields of `_RTL_BALANCED_NODE`. -/
def rtlBalancedNode (name : String) : StructField :=
  ⟨"RtlBalancedNode", "_RTL_BALANCED_NODE", name⟩

variable {B : Type} [Memory B] [HasVcpus B]

/-! ## Memory that is not mapped by the hardware -/

/-- `Windows::unswizzle` -/
def unswizzle (windows : Windows B) (pte : MmPte) : MmPte :=
  if pte &&& MmPte.swizzleBit = 0 then pte &&& windows.unswizzleMask else pte

/-- `Windows::read_prototype_pte` -/
def readPrototypePte (windows : Windows B) (addr : VirtualAddress) (len : ℕ)
    (pte : MmPte) : Exec TranslationError (List UInt8) := do
  let offset := addr &&& mask 12
  if pte.isValid then
    let addrBase := pte &&& maskRange 12 48
    let page ← checkedAdd addrBase offset
    Exec.mapErr TranslationError.memory (Memory.readPhysical windows.backend page len)
  else
    let pte := windows.unswizzle pte
    match MmPte.classify pte with
    | .Transition => do
      let page ← checkedAdd (MmPte.transitionPage pte) offset
      Exec.mapErr TranslationError.memory (Memory.readPhysical windows.backend page len)
    | .Zero => return List.replicate len 0
    | _ => Exec.fail (.invalid pte)

/-- `Windows::read_virtual_memory_raw`, given what to do for an address whose
entry tells nothing. -/
def readVirtualMemoryRawWith (windows : Windows B)
    (readVad : MmPte → Exec TranslationError (List UInt8)) (mmuAddr : PhysicalAddress)
    (addr : VirtualAddress) (len : ℕ) : Exec TranslationError (List UInt8) :=
  match Backend.readVirtualMemory windows.backend mmuAddr addr len with
  | .error (.err (.invalid entry)) => do
    let offset := addr &&& mask 12
    let pte := windows.unswizzle entry
    match MmPte.classify pte with
    | .Software => do
      let pteAddr := pte >>> 16
      let pte ← Backend.readValueVirtual windows.backend Layout.u64 windows.kpgd pteAddr
      windows.readPrototypePte addr len pte
    | .Transition => do
      let page ← checkedAdd (MmPte.transitionPage pte) offset
      Exec.mapErr TranslationError.memory (Memory.readPhysical windows.backend page len)
    | .Vad => readVad pte
    | .Zero => return List.replicate len 0
    | .Unknown => Exec.fail (.invalid pte)
  | result => result

/-- `Os::read_kernel_memory`: the kernel's memory is read without a
process. -/
def readKernelMemory (windows : Windows B) : ReadMemory := fun addr len =>
  readPages addr len
    (windows.readVirtualMemoryRawWith (fun pte => Exec.fail (.invalid pte)) windows.kpgd)

/-- `iterate_list`, in the memory of a process or of the kernel. -/
def iterateList {σ : Type} (windows : Windows B) (readMemory : ReadMemory) (link : StructField)
    (fuel : ℕ) (head : VirtualAddress) (f : Callback σ VirtualAddress) (s : σ) :
    Exec VmError σ :=
  Pointer.iterateList readMemory windows.layouts (listEntry "Flink") link fuel head f s

/-! ## Virtual address descriptors -/

/-- `Windows::vad_root` -/
def vadRoot (windows : Windows B) (proc : Os.Process) : Exec VmError VirtualAddress := do
  let root ← Pointer.field windows.layouts proc.addr (eprocess "VadRoot")
  if (rtlAvlTree "Root").present windows.layouts then
    Pointer.readPointerField windows.readKernelMemory windows.layouts root
      (rtlAvlTree "Root")
  else return root

/-- `left_child` and `right_child`: the child of a descriptor, under its names
in newer and older versions. -/
def vadChild (windows : Windows B) (name oldName : String) (vad : VirtualAddress) :
    Exec VmError VirtualAddress :=
  if (mmvadShort "VadNode").present windows.layouts then do
    let node ← Pointer.field windows.layouts vad (mmvadShort "VadNode")
    Pointer.readPointerField windows.readKernelMemory windows.layouts node
      (rtlBalancedNode name)
  else
    Pointer.readPointerField windows.readKernelMemory windows.layouts vad
      (mmvadShort oldName)

/-- `left_child` -/
def leftChild (windows : Windows B) : VirtualAddress → Exec VmError VirtualAddress :=
  windows.vadChild "Left" "LeftChild"

/-- `right_child` -/
def rightChild (windows : Windows B) : VirtualAddress → Exec VmError VirtualAddress :=
  windows.vadChild "Right" "RightChild"

/-- `find_in_tree`. The tree is the guest's, which may make it a cycle. -/
def findInTree (windows : Windows B) (f : VirtualAddress → Exec VmError Ordering) :
    ℕ → VirtualAddress → Exec VmError (Option VirtualAddress)
  | 0, _ => Exec.outOfFuel
  | fuel + 1, ptr => do
    match ← f ptr with
    | .lt => do
      let right ← windows.rightChild ptr
      if VirtualAddress.isNull right then return none
      else findInTree windows f fuel right
    | .eq => return some ptr
    | .gt => do
      let left ← windows.leftChild ptr
      if VirtualAddress.isNull left then return none
      else findInTree windows f fuel left

/-- A page number of a descriptor: of 32 bits with 8 high ones in newer
versions, of 64 bits in older ones. -/
def readVpn (windows : Windows B) (vma : Os.Vma) (name highName : String) :
    Exec VmError U64 := do
  let low ← Pointer.readField windows.readKernelMemory windows.layouts Layout.u64 vma.addr
    (mmvadShort name)
  if (mmvadShort highName).present windows.layouts then do
    let low := low &&& mask 32
    let high ← Pointer.readField windows.readKernelMemory windows.layouts Layout.u8
      vma.addr (mmvadShort highName)
    checkedAdd (high.setWidth 64 <<< 32) low
  else return low

/-- `Windows::vma_start` -/
def vmaStart (windows : Windows B) (vma : Os.Vma) : Exec VmError VirtualAddress := do
  let addr ← windows.readVpn vma "StartingVpn" "StartingVpnHigh"
  return addr <<< 12

/-- `Windows::vma_end` -/
def vmaEnd (windows : Windows B) (vma : Os.Vma) : Exec VmError VirtualAddress := do
  let addr ← windows.readVpn vma "EndingVpn" "EndingVpnHigh"
  let addr ← checkedAdd addr 1
  return addr <<< 12

/-- `Windows::process_find_vma_by_address` -/
def processFindVmaByAddress (windows : Windows B) (fuel : ℕ) (proc : Os.Process)
    (addr : VirtualAddress) : Exec VmError (Option Os.Vma) := do
  let root ← windows.vadRoot proc
  let mmvad ← windows.findInTree (fun mmvad => do
    let vma := Os.Vma.mk mmvad
    let start ← windows.vmaStart vma
    if addr < start then return .gt
    else do
      let stop ← windows.vmaEnd vma
      if addr < stop then return .eq else return .lt) fuel root
  return mmvad.map Os.Vma.mk

/-- `Windows::read_vad_pte`. Any error on the way is logged and becomes
`Invalid`. -/
def readVadPte (windows : Windows B) (fuel : ℕ) (addr : VirtualAddress) (len : ℕ)
    (proc : Os.Process) : Exec TranslationError (List UInt8) :=
  if VirtualAddress.isKernel addr then Exec.fail (.invalid 0)
  else do
    let pte ← Exec.mapErr (fun _ => TranslationError.invalid 0) (do
      let vma ← windows.processFindVmaByAddress fuel proc addr
      let vma ← Exec.okOr vma (VmError.ofStr "encountered unmapped page")
      let vmaStart ← windows.vmaStart vma
      let pte ← Pointer.readPointerField windows.readKernelMemory windows.layouts
        vma.addr (mmvad "FirstPrototypePte")
      let pte ← checkedAdd pte ((addr - vmaStart) / 0x1000 * 8)
      Pointer.read windows.readKernelMemory Layout.u64 pte)
    windows.readPrototypePte addr len pte

/-- `Windows::read_virtual_memory_raw` -/
def readVirtualMemoryRaw (windows : Windows B) (fuel : ℕ) (mmuAddr : PhysicalAddress)
    (addr : VirtualAddress) (len : ℕ) (proc : Option Os.Process) :
    Exec TranslationError (List UInt8) :=
  windows.readVirtualMemoryRawWith (fun pte =>
    match proc with
    | some proc => windows.readVadPte fuel addr len proc
    | none => Exec.fail (.invalid pte)) mmuAddr addr len

/-- `Os::read_process_memory` -/
def readProcessMemory (windows : Windows B) (fuel : ℕ) (proc : Os.Process)
    (mmuAddr : PhysicalAddress) : ReadMemory := fun addr len =>
  readPages addr len fun addr len =>
    windows.readVirtualMemoryRaw fuel mmuAddr addr len (some proc)

end Windows
