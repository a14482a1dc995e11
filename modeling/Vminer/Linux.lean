import Vminer.Os
import Vminer.Utf8

/-!
# Linux guests

The state the tool keeps of a Linux guest, and the walks over the structures of
its kernel: the areas of a process, which are a list that ends with a null
pointer, the modules among them – the areas that map the beginning of a file –
and the names of these files, which are built from the root of the file system
down.

Everything is read from kernel memory. The lists and the tree of names are the
guest's, which may make cycles of them, so each walk takes a step budget.
-/

/-- `Linux`: the backend and what was found out when the guest was recognised.
Of the profile these are the layouts of structures. -/
structure Linux (B : Type) where
  backend : B
  layouts : Layouts
  kpgd : PhysicalAddress

namespace Linux

/-- Fields of `dentry`. -/
def dentry (name : String) : StructField := ⟨"Dentry", "dentry", name⟩

/-- Fields of `file`. -/
def file (name : String) : StructField := ⟨"File", "file", name⟩

/-- Fields of `list_head`. -/
def listHead (name : String) : StructField := ⟨"ListHead", "list_head", name⟩

/-- Fields of `mm_struct`. -/
def mmStruct (name : String) : StructField := ⟨"MmStruct", "mm_struct", name⟩

/-- Fields of `path`. -/
def path (name : String) : StructField := ⟨"Path", "path", name⟩

/-- Fields of `qstr`. -/
def qstr (name : String) : StructField := ⟨"Qstr", "qstr", name⟩

/-- Fields of `task_struct`. -/
def taskStruct (name : String) : StructField := ⟨"TaskStruct", "task_struct", name⟩

/-- Fields of `vm_area_struct`. -/
def vmAreaStruct (name : String) : StructField := ⟨"VmAreaStruct", "vm_area_struct", name⟩

variable {B : Type} [Memory B] [HasVcpus B] {σ : Type}

/-- `Linux::read_virtual_memory`, into a fresh buffer. -/
def readVirtualMemory (linux : Linux B) (mmuAddr : PhysicalAddress) : ReadMemory :=
  fun addr len => readPages addr len (Backend.readVirtualMemory linux.backend mmuAddr)

/-- `Os::read_kernel_memory` -/
def readKernelMemory (linux : Linux B) : ReadMemory := linux.readVirtualMemory linux.kpgd

/-- `read_field` of a structure of the kernel. -/
def readField {α : Type} (linux : Linux B) (L : Layout α) (addr : VirtualAddress)
    (field : StructField) : Exec VmError α :=
  Pointer.readField linux.readKernelMemory linux.layouts L addr field

/-- `read_pointer_field` of a structure of the kernel. -/
def readPointerField (linux : Linux B) (addr : VirtualAddress) (field : StructField) :
    Exec VmError VirtualAddress :=
  Pointer.readPointerField linux.readKernelMemory linux.layouts addr field

/-- `iterate_list` -/
def iterateList (linux : Linux B) (link : StructField) (fuel : ℕ) (head : VirtualAddress)
    (f : Callback σ VirtualAddress) (s : σ) : Exec VmError σ :=
  Pointer.iterateList linux.readKernelMemory linux.layouts (listHead "next") link fuel head f s

/-! ## Names of files -/

/-- `_read_file_name`: append the name of a directory entry, after a `/` if
there is something before it that does not end in one. -/
def readFileNameTo (linux : Linux B) (d : VirtualAddress) (buf : List UInt8) :
    Exec VmError (List UInt8) := do
  let name ← Pointer.field linux.layouts d (dentry "d_name")
  let name ← linux.readField Layout.u64 name (qstr "name")
  let buf' := if buf ≠ [] ∧ buf.getLast? ≠ some 47 then buf ++ [47] else buf
  let bytes ← linux.readKernelMemory name (buf.length + 256 - buf'.length)
  match bytes.findIdx? (· == 0) with
  | some i => return buf' ++ bytes.take i
  -- a name that does not end in the buffer is left to be done
  | none => Exec.panicked

/-- `build_path` -/
def buildPath (linux : Linux B) : ℕ → VirtualAddress → List UInt8 → Exec VmError (List UInt8)
  | 0, _, _ => Exec.outOfFuel
  | fuel + 1, d, buf => do
    let parent ← linux.readPointerField d (dentry "d_parent")
    let buf ← if parent ≠ d then buildPath linux fuel parent buf else pure buf
    linux.readFileNameTo d buf

/-- `read_file_path` -/
def readFilePath (linux : Linux B) (fuel : ℕ) (p : VirtualAddress) : Exec VmError Str := do
  let d ← linux.readPointerField p (path "dentry")
  let buf ← linux.buildPath fuel d []
  Exec.okOr (Str.fromUtf8 buf) (VmError.new "invalid utf-8 sequence")

/-! ## Areas of a process -/

/-- `Linux::process_mm` -/
def processMm (linux : Linux B) (proc : Os.Process) : Exec VmError (Option VirtualAddress) := do
  let mm ← linux.readPointerField proc.addr (taskStruct "mm")
  let mm ← if VirtualAddress.isNull mm then
      linux.readPointerField proc.addr (taskStruct "active_mm")
    else pure mm
  Pointer.mapNonNull mm fun mm => return mm

/-- The loop of `process_for_each_vma`. -/
def forEachVmaFrom (linux : Linux B) (f : Callback σ Os.Vma) :
    ℕ → VirtualAddress → σ → Exec VmError σ
  | 0, _, _ => Exec.outOfFuel
  | fuel + 1, curVma, s =>
    if VirtualAddress.isNull curVma then return s
    else do
      match ← f ⟨curVma⟩ s with
      | (.Break, s) => return s
      | (.Continue, s) => do
        let curVma ← linux.readPointerField curVma (vmAreaStruct "vm_next")
        forEachVmaFrom linux f fuel curVma s

/-- `Linux::process_for_each_vma` -/
def processForEachVma (linux : Linux B) (fuel : ℕ) (proc : Os.Process) (f : Callback σ Os.Vma)
    (s : σ) : Exec VmError σ := do
  match ← linux.processMm proc with
  | none => return s
  | some mm => do
    let curVma ← linux.readPointerField mm (mmStruct "mmap")
    linux.forEachVmaFrom f fuel curVma s

/-- `Linux::vma_offset` -/
def vmaOffset (linux : Linux B) (vma : Os.Vma) : Exec VmError U64 := do
  let offset ← linux.readField Layout.u64 vma.addr (vmAreaStruct "vm_pgoff")
  checkedMul offset 4096

/-- `Linux::vma_path` -/
def vmaPath (linux : Linux B) (fuel : ℕ) (vma : Os.Vma) : Exec VmError (Option Str) := do
  let f ← linux.readPointerField vma.addr (vmAreaStruct "vm_file")
  Pointer.mapNonNull f fun f => do
    let p ← Pointer.field linux.layouts f (file "f_path")
    linux.readFilePath fuel p

/-- `Linux::vma_start` -/
def vmaStart (linux : Linux B) (vma : Os.Vma) : Exec VmError VirtualAddress :=
  linux.readField Layout.u64 vma.addr (vmAreaStruct "vm_start")

/-- `Linux::vma_end` -/
def vmaEnd (linux : Linux B) (vma : Os.Vma) : Exec VmError VirtualAddress :=
  linux.readField Layout.u64 vma.addr (vmAreaStruct "vm_end")

/-! ## Modules -/

/-- `Linux::process_for_each_module` -/
def processForEachModule (linux : Linux B) (fuel : ℕ) (proc : Os.Process)
    (f : Callback σ Os.Module) (s : σ) : Exec VmError σ :=
  linux.processForEachVma fuel proc (fun vma s => do
    let offset ← linux.vmaOffset vma
    if offset = 0 then do
      let path ← linux.vmaPath fuel vma
      if path.isSome then f ⟨vma.addr⟩ s else return (.Continue, s)
    else return (.Continue, s)) s

/-- The loop of `module_span`: the end of the last area of the run that is
backed by one file. -/
def moduleEndFrom (linux : Linux B) (f : VirtualAddress) :
    ℕ → VirtualAddress → Exec VmError VirtualAddress
  | 0, _ => Exec.outOfFuel
  | fuel + 1, current => do
    let next ← linux.readPointerField current (vmAreaStruct "vm_next")
    let last ← if VirtualAddress.isNull next then pure true
      else do
        let nextFile ← linux.readPointerField next (vmAreaStruct "vm_file")
        pure (nextFile != f)
    if last then linux.readField Layout.u64 current (vmAreaStruct "vm_end")
    else moduleEndFrom linux f fuel next

/-- `Linux::module_span` -/
def moduleSpan (linux : Linux B) (fuel : ℕ) (module : Os.Module) :
    Exec VmError (VirtualAddress × VirtualAddress) := do
  let f ← linux.readPointerField module.addr (vmAreaStruct "vm_file")
  let start ← linux.readField Layout.u64 module.addr (vmAreaStruct "vm_start")
  let stop ← linux.moduleEndFrom f fuel module.addr
  return (start, stop)

end Linux
