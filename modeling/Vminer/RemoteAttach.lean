import Vminer.Tracee
import Vminer.Layout

/-!
# Running the payload in the hypervisor

`attach` makes the hypervisor's process load a library and call its payload, which
sends the registers of the virtual CPUs to us. It maps a page in the process, writes
the strings that `dlopen` and `dlsym` need to it and after them the file descriptors,
and calls one function after the other. The library is closed and the process restored
by destructors, so that this happens on every path.

`attach_restores` says that the process goes on as if nothing had happened to it:
all the memory that the functions of the C library leave alone is what it was, whatever
was called and whatever failed, and so are its registers, if they can be set in the end.
`attach_follows` says what is called: the calls follow the life of the library
(`Library.Step`), in which it is opened by its path, the payload is looked up in it by its
name and called at most once with the file descriptors, and it ends closed if it was opened.
-/

namespace Remote

/-- `LIB_PATH` -/
def libPath : List UInt8 := textBytes "/usr/lib/libvminer_kvm_patch.so" ++ [0]

/-- `FUN_NAME` -/
def funName : List UInt8 := textBytes "vminer_payload" ++ [0]

/-- The `fds` as the bytes that are written. -/
def fdsBytes (fds : List U32) : List UInt8 := Layout.u32.encList fds

/-- **What `attach` knows of the C library**: where it is mapped here and there, and the
addresses its functions have here. -/
structure Libc where
  ourPath : String
  ourMaps : Except IoError (List UInt8)
  theirPath : String
  theirMaps : Except IoError (List UInt8)
  dlopen : U64
  dlclose : U64
  dlsym : U64
  dlerror : U64
  mmap : U64
  errnoLocation : U64

/-- The functions of the C library in the other process. -/
structure TheirLibc where
  dlopen : U64
  dlclose : U64
  dlsym : U64
  dlerror : U64
  mmap : U64
  errnoLocation : U64

/-- The beginning of `attach`: the addresses of the functions. -/
def Libc.theirs (libc : Libc) : Exec VmError TheirLibc := do
  let ourLibc ← findLib libc.ourPath libc.ourMaps "libc.so"
  let theirLibc ← findLib libc.theirPath libc.theirMaps "libc.so"
  let their := fun addr => checkedSub addr ourLibc >>= checkedAdd theirLibc
  let dlopen ← their libc.dlopen
  let dlclose ← their libc.dlclose
  let dlsym ← their libc.dlsym
  let dlerror ← their libc.dlerror
  let mmap ← their libc.mmap
  let errnoLocation ← their libc.errnoLocation
  return { dlopen, dlclose, dlsym, dlerror, mmap, errnoLocation }

section Errors

variable {R W : Type}

/-- The loop of `get_dlerror`. -/
def readUntilNul : ℕ → U64 → List UInt8 → Session (State R W) VmError (List UInt8)
  | 0, _, _ => Session.lift Exec.outOfFuel
  | fuel + 1, addr, error => do
    let buf ← peekData addr 1
    if buf = [0] then return error
    else readUntilNul fuel (addr + 1) (error ++ buf)

variable [RemoteArch R] (p : Process R W) (t : Tracee R)

/-- `get_dlerror`. The string ends before all addresses have been read. -/
def getDlerror (dlerror : U64) : Session (State R W) VmError VmError := do
  let error ← Session.attempt do
    let addr ← t.funcall0 p .dlerror dlerror
    if addr = 0 then return "Success"
    else
      let error ← readUntilNul (2 ^ 64) addr []
      return String.ofList (fromUtf8Lossy error)
  match error with
  | .ok error => return VmError.new error
  | .error err => return .context "failed to get dlerror" (some err)

/-- `get_errno` -/
def getErrno (errno : U64) : Session (State R W) VmError VmError := do
  let errno ← Session.attempt do
    let addr ← t.funcall0 p .errnoLocation errno
    peekData addr 4
  match errno with
  | .ok errno => return .io (.os (leWord 32 errno).toNat)
  | .error err => return .context "failed to get errno" (some err)

end Errors

section Attach

variable {R W : Type} [RemoteArch R] (p : Process R W) (t : Tracee R) (libc : TheirLibc)
  (fds : List U32)

/-- The end of `attach`, when the library is open. -/
def callPayload (mmapAddr handle : U64) : Session (State R W) VmError Unit := do
  let name ← Session.lift (checkedAddNat mmapAddr libPath.length)
  let payload ← t.funcall2 p .dlsym libc.dlsym handle name
  if payload = 0 then
    let err ← getDlerror p t libc.dlerror
    Session.lift (Exec.fail (.context "remote dlsym failed" (some err)))
  else
    pokeData mmapAddr (fdsBytes fds)
    let result ← t.funcall2 p .payload payload mmapAddr (BitVec.ofNat 64 fds.length)
    let error := result.setWidth 32
    if error ≠ 0 then
      Session.lift (Exec.fail (.context "payload failed" (some (.io (.os error.toNat)))))
    else return ()

/-- `_do_dlclose`. Errors are only logged. -/
def doDlclose (handle : U64) : Session (State R W) VmError Unit := do
  let result ← Session.attempt (t.funcall1 p .dlclose libc.dlclose handle)
  match result with
  | .ok code =>
    if code = 0 then return ()
    else
      let _ ← getDlerror p t libc.dlerror
      return ()
  | .error _ => return ()

/-- The middle of `attach`, when the page is mapped: until the library is open. -/
def openLibrary (mmapAddr : U64) : Session (State R W) VmError Unit := do
  pokeData mmapAddr (libPath ++ funName)
  let handle ← t.funcall2 p .dlopen libc.dlopen mmapAddr 2
  if handle = 0 then
    let err ← getDlerror p t libc.dlerror
    Session.lift (Exec.fail (.context "remote dlopen failed" (some err)))
  else
    Session.ensuring (callPayload p t libc fds mmapAddr handle) (doDlclose p t libc handle)

/-- The part of `attach` that runs with the process attached to. -/
def mapAndRun : Session (State R W) VmError Unit := do
  let mmapAddr ← t.funcall6 p .mmap libc.mmap 0 0x1000 1 0x22 (-1) 0
  if mmapAddr.setWidth 32 = (-1 : U32) then
    let err ← getErrno p t libc.errnoLocation
    Session.lift (Exec.fail (.context "remote mmap failed" (some err)))
  else openLibrary p t libc fds mmapAddr

/-- `attach`. The library is closed before the process is detached from. -/
def attach (libc : Libc) : Session (State R W) VmError Unit := do
  let libc ← Session.lift libc.theirs
  let t ← Session.mapErr (fun e => .context "failed to attach to KVM" (some e))
    (Tracee.attach p)
  Session.ensuring (mapAndRun p t libc fds) (t.drop p)

end Attach

end Remote

/-! ## What is called -/

namespace Remote

/-- **The life of the library** in the other process. -/
inductive Library where
  | absent
  | opened (handle : U64)
  | resolved (handle payload : U64)
  | ran (handle : U64)
  | closed

namespace Library

/-- The handle of a library that is open. -/
def handle : Library → Option U64
  | opened handle => some handle
  | resolved handle _ => some handle
  | ran handle => some handle
  | _ => none

/-- The library after a call of `dlopen`. -/
def afterDlopen : Option U64 → Library
  | some handle => if handle = 0 then absent else opened handle
  | none => absent

/-- The library after a call of `dlsym`. -/
def afterDlsym (handle : U64) : Option U64 → Library
  | some payload => if payload = 0 then opened handle else resolved handle payload
  | none => opened handle

/-- **A call and what it does to the library.** Each one is made at its point of the
library's life, with the arguments and the memory it needs. -/
inductive Step (fds : List U32) : Library → Call → Library → Prop
  | mmap {c : Call} : c.function = .mmap → c.args = [0, 0x1000, 1, 0x22, -1, 0] →
      Step fds absent c absent
  | asks {l : Library} {c : Call} : c.function = .dlerror ∨ c.function = .errnoLocation →
      c.args = [] → Step fds l c l
  | dlopen {c : Call} {path : U64} : c.function = .dlopen → c.args = [path, 2] →
      bytesOf c.mem path libPath.length = some libPath →
      Step fds absent c (afterDlopen c.result)
  | dlsym {c : Call} {handle name : U64} : c.function = .dlsym → c.args = [handle, name] →
      bytesOf c.mem name funName.length = some funName →
      Step fds (opened handle) c (afterDlsym handle c.result)
  | payload {c : Call} {handle vcpus : U64} : c.function = .payload →
      c.args = [vcpus, BitVec.ofNat 64 fds.length] →
      bytesOf c.mem vcpus (fdsBytes fds).length = some (fdsBytes fds) →
      Step fds (resolved handle c.address) c (ran handle)
  | dlclose {l : Library} {c : Call} {handle : U64} : l.handle = some handle →
      c.function = .dlclose → c.args = [handle] → Step fds l c closed

/-- Calls made one after the other. -/
inductive Runs (fds : List U32) : List Call → Library → Prop
  | nil : Runs fds [] absent
  | snoc {calls : List Call} {c : Call} {l l' : Library} : Runs fds calls l →
      Step fds l c l' → Runs fds (calls ++ [c]) l'

end Library

/-- The payload has returned zero, as a signed number of 32 bits. -/
def Succeeded (calls : List Call) : Prop :=
  ∃ c ∈ calls, c.function = .payload ∧ ∃ v, c.result = some v ∧ v.setWidth 32 = (0 : U32)

theorem Succeeded.mono {calls calls' : List Call} (h : Succeeded calls)
    (hcalls : calls <+: calls') : Succeeded calls' := by
  obtain ⟨c, hc, hrest⟩ := h
  exact ⟨c, hcalls.subset hc, hrest⟩

/-! ## What is assumed of the process -/

section Safe

variable {R W : Type} [RemoteArch R]

/-- The page that `mmap` comes back with, called in this state. -/
def FreshPage (p : Process R W) (owned : W → Set U64) (instrsAddr : U64) (regs : R) (mem : Mem)
    (world : W) (v : U64) : Prop :=
  p.ComesBack instrsAddr regs mem world v → v.setWidth 32 ≠ (-1 : U32) →
    ∀ a ∈ window v 0x1000, a ∈ owned (p.resume regs mem world).2.2.2 ∧ a ∉ owned world

/-- **A process that can be attached to safely.** Its functions leave alone what it
owns, of which the code that is overwritten is part; nothing is ever mapped at the address
zero; and `mmap`, where it comes back with a page, has mapped one that was not owned and is
from then on. -/
structure Process.Safe (p : Process R W) (libc : Libc) (owned : W → Set U64)
    (s₀ : State R W) : Prop where
  leaves : p.Leaves owned
  code : ∀ addr, findLib p.mapsPath p.maps "/" = .ok addr →
    window addr (RemoteArch.instructions R).length ⊆ owned s₀.world
  null_owned : 0 ∈ owned s₀.world
  null_unmapped : s₀.mem 0 = none
  page : ∀ theirs addr regs v, libc.theirs = .ok theirs →
    findLib p.mapsPath p.maps "/" = .ok addr →
    RemoteArch.moveStack
      (RemoteArch.prepareFuncall6 s₀.regs theirs.mmap 0 0x1000 1 0x22 (-1) 0) = .ok regs →
    FreshPage p owned addr (RemoteArch.setInstructionPointer regs addr)
      (writeBytes s₀.mem addr (RemoteArch.instructions R)).2 s₀.world v

end Safe

/-! ## One call after the other -/

section Stages

variable {R W : Type}

/-- **Where `attach` is**: the process is attached to, and the calls so far have brought
the library to this point. -/
structure Stage (owned : W → Set U64) (s₀ : State R W) (t : Tracee R) (fds : List U32)
    (l : Library) (s : State R W) : Prop where
  attached : t.Attached owned s₀ s
  runs : Library.Runs fds s.calls l

/-- The page is owned now and was not when the process was attached to. -/
structure HasPage (owned : W → Set U64) (s₀ : State R W) (page : U64) (s : State R W) :
    Prop where
  is_owned : window page 0x1000 ⊆ owned s.world
  not_owned : ∀ a ∈ window page 0x1000, a ∉ owned s₀.world

/-- **What calls keep**: anything about the bytes that are owned and the calls made. -/
def Stable (owned : W → Set U64) (F : State R W → Prop) : Prop :=
  ∀ s s', Kept owned s s' → s.calls <+: s'.calls → F s → F s'

namespace HasPage

variable {owned : W → Set U64} {s₀ : State R W} {page : U64}

theorem stable : Stable owned (HasPage owned s₀ page) := fun _ _ hk _ h =>
  ⟨fun a ha => (hk a (h.is_owned ha)).2, h.not_owned⟩

end HasPage

theorem Stable.and {owned : W → Set U64} {F G : State R W → Prop} (hF : Stable owned F)
    (hG : Stable owned G) : Stable owned fun s => F s ∧ G s := fun s s' hk hc h =>
  ⟨hF s s' hk hc h.1, hG s s' hk hc h.2⟩

/-- What can be read in the page stays there. -/
theorem stable_bytes {owned : W → Set U64} {s₀ : State R W} {page : U64} (bytes : List UInt8)
    (hlen : bytes.length ≤ 0x1000) : Stable owned fun s : State R W =>
      HasPage owned s₀ page s ∧ bytesOf s.mem page bytes.length = some bytes :=
  fun s s' hk hc h => ⟨HasPage.stable s s' hk hc h.1,
    (hk.bytesOf_eq ((window_mono page hlen).trans h.1.is_owned)).trans h.2⟩

/-- The string of an error is read to its end, as nothing is mapped at the end of all
addresses. -/
theorem readUntilNul_eq (fuel : ℕ) (addr : U64) (error : List UInt8) {s : State R W}
    (hnull : s.mem 0 = none) (hfuel : (-addr).toNat < fuel) :
    ∃ r, readUntilNul fuel addr error s = (r, s) ∧ r ≠ Exec.outOfFuel := by
  induction fuel generalizing addr error with
  | zero => exact absurd hfuel (Nat.not_lt_zero _)
  | succ fuel ih =>
    rw [readUntilNul]
    rcases hbytes : bytesOf s.mem addr 1 with _ | buf
    · exact ⟨_, Session.bind_of_error (peekData_of_none hbytes), Exec.fail_ne_outOfFuel _⟩
    · rw [Session.bind_of_ok (peekData_of_some hbytes)]
      split
      · exact ⟨_, rfl, Exec.ok_ne_outOfFuel _⟩
      · refine ih (addr + 1) (error ++ buf) ?_
        have hne : addr ≠ 0 := by
          rintro rfl
          obtain ⟨b, rest, hb, -⟩ := (bytesOf_succ_eq_some_iff _ _ _ _).mp hbytes
          rw [hnull] at hb
          exact absurd hb (fun heq => by cases heq)
        have hnat : addr.toNat ≠ 0 := fun h => hne (BitVec.eq_of_toNat_eq h)
        have hlt := addr.isLt
        rw [BitVec.toNat_neg] at hfuel ⊢
        rw [BitVec.toNat_add]
        rw [show (1 : U64).toNat = 1 from rfl]
        omega

variable [RemoteArch R]

variable {owned : W → Set U64} {p : Process R W} (hp : p.Leaves owned) {s₀ : State R W}
  {t : Tracee R} {fds : List U32}

include hp

/-- **A call brings the library from one point to the next** and keeps everything
else. -/
theorem triple_call {l : Library} {F : State R W → Prop} (hF : Stable owned F)
    {function : Function} {addr : U64} {args : List U64} {regs : R}
    (next : Exec VmError U64 → Library)
    (hstep : ∀ s r, F s →
      Library.Step fds l ⟨function, addr, args, s.mem, r.toOption⟩ (next r)) :
    Session.Triple (fun s => Stage owned s₀ t fds l s ∧ F s)
      (recorded function addr args (Tracee.doFuncall p t regs))
      fun r s => r ≠ Exec.outOfFuel ∧ Stage owned s₀ t fds (next r) s ∧ F s
        ∧ ∃ c ∈ s.calls, c.function = function ∧ c.result = r.toOption := by
  rintro s ⟨hstage, hs⟩
  rcases hcall : recorded function addr args (Tracee.doFuncall p t regs) s with ⟨r, s'⟩
  obtain ⟨hr, hk, hcalls⟩ := Tracee.recorded_doFuncall hp function addr args regs s hcall
  refine ⟨hr, ⟨hstage.attached.of_kept hk, ?_⟩, hF _ _ hk ⟨_, hcalls.symm⟩ hs, ?_⟩
  · rw [hcalls]
    exact .snoc hstage.runs (hstep s _ hs)
  · rw [hcalls]
    exact ⟨_, List.mem_append_right _ (List.mem_singleton_self _), rfl, rfl⟩

omit [RemoteArch R] hp in
/-- A write to the page. -/
theorem triple_pokeData {l : Library} {page : U64} {bytes : List UInt8}
    (hlen : bytes.length ≤ 0x1000) :
    Session.Triple (fun s => Stage owned s₀ t fds l s ∧ HasPage owned s₀ page s)
      (pokeData page bytes)
      fun r s => r ≠ Exec.outOfFuel ∧ Stage owned s₀ t fds l s ∧ HasPage owned s₀ page s
        ∧ (r = .ok () → bytesOf s.mem page bytes.length = some bytes) := by
  rintro s ⟨hstage, hpage⟩
  have hout : ∀ a ∈ window page bytes.length, a ∉ owned s₀.world :=
    fun a ha => hpage.not_owned a (window_mono page hlen ha)
  have hattached := hstage.attached.write hout
  have hread : (writeBytes s.mem page bytes).1 = .ok () →
      bytesOf (writeBytes s.mem page bytes).2 page bytes.length = some bytes :=
    bytesOf_writeBytes (hlen.trans (by decide))
  rw [pokeData]
  rcases hwrite : writeBytes s.mem page bytes with ⟨e | _, mem⟩
  · rw [hwrite] at hattached
    exact ⟨Exec.fail_ne_outOfFuel _, ⟨hattached, hstage.runs⟩, ⟨hpage.is_owned, hpage.not_owned⟩,
      fun heq => by cases heq⟩
  · rw [hwrite] at hattached hread
    exact ⟨Exec.ok_ne_outOfFuel _, ⟨hattached, hstage.runs⟩, ⟨hpage.is_owned, hpage.not_owned⟩,
      fun _ => hread rfl⟩

/-! ### Errors -/

omit [RemoteArch R] hp in
theorem triple_attempt {l l' : Library} {F : State R W → Prop} {α : Type}
    {x : Session (State R W) VmError α}
    (hx : Session.Triple (fun s => Stage owned s₀ t fds l s ∧ F s) x
      fun r s => r ≠ Exec.outOfFuel ∧ Stage owned s₀ t fds l' s ∧ F s) :
    Session.Triple (fun s => Stage owned s₀ t fds l s ∧ F s) x.attempt
      fun r s => r ≠ Exec.outOfFuel ∧ Stage owned s₀ t fds l' s ∧ F s :=
  Session.Triple.attempt hx (fun _ _ h => ⟨Exec.ok_ne_outOfFuel _, h.2⟩)
    (fun _ _ h => ⟨Exec.ok_ne_outOfFuel _, h.2⟩)
    (fun _ h => ⟨Exec.panicked_ne_outOfFuel, h.2⟩) fun _ h => absurd rfl h.1

section Asking

variable (hnull : 0 ∈ owned s₀.world ∧ s₀.mem 0 = none) {l : Library} {F : State R W → Prop}
  (hF : Stable owned F)

include hnull hF

/-- **Asking for the text of an error** leaves the library where it is. -/
theorem triple_getDlerror (addr : U64) :
    Session.Triple (fun s => Stage owned s₀ t fds l s ∧ F s) (getDlerror p t addr)
      fun r s => r ≠ Exec.outOfFuel ∧ Stage owned s₀ t fds l s ∧ F s := by
  have hinner : Session.Triple (fun s => Stage owned s₀ t fds l s ∧ F s)
      (do
        let addr ← t.funcall0 p .dlerror addr
        if addr = 0 then return "Success"
        else
          let error ← readUntilNul (2 ^ 64) addr []
          return String.ofList (fromUtf8Lossy error))
      fun r s => r ≠ Exec.outOfFuel ∧ Stage owned s₀ t fds l s ∧ F s := by
    refine Session.Triple.bind
      (triple_call hp hF (fun _ => l) fun _ _ _ => .asks (.inl rfl) rfl) (fun error => ?_)
      fun e s h => ⟨Exec.error_ne_outOfFuel h.1 rfl, h.2.1, h.2.2.1⟩
    rintro s ⟨-, hstage, hs, -⟩
    by_cases hzero : error = 0
    · rw [if_pos hzero]
      exact ⟨Exec.ok_ne_outOfFuel _, hstage, hs⟩
    · rw [if_neg hzero]
      obtain ⟨r, hread, hr⟩ := readUntilNul_eq (2 ^ 64) error []
        (hstage.attached.mem_eq_none hnull.1 hnull.2) (BitVec.isLt _)
      rcases r with e | text
      · rw [Session.bind_of_error hread]
        exact ⟨Exec.error_ne_outOfFuel hr rfl, hstage, hs⟩
      · rw [Session.bind_of_ok hread]
        exact ⟨Exec.ok_ne_outOfFuel _, hstage, hs⟩
  refine Session.Triple.bind (triple_attempt hinner) (fun error => ?_)
    fun e s h => ⟨Exec.error_ne_outOfFuel h.1 rfl, h.2⟩
  cases error with
  | error err => exact Session.Triple.pure fun s h => ⟨Exec.ok_ne_outOfFuel _, h.2⟩
  | ok text => exact Session.Triple.pure fun s h => ⟨Exec.ok_ne_outOfFuel _, h.2⟩

omit hnull in
theorem triple_getErrno (addr : U64) :
    Session.Triple (fun s => Stage owned s₀ t fds l s ∧ F s) (getErrno p t addr)
      fun r s => r ≠ Exec.outOfFuel ∧ Stage owned s₀ t fds l s ∧ F s := by
  have hinner : Session.Triple (fun s => Stage owned s₀ t fds l s ∧ F s)
      (do
        let addr ← t.funcall0 p .errnoLocation addr
        peekData addr 4)
      fun r s => r ≠ Exec.outOfFuel ∧ Stage owned s₀ t fds l s ∧ F s := by
    refine Session.Triple.bind
      (triple_call hp hF (fun _ => l) fun _ _ _ => .asks (.inr rfl) rfl) (fun location => ?_)
      fun e s h => ⟨Exec.error_ne_outOfFuel h.1 rfl, h.2.1, h.2.2.1⟩
    rintro s ⟨-, hstage, hs, -⟩
    exact ⟨Exec.okOr_ne_outOfFuel _ _, hstage, hs⟩
  refine Session.Triple.bind (triple_attempt hinner) (fun errno => ?_)
    fun e s h => ⟨Exec.error_ne_outOfFuel h.1 rfl, h.2⟩
  cases errno with
  | error err => exact Session.Triple.pure fun s h => ⟨Exec.ok_ne_outOfFuel _, h.2⟩
  | ok errno => exact Session.Triple.pure fun s h => ⟨Exec.ok_ne_outOfFuel _, h.2⟩

/-- A function that fails with the text of an error. -/
theorem triple_getDlerror_fail (addr : U64) (msg : String) :
    Session.Triple (fun s => Stage owned s₀ t fds l s ∧ F s)
      (do
        let err ← getDlerror p t addr
        Session.lift (Exec.fail (.context msg (some err))) : Session (State R W) VmError Unit)
      fun r s => r ≠ Exec.outOfFuel ∧ (Stage owned s₀ t fds l s ∧ F s) ∧ r ≠ .ok () :=
  Session.Triple.bind (triple_getDlerror hp hnull hF addr)
    (fun _ => Session.Triple.lift fun _ h =>
      ⟨Exec.fail_ne_outOfFuel _, h.2, fun heq => by cases heq⟩)
    fun _ _ h => ⟨Exec.error_ne_outOfFuel h.1 rfl, h.2, fun heq => by cases heq⟩

/-- **The library is closed**, whatever `dlclose` says. -/
theorem triple_doDlclose (libc : TheirLibc) {handle : U64} (hl : l.handle = some handle) :
    Session.Triple (fun s => Stage owned s₀ t fds l s ∧ F s) (doDlclose p t libc handle)
      fun r s => r ≠ Exec.outOfFuel ∧ Stage owned s₀ t fds .closed s ∧ F s := by
  have hcall : Session.Triple (fun s => Stage owned s₀ t fds l s ∧ F s)
      (t.funcall1 p .dlclose libc.dlclose handle)
      fun r s => r ≠ Exec.outOfFuel ∧ Stage owned s₀ t fds .closed s ∧ F s :=
    (triple_call hp hF (fun _ => .closed) fun _ _ _ => .dlclose hl rfl rfl).mono
      (fun _ h => h) fun _ _ h => ⟨h.1, h.2.1, h.2.2.1⟩
  refine Session.Triple.bind (triple_attempt hcall) (fun result => ?_)
    fun e s h => ⟨Exec.error_ne_outOfFuel h.1 rfl, h.2⟩
  cases result with
  | error err => exact Session.Triple.pure fun s h => ⟨Exec.ok_ne_outOfFuel _, h.2⟩
  | ok code =>
    dsimp only
    split
    · exact Session.Triple.pure fun s h => ⟨Exec.ok_ne_outOfFuel _, h.2⟩
    · exact Session.Triple.bind
        ((triple_getDlerror hp hnull hF libc.dlerror).mono (fun _ h => h.2) fun _ _ h => h)
        (fun _ => Session.Triple.pure fun s h => ⟨Exec.ok_ne_outOfFuel _, h.2⟩)
        fun e s h => ⟨Exec.error_ne_outOfFuel h.1 rfl, h.2⟩

end Asking

/-! ### The life of the library -/

section Life

variable (hnull : 0 ∈ owned s₀.world ∧ s₀.mem 0 = none) (libc : TheirLibc)
  (hfds : 4 * fds.length ≤ 0x1000)

include hnull hfds

/-- **While the library is open** the payload is looked up in it and called. -/
theorem triple_callPayload (page handle : U64) :
    Session.Triple
      (fun s => Stage owned s₀ t fds (.opened handle) s ∧ HasPage owned s₀ page s
        ∧ bytesOf s.mem page (libPath ++ funName).length = some (libPath ++ funName))
      (callPayload p t libc fds page handle)
      fun r s => r ≠ Exec.outOfFuel
        ∧ (∃ l, l.handle = some handle ∧ Stage owned s₀ t fds l s)
        ∧ (r = .ok () → Succeeded s.calls) := by
  have hbytes : Stable owned fun s : State R W => HasPage owned s₀ page s
      ∧ bytesOf s.mem page (libPath ++ funName).length = some (libPath ++ funName) :=
    stable_bytes _ (by decide)
  have hsym : Session.Triple
      (fun s => Stage owned s₀ t fds (.opened handle) s ∧ HasPage owned s₀ page s
        ∧ bytesOf s.mem page (libPath ++ funName).length = some (libPath ++ funName))
      (t.funcall2 p .dlsym libc.dlsym handle (page + BitVec.ofNat 64 libPath.length))
      fun r s => r ≠ Exec.outOfFuel
        ∧ Stage owned s₀ t fds (Library.afterDlsym handle r.toOption) s
        ∧ HasPage owned s₀ page s :=
    (triple_call hp hbytes (fun r => Library.afterDlsym handle r.toOption) fun s r hs =>
      .dlsym rfl rfl (bytesOf_append hs.2).2).mono (fun _ h => h)
      fun _ _ h => ⟨h.1, h.2.1, h.2.2.1.1⟩
  have hrun : ∀ payload, payload ≠ 0 → Session.Triple
      (fun s => Stage owned s₀ t fds (.resolved handle payload) s ∧ HasPage owned s₀ page s)
      (do
        pokeData page (fdsBytes fds)
        let result ← t.funcall2 p .payload payload page (BitVec.ofNat 64 fds.length)
        let error := result.setWidth 32
        if error ≠ 0 then
          Session.lift (Exec.fail (.context "payload failed" (some (.io (.os error.toNat)))))
        else return ())
      fun r s => r ≠ Exec.outOfFuel
        ∧ (∃ l, l.handle = some handle ∧ Stage owned s₀ t fds l s)
        ∧ (r = .ok () → Succeeded s.calls) := by
    intro payload hpayload
    have hlen : (fdsBytes fds).length ≤ 0x1000 := by
      rw [fdsBytes, Layout.length_encList]
      exact (Nat.mul_comm _ _).trans_le hfds
    have hfdsBytes : Stable owned fun s : State R W => HasPage owned s₀ page s
        ∧ bytesOf s.mem page (fdsBytes fds).length = some (fdsBytes fds) :=
      stable_bytes _ hlen
    have hstep : ∀ (s : State R W) (r : Exec VmError U64), HasPage owned s₀ page s
        ∧ bytesOf s.mem page (fdsBytes fds).length = some (fdsBytes fds) →
        Library.Step fds (.resolved handle payload) ⟨.payload, payload,
          [page, BitVec.ofNat 64 fds.length], s.mem, r.toOption⟩ (.ran handle) :=
      fun s r hs => Library.Step.payload (c := ⟨.payload, payload, _, s.mem, r.toOption⟩)
        rfl rfl hs.2
    refine Session.Triple.bind (triple_pokeData hlen) (fun _ => ?_) fun e s h =>
      ⟨Exec.error_ne_outOfFuel h.1 rfl, ⟨_, rfl, h.2.1⟩, fun heq => by cases heq⟩
    refine Session.Triple.bind ((triple_call hp hfdsBytes (fun _ => .ran handle) hstep).mono
      (fun s h => ⟨h.2.1, h.2.2.1, h.2.2.2 rfl⟩) fun _ _ h => h) (fun result => ?_) fun e s h =>
      ⟨Exec.error_ne_outOfFuel h.1 rfl, ⟨_, rfl, h.2.1⟩, fun heq => by cases heq⟩
    rintro s ⟨-, hstage, -, c, hc, hfunction, hresult⟩
    dsimp only
    split
    · exact ⟨Exec.fail_ne_outOfFuel _, ⟨_, rfl, hstage⟩, fun heq => by cases heq⟩
    · next hzero =>
      exact ⟨Exec.ok_ne_outOfFuel _, ⟨_, rfl, hstage⟩,
        fun _ => ⟨c, hc, hfunction, result, hresult, not_not.mp hzero⟩⟩
  rw [callPayload, checkedAddNat]
  by_cases hfits : page.toNat + libPath.length < 2 ^ 64
  · rw [if_pos hfits, Session.lift_ok_bind]
    refine Session.Triple.bind hsym (fun payload => ?_) fun e s h => ?_
    · by_cases hzero : payload = 0
      · rw [if_pos hzero, hzero]
        refine (triple_getDlerror_fail hp hnull HasPage.stable libc.dlerror _).mono
          (fun s h => h.2) fun r s h => ⟨h.1, ⟨_, rfl, h.2.1.1⟩, fun heq => absurd heq h.2.2⟩
      · rw [if_neg hzero]
        refine (hrun payload hzero).mono (fun s h => ?_) fun _ _ h => h
        have hnext : Library.afterDlsym handle (some payload) = .resolved handle payload :=
          if_neg hzero
        exact hnext ▸ h.2
    · exact ⟨Exec.error_ne_outOfFuel h.1 rfl, ⟨_, rfl, h.2.1⟩, fun heq => by cases heq⟩
  · rw [if_neg hfits]
    exact fun s h => ⟨Exec.panicked_ne_outOfFuel, ⟨_, rfl, h.1⟩, fun heq => by cases heq⟩

/-- **Once the page is mapped** the library is opened and closed again. -/
theorem triple_openLibrary (page : U64) :
    Session.Triple (fun s => Stage owned s₀ t fds .absent s ∧ HasPage owned s₀ page s)
      (openLibrary p t libc fds page)
      fun r s => r ≠ Exec.outOfFuel ∧ (∃ l, l.handle = none ∧ Stage owned s₀ t fds l s)
        ∧ (r = .ok () → Succeeded s.calls) := by
  have hbytes : Stable owned fun s : State R W => HasPage owned s₀ page s
      ∧ bytesOf s.mem page (libPath ++ funName).length = some (libPath ++ funName) :=
    stable_bytes _ (by decide)
  rw [openLibrary]
  refine Session.Triple.bind (triple_pokeData (by decide)) (fun _ => ?_) fun e s h =>
    ⟨Exec.error_ne_outOfFuel h.1 rfl, ⟨_, rfl, h.2.1⟩, fun heq => by cases heq⟩
  refine Session.Triple.bind ((triple_call hp hbytes (fun r => Library.afterDlopen r.toOption)
    fun s r hs => .dlopen rfl rfl (bytesOf_append hs.2).1).mono
      (fun s h => ⟨h.2.1, h.2.2.1, h.2.2.2 rfl⟩) fun _ _ h => h) (fun handle => ?_)
    fun e s h => ⟨Exec.error_ne_outOfFuel h.1 rfl, ⟨_, rfl, h.2.1⟩, fun heq => by cases heq⟩
  by_cases hzero : handle = 0
  · rw [if_pos hzero, hzero]
    exact (triple_getDlerror_fail hp hnull hbytes libc.dlerror _).mono
      (fun s h => ⟨h.2.1, h.2.2.1⟩)
      fun r s h => ⟨h.1, ⟨_, rfl, h.2.1.1⟩, fun heq => absurd heq h.2.2⟩
  · rw [if_neg hzero]
    have hhandle : Library.afterDlopen (some handle) = .opened handle := if_neg hzero
    refine Session.Triple.ensuring ((triple_callPayload hp hnull libc hfds page handle).mono
      (fun s h => ⟨hhandle ▸ h.2.1, h.2.2.1⟩) fun _ _ h => h) (fun s h => absurd rfl h.1) ?_
    rintro r hr s ⟨-, ⟨l, hl, hstage⟩, hsucceeded⟩
    have hF : Stable owned fun s : State R W => r = .ok () → Succeeded s.calls :=
      fun s s' _ hcalls h heq => (h heq).mono hcalls
    obtain ⟨hr', hclosed, hs⟩ :=
      triple_doDlclose hp hnull hF libc hl s ⟨hstage, hsucceeded⟩
    exact ⟨Session.afterCleanup_ne_outOfFuel hr hr', ⟨_, rfl, hclosed⟩,
      fun heq => hs (Session.afterCleanup_eq_ok heq)⟩

/-- **A process that is attached to** runs the payload and ends with the library
closed. -/
theorem triple_mapAndRun {mem : Mem} {world : W}
    (hpage : ∀ regs v,
      RemoteArch.moveStack
        (RemoteArch.prepareFuncall6 t.registers libc.mmap 0 0x1000 1 0x22 (-1) 0) = .ok regs →
      FreshPage p owned t.instrsAddr (RemoteArch.setInstructionPointer regs t.instrsAddr) mem
        world v) :
    Session.Triple (fun s => Stage owned s₀ t fds .absent s ∧ s.mem = mem ∧ s.world = world)
      (mapAndRun p t libc fds)
      fun r s => r ≠ Exec.outOfFuel ∧ (∃ l, l.handle = none ∧ Stage owned s₀ t fds l s)
        ∧ (r = .ok () → Succeeded s.calls) := by
  have hmmap : Session.Triple
      (fun s => Stage owned s₀ t fds .absent s ∧ s.mem = mem ∧ s.world = world)
      (t.funcall6 p .mmap libc.mmap 0 0x1000 1 0x22 (-1) 0)
      fun r s => r ≠ Exec.outOfFuel ∧ Stage owned s₀ t fds .absent s
        ∧ ∀ v, r = .ok v → v.setWidth 32 ≠ (-1 : U32) → HasPage owned s₀ v s := by
    rintro s ⟨hstage, rfl, rfl⟩
    rcases hcall : t.funcall6 p .mmap libc.mmap 0 0x1000 1 0x22 (-1) 0 s with ⟨r, s'⟩
    obtain ⟨hr, hk, hcalls⟩ := Tracee.recorded_doFuncall hp .mmap libc.mmap _ _ s hcall
    refine ⟨hr, ⟨hstage.attached.of_kept hk, ?_⟩, fun v hv hnot => ?_⟩
    · rw [hcalls]
      exact .snoc hstage.runs (.mmap rfl rfl)
    · rw [Tracee.funcall6, Tracee.recorded_apply] at hcall
      obtain ⟨e, left, hfails, -⟩ | ⟨regs, r', hmove, -, hrun, hback⟩ := Tracee.doFuncall_cases p t
        (RemoteArch.prepareFuncall6 t.registers libc.mmap 0 0x1000 1 0x22 (-1) 0) s
      · rw [hfails] at hcall
        obtain ⟨rfl, -⟩ := Prod.mk.inj hcall
        exact absurd hv (fun heq => by cases heq)
      · rw [hrun] at hcall
        obtain ⟨rfl, rfl⟩ := Prod.mk.inj hcall
        have hfresh := hpage regs v hmove (hback v hv) hnot
        exact ⟨fun a ha => (hfresh a ha).1,
          fun a ha howned => (hfresh a ha).2 (hstage.attached.still_owned howned)⟩
  rw [mapAndRun]
  refine Session.Triple.bind hmmap (fun page => ?_) fun e s h =>
    ⟨Exec.error_ne_outOfFuel h.1 rfl, ⟨_, rfl, h.2.1⟩, fun heq => by cases heq⟩
  by_cases hfail : page.setWidth 32 = (-1 : U32)
  · rw [if_pos hfail]
    have htrue : Stable owned fun _ : State R W => True := fun _ _ _ _ h => h
    exact Session.Triple.bind ((triple_getErrno hp htrue libc.errnoLocation).mono
      (fun s h => ⟨h.2.1, trivial⟩) fun _ _ h => h)
      (fun _ => Session.Triple.lift fun s h =>
        ⟨Exec.fail_ne_outOfFuel _, ⟨_, rfl, h.2.1⟩, fun heq => by cases heq⟩)
      fun e s h => ⟨Exec.error_ne_outOfFuel h.1 rfl, ⟨_, rfl, h.2.1⟩, fun heq => by cases heq⟩
  · rw [if_neg hfail]
    exact (triple_openLibrary hp hnull libc hfds page).mono
      (fun s h => ⟨h.2.1, h.2.2 page rfl hfail⟩) fun _ _ h => h

end Life

end Stages

/-! ## Attaching -/

section Whole

variable {R W : Type} [RemoteArch R] {p : Process R W} {libc : Libc} {owned : W → Set U64}
  {s₀ : State R W} {fds : List U32}

theorem Libc.theirs_ne_outOfFuel (libc : Libc) : libc.theirs ≠ Exec.outOfFuel := by
  have htheir : ∀ ours theirs addr : U64,
      (checkedSub addr ours >>= checkedAdd theirs : Exec VmError U64) ≠ Exec.outOfFuel :=
    fun ours theirs addr => Exec.bind_ne_outOfFuel (checkedSub_ne_outOfFuel _ _)
      fun _ _ => checkedAdd_ne_outOfFuel _ _
  rw [Libc.theirs]
  refine Exec.bind_ne_outOfFuel (findLib_ne_outOfFuel _ _ _) fun ours _ => ?_
  refine Exec.bind_ne_outOfFuel (findLib_ne_outOfFuel _ _ _) fun theirs _ => ?_
  refine Exec.bind_ne_outOfFuel (htheir ours theirs _) fun _ _ => ?_
  refine Exec.bind_ne_outOfFuel (htheir ours theirs _) fun _ _ => ?_
  refine Exec.bind_ne_outOfFuel (htheir ours theirs _) fun _ _ => ?_
  refine Exec.bind_ne_outOfFuel (htheir ours theirs _) fun _ _ => ?_
  refine Exec.bind_ne_outOfFuel (htheir ours theirs _) fun _ _ => ?_
  exact Exec.bind_ne_outOfFuel (htheir ours theirs _) fun _ _ => Exec.ok_ne_outOfFuel _

/-- **What there is when `attach` has returned** and all its destructors have run. -/
structure Ended (p : Process R W) (owned : W → Set U64) (s₀ : State R W) (fds : List U32)
    (r : Exec VmError Unit) (s : State R W) : Prop where
  ended : r ≠ Exec.outOfFuel
  regs_eq : (∀ regs world, p.setRegset regs s₀.regs world = .done) → s.regs = s₀.regs
  mem_eq : ∀ a ∈ owned s₀.world, s.mem a = s₀.mem a
  closed : ∃ l, Library.Runs fds s.calls l ∧ l.handle = none
  succeeded : r = .ok () → Succeeded s.calls

omit [RemoteArch R] in
/-- Stopping before anything has been done. -/
theorem Ended.start {e : Stop VmError} (he : e ≠ .fuel) (hcalls : s₀.calls = []) :
    Ended p owned s₀ fds (.error e) s₀ where
  ended := fun heq => he (Except.error.inj heq)
  regs_eq := fun _ => rfl
  mem_eq := fun _ _ => rfl
  closed := ⟨.absent, hcalls ▸ .nil, rfl⟩
  succeeded := fun heq => by cases heq

theorem ended_attach (hsafe : p.Safe libc owned s₀) (hcalls : s₀.calls = [])
    (hfds : 4 * fds.length ≤ 0x1000) :
    Ended p owned s₀ fds (attach p fds libc s₀).1 (attach p fds libc s₀).2 := by
  rcases hlibc : libc.theirs with e | theirs
  · have hattach : attach p fds libc s₀ = (.error e, s₀) := by
      rw [attach, hlibc]
      rfl
    rw [hattach]
    refine .start (fun he => ?_) hcalls
    exact libc.theirs_ne_outOfFuel (hlibc.trans (congrArg Except.error he))
  obtain ⟨e, htracee, he⟩ | ⟨t, s, htracee, hattached, hs, haddr⟩ :=
    Tracee.attach_cases s₀ hsafe.code
  · have hattach : ∃ e', attach p fds libc s₀ = (.error e', s₀) ∧ e' ≠ .fuel := by
      rw [attach, hlibc, Session.lift_ok_bind]
      have hcontext : Session.mapErr (fun e => .context "failed to attach to KVM" (some e))
          (Tracee.attach p) s₀ = _ := Session.mapErr_of_eq htracee
      rcases e with err | _ | _
      · exact ⟨_, Session.bind_of_error hcontext, fun heq => by cases heq⟩
      · exact ⟨_, Session.bind_of_error hcontext, fun heq => by cases heq⟩
      · exact absurd rfl he
    obtain ⟨e', hattach, he'⟩ := hattach
    rw [hattach]
    exact .start he' hcalls
  · have hattach : attach p fds libc s₀
        = Session.ensuring (mapAndRun p t theirs fds) (t.drop p) s := by
      rw [attach, hlibc, Session.lift_ok_bind]
      exact Session.bind_of_ok (Session.mapErr_of_eq htracee)
    have hrun := triple_mapAndRun hsafe.leaves ⟨hsafe.null_owned, hsafe.null_unmapped⟩ theirs
      hfds (t := t) fun regs v hmove =>
        hsafe.page theirs t.instrsAddr regs v hlibc haddr (hattached.registers_eq ▸ hmove)
    have hall : Session.Triple
        (fun s' => Stage owned s₀ t fds .absent s' ∧ s'.mem = s.mem ∧ s'.world = s.world)
        (Session.ensuring (mapAndRun p t theirs fds) (t.drop p)) (Ended p owned s₀ fds) := by
      rw [hs]
      refine Session.Triple.ensuring hrun (fun s h => absurd rfl h.1) ?_
      rintro r hr s ⟨-, ⟨l, hl, hstage⟩, hsucceeded⟩
      obtain ⟨r', mem, regs, hdrop, hr', hmem, hregs⟩ := hstage.attached.drop_eq p
      rw [hdrop]
      exact {
        ended := Session.afterCleanup_ne_outOfFuel hr hr'
        regs_eq := fun hset => hregs (hset _ _)
        mem_eq := hmem
        closed := ⟨l, hstage.runs, hl⟩
        succeeded := fun heq => hsucceeded (Session.afterCleanup_eq_ok heq) }
    rw [hattach]
    refine hall s ⟨⟨hattached, ?_⟩, rfl, rfl⟩
    rw [hs]
    exact hcalls ▸ .nil

/-- **The process goes on as if nothing had happened**: whatever is called in it and
whatever fails, in the end all the memory that the functions leave alone is what it was, the
overwritten code among it, and so are its registers, if they can be set. The descriptors have
to fit the page, which the source does not check. -/
theorem attach_restores (hsafe : p.Safe libc owned s₀) (hcalls : s₀.calls = [])
    (hfds : 4 * fds.length ≤ 0x1000) :
    (attach p fds libc s₀).1 ≠ Exec.outOfFuel
      ∧ ((∀ regs world, p.setRegset regs s₀.regs world = .done) →
        (attach p fds libc s₀).2.regs = s₀.regs)
      ∧ ∀ a ∈ owned s₀.world, (attach p fds libc s₀).2.mem a = s₀.mem a :=
  have h := ended_attach hsafe hcalls hfds
  ⟨h.ended, h.regs_eq, h.mem_eq⟩

end Whole

/-! ### A process that answers -/

/-- The page of `pageProcess`. -/
abbrev InPage (a : U64) : Prop := 0x7000 ≤ a.toNat ∧ a.toNat < 0x8000

/-- A process that has one page to map and answers every call: it opens the library with
the handle 8, and all its other functions return zero but for `dlsym`. -/
def pageProcess : Process X86_64.Registers Bool where
  openMem := .ok ()
  attach := .ok ()
  mapsPath := "/proc/1/maps"
  maps := .ok (textBytes "1000-2000 r-xp /lib\n")
  getRegset _ _ := .ok true
  setRegset _ _ _ := .done
  resume regs mem mapped :=
    if regs.rsi = 0x1000 then
      if mapped then (.ok (), { regs with rip := 0x1003, rax := -1 }, mem, true)
      else (.ok (), { regs with rip := 0x1003, rax := 0x7000 },
        fun a => if InPage a then some 0 else mem a, true)
    else
      (.ok (), { regs with
        rip := 0x1003
        rax := if regs.rax = 0x5100 then 8 else if regs.rax = 0x5300 then 0x9000 else 0 },
        mem, mapped)

/-- What it owns: everything but the page that is not mapped yet. -/
def pageOwned : Bool → Set U64
  | true => Set.univ
  | false => {a | ¬ InPage a}

/-- The C library at the same place here and there. -/
def pageLibc : Libc where
  ourPath := "/proc/2/maps"
  ourMaps := .ok (textBytes "5000-6000 r-xp /libc.so\n")
  theirPath := "/proc/1/maps"
  theirMaps := .ok (textBytes "5000-6000 r-xp /libc.so\n")
  dlopen := 0x5100
  dlclose := 0x5200
  dlsym := 0x5300
  dlerror := 0x5400
  mmap := 0x5500
  errnoLocation := 0x5600

/-- Where it was stopped. -/
def pageState : State X86_64.Registers Bool where
  regs :=
    { r15 := 0, r14 := 0, r13 := 0, r12 := 0, rbp := 0, rbx := 0, r11 := 0, r10 := 0, r9 := 0,
      r8 := 0, rax := 0, rcx := 0, rdx := 0, rsi := 0, rdi := 0, origRax := 0, rip := 0x1800,
      cs := 0, eflags := 0, rsp := 0x10000, ss := 0, fsBase := 0, gsBase := 0, ds := 0, es := 0,
      fs := 0, gs := 0 }
  mem := fun a => if 0x1000 ≤ a.toNat ∧ a.toNat < 0x2000 then some 0x90 else none
  world := false
  calls := []

theorem rsi_moveStack {regs regs' : X86_64.Registers}
    (h : RemoteArch.moveStack regs = .ok regs') : regs'.rsi = regs.rsi := by
  obtain ⟨sp, -, h⟩ := (Exec.bind_eq_ok_iff _ _ _).mp h
  rw [← Except.ok.inj h]
  rfl

theorem safe_pageProcess : pageProcess.Safe pageLibc pageOwned pageState where
  leaves regs mem mapped a ha := by
    by_cases hmmap : regs.rsi = 0x1000
    · cases mapped with
      | true => simp [pageProcess, hmmap, pageOwned]
      | false =>
        have hnot : ¬ InPage a := ha
        simp [pageProcess, hmmap, pageOwned, hnot]
    · simp only [pageProcess, if_neg hmmap]
      exact ⟨trivial, ha⟩
  code addr haddr := by
    have hfind : findLib pageProcess.mapsPath pageProcess.maps "/" = .ok 0x1000 := by
      decide +kernel
    obtain rfl := Except.ok.inj (haddr.symm.trans hfind)
    rintro a ⟨i, hi, rfl⟩
    have hlt : i < 3 := hi
    show ¬ InPage _
    rw [InPage, BitVec.toNat_add, BitVec.toNat_ofNat]
    have h1000 : (0x1000 : U64).toNat = 0x1000 := rfl
    omega
  null_owned := by
    show ¬ InPage 0
    decide
  null_unmapped := rfl
  page theirs addr regs v _ _ hmove := by
    rintro ⟨-, -, rfl⟩ - a ⟨i, hi, rfl⟩
    have hmmap : (RemoteArch.setInstructionPointer regs addr).rsi = 0x1000 := rsi_moveStack hmove
    simp only [pageProcess, if_pos hmmap, pageState, Bool.false_eq_true, if_false]
    refine ⟨Set.mem_univ _, not_not_intro ?_⟩
    show InPage ((0x7000 : U64) + BitVec.ofNat 64 i)
    rw [InPage, BitVec.toNat_add, BitVec.toNat_ofNat]
    have h7000 : (0x7000 : U64).toNat = 0x7000 := rfl
    omega

/-- The process is restored after the registers of two virtual CPUs have been sent. -/
theorem attach_restores_pageProcess :
    4 * [(7 : U32), 9].length ≤ 0x1000
      ∧ (attach pageProcess [7, 9] pageLibc pageState).1 ≠ Exec.outOfFuel
      ∧ (attach pageProcess [7, 9] pageLibc pageState).2.regs = pageState.regs
      ∧ ∀ a ∈ pageOwned pageState.world,
        (attach pageProcess [7, 9] pageLibc pageState).2.mem a = pageState.mem a :=
  have h := attach_restores safe_pageProcess rfl (by decide)
  ⟨by decide, h.1, h.2.1 fun _ _ => rfl, h.2.2⟩

section Whole

variable {R W : Type} [RemoteArch R] {p : Process R W} {libc : Libc} {owned : W → Set U64}
  {s₀ : State R W} {fds : List U32}

/-- **The calls follow the life of the library**, at the end of which it is not open, and
`attach` succeeds only if the payload was called and succeeded. -/
theorem attach_follows (hsafe : p.Safe libc owned s₀) (hcalls : s₀.calls = [])
    (hfds : 4 * fds.length ≤ 0x1000) :
    (∃ l, Library.Runs fds (attach p fds libc s₀).2.calls l ∧ l.handle = none)
      ∧ ((attach p fds libc s₀).1 = .ok () → Succeeded (attach p fds libc s₀).2.calls) :=
  have h := ended_attach hsafe hcalls hfds
  ⟨h.closed, h.succeeded⟩

end Whole

/-- The library is not open when the registers of two virtual CPUs have been sent. -/
theorem attach_follows_pageProcess :
    (∃ l, Library.Runs [7, 9] (attach pageProcess [7, 9] pageLibc pageState).2.calls l
        ∧ l.handle = none)
      ∧ ((attach pageProcess [7, 9] pageLibc pageState).1 = .ok () →
        Succeeded (attach pageProcess [7, 9] pageLibc pageState).2.calls) :=
  attach_follows safe_pageProcess rfl (by decide)

/-- Five functions are called in a process that answers. -/
example : (attach pageProcess [7, 9] pageLibc pageState).1 = .ok ()
    ∧ (attach pageProcess [7, 9] pageLibc pageState).2.calls.map Call.function
      = [.mmap, .dlopen, .dlsym, .payload, .dlclose] := by decide +kernel

end Remote
