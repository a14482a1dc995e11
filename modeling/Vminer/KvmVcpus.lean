import Vminer.KvmPatch

/-!
# Obtaining the registers of a hypervisor

`get_regs` has three parties. It binds a socket and starts a thread that
accepts one connection and reads the register files of every virtual CPU; it
attaches to the hypervisor and has it call `vminer_payload`, which connects to
the socket and writes them; and when `attach` has returned without an error it
joins the thread. The payload and the thread are the two ends of a
`Transfer`, and `System` adds the party that waits for them.

Whatever the order of their steps and wherever one of them fails, `get_regs`
never returns registers other than those the payload has obtained, of all
virtual CPUs and in the order of their descriptors (`getRegs_returns_registers`). It cannot
be left waiting: from every state it can still return without a failure, and
no run goes on forever (`getRegs_returns`). And it returns an error only if
something has failed (`getRegs_of_calm`).
-/

namespace KvmVcpus

/-- Where `get_regs` is: in `attach`, in `join`, or done. -/
inductive Phase (ν : Type) where
  | attaching
  | joining
  | returned (result : Except VmError (List ν))

/-- The payload, the socket and the listener, and the thread that waits for
them. -/
structure System (ν : Type) where
  transfer : Transfer.State Fd UInt8 ν IoError
  /-- Whether `attach` has come to the call of the payload. -/
  payloadCalled : Bool
  main : Phase ν

/-- What the calls on a closed socket return: `ECONNREFUSED`, `EPIPE`, and the
error of `read_exact`. -/
def closed : Transfer.Closed IoError where
  connectionRefused := .os 111
  brokenPipe := .os 32
  unexpectedEof := .unexpectedEof

/-- `vminer_payload`: the code it returns. -/
def payloadCode : Except IoError Unit → ℕ
  | .ok () => 0
  | .error (.os code) => code
  | .error _ => 777

/-- The end of `attach`: what becomes of the code. -/
def attachResult (error : ℕ) : Except VmError Unit :=
  if error ≠ 0 then .error (.context "payload failed" (some (.io (.os error)))) else .ok ()

/-- `get_regs`, once `attach` has returned. -/
def afterAttach {ν : Type} : Except VmError Unit → Phase ν
  | .ok () => .joining
  | .error e => .returned (.error e)

/-- `handle.join()` -/
def joined {ν : Type} (result : Except IoError (List ν)) : Except VmError (List ν) :=
  result.mapError VmError.io

/-- What a step of the system does. -/
inductive Event where
  | transfer (e : Transfer.Event Fd UInt8 IoError)
  | callPayload
  | attachFails (e : VmError)
  | attachReturns
  | join

/-- The failures that nothing in the state of the parties calls for. -/
def Event.IsFailure : Event → Prop
  | transfer e => e.IsFailure
  | attachFails _ => True
  | _ => False

variable {ρ ν : Type}

/-- **The steps of the system.** The payload runs once it has been called; an
error of the operating system has a code other than 0. -/
inductive Step (p : Payload ρ ν) : Event → System ν → System ν → Prop
  | transfer {s} {e : Transfer.Event Fd UInt8 IoError} {t : Transfer.State Fd UInt8 ν IoError}
      (called : e.ByWriter → s.payloadCalled = true) (errno : e ≠ .connectFails (.os 0))
      (step : Transfer.Step p.format p.readVcpu closed e s.transfer t) :
      Step p (.transfer e) s { s with transfer := t }
  | callPayload {s} (attaching : s.main = .attaching) (first : s.payloadCalled = false) :
      Step p .callPayload s { s with payloadCalled := true }
  | attachFails {s} {e : VmError} (attaching : s.main = .attaching) :
      Step p (.attachFails e) s { s with main := .returned (.error e) }
  | attachReturns {s} {result : Except IoError Unit} (attaching : s.main = .attaching)
      (returned : s.transfer.sent = some result) :
      Step p .attachReturns s { s with main := afterAttach (attachResult (payloadCode result)) }
  | join {s} {result : Except IoError (List ν)} (joining : s.main = .joining)
      (returned : s.transfer.received = some result) :
      Step p .join s { s with main := .returned (joined result) }

/-- `start_listener` has returned, and `attach` begins. -/
def start (p : Payload ρ ν) (fds : List Fd) : System ν where
  transfer := Transfer.initial p.format fds
  payloadCalled := false
  main := .attaching

/-- The states of the runs of `get_regs` over these virtual CPUs. -/
def Reachable (p : Payload ρ ν) (fds : List Fd) : System ν → Prop :=
  Relation.ReflTransGen (fun s s' => ∃ e, Step p e s s') (start p fds)

/-- The registers of all virtual CPUs, in the order of their descriptors. -/
def AreRegisters (p : Payload ρ ν) (fds : List Fd) (vcpus : List ν) : Prop :=
  List.Forall₂ (fun fd vcpu => ∃ r, p.readVcpu fd = .ok r ∧ vcpu = p.decode r) fds vcpus

/-! ## What every run keeps -/

/-- **The invariant of the runs of `get_regs`.** -/
structure Invariant (p : Payload ρ ν) (fds : List Fd) (s : System ν) : Prop where
  conforms : Transfer.Conforms p.format p.readVcpu p.decode fds s.transfer
  unconnected : s.transfer.connected = false → s.transfer.pending = []
  sent : ∀ result, s.transfer.sent = some result →
    s.transfer.connected = true ∨ payloadCode result ≠ 0
  joining : s.main = .joining →
    s.transfer.connected = true ∧ ∃ result, s.transfer.sent = some result
  returned : ∀ vcpus, s.main = .returned (.ok vcpus) → s.transfer.received = some (.ok vcpus)

variable {p : Payload ρ ν} {fds : List Fd} {s s' : System ν}

theorem invariant_start : Invariant p fds (start p fds) where
  conforms := Transfer.conforms_initial
  unconnected _ := rfl
  sent _ h := nomatch h
  joining h := nomatch h
  returned _ h := nomatch h

/-- **Every step keeps it.** -/
theorem Invariant.step (h : Invariant p fds s) {e : Event} (step : Step p e s s') :
    Invariant p fds s' := by
  cases step with
  | transfer _ errno step =>
    refine {
      conforms := h.conforms.step p.carries step
      unconnected := step.pending h.unconnected
      sent := fun result hsent => ?_
      joining := fun hjoining => ?_
      returned := fun vcpus hreturned => step.received (h.returned vcpus hreturned) }
    · rcases step.sent_cases h.unconnected hsent with hsent | hconnected | rfl | ⟨e, rfl, rfl⟩
      · exact (h.sent result hsent).imp_left step.connected
      · exact .inl hconnected
      · exact .inr (by decide)
      · refine .inr fun hcode => ?_
        cases e with
        | os code => exact errno (congrArg _ (congrArg _ hcode))
        | unexpectedEof => exact absurd hcode (by decide)
        | unsupported => exact absurd hcode (by decide)
        | invalidData => exact absurd hcode (by decide)
    · obtain ⟨hconnected, result, hsent⟩ := h.joining hjoining
      exact ⟨step.connected hconnected, result, step.sent hsent⟩
  | callPayload attaching first => exact { h with }
  | attachFails attaching =>
    exact { h with
      joining := fun hmain => nomatch hmain
      returned := fun _ hmain => nomatch hmain }
  | @attachReturns s result attaching returned =>
    by_cases hcode : payloadCode result = 0
    · rw [attachResult, if_neg (not_not_intro hcode)]
      exact { h with
        joining := fun _ =>
          ⟨(h.sent result returned).resolve_right (not_not_intro hcode), _, returned⟩
        returned := fun _ hmain => nomatch hmain }
    · rw [attachResult, if_pos hcode]
      exact { h with
        joining := fun hmain => nomatch hmain
        returned := fun _ hmain => nomatch hmain }
  | @join s result joining returned =>
    refine { h with
      joining := fun hmain => nomatch hmain
      returned := fun vcpus hmain => ?_ }
    cases result with
    | error e => cases hmain
    | ok vs =>
      obtain rfl := Except.ok.inj (Phase.returned.inj hmain)
      exact returned

theorem Reachable.invariant (h : Reachable p fds s) : Invariant p fds s := by
  induction h with
  | refl => exact invariant_start
  | tail _ step ih =>
    obtain ⟨e, step⟩ := step
    exact ih.step step

/-- What has been returned has been read. -/
theorem Invariant.areRegisters (h : Invariant p fds s) {vcpus : List ν}
    (hreturned : s.main = .returned (.ok vcpus)) : AreRegisters p fds vcpus :=
  h.conforms.received_eq_ok (h.returned vcpus hreturned)

/-! ## Every run ends -/

/-- As long as `get_regs` has not returned, there is a step to take that is not
a failure. -/
theorem Invariant.exists_step (h : Invariant p fds s)
    (hmain : ∀ result, s.main ≠ .returned result) :
    ∃ e s', Step p e s s' ∧ ¬ e.IsFailure := by
  cases hs : s.main with
  | returned result => exact absurd hs (hmain result)
  | attaching =>
    cases hcalled : s.payloadCalled with
    | false => exact ⟨_, _, .callPayload hs hcalled, id⟩
    | true =>
      cases hsent : s.transfer.sent with
      | some result => exact ⟨_, _, .attachReturns hs hsent, id⟩
      | none =>
        obtain ⟨e, t, step, hcalm⟩ := Transfer.exists_writer_step p.format p.readVcpu closed hsent
        have herrno : e ≠ .connectFails (.os 0) := fun he => hcalm (he ▸ trivial)
        exact ⟨_, _, .transfer (fun _ => hcalled) herrno step, hcalm⟩
  | joining =>
    obtain ⟨hconnected, result, hsent⟩ := h.joining hs
    cases hreceived : s.transfer.received with
    | some result => exact ⟨_, _, .join hs hreceived, id⟩
    | none =>
      obtain ⟨e, t, step, hcalm⟩ := h.conforms.exists_reader_step closed hsent hconnected
        hreceived
      -- the payload has returned, so that the step is one of the listener
      have hlistener : e.ByWriter → s.payloadCalled = true := fun hby =>
        absurd (hsent.symm.trans (step.writer_open hby)) nofun
      have herrno : e ≠ .connectFails (.os 0) := fun he => hcalm (he ▸ trivial)
      exact ⟨_, _, .transfer hlistener herrno step, hcalm⟩

/-- What is left for the thread that waits. -/
def Phase.remaining : Phase ν → ℕ
  | attaching => 2
  | joining => 1
  | returned _ => 0

/-- **No run goes on forever**: the two ends come to their end, and the thread
that waits for them takes a step for each thing it waits for. -/
theorem wellFounded_steps (p : Payload ρ ν) :
    WellFounded fun s' s : System ν => ∃ e, Step p e s s' := by
  refine Subrelation.wf (r := InvImage
    (Prod.Lex (fun t' t => Transfer.StepAny p.format p.readVcpu closed t t') (· < ·))
    fun s : System ν => (s.transfer, s.main.remaining + (!s.payloadCalled).toNat)) ?_
    (InvImage.wf _ (Transfer.wellFounded_steps.prod_lex wellFounded_lt))
  rintro s' s ⟨e, step⟩
  cases step with
  | transfer _ _ step => exact .left _ _ ⟨_, step⟩
  | callPayload attaching first => exact .right _ (by simp [first])
  | attachFails attaching => exact .right _ (by simp [attaching, Phase.remaining])
  | @attachReturns s result attaching returned =>
    refine .right _ (Nat.add_lt_add_right ?_ _)
    rw [attaching]
    cases attachResult (payloadCode result) with
    | ok u => exact Nat.lt_succ_self 1
    | error e => exact Nat.zero_lt_two
  | join joining returned => exact .right _ (by simp [joining, Phase.remaining])

/-- A step that is not a failure. -/
abbrev CalmStep (p : Payload ρ ν) (s s' : System ν) : Prop :=
  ∃ e, Step p e s s' ∧ ¬ e.IsFailure

/-- From every state the steps that are not failures lead to an end. -/
theorem exists_calm_end (p : Payload ρ ν) (s : System ν) :
    ∃ s', Relation.ReflTransGen (CalmStep p) s s' ∧ ∀ s'', ¬ CalmStep p s' s'' :=
  Transfer.exists_stuck
    (Subrelation.wf (fun ⟨e, step, _⟩ => ⟨e, step⟩) (wellFounded_steps p)) s

theorem Reachable.calm (h : Reachable p fds s)
    (hrun : Relation.ReflTransGen (CalmStep p) s s') : Reachable p fds s' :=
  h.trans (Relation.ReflTransGen.mono (fun _ _ ⟨e, step, _⟩ => ⟨e, step⟩) _ _ hrun)

/-- At such an end `get_regs` has returned. -/
theorem Reachable.exists_returned (h : Reachable p fds s) (hend : ∀ s', ¬ CalmStep p s s') :
    ∃ result, s.main = .returned result := by
  by_contra hmain
  obtain ⟨e, s', step, hcalm⟩ := h.invariant.exists_step fun result h => hmain ⟨result, h⟩
  exact hend s' ⟨e, step, hcalm⟩

/-- Two virtual CPUs of which every register holds its identifier. -/
def everyRegister :
    Payload (KvmPatch.Aarch64.UserPtRegs × KvmPatch.Aarch64.SpecialRegs) Aarch64.Vcpu :=
  KvmPatch.Aarch64.payload ⟨fun _ id => .ok id⟩

theorem readVcpu_everyRegister (fd : Fd) : ∃ r, everyRegister.readVcpu fd = .ok r := ⟨_, rfl⟩

/-- **`get_regs` returns**: wherever a run has come to it can still return
without a failure, and no run goes on forever. -/
theorem getRegs_returns (p : Payload ρ ν) (fds : List Fd) :
    (WellFounded fun s' s : System ν => ∃ e, Step p e s s')
      ∧ ∀ s, Reachable p fds s →
        ∃ s' result, Relation.ReflTransGen (CalmStep p) s s' ∧ s'.main = .returned result := by
  refine ⟨wellFounded_steps p, fun s h => ?_⟩
  obtain ⟨s', hrun, hend⟩ := exists_calm_end p s
  obtain ⟨result, hs'⟩ := (h.calm hrun).exists_returned hend
  exact ⟨s', result, hrun, hs'⟩

theorem getRegs_returns_everyRegister :
    ∃ s' result, Relation.ReflTransGen (CalmStep everyRegister) (start everyRegister [3, 4]) s'
      ∧ s'.main = .returned result :=
  (getRegs_returns everyRegister [3, 4]).2 _ .refl

/-! ## Runs in which nothing fails -/

/-- The two ends of such a run, and what the thread that waits has returned. -/
structure Untroubled (p : Payload ρ ν) (fds : List Fd) (s : System ν) : Prop where
  invariant : Invariant p fds s
  transfer : Transfer.Untroubled p.format p.readVcpu p.decode fds s.transfer
  returned : ∀ result, s.main = .returned result → ∃ vcpus, result = .ok vcpus

theorem Untroubled.step (hfds : ∀ fd ∈ fds, ∃ r, p.readVcpu fd = .ok r)
    (h : Untroubled p fds s) (hstep : CalmStep p s s') : Untroubled p fds s' := by
  obtain ⟨e, hstep, hcalm⟩ := hstep
  have hinvariant := h.invariant.step hstep
  cases hstep with
  | transfer _ _ step =>
    exact { h with
      invariant := hinvariant
      transfer := h.transfer.step p.carries hfds ⟨_, step, hcalm⟩ }
  | callPayload _ _ => exact { h with invariant := hinvariant }
  | attachFails _ => exact absurd trivial hcalm
  | attachReturns _ returned =>
    obtain rfl := h.transfer.sent_ok _ returned
    exact { h with invariant := hinvariant, returned := fun _ hmain => nomatch hmain }
  | join _ returned =>
    obtain ⟨rfl, -, -⟩ := h.transfer.received_ok _ returned
    exact { h with
      invariant := hinvariant
      returned := fun _ hmain => ⟨_, (Phase.returned.inj hmain).symm⟩ }

theorem untroubled_of_run (hfds : ∀ fd ∈ fds, ∃ r, p.readVcpu fd = .ok r)
    (h : Relation.ReflTransGen (CalmStep p) (start p fds) s) : Untroubled p fds s := by
  induction h with
  | refl =>
    exact {
      invariant := invariant_start
      transfer := Transfer.untroubled_initial
      returned := fun _ h => nomatch h }
  | tail _ step ih => exact ih.step hfds step

/-- Such a run ends with the values of the listener returned. -/
theorem exists_vcpus (hfds : ∀ fd ∈ fds, ∃ r, p.readVcpu fd = .ok r)
    (h : Relation.ReflTransGen (CalmStep p) (start p fds) s) (hend : ∀ s', ¬ CalmStep p s s') :
    ∃ vcpus, s.main = .returned (.ok vcpus) := by
  have hreachable : Reachable p fds s := Reachable.calm .refl h
  obtain ⟨result, hmain⟩ := hreachable.exists_returned hend
  obtain ⟨vcpus, rfl⟩ := (untroubled_of_run hfds h).returned result hmain
  exact ⟨vcpus, hmain⟩

/-! ## What `get_regs` returns -/

/-- **What `get_regs` returns are the registers the payload has obtained**, of
all virtual CPUs and in their order, whatever the order of the steps. -/
theorem getRegs_returns_registers (p : Payload ρ ν) (fds : List Fd) (s : System ν)
    (h : Reachable p fds s) (vcpus : List ν) (hreturned : s.main = .returned (.ok vcpus)) :
    AreRegisters p fds vcpus :=
  h.invariant.areRegisters hreturned

theorem getRegs_returns_registers_everyRegister :
    ∃ s vcpus, Reachable everyRegister [3, 4] s ∧ s.main = .returned (.ok vcpus)
      ∧ AreRegisters everyRegister [3, 4] vcpus := by
  obtain ⟨s, hrun, hend⟩ := exists_calm_end everyRegister (start everyRegister [3, 4])
  obtain ⟨vcpus, hmain⟩ := exists_vcpus (fun fd _ => readVcpu_everyRegister fd) hrun hend
  have hreachable : Reachable everyRegister [3, 4] s := Reachable.calm .refl hrun
  exact ⟨s, vcpus, hreachable, hmain,
    getRegs_returns_registers everyRegister [3, 4] s hreachable vcpus hmain⟩

/-- **A run in which nothing fails ends with the registers of all virtual
CPUs**: it does not go on forever, and where it cannot go on they have been returned. -/
theorem getRegs_of_calm (p : Payload ρ ν) (fds : List Fd)
    (hfds : ∀ fd ∈ fds, ∃ r, p.readVcpu fd = .ok r) :
    (WellFounded fun s' s : System ν => CalmStep p s s')
      ∧ ∀ s, Relation.ReflTransGen (CalmStep p) (start p fds) s →
        (∀ s', ¬ CalmStep p s s') →
        ∃ vcpus, s.main = .returned (.ok vcpus) ∧ AreRegisters p fds vcpus := by
  refine ⟨Subrelation.wf (fun ⟨e, step, _⟩ => ⟨e, step⟩) (wellFounded_steps p),
    fun s h hend => ?_⟩
  obtain ⟨vcpus, hmain⟩ := exists_vcpus hfds h hend
  exact ⟨vcpus, hmain, (untroubled_of_run hfds h).invariant.areRegisters hmain⟩

theorem getRegs_of_calm_everyRegister :
    ∃ s vcpus, Relation.ReflTransGen (CalmStep everyRegister) (start everyRegister [3, 4]) s
      ∧ s.main = .returned (.ok vcpus) ∧ AreRegisters everyRegister [3, 4] vcpus := by
  obtain ⟨s, hrun, hend⟩ := exists_calm_end everyRegister (start everyRegister [3, 4])
  obtain ⟨vcpus, h⟩ := (getRegs_of_calm everyRegister [3, 4]
    fun fd _ => readVcpu_everyRegister fd).2 s hrun hend
  exact ⟨s, vcpus, hrun, h⟩

end KvmVcpus
