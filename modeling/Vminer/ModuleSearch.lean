import Vminer.IntervalSearch
import Vminer.Os

/-!
# Modules by address

While a stack is unwound the module of an instruction is looked up by binary
search in a vector of modules that are sorted by where they start. The public
`find_module_by_address` asks one module after the other.

The modules of one vector may overlap (`EndTogether`: then they end at the same
address, as the spans of a file do that is mapped from its beginning twice in a
row). The two lookups agree on all addresses exactly if they do not, and if no
module reaches into the half of the kernel, whose addresses the public lookup
does not look for in a process (`findByAddress_agrees_iff`).
-/

namespace Callstack

/-- `Module`: a module and the addresses it spans. -/
structure Module where
  start : VirtualAddress
  stop : VirtualAddress
  module : Os.Module
deriving DecidableEq, Repr

namespace Module

/-- `Module::contains` -/
def contains (m : Module) (addr : VirtualAddress) : Bool := m.start ≤ addr && addr < m.stop

/-- The first address, as a number. -/
def first (m : Module) : ℕ := m.start.toNat

/-- The address after the last one, as a number. -/
def bound (m : Module) : ℕ := m.stop.toNat

theorem contains_eq_covers (m : Module) (addr : VirtualAddress) :
    m.contains addr = covers first bound addr.toNat m :=
  (Bool.decide_and _ _).symm

end Module

/-- `find_module_by_address` and `find_by_address`, in a sorted vector. -/
def findByAddress (modules : List Module) (addr : VirtualAddress) : Option Module :=
  match binarySearchByKey (m := Id) Module.first addr.toNat modules with
  | .ok i => modules[i]?
  | .error 0 => none
  | .error (i + 1) => modules[i]?.filter fun m => m.contains addr

/-- The first module that contains an address. -/
def firstContaining (modules : List Module) (addr : VirtualAddress) : Option Os.Module :=
  (modules.find? fun m => m.contains addr).map Module.module

/-- **The binary search is the lookup of an interval.** -/
theorem findByAddress_eq_lookup (modules : List Module) (addr : VirtualAddress) :
    findByAddress modules addr = lookup Module.first Module.bound addr.toNat modules := by
  have hcontains : (fun m : Module => m.contains addr)
      = covers Module.first Module.bound addr.toNat :=
    funext fun m => m.contains_eq_covers addr
  unfold findByAddress lookup
  match binarySearchByKey (m := Id) Module.first addr.toNat modules with
  | .ok i => rfl
  | .error 0 => rfl
  | .error (i + 1) => exact congrArg (Option.filter · modules[i]?) hcontains

/-- The scan for an address. -/
theorem firstContaining_eq (modules : List Module) (addr : VirtualAddress) :
    firstContaining modules addr
      = (modules.find? (covers Module.first Module.bound addr.toNat)).map Module.module := by
  unfold firstContaining
  simp only [Module.contains_eq_covers]

/-- The addresses of the kernel are the upper half. -/
theorem isKernel_iff (addr : VirtualAddress) :
    VirtualAddress.isKernel addr = true ↔ 2 ^ 63 ≤ addr.toNat := by
  rw [VirtualAddress.isKernel, BitVec.msb_eq_decide, decide_eq_true_eq]

/-! ## When the two lookups agree -/

/-- **A vector of modules**: each spans an address, they are sorted by where
they start, and those that overlap end together. -/
structure EndTogether (modules : List Module) : Prop where
  nonempty : ∀ m ∈ modules, m.first < m.bound
  sorted : modules.Pairwise fun a b => a.first < b.first
  overlap : modules.Pairwise fun a b => a.bound ≤ b.first ∨ a.bound = b.bound
  /-- A module is in the vector once. -/
  distinct : ∀ a ∈ modules, ∀ b ∈ modules, a.module = b.module → a = b

/-- No two modules overlap, and none reaches into the half of the kernel. -/
structure Separate (modules : List Module) : Prop where
  disjoint : modules.Pairwise fun a b => a.bound ≤ b.first
  user : ∀ m ∈ modules, m.bound ≤ 2 ^ 63

variable {modules : List Module}

/-- Modules that do not overlap are looked up as they are scanned for. -/
theorem findByAddress_eq_firstContaining (hne : ∀ m ∈ modules, m.first < m.bound)
    (hd : modules.Pairwise fun a b => a.bound ≤ b.first) (addr : VirtualAddress) :
    (findByAddress modules addr).map Module.module = firstContaining modules addr := by
  rw [findByAddress_eq_lookup, firstContaining_eq, lookup_eq_find? hd hne]

/-- Where the lookups agree no two modules overlap. -/
theorem EndTogether.disjoint_of_agrees (h : EndTogether modules) {a b : Module}
    (ha : a ∈ modules) (hb : b ∈ modules) (hab : a.first < b.first)
    (hagree : (findByAddress modules b.start).map Module.module
      = firstContaining modules b.start) : a.bound ≤ b.first := by
  by_contra hlt
  have hacov : covers Module.first Module.bound b.start.toNat a = true :=
    covers_iff.mpr ⟨hab.le, not_le.mp hlt⟩
  have hbcov : covers Module.first Module.bound b.start.toNat b = true :=
    covers_iff.mpr ⟨le_rfl, h.nonempty b hb⟩
  have hlookup : findByAddress modules b.start = some b := by
    rw [findByAddress_eq_lookup]
    exact (lookup_eq_some_iff h.sorted h.nonempty _ b).mpr ⟨hb, hbcov, fun y _ hle => hle⟩
  obtain ⟨x, hx⟩ := Option.isSome_iff_exists.mp (List.find?_isSome.mpr ⟨b, hb, hbcov⟩)
  rw [hlookup, firstContaining_eq, hx, Option.map_some, Option.map_some, Option.some.injEq]
    at hagree
  obtain rfl := h.distinct b hb x (List.mem_of_find?_eq_some hx) hagree
  -- the scan does not pass over the module before
  obtain ⟨-, before, after, rfl, hbefore⟩ := List.find?_eq_some_iff_append.mp hx
  obtain hmem | hmem := List.mem_append.mp ha
  · exact absurd hacov (by simpa using hbefore a hmem)
  obtain rfl | hmem := List.mem_cons.mp hmem
  · exact absurd hab (lt_irrefl _)
  · have hsorted := (List.pairwise_append.mp h.sorted).2.1
    exact absurd hab (not_lt.mpr ((List.pairwise_cons.mp hsorted).1 a hmem).le)

/-- **The two lookups agree on all addresses** exactly if the modules are
separate. -/
theorem findByAddress_agrees_iff (h : EndTogether modules) :
    (∀ addr, (findByAddress modules addr).map Module.module
        = if VirtualAddress.isKernel addr then none else firstContaining modules addr)
      ↔ Separate modules := by
  constructor
  · intro hagree
    have huser : ∀ m ∈ modules, m.bound ≤ 2 ^ 63 := by
      intro m hm
      by_contra hlt
      have hne := h.nonempty m hm
      -- the last address of the module
      let last : VirtualAddress := m.stop - 1
      have hlast : last.toNat = m.bound - 1 :=
        toNat_sub_of_le (show (1 : U64).toNat ≤ m.bound from by
          show 1 ≤ _
          omega)
      have hcov : covers Module.first Module.bound last.toNat m = true :=
        covers_iff.mpr ⟨by omega, by omega⟩
      have hnone := hagree last
      rw [if_pos ((isKernel_iff last).mpr (by omega)), Option.map_eq_none_iff,
        findByAddress_eq_lookup] at hnone
      exact lookup_ne_none h.sorted h.overlap hm hcov hnone
    refine ⟨h.sorted.imp_of_mem fun {a b} ha hb hab => ?_, huser⟩
    have hb' := h.nonempty b hb
    have hbuser := huser b hb
    have hkernel : ¬ VirtualAddress.isKernel b.start = true := by
      rw [isKernel_iff]
      exact not_le.mpr (hb'.trans_le hbuser)
    have hagree := hagree b.start
    rw [if_neg hkernel] at hagree
    exact h.disjoint_of_agrees ha hb hab hagree
  · intro hsep addr
    rw [findByAddress_eq_firstContaining h.nonempty hsep.disjoint]
    split
    · next hkernel =>
      rw [firstContaining_eq, Option.map_eq_none_iff, List.find?_eq_none]
      intro m hm
      rw [covers_eq_false_of_stop_le ((hsep.user m hm).trans ((isKernel_iff addr).mp hkernel))]
      exact Bool.false_ne_true
    · rfl

end Callstack
