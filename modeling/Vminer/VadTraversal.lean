import Vminer.WalkTermination

/-!
# The walk over the descriptors of a process

`process_for_each_vma` hands the descriptors of a process to a callback from left to
right, until that breaks the walk off, or an error of the callback or of the memory ends
it. A child that cannot be read is part of the tree: what comes before it in the order is
still handed out.

No child is a null pointer, and so may be the root. But it is taken for a descriptor, and
its left child is read: a process without descriptors is an error
(`processForEachVma_visits_iff`).
-/

/-- **A tree of descriptors**, as its pointers are read: one of them may not be
readable. -/
inductive VadTree where
  | empty
  | unreadable (error : VmError)
  | node (addr : VirtualAddress) (left right : VadTree)

namespace VadTree

/-- **The order of a walk**: from left to right, with the pointers that cannot be read
at their places. -/
def inorder : VadTree → List (Except VmError Os.Vma)
  | .empty => []
  | .unreadable error => [.error error]
  | .node addr left right => left.inorder ++ .ok ⟨addr⟩ :: right.inorder

/-- The longest path down. -/
def height : VadTree → ℕ
  | .empty => 0
  | .unreadable _ => 0
  | .node _ left right => max left.height right.height + 1

end VadTree

/-- **What a walk does at a place**: a descriptor is handed to the callback, and a pointer
that cannot be read is an error. -/
def visit {σ : Type} (f : Callback σ Os.Vma) : Callback σ (Except VmError Os.Vma)
  | .ok vma, s => f vma s
  | .error error, _ => Exec.fail error

namespace Windows

variable {B : Type} [Memory B] [HasVcpus B] {σ : Type}

/-- **The tree behind a pointer** that is read, in either layout of its nodes. -/
def HoldsVads (windows : Windows B) : VadTree → Exec VmError VirtualAddress → Prop
  | .empty, read => read = .ok 0
  | .unreadable error, read => read = Exec.fail error
  | .node addr left right, read => read = .ok addr ∧ addr ≠ 0
      ∧ windows.HoldsVads left (windows.leftChild addr)
      ∧ windows.HoldsVads right (windows.rightChild addr)

/-- **The descriptors of a process are visited in their order**: the callback gets one
after the other, up to the first break or error, and what it makes of its state is
returned. -/
def VisitsInOrder (windows : Windows B) (proc : Os.Process) (t : VadTree) : Prop :=
  ∃ n, ∀ fuel, n ≤ fuel → ∀ (σ : Type) (f : Callback σ Os.Vma) (s : σ),
    windows.processForEachVma fuel proc f s = do
      let (_, s) ← forEach (visit f) t.inorder s
      return s

variable {windows : Windows B}

/-- A read comes first in what is done after it. -/
theorem bind_andThen {α : Type} (read : Exec VmError α)
    (part : α → Exec VmError (ControlFlow × σ)) (rest : σ → Exec VmError (ControlFlow × σ)) :
    (read >>= fun a => ControlFlow.andThen (part a) rest)
      = ControlFlow.andThen (read >>= part) rest := by
  cases read with
  | ok a => rfl
  | error e => rfl

/-- **One side of a descriptor is walked in its order.** -/
theorem iterateSide_eq_forEach (f : Callback σ Os.Vma) {t : VadTree}
    {read : Exec VmError VirtualAddress} (h : windows.HoldsVads t read) {fuel : ℕ}
    (hfuel : t.height ≤ fuel) (s : σ) :
    (read >>= fun p => windows.iterateSide (fun mmvad => f ⟨mmvad⟩) fuel p s)
      = forEach (visit f) t.inorder s := by
  induction t generalizing read fuel s with
  | empty =>
    rw [h, Exec.ok_bind]
    exact iterateSide_null _ fuel s rfl
  | unreadable error =>
    rw [h]
    rfl
  | node addr left right ihl ihr =>
    obtain ⟨rfl, hne, hl, hr⟩ := h
    obtain ⟨fuel, rfl⟩ := Nat.exists_eq_add_one.mpr (Nat.zero_lt_of_lt hfuel)
    have hheight : max left.height right.height ≤ fuel := Nat.le_of_succ_le_succ hfuel
    rw [Exec.ok_bind, iterateSide_node _ _ _ (beq_eq_false_iff_ne.mpr hne), iterateTree_succ,
      bind_andThen, ihl hl (le_trans (le_max_left _ _) hheight), VadTree.inorder, forEach_append]
    refine congrArg _ (funext fun s => ?_)
    rw [forEach]
    exact congrArg _ (funext fun s => ihr hr (le_trans (le_max_right _ _) hheight) s)

/-- **A null pointer has no children**: nothing is read. -/
theorem leftChild_null : windows.leftChild 0 = Exec.fail .nullPtr := by
  unfold leftChild vadChild
  split
  · rfl
  · rfl

/-- **The walk visits the descriptors in their order**, provided that there is one. -/
theorem visitsInOrder {proc : Os.Process} {t : VadTree}
    (h : windows.HoldsVads t (windows.vadRoot proc)) (hne : t ≠ .empty) :
    windows.VisitsInOrder proc t := by
  refine ⟨t.height, fun fuel hfuel σ f s => ?_⟩
  rw [← iterateSide_eq_forEach f h hfuel s, processForEachVma]
  cases t with
  | empty => exact absurd rfl hne
  | unreadable error => rw [h]; rfl
  | node addr left right =>
    rw [h.1, Exec.ok_bind, Exec.ok_bind,
      iterateSide_node _ _ _ (beq_eq_false_iff_ne.mpr h.2.1)]

/-- Without one it fails. -/
theorem processForEachVma_of_null {proc : Os.Process} (h : windows.vadRoot proc = .ok 0)
    (fuel : ℕ) (f : Callback σ Os.Vma) (s : σ) :
    windows.processForEachVma (fuel + 1) proc f s = Exec.fail .nullPtr := by
  rw [processForEachVma, h, Exec.ok_bind, iterateTree_succ, leftChild_null]
  rfl

/-- Where it should return. -/
theorem not_visitsInOrder_of_null {proc : Os.Process} (h : windows.vadRoot proc = .ok 0) :
    ¬ windows.VisitsInOrder proc .empty := by
  rintro ⟨n, hn⟩
  have hok := hn (n + 1) (Nat.le_succ n) Unit (fun _ s => return (.Continue, s)) ()
  rw [processForEachVma_of_null h] at hok
  cases hok

/-- **The descriptors of a process are visited in their order** if and only if there is
one: over every finite tree, in either layout of the nodes, and with pointers in it that
cannot be read. -/
theorem processForEachVma_visits_iff (windows : Windows B) (proc : Os.Process) (t : VadTree)
    (h : windows.HoldsVads t (windows.vadRoot proc)) :
    windows.VisitsInOrder proc t ↔ t ≠ .empty := by
  refine ⟨?_, visitsInOrder h⟩
  rintro hvisits rfl
  exact not_visitsInOrder_of_null h hvisits

/-- The three descriptors of a guest are visited. -/
theorem processForEachVma_visits_threeVads :
    threeVads.VisitsInOrder ⟨8⟩ (.node 16 (.node 48 .empty .empty) (.node 80 .empty .empty)) := by
  refine (processForEachVma_visits_iff threeVads ⟨8⟩ _ ?_).mpr (by rintro ⟨⟩)
  have hnull : ∀ child : Exec VmError VirtualAddress, child = .ok 0 →
      threeVads.HoldsVads .empty child := fun _ h => h
  refine ⟨by decide +kernel, by decide, ⟨by decide +kernel, by decide, ?_, ?_⟩,
    by decide +kernel, by decide, ?_, ?_⟩
  all_goals exact hnull _ (by decide +kernel)

/-- **A process without descriptors**, for the pointer at 56 is null. -/
theorem not_processForEachVma_visits :
    threeVads.HoldsVads .empty (threeVads.vadRoot ⟨56⟩)
      ∧ (∀ fuel (σ : Type) (f : Callback σ Os.Vma) (s : σ),
        threeVads.processForEachVma (fuel + 1) ⟨56⟩ f s = Exec.fail .nullPtr)
      ∧ ¬ threeVads.VisitsInOrder ⟨56⟩ .empty := by
  have hnull : threeVads.vadRoot ⟨56⟩ = .ok 0 := by decide +kernel
  exact ⟨hnull, fun fuel σ f s => processForEachVma_of_null hnull fuel f s,
    not_visitsInOrder_of_null hnull⟩

end Windows
