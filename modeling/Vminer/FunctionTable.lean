import Vminer.IntervalSearch
import Vminer.Unwind

/-!
# The function table with holes

The exception directory is read from the memory of a module, of which pages may be
missing: their bytes are read as zeros. No field of an entry should be zero, so an
entry that has a zero is known to be damaged.

The binary search stops at a damaged entry, and then all entries are looked at one
after the other. Entries that are damaged may be looked past only if it is certain
what they are not: the answer is that of the whole table, or an error
(`findRuntimeFunction_degrades`).
-/

namespace RuntimeFunction

/-- The first offset of a function, as a number. -/
def first (rt : RuntimeFunction) : ℕ := rt.start.toNat

/-- The offset after the last one, as a number. -/
def bound (rt : RuntimeFunction) : ℕ := rt.stop.toNat

theorem contains_eq_covers (rt : RuntimeFunction) (offset : U32) :
    rt.contains offset = covers first bound offset.toNat rt :=
  (Bool.decide_and _ _).symm

/-- **Some fields of an entry are read as zeros.** -/
structure ZeroedTo (rt rt' : RuntimeFunction) : Prop where
  start : rt'.start = rt.start ∨ rt'.start = 0
  stop : rt'.stop = rt.stop ∨ rt'.stop = 0
  ptr : rt'.ptr = rt.ptr ∨ rt'.ptr = 0

/-- An entry without a zero is not damaged. -/
theorem ZeroedTo.eq_of_isValid {rt rt' : RuntimeFunction} (h : ZeroedTo rt rt')
    (hvalid : rt'.isValid = true) : rt' = rt := by
  obtain ⟨start, stop, ptr⟩ := rt
  obtain ⟨start', stop', ptr'⟩ := rt'
  simp only [isValid, Bool.and_eq_true, bne_iff_ne] at hvalid
  obtain rfl := h.start.resolve_right hvalid.1.1
  obtain rfl := h.stop.resolve_right hvalid.1.2
  obtain rfl := h.ptr.resolve_right hvalid.2
  rfl

end RuntimeFunction

open RuntimeFunction

/-- **A function table**: no field is zero, no function empty, and they are sorted by
where they start and do not overlap. -/
structure IsFunctionTable (functions : List RuntimeFunction) : Prop where
  nonzero : ∀ rt ∈ functions, rt.start ≠ 0 ∧ rt.stop ≠ 0 ∧ rt.ptr ≠ 0
  nonempty : ∀ rt ∈ functions, rt.start < rt.stop
  sorted : functions.Pairwise fun a b => a.start ≤ b.start
  disjoint : functions.Pairwise fun a b =>
    ∀ offset, ¬ (a.contains offset = true ∧ b.contains offset = true)

/-- The function that an offset is in. -/
def functionAt (functions : List RuntimeFunction) (offset : U32) : Option RuntimeFunction :=
  functions.find? fun rt => rt.contains offset

namespace IsFunctionTable

variable {functions : List RuntimeFunction}

theorem isValid (h : IsFunctionTable functions) {rt : RuntimeFunction} (hrt : rt ∈ functions) :
    rt.isValid = true := by
  obtain ⟨hstart, hstop, hptr⟩ := h.nonzero rt hrt
  rw [RuntimeFunction.isValid, Bool.and_eq_true, Bool.and_eq_true]
  exact ⟨⟨bne_iff_ne.mpr hstart, bne_iff_ne.mpr hstop⟩, bne_iff_ne.mpr hptr⟩

/-- The functions follow one another. -/
theorem pairwise (h : IsFunctionTable functions) :
    functions.Pairwise fun a b => a.bound ≤ b.first := by
  refine (h.sorted.and h.disjoint).imp_of_mem fun {a b} _ hb ⟨hle, hdisjoint⟩ => ?_
  by_contra hlt
  -- otherwise both have the first offset of the later one
  refine hdisjoint b.start ⟨?_, ?_⟩
  · rw [contains_eq_covers]
    exact covers_iff.mpr ⟨hle, not_le.mp hlt⟩
  · rw [contains_eq_covers]
    exact covers_iff.mpr ⟨le_rfl, h.nonempty b hb⟩

/-- The function that an offset is in is the one that contains it. -/
theorem functionAt_eq_some (h : IsFunctionTable functions) {offset : U32} {rt : RuntimeFunction}
    (hrt : rt ∈ functions) (hcontains : rt.contains offset = true) :
    functionAt functions offset = some rt := by
  unfold functionAt
  simp only [contains_eq_covers] at hcontains ⊢
  exact (find?_eq_some_iff_of_disjoint (h.pairwise.imp Or.inl)).mpr ⟨hrt, hcontains⟩

/-- Nothing is in a gap between two functions. -/
theorem functionAt_eq_none (h : IsFunctionTable functions) {offset : U32} {i : ℕ}
    (hbelow : i = 0 ∨ ∃ rt, functions[i - 1]? = some rt ∧ rt.bound ≤ offset.toNat)
    (habove : i = functions.length ∨ ∃ rt, functions[i]? = some rt ∧ offset.toNat < rt.first) :
    functionAt functions offset = none := by
  refine List.find?_eq_none.mpr fun rt hrt hcontains => ?_
  rw [contains_eq_covers, covers_iff] at hcontains
  obtain ⟨j, hj, rfl⟩ := List.mem_iff_getElem.mp hrt
  have hpairwise := List.pairwise_iff_getElem.mp h.pairwise
  obtain hlt | hle := Nat.lt_or_ge j i
  · obtain rfl | ⟨below, hget, hbound⟩ := hbelow
    · exact absurd hlt (Nat.not_lt_zero j)
    obtain ⟨hi, rfl⟩ := List.getElem?_eq_some_iff.mp hget
    have hjbound : functions[j].bound ≤ offset.toNat := by
      obtain heq | hlt' := Nat.eq_or_lt_of_le (Nat.le_sub_one_of_lt hlt)
      · simp only [heq]
        exact hbound
      · have hle := hpairwise j (i - 1) hj hi hlt'
        have hne : functions[i - 1].first < functions[i - 1].bound :=
          h.nonempty _ (List.getElem_mem hi)
        omega
    exact absurd hcontains.2 (not_lt.mpr hjbound)
  · obtain rfl | ⟨above, hget, hfirst⟩ := habove
    · exact absurd hj (not_lt.mpr hle)
    obtain ⟨hi, rfl⟩ := List.getElem?_eq_some_iff.mp hget
    have hjfirst : offset.toNat < functions[j].first := by
      obtain heq | hlt := Nat.eq_or_lt_of_le hle
      · simp only [← heq]
        exact hfirst
      · have hle := hpairwise i j hi hj hlt
        have hne : functions[i].first < functions[i].bound := h.nonempty _ (List.getElem_mem hi)
        omega
    exact absurd hcontains.1 (not_le.mpr hjfirst)

end IsFunctionTable

namespace UnwindData

variable {functions functions' : List RuntimeFunction} {offset : U32}

/-! ## One entry after the other -/

/-- What the slower search stops with is an answer or an error. -/
theorem findLinear_eq (offset : U32) (functions' : List RuntimeFunction)
    (lastValid : Option RuntimeFunction) :
    (∃ e, findLinear offset lastValid functions' = Exec.fail e)
      ∨ ∃ rt, findLinear offset lastValid functions' = .ok rt := by
  induction functions' generalizing lastValid with
  | nil =>
    cases lastValid with
    | none => exact Or.inl ⟨_, rfl⟩
    | some rt => exact Or.inr ⟨_, rfl⟩
  | cons function functions' ih =>
    rw [findLinear]
    split
    · exact ih none
    · split
      · cases lastValid with
        | none => exact Or.inl ⟨_, rfl⟩
        | some rt => exact Or.inr ⟨_, rfl⟩
      · split
        · exact Or.inr ⟨_, rfl⟩
        · exact ih (some function)

/-- **A function that it finds** is in the whole table and has the offset. -/
theorem findLinear_eq_some (h : List.Forall₂ ZeroedTo functions functions')
    {lastValid : Option RuntimeFunction} {rt : RuntimeFunction}
    (hfind : findLinear offset lastValid functions' = .ok (some rt)) :
    rt ∈ functions ∧ rt.contains offset = true := by
  induction h generalizing lastValid with
  | nil => cases lastValid <;> cases hfind
  | @cons function function' functions functions' hzeroed _ ih =>
    rw [findLinear] at hfind
    split at hfind
    · exact (ih hfind).imp_left (List.mem_cons_of_mem _)
    · next hvalid =>
      split at hfind
      · cases lastValid <;> cases hfind
      · next hstart =>
        split at hfind
        · next hstop =>
          obtain rfl := Option.some.inj (Except.ok.inj hfind)
          rw [hzeroed.eq_of_isValid (by simpa using hvalid)] at hstart hstop ⊢
          refine ⟨List.mem_cons_self, ?_⟩
          rw [contains_eq_covers]
          exact covers_iff.mpr ⟨not_lt.mp hstart, hstop⟩
        · exact (ih hfind).imp_left (List.mem_cons_of_mem _)

/-- **If it finds none**, no function of the whole table has the offset. It ends right
behind an entry that is not damaged, and so are all functions before that one below the
offset. -/
theorem findLinear_eq_none (h : List.Forall₂ ZeroedTo functions functions')
    (htable : IsFunctionTable functions) {lastValid : Option RuntimeFunction}
    (hfind : findLinear offset lastValid functions' = .ok none) :
    (∀ rt ∈ functions, rt.contains offset = false)
      ∧ (lastValid = none → ∃ rt ∈ functions, rt.bound ≤ offset.toNat) := by
  induction h generalizing lastValid with
  | nil =>
    refine ⟨fun _ hrt => absurd hrt List.not_mem_nil, fun hnone => ?_⟩
    rw [hnone] at hfind
    cases hfind
  | @cons function function' functions functions' hzeroed _ ih =>
    have hrest : IsFunctionTable functions :=
      ⟨fun rt hrt => htable.nonzero rt (List.mem_cons_of_mem _ hrt),
        fun rt hrt => htable.nonempty rt (List.mem_cons_of_mem _ hrt),
        (List.pairwise_cons.mp htable.sorted).2, (List.pairwise_cons.mp htable.disjoint).2⟩
    have hfollow := (List.pairwise_cons.mp htable.pairwise).1
    have hbelow : function.bound ≤ offset.toNat → function.contains offset = false := by
      rw [contains_eq_covers]
      exact covers_eq_false_of_stop_le
    rw [findLinear] at hfind
    split at hfind
    · -- a damaged entry is below one that ends below the offset
      obtain ⟨hnone, hlast⟩ := ih hrest hfind
      obtain ⟨rt, hrt, hbound⟩ := hlast rfl
      have hne : rt.first < rt.bound := hrest.nonempty rt hrt
      have hle := hfollow rt hrt
      exact ⟨List.forall_mem_cons.mpr ⟨hbelow (by omega), hnone⟩,
        fun _ => ⟨rt, List.mem_cons_of_mem _ hrt, hbound⟩⟩
    · next hvalid =>
      rw [hzeroed.eq_of_isValid (by simpa using hvalid)] at hfind
      split at hfind
      · next hstart =>
        have hlt : offset.toNat < function.first := hstart
        have hne : function.first < function.bound := htable.nonempty function List.mem_cons_self
        refine ⟨List.forall_mem_cons.mpr ⟨?_, fun rt hrt => ?_⟩, fun hnone => ?_⟩
        · rw [contains_eq_covers]
          exact covers_eq_false_of_lt_start hlt
        · rw [contains_eq_covers]
          exact covers_eq_false_of_lt_start (by have := hfollow rt hrt; omega)
        · rw [hnone] at hfind
          cases hfind
      · split at hfind
        · cases hfind
        · next hstop =>
          have hle : function.bound ≤ offset.toNat := not_lt.mp hstop
          exact ⟨List.forall_mem_cons.mpr ⟨hbelow hle, (ih hrest hfind).1⟩,
            fun _ => ⟨function, List.mem_cons_self, hle⟩⟩

/-! ## Both searches -/

/-- An entry that is not damaged is that of the whole table. -/
theorem getElem?_of_isValid (h : List.Forall₂ ZeroedTo functions functions') {i : ℕ}
    {rt : RuntimeFunction} (hget : functions'[i]? = some rt) (hvalid : rt.isValid = true) :
    functions[i]? = some rt := by
  obtain ⟨hi, rfl⟩ := List.getElem?_eq_some_iff.mp hget
  have hi' : i < functions.length := h.length_eq ▸ hi
  have hzeroed := h.get hi' hi
  rw [List.getElem?_eq_getElem hi']
  exact congrArg some (hzeroed.eq_of_isValid hvalid).symm

/-- What `find_runtime_function` makes of its binary search. -/
def afterSearch (functions : List RuntimeFunction) (offset : U32) (search : Except ℕ ℕ × Bool) :
    Exec VmError (Option RuntimeFunction) :=
  if search.2 then findLinear offset none functions
  else
    match search.1 with
    | .ok i =>
      match functions[i]? with
      | some fun' => .ok (some fun')
      | none => Exec.panicked
    | .error 0 => .ok none
    | .error (i + 1) =>
      match functions[i]? with
      | some fun' => .ok (if fun'.contains offset then some fun' else none)
      | none => Exec.panicked

theorem findRuntimeFunction_eq (functions : List RuntimeFunction) (offset : U32) :
    findRuntimeFunction functions offset = afterSearch functions offset
      ((binarySearchBy (probe RuntimeFunction.isValid first offset.toNat) functions).run false) :=
  rfl

/-- **Where the binary search comes across no damaged entry** it answers as in the whole
table. -/
theorem findRuntimeFunction_of_not_corrupted (h : List.Forall₂ ZeroedTo functions functions')
    (htable : IsFunctionTable functions) {pos : Except ℕ ℕ}
    (hsearch : (binarySearchBy (probe RuntimeFunction.isValid first offset.toNat)
      functions').run false = (pos, false)) :
    findRuntimeFunction functions' offset = .ok (functionAt functions offset) := by
  have hresult := isProbeResult_binarySearchBy hsearch
  rw [findRuntimeFunction_eq, hsearch, afterSearch, if_neg Bool.false_ne_true]
  match pos, hresult with
  | .ok i, ⟨rt, hget, hvalid, hkey⟩ =>
    have hget' := getElem?_of_isValid h hget hvalid
    have hmem := List.mem_of_getElem? hget'
    have hcontains : rt.contains offset = true := by
      rw [contains_eq_covers]
      exact covers_iff.mpr ⟨hkey.le, hkey ▸ htable.nonempty rt hmem⟩
    dsimp only
    rw [hget, htable.functionAt_eq_some hmem hcontains]
  | .error 0, ⟨_, _, habove⟩ =>
    dsimp only
    rw [htable.functionAt_eq_none (Or.inl rfl)]
    refine habove.imp (fun hlen => hlen.trans h.length_eq.symm) fun ⟨rt, hget, hvalid, hkey⟩ => ?_
    exact ⟨rt, getElem?_of_isValid h hget hvalid, hkey⟩
  | .error (i + 1), ⟨_, hbelow, habove⟩ =>
    obtain ⟨rt, hget, hvalid, hkey⟩ := hbelow.resolve_left (Nat.succ_ne_zero i)
    have hget : functions'[i]? = some rt := hget
    have hget' := getElem?_of_isValid h hget hvalid
    dsimp only
    rw [hget]
    dsimp only
    cases hcontains : rt.contains offset with
    | true => rw [htable.functionAt_eq_some (List.mem_of_getElem? hget') hcontains, if_pos rfl]
    | false =>
      have hbound : rt.bound ≤ offset.toNat := by
        rw [contains_eq_covers] at hcontains
        exact not_lt.mp fun hlt => Bool.false_ne_true (hcontains.symm.trans
          (covers_iff.mpr ⟨hkey.le, hlt⟩))
      rw [htable.functionAt_eq_none (i := i + 1) (Or.inr ⟨rt, hget', hbound⟩),
        if_neg Bool.false_ne_true]
      refine habove.imp (fun hlen => hlen.trans h.length_eq.symm) fun ⟨rt, hget, hvalid, hkey⟩ => ?_
      exact ⟨rt, getElem?_of_isValid h hget hvalid, hkey⟩

/-- **A damaged table is searched without wrong answers**: what is found is what the whole
table says, or there is an error, and there is none where nothing is damaged. -/
theorem findRuntimeFunction_degrades (htable : IsFunctionTable functions) :
    (∀ functions', List.Forall₂ ZeroedTo functions functions' → ∀ offset,
        (∃ e, findRuntimeFunction functions' offset = Exec.fail e)
          ∨ findRuntimeFunction functions' offset = .ok (functionAt functions offset))
      ∧ ∀ offset, findRuntimeFunction functions offset = .ok (functionAt functions offset) := by
  constructor
  · intro functions' h offset
    match hsearch : (binarySearchBy (probe RuntimeFunction.isValid first offset.toNat)
        functions').run false with
    | (pos, false) => exact Or.inr (findRuntimeFunction_of_not_corrupted h htable hsearch)
    | (pos, true) =>
      rw [findRuntimeFunction_eq, hsearch, afterSearch, if_pos rfl]
      obtain herr | ⟨rt, hrt⟩ := findLinear_eq offset functions' none
      · exact Or.inl herr
      · refine Or.inr ?_
        rw [hrt]
        cases rt with
        | some rt =>
          obtain ⟨hmem, hcontains⟩ := findLinear_eq_some h hrt
          rw [htable.functionAt_eq_some hmem hcontains]
        | none =>
          have hnone := (findLinear_eq_none h htable hrt).1
          refine congrArg Except.ok (List.find?_eq_none.mpr fun rt hmem => ?_).symm
          rw [hnone rt hmem]
          exact Bool.false_ne_true
  · intro offset
    have hself : List.Forall₂ ZeroedTo functions functions :=
      List.forall₂_same.mpr fun rt _ => ⟨Or.inl rfl, Or.inl rfl, Or.inl rfl⟩
    match hsearch : (binarySearchBy (probe RuntimeFunction.isValid first offset.toNat)
        functions).run false with
    | (pos, false) => exact findRuntimeFunction_of_not_corrupted hself htable hsearch
    | (pos, true) =>
      obtain ⟨rt, hmem, hvalid⟩ := isProbeResult_binarySearchBy hsearch
      cases (htable.isValid hmem).symm.trans hvalid

/-- A table of two functions, the first of which is damaged. -/
theorem findRuntimeFunction_degrades_two :
    (∃ e, findRuntimeFunction [⟨0, 0x20, 0x100⟩, ⟨0x30, 0x40, 0x110⟩] 0x18 = Exec.fail e)
      ∨ findRuntimeFunction [⟨0, 0x20, 0x100⟩, ⟨0x30, 0x40, 0x110⟩] 0x18
        = .ok (some ⟨0x10, 0x20, 0x100⟩) := by
  have htable : IsFunctionTable [⟨0x10, 0x20, 0x100⟩, ⟨0x30, 0x40, 0x110⟩] := by
    refine ⟨by decide, by decide, by decide, List.pairwise_pair.mpr fun offset ⟨ha, hb⟩ => ?_⟩
    rw [contains_eq_covers, covers_iff] at ha hb
    exact absurd (hb.1.trans_lt ha.2) (by decide)
  refine (findRuntimeFunction_degrades htable).1 _ ?_ 0x18
  exact .cons ⟨Or.inr rfl, Or.inl rfl, Or.inl rfl⟩
    (.cons ⟨Or.inl rfl, Or.inl rfl, Or.inl rfl⟩ .nil)

end UnwindData
