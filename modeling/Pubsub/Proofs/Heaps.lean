import Mathlib.Data.List.Perm.Basic
import Pubsub.Heap

/-!
# What heaps keep

Adding an item to a heap and taking its head neither lose nor double an item, whatever `before` is.
If `before` orders the items then both keep the heap in order, and the head comes before all others.

In between there is a hole: one place whose item does not count. `Heap.HasHole` says what is in
order around it. A hole that sinks stays one, a hole at a leaf can be filled by a rise, and so can
one at the end.
-/

namespace Pubsub

namespace Heap

variable {α : Type} {before : α → α → Bool} {heap rest : List α} {x y : α} {i steps : Nat}

theorem parent_lt (h : i ≠ 0) : parent i < i := by
  unfold parent
  omega

/-- The places below a place. -/
theorem parent_eq_iff {j : Nat} (hj : 0 < j) : parent j = i ↔ j = 2 * i + 1 ∨ j = 2 * i + 2 := by
  unfold parent
  omega

/-! ## No item is lost or doubled -/

/-- A hole that moves leaves the other items as they are. -/
theorem perm_eraseIdx_set {p : Nat} (hi : i < heap.length) (hp : heap[p]? = some y)
    (hne : i ≠ p) : ((heap.set i y).eraseIdx p).Perm (heap.eraseIdx i) := by
  have hmoved : (heap.set i y)[p]? = some y := (List.getElem?_set_ne hne).trans hp
  obtain ⟨hlt, hget⟩ := List.getElem?_eq_some_iff.1 hmoved
  have hself := List.getElem_cons_eraseIdx_perm hlt
  rw [hget] at hself
  exact List.perm_cons y |>.1 (hself.trans (List.set_perm_cons_eraseIdx hi y))

theorem perm_rise (before : α → α → Bool) (x : α) (steps : Nat) (hi : i < heap.length) :
    (rise before x steps i heap).Perm (x :: heap.eraseIdx i) := by
  induction steps generalizing i heap with
  | zero => exact List.set_perm_cons_eraseIdx hi x
  | succ steps ih =>
    unfold rise
    split
    · exact List.set_perm_cons_eraseIdx hi x
    · rename_i hne
      split
      · rename_i above habove
        split
        · have hlt := Nat.lt_trans (parent_lt hne) hi
          refine (ih (by rwa [List.length_set])).trans (List.Perm.cons x ?_)
          exact perm_eraseIdx_set hi habove (Nat.ne_of_gt (parent_lt hne))
        · exact List.set_perm_cons_eraseIdx hi x
      · exact List.set_perm_cons_eraseIdx hi x

theorem perm_sink (before : α → α → Bool) (steps : Nat) (hi : i < heap.length) :
    (sink before steps i heap).1 < (sink before steps i heap).2.length
      ∧ ((sink before steps i heap).2.eraseIdx (sink before steps i heap).1).Perm
        (heap.eraseIdx i) := by
  induction steps generalizing i heap with
  | zero => exact ⟨hi, .refl _⟩
  | succ steps ih =>
    -- The hole moves down to an item `y` at the place `p`, which moves up.
    have hmove : ∀ {p : Nat} {y : α}, i < p → heap[p]? = some y →
        (sink before steps p (heap.set i y)).1 < (sink before steps p (heap.set i y)).2.length
          ∧ ((sink before steps p (heap.set i y)).2.eraseIdx
            (sink before steps p (heap.set i y)).1).Perm (heap.eraseIdx i) := by
      intro p y hlt hp
      obtain ⟨hplt, -⟩ := List.getElem?_eq_some_iff.1 hp
      have hset : p < (heap.set i y).length := by rwa [List.length_set]
      obtain ⟨hleaf, hperm⟩ := ih hset
      exact ⟨hleaf, hperm.trans (perm_eraseIdx_set hi hp (Nat.ne_of_lt hlt))⟩
    unfold sink
    split
    · exact ⟨hi, .refl _⟩
    · rename_i left hleft _
      exact hmove (by omega) hleft
    · rename_i left right hleft hright
      split
      · exact hmove (by omega) hleft
      · exact hmove (by omega) hright

/-- Adding an item to a heap adds it. -/
theorem perm_push (before : α → α → Bool) (heap : List α) (x : α) :
    (push before heap x).Perm (x :: heap) := by
  have hin : heap.length < (heap ++ [x]).length := by simp
  have hrise := perm_rise before x heap.length hin
  rwa [List.eraseIdx_append_of_length_le (Nat.le_refl _), Nat.sub_self, List.eraseIdx_zero,
    List.tail_cons, List.append_nil] at hrise

/-- Taking the head of a heap takes nothing else. -/
theorem perm_of_pop? (h : pop? before heap = some (x, rest)) :
    heap.Perm (x :: rest) ∧ heap.head? = some x := by
  cases heap with
  | nil => cases h
  | cons head others =>
    unfold pop? at h
    dsimp only at h
    split at h
    · rename_i hnone
      rw [List.getLast?_eq_none_iff] at hnone
      subst hnone
      cases h
      exact ⟨.refl _, rfl⟩
    · rename_i last hlast
      obtain ⟨initial, rfl⟩ := List.getLast?_eq_some_iff.1 hlast
      rw [List.dropLast_concat] at h
      have hfirst : 0 < (last :: initial).length := Nat.zero_lt_succ _
      obtain ⟨hleaf, hsink⟩ := perm_sink before (initial ++ [last]).length hfirst
      cases h
      refine ⟨List.Perm.cons x ?_, rfl⟩
      refine (List.perm_append_singleton last initial).trans ?_
      exact ((perm_rise before last _ hleaf).trans (List.Perm.cons last hsink)).symm

theorem pop?_eq_none_iff : pop? before heap = none ↔ heap = [] := by
  cases heap with
  | nil => exact ⟨fun _ => rfl, fun _ => rfl⟩
  | cons head others =>
    unfold pop?
    dsimp only
    split <;> simp

/-! ## The order -/

/-- The relation `before` orders the items that satisfy `P`. Items of which neither comes before the
other are of the same rank. -/
structure Orders (before : α → α → Bool) (P : α → Prop) : Prop where
  asymm : ∀ {a b : α}, P a → P b → before a b = true → before b a = false
  trans : ∀ {a b c : α}, P a → P b → P c → before b a = false → before c b = false →
    before c a = false

/-- No item comes before its parent. -/
def IsHeap (before : α → α → Bool) (heap : List α) : Prop :=
  ∀ (i : Nat) (x y : α), 0 < i → heap[i]? = some x → heap[parent i]? = some y →
    before x y = false

/-- The heap is in order apart from the item at `i`: no other item comes before its parent, and none
of those below the hole comes before the one above it. -/
structure HasHole (before : α → α → Bool) (heap : List α) (i : Nat) : Prop where
  apart : ∀ {j : Nat} {x y : α}, 0 < j → j ≠ i → parent j ≠ i → heap[j]? = some x →
    heap[parent j]? = some y → before x y = false
  across : 0 < i → ∀ {j : Nat} {x y : α}, 0 < j → parent j = i → heap[j]? = some x →
    heap[parent i]? = some y → before x y = false

variable {P : α → Prop}

/-- A hole is filled by an item that comes before none below it, and not before the one above. -/
theorem HasHole.fill (h : HasHole before heap i)
    (hbelow : ∀ {j : Nat} {y : α}, 0 < j → parent j = i → heap[j]? = some y → before y x = false)
    (habove : 0 < i → ∀ {y : α}, heap[parent i]? = some y → before x y = false) :
    IsHeap before (heap.set i x) := by
  intro j z y hj hz hy
  rw [List.getElem?_set] at hz hy
  split at hz
  · rename_i hij
    subst hij
    rw [if_neg (Nat.ne_of_gt (parent_lt (Nat.ne_of_gt hj)))] at hy
    split at hz <;> cases hz
    exact habove hj hy
  · rename_i hij
    split at hy
    · rename_i hp
      split at hy <;> cases hy
      exact hbelow hj hp.symm hz
    · rename_i hp
      exact h.apart hj (Ne.symm hij) (Ne.symm hp) hz hy

/-- A hole moves up as the item above it moves down into it. -/
theorem HasHole.rise (h : HasHole before heap i) (ho : Orders before P) (hP : ∀ z ∈ heap, P z)
    (hi : 0 < i) (hy : heap[parent i]? = some y) :
    HasHole before (heap.set i y) (parent i) := by
  have hmem : ∀ {k : Nat} {z : α}, heap[k]? = some z → P z := fun hk =>
    hP _ (List.mem_of_getElem? hk)
  have hlt := parent_lt (Nat.ne_of_gt hi)
  constructor
  · intro j x z hj hne hp hx hz
    rw [List.getElem?_set] at hx hz
    split at hx
    · rename_i hij
      exact absurd (hij ▸ rfl) hp
    · rename_i hij
      split at hz
      · -- The item that moved down is above all that was below the hole.
        rename_i hpi
        split at hz <;> cases hz
        exact h.across hi hj hpi.symm hx hy
      · rename_i hpi
        exact h.apart hj (Ne.symm hij) (Ne.symm hpi) hx hz
  · intro hpos j x z hj hp hx hz
    have hlt' := parent_lt (Nat.ne_of_gt hpos)
    rw [List.getElem?_set_ne (by omega)] at hz
    have hyz : before y z = false := h.apart hpos (by omega) (by omega) hy hz
    rw [List.getElem?_set] at hx
    split at hx
    · split at hx <;> cases hx
      exact hyz
    · rename_i hij
      exact ho.trans (hmem hz) (hmem hy) (hmem hx) hyz
        (h.apart hj (Ne.symm hij) (by omega) hx (hp ▸ hy))

/-- **An item that rises from a hole comes to a place where it fits.** -/
theorem isHeap_rise (ho : Orders before P) (hP : ∀ z ∈ heap, P z) (hx : P x)
    (hsteps : i ≤ steps) (h : HasHole before heap i)
    (hbelow : ∀ {j : Nat} {y : α}, 0 < j → parent j = i → heap[j]? = some y →
      before y x = false) : IsHeap before (rise before x steps i heap) := by
  have hmem : ∀ {heap : List α}, (∀ z ∈ heap, P z) → ∀ {k : Nat} {z : α}, heap[k]? = some z → P z :=
    fun hP _ _ hk => hP _ (List.mem_of_getElem? hk)
  induction steps generalizing i heap with
  | zero =>
    refine h.fill hbelow fun hi => ?_
    omega
  | succ steps ih =>
    unfold rise
    split
    · rename_i hi
      exact h.fill hbelow fun hpos => absurd hi (Nat.ne_of_gt hpos)
    · rename_i hi
      have hlt := parent_lt hi
      split
      · rename_i above habove
        split
        · rename_i hb
          have hup : ∀ z ∈ heap.set i above, P z := fun z hz =>
            (List.mem_or_eq_of_mem_set hz).elim (hP z) fun h => h ▸ hmem hP habove
          refine ih hup (by omega) (h.rise ho hP (Nat.pos_of_ne_zero hi) habove) ?_
          intro j y hj hp hy
          have hxa := ho.asymm hx (hmem hP habove) hb
          rw [List.getElem?_set] at hy
          split at hy
          · split at hy <;> cases hy
            exact hxa
          · rename_i hij
            exact ho.trans hx (hmem hP habove) (hmem hP hy) hxa
              (h.apart hj (Ne.symm hij) (by omega) hy (hp ▸ habove))
        · rename_i hb
          refine h.fill hbelow fun _ {y} hy => ?_
          obtain rfl := Option.some.inj (habove.symm.trans hy)
          exact Bool.eq_false_iff.2 hb
      · rename_i hnone
        refine h.fill hbelow fun _ {y} hy => ?_
        cases hnone.symm.trans hy

/-- A hole moves down as an item below it that comes first moves up into it. -/
theorem HasHole.sink (h : HasHole before heap i) {p : Nat} (hp : heap[p]? = some y) (hpos : 0 < p)
    (hpi : parent p = i)
    (hfirst : ∀ {j : Nat} {z : α}, 0 < j → parent j = i → j ≠ p → heap[j]? = some z →
      before z y = false) : HasHole before (heap.set i y) p := by
  have hlt := parent_lt (Nat.ne_of_gt hpos)
  constructor
  · intro j x z hj hne hpj hx hz
    have hltj := parent_lt (Nat.ne_of_gt hj)
    rw [List.getElem?_set] at hx hz
    split at hx
    · rename_i hij
      subst hij
      rw [if_neg (by omega)] at hz
      split at hx <;> cases hx
      exact h.across hj hpos hpi hp hz
    · rename_i hij
      split at hz
      · rename_i hip
        split at hz <;> cases hz
        exact hfirst hj hip.symm hne hx
      · rename_i hip
        exact h.apart hj (Ne.symm hij) (Ne.symm hip) hx hz
  · intro _ j x z hj hpj hx hz
    have hltj := parent_lt (Nat.ne_of_gt hj)
    rw [hpi, List.getElem?_set] at hz
    rw [List.getElem?_set_ne (by omega)] at hx
    rw [if_pos rfl] at hz
    split at hz <;> cases hz
    exact h.apart hj (by omega) (by omega) hx (hpj ▸ hp)

/-- **A hole that sinks comes to a leaf.** -/
theorem hasHole_sink (ho : Orders before P) (hP : ∀ z ∈ heap, P z)
    (hsteps : heap.length ≤ i + steps) (hi : i < heap.length) (h : HasHole before heap i) :
    HasHole before (sink before steps i heap).2 (sink before steps i heap).1
      ∧ (sink before steps i heap).2[2 * (sink before steps i heap).1 + 1]? = none
      ∧ ∀ z ∈ (sink before steps i heap).2, P z := by
  induction steps generalizing i heap with
  | zero => omega
  | succ steps ih =>
    have hmove : ∀ {p : Nat} {y : α}, i < p → heap[p]? = some y →
        HasHole before (heap.set i y) p →
        HasHole before (sink before steps p (heap.set i y)).2
            (sink before steps p (heap.set i y)).1
          ∧ (sink before steps p (heap.set i y)).2[2 *
            (sink before steps p (heap.set i y)).1 + 1]? = none
          ∧ ∀ z ∈ (sink before steps p (heap.set i y)).2, P z := by
      intro p y hlt hp hhole
      obtain ⟨hplt, -⟩ := List.getElem?_eq_some_iff.1 hp
      refine ih (fun z hz => ?_) (by rw [List.length_set]; omega) (by rwa [List.length_set]) hhole
      exact (List.mem_or_eq_of_mem_set hz).elim (hP z) fun h => h ▸ hP _ (List.mem_of_getElem? hp)
    unfold sink
    split
    · rename_i hnone
      exact ⟨h, hnone, hP⟩
    · rename_i left hleft hnone
      refine hmove (by omega) hleft (h.sink hleft (by omega) (by unfold parent; omega) ?_)
      intro j z hj hp hne hz
      rcases (parent_eq_iff hj).1 hp with rfl | rfl
      · exact absurd rfl hne
      · cases hnone.symm.trans hz
    · rename_i left right hleft hright
      have hPl := hP _ (List.mem_of_getElem? hleft)
      have hPr := hP _ (List.mem_of_getElem? hright)
      split
      · rename_i hb
        refine hmove (by omega) hleft (h.sink hleft (by omega) (by unfold parent; omega) ?_)
        intro j z hj hp hne hz
        rcases (parent_eq_iff hj).1 hp with rfl | rfl
        · exact absurd rfl hne
        · obtain rfl := Option.some.inj (hright.symm.trans hz)
          exact ho.asymm hPl hPr hb
      · rename_i hb
        refine hmove (by omega) hright (h.sink hright (by omega) (by unfold parent; omega) ?_)
        intro j z hj hp hne hz
        rcases (parent_eq_iff hj).1 hp with rfl | rfl
        · obtain rfl := Option.some.inj (hleft.symm.trans hz)
          exact Bool.eq_false_iff.2 hb
        · exact absurd rfl hne

/-! ## Adding and taking -/

theorem IsHeap.nil : IsHeap before ([] : List α) := by
  intro i x y _ hx
  cases hx

/-- **A heap with one more item is a heap.** -/
theorem IsHeap.push (h : IsHeap before heap) (ho : Orders before P) (hP : ∀ z ∈ heap, P z)
    (hx : P x) : IsHeap before (push before heap x) := by
  have hin : ∀ {j : Nat} {z : α}, j ≠ heap.length → (heap ++ [x])[j]? = some z →
      j < heap.length ∧ heap[j]? = some z := by
    intro j z hne hz
    have hlt : j < heap.length := by
      have := (List.getElem?_eq_some_iff.1 hz).1
      rw [List.length_append, List.length_singleton] at this
      omega
    exact ⟨hlt, (List.getElem?_append_left hlt).symm.trans hz⟩
  have hnone : ∀ {j : Nat} {z : α}, 0 < j → parent j = heap.length →
      (heap ++ [x])[j]? ≠ some z := by
    intro j z hj hp hz
    have := parent_lt (Nat.ne_of_gt hj)
    have := (List.getElem?_eq_some_iff.1 hz).1
    rw [List.length_append, List.length_singleton] at this
    omega
  refine isHeap_rise ho (fun z hz => ?_) hx (Nat.le_refl _) ⟨?_, ?_⟩ ?_
  · rcases List.mem_append.1 hz with hz | hz
    · exact hP z hz
    · rwa [List.mem_singleton.1 hz]
  · intro j u v hj hne hp hu hv
    exact h _ _ _ hj (hin hne hu).2 (hin hp hv).2
  · intro _ j u v hj hp hu
    exact absurd hu (hnone hj hp)
  · intro j u hj hp hu
    exact absurd hu (hnone hj hp)

/-- **A heap without its head is a heap.** -/
theorem IsHeap.of_pop? (h : IsHeap before heap) (ho : Orders before P) (hP : ∀ z ∈ heap, P z)
    (hpop : pop? before heap = some (x, rest)) : IsHeap before rest := by
  cases heap with
  | nil => cases hpop
  | cons head others =>
    unfold pop? at hpop
    dsimp only at hpop
    split at hpop
    · cases hpop
      exact .nil
    · rename_i last hlast
      obtain ⟨initial, rfl⟩ := List.getLast?_eq_some_iff.1 hlast
      rw [List.dropLast_concat] at hpop
      -- The last item at the head is out of place, and nothing else is.
      have hget : ∀ {j : Nat} {z : α}, 0 < j → (last :: initial)[j]? = some z →
          (head :: (initial ++ [last]))[j]? = some z := by
        intro j z hj hz
        obtain ⟨j, rfl⟩ := Nat.exists_eq_succ_of_ne_zero (Nat.ne_of_gt hj)
        rw [List.getElem?_cons_succ] at hz ⊢
        exact (List.getElem?_append_left (List.getElem?_eq_some_iff.1 hz).1).trans hz
      have hhole : HasHole before (last :: initial) 0 :=
        ⟨fun hj _ hp hx hy => h _ _ _ hj (hget hj hx) (hget (Nat.pos_of_ne_zero hp) hy),
          fun h0 => absurd h0 (Nat.lt_irrefl 0)⟩
      have hPs : ∀ z ∈ last :: initial, P z := by
        intro z hz
        refine hP z (List.mem_cons_of_mem _ ?_)
        rw [List.mem_append, List.mem_singleton]
        exact (List.mem_cons.1 hz).symm
      have hsteps : (last :: initial).length ≤ 0 + (initial ++ [last]).length := by simp
      obtain ⟨hsunk, hleaf, hall⟩ := hasHole_sink ho hPs hsteps (Nat.zero_lt_succ _) hhole
      cases hpop
      refine isHeap_rise ho hall (hPs last List.mem_cons_self) (Nat.le_refl _) hsunk ?_
      intro j y hj hp hy
      -- There is nothing below a leaf.
      have hlt := (List.getElem?_eq_some_iff.1 hy).1
      have hge := List.getElem?_eq_none_iff.1 hleaf
      rcases (parent_eq_iff hj).1 hp with rfl | rfl <;> omega

/-- No item of a heap comes before its head. -/
theorem IsHeap.not_before_head (h : IsHeap before heap) (ho : Orders before P)
    (hP : ∀ z ∈ heap, P z) (hy : heap.head? = some y) (hx : x ∈ heap) : before x y = false := by
  rw [List.head?_eq_getElem?] at hy
  have hmem : ∀ {k : Nat} {z : α}, heap[k]? = some z → P z := fun hk =>
    hP _ (List.mem_of_getElem? hk)
  obtain ⟨i, hget⟩ := List.getElem?_of_mem hx
  clear hx
  induction i using Nat.strongRecOn generalizing x with
  | ind i ih =>
    by_cases hi : i = 0
    · subst hi
      obtain rfl := Option.some.inj (hy.symm.trans hget)
      refine Bool.eq_false_iff.2 fun hb => ?_
      exact Bool.eq_false_iff.1 (ho.asymm (hmem hy) (hmem hy) hb) hb
    · have hlt := parent_lt hi
      have hin := Nat.lt_trans hlt (List.getElem?_eq_some_iff.1 hget).1
      have hp : heap[parent i]? = some heap[parent i] := List.getElem?_eq_getElem hin
      exact ho.trans (hmem hy) (hmem hp) (hmem hget) (ih _ hlt hp)
        (h _ _ _ (Nat.pos_of_ne_zero hi) hget hp)

/-- **What is taken from a heap comes first**: no other item comes before it. -/
theorem IsHeap.not_before_of_pop? (h : IsHeap before heap) (ho : Orders before P)
    (hP : ∀ z ∈ heap, P z) (hpop : pop? before heap = some (x, rest)) (hy : y ∈ rest) :
    before y x = false := by
  obtain ⟨hperm, hhead⟩ := perm_of_pop? hpop
  exact h.not_before_head ho hP hhead (hperm.mem_iff.2 (List.mem_cons_of_mem x hy))

end Heap

end Pubsub
