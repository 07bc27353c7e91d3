import BulkLoad.Record
import Mathlib.Algebra.Order.Floor.Div

/-!
# Cutting a batch into sub-batches

`CutsInto` says what it takes to cut a list into consecutive groups of one size: all groups are full
but the last, which may be shorter, none is empty, they are as many as the size asks for, and one
after the other they are the list. There is exactly one such cut, and `subBatches` makes it
(`cuts_into_iff`). A size of zero counts as one.
-/

namespace BulkLoad

variable {α : Type} {elements group : List α} {groups : List (List α)} {size : Nat}

/-- Groups cut a list into consecutive parts of this size. -/
structure CutsInto (elements : List α) (size : Nat) (groups : List (List α)) : Prop where
  number : groups.length = elements.length ⌈/⌉ size
  nonempty : ∀ group ∈ groups, group ≠ []
  full : ∀ group ∈ groups.dropLast, group.length = size
  last : ∀ group ∈ groups.getLast?, group.length ≤ size
  complete : groups.flatten = elements

/-! ## Cuts, group by group -/

/-- A number that is not zero takes one group more than what a full group leaves of it. -/
theorem ceil_div_of_pos {n size : Nat} (hn : 0 < n) (hsize : 0 < size) :
    n ⌈/⌉ size = (n - size) ⌈/⌉ size + 1 := by
  simp only [Nat.ceilDiv_eq_add_pred_div]
  rcases Nat.le_total n size with hle | hle
  · -- The one group is not full, or just so, and nothing is left.
    have hfirst : n + size - 1 = size + (n - 1) := by omega
    have hrest : n - size + size - 1 = size - 1 := by omega
    rw [hfirst, Nat.add_div_left _ hsize, Nat.div_eq_of_lt (by omega), hrest,
      Nat.div_eq_of_lt (by omega)]
  · have hsum : n + size - 1 = n - size + size - 1 + size := by omega
    rw [hsum, Nat.add_div_right _ hsize]

/-- No groups cut the empty list, and no other. -/
theorem cuts_nil_iff : CutsInto elements size [] ↔ elements = [] := by
  constructor
  · exact fun h => h.complete.symm
  · rintro rfl
    exact ⟨(zero_ceilDiv size).symm, nofun, nofun, nofun, rfl⟩

/-- The first group of a cut takes as much as it can, and the others cut what is left. -/
theorem CutsInto.of_cons (h : CutsInto elements size (group :: groups)) (hsize : 0 < size) :
    elements ≠ [] ∧ group = elements.take size ∧ CutsInto (elements.drop size) size groups := by
  obtain ⟨hnumber, hnonempty, hfull, hlast, rfl⟩ := h
  have hgroup : group ≠ [] := hnonempty group List.mem_cons_self
  refine ⟨fun hnil => hgroup (List.append_eq_nil_iff.mp hnil).1, ?_⟩
  cases groups with
  | nil =>
      have hle : group.length ≤ size := hlast group rfl
      rw [List.flatten_cons, List.flatten_nil, List.append_nil, List.take_of_length_le hle,
        List.drop_of_length_le hle]
      exact ⟨rfl, cuts_nil_iff.mpr rfl⟩
  | cons second rest =>
      have hlength : group.length = size := hfull group List.mem_cons_self
      have hpos : 0 < (group ++ (second :: rest).flatten).length := by
        rw [List.length_append]
        omega
      rw [List.flatten_cons] at hnumber ⊢
      rw [List.take_left' hlength, List.drop_left' hlength]
      refine ⟨rfl, ?_, fun g hg => hnonempty g (List.mem_cons_of_mem _ hg),
        fun g hg => hfull g (List.mem_cons_of_mem _ hg), hlast, rfl⟩
      rw [ceil_div_of_pos hpos hsize, List.length_cons, Nat.add_right_cancel_iff] at hnumber
      rw [hnumber, List.length_append, hlength, Nat.add_sub_cancel_left]

/-- A group that takes as much as it can, before groups that cut what is left, makes a cut. -/
theorem CutsInto.cons (h : CutsInto (elements.drop size) size groups) (hsize : 0 < size)
    (hne : elements ≠ []) : CutsInto elements size (elements.take size :: groups) where
  number := by
    rw [List.length_cons, h.number, List.length_drop,
      ← ceil_div_of_pos (List.length_pos_of_ne_nil hne) hsize]
  nonempty := by
    intro g hg hnil
    rcases List.mem_cons.mp hg with rfl | hg
    · rcases List.take_eq_nil_iff.mp hnil with hzero | hempty
      · omega
      · exact hne hempty
    · exact h.nonempty g hg hnil
  full := by
    cases groups with
    | nil => nofun
    | cons second rest =>
        intro g hg
        rcases List.mem_cons.mp hg with rfl | hg
        · -- What is left is not empty, so the first group is full.
          have hleft := congrArg List.length h.complete
          have hsecond := List.length_pos_of_ne_nil (h.nonempty second List.mem_cons_self)
          rw [List.flatten_cons, List.length_append, List.length_drop] at hleft
          rw [List.length_take]
          omega
        · exact h.full g hg
  last := by
    cases groups with
    | nil =>
        intro g hg
        obtain rfl := Option.some.inj hg
        exact List.length_take_le size elements
    | cons second rest => exact h.last
  complete := by rw [List.flatten_cons, h.complete, List.take_append_drop]

/-! ## Sub-batches -/

/-- The sub-batches of a list cut it into parts of their size. -/
theorem cuts_sub_batches (elements : List α) (size : Nat) :
    CutsInto elements (max size 1) (subBatches elements size) := by
  fun_induction subBatches elements size with
  | case1 => exact cuts_nil_iff.mpr rfl
  | case2 first rest ih =>
      exact ih.cons (by omega) (List.cons_ne_nil first rest)

/-- Sub-batches lose nothing and keep the order. -/
theorem flatten_sub_batches (elements : List α) (size : Nat) :
    (subBatches elements size).flatten = elements :=
  (cuts_sub_batches elements size).complete

/-- No sub-batch is empty. -/
theorem ne_nil_of_mem_sub_batches (h : group ∈ subBatches elements size) : group ≠ [] :=
  (cuts_sub_batches elements size).nonempty group h

/-- The sub-batches of a list are the one way to cut it into consecutive parts of their size, where
a size of zero counts as one: as many parts as the size goes into the length of the list, rounded
up, all of them full but the last, which may be shorter, and none empty. -/
theorem cuts_into_iff (elements : List α) (size : Nat) (groups : List (List α)) :
    CutsInto elements (max size 1) groups ↔ groups = subBatches elements size := by
  constructor
  · intro h
    fun_induction subBatches elements size generalizing groups with
    | case1 =>
        cases groups with
        | nil => rfl
        | cons group groups => exact absurd rfl (h.of_cons (by omega)).1
    | case2 first rest ih =>
        cases groups with
        | nil => exact absurd (cuts_nil_iff.mp h) (List.cons_ne_nil first rest)
        | cons group groups =>
            obtain ⟨-, rfl, hrest⟩ := h.of_cons (by omega)
            rw [ih groups hrest]
  · rintro rfl
    exact cuts_sub_batches elements size

/-- A size of zero cuts a list into its elements. -/
example : subBatches ['a', 'b'] 0 = [['a'], ['b']] := by cbv

end BulkLoad
