import Mathlib.Data.List.FinRange
import Mathlib.Data.List.Sort
import Mathlib.Order.RelClasses

/-!
# Sorting by comparisons

A procedure that sorts by comparing two items at a time is a tree of questions, with an order of the
items at each leaf.  For one strict weak order all stable procedures come to the same order.  They
also fail alike: where comparisons with one of several items fail, none of them gets around it.
-/

namespace ModuleResolution

namespace Sorting

/-- A way to sort `n` items: ask whether one comes before another and go on by the answer, until the
order of their positions is known. -/
inductive Plan (n : Nat) where
  | answer (order : List (Fin n))
  | ask (first second : Fin n) (before notBefore : Plan n)

namespace Plan

variable {n : Nat} {ε : Type}

/-- The order that a plan comes to with a comparison that may fail. -/
def run (compare : Fin n -> Fin n -> Except ε Bool) : Plan n -> Except ε (List (Fin n))
  | .answer order => .ok order
  | .ask first second before notBefore => do
      if <- compare first second then run compare before else run compare notBefore

/-- The order that a plan comes to with a comparison that never fails. -/
def follow (less : Fin n -> Fin n -> Bool) : Plan n -> List (Fin n)
  | .answer order => order
  | .ask first second before notBefore =>
      if less first second then follow less before else follow less notBefore

theorem run_eq_ok_follow {compare : Fin n -> Fin n -> Except ε Bool} {less : Fin n -> Fin n -> Bool}
    (h : ∀ i j, compare i j = .ok (less i j)) (plan : Plan n) :
    run compare plan = .ok (follow less plan) := by
  induction plan with
  | answer order => rfl
  | ask first second before notBefore ihbefore ihnot =>
      rw [run, follow, h]
      cases less first second with
      | true => exact ihbefore
      | false => exact ihnot

theorem follow_of_run_eq_ok {compare : Fin n -> Fin n -> Except ε Bool}
    {less : Fin n -> Fin n -> Bool}
    (h : ∀ i j answer, compare i j = .ok answer -> less i j = answer) {plan : Plan n}
    {order : List (Fin n)} (hrun : run compare plan = .ok order) : follow less plan = order := by
  induction plan with
  | answer result =>
      cases hrun
      rfl
  | ask first second before notBefore ihbefore ihnot =>
      rw [run] at hrun
      rw [follow]
      cases hcompare : compare first second with
      | error cause =>
          rw [hcompare] at hrun
          cases hrun
      | ok answer =>
          rw [hcompare] at hrun
          rw [h first second answer hcompare]
          cases answer with
          | true => exact ihbefore hrun
          | false => exact ihnot hrun

end Plan

/-! ## Stable orders -/

section Order

variable {n : Nat} {less : Fin n -> Fin n -> Prop}

/-- The first position comes first: its item comes before the other one, or they tie. -/
def Precedes (less : Fin n -> Fin n -> Prop) (i j : Fin n) : Prop :=
  less i j ∨ (¬less j i ∧ i < j)

/-- The order has all positions, in the order of their items.  Items that tie stay as they were. -/
structure IsStableOrder (less : Fin n -> Fin n -> Prop) (order : List (Fin n)) : Prop where
  complete : ∀ i, i ∈ order
  ordered : order.Pairwise (Precedes less)

theorem Precedes.asymm [Std.Asymm less] {i j : Fin n} (h : Precedes less i j) :
    ¬Precedes less j i := by
  have hasymm : less i j -> ¬less j i := Std.Asymm.asymm i j
  rintro (hless | ⟨hnot, hlt⟩)
  · rcases h with hless' | ⟨hnot', -⟩
    · exact hasymm hless' hless
    · exact hnot' hless
  · rcases h with hless' | ⟨-, hlt'⟩
    · exact hnot hless'
    · exact Fin.lt_asymm hlt hlt'

theorem IsStableOrder.unique [Std.Asymm less] {order order' : List (Fin n)}
    (h : IsStableOrder less order) (h' : IsStableOrder less order') : order = order' := by
  have hantisymm : Std.Antisymm (Precedes less) := ⟨fun _ _ hij hji => absurd hji hij.asymm⟩
  have hirrefl : Std.Irrefl (Precedes less) := ⟨fun _ hii => hii.asymm hii⟩
  exact h.ordered.eq_of_mem_iff h'.ordered fun i => iff_of_true (h.complete i) (h'.complete i)

/-- A plan is stable if it comes to the stable order of every strict weak order. -/
def Plan.IsStable (plan : Plan n) : Prop :=
  ∀ less : Fin n -> Fin n -> Bool, IsStrictWeakOrder (Fin n) (less · ·) ->
    IsStableOrder (less · ·) (plan.follow less)

end Order

/-! ## Insertion -/

section Insertion

variable {n : Nat} {less : Fin n -> Fin n -> Bool}

namespace Plan

/-- Ask for the first item of a list that another one comes before, put that one in front of it, and
go on with the new list. -/
def placing (i : Fin n) (next : List (Fin n) -> Plan n) : List (Fin n) -> Plan n
  | [] => next [i]
  | j :: rest => .ask i j (next (i :: j :: rest)) (placing i (fun order => next (j :: order)) rest)

def insertion : List (Fin n) -> List (Fin n) -> Plan n
  | [], sorted => .answer sorted
  | i :: pending, sorted => placing i (insertion pending) sorted

theorem follow_placing (i : Fin n) (next : List (Fin n) -> Plan n) (order : List (Fin n)) :
    follow less (placing i next order) =
      follow less (next (order.orderedInsert (less · ·) i)) := by
  induction order generalizing next with
  | nil => rfl
  | cons j rest ih =>
      rw [placing, follow, List.orderedInsert_cons]
      split
      · rfl
      · exact ih _

theorem follow_insertion (pending sorted : List (Fin n)) :
    follow less (insertion pending sorted) =
      pending.foldl (fun order i => order.orderedInsert (less · ·) i) sorted := by
  induction pending generalizing sorted with
  | nil => rfl
  | cons i rest ih =>
      rw [insertion, follow_placing, ih]
      rfl

end Plan

theorem Precedes.left_of_less (h : IsStrictWeakOrder (Fin n) (less · ·)) {i j k : Fin n}
    (hij : less i j) (hjk : Precedes (less · ·) j k) : less i k := by
  have htrans : ∀ a b c, less a b -> less b c -> less a c := h.trans
  rcases hjk with hjk | ⟨hkj, -⟩
  · exact htrans i j k hij hjk
  · by_contra hik
    have hki : ¬less k i := fun hki => hkj (htrans k i j hki hij)
    have hjk : ¬less j k := fun hjk => hik (htrans i j k hij hjk)
    exact (h.incomp_trans i k j ⟨hik, hki⟩ ⟨hkj, hjk⟩).1 hij

theorem pairwise_orderedInsert (h : IsStrictWeakOrder (Fin n) (less · ·)) {i : Fin n}
    {order : List (Fin n)} (hlater : ∀ j ∈ order, j < i)
    (horder : order.Pairwise (Precedes (less · ·))) :
    (order.orderedInsert (less · ·) i).Pairwise (Precedes (less · ·)) := by
  induction order with
  | nil => exact List.pairwise_singleton _ _
  | cons j rest ih =>
      obtain ⟨hj, hrest⟩ := List.pairwise_cons.mp horder
      rw [List.orderedInsert_cons]
      split
      · next hless =>
          refine List.pairwise_cons.mpr ⟨fun k hk => .inl ?_, horder⟩
          rcases List.mem_cons.mp hk with rfl | hk
          · exact hless
          · exact Precedes.left_of_less h hless (hj k hk)
      · next hless =>
          refine List.pairwise_cons.mpr ⟨fun k hk => ?_, ?_⟩
          · rcases (List.mem_orderedInsert _).mp hk with rfl | hk
            · exact .inr ⟨hless, hlater j List.mem_cons_self⟩
            · exact hj k hk
          · exact ih (fun k hk => hlater k (List.mem_cons_of_mem j hk)) hrest

theorem pairwise_foldl_orderedInsert (h : IsStrictWeakOrder (Fin n) (less · ·))
    {pending sorted : List (Fin n)} (hpending : pending.Pairwise (· < ·))
    (hlater : ∀ i ∈ pending, ∀ j ∈ sorted, j < i)
    (hsorted : sorted.Pairwise (Precedes (less · ·))) :
    (pending.foldl (fun order i => order.orderedInsert (less · ·) i) sorted).Pairwise
      (Precedes (less · ·)) := by
  induction pending generalizing sorted with
  | nil => exact hsorted
  | cons i rest ih =>
      obtain ⟨hi, hrest⟩ := List.pairwise_cons.mp hpending
      refine ih hrest ?_ (pairwise_orderedInsert h (hlater i List.mem_cons_self) hsorted)
      intro k hk j hj
      rcases (List.mem_orderedInsert _).mp hj with rfl | hj
      · exact hi k hk
      · exact hlater k (List.mem_cons_of_mem i hk) j hj

theorem mem_foldl_orderedInsert {i : Fin n} {pending sorted : List (Fin n)} :
    i ∈ pending.foldl (fun order j => order.orderedInsert (less · ·) j) sorted ↔
      i ∈ pending ∨ i ∈ sorted := by
  induction pending generalizing sorted with
  | nil => simp
  | cons j rest ih =>
      rw [List.foldl_cons, ih, List.mem_orderedInsert, List.mem_cons]
      grind

theorem Plan.isStable_insertion : (Plan.insertion (List.finRange n) []).IsStable := by
  intro less h
  rw [Plan.follow_insertion]
  exact {
    complete := fun i => mem_foldl_orderedInsert.mpr (.inl (List.mem_finRange i))
    ordered := pairwise_foldl_orderedInsert h (List.pairwise_lt_finRange n) (by simp) .nil }

end Insertion

/-! ## An item that cannot be compared -/

section Blind

variable {n : Nat} {less : Fin n -> Fin n -> Bool}

def displace (front : Bool) (k : Fin n) (less : Fin n -> Fin n -> Bool) (i j : Fin n) : Bool :=
  if i = k then front && decide (j ≠ k) else if j = k then !front else less i j

theorem isStrictWeakOrder_displace (front : Bool) (k : Fin n)
    (h : IsStrictWeakOrder (Fin n) (less · ·)) :
    IsStrictWeakOrder (Fin n) (displace front k less · ·) := by
  have hirrefl : ∀ i, ¬less i i := h.irrefl
  have htrans : ∀ a b c, less a b -> less b c -> less a c := h.trans
  have hties : ∀ a b c, ¬less a b ∧ ¬less b a -> ¬less b c ∧ ¬less c b -> ¬less a c ∧ ¬less c a :=
    h.incomp_trans
  refine { irrefl := fun i => ?_, trans := fun a b c => ?_, incomp_trans := fun a b c => ?_ }
  · unfold displace
    grind
  · unfold displace
    grind
  · unfold displace
    grind

theorem not_ordered_displace {order : List (Fin n)} {k other : Fin n} (hother : other ≠ k)
    (hk : k ∈ order) (hmem : other ∈ order)
    (hfront : order.Pairwise (Precedes (displace true k less · ·))) :
    ¬order.Pairwise (Precedes (displace false k less · ·)) := by
  intro hback
  have hpairs := List.pairwise_iff_getElem.mp (hfront.and hback)
  obtain ⟨p, hp, hpk⟩ := List.getElem_of_mem hk
  obtain ⟨q, hq, hqother⟩ := List.getElem_of_mem hmem
  have hne : p ≠ q := by
    rintro rfl
    exact hother (hqother.symm.trans hpk)
  rcases Nat.lt_or_gt_of_ne hne with hlt | hlt
  · have hlast := (hpairs p q hp hq hlt).2
    rw [hpk, hqother] at hlast
    simp [Precedes, displace, hother] at hlast
  · have hfirst := (hpairs q p hq hp hlt).1
    rw [hpk, hqother] at hfirst
    simp [Precedes, displace, hother] at hfirst

/-- Where every comparison with one item fails, a stable plan fails, if there is another item.  It
cannot leave the item aside: the other answers would be the same with the item in front and with the
item at the end, and so would the order. -/
theorem Plan.IsStable.exists_error {ε : Type} {compare : Fin n -> Fin n -> Except ε Bool}
    {plan : Plan n} (hplan : plan.IsStable) (h : IsStrictWeakOrder (Fin n) (less · ·))
    (hless : ∀ i j answer, compare i j = .ok answer -> less i j = answer) {k other : Fin n}
    (hother : other ≠ k)
    (hblind : ∀ i, (∃ cause, compare k i = .error cause) ∧ ∃ cause, compare i k = .error cause) :
    ∃ cause, plan.run compare = .error cause := by
  cases hrun : plan.run compare with
  | error cause => exact ⟨cause, rfl⟩
  | ok order =>
      exfalso
      have horder : ∀ front, IsStableOrder (displace front k less · ·) order := by
        intro front
        have hanswers : ∀ i j answer, compare i j = .ok answer ->
            displace front k less i j = answer := by
          intro i j answer hanswer
          have hi : i ≠ k := by
            rintro rfl
            obtain ⟨cause, hcause⟩ := (hblind j).1
            rw [hcause] at hanswer
            cases hanswer
          have hj : j ≠ k := by
            rintro rfl
            obtain ⟨cause, hcause⟩ := (hblind i).2
            rw [hcause] at hanswer
            cases hanswer
          rw [displace, if_neg hi, if_neg hj]
          exact hless i j answer hanswer
        rw [← Plan.follow_of_run_eq_ok hanswers hrun]
        exact hplan _ (isStrictWeakOrder_displace front k h)
      exact not_ordered_displace hother ((horder true).complete k) ((horder true).complete other)
        (horder true).ordered (horder false).ordered

end Blind

end Sorting

end ModuleResolution
