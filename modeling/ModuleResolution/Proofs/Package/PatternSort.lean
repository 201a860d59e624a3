import ModuleResolution.Proofs.Package.PatternOrder
import ModuleResolution.Proofs.Sorting

/-!
# Sorting pattern keys

The order of two keys answers that the second comes first when neither has a star and they are
equally long, whichever stands second.  A sort asks only whether one key comes before another, and
that is a strict weak order, so every stable sort comes to the same list.
-/

namespace ModuleResolution

namespace Package

namespace PatternKey

open Sorting

/-- Where the first star stands, plus one, or the length of a key without a star. -/
def base (key : Text) : Nat :=
  if '*' ∈ key then key.idxOf '*' + 1 else key.length

/-- The longer base wins, then a key with a star over one without, then the longer of two keys with
a star. -/
inductive Beats (a b : Text) : Prop where
  | base (h : base b < base a)
  | star (hbase : PatternKey.base a = PatternKey.base b) (ha : '*' ∈ a) (hb : '*' ∉ b)
  | length (hbase : PatternKey.base a = PatternKey.base b) (ha : '*' ∈ a) (hb : '*' ∈ b)
      (h : b.length < a.length)

theorem beats_iff {a b : Text} :
    Beats a b ↔ base b < base a ∨
      base a = base b ∧ '*' ∈ a ∧ ('*' ∈ b -> b.length < a.length) := by
  constructor
  · intro h
    cases h with
    | base h => exact .inl h
    | star hbase ha hb => exact .inr ⟨hbase, ha, fun hb' => absurd hb' hb⟩
    | length hbase ha hb h => exact .inr ⟨hbase, ha, fun _ => h⟩
  · rintro (h | ⟨hbase, ha, h⟩)
    · exact .base h
    · by_cases hb : '*' ∈ b
      · exact .length hbase ha hb (h hb)
      · exact .star hbase ha hb

instance (a b : Text) : Decidable (Beats a b) :=
  decidable_of_iff _ beats_iff.symm

theorem baseLength_eq_base (key : Text) : baseLength key = base key := by
  rcases Text.not_mem_or_eq_append_cons '*' key with hnot | ⟨front, trailer, hfront, rfl⟩
  · simp [baseLength, base, Text.cut_of_not_mem hnot, hnot]
  · rw [baseLength_eq hfront, base, if_pos (by simp), List.idxOf_append_of_notMem hfront]
    simp

theorem order_eq_lt_iff_beats (a b : Text) : order a b = .lt ↔ Beats a b := by
  simp only [order, baseLength_eq_base, beats_iff, List.contains_eq_mem]
  by_cases ha : '*' ∈ a
  · by_cases hb : '*' ∈ b
    · simp only [ha, hb, decide_true, Bool.not_true, Bool.false_eq_true, if_false]
      grind
    · simp only [ha, hb, decide_true, decide_false, Bool.not_true, Bool.not_false, if_true,
        Bool.false_eq_true, if_false]
      grind
  · simp only [ha, decide_false, Bool.not_false, if_true]
    grind

theorem Beats.asymm {a b : Text} (h : Beats a b) : ¬Beats b a := by
  rw [beats_iff] at *
  grind

theorem Beats.connected {a c : Text} (h : Beats a c) (b : Text) : Beats a b ∨ Beats b c := by
  simp only [beats_iff] at *
  grind

instance : IsStrictWeakOrder Text Beats :=
  have : Std.Asymm Beats := ⟨fun _ _ h => h.asymm⟩
  have : IsOrderConnected Text Beats := ⟨fun _ b _ h => h.connected b⟩
  isStrictWeakOrder_of_isOrderConnected

/-! ## Comparing -/

theorem compare_eq_ok {a b : Text} (ha : isValid a = true) (hb : isValid b = true) :
    compare a b = .ok (order a b) := by
  rw [compare, check, check, if_pos ha, if_pos hb]
  rfl

theorem compare_eq_error {a b : Text} (h : isValid a = false ∨ isValid b = false) :
    ∃ cause, compare a b = .error cause := by
  rw [compare, check, check]
  by_cases ha : isValid a = true
  · have hb : isValid b = false := h.resolve_left (by simp [ha])
    exact ⟨⟨b⟩, by simp [ha, hb]; rfl⟩
  · exact ⟨⟨a⟩, by simp [ha]; rfl⟩

theorem compare_eq_lt_iff {a b : Text} (ha : isValid a = true) (hb : isValid b = true) :
    compare a b = .ok .lt ↔ Beats a b := by
  rw [compare_eq_ok ha hb, Except.ok.injEq, order_eq_lt_iff_beats]

theorem compare_eq_gt {a b : Text} (ha : isValid a = true) (hb : isValid b = true)
    (hstar : '*' ∉ a) (hstar' : '*' ∉ b) (hlength : a.length = b.length) :
    compare a b = .ok .gt := by
  rw [compare_eq_ok ha hb, order, baseLength_eq_base, baseLength_eq_base]
  simp [base, hstar, hstar', hlength]

/-- Does the first key come before the second one?  All that a sort wants to know. -/
def comesBefore (a b : Text) : Except InvalidPatternKey Bool :=
  (compare a b).map (· == .lt)

theorem comesBefore_eq_ok {a b : Text} (ha : isValid a = true) (hb : isValid b = true) :
    comesBefore a b = .ok (decide (Beats a b)) := by
  have hlt : (order a b == .lt) = decide (Beats a b) := by
    simp [beq_eq_decide, order_eq_lt_iff_beats]
  rw [comesBefore, compare_eq_ok ha hb, ← hlt]
  rfl

theorem comesBefore_eq_error {a b : Text} (h : isValid a = false ∨ isValid b = false) :
    ∃ cause, comesBefore a b = .error cause := by
  obtain ⟨cause, hcause⟩ := compare_eq_error h
  exact ⟨cause, by rw [comesBefore, hcause]; rfl⟩

theorem beats_of_comesBefore_eq_ok {a b : Text} {answer : Bool}
    (h : comesBefore a b = .ok answer) : decide (Beats a b) = answer := by
  by_cases hinvalid : isValid a = false ∨ isValid b = false
  · obtain ⟨cause, hcause⟩ := comesBefore_eq_error hinvalid
    rw [hcause] at h
    cases h
  · simp only [not_or, Bool.not_eq_false] at hinvalid
    rw [comesBefore_eq_ok hinvalid.1 hinvalid.2] at h
    exact Except.ok.inj h

/-! ## Sorting -/

section Positions

variable {keys : List Text}

/-- The comparison of two keys of a list by their positions. -/
def comparison (keys : List Text) (i j : Fin keys.length) : Except InvalidPatternKey Bool :=
  comesBefore (keys.get i) (keys.get j)

theorem run_placing (i : Fin keys.length) {next : List (Fin keys.length) -> Plan keys.length}
    {after : List Text -> Except InvalidPatternKey (List Text)}
    (hnext : ∀ order, ((next order).run (comparison keys)).map (·.map keys.get) =
      after (order.map keys.get)) (order : List (Fin keys.length)) :
    ((Plan.placing i next order).run (comparison keys)).map (·.map keys.get) =
      insert (keys.get i) (order.map keys.get) >>= after := by
  induction order generalizing next after with
  | nil => exact hnext [i]
  | cons j rest ih =>
      have hrest : ((Plan.placing i (fun order => next (j :: order)) rest).run
          (comparison keys)).map (·.map keys.get) =
          insert (keys.get i) (rest.map keys.get) >>= fun sorted => after (keys.get j :: sorted) :=
        ih fun order => hnext (j :: order)
      rw [Plan.placing, Plan.run, List.map_cons, insert, comparison, comesBefore]
      cases compare (keys.get i) (keys.get j) with
      | error cause => rfl
      | ok answer =>
          have hkept : (insert (keys.get i) (rest.map keys.get) >>= fun sorted =>
              after (keys.get j :: sorted)) =
              (do return keys.get j :: (<- insert (keys.get i) (rest.map keys.get))) >>=
                after := by
            cases insert (keys.get i) (rest.map keys.get) <;> rfl
          cases answer with
          | lt => exact hnext (i :: j :: rest)
          | eq => exact hrest.trans hkept
          | gt => exact hrest.trans hkept

theorem run_insertion (pending sorted : List (Fin keys.length)) :
    ((Plan.insertion pending sorted).run (comparison keys)).map (·.map keys.get) =
      (pending.map keys.get).foldlM (fun sorted key => insert key sorted)
        (sorted.map keys.get) := by
  induction pending generalizing sorted with
  | nil => rfl
  | cons i rest ih =>
      rw [List.map_cons, List.foldlM_cons]
      exact run_placing i ih sorted

theorem sort_eq_run (keys : List Text) :
    sort keys = ((Plan.insertion (List.finRange keys.length) []).run (comparison keys)).map
      (·.map keys.get) := by
  rw [run_insertion, List.map_get_finRange]
  rfl

def BeatsAt (keys : List Text) (i j : Fin keys.length) : Prop :=
  Beats (keys.get i) (keys.get j)

instance (keys : List Text) (i j : Fin keys.length) : Decidable (BeatsAt keys i j) :=
  inferInstanceAs (Decidable (Beats _ _))

instance (keys : List Text) : IsStrictWeakOrder (Fin keys.length) (BeatsAt keys) :=
  inferInstanceAs (IsStrictWeakOrder _ (Order.Preimage keys.get Beats))

theorem run_comparison_eq_ok (hvalid : ∀ key ∈ keys, isValid key = true)
    {plan : Plan keys.length} (hplan : plan.IsStable) :
    ∃ order, IsStableOrder (BeatsAt keys) order ∧ plan.run (comparison keys) = .ok order := by
  have hanswers : ∀ i j, comparison keys i j = .ok (decide (BeatsAt keys i j)) := fun i j =>
    comesBefore_eq_ok (hvalid _ (List.get_mem keys i)) (hvalid _ (List.get_mem keys j))
  have horder := hplan fun i j => decide (BeatsAt keys i j)
  simp only [decide_eq_true_eq] at horder
  exact ⟨_, horder inferInstance, Plan.run_eq_ok_follow hanswers plan⟩

theorem run_comparison_eq_error_iff (htwo : 2 ≤ keys.length) {plan : Plan keys.length}
    (hplan : plan.IsStable) :
    (∃ cause, plan.run (comparison keys) = .error cause) ↔ ∃ key ∈ keys, isValid key = false := by
  constructor
  · rintro ⟨cause, hcause⟩
    by_contra hnone
    have hvalid : ∀ key ∈ keys, isValid key = true := by simpa using hnone
    obtain ⟨order, -, horder⟩ := run_comparison_eq_ok hvalid hplan
    rw [hcause] at horder
    cases horder
  · rintro ⟨key, hkey, hinvalid⟩
    obtain ⟨k, rfl⟩ := List.mem_iff_get.mp hkey
    have : Nontrivial (Fin keys.length) := Fin.nontrivial_iff_two_le.mpr htwo
    obtain ⟨other, hother⟩ := exists_ne k
    have hweak : IsStrictWeakOrder (Fin keys.length) (decide <| BeatsAt keys · ·) := by
      simpa only [decide_eq_true_eq] using (inferInstance : IsStrictWeakOrder _ (BeatsAt keys))
    exact hplan.exists_error hweak (fun i j answer => beats_of_comesBefore_eq_ok) hother fun i =>
      ⟨comesBefore_eq_error (.inl hinvalid), comesBefore_eq_error (.inr hinvalid)⟩

end Positions

/-! ## The keys of an expansion -/

theorem insert_eq_insertStar {key : Text} (hkey : key.count '*' = 1) {keys : List Text}
    (hkeys : ∀ other ∈ keys, other.count '*' = 1) :
    insert key keys = .ok (insertStar key keys) := by
  have hvalid : ∀ other : Text, other.count '*' = 1 -> isValid other = true := by
    intro other hother
    rw [isValid, hother]
    exact Bool.or_true _
  induction keys with
  | nil => rfl
  | cons first rest ih =>
      rw [insert, insertStar, compare_eq_ok (hvalid _ hkey) (hvalid _ (hkeys _ List.mem_cons_self)),
        ih fun other hother => hkeys other (List.mem_cons_of_mem first hother)]
      by_cases hlt : order key first = .lt
      · rw [if_pos hlt]
        exact if_pos hlt
      · rw [if_neg hlt]
        exact if_neg hlt

theorem foldlM_insert_eq {keys sorted : List Text} (hkeys : ∀ key ∈ keys, key.count '*' = 1)
    (hsorted : ∀ key ∈ sorted, key.count '*' = 1) :
    keys.foldlM (fun sorted key => insert key sorted) sorted =
      .ok (keys.foldl (fun sorted key => insertStar key sorted) sorted) := by
  induction keys generalizing sorted with
  | nil => rfl
  | cons key rest ih =>
      have hkey : key.count '*' = 1 := hkeys key List.mem_cons_self
      rw [List.foldlM_cons, insert_eq_insertStar hkey hsorted]
      refine ih (fun other hother => hkeys other (List.mem_cons_of_mem key hother)) ?_
      intro other hother
      rcases mem_insertStar.mp hother with rfl | hother
      · exact hkey
      · exact hsorted other hother

theorem sort_filter_eq_expansionKeys (keys : List Text) :
    sort (keys.filter fun key => key.count '*' == 1) = .ok (expansionKeys keys) :=
  foldlM_insert_eq (by simp) (by simp)

/-! ## The sorted list -/

/-- The order of valid keys is that of their ranks and strict up to ties, though two keys of one
length without a star both stand behind each other.  A list of valid keys has one stable order, and
the sort comes to it, like every stable way of sorting with this comparison.  With two keys or more
all of them fail if a key is not valid, and only then. -/
theorem sort_follows_rank :
    (∀ a b, isValid a = true -> isValid b = true -> (compare a b = .ok .lt ↔ Beats a b)) ∧
    IsStrictWeakOrder Text Beats ∧
    (∀ a b, isValid a = true -> isValid b = true -> '*' ∉ a -> '*' ∉ b -> a.length = b.length ->
      compare a b = .ok .gt ∧ compare b a = .ok .gt) ∧
    (∀ keys, (∀ key ∈ keys, isValid key = true) ->
      ∃ order, IsStableOrder (BeatsAt keys) order ∧
        (∀ other, IsStableOrder (BeatsAt keys) other -> other = order) ∧
        sort keys = .ok (order.map keys.get) ∧
        ∀ plan : Plan keys.length, plan.IsStable -> plan.run (comparison keys) = .ok order) ∧
    ∀ keys : List Text, 2 ≤ keys.length ->
      ((∃ cause, sort keys = .error cause) ↔ ∃ key ∈ keys, isValid key = false) ∧
      ∀ plan : Plan keys.length, plan.IsStable ->
        ((∃ cause, plan.run (comparison keys) = .error cause) ↔
          ∃ key ∈ keys, isValid key = false) := by
  refine ⟨fun a b => compare_eq_lt_iff, inferInstance, ?_, ?_, ?_⟩
  · intro a b ha hb hstar hstar' hlength
    exact ⟨compare_eq_gt ha hb hstar hstar' hlength, compare_eq_gt hb ha hstar' hstar hlength.symm⟩
  · intro keys hvalid
    obtain ⟨order, horder, hrun⟩ := run_comparison_eq_ok hvalid Plan.isStable_insertion
    refine ⟨order, horder, fun other hother => hother.unique horder, ?_, fun plan hplan => ?_⟩
    · rw [sort_eq_run, hrun]
      rfl
    · obtain ⟨other, hother, hplanrun⟩ := run_comparison_eq_ok hvalid hplan
      rw [hplanrun, hother.unique horder]
  · intro keys htwo
    refine ⟨?_, fun plan => run_comparison_eq_error_iff htwo⟩
    rw [sort_eq_run, ← run_comparison_eq_error_iff htwo Plan.isStable_insertion]
    cases (Plan.insertion (List.finRange keys.length) []).run (comparison keys) with
    | ok order => simp [Except.map]
    | error cause => simp [Except.map]

/-- Two keys that both stand behind each other, one with a star, and one that is not valid. -/
theorem sort_follows_rank_slashes :
    (compare "./a/".toList "./b/".toList = .ok .gt ∧
      compare "./b/".toList "./a/".toList = .ok .gt) ∧
    (∃ order, IsStableOrder (BeatsAt ["./*".toList, "./b/".toList, "./a/".toList]) order ∧
      sort ["./*".toList, "./b/".toList, "./a/".toList] =
        .ok (order.map ["./*".toList, "./b/".toList, "./a/".toList].get)) ∧
    sort ["./*".toList, "./b/".toList, "./a/".toList] =
      .ok ["./b/".toList, "./a/".toList, "./*".toList] ∧
    ∃ cause, sort ["./*".toList, "./a".toList] = .error cause := by
  obtain ⟨-, -, hbehind, hsorted, hfails⟩ := sort_follows_rank
  refine ⟨?_, ?_, by decide, ?_⟩
  · exact hbehind _ _ (by decide) (by decide) (by decide) (by decide) rfl
  · obtain ⟨order, horder, -, hsort, -⟩ := hsorted
      ["./*".toList, "./b/".toList, "./a/".toList] (by decide)
    exact ⟨order, horder, hsort⟩
  · exact (hfails _ (by decide)).1.mpr ⟨"./a".toList, by simp, by decide⟩

end PatternKey

end Package

end ModuleResolution
