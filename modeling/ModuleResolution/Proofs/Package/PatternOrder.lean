import ModuleResolution.Package.PatternKey
import ModuleResolution.Proofs.Text.Pieces

/-!
# Patterns and their order

A key with one star matches the names that have something in place of the star.  Among the keys
that match one name the order is strict: two of them that tie are the same key.
-/

namespace ModuleResolution

namespace Package

namespace PatternKey

/-- The key has one star, and the name has `capture`, which is not empty, in place of it. -/
def Matches (key subject capture : Text) : Prop :=
  ∃ base trailer, '*' ∉ base ∧ '*' ∉ trailer ∧ key = base ++ '*' :: trailer ∧
    capture ≠ [] ∧ subject = base ++ capture ++ trailer

def prefixLength (key : Text) : Nat :=
  (key.takeWhile (· != '*')).length

/-- The longer literal part before the star wins, and then the longer key. -/
def MoreSpecific (a b : Text) : Prop :=
  prefixLength b < prefixLength a ∨ (prefixLength a = prefixLength b ∧ b.length < a.length)

/-! ## Keys with one star -/

theorem exists_eq_of_count_eq_one {key : Text} (h : key.count '*' = 1) :
    ∃ base trailer, '*' ∉ base ∧ '*' ∉ trailer ∧ key = base ++ '*' :: trailer := by
  rcases Text.not_mem_or_eq_append_cons '*' key with hnot | ⟨base, trailer, hbase, rfl⟩
  · simp [List.count_eq_zero_of_not_mem hnot] at h
  · refine ⟨base, trailer, hbase, ?_, rfl⟩
    have hzero : trailer.count '*' = 0 := by
      rw [List.count_append, List.count_eq_zero_of_not_mem hbase, List.count_cons_self] at h
      omega
    exact List.count_eq_zero.mp hzero

theorem count_eq_one {base trailer : Text} (hbase : '*' ∉ base) (htrailer : '*' ∉ trailer) :
    (base ++ '*' :: trailer).count '*' = 1 := by
  rw [List.count_append, List.count_cons_self, List.count_eq_zero_of_not_mem hbase,
    List.count_eq_zero_of_not_mem htrailer]

theorem Matches.count_eq_one {key subject capture : Text} (h : Matches key subject capture) :
    key.count '*' = 1 := by
  obtain ⟨base, trailer, hbase, htrailer, rfl, -, -⟩ := h
  exact PatternKey.count_eq_one hbase htrailer

theorem prefixLength_eq {base : Text} (hbase : '*' ∉ base) (trailer : Text) :
    prefixLength (base ++ '*' :: trailer) = base.length := by
  have hall : ∀ c ∈ base, (c != '*') = true := by
    intro c hc
    simp only [bne_iff_ne]
    rintro rfl
    exact hbase hc
  rw [prefixLength, List.takeWhile_append_of_pos hall]
  simp

theorem baseLength_eq {base : Text} (hbase : '*' ∉ base) (trailer : Text) :
    baseLength (base ++ '*' :: trailer) = base.length + 1 := by
  simp [baseLength, Text.cut_append_cons hbase]

/-! ## Matching -/

theorem Matches.capture?_eq_some {key subject capture : Text} (h : Matches key subject capture) :
    capture? key subject = some capture := by
  obtain ⟨base, trailer, hbase, -, rfl, hne, rfl⟩ := h
  have hpos : 0 < capture.length := List.length_pos_iff.mpr hne
  have hstart : ¬((!base.isPrefixOf (base ++ capture ++ trailer) ||
      base ++ capture ++ trailer == base) = true) := by
    simp [List.append_assoc, hne]
  have hlength : (base ++ '*' :: trailer).length ≤ (base ++ capture ++ trailer).length := by
    simp only [List.length_append, List.length_cons]
    omega
  have hsuffix : trailer.isSuffixOf (base ++ capture ++ trailer) = true :=
    List.isSuffixOf_iff_suffix.mpr (List.suffix_append _ _)
  have hend : (trailer.isEmpty || (trailer.isSuffixOf (base ++ capture ++ trailer) &&
      decide ((base ++ '*' :: trailer).length ≤ (base ++ capture ++ trailer).length))) = true := by
    rw [hsuffix, decide_eq_true hlength, Bool.and_self, Bool.or_true]
  have hcut : (base ++ capture ++ trailer).length - trailer.length = (base ++ capture).length := by
    simp only [List.length_append]
    omega
  simp only [capture?, Text.cut_append_cons hbase]
  rw [if_neg hstart, if_pos hend, hcut, List.take_left, List.drop_left]

private theorem exists_eq_append_of_ends {base trailer rest : Text}
    (hne : base ++ rest ≠ base)
    (hend : (trailer.isEmpty || (trailer.isSuffixOf (base ++ rest) &&
      decide ((base ++ '*' :: trailer).length ≤ (base ++ rest).length))) = true) :
    ∃ middle, middle ≠ [] ∧ rest = middle ++ trailer := by
  cases trailer with
  | nil => exact ⟨rest, fun he => hne (by simp [he]), by simp⟩
  | cons c others =>
      simp only [List.isEmpty_cons, Bool.false_or, Bool.and_eq_true, List.isSuffixOf_iff_suffix,
        decide_eq_true_eq, List.length_append, List.length_cons] at hend
      obtain ⟨hsuffix, hlength⟩ := hend
      have hrest : c :: others <:+ rest := by
        refine List.suffix_of_suffix_length_le hsuffix (List.suffix_append _ _) ?_
        simp only [List.length_cons]
        omega
      obtain ⟨middle, rfl⟩ := hrest
      refine ⟨middle, ?_, rfl⟩
      rintro rfl
      simp only [List.nil_append, List.length_cons] at hlength
      omega

theorem matches_of_capture?_eq_some {key subject capture : Text} (h : key.count '*' = 1)
    (hcapture : capture? key subject = some capture) : Matches key subject capture := by
  obtain ⟨base, trailer, hbase, htrailer, rfl⟩ := exists_eq_of_count_eq_one h
  simp only [capture?, Text.cut_append_cons hbase] at hcapture
  split at hcapture
  · simp at hcapture
  · next hstart =>
      simp only [Bool.or_eq_true, Bool.not_eq_true', beq_iff_eq, not_or, Bool.not_eq_false,
        List.isPrefixOf_iff_prefix] at hstart
      obtain ⟨⟨rest, rfl⟩, hne⟩ := hstart
      split at hcapture
      · next hend =>
          obtain ⟨middle, hmiddle, rfl⟩ := exists_eq_append_of_ends hne hend
          have hcut : (base ++ (middle ++ trailer)).length - trailer.length =
              (base ++ middle).length := by
            simp only [List.length_append]
            omega
          rw [hcut, ← List.append_assoc, List.take_left, List.drop_left,
            Option.some.injEq] at hcapture
          subst hcapture
          exact ⟨base, trailer, hbase, htrailer, rfl, hmiddle, by simp⟩
      · simp at hcapture

theorem capture?_eq_some_iff {key : Text} (h : key.count '*' = 1) {subject capture : Text} :
    capture? key subject = some capture ↔ Matches key subject capture :=
  ⟨matches_of_capture?_eq_some h, Matches.capture?_eq_some⟩

theorem Matches.capture_unique {key subject capture capture' : Text}
    (h : Matches key subject capture) (h' : Matches key subject capture') :
    capture = capture' := by
  have heq := h.capture?_eq_some.symm.trans h'.capture?_eq_some
  exact Option.some.inj heq

/-! ## The order -/

theorem order_eq_lt_iff {a b : Text} (ha : a.count '*' = 1) (hb : b.count '*' = 1) :
    order a b = .lt ↔ MoreSpecific a b := by
  obtain ⟨base, trailer, hbase, -, rfl⟩ := exists_eq_of_count_eq_one ha
  obtain ⟨base', trailer', hbase', -, rfl⟩ := exists_eq_of_count_eq_one hb
  simp only [order, MoreSpecific, baseLength_eq hbase, baseLength_eq hbase', prefixLength_eq hbase,
    prefixLength_eq hbase', List.contains_eq_mem, List.mem_append, List.mem_cons, true_or, or_true,
    decide_true, Bool.not_true, Bool.false_eq_true, if_false, List.length_append, List.length_cons]
  split
  · simp; omega
  · split
    · simp; omega
    · split
      · simp; omega
      · split <;> simp <;> omega

theorem MoreSpecific.asymm {a b : Text} (h : MoreSpecific a b) : ¬MoreSpecific b a := by
  unfold MoreSpecific at *
  omega

theorem MoreSpecific.trans {a b c : Text} (h : MoreSpecific a b) (h' : MoreSpecific b c) :
    MoreSpecific a c := by
  unfold MoreSpecific at *
  omega

/-- Two keys that match one name and tie have equal parts before the star and equal parts after
it. -/
theorem Matches.eq_or_moreSpecific {a b subject capture capture' : Text}
    (ha : Matches a subject capture) (hb : Matches b subject capture') :
    a = b ∨ MoreSpecific a b ∨ MoreSpecific b a := by
  obtain ⟨base, trailer, hbase, -, rfl, -, hsubject⟩ := ha
  obtain ⟨base', trailer', hbase', -, rfl, -, rfl⟩ := hb
  by_cases hp : base.length = base'.length
  · by_cases hl : trailer.length = trailer'.length
    · have hbases : base' = base := by
        rw [List.append_assoc, List.append_assoc] at hsubject
        exact (List.append_inj hsubject hp.symm).1
      have htrailers : trailer' = trailer := (List.append_inj' hsubject hl.symm).2
      exact .inl (by rw [hbases, htrailers])
    · right
      simp only [MoreSpecific, prefixLength_eq hbase, prefixLength_eq hbase', List.length_append,
        List.length_cons]
      omega
  · right
    simp only [MoreSpecific, prefixLength_eq hbase, prefixLength_eq hbase']
    omega

/-! ## Sorting -/

theorem mem_insertStar {key other : Text} {keys : List Text} :
    other ∈ insertStar key keys ↔ other = key ∨ other ∈ keys := by
  induction keys with
  | nil => simp [insertStar]
  | cons first rest ih =>
      unfold insertStar
      split
      · simp
      · simp only [List.mem_cons, ih]
        grind

def Sorted (keys : List Text) : Prop :=
  keys.Pairwise fun a b => ¬MoreSpecific b a

theorem Sorted.insertStar {key : Text} {keys : List Text} (h : Sorted keys)
    (hkey : key.count '*' = 1) (hkeys : ∀ other ∈ keys, other.count '*' = 1) :
    Sorted (insertStar key keys) := by
  induction keys with
  | nil => simp [PatternKey.insertStar, Sorted]
  | cons first rest ih =>
      obtain ⟨hfirst, hrest⟩ := List.pairwise_cons.mp h
      have hone : first.count '*' = 1 := hkeys first (by simp)
      unfold PatternKey.insertStar
      split
      · next hlt =>
          have hbefore : MoreSpecific key first := (order_eq_lt_iff hkey hone).mp hlt
          refine List.pairwise_cons.mpr ⟨?_, h⟩
          intro other hother
          rcases List.mem_cons.mp hother with rfl | hother
          · exact hbefore.asymm
          · exact fun habove => hfirst other hother (habove.trans hbefore)
      · next hlt =>
          have hnot : ¬MoreSpecific key first := fun hm => hlt ((order_eq_lt_iff hkey hone).mpr hm)
          refine List.pairwise_cons.mpr ⟨?_, ?_⟩
          · intro other hother
            rcases mem_insertStar.mp hother with rfl | hother
            · exact hnot
            · exact hfirst other hother
          · exact ih hrest fun other hother => hkeys other (List.mem_cons_of_mem _ hother)

theorem foldl_insertStar {keys sorted : List Text} (hkeys : ∀ key ∈ keys, key.count '*' = 1)
    (hsorted : Sorted sorted) (hstars : ∀ key ∈ sorted, key.count '*' = 1) :
    Sorted (keys.foldl (fun sorted key => insertStar key sorted) sorted) ∧
      ∀ key, key ∈ keys.foldl (fun sorted key => insertStar key sorted) sorted ↔
        key ∈ keys ∨ key ∈ sorted := by
  induction keys generalizing sorted with
  | nil => simp [hsorted]
  | cons key rest ih =>
      have hkey : key.count '*' = 1 := hkeys key (by simp)
      have hnext : ∀ other ∈ insertStar key sorted, other.count '*' = 1 := by
        intro other hother
        rcases mem_insertStar.mp hother with rfl | hother
        · exact hkey
        · exact hstars other hother
      obtain ⟨hs, hmem⟩ := ih (fun other hother => hkeys other (List.mem_cons_of_mem _ hother))
        (hsorted.insertStar hkey hstars) hnext
      refine ⟨hs, fun other => ?_⟩
      rw [List.foldl_cons, hmem, mem_insertStar, List.mem_cons]
      grind

theorem expansionKeys_sorted (keys : List Text) : Sorted (expansionKeys keys) :=
  (foldl_insertStar (by simp) List.Pairwise.nil (by simp)).1

theorem mem_expansionKeys {key : Text} {keys : List Text} :
    key ∈ expansionKeys keys ↔ key ∈ keys ∧ key.count '*' = 1 := by
  have hstars : ∀ other ∈ keys.filter fun key => key.count '*' == 1, other.count '*' = 1 := by simp
  have h := (foldl_insertStar hstars List.Pairwise.nil (by simp)).2 key
  simpa [expansionKeys] using h

end PatternKey

end Package

end ModuleResolution
