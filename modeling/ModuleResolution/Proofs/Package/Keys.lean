import ModuleResolution.Package.Target

/-!
# Keys in order

One pass over the keys of an object looks for an array index and for keys with and without a dot.
What it finds does not depend on the order of the keys.
-/

namespace ModuleResolution

namespace Package

namespace Keys

/-- A key reads as an array index, or some keys start with a dot and some do not. -/
def Clash (keys : List Text) : Prop :=
  (∃ key ∈ keys, isIndex key) ∨ ((∃ key ∈ keys, isSubpath key) ∧ ∃ key ∈ keys, ¬isSubpath key)

theorem Clash.mono {keys keys' : List Text} (h : Clash keys) (hsubset : keys ⊆ keys') :
    Clash keys' := by
  rcases h with ⟨key, hmem, hindex⟩ | ⟨⟨key, hmem, hdot⟩, other, hother, hnot⟩
  · exact .inl ⟨key, hsubset hmem, hindex⟩
  · exact .inr ⟨⟨key, hsubset hmem, hdot⟩, other, hsubset hother, hnot⟩

/-- The flags tell which keys have come before, and they are never both set while the pass goes
on. -/
theorem inOrder_iff {withDot withoutDot : Bool} (h : (withDot && withoutDot) = false)
    (keys : List Text) :
    inOrder withDot withoutDot keys ↔
      (∀ key ∈ keys, isIndex key = false) ∧
        ((withDot = false ∧ ∀ key ∈ keys, isSubpath key = false) ∨
          (withoutDot = false ∧ ∀ key ∈ keys, isSubpath key)) := by
  induction keys generalizing withDot withoutDot with
  | nil =>
      rw [inOrder]
      cases withDot <;> cases withoutDot <;> simp_all
  | cons key rest ih =>
      rw [inOrder]
      cases hindex : isIndex key with
      | true => simp [hindex]
      | false =>
          cases hdot : isSubpath key with
          | true =>
              cases withoutDot with
              | true => simp [hdot]
              | false =>
                  have hrest := @ih true false rfl
                  simp [hindex, hdot, hrest]
          | false =>
              cases withDot with
              | true => simp [hdot]
              | false =>
                  have hrest := @ih false true rfl
                  simp [hindex, hdot, hrest]

theorem inOrder_iff_not_clash (keys : List Text) : inOrder false false keys ↔ ¬Clash keys := by
  rw [inOrder_iff rfl]
  unfold Clash
  constructor
  · rintro ⟨hindex, hdots⟩ (⟨key, hmem, hkey⟩ | ⟨⟨key, hmem, hdot⟩, other, hother, hnot⟩)
    · rw [hindex key hmem] at hkey
      cases hkey
    · rcases hdots with ⟨-, hall⟩ | ⟨-, hall⟩
      · rw [hall key hmem] at hdot
        cases hdot
      · exact hnot (hall other hother)
  · intro h
    have hindex : ∀ key ∈ keys, isIndex key = false := fun key hmem =>
      Bool.eq_false_iff.2 fun hkey => h (.inl ⟨key, hmem, hkey⟩)
    refine ⟨hindex, ?_⟩
    by_cases hdot : ∃ key ∈ keys, isSubpath key
    · right
      refine ⟨rfl, fun other hother => Decidable.byContradiction fun hnot => ?_⟩
      exact h (.inr ⟨hdot, other, hother, hnot⟩)
    · left
      refine ⟨rfl, fun key hmem => Bool.eq_false_iff.2 fun hkey => ?_⟩
      exact hdot ⟨key, hmem, hkey⟩

theorem check_eq_ok_iff {package : Text} {keys : List Text} :
    check package keys = .ok () ↔ ¬Clash keys := by
  rw [← inOrder_iff_not_clash, check]
  split
  · next h => simp [h]
  · next h => simp [h]

theorem Clash.check_eq {keys : List Text} (h : Clash keys) (package : Text) :
    check package keys = .error (.invalidPackageConfiguration package) := by
  rw [check, if_neg fun horder => (inOrder_iff_not_clash keys).1 horder h]

end Keys

end Package

end ModuleResolution
