import Mathlib.Data.List.Perm.Basic
import ModuleResolution.Package.Exports
import ModuleResolution.Proofs.Package.Keys

/-!
# One check in place of two

The pass that looks for mixed keys and for array indices at once refuses what two passes would
refuse, one for each.  So its verdict does not depend on the order of the keys, and an object that
it accepts is a map of subpaths or has no subpath among its keys.
-/

namespace ModuleResolution

namespace Package

namespace Keys

/-! ## Array indices -/

/-- The key starts like a number: blanks, a sign or none, and a decimal digit. -/
def ReadsAsIndex (key : Text) : Prop :=
  ∃ blanks sign digit rest, key = blanks ++ sign ++ digit :: rest ∧
    (∀ c ∈ blanks, Text.isBlank c) ∧ (sign = [] ∨ sign = ['+'] ∨ sign = ['-']) ∧
      Text.isDecimalDigit digit

theorem not_isBlank_of_isDecimalDigit {c : Char} (h : Text.isDecimalDigit c) :
    Text.isBlank c = false := by
  have hall : ∀ first ∈ Text.zeros, ∀ i : Fin 10, Text.isBlank (Char.ofNat (first + i)) = false := by
    decide +kernel
  obtain ⟨first, hmem, hrange⟩ := List.any_eq_true.1 h
  simp only [Bool.and_eq_true, decide_eq_true_eq] at hrange
  have hc := hall first hmem ⟨c.toNat - first, by omega⟩
  rwa [Nat.add_sub_cancel' hrange.1, Char.ofNat_toNat] at hc

theorem not_isSign_of_isDecimalDigit {c : Char} (h : Text.isDecimalDigit c) : c ≠ '+' ∧ c ≠ '-' := by
  constructor
  · rintro rfl
    revert h
    decide
  · rintro rfl
    revert h
    decide

def unsigned (key : Text) : Text :=
  match key.dropWhile Text.isBlank with
  | '+' :: rest => rest
  | '-' :: rest => rest
  | rest => rest

theorem isIndex_eq (key : Text) : isIndex key = (unsigned key).head?.any Text.isDecimalDigit := by
  unfold isIndex
  simp only
  split
  · next c rest h =>
      change unsigned key = c :: rest at h
      rw [h]
      rfl
  · next h =>
      change unsigned key = [] at h
      rw [h]
      rfl

theorem exists_eq_append_unsigned (key : Text) :
    ∃ blanks sign, key = blanks ++ sign ++ unsigned key ∧ (∀ c ∈ blanks, Text.isBlank c) ∧
      (sign = [] ∨ sign = ['+'] ∨ sign = ['-']) := by
  have hblanks : ∀ c ∈ key.takeWhile Text.isBlank, Text.isBlank c :=
    List.all_eq_true.1 List.all_takeWhile
  have hkey := (List.takeWhile_append_dropWhile (p := Text.isBlank) (l := key)).symm
  unfold unsigned
  split
  · next rest h =>
      rw [h] at hkey
      exact ⟨_, ['+'], hkey.trans (by simp), hblanks, .inr (.inl rfl)⟩
  · next rest h =>
      rw [h] at hkey
      exact ⟨_, ['-'], hkey.trans (by simp), hblanks, .inr (.inr rfl)⟩
  · exact ⟨_, [], hkey.trans (by simp), hblanks, .inl rfl⟩

theorem unsigned_append {blanks sign rest : Text} {digit : Char}
    (hblanks : ∀ c ∈ blanks, Text.isBlank c) (hsign : sign = [] ∨ sign = ['+'] ∨ sign = ['-'])
    (hdigit : Text.isDecimalDigit digit) :
    unsigned (blanks ++ sign ++ digit :: rest) = digit :: rest := by
  have hblank := not_isBlank_of_isDecimalDigit hdigit
  obtain ⟨hplus, hminus⟩ := not_isSign_of_isDecimalDigit hdigit
  unfold unsigned
  rw [List.append_assoc, List.dropWhile_append_of_pos hblanks]
  rcases hsign with rfl | rfl | rfl
  · rw [List.nil_append, List.dropWhile_cons_of_neg (by simp [hblank])]
    split <;> simp_all
  · rfl
  · rfl

theorem isIndex_iff (key : Text) : isIndex key ↔ ReadsAsIndex key := by
  rw [isIndex_eq]
  constructor
  · intro h
    obtain ⟨blanks, sign, hkey, hblanks, hsign⟩ := exists_eq_append_unsigned key
    cases hrest : unsigned key with
    | nil =>
        rw [hrest] at h
        cases h
    | cons digit rest =>
        rw [hrest] at h hkey
        exact ⟨blanks, sign, digit, rest, hkey, hblanks, hsign, h⟩
  · rintro ⟨blanks, sign, digit, rest, rfl, hblanks, hsign, hdigit⟩
    rw [unsigned_append hblanks hsign hdigit]
    exact hdigit

/-! ## Two passes -/

/-- Refuse mixed keys in a first pass and array indices in a second one. -/
def checkInTwoPasses (package : Text) (keys : List Text) : Except ResolutionError Unit :=
  if keys.any isSubpath && keys.any (!isSubpath ·) then
    .error (.invalidPackageConfiguration package)
  else if keys.any isIndex then .error (.invalidPackageConfiguration package)
  else .ok ()

theorem checkInTwoPasses_eq (package : Text) (keys : List Text) :
    checkInTwoPasses package keys =
      if (keys.any isSubpath && keys.any (!isSubpath ·)) || keys.any isIndex then
        .error (.invalidPackageConfiguration package)
      else .ok () := by
  unfold checkInTwoPasses
  cases keys.any isSubpath && keys.any (!isSubpath ·) <;> rfl

theorem clash_iff_any (keys : List Text) : Clash keys ↔
    ((keys.any isSubpath && keys.any (!isSubpath ·)) || keys.any isIndex) = true := by
  simp only [Clash, Bool.or_eq_true, Bool.and_eq_true, List.any_eq_true, Bool.not_eq_true',
    Bool.not_eq_true, or_comm]

theorem check_eq_checkInTwoPasses (package : Text) (keys : List Text) :
    check package keys = checkInTwoPasses package keys := by
  rw [checkInTwoPasses_eq]
  split
  · next h => exact ((clash_iff_any keys).2 h).check_eq package
  · next h => exact check_eq_ok_iff.2 (mt (clash_iff_any keys).1 h)

/-! ## The verdict -/

theorem check_eq_error_iff {package : Text} {keys : List Text} {error : ResolutionError} :
    check package keys = .error error ↔
      Clash keys ∧ error = .invalidPackageConfiguration package := by
  by_cases h : Clash keys
  · rw [h.check_eq]
    simp [h, eq_comm]
  · rw [check_eq_ok_iff.2 h]
    simp [h]

theorem check_eq_of_perm {keys keys' : List Text} (h : keys'.Perm keys) (package : Text) :
    check package keys' = check package keys := by
  simp only [check_eq_checkInTwoPasses, checkInTwoPasses, h.any_eq]

theorem isSubpathMap_object_iff (fields : Json.Fields) :
    isSubpathMap (.object fields) ↔ ∀ key ∈ fields.map Prod.fst, isSubpath key := by
  simp [isSubpathMap]

/-- The check of an object's keys is the one in two passes.  It refuses the object, with the error
for its package, exactly if a key starts with a dot and another one does not, or if a key starts
like a number, and this is so in every order of the fields.  What it accepts is a map of subpaths or
has no subpath among its keys, and only the object without fields is both. -/
theorem check_fields (package : Text) (fields : Json.Fields) :
    check package (fields.map Prod.fst) = checkInTwoPasses package (fields.map Prod.fst) ∧
    (∀ error, check package (fields.map Prod.fst) = .error error ↔
      (((∃ key ∈ fields.map Prod.fst, isSubpath key) ∧
          ∃ key ∈ fields.map Prod.fst, ¬isSubpath key) ∨
        ∃ key ∈ fields.map Prod.fst, ReadsAsIndex key) ∧
      error = .invalidPackageConfiguration package) ∧
    (∀ reordered : Json.Fields, reordered.Perm fields ->
      check package (reordered.map Prod.fst) = check package (fields.map Prod.fst)) ∧
    (check package (fields.map Prod.fst) = .ok () ->
      (isSubpathMap (.object fields) ∨ ∀ key ∈ fields.map Prod.fst, ¬isSubpath key) ∧
      ((isSubpathMap (.object fields) ∧ ∀ key ∈ fields.map Prod.fst, ¬isSubpath key) ↔
        fields = [])) := by
  refine ⟨check_eq_checkInTwoPasses package _, fun error => ?_, fun reordered hperm => ?_,
    fun hok => ⟨?_, ?_⟩⟩
  · simp only [check_eq_error_iff, Clash, isIndex_iff, or_comm]
  · exact check_eq_of_perm (hperm.map Prod.fst) package
  · rw [isSubpathMap_object_iff]
    have hclash := check_eq_ok_iff.1 hok
    by_cases hall : ∀ key ∈ fields.map Prod.fst, isSubpath key
    · exact .inl hall
    · right
      intro key hmem hkey
      simp only [not_forall] at hall
      obtain ⟨other, hother, hnot⟩ := hall
      exact hclash (.inr ⟨⟨key, hmem, hkey⟩, other, hother, hnot⟩)
  · rw [isSubpathMap_object_iff]
    constructor
    · rintro ⟨hall, hnone⟩
      rw [← List.map_eq_nil_iff, List.eq_nil_iff_forall_not_mem]
      exact fun key hmem => hnone key hmem (hall key hmem)
    · rintro rfl
      simp

/-- An object of two subpaths, in both orders. -/
theorem check_fields_subpaths :
    check "/p".toList ["./b".toList, ".".toList] = .ok () ∧
      check "/p".toList [".".toList, "./b".toList] = .ok () ∧
      (isSubpathMap (.object [(".".toList, .null), ("./b".toList, .null)]) ∨
        ∀ key ∈ [".".toList, "./b".toList], ¬isSubpath key) := by
  obtain ⟨-, -, hperm, hok⟩ :=
    check_fields "/p".toList [(".".toList, .null), ("./b".toList, .null)]
  have hcheck : check "/p".toList [".".toList, "./b".toList] = .ok () := by decide
  have hswap := hperm [("./b".toList, .null), (".".toList, .null)] (List.Perm.swap _ _ _)
  exact ⟨hswap.trans hcheck, hcheck, (hok hcheck).1⟩

end Keys

end Package

end ModuleResolution
