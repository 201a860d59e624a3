import Mathlib.Algebra.Group.Nat.Defs
import ModuleResolution.Config.Settings
import ModuleResolution.Proofs.Trace

/-!
# Integers in configuration values

A value has no text if there is an integer in it, however deep, with more digits than are written.
Reading JSON gives up at such an integer, so no value from a JSON text has one.
-/

namespace ModuleResolution

/-! ## Decimal digits -/

namespace Json

theorem natOfDigits_foldl_lt {digits : Text} (h : ∀ c ∈ digits, c.isDigit) (n : Nat) :
    digits.foldl (fun n c => 10 * n + (c.toNat - 48)) n < (n + 1) * 10 ^ digits.length := by
  induction digits generalizing n with
  | nil => simp
  | cons c digits ih =>
      obtain ⟨hc, hdigits⟩ := List.forall_mem_cons.1 h
      have hdigit : c.toNat - 48 ≤ 9 := by
        simp only [Char.isDigit, Bool.and_eq_true, decide_eq_true_eq] at hc
        have hhigh : c.toNat ≤ 57 := hc.2
        omega
      calc
        (c :: digits).foldl (fun n c => 10 * n + (c.toNat - 48)) n
            < (10 * n + (c.toNat - 48) + 1) * 10 ^ digits.length := ih hdigits _
        _ ≤ ((n + 1) * 10) * 10 ^ digits.length := Nat.mul_le_mul_right _ (by omega)
        _ = (n + 1) * 10 ^ (c :: digits).length := by
            rw [List.length_cons, Nat.pow_succ', Nat.mul_assoc]

theorem natOfDigits_lt {digits : Text} (h : ∀ c ∈ digits, c.isDigit) :
    natOfDigits digits < 10 ^ digits.length := by
  have hlt := natOfDigits_foldl_lt h 0
  rwa [Nat.zero_add, Nat.one_mul] at hlt

theorem isDigit_of_mem_cutInteger {text : Text} {c : Char} (h : c ∈ (cutInteger text).1) :
    c.isDigit := by
  unfold cutInteger at h
  split at h
  · rw [List.mem_singleton.1 h]
    rfl
  · exact List.all_eq_true.1 List.all_takeWhile c h

end Json

namespace Config

namespace Value

/-! ## Integers within values -/

/-- The integer is the value itself or within it, as an item, a key or the value of a key. -/
inductive HasInteger (n : Int) : Value -> Prop where
  | here : HasInteger n (.integer n)
  | item {items : List Value} {item : Value} (hmem : item ∈ items) (h : HasInteger n item) :
      HasInteger n (.list items)
  | key {entries : List (Value × Value)} {entry : Value × Value} (hmem : entry ∈ entries)
      (h : HasInteger n entry.1) : HasInteger n (.map entries)
  | value {entries : List (Value × Value)} {entry : Value × Value} (hmem : entry ∈ entries)
      (h : HasInteger n entry.2) : HasInteger n (.map entries)

/-- Has the integer too many digits to be written? -/
def IsTooLong (n : Int) : Prop :=
  10 ^ Json.maxIntegerDigits ≤ n.natAbs

theorem isOversized_integer {n : Int} : (integer n).isOversized ↔ IsTooLong n := by
  simp only [isOversized, IsTooLong, decide_eq_true_eq, ge_iff_le, Nat.pow_eq]

theorem anyOversized_eq (items : List Value) : anyOversized items = items.any isOversized := by
  induction items with
  | nil => rfl
  | cons item items ih => rw [anyOversized, List.any_cons, ih]

theorem anyEntryOversized_eq (entries : List (Value × Value)) :
    anyEntryOversized entries =
      entries.any fun entry => isOversized entry.1 || isOversized entry.2 := by
  induction entries with
  | nil => rfl
  | cons entry entries ih => rw [anyEntryOversized, List.any_cons, ih]

theorem isOversized_of_hasInteger {n : Int} {value : Value} (h : HasInteger n value)
    (hlong : IsTooLong n) : value.isOversized := by
  induction h with
  | here => exact isOversized_integer.2 hlong
  | item hmem _ ih =>
      rw [isOversized, anyOversized_eq]
      exact List.any_eq_true.2 ⟨_, hmem, ih⟩
  | key hmem _ ih =>
      rw [isOversized, anyEntryOversized_eq]
      exact List.any_eq_true.2 ⟨_, hmem, by rw [ih, Bool.true_or]⟩
  | value hmem _ ih =>
      rw [isOversized, anyEntryOversized_eq]
      exact List.any_eq_true.2 ⟨_, hmem, by rw [ih, Bool.or_true]⟩

theorem exists_hasInteger_of_isOversized (value : Value) :
    value.isOversized -> ∃ n, HasInteger n value ∧ IsTooLong n := by
  match value with
  | .null | .bool _ | .real _ | .string _ =>
      intro h
      simp [isOversized] at h
  | .integer n => exact fun h => ⟨n, .here, isOversized_integer.1 h⟩
  | .list items =>
      rw [isOversized, anyOversized_eq]
      intro h
      obtain ⟨item, hmem, hitem⟩ := List.any_eq_true.1 h
      obtain ⟨n, hn, hlong⟩ := exists_hasInteger_of_isOversized item hitem
      exact ⟨n, .item hmem hn, hlong⟩
  | .map entries =>
      rw [isOversized, anyEntryOversized_eq]
      intro h
      obtain ⟨⟨key, value⟩, hmem, hentry⟩ := List.any_eq_true.1 h
      rcases Bool.or_eq_true_iff.1 hentry with hkey | hvalue
      · obtain ⟨n, hn, hlong⟩ := exists_hasInteger_of_isOversized key hkey
        exact ⟨n, .key hmem hn, hlong⟩
      · obtain ⟨n, hn, hlong⟩ := exists_hasInteger_of_isOversized value hvalue
        exact ⟨n, .value hmem hn, hlong⟩
termination_by sizeOf value
decreasing_by
  all_goals
    have hsize := List.sizeOf_lt_of_mem hmem
    simp only [list.sizeOf_spec, map.sizeOf_spec, Prod.mk.sizeOf_spec] at hsize ⊢
    omega

theorem isOversized_iff {value : Value} :
    value.isOversized ↔ ∃ n, HasInteger n value ∧ IsTooLong n :=
  ⟨exists_hasInteger_of_isOversized value,
    fun ⟨_, hn, hlong⟩ => isOversized_of_hasInteger hn hlong⟩

/-! ## Values from JSON -/

section OfJson

variable {text rest : Text} {value : Json}

theorem not_isOversized_of_words :
    ∀ entry ∈ Json.words, (ofJson entry.2).isOversized = false := by
  simp [Json.words, ofJson, isOversized]

theorem not_isOversized_of_digits {digits : Text} (hdigits : ∀ c ∈ digits, c.isDigit)
    (hlength : ¬digits.length > Json.maxIntegerDigits) (negative : Bool) :
    (integer (if negative then -Int.ofNat (Json.natOfDigits digits)
      else Int.ofNat (Json.natOfDigits digits))).isOversized = false := by
  refine Bool.eq_false_iff.2 fun hoversized => ?_
  have hlong : 10 ^ Json.maxIntegerDigits ≤ Json.natOfDigits digits := by
    have hlong := isOversized_integer.1 hoversized
    unfold IsTooLong at hlong
    split at hlong <;> simpa only [Int.natAbs_neg, Int.natAbs_ofNat'] using hlong
  have hlt := Json.natOfDigits_lt hdigits
  have hpow := Nat.pow_le_pow_right (n := 10) (by decide) (Nat.le_of_not_gt hlength)
  exact Nat.lt_irrefl _ (Nat.lt_of_lt_of_le hlt (Nat.le_trans hpow hlong))

theorem not_isOversized_of_readNumber (h : Json.readNumber text = .ok (value, rest)) :
    (ofJson value).isOversized = false := by
  unfold Json.readNumber at h
  simp only at h
  split at h
  all_goals
    split at h
    · cases h
    split at h
    · split at h
      · cases h
      · next hlength =>
          obtain ⟨rfl, -⟩ := Prod.mk.inj (Except.ok.inj h)
          exact not_isOversized_of_digits (fun _ => Json.isDigit_of_mem_cutInteger) hlength _
    · obtain ⟨rfl, -⟩ := Prod.mk.inj (Except.ok.inj h)
      rw [ofJson, isOversized]

theorem not_isOversized_of_readScalar (h : Json.readScalar text = .ok (value, rest)) :
    (ofJson value).isOversized = false := by
  unfold Json.readScalar at h
  split at h
  · next result hword =>
      obtain rfl := Except.ok.inj h
      obtain ⟨⟨word, meant⟩, hmem, hresult⟩ := List.exists_of_findSome?_eq_some hword
      obtain ⟨after, -, heq⟩ := Option.map_eq_some_iff.1 hresult
      obtain ⟨rfl, -⟩ := Prod.mk.inj heq
      exact not_isOversized_of_words _ hmem
  · exact not_isOversized_of_readNumber h

theorem anyEntryOversized_put (key : Text) {fields : Json.Fields}
    (hvalue : (ofJson value).isOversized = false)
    (hfields : anyEntryOversized (ofJsonFields fields) = false) :
    anyEntryOversized (ofJsonFields (Association.put key value fields)) = false := by
  induction fields with
  | nil => simp [Association.put, ofJsonFields, anyEntryOversized, isOversized, hvalue]
  | cons field fields ih =>
      obtain ⟨name, old⟩ := field
      simp only [ofJsonFields, anyEntryOversized, isOversized, Bool.false_or,
        Bool.or_eq_false_iff] at hfields
      unfold Association.put
      split
      · simp [ofJsonFields, anyEntryOversized, isOversized, hvalue, hfields.2]
      · simp [ofJsonFields, anyEntryOversized, isOversized, hfields.1, ih hfields.2]

structure ReadsShort (fuel : Nat) : Prop where
  value : ∀ {text value rest}, Json.readValue fuel text = .ok (value, rest) ->
    (ofJson value).isOversized = false
  items : ∀ {text items rest}, Json.readItems fuel text = .ok (items, rest) ->
    anyOversized (ofJsonItems items) = false
  fields : ∀ {fields text fields' rest}, anyEntryOversized (ofJsonFields fields) = false ->
    Json.readFields fuel fields text = .ok (fields', rest) ->
      anyEntryOversized (ofJsonFields fields') = false

namespace ReadsShort

variable {fuel : Nat} (hshort : ReadsShort fuel)

include hshort in
theorem readValue (h : Json.readValue (fuel + 1) text = .ok (value, rest)) :
    (ofJson value).isOversized = false := by
  rw [Json.readValue.eq_def] at h
  simp only at h
  split at h
  · obtain ⟨⟨string, after⟩, -, h⟩ := bind_eq_ok.1 h
    cases h
    rfl
  · split at h
    · cases h
      rfl
    · obtain ⟨⟨items, rest⟩, hread, h⟩ := bind_eq_ok.1 h
      cases h
      rw [ofJson, isOversized]
      exact hshort.items hread
  · split at h
    · cases h
      rfl
    · obtain ⟨⟨fields, rest⟩, hread, h⟩ := bind_eq_ok.1 h
      cases h
      rw [ofJson, isOversized]
      exact hshort.fields rfl hread
  · exact not_isOversized_of_readScalar h

include hshort in
theorem readItems {items : List Json} (h : Json.readItems (fuel + 1) text = .ok (items, rest)) :
    anyOversized (ofJsonItems items) = false := by
  rw [Json.readItems] at h
  obtain ⟨⟨item, after⟩, hitem, h⟩ := bind_eq_ok.1 h
  simp only at h
  split at h
  · cases h
    simp [ofJsonItems, anyOversized, hshort.value hitem]
  · obtain ⟨⟨others, rest⟩, hothers, h⟩ := bind_eq_ok.1 h
    cases h
    simp [ofJsonItems, anyOversized, hshort.value hitem, hshort.items hothers]
  · cases h

include hshort in
theorem readFields {fields fields' : Json.Fields}
    (hknown : anyEntryOversized (ofJsonFields fields) = false)
    (h : Json.readFields (fuel + 1) fields text = .ok (fields', rest)) :
    anyEntryOversized (ofJsonFields fields') = false := by
  rw [Json.readFields.eq_def] at h
  simp only at h
  split at h
  · obtain ⟨⟨key, after⟩, -, h⟩ := bind_eq_ok.1 h
    simp only at h
    split at h
    · obtain ⟨⟨value, after⟩, hread, h⟩ := bind_eq_ok.1 h
      have hput := anyEntryOversized_put key (hshort.value hread) hknown
      simp only at h
      split at h
      · cases h
        exact hput
      · exact hshort.fields hput h
      · cases h
    · cases h
  · cases h

end ReadsShort

theorem readsShort (fuel : Nat) : ReadsShort fuel := by
  induction fuel with
  | zero => exact ⟨nofun, nofun, fun _ h => by cases h⟩
  | succ fuel ih => exact ⟨ih.readValue, ih.readItems, ih.readFields⟩

theorem not_isOversized_of_read (h : Json.read text = .ok value) :
    (ofJson value).isOversized = false := by
  obtain ⟨⟨found, rest⟩, hread, h⟩ := bind_eq_ok.1 h
  simp only at h
  split at h
  · cases h
    exact (readsShort _).value hread
  · cases h

end OfJson

end Value

end Config

end ModuleResolution
