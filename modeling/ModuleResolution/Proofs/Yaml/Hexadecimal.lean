import Mathlib.Algebra.Group.Nat.Defs
import ModuleResolution.Config.Value

/-!
# Hexadecimal numbers in YAML

A plain scalar of `0x` and hexadecimal digits is read as their number, however many they are.  The
reading is followed through a document of one entry: cut into tokens, put together to a node, and
made a value.  The digits take part in it only where a scalar runs over its own text.
-/

namespace ModuleResolution

namespace Yaml

structure IsHex (digits : Text) : Prop where
  ne_nil : digits ≠ []
  isSome_hexValue? : ∀ c ∈ digits, (Json.hexValue? c).isSome

def hexNumber (digits : Text) : Text :=
  "0x".toList ++ digits

def hexDocument (digits : Text) : Text :=
  "enable_cache: ".toList ++ hexNumber digits

/-! ## Digits -/

section Digit

variable {c : Char}

theorem toNat_of_isSome_hexValue? (h : (Json.hexValue? c).isSome) :
    48 ≤ c.toNat ∧ c.toNat ≤ 57 ∨ 65 ≤ c.toNat ∧ c.toNat ≤ 70 ∨ 97 ≤ c.toNat ∧ c.toNat ≤ 102 := by
  unfold Json.hexValue? at h
  split at h
  · next hdigit =>
      simp only [Char.isDigit, Bool.and_eq_true, decide_eq_true_eq] at hdigit
      exact .inl hdigit
  split at h
  · next hlower => exact .inr (.inr hlower)
  split at h
  · next hupper => exact .inr (.inl hupper)
  · cases h

theorem ne_of_isSome_hexValue? (h : (Json.hexValue? c).isSome) {d : Char}
    (hd : (Json.hexValue? d).isSome = false) : c ≠ d := by
  rintro rfl
  rw [hd] at h
  cases h

theorem isBreak_of_isSome_hexValue? (h : (Json.hexValue? c).isSome) : isBreak c = false := by
  have hn := ne_of_isSome_hexValue? h (d := '\n') (by decide)
  have hr := ne_of_isSome_hexValue? h (d := '\r') (by decide)
  have hrange := toNat_of_isSome_hexValue? h
  simp only [isBreak, beq_eq_false_iff_ne.2 hn, beq_eq_false_iff_ne.2 hr, Bool.false_or,
    Bool.or_eq_false_iff, beq_eq_false_iff_ne]
  omega

theorem isAllowed_of_isSome_hexValue? (h : (Json.hexValue? c).isSome) : isAllowed c := by
  have hrange := toNat_of_isSome_hexValue? h
  have hlow : decide (0x20 ≤ c.toNat) = true := decide_eq_true (by omega)
  have hhigh : decide (c.toNat ≤ 0x7e) = true := decide_eq_true (by omega)
  simp only [isAllowed, hlow, hhigh, Bool.and_self, Bool.or_true, Bool.true_or]

theorem endsPlain_of_isSome_hexValue? (h : (Json.hexValue? c).isSome) (rest : Text) :
    Scalar.endsPlain false (c :: rest) = false := by
  have hspace := ne_of_isSome_hexValue? h (d := ' ') (by decide)
  have htab := ne_of_isSome_hexValue? h (d := '\t') (by decide)
  have hcolon := ne_of_isSome_hexValue? h (d := ':') (by decide)
  simp only [Scalar.endsPlain, isGap, beq_eq_false_iff_ne.2 hspace, beq_eq_false_iff_ne.2 htab,
    beq_eq_false_iff_ne.2 hcolon, isBreak_of_isSome_hexValue? h, Bool.false_and, Bool.or_self]

theorem next_of_isSome_hexValue? (h : (Json.hexValue? c).isSome) (rest : Text)
    (index line column : Nat) :
    Cursor.next ⟨c :: rest, index, line, column⟩ = ⟨rest, index + 1, line, column + 1⟩ := by
  have hmark := ne_of_isSome_hexValue? h (d := byteOrderMark) (by decide)
  simp only [Cursor.next, isBreak_of_isSome_hexValue? h, beq_eq_false_iff_ne.2 hmark,
    Bool.false_and, Bool.false_eq_true, if_false]

end Digit

/-! ## The scalar -/

section Scalar

variable {digits : Text}

theorem plainWord_of_isHex (h : ∀ c ∈ digits, (Json.hexValue? c).isSome) :
    Scalar.plainWord false digits = digits := by
  induction digits with
  | nil => rfl
  | cons c rest ih =>
      obtain ⟨hc, hrest⟩ := List.forall_mem_cons.1 h
      rw [Scalar.plainWord, endsPlain_of_isSome_hexValue? hc, if_neg Bool.false_ne_true, ih hrest]

theorem skip_of_isHex (h : ∀ c ∈ digits, (Json.hexValue? c).isSome) (index line column : Nat) :
    Cursor.skip ⟨digits, index, line, column⟩ digits.length =
      ⟨[], digits.length + index, line, digits.length + column⟩ := by
  induction digits generalizing index column with
  | nil => simp [Cursor.skip]
  | cons c rest ih =>
      obtain ⟨hc, hrest⟩ := List.forall_mem_cons.1 h
      rw [List.length_cons, Cursor.skip, next_of_isSome_hexValue? hc, ih hrest,
        Nat.add_right_comm _ 1 index, Nat.add_right_comm _ 1 column, Nat.add_assoc _ index,
        Nat.add_assoc _ column]

theorem plainFrom_hexNumber (h : IsHex digits) (fuel : Nat) :
    Scalar.plainFrom false 1 (fuel + 1) [] false ⟨hexNumber digits, 14, 0, 14⟩ =
      (hexNumber digits, false, ⟨[], digits.length + 16, 0, digits.length + 16⟩) := by
  have hword : Scalar.plainWord false (hexNumber digits) = hexNumber digits :=
    congrArg ("0x".toList ++ ·) (plainWord_of_isHex h.isSome_hexValue?)
  have hskip : Cursor.skip ⟨hexNumber digits, 14, 0, 14⟩ (hexNumber digits).length =
      ⟨[], digits.length + 16, 0, digits.length + 16⟩ := skip_of_isHex h.isSome_hexValue? 16 0 16
  have hsees : Cursor.sees ⟨hexNumber digits, 14, 0, 14⟩ '#' = false := rfl
  have hspaces : Scalar.plainSpaces ⟨[], digits.length + 16, 0, digits.length + 16⟩ =
      ([], false, ⟨[], digits.length + 16, 0, digits.length + 16⟩) := rfl
  have hnonempty : (hexNumber digits).isEmpty = false := rfl
  simp only [Scalar.plainFrom, hsees, hword, hskip, hspaces, hnonempty, List.isEmpty_nil,
    Bool.false_eq_true, if_false, Bool.true_or, if_true, List.nil_append]

end Scalar

/-! ## Tokens -/

theorem Scan.toEnd_succ {scan after : Scan} {c : Char} (fuel : Nat) (next here : Scan)
    (hnext : scan.toNext.dropStaleKeys = some next) (hhere : next.closeTo next.cursor.column = here)
    (hpeek : here.cursor.peek = some c) (htoken : here.token c = some after) :
    scan.toEnd (fuel + 1) = after.toEnd fuel := by
  subst hhere
  simp only [toEnd, hnext, Option.bind_eq_bind, Option.bind_some, hpeek, htoken]

namespace HexDocument

variable (digits : Text)

def atKey : Scan :=
  Scan.start (hexDocument digits)

def afterKey : Scan :=
  ⟨⟨": ".toList ++ hexNumber digits, 12, 0, 12⟩, [.scalar "enable_cache".toList true], [], false,
    some ⟨0, false, Cursor.start (hexDocument digits)⟩, []⟩

def afterColon : Scan :=
  ⟨⟨" ".toList ++ hexNumber digits, 13, 0, 13⟩,
    [.value, .scalar "enable_cache".toList true, .key, .blockMappingStart], [0], false, none, []⟩

def atNumber : Scan :=
  { afterColon digits with cursor := ⟨hexNumber digits, 14, 0, 14⟩ }

def afterNumber : Scan :=
  { (afterColon digits).push (.scalar (hexNumber digits) true) with
    cursor := ⟨[], digits.length + 16, 0, digits.length + 16⟩ }

def atEnd : Scan :=
  { (afterNumber digits).push .blockEnd with indents := [] }

theorem toEnd_atKey (fuel : Nat) :
    (atKey digits).toEnd (fuel + 1) = (afterKey digits).toEnd fuel :=
  Scan.toEnd_succ fuel (atKey digits) (atKey digits) rfl rfl rfl rfl

theorem toEnd_afterKey (fuel : Nat) :
    (afterKey digits).toEnd (fuel + 1) = (afterColon digits).toEnd fuel :=
  Scan.toEnd_succ fuel (afterKey digits) (afterKey digits) rfl rfl rfl rfl

variable {digits} (h : IsHex digits)

include h in
theorem token_atNumber : (atNumber digits).token '0' = some (afterNumber digits) := by
  have hscan : (atNumber digits).scanPlain = some (afterNumber digits) := by
    have hnote : (atNumber digits).noteKey = some (atNumber digits) := rfl
    have hplain : Scalar.plain (atNumber digits).inFlow ((atNumber digits).indent + 1)
        (atNumber digits).cursor = (hexNumber digits, false,
          ⟨[], digits.length + 16, 0, digits.length + 16⟩) :=
      plainFrom_hexNumber h _
    simp only [Scan.scanPlain, hnote, Option.bind_eq_bind, Option.bind_some, hplain]
    rfl
  exact hscan

include h in
theorem toEnd_afterColon (fuel : Nat) :
    (afterColon digits).toEnd (fuel + 1) = (afterNumber digits).toEnd fuel :=
  Scan.toEnd_succ fuel (atNumber digits) (atNumber digits) rfl rfl rfl (token_atNumber h)

theorem toEnd_afterNumber (fuel : Nat) :
    (afterNumber digits).toEnd (fuel + 1) = some (atEnd digits) := by
  have hnext : (afterNumber digits).toNext.dropStaleKeys = some (afterNumber digits) := rfl
  have hclose : (afterNumber digits).closeTo (afterNumber digits).cursor.column =
      afterNumber digits := rfl
  simp only [Scan.toEnd, hnext, Option.bind_eq_bind, Option.bind_some, hclose]
  rfl

end HexDocument

section Document

variable {digits : Text} (h : IsHex digits)

include h in
theorem isAllowed_of_mem_hexDocument : ∀ c ∈ hexDocument digits, isAllowed c := by
  have hkey : ∀ c ∈ "enable_cache: 0x".toList, isAllowed c := List.all_eq_true.1 (by decide)
  intro c hc
  rcases List.mem_append.1 hc with hc | hc
  · exact hkey c (List.mem_append_left "0x".toList hc)
  rcases List.mem_append.1 hc with hc | hc
  · exact hkey c (List.mem_append_right "enable_cache: ".toList hc)
  · exact isAllowed_of_isSome_hexValue? (h.isSome_hexValue? c hc)

include h in
theorem ofText?_hexDocument : Token.ofText? (hexDocument digits) =
    some [.blockMappingStart, .key, .scalar "enable_cache".toList true, .value,
      .scalar (hexNumber digits) true, .blockEnd] := by
  have hlength : (hexDocument digits).length = digits.length + 16 := by
    have hkey : (hexDocument digits).length = 14 + (hexNumber digits).length := List.length_append
    have hnumber : (hexNumber digits).length = 2 + digits.length := List.length_append
    rw [hkey, hnumber]
    omega
  have hscan : (Scan.start (hexDocument digits)).toEnd ((hexDocument digits).length + 1) =
      some (HexDocument.atEnd digits) := by
    rw [hlength]
    exact (HexDocument.toEnd_atKey digits _).trans ((HexDocument.toEnd_afterKey digits _).trans
      ((HexDocument.toEnd_afterColon h _).trans (HexDocument.toEnd_afterNumber _)))
  rw [Token.ofText?, if_pos (List.all_eq_true.2 (isAllowed_of_mem_hexDocument h)), hscan]
  rfl

/-! ## Nodes -/

theorem ofTokens?_entry (word : Text) : Node.ofTokens?
    [.blockMappingStart, .key, .scalar "enable_cache".toList true, .value, .scalar word true,
      .blockEnd] =
    some (.mapping [(.scalar "enable_cache".toList true, .scalar word true)]) := by
  have hopen : Node.openDocument [.blockMappingStart, .key, .scalar "enable_cache".toList true,
      .value, .scalar word true, .blockEnd] = some (false, [.blockMappingStart, .key,
        .scalar "enable_cache".toList true, .value, .scalar word true, .blockEnd]) := by
    exact if_pos rfl
  rw [Node.ofTokens?, List.isEmpty_cons, if_neg Bool.false_ne_true, hopen]
  rfl

include h in
theorem node_hexDocument : Node.ofText? (hexDocument digits) =
    some (.mapping [(.scalar "enable_cache".toList true, .scalar (hexNumber digits) true)]) := by
  rw [Node.ofText?, ofText?_hexDocument h]
  exact ofTokens?_entry _

/-! ## Numbers -/

theorem isHex_one_zeros (count : Nat) : IsHex ('1' :: List.replicate count '0') where
  ne_nil := List.cons_ne_nil _ _
  isSome_hexValue? := List.forall_mem_cons.2
    ⟨by decide, fun c hc => by rw [List.eq_of_mem_replicate hc]; decide⟩

theorem inBase_one_zeros (count : Nat) :
    Atom.inBase 16 ('1' :: List.replicate count '0') = 16 ^ count := by
  have hzeros : ∀ start, (List.replicate count '0').foldl
      (fun n c => 16 * n + (Json.hexValue? c).getD 0) start = 16 ^ count * start := by
    induction count with
    | zero => simp
    | succ count ih =>
        intro start
        have hzero : (Json.hexValue? '0').getD 0 = 0 := rfl
        rw [List.replicate_succ, List.foldl_cons, ih, hzero, Nat.add_zero, Nat.pow_succ,
          Nat.mul_assoc]
  exact (hzeros 1).trans (Nat.mul_one _)

include h in
theorem integer?_hexNumber :
    Atom.integer? (hexNumber digits) = some (some (Atom.inBase 16 digits)) := by
  obtain ⟨c, rest, rfl⟩ := List.exists_cons_of_ne_nil h.ne_nil
  have hall : (c :: rest).all fun c => (Json.hexValue? c).isSome || c == '_' :=
    List.all_eq_true.2 fun d hd => by rw [h.isSome_hexValue? d hd, Bool.true_or]
  have hungrouped : Atom.ungrouped (c :: rest) = c :: rest :=
    List.filter_eq_self.2 fun d hd =>
      bne_iff_ne.2 (ne_of_isSome_hexValue? (h.isSome_hexValue? d hd) (by decide))
  have hbased : Atom.integer? (hexNumber (c :: rest)) =
      if (c :: rest).all fun c => (Json.hexValue? c).isSome || c == '_' then
        some (if (Atom.ungrouped (c :: rest)).isEmpty then none
          else some (Atom.inBase 16 (Atom.ungrouped (c :: rest))))
      else none := rfl
  rw [hbased, if_pos hall, hungrouped, List.isEmpty_cons, if_neg Bool.false_ne_true]

include h in
theorem ofPlain?_hexNumber :
    Atom.ofPlain? (hexNumber digits) = some (.integer (Atom.inBase 16 digits)) := by
  have hnull : Atom.nulls.contains (hexNumber digits) = false := rfl
  have htrue : Atom.trues.contains (hexNumber digits) = false := rfl
  have hfalse : Atom.falses.contains (hexNumber digits) = false := rfl
  have hmerge : hexNumber digits ≠ "<<".toList := nofun
  have hdefault : hexNumber digits ≠ ['='] := nofun
  have hsign : Atom.cutSign (hexNumber digits) = (false, hexNumber digits) := rfl
  simp only [Atom.ofPlain?, hnull, htrue, hfalse, hmerge, hdefault, hsign, integer?_hexNumber h,
    Bool.false_eq_true, if_false]
  rfl

end Document

end Yaml

namespace Config

open Yaml (hexDocument hexNumber IsHex)

theorem Value.ofYaml?_hexDocument {digits : Text} (h : IsHex digits) :
    Value.ofYaml? (hexDocument digits) = some
      (.map [(.string "enable_cache".toList, .integer (Yaml.Atom.inBase 16 digits))]) := by
  have hkey : ofPlain? "enable_cache".toList = some (.string "enable_cache".toList) := rfl
  have hnumber : ofPlain? (hexNumber digits) = some (.integer (Yaml.Atom.inBase 16 digits)) := by
    rw [ofPlain?, Yaml.ofPlain?_hexNumber h]
    rfl
  have hmerge : isMerge (.scalar "enable_cache".toList true) = false := rfl
  have hdefault : isDefault (.scalar "enable_cache".toList true) = false := rfl
  rw [ofYaml?, Yaml.node_hexDocument h]
  simp only [ofNode?, entriesOf?, hmerge, hdefault, hkey, hnumber, Bool.false_eq_true, if_false,
    Option.bind_eq_bind, Option.bind_some, Option.pure_def, List.nil_append]
  rfl

end Config

end ModuleResolution
