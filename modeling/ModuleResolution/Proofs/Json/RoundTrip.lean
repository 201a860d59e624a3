import ModuleResolution.Json.Reader
import ModuleResolution.Json.Rows
import ModuleResolution.Proofs.Association

/-!
# Written rows are read back

Reading takes the escapes of a string apart again: a character outside ASCII comes back from its
unit of 16 bits, or from the two halves of its pair.  So what is read of written rows is an array
with one object for each row, field by field.
-/

namespace ModuleResolution

namespace Json

open Rows (Row hexDigit unitEscape writeChar writeString writeField writeLines writeRow)

/-! ## Units -/

theorem hexValue?_hexDigit {n : Nat} (h : n < 16) : hexValue? (hexDigit n) = some n := by
  have hall : ∀ i : Fin 16, hexValue? (hexDigit i) = some i.val := by decide
  exact hall ⟨n, h⟩

theorem unitOf?_hexDigits {value : Nat} (h : value < 0x10000) :
    unitOf? (hexDigit (value / 0x1000 % 16)) (hexDigit (value / 0x100 % 16))
      (hexDigit (value / 0x10 % 16)) (hexDigit (value % 16)) = some value := by
  have hdigit : ∀ n, hexValue? (hexDigit (n % 16)) = some (n % 16) := fun n =>
    hexValue?_hexDigit (Nat.mod_lt n (by decide))
  have hsum : 16 * (16 * (16 * (16 * 0 + value / 0x1000 % 16) + value / 0x100 % 16) +
      value / 0x10 % 16) + value % 16 = value := by omega
  simp only [unitOf?, List.mapM_cons, List.mapM_nil, hdigit, bind, Option.bind, pure,
    List.foldl_cons, List.foldl_nil, hsum]

/-! ## Pieces of strings -/

def highHalf (c : Char) : Nat := 0xd800 + (c.toNat - 0x10000) / 0x400

def lowHalf (c : Char) : Nat := 0xdc00 + (c.toNat - 0x10000) % 0x400

inductive Spells (c : Char) : List Piece -> Prop where
  | char : Spells c [.char c]
  | unit (h : c.toNat < 0x10000) : Spells c [.unit c.toNat]
  | pair (h : 0x10000 ≤ c.toNat) : Spells c [.unit (highHalf c), .unit (lowHalf c)]

theorem toNat_lt (c : Char) : c.toNat < 0x110000 := by
  rcases c.valid with h | h
  · exact Nat.lt_trans h (by decide)
  · exact h.2

theorem isHalf_toNat (c : Char) : isHighHalf c.toNat = false ∧ isLowHalf c.toNat = false := by
  have hvalid : c.toNat < 0xd800 ∨ 0xdfff < c.toNat := by
    rcases c.valid with h | h
    · exact .inl h
    · exact .inr h.1
  simp only [isHighHalf, isLowHalf, Bool.and_eq_false_iff, decide_eq_false_iff_not]
  omega

theorem pairChar_halves {c : Char} (h : 0x10000 ≤ c.toNat) :
    isHighHalf (highHalf c) ∧ isLowHalf (lowHalf c) ∧ pairChar (highHalf c) (lowHalf c) = c := by
  have hlt := toNat_lt c
  have hsum : 0x10000 + (highHalf c - 0xd800) * 0x400 + (lowHalf c - 0xdc00) = c.toNat := by
    unfold highHalf lowHalf
    omega
  refine ⟨?_, ?_, by rw [pairChar, hsum, Char.ofNat_toNat]⟩
  · unfold isHighHalf highHalf
    simp
    omega
  · unfold isLowHalf lowHalf
    simp
    omega

theorem unitChar_toNat (c : Char) : unitChar c.toNat = c := by
  obtain ⟨hhigh, hlow⟩ := isHalf_toNat c
  rw [unitChar, hhigh, hlow]
  exact Char.ofNat_toNat c

theorem textOfPieces_unit (c : Char) (rest : List Piece) :
    textOfPieces (.unit c.toNat :: rest) = c :: textOfPieces rest := by
  match rest with
  | [] => rw [textOfPieces, textOfPieces, unitChar_toNat]
  | .char d :: rest => rw [textOfPieces, textOfPieces, unitChar_toNat]
  | .unit next :: rest => rw [textOfPieces, (isHalf_toNat c).1, unitChar_toNat]; rfl

theorem Spells.textOfPieces_append {c : Char} {pieces : List Piece} (h : Spells c pieces)
    (rest : List Piece) : textOfPieces (pieces ++ rest) = c :: textOfPieces rest := by
  cases h with
  | char => rfl
  | unit hlt => exact textOfPieces_unit c rest
  | pair hle =>
      obtain ⟨hhigh, hlow, hchar⟩ := pairChar_halves hle
      rw [List.cons_append, List.cons_append, List.nil_append, textOfPieces, hhigh, hlow, hchar]
      rfl

/-! ## Written strings -/

def ReadsAs (text : Text) (pieces : List Piece) : Prop :=
  ∀ rest, stringPieces (text ++ rest) =
    (stringPieces rest).map fun (others, after) => (pieces ++ others, after)

theorem ReadsAs.append {first second : Text} {pieces pieces' : List Piece}
    (hfirst : ReadsAs first pieces) (hsecond : ReadsAs second pieces') :
    ReadsAs (first ++ second) (pieces ++ pieces') := by
  intro rest
  rw [List.append_assoc, hfirst, hsecond, Option.map_map]
  simp only [Function.comp_def, List.append_assoc]

theorem readsAs_unitEscape {value : Nat} (h : value < 0x10000) :
    ReadsAs (unitEscape value) [.unit value] := by
  intro rest
  show stringPieces ('\\' :: 'u' :: hexDigit (value / 0x1000 % 16) ::
    hexDigit (value / 0x100 % 16) :: hexDigit (value / 0x10 % 16) :: hexDigit (value % 16) ::
      rest) = _
  rw [stringPieces, unitOf?_hexDigits h]
  cases stringPieces rest <;> rfl

theorem readsAs_escaped {letter c : Char} (hletter : letter ≠ 'u') (h : escaped? letter = some c) :
    ReadsAs ['\\', letter] [.char c] := by
  intro rest
  show stringPieces ('\\' :: letter :: rest) = _
  rw [stringPieces]
  · rw [h]
    cases stringPieces rest <;> rfl
  · intro a b c d others hu
    exact fun _ => hletter hu

theorem readsAs_literal {c : Char} (hquote : c ≠ '"') (hslash : c ≠ '\\') (h : 0x20 ≤ c.toNat) :
    ReadsAs [c] [.char c] := by
  intro rest
  show stringPieces (c :: rest) = _
  have hplain : ¬(c.toNat < 0x20 ∨ c = '\\') := fun hc => hc.elim (Nat.not_lt.2 h) hslash
  rw [stringPieces, if_neg hplain]
  · cases stringPieces rest <;> rfl
  · exact hquote
  · exact fun _ _ _ _ _ hc => absurd hc hslash
  · exact fun _ _ hc => absurd hc hslash

theorem exists_spells (c : Char) : ∃ pieces, Spells c pieces ∧ ReadsAs (writeChar c) pieces := by
  have hofNat : ∀ {n}, c.toNat = n -> Char.ofNat n = c := fun h => h ▸ Char.ofNat_toNat c
  unfold writeChar
  simp only
  split
  · next h =>
      subst h
      exact ⟨_, .char, readsAs_escaped (by decide) rfl⟩
  split
  · next h =>
      subst h
      exact ⟨_, .char, readsAs_escaped (by decide) rfl⟩
  split
  · next hquote hslash h => exact ⟨_, .char, readsAs_literal hquote hslash h.1⟩
  split
  · next h =>
      subst h
      exact ⟨_, .char, readsAs_escaped (by decide) rfl⟩
  split
  · next h =>
      subst h
      exact ⟨_, .char, readsAs_escaped (by decide) rfl⟩
  split
  · next h =>
      subst h
      exact ⟨_, .char, readsAs_escaped (by decide) rfl⟩
  split
  · next h => exact ⟨_, .char, readsAs_escaped (by decide) (congrArg some (hofNat h))⟩
  split
  · next h => exact ⟨_, .char, readsAs_escaped (by decide) (congrArg some (hofNat h))⟩
  split
  · next h => exact ⟨_, .unit h, readsAs_unitEscape h⟩
  · next h =>
      have hlt := toNat_lt c
      have hhigh : highHalf c < 0x10000 := by unfold highHalf; omega
      have hlow : lowHalf c < 0x10000 := by unfold lowHalf; omega
      exact ⟨_, .pair (Nat.le_of_not_lt h),
        (readsAs_unitEscape hhigh).append (readsAs_unitEscape hlow)⟩

theorem readString_flatMap_writeChar (text rest : Text) :
    readString (text.flatMap writeChar ++ '"' :: rest) = .ok (text, rest) := by
  have hpieces : ∃ pieces, stringPieces (text.flatMap writeChar ++ '"' :: rest) =
      some (pieces, rest) ∧ textOfPieces pieces = text := by
    induction text with
    | nil => exact ⟨[], rfl, rfl⟩
    | cons c others ih =>
        obtain ⟨pieces, hread, htext⟩ := ih
        obtain ⟨spelled, hspells, hreads⟩ := exists_spells c
        refine ⟨spelled ++ pieces, ?_, ?_⟩
        · rw [List.flatMap_cons, List.append_assoc, hreads, hread]
          rfl
        · rw [hspells.textOfPieces_append, htext]
  obtain ⟨pieces, hread, htext⟩ := hpieces
  rw [readString, hread]
  exact congrArg Except.ok (Prod.ext htext rfl)

/-! ## Blanks between tokens -/

theorem skipSpace_cons_of_isSpace {c : Char} (h : isSpace c) (rest : Text) :
    skipSpace (c :: rest) = skipSpace rest :=
  List.dropWhile_cons_of_pos h

theorem skipSpace_cons_of_not_isSpace {c : Char} (h : isSpace c = false) (rest : Text) :
    skipSpace (c :: rest) = c :: rest :=
  List.dropWhile_cons_of_neg (by simp [h])

/-! ## Fields -/

def fieldValue : Option Text -> Json
  | some text => .string text
  | none => .null

def ofRow (row : Row) : Json :=
  .object (row.map fun field => (field.1, fieldValue field.2))

def writeValue : Option Text -> Text
  | some text => writeString text
  | none => "null".toList

theorem writeField_eq (key : Text) (value : Option Text) (rest : Text) :
    writeField (key, value) ++ rest =
      "    \"".toList ++ (key.flatMap writeChar ++ '"' :: ':' :: ' ' :: (writeValue value ++ rest)) := by
  cases value <;> simp [writeField, writeValue, writeString]

theorem readValue_writeValue (fuel : Nat) (value : Option Text) (rest : Text) :
    readValue (fuel + 1) (writeValue value ++ rest) = .ok (fieldValue value, rest) := by
  cases value with
  | none => rfl
  | some text =>
      have hread := readString_flatMap_writeChar text rest
      have hwritten : writeValue (some text) ++ rest =
          '"' :: (text.flatMap writeChar ++ '"' :: rest) := by
        simp [writeValue, writeString]
      rw [hwritten, readValue, hread]
      rfl

theorem skipSpace_writeValue (value : Option Text) (rest : Text) :
    skipSpace (writeValue value ++ rest) = writeValue value ++ rest := by
  cases value <;> rfl

theorem readFields_writeField (fuel : Nat) (fields : Fields) (key : Text) (value : Option Text)
    (rest : Text) :
    readFields (fuel + 2) fields (skipSpace (writeField (key, value) ++ rest)) =
      match skipSpace rest with
      | '}' :: rest => .ok (Association.put key (fieldValue value) fields, rest)
      | ',' :: rest =>
          readFields (fuel + 1) (Association.put key (fieldValue value) fields) (skipSpace rest)
      | _ => .error .malformed := by
  have hstart : skipSpace (writeField (key, value) ++ rest) =
      '"' :: (key.flatMap writeChar ++ '"' :: ':' :: ' ' :: (writeValue value ++ rest)) := by
    rw [writeField_eq]
    rfl
  have hcolon : ∀ text, skipSpace (':' :: text) = ':' :: text :=
    skipSpace_cons_of_not_isSpace (by decide)
  have hblank : skipSpace (' ' :: (writeValue value ++ rest)) = writeValue value ++ rest := by
    rw [skipSpace_cons_of_isSpace (by decide), skipSpace_writeValue]
  rw [hstart, readFields, readString_flatMap_writeChar]
  simp only [bind, Except.bind, hcolon, hblank, readValue_writeValue]
  rfl

theorem readFields_writeLines {row : Row} {fuel : Nat} {fields : Fields} (hne : row ≠ [])
    (hfuel : row.length < fuel) (hnodup : (row.map Prod.fst).Nodup)
    (hfresh : ∀ key ∈ row.map Prod.fst, key ∉ fields.map Prod.fst) (rest : Text) :
    readFields fuel fields (skipSpace (writeLines (row.map writeField) ++ "  \x7d".toList ++ rest)) =
      .ok (fields ++ row.map (fun field => (field.1, fieldValue field.2)), rest) := by
  induction row generalizing fuel fields with
  | nil => exact absurd rfl hne
  | cons field others ih =>
      obtain ⟨key, value⟩ := field
      rw [List.length_cons] at hfuel
      obtain ⟨fuel, rfl⟩ : ∃ less, fuel = less + 2 := ⟨fuel - 2, by omega⟩
      have hput : Association.put key (fieldValue value) fields =
          fields ++ [(key, fieldValue value)] :=
        Association.put_of_get?_eq_none _ (Association.get?_eq_none_iff.2 (hfresh key (by simp)))
      cases others with
      | nil =>
          have hwritten : writeLines ([(key, value)].map writeField) ++ "  \x7d".toList ++ rest =
              writeField (key, value) ++ ("\n  \x7d".toList ++ rest) := by
            simp [writeLines]
          rw [hwritten, readFields_writeField]
          show Except.ok _ = _
          rw [hput]
          rfl
      | cons next others =>
          have hwritten : writeLines (((key, value) :: next :: others).map writeField) ++
              "  \x7d".toList ++ rest = writeField (key, value) ++
                ',' :: '\n' :: (writeLines ((next :: others).map writeField) ++
                  "  \x7d".toList ++ rest) := by
            simp [writeLines]
          rw [hwritten, readFields_writeField]
          show readFields (fuel + 1) _ (skipSpace ('\n' :: _)) = _
          rw [skipSpace_cons_of_isSpace (by decide), hput, ih (by simp) (by omega)]
          · simp
          · exact (List.nodup_cons.1 hnodup).2
          · intro other hother hmem
            rw [List.map_append, List.mem_append] at hmem
            rcases hmem with hmem | hmem
            · exact hfresh other (List.mem_cons_of_mem _ hother) hmem
            · rw [List.mem_singleton.1 hmem] at hother
              exact (List.nodup_cons.1 hnodup).1 hother

/-! ## Rows -/

theorem writeLines_cons_cons (line next : Text) (others : List Text) :
    writeLines (line :: next :: others) = line ++ ',' :: '\n' :: writeLines (next :: others) := by
  rw [writeLines, List.append_assoc]
  · rfl
  · simp

theorem isPrefix_writeLines (line : Text) (others : List Text) :
    line <+: writeLines (line :: others) := by
  cases others with
  | nil => exact List.prefix_append _ _
  | cons next others =>
      rw [writeLines_cons_cons]
      exact List.prefix_append _ _

theorem exists_skipSpace_eq_quote (field : Text × Option Text) (others : Row) (rest : Text) :
    ∃ after, skipSpace (writeLines ((field :: others).map writeField) ++ rest) = '"' :: after := by
  obtain ⟨lines, hlines⟩ := isPrefix_writeLines (writeField field) (others.map writeField)
  rw [List.map_cons, ← hlines, List.append_assoc, writeField_eq]
  exact ⟨_, rfl⟩

theorem readValue_writeRow {row : Row} {fuel : Nat} (hfuel : row.length + 1 < fuel)
    (hnodup : (row.map Prod.fst).Nodup) (rest : Text) :
    readValue fuel (skipSpace (writeRow row ++ rest)) = .ok (ofRow row, rest) := by
  obtain ⟨fuel, rfl⟩ : ∃ less, fuel = less + 1 := ⟨fuel - 1, by omega⟩
  cases row with
  | nil => rfl
  | cons field others =>
      have hwritten : skipSpace (writeRow (field :: others) ++ rest) =
          '\x7b' :: '\n' :: (writeLines ((field :: others).map writeField) ++
            ("  \x7d".toList ++ rest)) := by
        rw [writeRow, if_neg (by simp), List.append_assoc, List.append_assoc]
        rfl
      have hline : ∀ text, skipSpace ('\n' :: text) = skipSpace text :=
        skipSpace_cons_of_isSpace (by decide)
      obtain ⟨after, hafter⟩ := exists_skipSpace_eq_quote field others
        ("  \x7d".toList ++ rest)
      have hfresh : ∀ key ∈ (field :: others).map Prod.fst, key ∉ ([] : Fields).map Prod.fst :=
        fun _ _ => List.not_mem_nil
      have hread := readFields_writeLines (List.cons_ne_nil field others)
        (by omega : (field :: others).length < fuel) hnodup hfresh rest
      rw [List.append_assoc, hafter] at hread
      rw [hwritten, readValue, hline, hafter]
      show (readFields fuel [] ('"' :: after) >>= _) = _
      rw [hread]
      rfl

theorem readItems_writeLines {rows : List Row} {fuel : Nat} (hne : rows ≠ [])
    (hfuel : ∀ row ∈ rows, rows.length + row.length + 2 ≤ fuel)
    (hnodup : ∀ row ∈ rows, (row.map Prod.fst).Nodup) (rest : Text) :
    readItems fuel (skipSpace (writeLines (rows.map writeRow) ++ ']' :: rest)) =
      .ok (rows.map ofRow, rest) := by
  induction rows generalizing fuel with
  | nil => exact absurd rfl hne
  | cons row others ih =>
      have hrow := hfuel row List.mem_cons_self
      rw [List.length_cons] at hrow
      obtain ⟨fuel, rfl⟩ : ∃ less, fuel = less + 1 := ⟨fuel - 1, by omega⟩
      have hread := readValue_writeRow (by omega : row.length + 1 < fuel)
        (hnodup row List.mem_cons_self)
      cases others with
      | nil =>
          rw [List.map_cons, List.map_nil, writeLines, List.append_assoc, readItems, hread]
          rfl
      | cons next others =>
          have hless : ∀ other ∈ next :: others,
              (next :: others).length + other.length + 2 ≤ fuel := by
            intro other hmem
            have hother := hfuel other (List.mem_cons_of_mem _ hmem)
            rw [List.length_cons] at hother
            omega
          have hrest := ih (List.cons_ne_nil next others) hless
            fun other hother => hnodup other (List.mem_cons_of_mem _ hother)
          have hcomma : ∀ text, skipSpace (',' :: text) = ',' :: text :=
            skipSpace_cons_of_not_isSpace (by decide)
          have hline : ∀ text, skipSpace ('\n' :: text) = skipSpace text :=
            skipSpace_cons_of_isSpace (by decide)
          rw [List.map_cons, List.map_cons, writeLines_cons_cons, List.append_assoc, readItems,
            hread]
          simp only [bind, Except.bind, List.cons_append, hcomma, hline]
          rw [← List.map_cons, hrest]
          rfl

/-! ## The whole text -/

theorem length_le_writeLines (lines : List Text) : lines.length ≤ (writeLines lines).length := by
  fun_induction writeLines lines with
  | case1 => exact Nat.le_refl _
  | case2 line => simp
  | case3 line rest hne ih =>
      simp only [List.length_cons, List.length_append, List.length_nil]
      omega

theorem length_add_length_le_writeLines {lines : List Text} {line : Text} (h : line ∈ lines) :
    lines.length + line.length ≤ (writeLines lines).length := by
  fun_induction writeLines lines with
  | case1 => cases h
  | case2 first =>
      rw [List.mem_singleton.1 h]
      simp only [List.length_cons, List.length_append, List.length_nil]
      omega
  | case3 first rest hne ih =>
      have hrest := length_le_writeLines rest
      simp only [List.length_cons, List.length_append, List.length_nil]
      rcases List.mem_cons.1 h with rfl | hmem
      · omega
      · have hline := ih hmem
        omega

theorem length_add_two_le_writeRow (row : Row) : row.length + 2 ≤ (writeRow row).length := by
  unfold writeRow
  split
  · next h =>
      rw [List.isEmpty_iff.1 h]
      decide
  · have hlines := length_le_writeLines (row.map writeField)
    rw [List.length_map] at hlines
    have hopen : "  \x7b\n".toList.length = 4 := rfl
    rw [List.length_append, List.length_append, hopen]
    omega

theorem exists_skipSpace_eq_brace (row : Row) (others : List Row) (rest : Text) :
    ∃ after, skipSpace (writeLines ((row :: others).map writeRow) ++ rest) = '\x7b' :: after := by
  obtain ⟨lines, hlines⟩ := isPrefix_writeLines (writeRow row) (others.map writeRow)
  rw [List.map_cons, ← hlines, List.append_assoc, writeRow]
  split
  · exact ⟨_, rfl⟩
  · rw [List.append_assoc, List.append_assoc]
    exact ⟨_, rfl⟩

theorem read_write {rows : List Row} (h : ∀ row ∈ rows, (row.map Prod.fst).Nodup) :
    read (Rows.write rows ++ ['\n']) = .ok (.array (rows.map ofRow)) := by
  cases rows with
  | nil => rfl
  | cons row others =>
      have hwritten : Rows.write (row :: others) ++ ['\n'] =
          '[' :: '\n' :: (writeLines ((row :: others).map writeRow) ++ [']', '\n']) := by
        rw [Rows.write, if_neg (by simp), List.append_assoc, List.append_assoc]
        rfl
      have hfuel : ∀ other ∈ row :: others, (row :: others).length + other.length + 2 ≤
          (Rows.write (row :: others) ++ ['\n']).length := by
        intro other hother
        have hline := length_add_length_le_writeLines (List.mem_map_of_mem (f := writeRow) hother)
        have hrow := length_add_two_le_writeRow other
        rw [List.length_map, List.length_cons] at hline
        rw [hwritten]
        simp only [List.length_cons, List.length_append, List.length_nil]
        omega
      have hread := readItems_writeLines (List.cons_ne_nil row others) hfuel h ['\n']
      have hline : ∀ text, skipSpace ('\n' :: text) = skipSpace text :=
        skipSpace_cons_of_isSpace (by decide)
      obtain ⟨after, hafter⟩ := exists_skipSpace_eq_brace row others [']', '\n']
      rw [hafter] at hread
      rw [read, hwritten, skipSpace_cons_of_not_isSpace (by decide), readValue, hline, hafter]
      show ((readItems _ ('\x7b' :: after) >>= _) >>= _) = _
      rw [← hwritten, hread]
      rfl

end Json

end ModuleResolution
