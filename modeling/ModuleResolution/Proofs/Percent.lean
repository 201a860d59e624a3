import ModuleResolution.Percent
import ModuleResolution.Proofs.Text.Pieces
import ModuleResolution.Proofs.Text.Utf8

/-!
# Escapes and texts

Reading undoes writing, and a character of ASCII that is no part of an escape separates what stands
before it from what stands after it.  So a path is read segment by segment.
-/

namespace ModuleResolution

namespace Percent

open Text (splitOn joinWith)

/-! ## Hexadecimal digits -/

theorem hexValue?_hexDigit {n : Nat} (h : n < 16) : hexValue? (hexDigit n) = some n := by
  have hall : ∀ i : Fin 16, hexValue? (hexDigit i) = some i.val := by decide
  exact hall ⟨n, h⟩

theorem isAscii_hexDigit {n : Nat} (h : n < 16) : isAscii (hexDigit n) := by
  have hall : ∀ i : Fin 16, isAscii (hexDigit i) := by decide
  exact hall ⟨n, h⟩

theorem isAscii_of_mem_escape {octet : UInt8} {c : Char} (h : c ∈ escape octet) : isAscii c := by
  have hlt : octet.toNat < 256 := octet.toNat_lt
  simp only [escape, List.mem_cons, List.not_mem_nil, or_false] at h
  rcases h with h | h | h
  · subst h; decide
  · subst h; exact isAscii_hexDigit (by omega)
  · subst h; exact isAscii_hexDigit (by omega)

/-! ## Octets -/

theorem octets_escaped {d e : Char} {high low : Nat} (hd : hexValue? d = some high)
    (he : hexValue? e = some low) (rest : Text) :
    octets ('%' :: d :: e :: rest) = (16 * high + low).toUInt8 :: octets rest := by
  simp [octets, hd, he]

def IsLiteral (c : Char) (rest : Text) : Prop :=
  ∀ d e others, rest = d :: e :: others -> c = '%' -> hexValue? d = none ∨ hexValue? e = none

theorem induction_on_escapes {motive : Text -> Prop} (nil : motive [])
    (escaped : ∀ d e high low rest, hexValue? d = some high -> hexValue? e = some low ->
      motive rest -> motive ('%' :: d :: e :: rest))
    (literal : ∀ c rest, IsLiteral c rest -> motive rest -> motive (c :: rest)) :
    ∀ text : Text, motive text
  | [] => nil
  | [c] => literal c [] (fun _ _ _ h => by cases h) nil
  | [c, d] =>
      literal c [d] (fun _ _ _ h => by cases h) (literal d [] (fun _ _ _ h => by cases h) nil)
  | c :: d :: e :: rest => by
      have hnext := induction_on_escapes nil escaped literal (d :: e :: rest)
      have hrest := induction_on_escapes nil escaped literal rest
      cases hd : hexValue? d with
      | none => exact literal c _ (fun _ _ _ h _ => by cases h; exact .inl hd) hnext
      | some high =>
          cases he : hexValue? e with
          | none => exact literal c _ (fun _ _ _ h _ => by cases h; exact .inr he) hnext
          | some low =>
              by_cases hc : c = '%'
              · rw [hc]
                exact escaped d e high low rest hd he hrest
              · exact literal c _ (fun _ _ _ _ hp => absurd hp hc) hnext

theorem octets_cons {c : Char} {text : Text} (h : IsLiteral c text) :
    octets (c :: text) = c.toNat.toUInt8 :: octets text := by
  cases text with
  | nil => rfl
  | cons d others =>
      cases others with
      | nil => rfl
      | cons e rest =>
          rw [octets]
          split
          · next hc =>
              split
              · next hd he =>
                  rcases h d e rest rfl hc with hn | hn
                  · rw [hn] at hd; cases hd
                  · rw [hn] at he; cases he
              · rfl
          · rfl

theorem octets_cons_of_ne {c : Char} (h : c ≠ '%') (text : Text) :
    octets (c :: text) = c.toNat.toUInt8 :: octets text :=
  octets_cons fun _ _ _ _ hc => absurd hc h

theorem IsLiteral.append_cons {c d : Char} {rest : Text} (h : IsLiteral d rest)
    (hx : hexValue? c = none) (after : Text) : IsLiteral d (rest ++ c :: after) := by
  intro x y others hrest hd
  match rest, hrest with
  | [], hrest => cases hrest; exact .inl hx
  | [_], hrest => cases hrest; exact .inr hx
  | _ :: _ :: _, hrest => cases hrest; exact h _ _ _ rfl hd

theorem octets_append_cons {c : Char} (hp : c ≠ '%') (hx : hexValue? c = none)
    (before after : Text) :
    octets (before ++ c :: after) = octets before ++ c.toNat.toUInt8 :: octets after := by
  induction before using induction_on_escapes with
  | nil => exact octets_cons_of_ne hp after
  | escaped d e high low rest hd he ih =>
      rw [octets_escaped hd he, List.cons_append, List.cons_append, List.cons_append,
        octets_escaped hd he, ih, List.cons_append]
  | literal d rest h ih =>
      rw [octets_cons h, List.cons_append, octets_cons (h.append_cons hx after), ih,
        List.cons_append]

/-! ## Separators -/

def IsSeparator (c : Char) : Prop :=
  isAscii c ∧ c ≠ '%' ∧ hexValue? c = none

theorem isSeparator_slash : IsSeparator '/' := by
  refine ⟨by decide, by decide, by decide⟩

theorem isSeparator_backslash : IsSeparator '\\' := by
  refine ⟨by decide, by decide, by decide⟩

theorem IsSeparator.ne_of_hexValue? {c d : Char} {n : Nat} (h : IsSeparator c)
    (hd : hexValue? d = some n) : d ≠ c := by
  rintro rfl
  rw [h.2.2] at hd
  cases hd

theorem decodeRun_append_cons {c : Char} (h : IsSeparator c) (before after : Text) :
    decodeRun (before ++ c :: after) = decodeRun before ++ c :: decodeRun after := by
  have hlt : c.toNat < 0x80 := of_decide_eq_true h.1
  have hoctet : c.toNat.toUInt8.toNat = c.toNat := Text.Utf8.toNat_toUInt8 (by omega)
  unfold decodeRun
  rw [octets_append_cons h.2.1 h.2.2, Text.Utf8.decodeLossy_append_ascii (by omega), hoctet,
    Char.ofNat_toNat]

theorem decodeAfterRun_append_cons {c : Char} (h : IsSeparator c) (before after : Text) :
    ∀ run, decodeRun (run ++ (decodeAfterRun (before ++ c :: after)).1) ++
        (decodeAfterRun (before ++ c :: after)).2 =
      decodeRun (run ++ (decodeAfterRun before).1) ++ (decodeAfterRun before).2 ++
        c :: decode after := by
  induction before with
  | nil =>
      intro run
      have hc : isAscii c = true := h.1
      simp [decodeAfterRun, hc, decodeRun_append_cons h, decode]
  | cons d rest ih =>
      intro run
      by_cases hd : isAscii d
      · have hrest := ih (run ++ [d])
        simp only [List.append_assoc, List.singleton_append] at hrest
        simp [decodeAfterRun, hd, hrest]
      · have hrest := ih []
        simp only [List.nil_append] at hrest
        simp [decodeAfterRun, hd, hrest]

theorem decode_append_cons {c : Char} (h : IsSeparator c) (before after : Text) :
    decode (before ++ c :: after) = decode before ++ c :: decode after :=
  decodeAfterRun_append_cons h before after []

theorem decode_joinWith {separator : Char} (h : IsSeparator separator) (segments : List Text) :
    decode (joinWith separator segments) = joinWith separator (segments.map decode) := by
  induction segments with
  | nil => rfl
  | cons first others ih =>
      cases others with
      | nil => rfl
      | cons second rest =>
          rw [Text.joinWith_cons_cons, decode_append_cons h, ih]
          rfl

/-! ## Texts without escapes -/

theorem octets_cons_of_ascii {c : Char} (hascii : isAscii c) (hpercent : c ≠ '%') (rest : Text) :
    octets (c :: rest) = Text.Utf8.encodeChar c ++ octets rest := by
  have hlt : c.toNat < 0x80 := of_decide_eq_true hascii
  rw [octets_cons_of_ne hpercent]
  simp [Text.Utf8.encodeChar, hlt]

theorem octets_of_ascii {run : Text} (h : ∀ c ∈ run, isAscii c ∧ c ≠ '%') :
    octets run = Text.Utf8.encode run := by
  induction run with
  | nil => rfl
  | cons c rest ih =>
      obtain ⟨hascii, hpercent⟩ := h c List.mem_cons_self
      rw [octets_cons_of_ascii hascii hpercent, ih fun d hd => h d (List.mem_cons_of_mem _ hd)]
      rfl

theorem decodeRun_of_ascii {run : Text} (h : ∀ c ∈ run, isAscii c ∧ c ≠ '%') :
    decodeRun run = run := by
  rw [decodeRun, octets_of_ascii h, Text.Utf8.decodeLossy_encode]

theorem decode_of_not_mem {text : Text} (h : '%' ∉ text) : decode text = text := by
  have hparts : (∀ c ∈ (decodeAfterRun text).1, isAscii c ∧ c ≠ '%') ∧
      (decodeAfterRun text).1 ++ (decodeAfterRun text).2 = text := by
    induction text with
    | nil => exact ⟨by simp [decodeAfterRun], rfl⟩
    | cons c rest ih =>
        obtain ⟨hrun, happend⟩ := ih fun hm => h (List.mem_cons_of_mem _ hm)
        have hc : c ≠ '%' := fun he => h (he ▸ List.mem_cons_self)
        unfold decodeAfterRun
        simp only
        split
        · next hascii =>
            refine ⟨fun d hd => ?_, by rw [List.cons_append, happend]⟩
            rcases List.mem_cons.1 hd with rfl | hd
            · exact ⟨hascii, hc⟩
            · exact hrun d hd
        · rw [decodeRun_of_ascii hrun, happend]
          exact ⟨by simp, rfl⟩
  unfold decode
  simp only
  rw [decodeRun_of_ascii hparts.1, hparts.2]

/-! ## Writing and reading -/

section Encode

variable {keep : Char -> Bool}

theorem encode_cons (c : Char) (text : Text) :
    encode keep (c :: text) =
      (if keep c then [c] else (Text.Utf8.encodeChar c).flatMap escape) ++ encode keep text := rfl

theorem encode_append (first second : Text) :
    encode keep (first ++ second) = encode keep first ++ encode keep second :=
  List.flatMap_append

theorem mem_encode {text : Text} {c : Char} (h : c ∈ encode keep text) :
    (keep c ∧ c ∈ text) ∨ ∃ octet, c ∈ escape octet := by
  obtain ⟨d, hd, hc⟩ := List.mem_flatMap.1 h
  split at hc
  · next hkeep =>
      have hcd : c = d := List.mem_singleton.1 hc
      exact .inl ⟨hcd ▸ hkeep, hcd ▸ hd⟩
  · obtain ⟨octet, _, hoctet⟩ := List.mem_flatMap.1 hc
    exact .inr ⟨octet, hoctet⟩

theorem escape_ne_nil (octet : UInt8) : escape octet ≠ [] := by
  simp [escape]

theorem encode_ne_nil {text : Text} (h : text ≠ []) : encode keep text ≠ [] := by
  cases text with
  | nil => exact absurd rfl h
  | cons c rest =>
      rw [encode_cons]
      split
      · simp
      · have hne : Text.Utf8.encodeChar c ≠ [] := by
          unfold Text.Utf8.encodeChar
          simp only
          split
          · simp
          · split
            · simp
            · split <;> simp
        cases hoctets : Text.Utf8.encodeChar c with
        | nil => exact absurd hoctets hne
        | cons octet others => simp [escape_ne_nil]

theorem encode_joinWith {separator : Char} (h : keep separator) (pieces : List Text) :
    encode keep (joinWith separator pieces) = joinWith separator (pieces.map (encode keep)) := by
  induction pieces with
  | nil => rfl
  | cons first others ih =>
      cases others with
      | nil => rfl
      | cons second rest =>
          rw [Text.joinWith_cons_cons, encode_append, encode_cons, if_pos h, ih]
          rfl

def IsFaithful (keep : Char -> Bool) : Prop :=
  ∀ c, keep c -> isAscii c ∧ c ≠ '%'

theorem isAscii_of_mem_encode (h : IsFaithful keep) {text : Text} {c : Char}
    (hc : c ∈ encode keep text) : isAscii c := by
  rcases mem_encode hc with ⟨hkeep, _⟩ | ⟨octet, hoctet⟩
  · exact (h c hkeep).1
  · exact isAscii_of_mem_escape hoctet

theorem octets_escape_append (octet : UInt8) (rest : Text) :
    octets (escape octet ++ rest) = octet :: octets rest := by
  have hlt : octet.toNat < 256 := octet.toNat_lt
  have hdiv : octet.toNat / 16 < 16 := by omega
  have hmod : octet.toNat % 16 < 16 := by omega
  have hhigh := hexValue?_hexDigit hdiv
  have hlow := hexValue?_hexDigit hmod
  have hoctet : (16 * (octet.toNat / 16) + octet.toNat % 16).toUInt8 = octet := by
    rw [Nat.div_add_mod]
    exact UInt8.ofNat_toNat
  show octets ('%' :: hexDigit (octet.toNat / 16) :: hexDigit (octet.toNat % 16) :: rest) = _
  rw [octets_escaped hhigh hlow, hoctet]

theorem octets_flatMap_escape_append (list : List UInt8) (rest : Text) :
    octets (list.flatMap escape ++ rest) = list ++ octets rest := by
  induction list with
  | nil => rfl
  | cons octet others ih =>
      rw [List.flatMap_cons, List.append_assoc, octets_escape_append, ih]
      rfl

theorem octets_encode (h : IsFaithful keep) (text : Text) :
    octets (encode keep text) = Text.Utf8.encode text := by
  induction text with
  | nil => rfl
  | cons c rest ih =>
      have hutf : Text.Utf8.encode (c :: rest) =
          Text.Utf8.encodeChar c ++ Text.Utf8.encode rest := rfl
      rw [encode_cons, hutf, ← ih]
      split
      · next hkeep =>
          obtain ⟨hascii, hpercent⟩ := h c hkeep
          exact octets_cons_of_ascii hascii hpercent _
      · exact octets_flatMap_escape_append _ _

theorem decodeAfterRun_of_ascii {text : Text} (h : ∀ c ∈ text, isAscii c) :
    decodeAfterRun text = (text, []) := by
  induction text with
  | nil => rfl
  | cons c rest ih =>
      have hrest := ih fun d hd => h d (List.mem_cons_of_mem _ hd)
      have hc : isAscii c = true := h c List.mem_cons_self
      simp [decodeAfterRun, hrest, hc]

theorem decode_encode (h : IsFaithful keep) (text : Text) : decode (encode keep text) = text := by
  have hrun : decodeAfterRun (encode keep text) = (encode keep text, []) :=
    decodeAfterRun_of_ascii fun c hc => isAscii_of_mem_encode h hc
  rw [decode, hrun]
  show decodeRun (encode keep text) ++ [] = text
  rw [List.append_nil, decodeRun, octets_encode h, Text.Utf8.decodeLossy_encode]

end Encode

end Percent

end ModuleResolution
