import ModuleResolution.Proofs.Percent

/-!
# Reading run by run

A text is read one run of ASCII characters after the other, and a run one escape or character after
the other.  Lowering the letters of a text before it is read leaves those as they are that escapes
stand for, and nothing else.
-/

namespace ModuleResolution

namespace Percent

open Text (lowerAscii lowerAscii_cons lowerAscii_append)

/-! ## Runs -/

theorem decode_of_ascii {run : Text} (h : ∀ c ∈ run, isAscii c) : decode run = decodeRun run := by
  rw [decode, decodeAfterRun_of_ascii h]
  exact List.append_nil _

theorem decode_run_append {run : Text} (h : ∀ c ∈ run, isAscii c) {c : Char}
    (hc : isAscii c = false) (rest : Text) :
    decode (run ++ c :: rest) = decode run ++ c :: decode rest := by
  have hafter : decodeAfterRun (run ++ c :: rest) = (run, c :: decode rest) := by
    induction run with
    | nil => simp [decodeAfterRun, hc, decode]
    | cons d others ih =>
        have hd : isAscii d = true := h d List.mem_cons_self
        have hothers := ih fun e he => h e (List.mem_cons_of_mem _ he)
        simp [decodeAfterRun, hd, hothers]
  rw [decode_of_ascii h, decode, hafter]

/-! ## Lower case -/

theorem hexValue?_toLower (c : Char) : hexValue? c.toLower = hexValue? c := by
  unfold hexValue?
  simp only [Text.toNat_toLower]
  grind

theorem IsLiteral.lowerAscii {c : Char} {rest : Text} (h : IsLiteral c rest) :
    IsLiteral c.toLower (lowerAscii rest) := by
  intro d e others hrest hc
  rw [Text.toLower_eq_iff (by decide)] at hc
  match rest, hrest with
  | x :: y :: more, hrest =>
      cases hrest
      rw [hexValue?_toLower, hexValue?_toLower]
      exact h x y more rfl hc

theorem isAscii_toLower (c : Char) : isAscii c.toLower = isAscii c := by
  unfold isAscii
  rw [Text.toNat_toLower]
  grind

theorem isAscii_of_mem_lowerAscii {run : Text} (h : ∀ c ∈ run, isAscii c) {c : Char}
    (hc : c ∈ lowerAscii run) : isAscii c := by
  obtain ⟨d, hd, rfl⟩ := List.mem_map.1 hc
  rw [isAscii_toLower]
  exact h d hd

theorem toLower_of_not_isAscii {c : Char} (h : isAscii c = false) : c.toLower = c :=
  Text.Utf8.toLower_of_isWide (.inr (Nat.le_of_not_lt (of_decide_eq_false h)))

theorem lowerOctet_toLower (c : Char) :
    Text.Utf8.lowerOctet c.toLower.toNat.toUInt8 = Text.Utf8.lowerOctet c.toNat.toUInt8 := by
  cases h : isAscii c with
  | false => rw [toLower_of_not_isAscii h]
  | true =>
      have hall : ∀ i : Fin 0x80, Text.Utf8.lowerOctet (Char.ofNat i.val).toLower.toNat.toUInt8 =
          Text.Utf8.lowerOctet i.val.toUInt8 := by decide
      have hc := hall ⟨c.toNat, of_decide_eq_true h⟩
      rwa [Char.ofNat_toNat] at hc

theorem map_lowerOctet_octets (text : Text) :
    (octets (lowerAscii text)).map Text.Utf8.lowerOctet =
      (octets text).map Text.Utf8.lowerOctet := by
  induction text using induction_on_escapes with
  | nil => rfl
  | escaped d e high low rest hd he ih =>
      have hlower : lowerAscii ('%' :: d :: e :: rest) =
          '%' :: d.toLower :: e.toLower :: lowerAscii rest := rfl
      rw [hlower, octets_escaped ((hexValue?_toLower d).trans hd) ((hexValue?_toLower e).trans he),
        octets_escaped hd he, List.map_cons, List.map_cons, ih]
  | literal c rest h ih =>
      rw [lowerAscii_cons, octets_cons h.lowerAscii, octets_cons h, List.map_cons, List.map_cons,
        lowerOctet_toLower, ih]

/-- A text that is lowered before it is read differs from one that is lowered afterwards in letters
that escapes stand for. -/
theorem lowerAscii_decode (text : Text) :
    lowerAscii (decode (lowerAscii text)) = lowerAscii (decode text) := by
  induction text using Text.induction_on_runs isAscii with
  | run run hrun =>
      rw [decode_of_ascii fun _ hc => isAscii_of_mem_lowerAscii hrun hc, decode_of_ascii hrun,
        decodeRun, decodeRun, ← Text.Utf8.decodeLossy_map_lowerOctet,
        ← Text.Utf8.decodeLossy_map_lowerOctet, map_lowerOctet_octets]
  | append run c rest hrun hc ihrun ihrest =>
      rw [lowerAscii_append, lowerAscii_cons, toLower_of_not_isAscii hc,
        decode_run_append (fun _ hd => isAscii_of_mem_lowerAscii hrun hd) hc,
        decode_run_append hrun hc, lowerAscii_append, lowerAscii_append, lowerAscii_cons,
        lowerAscii_cons, ihrun, ihrest]

end Percent

end ModuleResolution
