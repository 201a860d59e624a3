import ModuleResolution.Proofs.Percent.Runs
import ModuleResolution.Proofs.Url.File
import ModuleResolution.Resolver

/-!
# Escaped separators

Reading a text adds a separator for each of its escapes, in digits of either case, and no other.  So
the search for escaped separators, which works on the lower case of a URL, finds none exactly in the
texts that have as many separators after reading as before.
-/

namespace ModuleResolution

open Text (lowerAscii lowerAscii_cons lowerAscii_append occursIn occurrences)

namespace Percent

/-! ## One escape -/

theorem toLower_hexDigit_inj {m n : Nat} (hm : m < 16) (hn : n < 16) :
    (hexDigit m).toLower = (hexDigit n).toLower ↔ m = n := by
  have hall : ∀ i j : Fin 16, (hexDigit i).toLower = (hexDigit j).toLower ↔ i = j := by decide
  rw [hall ⟨m, hm⟩ ⟨n, hn⟩, Fin.mk.injEq]

theorem toLower_hexDigit_ne_percent {n : Nat} (h : n < 16) : (hexDigit n).toLower ≠ '%' := by
  have hall : ∀ i : Fin 16, (hexDigit i).toLower ≠ '%' := by decide
  exact hall ⟨n, h⟩

theorem lowerAscii_escape_append (octet : UInt8) (rest : Text) :
    lowerAscii (escape octet ++ rest) = '%' :: (hexDigit (octet.toNat / 16)).toLower ::
      (hexDigit (octet.toNat % 16)).toLower :: lowerAscii rest := rfl

theorem lowerAscii_escape (octet : UInt8) :
    lowerAscii (escape octet) = ['%', (hexDigit (octet.toNat / 16)).toLower,
      (hexDigit (octet.toNat % 16)).toLower] := rfl

theorem isPrefixOf_escape_append (octet other : UInt8) (rest : Text) :
    (lowerAscii (escape octet)).isPrefixOf (lowerAscii (escape other ++ rest)) ↔
      octet = other := by
  have hlt : octet.toNat < 256 := octet.toNat_lt
  have hlt' : other.toNat < 256 := other.toNat_lt
  rw [lowerAscii_escape, lowerAscii_escape_append, List.isPrefixOf_iff_prefix,
    List.cons_prefix_cons, List.cons_prefix_cons, List.cons_prefix_cons,
    toLower_hexDigit_inj (by omega) (by omega), toLower_hexDigit_inj (by omega) (by omega),
    ← UInt8.toNat_inj]
  constructor
  · rintro ⟨-, hhigh, hlow, -⟩
    omega
  · intro h
    rw [h]
    exact ⟨rfl, rfl, rfl, List.nil_prefix⟩

/-! ## A read text -/

theorem toLower_of_hexValue? {d : Char} {n : Nat} (h : hexValue? d = some n) :
    n < 16 ∧ d.toLower = (hexDigit n).toLower := by
  have hlt : d.toNat < 0x80 := by
    unfold hexValue? at h
    grind
  have hall : ∀ i : Fin 0x80, ∀ value ∈ hexValue? (Char.ofNat i.val),
      value < 16 ∧ (Char.ofNat i.val).toLower = (hexDigit value).toLower := by decide
  have hd := hall ⟨d.toNat, hlt⟩ n
  rw [Char.ofNat_toNat] at hd
  exact hd h

theorem lowerAscii_escaped {d e : Char} {high low : Nat} (hd : hexValue? d = some high)
    (he : hexValue? e = some low) (rest : Text) :
    lowerAscii ('%' :: d :: e :: rest) = lowerAscii (escape (16 * high + low).toUInt8 ++ rest) := by
  obtain ⟨hhigh, hd⟩ := toLower_of_hexValue? hd
  obtain ⟨hlow, he⟩ := toLower_of_hexValue? he
  have hoctet : (16 * high + low).toUInt8.toNat = 16 * high + low :=
    Text.Utf8.toNat_toUInt8 (by omega)
  have hdiv : (16 * high + low) / 16 = high := by omega
  have hmod : (16 * high + low) % 16 = low := by omega
  rw [lowerAscii_escape_append, hoctet, hdiv, hmod, ← hd, ← he]
  rfl

variable (octet : UInt8)

theorem lowerAscii_escape_ne_nil : lowerAscii (escape octet) ≠ [] := by
  simp [lowerAscii_escape]

theorem occurrences_cons_of_ne {c : Char} (h : c ≠ '%') (text : Text) :
    occurrences (lowerAscii (escape octet)) (c :: text) =
      occurrences (lowerAscii (escape octet)) text := by
  refine Text.occurrences_cons (lowerAscii_escape_ne_nil octet) ?_
  rw [lowerAscii_escape, List.isPrefixOf, beq_false_of_ne h.symm, Bool.false_and]

theorem occurrences_escape_append (other : UInt8) (rest : Text) :
    occurrences (lowerAscii (escape octet)) (lowerAscii (escape other ++ rest)) =
      occurrences (lowerAscii (escape octet)) (lowerAscii rest) +
        if other = octet then 1 else 0 := by
  have hlt : other.toNat < 256 := other.toNat_lt
  have hhigh := toLower_hexDigit_ne_percent (Nat.div_lt_of_lt_mul hlt : other.toNat / 16 < 16)
  have hlow := toLower_hexDigit_ne_percent (Nat.mod_lt other.toNat (by decide : 16 > 0))
  have hne := lowerAscii_escape_ne_nil octet
  have hstarts := isPrefixOf_escape_append octet other rest
  by_cases hsame : other = octet
  · rw [if_pos hsame, Text.occurrences_eq_from hne, Text.occurrences_eq_from hne]
    rw [lowerAscii_escape_append] at hstarts ⊢
    rw [Text.occurrencesFrom, hstarts.2 hsame.symm, if_pos rfl, Nat.add_comm]
    rfl
  · rw [lowerAscii_escape_append] at hstarts ⊢
    have hnot := Bool.eq_false_iff.2 fun h => hsame (hstarts.1 h).symm
    rw [if_neg hsame, Text.occurrences_cons hne hnot, occurrences_cons_of_ne octet hhigh,
      occurrences_cons_of_ne octet hlow, Nat.add_zero]

theorem occurrences_literal {c : Char} {rest : Text} (h : IsLiteral c rest) :
    occurrences (lowerAscii (escape octet)) (lowerAscii (c :: rest)) =
      occurrences (lowerAscii (escape octet)) (lowerAscii rest) := by
  have hlt : octet.toNat < 256 := octet.toNat_lt
  have hdigit : ∀ {n : Nat} {x : Char}, n < 16 -> (hexDigit n).toLower = x.toLower ->
      hexValue? x = some n := fun hn hx => by
    rw [← hexValue?_toLower, ← hx, hexValue?_toLower, hexValue?_hexDigit hn]
  rw [lowerAscii_cons]
  refine Text.occurrences_cons (lowerAscii_escape_ne_nil octet) ?_
  rw [Bool.eq_false_iff, ne_eq, List.isPrefixOf_iff_prefix, lowerAscii_escape,
    List.cons_prefix_cons]
  rintro ⟨hc, hstarts⟩
  match rest, hstarts with
  | [], hstarts => simp [lowerAscii] at hstarts
  | [x], hstarts => simp [lowerAscii] at hstarts
  | x :: y :: more, hstarts =>
      rw [lowerAscii_cons, lowerAscii_cons, List.cons_prefix_cons, List.cons_prefix_cons]
        at hstarts
      obtain ⟨hx, hy, -⟩ := hstarts
      have hpercent := (Text.toLower_eq_iff (by decide)).1 hc.symm
      rcases h x y more rfl hpercent with hnone | hnone
      · rw [hdigit (by omega) hx] at hnone
        cases hnone
      · rw [hdigit (by omega) hy] at hnone
        cases hnone

theorem count_octets {c : Char} (hc : IsSeparator c) {run : Text} (hrun : ∀ d ∈ run, isAscii d) :
    (octets run).count c.toNat.toUInt8 =
      run.count c + occurrences (lowerAscii (escape c.toNat.toUInt8)) (lowerAscii run) := by
  induction run using induction_on_escapes with
  | nil => rfl
  | escaped d e high low rest hd he ih =>
      have hrest := ih fun f hf => hrun f (by simp [hf])
      have hpercent : '%' ≠ c := hc.2.1.symm
      have hdc : d ≠ c := hc.ne_of_hexValue? hd
      have hec : e ≠ c := hc.ne_of_hexValue? he
      rw [octets_escaped hd he, lowerAscii_escaped hd he, occurrences_escape_append,
        List.count_cons, hrest, List.count_cons_of_ne hpercent, List.count_cons_of_ne hdc,
        List.count_cons_of_ne hec, Nat.add_assoc]
      simp only [beq_iff_eq]
  | literal d rest h ih =>
      have hrest := ih fun f hf => hrun f (List.mem_cons_of_mem _ hf)
      have hd : d.toNat < 0x80 := of_decide_eq_true (hrun d List.mem_cons_self)
      have hascii : c.toNat < 0x80 := of_decide_eq_true hc.1
      have hsame : d.toNat.toUInt8 = c.toNat.toUInt8 ↔ d = c := by
        rw [← UInt8.toNat_inj, Text.Utf8.toNat_toUInt8 (by omega),
          Text.Utf8.toNat_toUInt8 (by omega), Char.toNat_inj]
      rw [octets_cons h, occurrences_literal _ h, List.count_cons, List.count_cons, hrest]
      simp only [beq_iff_eq, hsame]
      omega

theorem count_decode {c : Char} (hc : IsSeparator c) (hpos : 0 < c.toNat) (text : Text) :
    (decode text).count c =
      text.count c + occurrences (lowerAscii (escape c.toNat.toUInt8)) (lowerAscii text) := by
  induction text using Text.induction_on_runs isAscii with
  | run run hrun =>
      rw [decode_of_ascii hrun, decodeRun,
        Text.Utf8.count_decodeLossy hpos (of_decide_eq_true hc.1), count_octets hc hrun]
  | append run d rest hrun hd ihrun ihrest =>
      have hdc : d ≠ c := by
        rintro rfl
        rw [hc.1] at hd
        cases hd
      have hneedle : d ∉ lowerAscii (escape c.toNat.toUInt8) := by
        intro hmem
        rw [isAscii_of_mem_lowerAscii (fun _ => isAscii_of_mem_escape) hmem] at hd
        cases hd
      rw [decode_run_append hrun hd, lowerAscii_append, lowerAscii_cons, toLower_of_not_isAscii hd,
        Text.occurrences_append_cons (lowerAscii_escape_ne_nil _) hneedle, List.count_append,
        List.count_append, List.count_cons_of_ne hdc, List.count_cons_of_ne hdc, ihrun, ihrest]
      omega

/-! ## A written text -/

theorem not_mem_escape {c : Char} (hc : IsSeparator c) (octet : UInt8) : c ∉ escape octet := by
  have hlt : octet.toNat < 256 := octet.toNat_lt
  have hdigit : ∀ {n : Nat}, n < 16 -> c ≠ hexDigit n := fun hn =>
    (hc.ne_of_hexValue? (hexValue?_hexDigit hn)).symm
  simp only [escape, List.mem_cons, List.not_mem_nil, or_false, not_or]
  exact ⟨hc.2.1, hdigit (by omega), hdigit (by omega)⟩

theorem count_encode {c : Char} (hc : IsSeparator c) (keep : Char -> Bool) (text : Text) :
    (encode keep text).count c = if keep c then text.count c else 0 := by
  induction text with
  | nil => split <;> rfl
  | cons d rest ih =>
      have hescape : c ∉ (Text.Utf8.encodeChar d).flatMap escape := fun hmem => by
        obtain ⟨octet, -, hoctet⟩ := List.mem_flatMap.1 hmem
        exact not_mem_escape hc octet hoctet
      rw [encode_cons, List.count_append, ih, List.count_cons]
      by_cases hd : d = c
      · subst hd
        cases hkeep : keep d with
        | true => simp [Nat.add_comm]
        | false => simpa using List.count_eq_zero.2 hescape
      · cases keep d with
        | true => simp [hd]
        | false => simpa [hd] using List.count_eq_zero.2 hescape

end Percent

/-! ## Paths of URLs -/

namespace Url

theorem isSuffix_of_scheme? {text scheme rest : Text} (h : scheme? text = some (scheme, rest)) :
    rest <:+ text := by
  unfold scheme? at h
  split at h
  · next before after hcut =>
      split at h
      · cases h
        have hsuffix := Text.cut_snd_isSuffix ':' text
        rwa [hcut] at hsuffix
      · cases h
  · cases h

theorem cutAuthority_isSuffix (text : Text) : (cutAuthority text).2 <:+ text := by
  unfold cutAuthority
  split
  · next rest =>
      exact (List.dropWhile_suffix _).trans (List.suffix_append ['/', '/'] rest)
  · exact List.suffix_refl _

theorem cutAuthority_isInfix (text : Text) : (cutAuthority text).1 <:+: text := by
  unfold cutAuthority
  split
  · next rest =>
      exact (List.takeWhile_prefix _).isInfix.trans
        (List.suffix_append ['/', '/'] rest).isInfix
  · exact List.nil_infix

theorem exists_rest_of_splitFrom {scheme text : Text} {parts : Parts}
    (h : splitFrom scheme text = .ok parts) :
    ∃ rest, rest <:+ clean text ∧ Host.fault? (cutAuthority rest).1 = none ∧
      parts.authority = (cutAuthority rest).1 ∧
      parts.path = (Text.cut '?' (Text.cut '#' (cutAuthority rest).2).1).1 ∧
      parts.query = (Text.cut '?' (Text.cut '#' (cutAuthority rest).2).1).2.getD [] ∧
      parts.fragment = (Text.cut '#' (cutAuthority rest).2).2.getD [] := by
  unfold splitFrom at h
  cases hscheme : scheme? (clean text) with
  | none =>
      simp only [hscheme] at h
      split at h
      · cases h
      · next hfault =>
          cases h
          exact ⟨_, List.suffix_refl _, hfault, rfl, rfl, rfl, rfl⟩
  | some found =>
      simp only [hscheme] at h
      split at h
      · cases h
      · next hfault =>
          cases h
          exact ⟨found.2, isSuffix_of_scheme? hscheme, hfault, rfl, rfl, rfl, rfl⟩

structure Parts.IsCutFrom (parts : Parts) (text : Text) : Prop where
  authority : parts.authority <:+: text
  path : parts.path <:+: text
  query : parts.query <:+: text
  fragment : parts.fragment <:+: text

theorem Parts.IsCutFrom.trans {parts : Parts} {part text : Text} (h : parts.IsCutFrom part)
    (hpart : part <:+: text) : parts.IsCutFrom text :=
  ⟨h.authority.trans hpart, h.path.trans hpart, h.query.trans hpart, h.fragment.trans hpart⟩

theorem isCutFrom_of_splitFrom {scheme text : Text} {parts : Parts}
    (h : splitFrom scheme text = .ok parts) : parts.IsCutFrom (clean text) := by
  obtain ⟨rest, hrest, -, hauthority, hpath, hquery, hfragment⟩ := exists_rest_of_splitFrom h
  have hafter := (cutAuthority_isSuffix rest).isInfix.trans hrest.isInfix
  have hbefore := (Text.cut_fst_isPrefix '#' (cutAuthority rest).2).isInfix.trans hafter
  constructor
  · exact hauthority ▸ (cutAuthority_isInfix rest).trans hrest.isInfix
  · exact hpath ▸ (Text.cut_fst_isPrefix '?' _).isInfix.trans hbefore
  · exact hquery ▸ (Text.cut_snd_isSuffix '?' _).isInfix.trans hbefore
  · exact hfragment ▸ (Text.cut_snd_isSuffix '#' _).isInfix.trans hafter

end Url

namespace Resolver

/-! ## The search -/

theorem count_slash_decode (text : Text) :
    (Percent.decode text).count '/' =
      text.count '/' + occurrences "%2f".toList (lowerAscii text) :=
  Percent.count_decode Percent.isSeparator_slash (by decide) text

theorem count_backslash_decode (text : Text) :
    (Percent.decode text).count '\\' =
      text.count '\\' + occurrences "%5c".toList (lowerAscii text) :=
  Percent.count_decode Percent.isSeparator_backslash (by decide) text

theorem hasEncodedSeparator_eq_false_iff (text : Text) :
    hasEncodedSeparator text = false ↔
      (Percent.decode text).count '/' = text.count '/' ∧
        (Percent.decode text).count '\\' = text.count '\\' := by
  have hslash := Text.occurrences_eq_zero_iff (by decide : "%2f".toList ≠ []) (lowerAscii text)
  have hback := Text.occurrences_eq_zero_iff (by decide : "%5c".toList ≠ []) (lowerAscii text)
  rw [count_slash_decode, count_backslash_decode, Nat.add_eq_left, Nat.add_eq_left, hslash, hback]
  exact Bool.or_eq_false_iff

theorem hasEncodedSeparator_of_isInfix {part url : Text} (h : part <:+: url)
    (hurl : hasEncodedSeparator url = false) : hasEncodedSeparator part = false := by
  rw [Bool.eq_false_iff] at hurl ⊢
  refine fun hpart => hurl ?_
  simp only [hasEncodedSeparator, Bool.or_eq_true, Text.occursIn_iff] at hpart ⊢
  exact hpart.imp (fun hi => hi.trans (h.map _)) fun hi => hi.trans (h.map _)

/-! ## URLs of paths -/

/-- The URL of a path has an escaped separator exactly if the path has a backslash: the slash is
kept, and an escape that the path spells out is escaped itself. -/
theorem hasEncodedSeparator_file_iff (path : Text) :
    hasEncodedSeparator ("file://".toList ++ Percent.encode Url.File.isKept path) ↔
      '\\' ∈ path := by
  have hurl : "file://".toList ++ Percent.encode Url.File.isKept path =
      Percent.encode Url.File.isKept ("file://".toList ++ path) := by
    rw [Percent.encode_append]
    rfl
  have hmem : '\\' ∈ "file://".toList ++ path ↔ '\\' ∈ path :=
    List.mem_append.trans (or_iff_right (by decide))
  have hsearch := hasEncodedSeparator_eq_false_iff
    (Percent.encode Url.File.isKept ("file://".toList ++ path))
  rw [Url.File.decode_encode, Percent.count_encode Percent.isSeparator_slash,
    Percent.count_encode Percent.isSeparator_backslash, if_pos (by decide), if_neg (by decide),
    and_iff_right rfl, List.count_eq_zero, hmem] at hsearch
  rw [hurl, ← Bool.not_eq_false, hsearch, Decidable.not_not]

end Resolver

end ModuleResolution
