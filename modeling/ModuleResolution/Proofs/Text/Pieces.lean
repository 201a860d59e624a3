import ModuleResolution.Text.Basic

/-!
# Pieces of texts

Cutting at the first occurrence of a separator and splitting at all of them.  Splitting undoes
joining, and a text that is put together with a separator splits into the pieces of its parts.
-/

namespace ModuleResolution

namespace Text

variable {separator : Char}

/-! ## The first occurrence -/

theorem cut_of_not_mem {text : Text} (h : separator ∉ text) : cut separator text = (text, none) := by
  induction text with
  | nil => rfl
  | cons c rest ih =>
      have hc : c ≠ separator := fun he => h (by simp [he])
      have hrest : separator ∉ rest := fun hm => h (by simp [hm])
      simp [cut, hc, ih hrest]

theorem cut_append_cons {before : Text} (h : separator ∉ before) (after : Text) :
    cut separator (before ++ separator :: after) = (before, some after) := by
  induction before with
  | nil => simp [cut]
  | cons c rest ih =>
      have hc : c ≠ separator := fun he => h (by simp [he])
      have hrest : separator ∉ rest := fun hm => h (by simp [hm])
      simp [cut, hc, ih hrest]

theorem cut_append_of_not_mem {before : Text} (h : separator ∉ before) (after : Text) :
    cut separator (before ++ after) =
      (before ++ (cut separator after).1, (cut separator after).2) := by
  induction before with
  | nil => rfl
  | cons c rest ih =>
      have hc : c ≠ separator := fun he => h (by simp [he])
      have hrest : separator ∉ rest := fun hm => h (by simp [hm])
      simp [cut, hc, ih hrest]

theorem not_mem_or_eq_append_cons (separator : Char) (text : Text) :
    separator ∉ text ∨
      ∃ before after, separator ∉ before ∧ text = before ++ separator :: after := by
  induction text with
  | nil => exact .inl (by simp)
  | cons c rest ih =>
      by_cases hc : c = separator
      · exact .inr ⟨[], rest, by simp, by simp [hc]⟩
      · rcases ih with hrest | ⟨before, after, hbefore, rfl⟩
        · exact .inl (by simp [hrest, Ne.symm hc])
        · exact .inr ⟨c :: before, after, by simp [hbefore, Ne.symm hc], rfl⟩

theorem cut_fst_isPrefix (separator : Char) (text : Text) : (cut separator text).1 <+: text := by
  rcases not_mem_or_eq_append_cons separator text with hs | ⟨before, after, hs, rfl⟩
  · exact (cut_of_not_mem hs).symm ▸ List.prefix_refl text
  · exact (cut_append_cons hs after).symm ▸ List.prefix_append before _

theorem cut_snd_isSuffix (separator : Char) (text : Text) :
    (cut separator text).2.getD [] <:+ text := by
  rcases not_mem_or_eq_append_cons separator text with hs | ⟨before, after, hs, rfl⟩
  · exact (cut_of_not_mem hs).symm ▸ List.nil_suffix
  · rw [cut_append_cons hs]
    exact (List.suffix_cons separator after).trans (List.suffix_append before _)

theorem not_mem_cut_fst (separator : Char) (text : Text) : separator ∉ (cut separator text).1 := by
  rcases not_mem_or_eq_append_cons separator text with hs | ⟨before, after, hs, rfl⟩
  · rwa [cut_of_not_mem hs]
  · rwa [cut_append_cons hs]

/-! ## All occurrences -/

theorem splitOn_of_not_mem {text : Text} (h : separator ∉ text) :
    splitOn separator text = [text] := by
  induction text with
  | nil => rfl
  | cons c rest ih =>
      have hc : c ≠ separator := fun he => h (by simp [he])
      have hrest : separator ∉ rest := fun hm => h (by simp [hm])
      simp [splitOn, hc, ih hrest]

theorem splitOn_append_cons (before after : Text) :
    splitOn separator (before ++ separator :: after) =
      splitOn separator before ++ splitOn separator after := by
  induction before with
  | nil => simp [splitOn]
  | cons c rest ih =>
      by_cases hc : c = separator
      · simp [splitOn, hc, ih]
      · cases hs : splitOn separator rest with
        | nil => exact absurd hs (splitOn_ne_nil separator rest)
        | cons piece pieces => simp [splitOn, hc, ih, hs]

theorem not_mem_of_mem_splitOn {text piece : Text} (h : piece ∈ splitOn separator text) :
    separator ∉ piece := by
  induction text generalizing piece with
  | nil => simp [splitOn] at h; simp [h]
  | cons c rest ih =>
      by_cases hc : c = separator
      · simp only [splitOn, hc, if_true, List.mem_cons] at h
        rcases h with rfl | h
        · simp
        · exact ih h
      · cases hs : splitOn separator rest with
        | nil => exact absurd hs (splitOn_ne_nil separator rest)
        | cons first pieces =>
            simp only [splitOn, hc, if_false, hs, List.mem_cons] at h
            rcases h with rfl | h
            · have hfirst : separator ∉ first := ih (by simp [hs])
              simp [hfirst, Ne.symm hc]
            · exact ih (by simp [hs, h])

theorem mem_of_mem_splitOn {text piece : Text} (h : piece ∈ splitOn separator text) {c : Char}
    (hc : c ∈ piece) : c ∈ text := by
  induction text generalizing piece with
  | nil => simp [splitOn] at h; simp [h] at hc
  | cons d rest ih =>
      by_cases hd : d = separator
      · simp only [splitOn, hd, if_true, List.mem_cons] at h
        rcases h with rfl | h
        · simp at hc
        · exact List.mem_cons_of_mem _ (ih h hc)
      · cases hs : splitOn separator rest with
        | nil => exact absurd hs (splitOn_ne_nil separator rest)
        | cons first pieces =>
            simp only [splitOn, hd, if_false, hs, List.mem_cons] at h
            rcases h with rfl | h
            · rcases List.mem_cons.mp hc with rfl | hc
              · simp
              · exact List.mem_cons_of_mem _ (ih (by simp [hs]) hc)
            · exact List.mem_cons_of_mem _ (ih (by simp [hs, h]) hc)

/-! ## Joining -/

theorem joinWith_cons_cons (piece next : Text) (pieces : List Text) :
    joinWith separator (piece :: next :: pieces) =
      piece ++ separator :: joinWith separator (next :: pieces) := rfl

theorem joinWith_append {first second : List Text} (hfirst : first ≠ []) (hsecond : second ≠ []) :
    joinWith separator (first ++ second) =
      joinWith separator first ++ separator :: joinWith separator second := by
  induction first with
  | nil => exact absurd rfl hfirst
  | cons piece pieces ih =>
      cases pieces with
      | nil =>
          cases second with
          | nil => exact absurd rfl hsecond
          | cons next others => rfl
      | cons next others =>
          have hrec := ih (by simp)
          rw [List.cons_append, List.cons_append, joinWith_cons_cons, joinWith_cons_cons,
            ← List.cons_append, hrec]
          simp

theorem joinWith_append_eq (first : List Text) {second : List Text} (hsecond : second ≠ []) :
    joinWith separator (first ++ second) =
      joinWith separator (first ++ [[]]) ++ joinWith separator second := by
  cases first with
  | nil => rfl
  | cons piece pieces =>
      rw [joinWith_append (by simp) hsecond, joinWith_append (by simp) (by simp)]
      simp [joinWith]

theorem isSuffix_joinWith (separator : Char) (before : List Text) (last : Text) :
    last <:+ joinWith separator (before ++ [last]) := by
  cases before with
  | nil => exact List.suffix_refl last
  | cons first others =>
      rw [joinWith_append (by simp) (by simp)]
      exact ⟨joinWith separator (first :: others) ++ [separator], by simp [joinWith]⟩

theorem isPrefix_joinWith (separator : Char) (piece : Text) (after : List Text) :
    piece <+: joinWith separator (piece :: after) := by
  cases after with
  | nil => exact List.prefix_refl piece
  | cons next rest => exact List.prefix_append piece _

theorem isInfix_of_mem_splitOn {text piece : Text} (h : piece ∈ splitOn separator text) :
    piece <:+: text := by
  obtain ⟨before, after, hsplit⟩ := List.append_of_mem h
  have htext : text = joinWith separator (before ++ [[]]) ++ joinWith separator (piece :: after) := by
    rw [← joinWith_append_eq before (List.cons_ne_nil piece after), ← hsplit, joinWith_splitOn]
  rw [htext]
  exact (isPrefix_joinWith separator piece after).isInfix.trans (List.suffix_append _ _).isInfix

theorem splitOn_joinWith_eq_flatMap {pieces : List Text} (hne : pieces ≠ []) :
    splitOn separator (joinWith separator pieces) = pieces.flatMap (splitOn separator) := by
  induction pieces with
  | nil => exact absurd rfl hne
  | cons piece others ih =>
      cases others with
      | nil => simp [joinWith]
      | cons next rest =>
          rw [joinWith_cons_cons, splitOn_append_cons, ih (by simp)]
          rfl

theorem flatMap_splitOn_of_not_mem {pieces : List Text} (h : ∀ piece ∈ pieces, separator ∉ piece) :
    pieces.flatMap (splitOn separator) = pieces := by
  induction pieces with
  | nil => rfl
  | cons piece others ih =>
      have hothers := ih fun p hp => h p (List.mem_cons_of_mem _ hp)
      rw [List.flatMap_cons, splitOn_of_not_mem (h piece List.mem_cons_self), hothers]
      rfl

theorem splitOn_joinWith {pieces : List Text} (hne : pieces ≠ [])
    (h : ∀ piece ∈ pieces, separator ∉ piece) :
    splitOn separator (joinWith separator pieces) = pieces := by
  rw [splitOn_joinWith_eq_flatMap hne, flatMap_splitOn_of_not_mem h]

theorem mem_joinWith {pieces : List Text} {c : Char} (h : c ∈ joinWith separator pieces) :
    c = separator ∨ ∃ piece ∈ pieces, c ∈ piece := by
  induction pieces with
  | nil => simp [joinWith] at h
  | cons piece others ih =>
      cases others with
      | nil => exact .inr ⟨piece, by simp, by simpa [joinWith] using h⟩
      | cons next rest =>
          rw [joinWith_cons_cons, List.mem_append, List.mem_cons] at h
          rcases h with h | h | h
          · exact .inr ⟨piece, by simp, h⟩
          · exact .inl h
          · rcases ih h with h | ⟨other, hother, hc⟩
            · exact .inl h
            · exact .inr ⟨other, List.mem_cons_of_mem _ hother, hc⟩

/-! ## Prefixes -/

/-- Two texts that are cut at the same character agree up to there if one is a prefix of the
other. -/
theorem append_cons_isPrefix_iff {first second x y : Text} (hfirst : separator ∉ first)
    (hsecond : separator ∉ second) :
    first ++ separator :: x <+: second ++ separator :: y ↔ first = second ∧ x <+: y := by
  induction first generalizing second with
  | nil =>
      cases second with
      | nil => simp
      | cons d rest =>
          have hd : separator ≠ d := fun he => hsecond (he ▸ List.mem_cons_self)
          simp [hd]
  | cons c others ih =>
      cases second with
      | nil =>
          have hc : c ≠ separator := fun he => hfirst (he ▸ List.mem_cons_self)
          simp [hc]
      | cons d rest =>
          have hrest : separator ∉ rest := fun he => hsecond (List.mem_cons_of_mem _ he)
          have hothers := ih (fun he => hfirst (List.mem_cons_of_mem _ he)) hrest
          rw [List.cons_append, List.cons_append, List.cons_prefix_cons, hothers, List.cons.injEq]
          exact and_assoc.symm

/-! ## Occurrences -/

theorem occursIn_iff {needle text : Text} : occursIn needle text ↔ needle <:+: text := by
  induction text with
  | nil => simp [occursIn]
  | cons c rest ih =>
      rw [occursIn, Bool.or_eq_true, ih, List.infix_cons_iff, List.isPrefixOf_iff_prefix]

theorem isPrefixOf_of_occursIn {needle text : Text} (h : occursIn needle text = false) :
    needle.isPrefixOf text = false := by
  rw [Bool.eq_false_iff] at h ⊢
  exact fun hp => h (occursIn_iff.2 (List.isPrefixOf_iff_prefix.1 hp).isInfix)

section Occurrences

variable {needle : Text} {c : Char}

theorem isPrefix_append_cons_iff (h : c ∉ needle) (before after : Text) :
    needle <+: before ++ c :: after ↔ needle <+: before := by
  induction needle generalizing before with
  | nil => simp
  | cons d others ih =>
      have hothers : c ∉ others := fun hc => h (List.mem_cons_of_mem _ hc)
      cases before with
      | nil =>
          have hd : d ≠ c := fun he => h (he ▸ List.mem_cons_self)
          simp [hd]
      | cons e rest =>
          rw [List.cons_append, List.cons_prefix_cons, List.cons_prefix_cons, ih hothers]

theorem occurrences_eq_from (hne : needle ≠ []) (text : Text) :
    occurrences needle text = occurrencesFrom needle 0 text := by
  rw [occurrences, if_neg (by simpa using hne)]

theorem occurrencesFrom_cons {text : Text} (h : needle.isPrefixOf (c :: text) = false) :
    occurrencesFrom needle 0 (c :: text) = occurrencesFrom needle 0 text := by
  rw [occurrencesFrom, h, if_neg Bool.false_ne_true]

theorem occurrences_cons (hne : needle ≠ []) {text : Text}
    (h : needle.isPrefixOf (c :: text) = false) :
    occurrences needle (c :: text) = occurrences needle text := by
  rw [occurrences_eq_from hne, occurrences_eq_from hne, occurrencesFrom_cons h]

theorem occurrencesFrom_append_cons (hne : needle ≠ []) (h : c ∉ needle) (after : Text)
    {covered : Nat} {before : Text} (hcovered : covered ≤ before.length) :
    occurrencesFrom needle covered (before ++ c :: after) =
      occurrencesFrom needle covered before + occurrencesFrom needle 0 after := by
  induction before generalizing covered with
  | nil =>
      have hstart : needle.isPrefixOf (c :: after) = false := by
        rw [Bool.eq_false_iff, ne_eq, List.isPrefixOf_iff_prefix]
        exact fun hp => hne (List.prefix_nil.1 ((isPrefix_append_cons_iff h [] after).1 hp))
      obtain rfl : covered = 0 := Nat.le_zero.1 hcovered
      rw [List.nil_append, occurrencesFrom_cons hstart, occurrencesFrom, Nat.zero_add]
  | cons d rest ih =>
      cases covered with
      | succ covered => exact ih (Nat.le_of_succ_le_succ hcovered)
      | zero =>
          have hsame : needle.isPrefixOf (d :: (rest ++ c :: after)) =
              needle.isPrefixOf (d :: rest) := by
            rw [Bool.eq_iff_iff, List.isPrefixOf_iff_prefix, List.isPrefixOf_iff_prefix,
              ← List.cons_append, isPrefix_append_cons_iff h]
          rw [List.cons_append, occurrencesFrom, occurrencesFrom, hsame]
          split
          · next hp =>
              have hlength := (List.isPrefixOf_iff_prefix.1 hp).length_le
              rw [List.length_cons] at hlength
              rw [ih (by omega), Nat.add_assoc]
          · exact ih (Nat.zero_le _)

theorem occurrences_append_cons (hne : needle ≠ []) (h : c ∉ needle) (before after : Text) :
    occurrences needle (before ++ c :: after) =
      occurrences needle before + occurrences needle after := by
  rw [occurrences_eq_from hne, occurrences_eq_from hne, occurrences_eq_from hne,
    occurrencesFrom_append_cons hne h after (Nat.zero_le _)]

theorem occurrences_eq_zero_iff (hne : needle ≠ []) (text : Text) :
    occurrences needle text = 0 ↔ occursIn needle text = false := by
  rw [occurrences_eq_from hne]
  induction text with
  | nil => simp [occurrencesFrom, occursIn, hne]
  | cons d rest ih =>
      rw [occursIn, Bool.or_eq_false_iff]
      cases hp : needle.isPrefixOf (d :: rest) with
      | false => rw [occurrencesFrom_cons hp, ih, and_iff_right rfl]
      | true =>
          rw [occurrencesFrom, hp, if_pos rfl]
          exact iff_of_false (by omega) fun h => by cases h.1

theorem occursIn_append_cons (hne : needle ≠ []) (h : c ∉ needle) (before after : Text) :
    occursIn needle (before ++ c :: after) = (occursIn needle before || occursIn needle after) := by
  have hnone : occursIn needle (before ++ c :: after) = false ↔
      occursIn needle before = false ∧ occursIn needle after = false := by
    rw [← occurrences_eq_zero_iff hne, ← occurrences_eq_zero_iff hne,
      ← occurrences_eq_zero_iff hne, occurrences_append_cons hne h, Nat.add_eq_zero_iff]
  rw [← Bool.or_eq_false_iff] at hnone
  exact Bool.eq_iff_iff.2 (by rw [← Bool.not_eq_false, hnone, Bool.not_eq_false])

end Occurrences

theorem ne_nil_of_splitOn_eq {text piece : Text} {before after : List Text}
    (h : occursIn [separator, separator] text = false)
    (hsplit : splitOn separator text = before ++ piece :: after) (hbefore : before ≠ [])
    (hafter : after ≠ []) : piece ≠ [] := by
  rintro rfl
  have hjoin : joinWith separator ([] :: after) = separator :: joinWith separator after := by
    cases after with
    | nil => exact absurd rfl hafter
    | cons next rest => rfl
  have htext : text =
      joinWith separator before ++ [separator, separator] ++ joinWith separator after := by
    rw [← joinWith_splitOn separator text, hsplit, joinWith_append hbefore (by simp), hjoin]
    simp
  have hinfix : [separator, separator] <:+: text := by
    rw [htext]
    exact List.infix_append _ _ _
  rw [occursIn_iff.2 hinfix] at h
  cases h

/-! ## Lower case -/

theorem toNat_toLower (c : Char) :
    c.toLower.toNat = if 0x41 ≤ c.toNat ∧ c.toNat ≤ 0x5a then c.toNat + 0x20 else c.toNat := by
  unfold Char.toLower
  split
  · next hc =>
      have hlow : 0x41 ≤ c.toNat := hc.1
      have hhigh : c.toNat ≤ 0x5a := hc.2
      have hshift : ('a'.val - 'A'.val).toNat = 0x20 := by decide
      have hval : c.val.toNat = c.toNat := rfl
      rw [if_pos ⟨hlow, hhigh⟩]
      show (c.val + ('a'.val - 'A'.val)).toNat = _
      rw [UInt32.toNat_add]
      omega
  · next hc =>
      rw [if_neg]
      exact fun h => hc ⟨h.1, h.2⟩

theorem isUpper_iff (c : Char) : c.isUpper ↔ 0x41 ≤ c.toNat ∧ c.toNat ≤ 0x5a :=
  decide_eq_true_iff

theorem isAlpha_iff (c : Char) :
    c.isAlpha ↔ 0x41 ≤ c.toNat ∧ c.toNat ≤ 0x5a ∨ 0x61 ≤ c.toNat ∧ c.toNat ≤ 0x7a := by
  have hlower : c.isLower ↔ 0x61 ≤ c.toNat ∧ c.toNat ≤ 0x7a := by
    show (decide (c.val ≥ 'a'.val) && decide (c.val ≤ 'z'.val)) = true ↔ _
    rw [Bool.and_eq_true, decide_eq_true_iff, decide_eq_true_iff]
    exact Iff.rfl
  show (c.isUpper || c.isLower) = true ↔ _
  rw [Bool.or_eq_true, isUpper_iff, hlower]

theorem toLower_of_not_isUpper {c : Char} (h : ¬c.isUpper) : c.toLower = c := by
  rw [← Char.toNat_inj, toNat_toLower, if_neg (h ∘ (isUpper_iff c).2)]

theorem toLower_eq_iff {c d : Char} (hd : d.isAlpha = false) : c.toLower = d ↔ c = d := by
  rw [Bool.eq_false_iff, ne_eq, isAlpha_iff] at hd
  rw [← Char.toNat_inj, ← Char.toNat_inj, toNat_toLower]
  split <;> omega

theorem lowerAscii_cons (c : Char) (rest : Text) :
    lowerAscii (c :: rest) = c.toLower :: lowerAscii rest := rfl

theorem lowerAscii_append (first second : Text) :
    lowerAscii (first ++ second) = lowerAscii first ++ lowerAscii second :=
  List.map_append

theorem splitOn_lowerAscii (hseparator : separator.isAlpha = false) (text : Text) :
    splitOn separator (lowerAscii text) = (splitOn separator text).map lowerAscii := by
  induction text with
  | nil => rfl
  | cons c rest ih =>
      rw [lowerAscii_cons]
      unfold splitOn
      rw [ih]
      by_cases hc : c = separator
      · rw [if_pos ((toLower_eq_iff hseparator).2 hc), if_pos hc]
        rfl
      · rw [if_neg fun h => hc ((toLower_eq_iff hseparator).1 h), if_neg hc]
        cases splitOn separator rest with
        | nil => rfl
        | cons first others => rfl

/-! ## Runs -/

theorem induction_on_runs {α : Type} (p : α -> Bool) {motive : List α -> Prop}
    (run : ∀ run, (∀ a ∈ run, p a) -> motive run)
    (append : ∀ run a rest, (∀ b ∈ run, p b) -> p a = false -> motive run -> motive rest ->
      motive (run ++ a :: rest)) (list : List α) : motive list := by
  have hcollected : ∀ before, (∀ a ∈ before, p a) -> motive (before ++ list) := by
    induction list with
    | nil =>
        intro before hbefore
        rw [List.append_nil]
        exact run before hbefore
    | cons a rest ih =>
        intro before hbefore
        cases ha : p a with
        | true =>
            have hmore := ih (before ++ [a]) fun b hb => by
              rcases List.mem_append.1 hb with hb | hb
              · exact hbefore b hb
              · exact List.mem_singleton.1 hb ▸ ha
            rwa [List.append_assoc] at hmore
        | false => exact append before a rest hbefore ha (run before hbefore) (ih [] (by simp))
  exact hcollected [] (by simp)

/-! ## Ends -/

theorem dropEndWhile_append {p : Char -> Bool} {ending : Text} (h : ∀ c ∈ ending, p c)
    (text : Text) : dropEndWhile p (text ++ ending) = dropEndWhile p text := by
  rw [dropEndWhile, List.reverse_append,
    List.dropWhile_append_of_pos fun c hc => h c (List.mem_reverse.1 hc), dropEndWhile]

theorem dropEndWhile_concat {p : Char -> Bool} {c : Char} (h : p c = false) (text : Text) :
    dropEndWhile p (text ++ [c]) = text ++ [c] := by
  simp [dropEndWhile, h]

end Text

end ModuleResolution
