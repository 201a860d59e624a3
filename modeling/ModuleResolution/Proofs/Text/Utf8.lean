import ModuleResolution.Proofs.Text.Pieces
import ModuleResolution.Text.Utf8

/-!
# Characters and octets

Reading the octets of a text gives the text back, and an octet of ASCII is a character of its own
wherever it stands, so readings on both sides of it do not touch.  The other octets make no
character of ASCII.
-/

namespace ModuleResolution

namespace Text

namespace Utf8

theorem toNat_toUInt8 {n : Nat} (h : n < 256) : n.toUInt8.toNat = n := by
  simp [Nat.mod_eq_of_lt h]

theorem toNat_lt (c : Char) : c.toNat < 0x110000 := by
  have h := c.valid
  unfold UInt32.isValidChar Nat.isValidChar at h
  show c.val.toNat < 0x110000
  omega

theorem not_surrogate (c : Char) : c.toNat < 0xd800 ∨ 0xe000 ≤ c.toNat := by
  have h := c.valid
  unfold UInt32.isValidChar Nat.isValidChar at h
  show c.val.toNat < 0xd800 ∨ 0xe000 ≤ c.val.toNat
  omega

/-! ## One octet -/

theorem parts_whole {octet : UInt8} (h : octet.toNat < 0x80) (rest : List UInt8) :
    parts none (octet :: rest) = some (Char.ofNat octet.toNat) :: parts none rest := by
  simp [parts, lead, h]

theorem parts_begun {octet : UInt8} {state : Begun} (h : lead octet = .begun state)
    (rest : List UInt8) : parts none (octet :: rest) = parts (some state) rest := by
  simp [parts, h]

theorem parts_last {state : Begun} {octet : UInt8} (hmore : state.more = 1)
    (hlow : state.low ≤ octet.toNat) (hhigh : octet.toNat ≤ state.high) (rest : List UInt8) :
    parts (some state) (octet :: rest) =
      some (Char.ofNat (state.bits * 0x40 + (octet.toNat - 0x80))) :: parts none rest := by
  simp [parts, hmore, hlow, hhigh]

theorem parts_next {state : Begun} {octet : UInt8} (hmore : state.more ≠ 1)
    (hlow : state.low ≤ octet.toNat) (hhigh : octet.toNat ≤ state.high) (rest : List UInt8) :
    parts (some state) (octet :: rest) =
      parts (some ⟨state.bits * 0x40 + (octet.toNat - 0x80), state.more - 1, 0x80, 0xbf⟩) rest := by
  simp [parts, hmore, hlow, hhigh]

/-! ## One character -/

theorem lead_two {n : Nat} (h : 0x80 ≤ n) (h' : n < 0x800) :
    lead (0xc0 + n / 0x40).toUInt8 = .begun ⟨n / 0x40, 1, 0x80, 0xbf⟩ := by
  have hoctet : (0xc0 + n / 0x40).toUInt8.toNat = 0xc0 + n / 0x40 := toNat_toUInt8 (by omega)
  have h1 : ¬0xc0 + n / 0x40 < 0x80 := by omega
  have h2 : ¬0xc0 + n / 0x40 < 0xc2 := by omega
  have h3 : 0xc0 + n / 0x40 < 0xe0 := by omega
  simp only [lead, hoctet, h1, h2, h3, if_false, if_true, Nat.add_sub_cancel_left]

theorem lead_three {n : Nat} (h : 0x800 ≤ n) (h' : n < 0x10000) (hs : n < 0xd800 ∨ 0xe000 ≤ n) :
    ∃ low high, lead (0xe0 + n / 0x1000).toUInt8 = .begun ⟨n / 0x1000, 2, low, high⟩ ∧
      low ≤ 0x80 + n / 0x40 % 0x40 ∧ 0x80 + n / 0x40 % 0x40 ≤ high := by
  have hoctet : (0xe0 + n / 0x1000).toUInt8.toNat = 0xe0 + n / 0x1000 := toNat_toUInt8 (by omega)
  have h1 : ¬0xe0 + n / 0x1000 < 0x80 := by omega
  have h2 : ¬0xe0 + n / 0x1000 < 0xc2 := by omega
  have h3 : ¬0xe0 + n / 0x1000 < 0xe0 := by omega
  simp only [lead, hoctet, h1, h2, h3, if_false]
  split
  · refine ⟨0xa0, 0xbf, ?_, by omega, by omega⟩
    have hn : n / 0x1000 = 0 := by omega
    rw [hn]
  · split
    · refine ⟨0x80, 0x9f, ?_, by omega, by omega⟩
      have hn : n / 0x1000 = 0xd := by omega
      rw [hn]
    · refine ⟨0x80, 0xbf, ?_, by omega, by omega⟩
      rw [if_pos (by omega), Nat.add_sub_cancel_left]

theorem lead_four {n : Nat} (h : 0x10000 ≤ n) (h' : n < 0x110000) :
    ∃ low high, lead (0xf0 + n / 0x40000).toUInt8 = .begun ⟨n / 0x40000, 3, low, high⟩ ∧
      low ≤ 0x80 + n / 0x1000 % 0x40 ∧ 0x80 + n / 0x1000 % 0x40 ≤ high := by
  have hoctet : (0xf0 + n / 0x40000).toUInt8.toNat = 0xf0 + n / 0x40000 :=
    toNat_toUInt8 (by omega)
  have h1 : ¬0xf0 + n / 0x40000 < 0x80 := by omega
  have h2 : ¬0xf0 + n / 0x40000 < 0xc2 := by omega
  have h3 : ¬0xf0 + n / 0x40000 < 0xe0 := by omega
  have h4 : ¬0xf0 + n / 0x40000 = 0xe0 := by omega
  have h5 : ¬0xf0 + n / 0x40000 = 0xed := by omega
  have h6 : ¬0xf0 + n / 0x40000 < 0xf0 := by omega
  simp only [lead, hoctet, h1, h2, h3, h4, h5, h6, if_false]
  split
  · refine ⟨0x90, 0xbf, ?_, by omega, by omega⟩
    have hn : n / 0x40000 = 0 := by omega
    rw [hn]
  · split
    · refine ⟨0x80, 0xbf, ?_, by omega, by omega⟩
      rw [Nat.add_sub_cancel_left]
    · refine ⟨0x80, 0x8f, ?_, by omega, by omega⟩
      have hn : n / 0x40000 = 4 := by omega
      rw [if_pos (by omega), hn]

theorem parts_encodeChar (c : Char) (rest : List UInt8) :
    parts none (encodeChar c ++ rest) = some c :: parts none rest := by
  have hlt := toNat_lt c
  have htail : ∀ n, (0x80 + n % 0x40).toUInt8.toNat = 0x80 + n % 0x40 := fun n =>
    toNat_toUInt8 (by omega)
  have hlow : ∀ n, 0x80 ≤ (0x80 + n % 0x40).toUInt8.toNat := fun n => by rw [htail]; omega
  have hhigh : ∀ n, (0x80 + n % 0x40).toUInt8.toNat ≤ 0xbf := fun n => by rw [htail]; omega
  unfold encodeChar
  simp only
  split
  · next h =>
      rw [List.singleton_append, parts_whole (by rw [toNat_toUInt8 (by omega)]; exact h),
        toNat_toUInt8 (by omega), Char.ofNat_toNat]
  · next h1 =>
      split
      · next h2 =>
          rw [List.cons_append, parts_begun (lead_two (by omega) h2), List.singleton_append,
            parts_last rfl (hlow _) (hhigh _), htail]
          have hbits : c.toNat / 0x40 * 0x40 + (0x80 + c.toNat % 0x40 - 0x80) = c.toNat := by omega
          rw [hbits, Char.ofNat_toNat]
      · next h2 =>
          split
          · next h3 =>
              obtain ⟨low, high, hlead, hl, hh⟩ := lead_three (by omega) h3 (not_surrogate c)
              rw [List.cons_append, parts_begun hlead, List.cons_append,
                parts_next (by simp) (by rw [htail]; exact hl) (by rw [htail]; exact hh),
                List.singleton_append,
                parts_last rfl (hlow _) (hhigh _), htail, htail]
              have hbits : (c.toNat / 0x1000 * 0x40 + (0x80 + c.toNat / 0x40 % 0x40 - 0x80)) *
                  0x40 + (0x80 + c.toNat % 0x40 - 0x80) = c.toNat := by omega
              rw [hbits, Char.ofNat_toNat]
          · next h3 =>
              obtain ⟨low, high, hlead, hl, hh⟩ := lead_four (Nat.not_lt.1 h3) hlt
              rw [List.cons_append, parts_begun hlead, List.cons_append,
                parts_next (by simp) (by rw [htail]; exact hl) (by rw [htail]; exact hh),
                List.cons_append,
                parts_next (by simp) (hlow _) (hhigh _),
                List.singleton_append,
                parts_last rfl (hlow _) (hhigh _), htail,
                htail, htail]
              have hbits : ((c.toNat / 0x40000 * 0x40 +
                  (0x80 + c.toNat / 0x1000 % 0x40 - 0x80)) * 0x40 +
                  (0x80 + c.toNat / 0x40 % 0x40 - 0x80)) * 0x40 +
                  (0x80 + c.toNat % 0x40 - 0x80) = c.toNat := by omega
              rw [hbits, Char.ofNat_toNat]

/-! ## Texts -/

theorem parts_encode (text : Text) : parts none (encode text) = text.map some := by
  induction text with
  | nil => rfl
  | cons c rest ih =>
      have hencode : encode (c :: rest) = encodeChar c ++ encode rest := rfl
      rw [hencode, parts_encodeChar, ih, List.map_cons]

theorem decodeLossy_encode (text : Text) : decodeLossy (encode text) = text := by
  rw [decodeLossy, parts_encode, List.map_map]
  exact List.map_id' text

theorem decode?_encode (text : Text) : decode? (encode text) = some text := by
  rw [decode?, parts_encode]
  induction text with
  | nil => rfl
  | cons c rest ih =>
      rw [List.map_cons, List.mapM_cons, ih]
      rfl

structure Begun.IsOpen (state : Begun) : Prop where
  low : 0x80 ≤ state.low
  long : 2 ≤ state.bits ∨ state.more ≠ 1 ∧ 0x82 ≤ state.bits * 0x40 + state.low

theorem Begun.IsOpen.next {state : Begun} (h : state.IsOpen) {octet : UInt8}
    (hlow : state.low ≤ octet.toNat) :
    Begun.IsOpen ⟨state.bits * 0x40 + (octet.toNat - 0x80), state.more - 1, 0x80, 0xbf⟩ := by
  have hopen := h.low
  have hlong := h.long
  exact ⟨Nat.le_refl _, .inl (by show 2 ≤ state.bits * 0x40 + (octet.toNat - 0x80); omega)⟩

theorem isOpen_of_eq {bits more low high : Nat} {state : Begun}
    (h : Lead.begun ⟨bits, more, low, high⟩ = .begun state) (hlow : 0x80 ≤ low)
    (hlong : 2 ≤ bits ∨ more ≠ 1 ∧ 0x82 ≤ bits * 0x40 + low) : state.IsOpen := by
  rw [← Lead.begun.inj h]
  exact ⟨hlow, hlong⟩

theorem isOpen_of_lead {octet : UInt8} {state : Begun} (h : lead octet = .begun state) :
    state.IsOpen := by
  unfold lead at h
  simp only at h
  by_cases h1 : octet.toNat < 0x80
  · simp [h1] at h
  by_cases h2 : octet.toNat < 0xc2
  · simp [h1, h2] at h
  simp only [h1, h2, if_false] at h
  split at h
  · exact isOpen_of_eq h (by omega) (by omega)
  split at h
  · exact isOpen_of_eq h (by omega) (by omega)
  split at h
  · exact isOpen_of_eq h (by omega) (by omega)
  split at h
  · exact isOpen_of_eq h (by omega) (by omega)
  split at h
  · exact isOpen_of_eq h (by omega) (by omega)
  split at h
  · exact isOpen_of_eq h (by omega) (by omega)
  split at h
  · exact isOpen_of_eq h (by omega) (by omega)
  · simp at h

theorem parts_append_ascii {octet : UInt8} (h : octet.toNat < 0x80) (after : List UInt8)
    (before : List UInt8) :
    ∀ state : Option Begun, (∀ begun, state = some begun -> begun.IsOpen) ->
      parts state (before ++ octet :: after) =
        parts state before ++ some (Char.ofNat octet.toNat) :: parts none after := by
  have hlead : lead octet = .whole (Char.ofNat octet.toNat) := by simp [lead, h]
  induction before with
  | nil =>
      intro state hopen
      cases state with
      | none => simp [parts, hlead]
      | some begun =>
          have hlow : ¬(begun.low ≤ octet.toNat ∧ octet.toNat ≤ begun.high) := by
            have hb := (hopen begun rfl).low
            omega
          simp [parts, hlow, hlead]
  | cons first rest ih =>
      intro state hopen
      have hnone := ih none (by simp)
      have hnext : ∀ begun : Begun, begun.IsOpen -> _ := fun begun hb =>
        ih (some begun) (by simpa using hb)
      cases state with
      | none =>
          simp only [List.cons_append, parts]
          cases hl : lead first with
          | whole c => simp [hnone]
          | begun begun => simp [hnext begun (isOpen_of_lead hl)]
          | none => simp [hnone]
      | some begun =>
          simp only [List.cons_append, parts]
          split
          · next hbounds =>
              split
              · simp [hnone]
              · exact hnext _ ((hopen begun rfl).next hbounds.1)
          · cases hl : lead first with
            | whole c => simp [hnone]
            | begun next => simp [hnext next (isOpen_of_lead hl)]
            | none => simp [hnone]

theorem decodeLossy_append_ascii {octet : UInt8} (h : octet.toNat < 0x80)
    (before after : List UInt8) :
    decodeLossy (before ++ octet :: after) =
      decodeLossy before ++ Char.ofNat octet.toNat :: decodeLossy after := by
  simp [decodeLossy, parts_append_ascii h after before none (by simp)]

/-! ## Octets outside ASCII -/

def isHigh (octet : UInt8) : Bool :=
  decide (0x80 ≤ octet.toNat)

theorem toNat_lt_of_not_isHigh {octet : UInt8} (h : isHigh octet = false) : octet.toNat < 0x80 :=
  Nat.lt_of_not_le (of_decide_eq_false h)

def IsWide (c : Char) : Prop :=
  c.toNat = 0 ∨ 0x80 ≤ c.toNat

theorem isWide_ofNat {n : Nat} (h : 0x80 ≤ n) : IsWide (Char.ofNat n) := by
  by_cases hvalid : n.isValidChar
  · have hchar : Char.ofNat n = Char.ofNatAux n hvalid := dif_pos hvalid
    rw [hchar]
    exact .inr h
  · have hchar : Char.ofNat n = '\x00' := dif_neg hvalid
    rw [hchar]
    exact .inl rfl

theorem isWide_replacement : IsWide replacement :=
  isWide_ofNat (by decide)

theorem not_isHigh_of_lead {octet : UInt8} {c : Char} (h : lead octet = .whole c) :
    isHigh octet = false := by
  refine decide_eq_false fun hhigh => ?_
  unfold lead at h
  simp only [Nat.not_lt.2 hhigh, if_false] at h
  iterate 8
    split at h
    · cases h
  cases h

theorem isWide_of_mem_parts {octets : List UInt8} (h : ∀ octet ∈ octets, isHigh octet) :
    ∀ state : Option Begun, (∀ begun, state = some begun -> begun.IsOpen) ->
      ∀ part ∈ parts state octets, IsWide (part.getD replacement) := by
  induction octets with
  | nil =>
      intro state _
      cases state with
      | none => exact fun _ hpart => by cases hpart
      | some begun => exact List.forall_mem_singleton.2 isWide_replacement
  | cons first rest ih =>
      have hrest := ih fun octet ho => h octet (List.mem_cons_of_mem _ ho)
      have hnone := hrest none (by simp)
      have hstart : ∀ part ∈ parts none (first :: rest), IsWide (part.getD replacement) := by
        rw [parts]
        cases hl : lead first with
        | whole c =>
            have hhigh := h first List.mem_cons_self
            rw [not_isHigh_of_lead hl] at hhigh
            cases hhigh
        | begun next => exact hrest (some next) (by simpa using isOpen_of_lead hl)
        | none => exact List.forall_mem_cons.2 ⟨isWide_replacement, hnone⟩
      intro state hopen
      cases state with
      | none => exact hstart
      | some begun =>
          have hbegun := hopen begun rfl
          rw [parts]
          split
          · next hbounds =>
              simp only
              split
              · next hmore =>
                  have hlong := hbegun.long
                  refine List.forall_mem_cons.2 ⟨?_, hnone⟩
                  rw [Option.getD_some]
                  exact isWide_ofNat (by omega)
              · exact hrest _ (by simpa using hbegun.next hbounds.1)
          · exact List.forall_mem_cons.2 ⟨isWide_replacement, hstart⟩

theorem isWide_of_mem_decodeLossy {octets : List UInt8} (h : ∀ octet ∈ octets, isHigh octet)
    {c : Char} (hc : c ∈ decodeLossy octets) : IsWide c := by
  obtain ⟨part, hpart, rfl⟩ := List.mem_map.1 hc
  exact isWide_of_mem_parts h none (by simp) part hpart

/-! ## Counting -/

theorem toNat_ofNat {n : Nat} (h : n.isValidChar) : (Char.ofNat n).toNat = n := by
  have hchar : Char.ofNat n = Char.ofNatAux n h := dif_pos h
  rw [hchar]
  rfl

theorem count_decodeLossy {c : Char} (hpos : 0 < c.toNat) (hascii : c.toNat < 0x80)
    (octets : List UInt8) : (decodeLossy octets).count c = octets.count c.toNat.toUInt8 := by
  have hoctet : c.toNat.toUInt8.toNat = c.toNat := toNat_toUInt8 (by omega)
  induction octets using induction_on_runs isHigh with
  | run run hhigh =>
      have hchar : c ∉ decodeLossy run := by
        intro hc
        rcases isWide_of_mem_decodeLossy hhigh hc with hwide | hwide <;> omega
      have hmem : c.toNat.toUInt8 ∉ run := by
        intro hc
        have hwide : 0x80 ≤ c.toNat.toUInt8.toNat := of_decide_eq_true (hhigh _ hc)
        omega
      rw [List.count_eq_zero.2 hchar, List.count_eq_zero.2 hmem]
  | append run octet rest _ hlow hrun hrest =>
      have hlow := toNat_lt_of_not_isHigh hlow
      have hsame : Char.ofNat octet.toNat = c ↔ octet = c.toNat.toUInt8 := by
        rw [← Char.toNat_inj, toNat_ofNat (.inl (by omega)), ← UInt8.toNat_inj, hoctet]
      rw [decodeLossy_append_ascii hlow, List.count_append, List.count_append, List.count_cons,
        List.count_cons, hrun, hrest]
      simp only [beq_iff_eq, hsame]

/-! ## Lower case -/

def lowerOctet (octet : UInt8) : UInt8 :=
  if 0x41 ≤ octet.toNat ∧ octet.toNat ≤ 0x5a then octet + 0x20 else octet

theorem lowerOctet_of_isHigh {octet : UInt8} (h : isHigh octet) : lowerOctet octet = octet := by
  have hhigh : 0x80 ≤ octet.toNat := of_decide_eq_true h
  rw [lowerOctet, if_neg (by omega)]

theorem ofNat_lowerOctet {octet : UInt8} (h : octet.toNat < 0x80) :
    (lowerOctet octet).toNat < 0x80 ∧
      Char.ofNat (lowerOctet octet).toNat = (Char.ofNat octet.toNat).toLower := by
  have hall : ∀ i : Fin 0x80, (lowerOctet i.val.toUInt8).toNat < 0x80 ∧
      Char.ofNat (lowerOctet i.val.toUInt8).toNat = (Char.ofNat i.val).toLower := by decide
  have hself : octet.toNat.toUInt8 = octet := UInt8.ofNat_toNat
  have hoctet := hall ⟨octet.toNat, h⟩
  rwa [hself] at hoctet

theorem toLower_of_isWide {c : Char} (h : IsWide c) : c.toLower = c := by
  rw [← Char.toNat_inj, toNat_toLower, if_neg]
  rcases h with h | h <;> omega

theorem decodeLossy_map_lowerOctet (octets : List UInt8) :
    decodeLossy (octets.map lowerOctet) = lowerAscii (decodeLossy octets) := by
  induction octets using induction_on_runs isHigh with
  | run run hhigh =>
      have hmap : run.map lowerOctet = run.map id :=
        List.map_congr_left fun octet ho => lowerOctet_of_isHigh (hhigh octet ho)
      have hlower : lowerAscii (decodeLossy run) = (decodeLossy run).map id :=
        List.map_congr_left fun c hc => toLower_of_isWide (isWide_of_mem_decodeLossy hhigh hc)
      rw [List.map_id] at hmap hlower
      rw [hmap, hlower]
  | append run octet rest _ hlow hrun hrest =>
      have hlow := toNat_lt_of_not_isHigh hlow
      obtain ⟨hascii, hchar⟩ := ofNat_lowerOctet hlow
      rw [List.map_append, List.map_cons, decodeLossy_append_ascii hascii,
        decodeLossy_append_ascii hlow, hchar, hrun, hrest, lowerAscii_append, lowerAscii_cons]

end Utf8

end Text

end ModuleResolution
