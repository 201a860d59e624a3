import ModuleResolution.Proofs.Text.Utf8

/-!
# Well-formed octets

Octets stand for a text only if they are how the text is written.  A character that has begun is
followed through its octets: whatever completes it within the bounds, the result is written as the
octets that made it up.
-/

namespace ModuleResolution

namespace Text

namespace Utf8

/-! ## One character -/

theorem toUInt8_of_eq {n : Nat} (octet : UInt8) (h : n = octet.toNat) : n.toUInt8 = octet := by
  rw [h]
  exact UInt8.ofNat_toNat

def bitsAfter (bits : Nat) (octets : List UInt8) : Nat :=
  octets.foldl (fun bits octet => bits * 0x40 + (octet.toNat - 0x80)) bits

theorem bitsAfter_cons (bits : Nat) (octet : UInt8) (octets : List UInt8) :
    bitsAfter bits (octet :: octets) =
      bitsAfter (bits * 0x40 + (octet.toNat - 0x80)) octets := by
  simp only [bitsAfter, List.foldl_cons]

/-- The octets complete a character that has begun: as many as are still to come, each of them
within its bounds. -/
def Begun.IsCompletedBy (state : Begun) (octets : List UInt8) : Prop :=
  octets.length = state.more ∧
    (∀ octet ∈ octets.head?, state.low ≤ octet.toNat ∧ octet.toNat ≤ state.high) ∧
    ∀ octet ∈ octets.tail, 0x80 ≤ octet.toNat ∧ octet.toNat ≤ 0xbf

/-- A character that has begun with some octets: whatever completes it, the character is written as
all of its octets. -/
structure Begun.Spells (state : Begun) (seen : List UInt8) : Prop where
  more_pos : 0 < state.more
  encodeChar_eq : ∀ octets, state.IsCompletedBy octets ->
    encodeChar (Char.ofNat (bitsAfter state.bits octets)) = seen ++ octets

section Octets

variable {first second third fourth : UInt8}

theorem encodeChar_two (hfirst : 0xc2 ≤ first.toNat ∧ first.toNat < 0xe0)
    (hsecond : 0x80 ≤ second.toNat ∧ second.toNat ≤ 0xbf) :
    encodeChar (Char.ofNat (bitsAfter (first.toNat - 0xc0) [second])) = [first, second] := by
  have hcode : bitsAfter (first.toNat - 0xc0) [second] =
      (first.toNat - 0xc0) * 0x40 + (second.toNat - 0x80) := rfl
  generalize bitsAfter (first.toNat - 0xc0) [second] = code at hcode
  have hchar : (Char.ofNat code).toNat = code := toNat_ofNat (.inl (by omega))
  rw [encodeChar]
  simp only [hchar]
  rw [if_neg (by omega), if_pos (by omega), toUInt8_of_eq first (by omega),
    toUInt8_of_eq second (by omega)]

theorem encodeChar_three (hfirst : 0xe0 ≤ first.toNat ∧ first.toNat < 0xf0)
    (hsecond : 0x80 ≤ second.toNat ∧ second.toNat ≤ 0xbf)
    (hlong : first.toNat = 0xe0 -> 0xa0 ≤ second.toNat)
    (hsurrogate : first.toNat = 0xed -> second.toNat ≤ 0x9f)
    (hthird : 0x80 ≤ third.toNat ∧ third.toNat ≤ 0xbf) :
    encodeChar (Char.ofNat (bitsAfter (first.toNat - 0xe0) [second, third])) =
      [first, second, third] := by
  have hcode : bitsAfter (first.toNat - 0xe0) [second, third] =
      ((first.toNat - 0xe0) * 0x40 + (second.toNat - 0x80)) * 0x40 + (third.toNat - 0x80) := rfl
  generalize bitsAfter (first.toNat - 0xe0) [second, third] = code at hcode
  have hvalid : code < 0xd800 ∨ 0xdfff < code ∧ code < 0x110000 := by omega
  have hchar : (Char.ofNat code).toNat = code := toNat_ofNat hvalid
  rw [encodeChar]
  simp only [hchar]
  rw [if_neg (by omega), if_neg (by omega), if_pos (by omega), toUInt8_of_eq first (by omega),
    toUInt8_of_eq second (by omega), toUInt8_of_eq third (by omega)]

/-- Overlong forms and numbers past the last character have a second octet outside of its
bounds. -/
theorem encodeChar_four (hfirst : 0xf0 ≤ first.toNat ∧ first.toNat ≤ 0xf4)
    (hsecond : 0x80 ≤ second.toNat ∧ second.toNat ≤ 0xbf)
    (hlong : first.toNat = 0xf0 -> 0x90 ≤ second.toNat)
    (hlast : first.toNat = 0xf4 -> second.toNat ≤ 0x8f)
    (hthird : 0x80 ≤ third.toNat ∧ third.toNat ≤ 0xbf)
    (hfourth : 0x80 ≤ fourth.toNat ∧ fourth.toNat ≤ 0xbf) :
    encodeChar (Char.ofNat (bitsAfter (first.toNat - 0xf0) [second, third, fourth])) =
      [first, second, third, fourth] := by
  have hcode : bitsAfter (first.toNat - 0xf0) [second, third, fourth] =
      (((first.toNat - 0xf0) * 0x40 + (second.toNat - 0x80)) * 0x40 + (third.toNat - 0x80)) *
        0x40 + (fourth.toNat - 0x80) := rfl
  generalize bitsAfter (first.toNat - 0xf0) [second, third, fourth] = code at hcode
  have hchar : (Char.ofNat code).toNat = code := toNat_ofNat (.inr (by omega))
  rw [encodeChar]
  simp only [hchar]
  rw [if_neg (by omega), if_neg (by omega), if_neg (by omega), toUInt8_of_eq first (by omega),
    toUInt8_of_eq second (by omega), toUInt8_of_eq third (by omega),
    toUInt8_of_eq fourth (by omega)]

end Octets

/-! ## Octet by octet -/

section Begun

variable {state : Begun} {seen : List UInt8} {octet : UInt8}

theorem Begun.Spells.last (h : state.Spells seen) (hmore : state.more = 1)
    (hbounds : state.low ≤ octet.toNat ∧ octet.toNat ≤ state.high) :
    encodeChar (Char.ofNat (state.bits * 0x40 + (octet.toNat - 0x80))) = seen ++ [octet] :=
  h.encodeChar_eq [octet] ⟨hmore.symm, by simpa using hbounds, by simp⟩

theorem Begun.Spells.next (h : state.Spells seen) (hmore : state.more ≠ 1)
    (hbounds : state.low ≤ octet.toNat ∧ octet.toNat ≤ state.high) :
    Begun.Spells ⟨state.bits * 0x40 + (octet.toNat - 0x80), state.more - 1, 0x80, 0xbf⟩
      (seen ++ [octet]) := by
  have hpos := h.more_pos
  refine ⟨by show 0 < state.more - 1; omega, fun octets hoctets => ?_⟩
  obtain ⟨hlength, hhead, htail⟩ := hoctets
  have hall : ∀ other ∈ octets, 0x80 ≤ other.toNat ∧ other.toNat ≤ 0xbf := by
    cases octets with
    | nil => exact fun _ hother => absurd hother List.not_mem_nil
    | cons first rest =>
        exact List.forall_mem_cons.2 ⟨hhead first (by simp), htail⟩
  have hlength : octets.length = state.more - 1 := hlength
  have hcount : (octet :: octets).length = state.more := by
    rw [List.length_cons, hlength]
    omega
  have hencode := h.encodeChar_eq (octet :: octets) ⟨hcount, by simpa using hbounds, hall⟩
  rw [bitsAfter_cons] at hencode
  rw [List.append_assoc, List.singleton_append]
  exact hencode

theorem spells_two (hfirst : 0xc2 ≤ octet.toNat ∧ octet.toNat < 0xe0) :
    Begun.Spells ⟨octet.toNat - 0xc0, 1, 0x80, 0xbf⟩ [octet] := by
  refine ⟨Nat.one_pos, fun octets hoctets => ?_⟩
  obtain ⟨hlength, hhead, -⟩ := hoctets
  match octets, hlength with
  | [second], _ => exact encodeChar_two hfirst (hhead second rfl)

theorem spells_three {low high : Nat} (hfirst : 0xe0 ≤ octet.toNat ∧ octet.toNat < 0xf0)
    (hbounds : 0x80 ≤ low ∧ high ≤ 0xbf) (hlong : octet.toNat = 0xe0 -> 0xa0 ≤ low)
    (hsurrogate : octet.toNat = 0xed -> high ≤ 0x9f) :
    Begun.Spells ⟨octet.toNat - 0xe0, 2, low, high⟩ [octet] := by
  refine ⟨Nat.two_pos, fun octets hoctets => ?_⟩
  obtain ⟨hlength, hhead, htail⟩ := hoctets
  match octets, hlength with
  | [second, third], _ =>
      have hsecond : low ≤ second.toNat ∧ second.toNat ≤ high := hhead second rfl
      exact encodeChar_three hfirst (by omega) (by omega) (by omega) (htail third (by simp))

theorem spells_four {low high : Nat} (hfirst : 0xf0 ≤ octet.toNat ∧ octet.toNat ≤ 0xf4)
    (hbounds : 0x80 ≤ low ∧ high ≤ 0xbf) (hlong : octet.toNat = 0xf0 -> 0x90 ≤ low)
    (hlast : octet.toNat = 0xf4 -> high ≤ 0x8f) :
    Begun.Spells ⟨octet.toNat - 0xf0, 3, low, high⟩ [octet] := by
  refine ⟨Nat.succ_pos 2, fun octets hoctets => ?_⟩
  obtain ⟨hlength, hhead, htail⟩ := hoctets
  match octets, hlength with
  | [second, third, fourth], _ =>
      have hsecond : low ≤ second.toNat ∧ second.toNat ≤ high := hhead second rfl
      exact encodeChar_four hfirst (by omega) (by omega) (by omega) (htail third (by simp))
        (htail fourth (by simp))

theorem spells_of_lead (h : lead octet = .begun state) : state.Spells [octet] := by
  unfold lead at h
  simp only at h
  split at h
  · cases h
  split at h
  · cases h
  split at h
  · obtain rfl := Lead.begun.inj h
    exact spells_two (by omega)
  split at h
  · next hfirst =>
      obtain rfl := Lead.begun.inj h
      have hspells := @spells_three octet 0xa0 0xbf (by omega) (by omega) (by omega) (by omega)
      rwa [hfirst] at hspells
  split at h
  · next hfirst =>
      obtain rfl := Lead.begun.inj h
      have hspells := @spells_three octet 0x80 0x9f (by omega) (by omega) (by omega) (by omega)
      rwa [hfirst] at hspells
  split at h
  · obtain rfl := Lead.begun.inj h
    exact spells_three (by omega) (by omega) (by omega) (by omega)
  split at h
  · next hfirst =>
      obtain rfl := Lead.begun.inj h
      have hspells := @spells_four octet 0x90 0xbf (by omega) (by omega) (by omega) (by omega)
      rwa [hfirst] at hspells
  split at h
  · obtain rfl := Lead.begun.inj h
    exact spells_four (by omega) (by omega) (by omega) (by omega)
  split at h
  · next hfirst =>
      obtain rfl := Lead.begun.inj h
      have hspells := @spells_four octet 0x80 0x8f (by omega) (by omega) (by omega) (by omega)
      rwa [hfirst] at hspells
  · cases h

end Begun

/-! ## Texts -/

theorem encodeChar_of_whole {octet : UInt8} {c : Char} (h : lead octet = .whole c) :
    encodeChar c = [octet] := by
  have hlow := toNat_lt_of_not_isHigh (not_isHigh_of_lead h)
  have hlead : lead octet = .whole (Char.ofNat octet.toNat) := by simp [lead, hlow]
  obtain rfl := Lead.whole.inj (hlead.symm.trans h)
  have hchar : (Char.ofNat octet.toNat).toNat = octet.toNat := toNat_ofNat (.inl (by omega))
  rw [encodeChar]
  simp only [hchar]
  rw [if_pos hlow, toUInt8_of_eq octet rfl]

theorem encode_of_parts_cons {octets : List UInt8} {c : Char}
    (hoctets : ∀ {text : Text}, parts none octets = text.map some -> encode text = octets)
    {text : Text} (h : some c :: parts none octets = text.map some) :
    encode text = encodeChar c ++ octets := by
  cases text with
  | nil => cases h
  | cons d others =>
      obtain ⟨hc, hothers⟩ := List.cons.inj h
      obtain rfl := Option.some.inj hc
      rw [← hoctets hothers]
      rfl

theorem not_none_cons_eq_map {others : List (Option Char)} {text : Text} :
    none :: others ≠ text.map some := by
  cases text with
  | nil => exact nofun
  | cons c rest => exact nofun

/-- Octets without an ill-formed part are how the text of their parts is written, behind what has
been seen of a character that has begun. -/
theorem encode_of_parts {octets : List UInt8} :
    ∀ {text : Text},
      (parts none octets = text.map some -> encode text = octets) ∧
      ∀ {state : Begun} {seen : List UInt8}, state.Spells seen ->
        parts (some state) octets = text.map some -> encode text = seen ++ octets := by
  induction octets with
  | nil =>
      intro text
      constructor
      · intro h
        rw [List.map_eq_nil_iff.1 h.symm]
        rfl
      · intro state seen _ h
        exact absurd h not_none_cons_eq_map
  | cons octet rest ih =>
      have hrest : ∀ {text : Text}, parts none rest = text.map some -> encode text = rest :=
        fun h => ih.1 h
      intro text
      constructor
      · intro h
        rw [parts] at h
        cases hlead : lead octet with
        | whole c =>
            simp only [hlead] at h
            rw [encode_of_parts_cons hrest h, encodeChar_of_whole hlead]
            rfl
        | begun state =>
            simp only [hlead] at h
            exact ih.2 (spells_of_lead hlead) h
        | none =>
            simp only [hlead] at h
            exact absurd h not_none_cons_eq_map
      · intro state seen hspells h
        rw [parts] at h
        split at h
        · next hbounds =>
            simp only at h
            split at h
            · next hmore =>
                rw [encode_of_parts_cons hrest h, hspells.last hmore hbounds, List.append_assoc]
                rfl
            · next hmore =>
                rw [ih.2 (hspells.next hmore hbounds) h, List.append_assoc]
                rfl
        · exact absurd h not_none_cons_eq_map

theorem eq_map_some_of_mapM {parts : List (Option Char)} {text : Text}
    (h : parts.mapM id = some text) : parts = text.map some := by
  induction parts generalizing text with
  | nil =>
      cases h
      rfl
  | cons part others ih =>
      rw [List.mapM_cons] at h
      obtain ⟨c, hc, h⟩ := Option.bind_eq_some_iff.1 h
      obtain ⟨rest, hrest, h⟩ := Option.bind_eq_some_iff.1 h
      cases h
      rw [List.map_cons, ih hrest]
      exact congrArg (· :: _) hc

theorem decode?_eq_some_iff {octets : List UInt8} {text : Text} :
    decode? octets = some text ↔ octets = encode text := by
  constructor
  · intro h
    exact (encode_of_parts.1 (eq_map_some_of_mapM h)).symm
  · rintro rfl
    exact decode?_encode text

end Utf8

end Text

end ModuleResolution
