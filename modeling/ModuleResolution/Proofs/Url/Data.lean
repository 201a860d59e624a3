import ModuleResolution.Proofs.Text.Pieces
import ModuleResolution.Resolver

/-!
# Formats of data URLs

What stands before the comma of a `data:` URL decides its format.  The media type that is read ends
at a semicolon, where parameters begin, but also at a colon, which no media type has.  So a header
with a colon in front of its parameters may be taken for that of a module.
-/

namespace ModuleResolution

namespace Text

/-! ## Characters that stay -/

theorem lowerChar_of_toLower_eq {c : Char} (hascii : c.toNat < 0x80) (hlower : c.toLower = c) :
    lowerChar c = [c] := by
  rw [lowerChar, if_pos hascii, hlower]

theorem mem_lowerAfter {c : Char} (hascii : c.toNat < 0x80) (hlower : c.toLower = c) {text : Text}
    (h : c ∈ text) (before : Text) : c ∈ lowerAfter before text := by
  induction text generalizing before with
  | nil => cases h
  | cons d rest ih =>
      rw [lowerAfter]
      rcases List.mem_cons.1 h with rfl | hrest
      · have hsigma : c ≠ 'Σ' := by
          rintro rfl
          exact absurd hascii (by decide)
        rw [if_neg hsigma, lowerChar_of_toLower_eq hascii hlower]
        exact List.mem_append_left _ List.mem_cons_self
      · exact List.mem_append_right _ (ih hrest _)

theorem mem_dropWhile {α : Type} {p : α -> Bool} {a : α} {list : List α} (h : a ∈ list)
    (ha : p a = false) : a ∈ list.dropWhile p := by
  rw [← List.takeWhile_append_dropWhile (p := p) (l := list)] at h
  rcases List.mem_append.1 h with hmem | hmem
  · rw [List.all_eq_true.1 List.all_takeWhile a hmem] at ha
    cases ha
  · exact hmem

theorem mem_strip {c : Char} {text : Text} (h : c ∈ text) (hc : isBlank c = false) :
    c ∈ strip text := by
  have hfront := mem_dropWhile h hc
  exact List.mem_reverse.2 (mem_dropWhile (List.mem_reverse.2 hfront) hc)

end Text

namespace Url

namespace Data

variable {header payload : Text}

/-! ## Cuts -/

theorem before_of_not_mem {separator : Char} {text : Text} (h : separator ∉ text) :
    before separator text = text := by
  rw [before, Text.cut_of_not_mem h]

theorem before_append_cons {separator : Char} {text : Text} (h : separator ∉ text) (rest : Text) :
    before separator (text ++ separator :: rest) = text := by
  rw [before, Text.cut_append_cons h]

theorem before_comm (first second : Char) (text : Text) :
    before first (before second text) = before second (before first text) := by
  unfold before
  induction text with
  | nil => rfl
  | cons c rest ih =>
      by_cases hfirst : c = first <;> by_cases hsecond : c = second <;>
        simp [Text.cut, hfirst, hsecond] <;> grind [Text.cut]

/-! ## Headers -/

/-- The data URL with a header and a payload. -/
def ofHeader (header payload : Text) : Text :=
  "data:".toList ++ header ++ ',' :: payload

/-- The media type that a header declares: what stands before its parameters, without white space at
either end and in lower case. -/
def declaredType (header : Text) : Text :=
  Text.lower (Text.strip (before ';' header))

/-- The media types that stand for a format. -/
inductive StandsFor : Text -> Format -> Prop where
  | module : StandsFor "text/javascript".toList .module
  | json : StandsFor "application/json".toList .json
  | wasm : StandsFor "application/wasm".toList .wasm

theorem formatOfType?_eq_some_iff {type : Text} {format : Format} :
    formatOfType? type = some format ↔ StandsFor type format := by
  constructor
  · intro h
    unfold formatOfType? at h
    split at h
    · next htype =>
        cases h
        exact htype ▸ .module
    split at h
    · next htype =>
        cases h
        exact htype ▸ .json
    split at h
    · next htype =>
        cases h
        exact htype ▸ .wasm
    · cases h
  · intro h
    cases h <;> rfl

theorem formatOfType?_declaredType_of_mem (h : ':' ∈ before ';' header) :
    formatOfType? (declaredType header) = none := by
  have hcolon : ':' ∈ declaredType header :=
    Text.mem_lowerAfter (by decide) (by decide) (Text.mem_strip h (by decide)) []
  rw [Option.eq_none_iff_forall_ne_some]
  intro format hformat
  generalize declaredType header = type at hcolon hformat
  cases formatOfType?_eq_some_iff.1 hformat <;> exact absurd hcolon (by decide)

theorem before_ofHeader (h : ',' ∉ header) (payload : Text) :
    before ',' (before ':' (header ++ ',' :: payload)) = before ':' header := by
  rw [before_comm, before_append_cons h]

theorem cut_ofHeader (header payload : Text) :
    Text.cut ':' (ofHeader header payload) =
      ("data".toList, some (header ++ ',' :: payload)) := by
  have hscheme : ':' ∉ "data".toList := by decide
  exact Text.cut_append_cons hscheme _

theorem format?_ofHeader (h : ',' ∉ header) (payload : Text) :
    format? (ofHeader header payload) = formatOfType? (declaredType (before ':' header)) := by
  rw [format?, mediaType?, cut_ofHeader]
  simp only [before_ofHeader h]
  rw [declaredType]
  split
  · next hempty =>
      rw [List.isEmpty_iff.1 hempty]
      rfl
  · rfl

theorem protocol?_ofHeader (header payload : Text) :
    protocol? (ofHeader header payload) = some "data:".toList := by
  rw [protocol?, scheme?, cut_ofHeader]
  rfl

/-! ## Formats -/

/-- The format of a data URL depends on its header only: it is the one that the media type stands
for which the header declares before any colon.  This is the format that the header as a whole
declares, exactly unless there is a colon in front of the parameters and what stands before it is
the media type of a format.  A data URL without a format is refused. -/
theorem format?_eq_some_iff_standsFor (h : ',' ∉ header) (payload : Text) :
    (∀ format, format? (ofHeader header payload) = some format ↔
      StandsFor (declaredType (before ':' header)) format) ∧
    ((∀ format, format? (ofHeader header payload) = some format ↔
        StandsFor (declaredType header) format) ↔
      (':' ∈ before ';' header -> ∀ format, ¬StandsFor (declaredType (before ':' header)) format)) ∧
    (format? (ofHeader header payload) = none -> ∀ resolver : Resolver,
      (resolver.classify (ofHeader header payload)).outcome =
        .error (.resolution (.invalidModuleSpecifier (ofHeader header payload)))) := by
  rw [format?_ofHeader h]
  refine ⟨fun _ => formatOfType?_eq_some_iff, ?_, fun hnone resolver => ?_⟩
  · simp only [← formatOfType?_eq_some_iff]
    constructor
    · intro hsame hcolon format hformat
      have hwhole := (hsame format).1 hformat
      rw [formatOfType?_declaredType_of_mem hcolon] at hwhole
      cases hwhole
    · intro hnone format
      by_cases hcolon : ':' ∈ before ';' header
      · rw [formatOfType?_declaredType_of_mem hcolon]
        exact iff_of_false (hnone hcolon format) (by simp)
      · rw [declaredType, before_comm, before_of_not_mem hcolon, declaredType]
  · unfold Resolver.classify
    split
    · rfl
    · rw [protocol?_ofHeader]
      simp only [format?_ofHeader h, hnone]
      rfl

theorem format?_eq_some_iff_standsFor_parameter :
    ',' ∉ " Text/JavaScript ;charset=a:b".toList ∧
      format? (ofHeader " Text/JavaScript ;charset=a:b".toList "a,b:c;d".toList) =
        some .module ∧
      StandsFor (declaredType " Text/JavaScript ;charset=a:b".toList) .module := by
  have hcomma : ',' ∉ " Text/JavaScript ;charset=a:b".toList := by decide
  obtain ⟨-, hwhole, -⟩ := format?_eq_some_iff_standsFor hcomma "a,b:c;d".toList
  have hformat : format? (ofHeader " Text/JavaScript ;charset=a:b".toList "a,b:c;d".toList) =
      some .module := by decide
  exact ⟨hcomma, hformat, (hwhole.2 (fun hcolon => absurd hcolon (by decide)) .module).1 hformat⟩

/-- With a colon in it the header declares no media type, but the URL is taken for a module. -/
theorem format?_ne_of_colon :
    ',' ∉ "text/javascript:x".toList ∧
      format? (ofHeader "text/javascript:x".toList "1".toList) = some .module ∧
      declaredType "text/javascript:x".toList = "text/javascript:x".toList ∧
      ¬StandsFor (declaredType "text/javascript:x".toList) .module := by
  have htype : declaredType "text/javascript:x".toList = "text/javascript:x".toList := by decide
  refine ⟨by decide, by decide, htype, ?_⟩
  rw [← formatOfType?_eq_some_iff, htype]
  decide

end Data

end Url

end ModuleResolution
