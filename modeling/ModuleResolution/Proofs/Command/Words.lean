import ModuleResolution.Command.Options
import ModuleResolution.Proofs.Trace

/-!
# Specifiers among the words

Reading a command line makes no new texts for specifiers: they are some of its words, character for
character and in their order.
-/

namespace ModuleResolution

namespace Command

/-! ## What words are -/

namespace Word

def argument? : Word -> Option Text
  | .argument text => some text
  | _ => none

def arguments (words : List Word) : List Text :=
  words.filterMap argument?

theorem argument?_other {text argument : Text} (h : (other text).argument? = some argument) :
    argument = text := by
  unfold other at h
  split at h
  · exact (Option.some.inj h).symm
  · cases h

theorem eq_of_ofText {text argument : Text} {word : Word} (h : ofText text = .ok word)
    (hword : word.argument? = some argument) : argument = text := by
  unfold ofText at h
  split at h
  · cases h
    cases hword
  · unfold ofLong at h
    simp only at h
    obtain ⟨found, -, h⟩ := bind_eq_ok.1 h
    cases found with
    | some switch =>
        cases h
        cases hword
    | none =>
        cases h
        exact argument?_other hword
  · split at h
    · cases h
      unfold ofShort at hword
      split at hword <;> cases hword
    · cases h
      exact argument?_other hword
  · cases h
    exact (Option.some.inj hword).symm

theorem arguments_ofTexts_sublist {texts : List Text} {words : List Word}
    (h : ofTexts texts = .ok words) : (arguments words).Sublist texts := by
  induction texts generalizing words with
  | nil =>
      cases h
      exact .slnil
  | cons text texts ih =>
      rw [ofTexts] at h
      obtain ⟨word, hword, h⟩ := bind_eq_ok.1 h
      split at h
      · cases h
        have hall : arguments (texts.map .argument) = texts := by
          simp [arguments, Function.comp_def, argument?]
        exact hall.symm ▸ List.sublist_cons_self text texts
      · obtain ⟨others, hothers, h⟩ := bind_eq_ok.1 h
        cases h
        cases hargument : word.argument? with
        | none =>
            rw [arguments, List.filterMap_cons_none hargument]
            exact (ih hothers).cons text
        | some argument =>
            rw [arguments, List.filterMap_cons_some hargument, eq_of_ofText hword hargument]
            exact (ih hothers).cons_cons text

end Word

/-! ## Reading words -/

namespace Progress

variable {progress next after : Progress} {words : List Word}

def Grows (words : List Word) (progress after : Progress) : Prop :=
  ∃ taken, taken.Sublist (Word.arguments words) ∧
    after.options.specifiers = progress.options.specifiers ++ taken

theorem Grows.refl (words : List Word) (progress : Progress) : Grows words progress progress :=
  ⟨[], List.nil_sublist _, (List.append_nil _).symm⟩

theorem Grows.cons (h : Grows words progress after) (word : Word) :
    Grows (word :: words) progress after := by
  obtain ⟨taken, hsublist, hspecifiers⟩ := h
  exact ⟨taken, hsublist.trans ((List.sublist_cons_self word words).filterMap _), hspecifiers⟩

theorem Grows.of_eq (h : Grows words next after)
    (heq : next.options.specifiers = progress.options.specifiers) :
    Grows words progress after := by
  obtain ⟨taken, hsublist, hspecifiers⟩ := h
  exact ⟨taken, hsublist, hspecifiers.trans (by rw [heq])⟩

theorem Grows.argument {text : Text} (h : Grows words (progress.argument text) after) :
    Grows (.argument text :: words) progress after := by
  unfold Progress.argument at h
  split at h
  · exact (h.of_eq rfl).cons _
  · obtain ⟨taken, hsublist, hspecifiers⟩ := h
    exact ⟨text :: taken, hsublist.cons_cons text, hspecifiers.trans (List.append_assoc _ _ _)⟩

theorem specifiers_leave : progress.leave.options.specifiers = progress.options.specifiers := by
  unfold leave
  split <;> rfl

theorem specifiers_option {switch : Switch} {value : Option Text}
    (h : progress.option switch value = .ok after) :
    after.options.specifiers = progress.options.specifiers := by
  unfold option Options.take at h
  obtain ⟨options, hoptions, h⟩ := bind_eq_ok.1 h
  cases h
  cases switch
  case help => cases hoptions
  case layout | logLevel =>
    obtain ⟨value, -, hoptions⟩ := bind_eq_ok.1 hoptions
    cases hoptions
    rfl
  all_goals
    cases hoptions
    rfl

theorem grows_option {switch : Switch} {value : Option Text} {read : Progress -> Except Stop Progress}
    (hread : ∀ next {after}, read next = .ok after -> Grows words next after)
    (h : (do read (<- progress.option switch value)) = .ok after) : Grows words progress after := by
  obtain ⟨next, hoption, h⟩ := bind_eq_ok.1 h
  exact (hread next h).of_eq (specifiers_option hoption)

theorem grows_readWords (h : readWords progress words = .ok after) : Grows words progress after := by
  fun_induction readWords progress words generalizing after with
  | case1 progress =>
      cases h
      exact .refl _ _
  | case2 progress text words ih => exact (ih h).argument
  | case3 progress words =>
      rename_i ih
      exact ((ih h).of_eq rfl).cons _
  | case4 progress words ih => exact ((ih h).of_eq specifiers_leave).cons _
  | case5 progress switch attached words _ ih => exact (grows_option ih h).cons _
  | case6 progress switch attached words _ _ ih => exact (grows_option ih h).cons _
  | case7 => cases h
  | case8 progress switch attached words _ ih => exact (grows_option ih h).cons _
  | case9 => cases h
  | case10 progress switch value words _ ih => exact ((grows_option ih h).cons _).cons _
  | case11 progress switch value words _ ih =>
      exact (grows_option (fun next _ h => (ih next h).argument) h).cons _
  | case12 progress switch value words _ ih => exact ((grows_option ih h).cons _).cons _
  | case13 progress switch value words _ ih =>
      exact (grows_option (fun next _ h => (ih next h).argument) h).cons _
  | case14 => cases h
  | case15 progress switch words _ _ ih => exact (grows_option ih h).cons _
  | case16 => cases h
  | case17 progress switch words _ _ ih => exact (grows_option ih h).cons _

end Progress

theorem specifiers_sublist {words : List Text} {options : Options}
    (h : Options.ofWords words = .ok options) : options.specifiers.Sublist words := by
  unfold Options.ofWords at h
  obtain ⟨read, hread, h⟩ := bind_eq_ok.1 h
  obtain ⟨progress, hprogress, h⟩ := bind_eq_ok.1 h
  obtain ⟨taken, hsublist, hspecifiers⟩ := Progress.grows_readWords hprogress
  split at h
  · cases h
  · cases h
    rw [hspecifiers]
    exact hsublist.trans (Word.arguments_ofTexts_sublist hread)

end Command

end ModuleResolution
