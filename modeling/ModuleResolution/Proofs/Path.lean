import ModuleResolution.Path
import ModuleResolution.Proofs.Text.Pieces

/-!
# Components of paths

The normal form of an absolute path is a list of names with slashes in front of them.  Names stay
on the stack on which they are put, so a normal form keeps all components of a normal form.  The
directory of a path, and what is seen from it, can be told from the components.
-/

namespace ModuleResolution

namespace Path

open Text (splitOn joinWith)

/-- A component that a normal form keeps. -/
structure IsName (part : Text) : Prop where
  ne_nil : part ≠ []
  ne_dot : part ≠ ".".toList
  ne_up : part ≠ "..".toList
  not_mem : '/' ∉ part

/-! ## Stacks -/

theorem push_of_isName {part : Text} (h : IsName part) (rooted : Bool) (stack : List Text) :
    push rooted stack part = part :: stack := by
  unfold push
  rw [if_neg (by rintro (hn | hd); exact h.ne_nil hn; exact h.ne_dot hd), if_neg h.ne_up]

@[simp] theorem push_nil (rooted : Bool) (stack : List Text) : push rooted stack [] = stack := by
  simp [push]

theorem foldl_push_of_isName (rooted : Bool) {names : List Text}
    (h : ∀ name ∈ names, IsName name) (stack : List Text) :
    names.foldl (push rooted) stack = names.reverse ++ stack := by
  induction names generalizing stack with
  | nil => rfl
  | cons name rest ih =>
      have hrest := ih (fun other ho => h other (List.mem_cons_of_mem _ ho)) (name :: stack)
      rw [List.foldl_cons, push_of_isName (h name List.mem_cons_self), hrest,
        List.reverse_cons, List.append_assoc, List.singleton_append]

theorem isName_of_mem_push {stack : List Text} (h : ∀ name ∈ stack, IsName name) {part : Text}
    (hpart : '/' ∉ part) : ∀ name ∈ push true stack part, IsName name := by
  intro name hname
  unfold push at hname
  split at hname
  · exact h name hname
  · next hkept =>
      split at hname
      · cases stack with
        | nil => simp at hname
        | cons top below =>
            have htop : top ≠ "..".toList := (h top List.mem_cons_self).ne_up
            simp only [htop, if_false] at hname
            exact h name (List.mem_cons_of_mem _ hname)
      · next hup =>
          rcases List.mem_cons.1 hname with he | he
          · subst he
            exact ⟨fun hn => hkept (.inl hn), fun hd => hkept (.inr hd), hup, hpart⟩
          · exact h name he

theorem isName_of_mem_foldl_push {parts : List Text} (hparts : ∀ part ∈ parts, '/' ∉ part) :
    ∀ stack, (∀ name ∈ stack, IsName name) ->
      ∀ name ∈ parts.foldl (push true) stack, IsName name := by
  induction parts with
  | nil => intro stack h; exact h
  | cons part rest ih =>
      intro stack h
      have hpush := isName_of_mem_push h (hparts part List.mem_cons_self)
      exact ih (fun other ho => hparts other (List.mem_cons_of_mem _ ho)) _ hpush

/-! ## Components -/

/-- The components of a path's normal form. -/
def components (path : Text) : List Text :=
  (stackOf path).reverse

theorem isPrefixOf_slash_cons (c : Char) (rest : Text) :
    "/".toList.isPrefixOf (c :: rest) = ('/' == c) := by
  simp [List.isPrefixOf]

theorem isPrefixOf_slashes_cons (c : Char) (rest : Text) :
    "//".toList.isPrefixOf (c :: rest) = ('/' == c && "/".toList.isPrefixOf rest) := rfl

theorem isAbsolute_iff {path : Text} : isAbsolute path ↔ ∃ rest, path = '/' :: rest := by
  cases path with
  | nil => simp [isAbsolute]
  | cons c rest =>
      constructor
      · intro h
        have hc : '/' = c := by simpa [isAbsolute] using h
        exact ⟨rest, by rw [hc]⟩
      · intro h
        obtain ⟨others, h⟩ := h
        cases h
        simp [isAbsolute]

@[simp] theorem isAbsolute_cons_slash (rest : Text) : isAbsolute ('/' :: rest) = true := by
  simp [isAbsolute]

theorem isName_of_mem_components {path : Text} (h : isAbsolute path) {name : Text}
    (hname : name ∈ components path) : IsName name := by
  have hstack : name ∈ (splitOn '/' path).foldl (push true) [] := by
    rw [← h]
    exact List.mem_reverse.1 hname
  exact isName_of_mem_foldl_push (fun part hp => Text.not_mem_of_mem_splitOn hp) [] (by simp)
    name hstack

theorem stackOf_cons_slash (rest : Text) :
    stackOf ('/' :: rest) = (splitOn '/' rest).foldl (push true) [] := by
  rw [stackOf, isAbsolute_cons_slash]
  have hsplit : splitOn '/' ('/' :: rest) = [] :: splitOn '/' rest := by
    rw [splitOn, if_pos rfl]
  rw [hsplit, List.foldl_cons, push_nil]

theorem components_cons_slash {path : Text} (h : isAbsolute path) :
    components ('/' :: path) = components path := by
  obtain ⟨rest, rfl⟩ := isAbsolute_iff.1 h
  have hsplit : splitOn '/' ('/' :: rest) = [] :: splitOn '/' rest := by
    rw [splitOn, if_pos rfl]
  rw [components, stackOf_cons_slash, hsplit, List.foldl_cons, push_nil, components,
    stackOf_cons_slash]

theorem components_joinWith {names : List Text} (h : ∀ name ∈ names, IsName name) :
    components ('/' :: joinWith '/' names) = names := by
  rw [components, stackOf_cons_slash]
  cases names with
  | nil => rfl
  | cons first others =>
      rw [Text.splitOn_joinWith (by simp) fun name hn => (h name hn).not_mem,
        foldl_push_of_isName true h, List.append_nil, List.reverse_reverse]

inductive IsSlashes : Text -> Prop where
  | one : IsSlashes ['/']
  | two : IsSlashes ['/', '/']

theorem isSlashes_root {path : Text} (h : isAbsolute path) : IsSlashes (root path) := by
  obtain ⟨rest, rfl⟩ := isAbsolute_iff.1 h
  unfold root
  split
  · exact .one
  · exact .two
  · exact .one
  · next hslash => exact absurd rfl (hslash rest)

theorem normalize_eq {path : Text} (h : isAbsolute path) :
    normalize path = root path ++ joinWith '/' (components path) := by
  have hslashes := isSlashes_root h
  unfold normalize components
  cases hroot : root path with
  | nil =>
      rw [hroot] at hslashes
      cases hslashes
  | cons c rest => rfl

theorem normalize_of_isAbsolute {path : Text} (h : isAbsolute path) :
    normalize path = '/' :: joinWith '/' (components path) ∨
      normalize path = '/' :: '/' :: joinWith '/' (components path) := by
  have hslashes := isSlashes_root h
  rw [normalize_eq h]
  generalize root path = slashes at hslashes
  cases hslashes with
  | one => exact .inl rfl
  | two => exact .inr rfl

theorem normalize_of_single {path : Text} (habsolute : isAbsolute path)
    (hsingle : "//".toList.isPrefixOf path = false) :
    normalize path = '/' :: joinWith '/' (components path) := by
  obtain ⟨rest, rfl⟩ := isAbsolute_iff.1 habsolute
  have hroot : root ('/' :: rest) = ['/'] := by
    cases rest with
    | nil => rfl
    | cons c others =>
        have hc : c ≠ '/' := by
          rintro rfl
          simp at hsingle
        simp [root, hc]
  rw [normalize_eq habsolute, hroot]
  rfl

theorem isAbsolute_normalize {path : Text} (h : isAbsolute path) : isAbsolute (normalize path) := by
  rcases normalize_of_isAbsolute h with hn | hn <;> rw [hn] <;> exact isAbsolute_cons_slash _

theorem components_normalize {path : Text} (h : isAbsolute path) :
    components (normalize path) = components path := by
  have hnames : ∀ name ∈ components path, IsName name := fun _ hn => isName_of_mem_components h hn
  rcases normalize_of_isAbsolute h with hn | hn
  · rw [hn, components_joinWith hnames]
  · rw [hn, components_cons_slash (isAbsolute_cons_slash _), components_joinWith hnames]

/-! ## Normal forms and what is below them -/

/-- An absolute path in its normal form, with either root. -/
structure IsNormal (path : Text) : Prop where
  isAbsolute : isAbsolute path
  normal : normalize path = path

theorem IsNormal.absolute_eq {path : Text} (h : IsNormal path) (directory : Text) :
    absolute directory path = path := by
  rw [absolute, join, if_pos h.isAbsolute, h.normal]

/-- An absolute path in its normal form, with the usual root. -/
structure IsCanonical (path : Text) : Prop where
  isAbsolute : isAbsolute path
  single : "//".toList.isPrefixOf path = false
  normal : normalize path = path

/-- The path has all components of the directory and at least one more. -/
def IsBelow (directory path : Text) : Prop :=
  ∃ names, names ≠ [] ∧ components path = components directory ++ names

/-! ## Directories and what is seen from them -/

theorem isAbsolute_join {base : Text} (h : isAbsolute base) (path : Text) :
    isAbsolute (join base path) := by
  obtain ⟨rest, rfl⟩ := isAbsolute_iff.1 h
  unfold join
  split
  · assumption
  · split
    · exact isAbsolute_cons_slash _
    · exact isAbsolute_cons_slash _

theorem isAbsolute_absolute {directory : Text} (h : isAbsolute directory) (path : Text) :
    isAbsolute (absolute directory path) :=
  isAbsolute_normalize (isAbsolute_join h path)

/-! ### Slashes at either end -/

theorem isAbsolute_append {name : Text} (hne : name ≠ []) (hslash : '/' ∉ name) (rest : Text) :
    isAbsolute (name ++ rest) = false := by
  cases name with
  | nil => exact absurd rfl hne
  | cons c others =>
      have hc : '/' ≠ c := fun he => hslash (he ▸ List.mem_cons_self)
      rw [List.cons_append, isAbsolute, isPrefixOf_slash_cons]
      exact beq_false_of_ne hc

theorem isAbsolute_of_not_mem {text : Text} (h : '/' ∉ text) : isAbsolute text = false := by
  cases text with
  | nil => rfl
  | cons c rest =>
      rw [← List.append_nil (c :: rest)]
      exact isAbsolute_append (List.cons_ne_nil c rest) h []

theorem isAbsolute_joinWith {before : List Text} {last : Text}
    (hbefore : ∀ segment ∈ before, segment ≠ [] ∧ '/' ∉ segment) (hlast : isAbsolute last = false) :
    isAbsolute (joinWith '/' (before ++ [last])) = false := by
  cases before with
  | nil => exact hlast
  | cons first others =>
      obtain ⟨hne, hslash⟩ := hbefore first List.mem_cons_self
      cases hrest : others ++ [last] with
      | nil => simp at hrest
      | cons second rest =>
          rw [List.cons_append, hrest, Text.joinWith_cons_cons]
          exact isAbsolute_append hne hslash _

theorem joinWith_eq_concat {names : List Text} (h : ∀ name ∈ names, IsName name)
    (hne : names ≠ []) : ∃ start c, joinWith '/' names = start ++ [c] ∧ c ≠ '/' := by
  have hname := h _ (List.getLast_mem hne)
  obtain ⟨pre, hpre⟩ := Text.isSuffix_joinWith '/' names.dropLast (names.getLast hne)
  rw [List.dropLast_concat_getLast] at hpre
  obtain ⟨start, c, hlast⟩ := (List.eq_nil_or_concat (names.getLast hne)).resolve_left hname.ne_nil
  rw [List.concat_eq_append] at hlast
  refine ⟨pre ++ start, c, by rw [← hpre, hlast, List.append_assoc], ?_⟩
  rintro rfl
  exact hname.not_mem (by rw [hlast]; simp)

/-! ### Going up and down -/

theorem dirname_joinWith {names : List Text} (h : ∀ name ∈ names, IsName name) :
    dirname ('/' :: joinWith '/' names) = '/' :: joinWith '/' names.dropLast := by
  rcases List.eq_nil_or_concat names with rfl | ⟨before, last, rfl⟩
  · rfl
  · rw [List.concat_eq_append] at h ⊢
    rw [List.dropLast_concat]
    have hlast : ∀ c ∈ last, (c != '/') = true := fun c hc =>
      bne_iff_ne.2 fun he => (h last (by simp)).not_mem (he ▸ hc)
    by_cases hbefore : before = []
    · subst hbefore
      have hhead : Text.dropEndWhile (· != '/') ('/' :: last) = ['/'] :=
        Text.dropEndWhile_append hlast ['/']
      show dirname ('/' :: last) = ['/']
      rw [dirname, hhead]
      rfl
    · obtain ⟨start, c, hstart, hc⟩ :=
        joinWith_eq_concat (fun name hn => h name (List.mem_append_left _ hn)) hbefore
      have hjoin : '/' :: joinWith '/' (before ++ [last]) =
          '/' :: start ++ [c] ++ ['/'] ++ last := by
        rw [Text.joinWith_append hbefore (by simp), hstart]
        simp [joinWith]
      have hhead : Text.dropEndWhile (· != '/') ('/' :: joinWith '/' (before ++ [last])) =
          '/' :: start ++ [c] ++ ['/'] := by
        rw [hjoin, Text.dropEndWhile_append hlast, Text.dropEndWhile_concat (by simp)]
      have hall : ('/' :: start ++ [c] ++ ['/']).all (· == '/') = false := by simp [hc]
      rw [dirname, hhead]
      simp only [hall, Bool.false_eq_true, if_false]
      rw [Text.dropEndWhile_append (by simp), Text.dropEndWhile_concat (by simp [hc]), hstart]
      rfl

theorem join_joinWith {names : List Text} (h : ∀ name ∈ names, IsName name) {path : Text}
    (hrelative : isAbsolute path = false) :
    join ('/' :: joinWith '/' names) path = '/' :: joinWith '/' (names ++ [path]) := by
  rw [join, hrelative]
  by_cases hne : names = []
  · subst hne
    rfl
  · obtain ⟨start, c, hstart, hc⟩ := joinWith_eq_concat h hne
    have hend : "/".toList.isSuffixOf ('/' :: start ++ [c]) = false := by
      simpa [List.isSuffixOf, List.isPrefixOf] using Ne.symm hc
    have hnil : ('/' :: start ++ [c]).isEmpty = false := rfl
    rw [Text.joinWith_append hne (by simp), hstart]
    show (if ('/' :: start ++ [c]).isEmpty || "/".toList.isSuffixOf ('/' :: start ++ [c]) then _
      else _) = _
    rw [hnil, hend]
    simp [joinWith]

/-- The components of what a path leads to from a directory with these components. -/
def componentsFrom (directory : List Text) (path : Text) : List Text :=
  ((splitOn '/' path).foldl (push true)
    (if isAbsolute path then [] else directory.reverse)).reverse

theorem splitOn_joinWith_concat {names : List Text} (h : ∀ name ∈ names, IsName name)
    (path : Text) : splitOn '/' (joinWith '/' (names ++ [path])) = names ++ splitOn '/' path := by
  rw [Text.splitOn_joinWith_eq_flatMap (by simp), List.flatMap_append,
    Text.flatMap_splitOn_of_not_mem fun name hn => (h name hn).not_mem]
  simp

theorem components_joinWith_concat {names : List Text} (h : ∀ name ∈ names, IsName name)
    {path : Text} (hrelative : isAbsolute path = false) :
    components ('/' :: joinWith '/' (names ++ [path])) = componentsFrom names path := by
  rw [components, stackOf_cons_slash, splitOn_joinWith_concat h, List.foldl_append,
    foldl_push_of_isName true h, List.append_nil, componentsFrom, hrelative]
  rfl

theorem normalize_join {directory : List Text} (h : ∀ name ∈ directory, IsName name) {path : Text}
    (hroot : "//".toList.isPrefixOf path = false) :
    normalize (join ('/' :: joinWith '/' directory) path) =
      '/' :: joinWith '/' (componentsFrom directory path) := by
  cases habsolute : isAbsolute path with
  | true =>
      obtain ⟨rest, rfl⟩ := isAbsolute_iff.1 habsolute
      rw [join, if_pos habsolute, normalize_of_single habsolute hroot, components, stackOf,
        componentsFrom, if_pos habsolute, habsolute]
  | false =>
      have hslash : ∀ name ∈ directory, name ≠ [] ∧ '/' ∉ name := fun name hn =>
        ⟨(h name hn).ne_nil, (h name hn).not_mem⟩
      have hjoined : "//".toList.isPrefixOf ('/' :: joinWith '/' (directory ++ [path])) = false :=
        isAbsolute_joinWith hslash habsolute
      rw [join_joinWith h habsolute, normalize_of_single (isAbsolute_cons_slash _) hjoined,
        components_joinWith_concat h habsolute]

/-- The path with one slash more if it has none at its end. -/
def withSlash (path : Text) : Text :=
  if "/".toList.isSuffixOf path then path else path ++ ['/']

theorem isAbsolute_withSlash {path : Text} (h : isAbsolute path) : isAbsolute (withSlash path) := by
  obtain ⟨rest, rfl⟩ := isAbsolute_iff.1 h
  unfold withSlash
  split
  · exact h
  · exact isAbsolute_cons_slash _

end Path

end ModuleResolution
