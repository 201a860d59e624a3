import ModuleResolution.Proofs.Path.Name

/-!
# Ancestors

A normal path is a list of names under a root of one or two slashes.  Going up from it drops the
last name, so the directories above it are its shorter lists of names under the same root, and the
walk ends at the root after as many steps as there are names.
-/

namespace ModuleResolution

namespace Path

open Text (splitOn joinWith)

variable {path directory : Text}

/-! ## Going up -/

/-- The directory that many steps above a path.  A root is above itself. -/
def up (path : Text) : Nat -> Text
  | 0 => path
  | steps + 1 => dirname (up path steps)

theorem up_dirname (path : Text) (steps : Nat) :
    up (dirname path) steps = up path (steps + 1) := by
  induction steps with
  | zero => rfl
  | succ steps ih => exact congrArg dirname ih

theorem isRoot_iff : isRoot path ↔ dirname path = path :=
  beq_iff_eq

theorem up_of_isRoot (h : isRoot path) (steps : Nat) : up path steps = path := by
  induction steps with
  | zero => rfl
  | succ steps ih => rw [up, ih, isRoot_iff.1 h]

theorem not_isRoot_of_up {steps : Nat} (h : isRoot (up path steps) = false) :
    isRoot path = false := by
  refine Bool.eq_false_iff.2 fun hroot => ?_
  rw [up_of_isRoot hroot, hroot] at h
  cases h

theorem ancestors_of_isRoot (h : isRoot path) : ancestors path = [] := by
  rw [ancestors, dif_pos (isRoot_iff.1 h)]

theorem ancestors_of_not_isRoot (h : isRoot path = false) :
    ancestors path = dirname path :: ancestors (dirname path) := by
  rw [ancestors, dif_neg fun hroot => Bool.eq_false_iff.1 h (isRoot_iff.2 hroot)]

/-! ## One more slash in front -/

theorem dropEndWhile_cons {p : Char -> Bool} {c : Char} {text : Text}
    (h : Text.dropEndWhile p text ≠ []) :
    Text.dropEndWhile p (c :: text) = c :: Text.dropEndWhile p text := by
  unfold Text.dropEndWhile at h ⊢
  have hdrop : text.reverse.dropWhile p ≠ [] := fun he => h (by rw [he]; rfl)
  rw [List.reverse_cons, List.dropWhile_append, if_neg (by simpa using hdrop), List.reverse_append]
  rfl

theorem dropEndWhile_name_ne_nil (h : isAbsolute path) :
    Text.dropEndWhile (· != '/') path ≠ [] := by
  obtain ⟨before, hpath⟩ := eq_append_basename h
  have hname : ∀ c ∈ basename path, (c != '/') = true := fun c hc =>
    bne_iff_ne.2 fun he => slash_not_mem_basename path (he ▸ hc)
  rw [hpath, ← List.singleton_append, ← List.append_assoc, Text.dropEndWhile_append hname,
    Text.dropEndWhile_concat (by decide)]
  simp

theorem dirname_cons_slash (h : isAbsolute path) : dirname ('/' :: path) = '/' :: dirname path := by
  have hhead := dropEndWhile_name_ne_nil h
  unfold dirname
  simp only [dropEndWhile_cons hhead, List.all_cons, beq_self_eq_true, Bool.true_and]
  split
  · rfl
  · next hall =>
      refine dropEndWhile_cons fun hnil => hall ?_
      rw [← Text.dropEndWhile_append_takeEndWhile (· == '/') (Text.dropEndWhile (· != '/') path),
        hnil, List.nil_append, Text.takeEndWhile, List.all_reverse]
      exact List.all_takeWhile

theorem basename_cons_slash (h : isAbsolute path) : basename ('/' :: path) = basename path := by
  obtain ⟨before, hpath⟩ := eq_append_basename h
  have hname := slash_not_mem_basename path
  generalize basename path = name at hpath hname
  subst hpath
  exact basename_append_cons hname ('/' :: before)

theorem join_cons_slash {base : Text} (h : isAbsolute base) {path : Text}
    (hrelative : isAbsolute path = false) : join ('/' :: base) path = '/' :: join base path := by
  obtain ⟨rest, rfl⟩ := isAbsolute_iff.1 h
  have hend : "/".toList.isSuffixOf ('/' :: '/' :: rest) = "/".toList.isSuffixOf ('/' :: rest) := by
    rw [Bool.eq_iff_iff, List.isSuffixOf_iff_suffix, List.isSuffixOf_iff_suffix]
    refine ⟨fun hsuffix => ?_, fun hsuffix => hsuffix.trans (List.suffix_cons _ _)⟩
    exact List.suffix_of_suffix_length_le hsuffix (List.suffix_cons _ _) (by simp)
  have hempty : ∀ c : Char, ∀ text : Text, (c :: text).isEmpty = false := fun _ _ => rfl
  unfold join
  rw [hrelative, hend, hempty, hempty]
  cases "/".toList.isSuffixOf ('/' :: rest) <;> rfl

/-! ## Names under a root -/

theorem IsNormal.eq (h : IsNormal path) : path = root path ++ joinWith '/' (components path) := by
  rw [← normalize_eq h.isAbsolute, h.normal]

theorem IsNormal.ext {first second : Text} (hfirst : IsNormal first) (hsecond : IsNormal second)
    (hroot : root first = root second) (hnames : components first = components second) :
    first = second := by
  rw [hfirst.eq, hsecond.eq, hroot, hnames]

theorem IsNormal.isName (h : IsNormal path) {name : Text} (hname : name ∈ components path) :
    IsName name :=
  isName_of_mem_components h.isAbsolute hname

section Names

variable {slashes : Text} {names : List Text}

theorem isAbsolute_names (h : ∀ name ∈ names, IsName name) :
    isAbsolute (joinWith '/' names) = false := by
  cases names with
  | nil => rfl
  | cons first others =>
      have hfirst := h first List.mem_cons_self
      cases others with
      | nil => exact isAbsolute_of_not_mem hfirst.not_mem
      | cons second rest => exact isAbsolute_append hfirst.ne_nil hfirst.not_mem _

theorem root_append (hslashes : IsSlashes slashes) (hrelative : isAbsolute path = false) :
    root (slashes ++ path) = slashes := by
  cases path with
  | nil => cases hslashes <;> rfl
  | cons c rest =>
      have hc : c ≠ '/' := by
        rintro rfl
        rw [isAbsolute_cons_slash] at hrelative
        cases hrelative
      cases hslashes with
      | one => simp [root, hc]
      | two => simp [root, hc]

theorem root_names (hslashes : IsSlashes slashes) (h : ∀ name ∈ names, IsName name) :
    root (slashes ++ joinWith '/' names) = slashes :=
  root_append hslashes (isAbsolute_names h)

theorem components_names (hslashes : IsSlashes slashes) (h : ∀ name ∈ names, IsName name) :
    components (slashes ++ joinWith '/' names) = names := by
  cases hslashes with
  | one => exact components_joinWith h
  | two => exact (components_cons_slash (isAbsolute_cons_slash _)).trans (components_joinWith h)

theorem isNormal_names (hslashes : IsSlashes slashes) (h : ∀ name ∈ names, IsName name) :
    IsNormal (slashes ++ joinWith '/' names) := by
  have habsolute : isAbsolute (slashes ++ joinWith '/' names) := by
    cases hslashes with
    | one => exact isAbsolute_cons_slash _
    | two => exact isAbsolute_cons_slash _
  refine ⟨habsolute, ?_⟩
  rw [normalize_eq habsolute, root_names hslashes h, components_names hslashes h]

theorem dirname_names (hslashes : IsSlashes slashes) (h : ∀ name ∈ names, IsName name) :
    dirname (slashes ++ joinWith '/' names) = slashes ++ joinWith '/' names.dropLast := by
  cases hslashes with
  | one => exact dirname_joinWith h
  | two =>
      have hone := dirname_cons_slash (isAbsolute_cons_slash (joinWith '/' names))
      rw [dirname_joinWith h] at hone
      exact hone

theorem basename_names (hslashes : IsSlashes slashes) {name : Text} (h : '/' ∉ name) :
    basename (slashes ++ joinWith '/' (names ++ [name])) = name := by
  cases hslashes with
  | one => exact basename_joinWith h
  | two => exact (basename_cons_slash (isAbsolute_cons_slash _)).trans (basename_joinWith h)

theorem join_names (hslashes : IsSlashes slashes) (h : ∀ name ∈ names, IsName name)
    (hrelative : isAbsolute path = false) :
    join (slashes ++ joinWith '/' names) path = slashes ++ joinWith '/' (names ++ [path]) := by
  cases hslashes with
  | one => exact join_joinWith h hrelative
  | two =>
      have hone := join_cons_slash (isAbsolute_cons_slash (joinWith '/' names)) hrelative
      rw [join_joinWith h hrelative] at hone
      exact hone

end Names

theorem isNormal_normalize (h : isAbsolute path) : IsNormal (normalize path) := by
  rw [normalize_eq h]
  exact isNormal_names (isSlashes_root h) fun _ hname => isName_of_mem_components h hname

theorem root_normalize (h : isAbsolute path) : root (normalize path) = root path := by
  rw [normalize_eq h]
  exact root_names (isSlashes_root h) fun _ hname => isName_of_mem_components h hname

/-! ## The directory of a normal path -/

namespace IsNormal

theorem dirname_eq (h : IsNormal path) :
    dirname path = root path ++ joinWith '/' (components path).dropLast := by
  conv => lhs; rw [h.eq]
  exact dirname_names (isSlashes_root h.isAbsolute) fun _ hname => h.isName hname

theorem isName_dropLast (h : IsNormal path) {name : Text}
    (hname : name ∈ (components path).dropLast) : IsName name :=
  h.isName (List.dropLast_subset _ hname)

theorem dirname (h : IsNormal path) : IsNormal (Path.dirname path) := by
  rw [h.dirname_eq]
  exact isNormal_names (isSlashes_root h.isAbsolute) fun _ => h.isName_dropLast

theorem root_dirname (h : IsNormal path) : root (Path.dirname path) = root path := by
  rw [h.dirname_eq]
  exact root_names (isSlashes_root h.isAbsolute) fun _ => h.isName_dropLast

theorem components_dirname (h : IsNormal path) :
    components (Path.dirname path) = (components path).dropLast := by
  conv => lhs; rw [h.dirname_eq]
  exact components_names (isSlashes_root h.isAbsolute) fun _ => h.isName_dropLast

theorem basename_eq (h : IsNormal path) : basename path = (components path).getLast?.getD [] := by
  have hslashes := isSlashes_root h.isAbsolute
  conv => lhs; rw [h.eq]
  rcases List.eq_nil_or_concat (components path) with hnil | ⟨before, last, hlast⟩
  · rw [hnil]
    generalize root path = slashes at hslashes
    cases hslashes <;> rfl
  · have hname : IsName last := h.isName (by rw [hlast]; simp)
    rw [hlast, List.concat_eq_append, basename_names hslashes hname.not_mem]
    simp

theorem isRoot_iff (h : IsNormal path) : isRoot path ↔ components path = [] := by
  rw [Path.isRoot_iff]
  constructor
  · intro hroot
    have hdrop := h.components_dirname
    rw [hroot] at hdrop
    have hlength := congrArg List.length hdrop
    rw [List.length_dropLast] at hlength
    exact List.eq_nil_of_length_eq_zero (by omega)
  · intro hnil
    refine IsNormal.ext h.dirname h h.root_dirname ?_
    rw [h.components_dirname, hnil]
    rfl

theorem up (h : IsNormal path) (steps : Nat) :
    IsNormal (Path.up path steps) ∧
      (components (Path.up path steps)).length = (components path).length - steps := by
  induction steps with
  | zero => exact ⟨h, rfl⟩
  | succ steps ih =>
      obtain ⟨hnormal, hlength⟩ := ih
      refine ⟨hnormal.dirname, ?_⟩
      rw [Path.up, hnormal.components_dirname, List.length_dropLast, hlength]
      omega

theorem isRoot_up_iff (h : IsNormal path) {steps : Nat} :
    isRoot (Path.up path steps) ↔ (components path).length ≤ steps := by
  obtain ⟨hnormal, hlength⟩ := h.up steps
  rw [hnormal.isRoot_iff, List.eq_nil_iff_length_eq_zero, hlength]
  omega

end IsNormal

/-! ## What is seen from a normal path -/

section Seen

variable {relative : Text}

theorem componentsFrom_of_isName {names : List Text} (hrelative : isAbsolute relative = false)
    (h : ∀ segment ∈ splitOn '/' relative, IsName segment) :
    componentsFrom names relative = names ++ splitOn '/' relative := by
  rw [componentsFrom, hrelative, foldl_push_of_isName true h]
  simp

theorem join_eq (h : IsNormal path) (hrelative : isAbsolute relative = false) :
    join path relative = root path ++ joinWith '/' (components path ++ [relative]) := by
  conv => lhs; rw [h.eq]
  exact join_names (isSlashes_root h.isAbsolute) (fun _ hname => h.isName hname) hrelative

theorem root_join (h : IsNormal path) (hrelative : isAbsolute relative = false) :
    root (join path relative) = root path := by
  rw [join_eq h hrelative]
  refine root_append (isSlashes_root h.isAbsolute) (isAbsolute_joinWith (fun name hname => ?_)
    hrelative)
  exact ⟨(h.isName hname).ne_nil, (h.isName hname).not_mem⟩

theorem components_join (h : IsNormal path) (hrelative : isAbsolute relative = false) :
    components (join path relative) = componentsFrom (components path) relative := by
  have hslashes := isSlashes_root h.isAbsolute
  have hone := components_joinWith_concat (fun _ hname => h.isName hname) hrelative
  rw [join_eq h hrelative]
  generalize root path = slashes at hslashes
  cases hslashes with
  | one => exact hone
  | two => exact (components_cons_slash (isAbsolute_cons_slash _)).trans hone

theorem isName_concat (h : IsNormal path) {name : Text} (hname : IsName name) :
    ∀ other ∈ components path ++ [name], IsName other := by
  intro other hother
  rcases List.mem_append.1 hother with hother | hother
  · exact h.isName hother
  · exact List.mem_singleton.1 hother ▸ hname

theorem isNormal_join {name : Text} (h : IsNormal path) (hname : IsName name) :
    IsNormal (join path name) := by
  rw [join_eq h (isAbsolute_of_not_mem hname.not_mem)]
  exact isNormal_names (isSlashes_root h.isAbsolute) (isName_concat h hname)

theorem components_join_name {name : Text} (h : IsNormal path) (hname : IsName name) :
    components (join path name) = components path ++ [name] := by
  rw [join_eq h (isAbsolute_of_not_mem hname.not_mem)]
  exact components_names (isSlashes_root h.isAbsolute) (isName_concat h hname)

/-- What is seen from a directory that is no root is in normal form exactly if no segment of it is
dropped and none goes up. -/
theorem normalize_join_eq_iff (h : IsNormal path) (hroot : isRoot path = false)
    (hrelative : isAbsolute relative = false) :
    normalize (join path relative) = join path relative ↔
      ∀ segment ∈ splitOn '/' relative, IsName segment := by
  have habsolute := isAbsolute_join h.isAbsolute relative
  have hne : components path ≠ [] := fun hnil => Bool.eq_false_iff.1 hroot (h.isRoot_iff.2 hnil)
  have hsplit := splitOn_joinWith_concat (fun _ hname => h.isName hname) relative
  have hcomponents := components_join h hrelative
  rw [normalize_eq habsolute, root_join h hrelative, hcomponents, join_eq h hrelative,
    List.append_cancel_left_eq]
  constructor
  · intro heq segment hsegment
    have hnames : ∀ name ∈ componentsFrom (components path) relative, IsName name :=
      fun name hname => isName_of_mem_components habsolute (hcomponents.symm ▸ hname)
    rw [← heq] at hsplit
    have hnonempty : componentsFrom (components path) relative ≠ [] := by
      intro hnil
      rw [hnil] at hsplit
      have hlength := congrArg List.length hsplit
      rw [List.length_append] at hlength
      have hdirectory := List.length_pos_iff.2 hne
      have hrest := List.length_pos_iff.2 (Text.splitOn_ne_nil '/' relative)
      have hone : (splitOn '/' (joinWith '/' [])).length = 1 := rfl
      omega
    rw [Text.splitOn_joinWith hnonempty fun name hname => (hnames name hname).not_mem] at hsplit
    exact hnames segment (by rw [hsplit]; exact List.mem_append_right _ hsegment)
  · intro hnames
    rw [componentsFrom_of_isName hrelative hnames,
      Text.joinWith_append hne (Text.splitOn_ne_nil '/' relative), Text.joinWith_splitOn,
      Text.joinWith_append hne (List.cons_ne_nil _ _)]
    rfl

end Seen

/-! ## Ancestors -/

/-- The directory is above the path: it has the same root and the first of the names, but not all
of them. -/
structure IsAncestor (directory path : Text) : Prop where
  isNormal : IsNormal directory
  root_eq : root directory = root path
  isBelow : IsBelow directory path

theorem IsBelow.length_lt (h : IsBelow directory path) :
    (components directory).length < (components path).length := by
  obtain ⟨names, hne, hnames⟩ := h
  rw [hnames, List.length_append]
  have hpos := List.length_pos_iff.2 hne
  omega

theorem isAncestor_dirname (h : IsNormal path) (hroot : isRoot path = false) :
    IsAncestor (dirname path) path := by
  have hne : components path ≠ [] := fun hnil =>
    Bool.eq_false_iff.1 hroot (h.isRoot_iff.2 hnil)
  refine ⟨h.dirname, h.root_dirname, [(components path).getLast hne], by simp, ?_⟩
  rw [h.components_dirname, List.dropLast_concat_getLast]

theorem isAncestor_iff (h : IsNormal path) (hroot : isRoot path = false) :
    IsAncestor directory path ↔ directory = dirname path ∨ IsAncestor directory (dirname path) := by
  constructor
  · rintro ⟨hnormal, hroots, names, hne, hnames⟩
    obtain ⟨before, last, rfl⟩ := (List.eq_nil_or_concat names).resolve_left hne
    have hdrop : components (dirname path) = components directory ++ before := by
      rw [h.components_dirname, hnames, List.concat_eq_append, ← List.append_assoc,
        List.dropLast_concat]
    by_cases hbefore : before = []
    · left
      rw [hbefore, List.append_nil] at hdrop
      exact IsNormal.ext hnormal h.dirname (hroots.trans h.root_dirname.symm) hdrop.symm
    · exact .inr ⟨hnormal, hroots.trans h.root_dirname.symm, before, hbefore, hdrop⟩
  · rintro (rfl | ⟨hnormal, hroots, names, hne, hnames⟩)
    · exact isAncestor_dirname h hroot
    · obtain ⟨-, -, last, -, hlast⟩ := isAncestor_dirname h hroot
      refine ⟨hnormal, hroots.trans h.root_dirname, names ++ last, by simp [hne], ?_⟩
      rw [hlast, hnames, List.append_assoc]

theorem exists_isAncestor (h : IsNormal path) {before after : List Text}
    (hnames : components path = before ++ after) (hne : after ≠ []) :
    ∃ directory, IsAncestor directory path ∧ components directory = before := by
  have hslashes := isSlashes_root h.isAbsolute
  have hbefore : ∀ name ∈ before, IsName name := fun name hname =>
    h.isName (by rw [hnames]; exact List.mem_append_left _ hname)
  have hcomponents := components_names hslashes hbefore
  refine ⟨root path ++ joinWith '/' before, ⟨isNormal_names hslashes hbefore,
    root_names hslashes hbefore, after, hne, ?_⟩, hcomponents⟩
  rw [hcomponents, hnames]

theorem mem_ancestors_iff (h : IsNormal path) :
    directory ∈ ancestors path ↔ IsAncestor directory path := by
  induction path using ancestors.induct with
  | case1 path hroot =>
      have hnil := h.isRoot_iff.1 (isRoot_iff.2 hroot)
      rw [ancestors_of_isRoot (isRoot_iff.2 hroot)]
      refine iff_of_false List.not_mem_nil fun habove => ?_
      have hlt := habove.isBelow.length_lt
      rw [hnil] at hlt
      exact Nat.not_lt_zero _ hlt
  | case2 path hroot ih =>
      have hroot : isRoot path = false := Bool.eq_false_iff.2 fun he => hroot (isRoot_iff.1 he)
      rw [ancestors_of_not_isRoot hroot, List.mem_cons, ih h.dirname, isAncestor_iff h hroot]

theorem pairwise_ancestors (h : IsNormal path) :
    (ancestors path).Pairwise fun nearer farther => IsBelow farther nearer := by
  induction path using ancestors.induct with
  | case1 path hroot =>
      rw [ancestors_of_isRoot (isRoot_iff.2 hroot)]
      exact List.Pairwise.nil
  | case2 path hroot ih =>
      have hroot : isRoot path = false := Bool.eq_false_iff.2 fun he => hroot (isRoot_iff.1 he)
      rw [ancestors_of_not_isRoot hroot]
      refine List.Pairwise.cons (fun farther hf => ?_) (ih h.dirname)
      exact ((mem_ancestors_iff h.dirname).1 hf).isBelow

theorem nodup_ancestors (h : IsNormal path) : (ancestors path).Nodup :=
  (pairwise_ancestors h).imp fun hbelow heq => by
    subst heq
    exact Nat.lt_irrefl _ hbelow.length_lt

/-! ## A name in a directory -/

section Name

variable {name : Text} (h : isAbsolute path) (hname : IsName name)

include h hname

theorem components_join_of_isName : components (join path name) = components path ++ [name] := by
  have hjoin := isAbsolute_join h name
  have hpush : ∀ stack, (splitOn '/' name).foldl (push true) stack = name :: stack := fun stack => by
    rw [Text.splitOn_of_not_mem hname.not_mem, List.foldl_cons, push_of_isName hname]
    rfl
  have hstack : stackOf (join path name) = name :: stackOf path := by
    unfold stackOf
    rw [hjoin, h]
    unfold join at hjoin ⊢
    rw [isAbsolute_of_not_mem hname.not_mem, if_neg Bool.false_ne_true]
    by_cases hend : "/".toList.isSuffixOf path
    · obtain ⟨before, rfl⟩ := List.isSuffixOf_iff_suffix.1 hend
      have hlast : ∀ stack : List Text, (splitOn '/' []).foldl (push true) stack = stack :=
        fun _ => rfl
      rw [if_pos (by rw [hend, Bool.or_true]), List.append_assoc]
      show (splitOn '/' (before ++ '/' :: name)).foldl _ _ =
        name :: (splitOn '/' (before ++ '/' :: [])).foldl _ _
      rw [Text.splitOn_append_cons, Text.splitOn_append_cons, List.foldl_append,
        List.foldl_append, hpush, hlast]
    · obtain ⟨rest, rfl⟩ := isAbsolute_iff.1 h
      rw [Bool.not_eq_true] at hend
      rw [hend, if_neg (by simp), Text.splitOn_append_cons, List.foldl_append, hpush]
  rw [components, hstack, List.reverse_cons]
  rfl

theorem root_join_of_isName : root (join path name) = root path := by
  have hrelative := isAbsolute_of_not_mem hname.not_mem
  obtain ⟨c, others, rfl⟩ := List.exists_cons_of_ne_nil hname.ne_nil
  have hc : c ≠ '/' := fun he => hname.not_mem (he ▸ List.mem_cons_self)
  obtain ⟨rest, rfl⟩ := isAbsolute_iff.1 h
  unfold join
  rw [hrelative, if_neg Bool.false_ne_true]
  cases rest with
  | nil => simp [root, hc]
  | cons d more =>
      by_cases hd : d = '/'
      · subst hd
        cases more with
        | nil => simp [root, hc]
        | cons e last =>
            by_cases he : e = '/'
            · subst he
              split <;> rfl
            · split <;> simp [root, he]
      · split <;> simp [root, hd]

theorem ancestors_join_of_isName :
    ancestors (normalize (join path name)) = normalize path :: ancestors (normalize path) := by
  have hjoin := isNormal_normalize (isAbsolute_join h name)
  have hnormal := isNormal_normalize h
  have hcomponents : components (normalize (join path name)) = components path ++ [name] := by
    rw [components_normalize (isAbsolute_join h name), components_join_of_isName h hname]
  have hroot : isRoot (normalize (join path name)) = false := by
    refine Bool.eq_false_iff.2 fun he => ?_
    rw [hjoin.isRoot_iff, hcomponents] at he
    simp at he
  have hdirname : dirname (normalize (join path name)) = normalize path := by
    refine IsNormal.ext hjoin.dirname hnormal ?_ ?_
    · rw [hjoin.root_dirname, root_normalize (isAbsolute_join h name), root_normalize h,
        root_join_of_isName h hname]
    · rw [hjoin.components_dirname, hcomponents, List.dropLast_concat, components_normalize h]
  rw [ancestors_of_not_isRoot hroot, hdirname]

end Name

end Path

end ModuleResolution
