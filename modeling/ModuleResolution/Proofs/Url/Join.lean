import ModuleResolution.Proofs.Url.File

/-!
# References and where they lead

A relative path is walked segment by segment from the directory of the base.  The walk never climbs
over the root, and what comes out is a local file URL with the query and fragment of the reference.
-/

namespace ModuleResolution

namespace Url

open Text (cut splitOn joinWith)

/-! ## The parts of a relative reference -/

def referencePath (reference : Text) : Text :=
  (cut '?' (cut '#' (clean reference)).1).1

/-- The query of a reference. -/
def referenceQuery (reference : Text) : Text :=
  (cut '?' (cut '#' (clean reference)).1).2.getD []

def referenceFragment (reference : Text) : Text :=
  (cut '#' (clean reference)).2.getD []

theorem isPlain_of_mem_referencePath {reference : Text} {c : Char}
    (h : c ∈ referencePath reference) : isPlain c := by
  have hquestion : c ≠ '?' := fun he => Text.not_mem_cut_fst '?' _ (he ▸ h)
  have hcut := (Text.cut_fst_isPrefix '?' _).subset h
  have hhash : c ≠ '#' := fun he => Text.not_mem_cut_fst '#' _ (he ▸ hcut)
  have hbreak := not_isBreak_of_mem_clean ((Text.cut_fst_isPrefix '#' _).subset hcut)
  simp [isPlain, hbreak, hquestion, hhash]

theorem not_isBreak_of_mem_referenceQuery {reference : Text} {c : Char}
    (h : c ∈ referenceQuery reference) : isBreak c = false :=
  not_isBreak_of_mem_clean
    ((Text.cut_fst_isPrefix '#' _).subset ((Text.cut_snd_isSuffix '?' _).subset h))

theorem hash_not_mem_referenceQuery (reference : Text) : '#' ∉ referenceQuery reference :=
  fun h => Text.not_mem_cut_fst '#' _ ((Text.cut_snd_isSuffix '?' _).subset h)

theorem not_isBreak_of_mem_referenceFragment {reference : Text} {c : Char}
    (h : c ∈ referenceFragment reference) : isBreak c = false :=
  not_isBreak_of_mem_clean ((Text.cut_snd_isSuffix '#' _).subset h)

theorem splitFrom_reference (scheme : Text) {reference : Text}
    (hscheme : scheme? (clean reference) = none)
    (hauthority : cutAuthority (clean reference) = ([], clean reference)) :
    splitFrom scheme reference =
      .ok ⟨scheme, [], referencePath reference, referenceQuery reference,
        referenceFragment reference⟩ := by
  unfold splitFrom
  simp only [hscheme, hauthority]
  rfl

/-! ## What both sides are read as -/

def Reference.IsRelativeTo (target source : Reference) : Prop :=
  target.parts.scheme = source.parts.scheme ∧ target.parts.scheme ∈ relativeSchemes

instance (target source : Reference) : Decidable (target.IsRelativeTo source) :=
  inferInstanceAs (Decidable (_ ∧ _))

def Reference.seenFrom (target source : Reference) : Reference :=
  if target.parts.authority ≠ [] then target
  else if target.parts.path = [] ∧ target.parameters = [] then
    { source with
      parts.query := if target.parts.query = [] then source.parts.query else target.parts.query
      parts.fragment := target.parts.fragment }
  else
    { target with
      parts.authority := source.parts.authority
      parts.path := joinPath source.parts.path target.parts.path }

section Read

variable {base reference url : Text} {source target : Reference}

theorem Reference.of_read_eq_ok {scheme text : Text} (h : Reference.read scheme text = .ok target) :
    ∃ parts, splitFrom scheme text = .ok parts ∧ (target = ⟨parts, []⟩ ∨
      target = ⟨{ parts with path := (cutParameters parts.path).1 },
        (cutParameters parts.path).2⟩) := by
  unfold Reference.read at h
  cases hsplit : splitFrom scheme text with
  | error cause =>
      rw [hsplit] at h
      cases h
  | ok parts =>
      rw [hsplit] at h
      simp only [bind, Except.bind] at h
      split at h
      · exact ⟨parts, rfl, .inr (Except.ok.inj h).symm⟩
      · exact ⟨parts, rfl, .inl (Except.ok.inj h).symm⟩

theorem Reference.scheme_seenFrom (h : target.IsRelativeTo source) :
    (target.seenFrom source).parts.scheme = target.parts.scheme := by
  unfold seenFrom
  split
  · rfl
  split
  · exact h.1.symm
  · rfl

theorem joinReference_nil (base : Text) : joinReference base [] = .ok base := by
  cases base <;> rfl

theorem joinReference_of_read (hbase : base ≠ []) (hreference : reference ≠ [])
    (hsource : Reference.read [] base = .ok source) :
    joinReference base reference = (Reference.read source.parts.scheme reference).map fun target =>
      if target.IsRelativeTo source then (target.seenFrom source).toText else reference := by
  unfold joinReference
  rw [List.isEmpty_eq_false_iff.2 hbase, List.isEmpty_eq_false_iff.2 hreference, hsource]
  simp only [bind, Except.bind, Bool.false_eq_true, if_false]
  cases Reference.read source.parts.scheme reference with
  | error cause => rfl
  | ok target =>
      have hother : (target.parts.scheme ≠ source.parts.scheme ∨
          (!relativeSchemes.contains target.parts.scheme) = true) ↔
            ¬target.IsRelativeTo source := by
        rw [Reference.IsRelativeTo, Decidable.not_and_iff_not_or_not, Bool.not_eq_true',
          ← Bool.not_eq_true, List.contains_iff_mem]
      simp only [hother, Except.map, ite_not, pure, Except.pure]
      by_cases hrelative : target.IsRelativeTo source
      · rw [if_pos hrelative, if_pos hrelative, Reference.seenFrom]
        by_cases hauthority : target.parts.authority = []
        · by_cases hpath : target.parts.path = [] ∧ target.parameters = []
          · simp [hauthority, hpath, hrelative.1]
          · simp [hauthority, hpath]
        · simp [hauthority]
      · rw [if_neg hrelative, if_neg hrelative]

theorem joinReference_of_read_eq_error {cause : SyntaxError} (hbase : base ≠ [])
    (hreference : reference ≠ []) (hsource : Reference.read [] base = .error cause) :
    joinReference base reference = .error cause := by
  unfold joinReference
  rw [List.isEmpty_eq_false_iff.2 hbase, List.isEmpty_eq_false_iff.2 hreference, hsource]
  rfl

theorem joinReference_of_isRelativeTo (hbase : base ≠ []) (hreference : reference ≠ [])
    (hsource : Reference.read [] base = .ok source)
    (htarget : Reference.read source.parts.scheme reference = .ok target)
    (h : target.IsRelativeTo source) :
    joinReference base reference = .ok (target.seenFrom source).toText := by
  rw [joinReference_of_read hbase hreference hsource, htarget, Except.map, if_pos h]

theorem joinReference_of_not_isRelativeTo (hbase : base ≠ []) (hreference : reference ≠ [])
    (hsource : Reference.read [] base = .ok source)
    (htarget : Reference.read source.parts.scheme reference = .ok target)
    (h : ¬target.IsRelativeTo source) : joinReference base reference = .ok reference := by
  rw [joinReference_of_read hbase hreference hsource, htarget, Except.map, if_neg h]

theorem of_joinReference_eq_ok (h : joinReference base reference = .ok url) :
    url = reference ∨ (reference = [] ∧ url = base) ∨
      ∃ source target, Reference.read [] base = .ok source ∧
        Reference.read source.parts.scheme reference = .ok target ∧
        target.IsRelativeTo source ∧ url = (target.seenFrom source).toText := by
  by_cases hreference : reference = []
  · subst hreference
    rw [joinReference_nil] at h
    exact .inr (.inl ⟨rfl, (Except.ok.inj h).symm⟩)
  by_cases hbase : base = []
  · subst hbase
    exact .inl (Except.ok.inj h).symm
  cases hsource : Reference.read [] base with
  | error cause =>
      rw [joinReference_of_read_eq_error hbase hreference hsource] at h
      cases h
  | ok source =>
      rw [joinReference_of_read hbase hreference hsource] at h
      cases htarget : Reference.read source.parts.scheme reference with
      | error cause =>
          rw [htarget] at h
          cases h
      | ok target =>
          rw [htarget] at h
          by_cases hrelative : target.IsRelativeTo source
          · rw [Except.map, if_pos hrelative] at h
            exact .inr (.inr ⟨source, target, rfl, htarget, hrelative, (Except.ok.inj h).symm⟩)
          · rw [Except.map, if_neg hrelative] at h
            exact .inl (Except.ok.inj h).symm

end Read

/-! ## Walks -/

/-- Two stacks that differ at most in the mark of the root, which is an empty segment at the
bottom. -/
def SameWalk (marked stack : List Text) : Prop :=
  marked = stack ++ [[]] ∨ marked = stack

theorem SameWalk.cons {marked stack : List Text} (h : SameWalk marked stack) (segment : Text) :
    SameWalk (segment :: marked) (segment :: stack) := by
  rcases h with rfl | rfl
  · exact .inl rfl
  · exact .inr rfl

theorem SameWalk.step {marked stack : List Text} (h : SameWalk marked stack) (segment : Text) :
    SameWalk (walk marked segment) (walk stack segment) := by
  unfold walk
  split
  · rcases h with rfl | rfl
    · cases stack with
      | nil => exact .inr rfl
      | cons top below => exact .inl rfl
    · exact .inr rfl
  · split
    · exact h
    · exact h.cons segment

theorem SameWalk.run {marked stack : List Text} (h : SameWalk marked stack)
    (segments : List Text) : SameWalk (segments.foldl walk marked) (segments.foldl walk stack) :=
  List.foldl_rel h fun segment _ _ _ hs => hs.step segment

theorem walk_of_isName {segment : Text} (h : Path.IsName segment) (stack : List Text) :
    walk stack segment = segment :: stack := by
  rw [walk, if_neg h.ne_up, if_neg h.ne_dot]

theorem foldl_walk_of_isName {segments : List Text} (h : ∀ segment ∈ segments, Path.IsName segment)
    (stack : List Text) : segments.foldl walk stack = segments.reverse ++ stack := by
  induction segments generalizing stack with
  | nil => rfl
  | cons first rest ih =>
      have hrest := ih (fun other ho => h other (List.mem_cons_of_mem _ ho)) (first :: stack)
      rw [List.foldl_cons, walk_of_isName (h first List.mem_cons_self), hrest, List.reverse_cons,
        List.append_assoc, List.singleton_append]

theorem mem_foldl_walk {segments stack : List Text} {segment : Text}
    (h : segment ∈ segments.foldl walk stack) : segment ∈ stack ∨ segment ∈ segments := by
  induction segments generalizing stack with
  | nil => exact .inl h
  | cons first rest ih =>
      rcases ih h with hs | hs
      · unfold walk at hs
        split at hs
        · exact .inl (List.mem_of_mem_tail hs)
        · split at hs
          · exact .inl hs
          · rcases List.mem_cons.1 hs with rfl | hs
            · exact .inr List.mem_cons_self
            · exact .inl hs
      · exact .inr (List.mem_cons_of_mem _ hs)

/-! ## Landings -/

def isFilled (segment : Text) : Bool :=
  !segment.isEmpty

/-- The stack that a path leads to from a directory.  Empty segments do not count, but behind a
directory one is put on top. -/
def landingStack (directory path : List Text) : List Text :=
  let stack := (path.filter isFilled).foldl walk directory.reverse
  if path.getLast? = some [] ∨ path.getLast? = some ".".toList ∨
      path.getLast? = some "..".toList then
    [] :: stack
  else stack

def landing (directory path : List Text) : List Text :=
  (landingStack directory path).reverse

section Landing

variable {directory path : List Text}

theorem mem_landingStack {segment : Text} (h : segment ∈ landingStack directory path) :
    segment = [] ∨ segment ∈ directory ∨ (segment ≠ [] ∧ segment ∈ path) := by
  have hwalk : segment ∈ (path.filter isFilled).foldl walk directory.reverse ->
      segment ∈ directory ∨ (segment ≠ [] ∧ segment ∈ path) := by
    intro hs
    rcases mem_foldl_walk hs with hs | hs
    · exact .inl (List.mem_reverse.1 hs)
    · obtain ⟨hmem, hfilled⟩ := List.mem_filter.1 hs
      exact .inr ⟨by simpa [isFilled] using hfilled, hmem⟩
  unfold landingStack at h
  simp only at h
  split at h
  · rcases List.mem_cons.1 h with h | h
    · exact .inl h
    · exact .inr (hwalk h)
  · exact .inr (hwalk h)

theorem landing_eq (hdirectory : ∀ segment ∈ directory, segment ≠ []) (hpath : path ≠ []) :
    ∃ before last, landing directory path = before ++ [last] ∧ ∀ segment ∈ before, segment ≠ [] := by
  have hfilled : ∀ segment ∈ (path.filter isFilled).foldl walk directory.reverse, segment ≠ [] := by
    intro segment hs
    rcases mem_foldl_walk hs with hs | hs
    · exact hdirectory segment (List.mem_reverse.1 hs)
    · simpa [isFilled] using (List.mem_filter.1 hs).2
  unfold landing landingStack
  simp only
  split
  · exact ⟨_, [], List.reverse_cons, fun segment hs => hfilled segment (List.mem_reverse.1 hs)⟩
  · next hend =>
      obtain ⟨before, last, hpath⟩ : ∃ before last, path = before ++ [last] :=
        ⟨path.dropLast, path.getLast hpath, (List.dropLast_concat_getLast hpath).symm⟩
      have hlast : path.getLast? = some last := by rw [hpath, List.getLast?_concat]
      have hname : last ≠ [] ∧ last ≠ ".".toList ∧ last ≠ "..".toList := by
        rw [hlast] at hend
        refine ⟨fun he => hend (.inl (by rw [he])), fun he => hend (.inr (.inl (by rw [he]))),
          fun he => hend (.inr (.inr (by rw [he])))⟩
      have hkept : path.filter isFilled = before.filter isFilled ++ [last] := by
        rw [hpath, List.filter_append]
        simp [isFilled, hname.1]
      have hwalk : (path.filter isFilled).foldl walk directory.reverse =
          last :: (before.filter isFilled).foldl walk directory.reverse := by
        rw [hkept, List.foldl_append, List.foldl_cons, List.foldl_nil, walk, if_neg hname.2.2,
          if_neg hname.2.1]
      rw [hwalk] at hfilled ⊢
      exact ⟨_, last, List.reverse_cons, fun segment hs =>
        hfilled segment (List.mem_cons_of_mem _ (List.mem_reverse.1 hs))⟩

theorem landing_ne_nil (hdirectory : ∀ segment ∈ directory, segment ≠ []) (hpath : path ≠ []) :
    landing directory path ≠ [] := by
  obtain ⟨before, last, hlanding, -⟩ := landing_eq hdirectory hpath
  rw [hlanding]
  exact List.append_ne_nil_of_right_ne_nil before (List.cons_ne_nil last [])

theorem landing_nil_cons (hpath : path ≠ []) :
    landing directory ([] :: path) = landing directory path := by
  have hfilter : ([] :: path).filter isFilled = path.filter isFilled := rfl
  unfold landing landingStack
  simp only [hfilter, List.getLast?_cons_of_ne_nil hpath]

end Landing

/-! ## Paths of segments -/

def segmentStack (segments : List Text) : List Text :=
  let stack := segments.foldl walk []
  if segments.getLast? = some ".".toList ∨ segments.getLast? = some "..".toList then [] :: stack
  else stack

theorem withoutInnerEmpty_cons (first : Text) {others : List Text} (h : others ≠ []) :
    withoutInnerEmpty (first :: others) =
      first :: (others.dropLast.filter isFilled ++ [others.getLast h]) := by
  cases others with
  | nil => exact absurd rfl h
  | cons second rest => rfl

theorem sameWalk_segmentStack {base directory path : List Text}
    (hbase : base.filter isFilled = directory)
    (hdirectory : ∀ segment ∈ directory, Path.IsName segment) (hpath : path ≠ []) :
    SameWalk (segmentStack (withoutInnerEmpty ([] :: (base ++ path))))
      (landingStack directory path) := by
  obtain ⟨before, last, rfl⟩ : ∃ before last, path = before ++ [last] :=
    ⟨path.dropLast, path.getLast hpath, (List.dropLast_concat_getLast hpath).symm⟩
  have hsegments : withoutInnerEmpty ([] :: (base ++ (before ++ [last]))) =
      [] :: (directory ++ before.filter isFilled ++ [last]) := by
    rw [withoutInnerEmpty_cons [] (by simp)]
    simp [← List.append_assoc, hbase]
  have hstart : SameWalk ((([] : Text) :: directory).foldl walk []) directory.reverse := by
    left
    rw [List.foldl_cons, foldl_walk_of_isName hdirectory]
    rfl
  have hbefore := hstart.run (before.filter isFilled)
  have hfold : (([] : Text) :: (directory ++ before.filter isFilled ++ [last])).foldl walk [] =
      walk ((before.filter isFilled).foldl walk ((([] : Text) :: directory).foldl walk [])) last := by
    rw [← List.cons_append, ← List.cons_append, List.foldl_append, List.foldl_append]
    rfl
  have hlast : (([] : Text) :: (directory ++ before.filter isFilled ++ [last])).getLast? =
      some last := by
    rw [← List.cons_append, List.getLast?_concat]
  rw [hsegments]
  unfold segmentStack landingStack
  simp only [hlast, hfold, List.getLast?_concat, List.filter_append, List.foldl_append,
    Option.some.injEq]
  revert hbefore
  generalize (before.filter isFilled).foldl walk ((([] : Text) :: directory).foldl walk []) = marked
  generalize (before.filter isFilled).foldl walk directory.reverse = stack
  intro hbefore
  by_cases hempty : last = []
  · subst hempty
    exact hbefore.cons []
  · have hfilled : [last].filter isFilled = [last] := by simp [isFilled, hempty]
    have hstep := hbefore.step last
    simp only [hfilled, hempty, false_or, List.foldl_cons, List.foldl_nil]
    split
    · exact hstep.cons []
    · exact hstep

def rooted (path : Text) : Text :=
  if path.isEmpty || "/".toList.isPrefixOf path then path else '/' :: path

theorem rooted_pathOfSegments {segments before : List Text} {last : Text}
    (h : SameWalk (segmentStack segments) (before ++ [last]).reverse)
    (hbefore : ∀ segment ∈ before, segment ≠ [])
    (hslash : ∀ segment ∈ before ++ [last], '/' ∉ segment) :
    rooted (pathOfSegments segments) = '/' :: joinWith '/' (before ++ [last]) ∧
      "//".toList.isPrefixOf (pathOfSegments segments) = false := by
  have hrelative : "/".toList.isPrefixOf (joinWith '/' (before ++ [last])) = false :=
    Path.isAbsolute_joinWith
      (fun segment hs => ⟨hbefore segment hs, hslash segment (List.mem_append_left _ hs)⟩)
      (Path.isAbsolute_of_not_mem (hslash last (by simp)))
  have hpath : pathOfSegments segments =
      if (joinWith '/' (segmentStack segments).reverse).isEmpty then ['/']
      else joinWith '/' (segmentStack segments).reverse := rfl
  have hdouble : ∀ path : Text, "/".toList.isPrefixOf path = false ->
      "//".toList.isPrefixOf path = false ∧ "//".toList.isPrefixOf ('/' :: path) = false := by
    intro path hp
    cases path with
    | nil => exact ⟨rfl, rfl⟩
    | cons c rest =>
        rw [Path.isPrefixOf_slash_cons] at hp
        refine ⟨by rw [Path.isPrefixOf_slashes_cons, hp, Bool.false_and], ?_⟩
        rw [Path.isPrefixOf_slashes_cons, Path.isPrefixOf_slash_cons, hp, Bool.and_false]
  rcases h with h | h
  · have hjoin : joinWith '/' (segmentStack segments).reverse =
        '/' :: joinWith '/' (before ++ [last]) := by
      rw [h, List.reverse_append, List.reverse_reverse]
      show joinWith '/' (([] : Text) :: (before ++ [last])) = _
      cases hrest : before ++ [last] with
      | nil => simp at hrest
      | cons second rest => rfl
    rw [hpath, hjoin]
    exact ⟨by simp [rooted], (hdouble _ hrelative).2⟩
  · have hjoin : joinWith '/' (segmentStack segments).reverse = joinWith '/' (before ++ [last]) := by
      rw [h, List.reverse_reverse]
    rw [hpath, hjoin]
    cases hempty : joinWith '/' (before ++ [last]) with
    | nil => exact ⟨rfl, rfl⟩
    | cons c rest =>
        rw [hempty] at hrelative
        refine ⟨?_, (hdouble _ hrelative).1⟩
        show rooted (c :: rest) = _
        rw [rooted, hrelative]
        rfl

/-! ## Joining -/

theorem toText_file {path : Text} (h : "//".toList.isPrefixOf path = false) (query fragment : Text) :
    Parts.toText ⟨"file".toList, [], path, query, fragment⟩ =
      "file://".toList ++ rooted path ++ ending query fragment := by
  have hfile : authoritySchemes.contains "file".toList = true := by decide
  have hpath : "file".toList ++ ':' :: ("//".toList ++ [] ++ rooted path) =
      "file://".toList ++ rooted path := rfl
  have hparts : Parts.toText ⟨"file".toList, [], path, query, fragment⟩ =
      let url := "file://".toList ++ rooted path
      let url := if query.isEmpty then url else url ++ '?' :: query
      if fragment.isEmpty then url else url ++ '#' :: fragment := by
    unfold Parts.toText
    simp only [hfile, h, List.isEmpty_nil, Bool.not_true, Bool.not_false, Bool.and_self,
      Bool.or_true, if_true]
    rw [← hpath]
    rfl
  rw [hparts]
  cases query with
  | nil =>
      cases fragment with
      | nil => simp [ending]
      | cons c rest => simp [ending]
  | cons d others =>
      cases fragment with
      | nil => simp [ending]
      | cons c rest => simp [ending]

def directorySegments (path : Text) : List Text :=
  (baseSegments path).filter isFilled

theorem splitOn_cons_slash (rest : Text) : splitOn '/' ('/' :: rest) = [] :: splitOn '/' rest := by
  rw [splitOn, if_pos rfl]

theorem baseSegments_cons_slash (rest : Text) :
    ∃ middle, baseSegments ('/' :: rest) = [] :: middle ∧
      middle.filter isFilled = directorySegments ('/' :: rest) := by
  obtain ⟨middle, hmiddle⟩ : ∃ middle, baseSegments ('/' :: rest) = [] :: middle := by
    unfold baseSegments
    simp only [splitOn_cons_slash]
    split
    · exact ⟨_, rfl⟩
    · cases hs : splitOn '/' rest with
      | nil => exact absurd hs (Text.splitOn_ne_nil '/' rest)
      | cons first others => exact ⟨_, rfl⟩
  refine ⟨middle, hmiddle, ?_⟩
  rw [directorySegments, hmiddle]
  rfl

theorem directorySegments_concat {names : List Text} (h : ∀ name ∈ names, Path.IsName name)
    {last : Text} (hlast : '/' ∉ last) :
    directorySegments ('/' :: joinWith '/' (names ++ [last])) = names := by
  have hsplit : splitOn '/' (joinWith '/' (names ++ [last])) = names ++ [last] := by
    refine Text.splitOn_joinWith (by simp) fun segment hs => ?_
    rcases List.mem_append.1 hs with hs | hs
    · exact (h segment hs).not_mem
    · rwa [List.mem_singleton.1 hs]
  have hend : (([] : Text) :: (names ++ [last])).getLast? = some last := by
    rw [← List.cons_append, List.getLast?_concat]
  have hfilled : names.filter isFilled = names :=
    List.filter_eq_self.2 fun name hn => by simpa [isFilled] using (h name hn).ne_nil
  have hnil : [([] : Text)].filter isFilled = [] := rfl
  unfold directorySegments baseSegments
  simp only [splitOn_cons_slash, hsplit, hend, Option.some.injEq]
  split
  · next hempty =>
      rw [hempty, ← List.singleton_append, List.filter_append, List.filter_append, hnil, hfilled,
        List.append_nil, List.nil_append]
  · rw [← List.cons_append, List.dropLast_concat, ← List.singleton_append, List.filter_append, hnil,
      hfilled, List.nil_append]

theorem directorySegments_names {names : List Text} (h : ∀ name ∈ names, Path.IsName name) :
    directorySegments ('/' :: joinWith '/' names) = names.dropLast := by
  by_cases hne : names = []
  · subst hne
    rfl
  · have hlast := (h _ (List.getLast_mem hne)).not_mem
    have hconcat := directorySegments_concat
      (fun name hn => h name (List.dropLast_subset names hn)) hlast
    rwa [List.dropLast_concat_getLast] at hconcat

theorem slash_not_mem_landing {directory : List Text}
    (hdirectory : ∀ segment ∈ directory, Path.IsName segment) {path segment : Text}
    (h : segment ∈ landing directory (splitOn '/' path)) : '/' ∉ segment := by
  rcases mem_landingStack (List.mem_reverse.1 h) with rfl | hs | ⟨_, hs⟩
  · exact List.not_mem_nil
  · exact (hdirectory segment hs).not_mem
  · exact Text.not_mem_of_mem_splitOn hs

theorem rooted_pathOfSegments_landing {base directory : List Text}
    (hbase : base.filter isFilled = directory)
    (hdirectory : ∀ segment ∈ directory, Path.IsName segment) (path : Text) :
    rooted (pathOfSegments (withoutInnerEmpty ([] :: (base ++ splitOn '/' path)))) =
        '/' :: joinWith '/' (landing directory (splitOn '/' path)) ∧
      "//".toList.isPrefixOf (pathOfSegments
        (withoutInnerEmpty ([] :: (base ++ splitOn '/' path)))) = false := by
  have hwalk := sameWalk_segmentStack hbase hdirectory (Text.splitOn_ne_nil '/' path)
  obtain ⟨before, last, hlanding, hbefore⟩ :=
    landing_eq (fun segment hs => (hdirectory segment hs).ne_nil) (Text.splitOn_ne_nil '/' path)
  have hstack : landingStack directory (splitOn '/' path) = (before ++ [last]).reverse := by
    rw [← hlanding, landing, List.reverse_reverse]
  rw [hstack] at hwalk
  rw [hlanding]
  refine rooted_pathOfSegments hwalk hbefore fun segment hs => ?_
  rw [← hlanding] at hs
  exact slash_not_mem_landing hdirectory hs

section Join

variable {base reference : Text}

theorem joinPath_of_isAbsolute {path : Text} (hbase : Path.isAbsolute base)
    (hnames : ∀ segment ∈ directorySegments base, Path.IsName segment)
    (hrelative : "/".toList.isPrefixOf path = false) :
    rooted (joinPath base path) =
        '/' :: joinWith '/' (landing (directorySegments base) (splitOn '/' path)) ∧
      "//".toList.isPrefixOf (joinPath base path) = false := by
  obtain ⟨rest, rfl⟩ := Path.isAbsolute_iff.1 hbase
  obtain ⟨middle, hsegments, hmiddle⟩ := baseSegments_cons_slash rest
  have hpath : joinPath ('/' :: rest) path =
      pathOfSegments (withoutInnerEmpty ([] :: (middle ++ splitOn '/' path))) := by
    rw [joinPath, hrelative, hsegments]
    rfl
  rw [hpath]
  exact rooted_pathOfSegments_landing hmiddle hnames path

theorem joinPath_cons_slash (base : Text) {rest : Text}
    (hdouble : Text.occursIn "//".toList ('/' :: rest) = false) :
    rooted (joinPath base ('/' :: rest)) =
        '/' :: joinWith '/' (landing [] (splitOn '/' ('/' :: rest))) ∧
      "//".toList.isPrefixOf (joinPath base ('/' :: rest)) = false := by
  have hne := Text.splitOn_ne_nil '/' rest
  have hfilled : ∀ segment ∈ (splitOn '/' rest).dropLast, isFilled segment := by
    intro segment hs
    obtain ⟨before, after, hbetween⟩ := List.append_of_mem hs
    have hsplit : splitOn '/' ('/' :: rest) =
        ([] :: before) ++ segment :: (after ++ [(splitOn '/' rest).getLast hne]) := by
      rw [splitOn_cons_slash]
      conv => lhs; rw [← List.dropLast_concat_getLast hne, hbetween]
      simp
    have hsegment := Text.ne_nil_of_splitOn_eq hdouble hsplit (by simp) (by simp)
    simpa [isFilled] using hsegment
  have hkept : withoutInnerEmpty ([] :: splitOn '/' rest) = [] :: splitOn '/' rest := by
    rw [withoutInnerEmpty_cons [] hne, List.filter_eq_self.2 hfilled,
      List.dropLast_concat_getLast hne]
  have hpath : joinPath base ('/' :: rest) =
      pathOfSegments (withoutInnerEmpty ([] :: ([] ++ splitOn '/' rest))) := by
    rw [joinPath, Path.isPrefixOf_slash_cons, List.nil_append, hkept, splitOn_cons_slash]
    rfl
  rw [hpath, splitOn_cons_slash, landing_nil_cons hne]
  exact rooted_pathOfSegments_landing rfl (fun _ hs => absurd hs List.not_mem_nil) rest

theorem read_file (habsolute : Path.isAbsolute base) (hplain : ∀ c ∈ base, isPlain c) :
    Reference.read [] ("file://".toList ++ base) =
      .ok ⟨⟨"file".toList, [], base, [], []⟩, []⟩ := by
  have hsplit : splitFrom [] ("file://".toList ++ base) = _ := split_file habsolute hplain
  rw [Reference.read, hsplit]
  rfl

theorem joinReference_of_path {path : Text} (habsolute : Path.isAbsolute base)
    (hplain : ∀ c ∈ base, isPlain c) (hscheme : scheme? (clean reference) = none)
    (hauthority : cutAuthority (clean reference) = ([], clean reference))
    (hpath : referencePath reference ≠ [])
    (hroot : rooted (joinPath base (referencePath reference)) = '/' :: path)
    (hdouble : "//".toList.isPrefixOf (joinPath base (referencePath reference)) = false) :
    joinReference ("file://".toList ++ base) reference =
      .ok ("file:///".toList ++ path ++
        ending (referenceQuery reference) (referenceFragment reference)) := by
  have hreference : reference ≠ [] := by
    rintro rfl
    exact hpath rfl
  have hsource := read_file habsolute hplain
  have htarget : Reference.read "file".toList reference =
      .ok ⟨⟨"file".toList, [], referencePath reference, referenceQuery reference,
        referenceFragment reference⟩, []⟩ := by
    rw [Reference.read, splitFrom_reference _ hscheme hauthority]
    rfl
  have hwritten : Reference.toText ⟨⟨"file".toList, [],
      joinPath base (referencePath reference),
      referenceQuery reference, referenceFragment reference⟩, []⟩ =
      "file:///".toList ++ path ++
        ending (referenceQuery reference) (referenceFragment reference) := by
    have htext := toText_file hdouble (referenceQuery reference) (referenceFragment reference)
    rw [hroot] at htext
    exact htext
  have hurl : "file://".toList ++ base ≠ [] := List.cons_ne_nil _ _
  have hfile : "file".toList ∈ relativeSchemes := by decide
  rw [joinReference_of_isRelativeTo hurl hreference hsource htarget ⟨rfl, hfile⟩, ← hwritten,
    Reference.seenFrom, if_neg (not_not_intro rfl), if_neg fun h => hpath h.1]

theorem joinReference_file (habsolute : Path.isAbsolute base) (hplain : ∀ c ∈ base, isPlain c)
    (hnames : ∀ segment ∈ directorySegments base, Path.IsName segment)
    (hscheme : scheme? (clean reference) = none)
    (hauthority : cutAuthority (clean reference) = ([], clean reference))
    (hpath : referencePath reference ≠ [])
    (hrelative : "/".toList.isPrefixOf (referencePath reference) = false) :
    joinReference ("file://".toList ++ base) reference =
      .ok ("file:///".toList ++
        joinWith '/' (landing (directorySegments base) (splitOn '/' (referencePath reference))) ++
        ending (referenceQuery reference) (referenceFragment reference)) := by
  obtain ⟨hroot, hdouble⟩ := joinPath_of_isAbsolute habsolute hnames hrelative
  exact joinReference_of_path habsolute hplain hscheme hauthority hpath hroot hdouble

/-! ## References with a visible character in front -/

theorem scheme?_eq_none {c : Char} (h : isLetter c = false) (rest : Text) :
    scheme? (c :: rest) = none := by
  have hbefore : ∀ before : Text, (∃ others, c :: rest = before ++ others) ->
      isScheme before = false := by
    intro before hcut
    obtain ⟨others, he⟩ := hcut
    cases before with
    | nil => rfl
    | cons d ds =>
        have hcd : c = d := (List.cons.inj he).1
        rw [isScheme, ← hcd, h, Bool.false_and]
  unfold scheme?
  rcases Text.not_mem_or_eq_append_cons ':' (c :: rest) with hs | ⟨before, after, hs, he⟩
  · rw [Text.cut_of_not_mem hs]
  · rw [he, Text.cut_append_cons hs]
    simp only [hbefore before ⟨':' :: after, he⟩]
    rfl

theorem clean_cons_of_visible {c : Char} (hnoise : isLeadingNoise c = false)
    (hbreak : isBreak c = false) (rest : Text) :
    clean (c :: rest) = c :: rest.filter fun d => !isBreak d := by
  rw [clean, List.dropWhile_cons_of_neg (by rw [hnoise]; exact Bool.false_ne_true),
    List.filter_cons_of_pos (by rw [hbreak]; rfl)]

theorem reference_of_isPlain {c : Char} (hnoise : isLeadingNoise c = false) {rest : Text}
    (h : ∀ d ∈ c :: rest, isPlain d) :
    clean (c :: rest) = c :: rest ∧ referencePath (c :: rest) = c :: rest ∧
      ending (referenceQuery (c :: rest)) (referenceFragment (c :: rest)) = [] := by
  have hclean : clean (c :: rest) = c :: rest :=
    clean_cons hnoise fun d hd => not_isBreak_of_isPlain (h d hd)
  have hhash : cut '#' (c :: rest) = (c :: rest, none) := Text.cut_of_not_mem (hash_not_mem h)
  have hquestion : cut '?' (c :: rest) = (c :: rest, none) :=
    Text.cut_of_not_mem (question_not_mem h)
  refine ⟨hclean, ?_, ?_⟩
  · rw [referencePath, hclean, hhash, hquestion]
  · rw [referenceQuery, referenceFragment, hclean, hhash, hquestion]
    rfl

theorem join_file_of_dotSlash (habsolute : Path.isAbsolute base) (hplain : ∀ c ∈ base, isPlain c)
    (hnames : ∀ segment ∈ directorySegments base, Path.IsName segment)
    (h : "./".toList.isPrefixOf reference) :
    join ("file://".toList ++ base) reference =
      .ok ("file:///".toList ++
        joinWith '/' (landing (directorySegments base) (splitOn '/' (referencePath reference))) ++
        ending (referenceQuery reference) (referenceFragment reference)) := by
  obtain ⟨rest, rfl⟩ := List.isPrefixOf_iff_prefix.1 h
  have hclean : clean ("./".toList ++ rest) = '.' :: '/' :: rest.filter fun c => !isBreak c :=
    clean_cons_of_visible (by decide) (by decide) ('/' :: rest)
  have hscheme : ∀ others, scheme? ('.' :: others) = none := scheme?_eq_none (by decide)
  have hpath : ∃ others, referencePath ("./".toList ++ rest) = '.' :: others := by
    refine ⟨(cut '?' (cut '#' ('/' :: rest.filter fun c => !isBreak c)).1).1, ?_⟩
    rw [referencePath, hclean]
    rfl
  obtain ⟨others, hothers⟩ := hpath
  have habsolute' : isAbsolute ("./".toList ++ rest) = false := by
    have hnone : scheme? ("./".toList ++ rest) = none := hscheme _
    rw [isAbsolute, hnone]
  rw [join, habsolute']
  refine joinReference_file habsolute hplain hnames ?_ ?_ ?_ ?_
  · rw [hclean]; exact hscheme _
  · rw [hclean]; rfl
  · rw [hothers]; simp
  · rw [hothers, Path.isPrefixOf_slash_cons]; rfl

end Join

end Url

end ModuleResolution
