import ModuleResolution.FileSystem.Memory
import ModuleResolution.Proofs.Trace
import ModuleResolution.Proofs.Url.Containment
import ModuleResolution.Resolver

/-!
# Relative specifiers

The URL of a module is walked segment by segment, and every segment of it stands for a component
of the module's path.  As long as the specifier has no escapes, walking segments and pushing
components stay in step, so what comes out is what the rules of paths alone give.
-/

namespace ModuleResolution

namespace Url

namespace File

open Text (splitOn joinWith)

/-! ## Segments and components in step -/

theorem map_decode_walk {stack : List Text}
    (hstack : ∀ name ∈ stack.map Percent.decode, Path.IsName name) {segment : Text}
    (hfilled : isFilled segment) (hpercent : '%' ∉ segment) :
    (walk stack segment).map Percent.decode =
      Path.push true (stack.map Percent.decode) segment := by
  have hne : segment ≠ [] := by simpa [isFilled] using hfilled
  unfold walk Path.push
  by_cases hup : segment = "..".toList
  · subst hup
    rw [if_pos rfl, if_neg (by decide), if_pos rfl]
    cases stack with
    | nil => rfl
    | cons top below =>
        have htop : Percent.decode top ≠ "..".toList := (hstack _ List.mem_cons_self).ne_up
        simp only [List.map_cons, List.tail_cons, if_neg htop]
  · by_cases hdot : segment = ".".toList
    · rw [if_neg hup, if_pos hdot, if_pos (.inr hdot)]
    · have hkept : ¬(segment = [] ∨ segment = ".".toList) := fun h => h.elim hne hdot
      rw [if_neg hup, if_neg hdot, if_neg hkept, if_neg hup, List.map_cons,
        Percent.decode_of_not_mem hpercent]

theorem map_decode_foldl_walk {segments : List Text}
    (hsegments : ∀ segment ∈ segments, '/' ∉ segment ∧ '%' ∉ segment) {stack : List Text}
    (hstack : ∀ name ∈ stack.map Percent.decode, Path.IsName name) :
    ((segments.filter isFilled).foldl walk stack).map Percent.decode =
      segments.foldl (Path.push true) (stack.map Percent.decode) := by
  induction segments generalizing stack with
  | nil => rfl
  | cons first rest ih =>
      obtain ⟨hslash, hpercent⟩ := hsegments first List.mem_cons_self
      have hrest : ∀ segment ∈ rest, '/' ∉ segment ∧ '%' ∉ segment := fun segment hs =>
        hsegments segment (List.mem_cons_of_mem _ hs)
      by_cases hfilled : isFilled first
      · have hstep := map_decode_walk hstack hfilled hpercent
        rw [List.filter_cons_of_pos hfilled, List.foldl_cons, List.foldl_cons, ← hstep]
        refine ih hrest ?_
        rw [hstep]
        exact Path.isName_of_mem_push hstack hslash
      · have hnil : first = [] := by simpa [isFilled] using hfilled
        subst hnil
        rw [List.filter_cons_of_neg hfilled, List.foldl_cons, Path.push_nil]
        exact ih hrest hstack

section Landing

variable {directory : List Text} {path : Text}

theorem decode_of_mem_splitOn (hpercent : '%' ∉ path) {segment : Text}
    (h : segment ∈ splitOn '/' path) : Percent.decode segment = segment :=
  Percent.decode_of_not_mem fun hc => hpercent (Text.mem_of_mem_splitOn h hc)

theorem decode_of_mem_landing
    (hdirectory : ∀ name ∈ directory.map Percent.decode, Path.IsName name)
    (hpercent : '%' ∉ path) {segment : Text} (h : segment ∈ landing directory (splitOn '/' path)) :
    '/' ∉ Percent.decode segment ∧ (segment ≠ [] -> Percent.decode segment ≠ []) := by
  rcases mem_landingStack (List.mem_reverse.1 h) with rfl | hs | ⟨hne, hs⟩
  · exact ⟨List.not_mem_nil, fun hne => absurd rfl hne⟩
  · have hname := hdirectory _ (List.mem_map_of_mem hs)
    exact ⟨hname.not_mem, fun _ => hname.ne_nil⟩
  · rw [decode_of_mem_splitOn hpercent hs]
    exact ⟨Text.not_mem_of_mem_splitOn hs, id⟩

theorem filled_of_decode (hdirectory : ∀ name ∈ directory.map Percent.decode, Path.IsName name) :
    ∀ segment ∈ directory, segment ≠ [] := by
  rintro _ hs rfl
  exact (hdirectory _ (List.mem_map_of_mem hs)).ne_nil rfl

theorem decode_landing_single
    (hdirectory : ∀ name ∈ directory.map Percent.decode, Path.IsName name)
    (hpercent : '%' ∉ path) :
    "//".toList.isPrefixOf (Percent.decode
      ('/' :: joinWith '/' (landing directory (splitOn '/' path)))) = false := by
  have hdecode := fun segment (h : segment ∈ landing directory (splitOn '/' path)) =>
    decode_of_mem_landing hdirectory hpercent h
  obtain ⟨before, last, hlanding, hbefore⟩ :=
    landing_eq (filled_of_decode hdirectory) (Text.splitOn_ne_nil '/' path)
  rw [hlanding] at hdecode ⊢
  rw [decode_cons_slash, List.map_append, List.map_singleton]
  refine Path.isAbsolute_joinWith (fun name hname => ?_)
    (Path.isAbsolute_of_not_mem (hdecode last (by simp)).1)
  obtain ⟨segment, hs, rfl⟩ := List.mem_map.1 hname
  obtain ⟨hslash, hne⟩ := hdecode segment (List.mem_append_left _ hs)
  exact ⟨hne (hbefore segment hs), hslash⟩

theorem decodedStack_landing (stack directory path : List Text) :
    decodedStack stack (landing directory path) =
      decodedStack stack ((path.filter isFilled).foldl walk directory.reverse).reverse := by
  unfold landing landingStack
  simp only
  split
  · rw [List.reverse_cons, decodedStack_append]
    rfl
  · rfl

theorem components_decode_landing
    (hdirectory : ∀ name ∈ directory.map Percent.decode, Path.IsName name)
    (hpercent : '%' ∉ path) :
    Path.components (Percent.decode ('/' :: joinWith '/' (landing directory (splitOn '/' path)))) =
      ((splitOn '/' path).foldl (Path.push true)
        (directory.map Percent.decode).reverse).reverse := by
  have hne := landing_ne_nil (filled_of_decode hdirectory) (Text.splitOn_ne_nil '/' path)
  have hsegments : ∀ segment ∈ splitOn '/' path, '/' ∉ segment ∧ '%' ∉ segment := fun segment hs =>
    ⟨Text.not_mem_of_mem_splitOn hs, fun hc => hpercent (Text.mem_of_mem_splitOn hs hc)⟩
  have hstack : ∀ name ∈ directory.reverse.map Percent.decode, Path.IsName name := by
    rw [List.map_reverse]
    exact fun name hn => hdirectory name (List.mem_reverse.1 hn)
  have hwalk := map_decode_foldl_walk hsegments hstack
  have hnames := Path.isName_of_mem_foldl_push (fun part hp => (hsegments part hp).1) _ hstack
  rw [← hwalk] at hnames
  rw [components_decode hne, decodedStack_landing, decodedStack_of_isName_decode, List.map_reverse,
    List.reverse_reverse, List.append_nil, hwalk, List.map_reverse]
  exact fun segment hs => hnames _ (List.mem_map_of_mem (List.mem_reverse.1 hs))

end Landing

/-! ## Specifiers that are paths -/

theorem exists_of_isPathSpecifier {specifier : Text} (h : isPathSpecifier specifier) :
    ∃ c rest, specifier = c :: rest ∧ (c = '/' ∨ c = '.') := by
  simp only [isPathSpecifier, Bool.or_eq_true, List.isPrefixOf_iff_prefix] at h
  rcases h with (⟨rest, rfl⟩ | ⟨rest, rfl⟩) | ⟨rest, rfl⟩
  · exact ⟨'/', rest, rfl, .inl rfl⟩
  · exact ⟨'.', '/' :: rest, rfl, .inr rfl⟩
  · exact ⟨'.', '.' :: '/' :: rest, rfl, .inr rfl⟩

theorem cutAuthority_of_single {text : Text} (h : "//".toList.isPrefixOf text = false) :
    cutAuthority text = ([], text) := by
  unfold cutAuthority
  split
  · simp at h
  · rfl

section Specifier

variable {path specifier : Text}

def origin (path specifier : Text) : List Text :=
  if Path.isAbsolute specifier then [] else (segments path).dropLast

theorem join_ofPath (directory : Text) (habsolute : Path.isAbsolute path)
    (hsingle : "//".toList.isPrefixOf path = false) (hspecifier : isPathSpecifier specifier)
    (hdouble : Text.occursIn "//".toList specifier = false) (hplain : ∀ c ∈ specifier, isPlain c) :
    isAbsolute specifier = false ∧ join (ofPath directory path) specifier =
      .ok ("file:///".toList ++
        joinWith '/' (landing (origin path specifier) (splitOn '/' specifier))) := by
  obtain ⟨c, rest, rfl, hc⟩ := exists_of_isPathSpecifier hspecifier
  have hvisible : isLetter c = false ∧ isLeadingNoise c = false := by
    rcases hc with rfl | rfl <;> decide
  obtain ⟨hclean, hreference, hending⟩ := reference_of_isPlain hvisible.2 hplain
  have hscheme := scheme?_eq_none hvisible.1 rest
  have hstart := cutAuthority_of_single (Text.isPrefixOf_of_occursIn hdouble)
  have hrelative : isAbsolute (c :: rest) = false := by rw [isAbsolute, hscheme]
  have hnames : ∀ segment ∈ segments path, Path.IsName segment := fun _ hs =>
    isName_of_mem_segments habsolute hs
  have hbase := directorySegments_names hnames
  have hpath : rooted (joinPath ('/' :: joinWith '/' (segments path)) (c :: rest)) =
        '/' :: joinWith '/' (landing (origin path (c :: rest)) (splitOn '/' (c :: rest))) ∧
      "//".toList.isPrefixOf (joinPath ('/' :: joinWith '/' (segments path)) (c :: rest)) =
        false := by
    rcases hc with rfl | rfl
    · exact joinPath_cons_slash _ hdouble
    · have hdirectory : ∀ segment ∈ directorySegments ('/' :: joinWith '/' (segments path)),
          Path.IsName segment := by
        rw [hbase]
        exact fun segment hs => hnames segment (List.dropLast_subset _ hs)
      have hlanding := joinPath_of_isAbsolute (Path.isAbsolute_cons_slash _) hdirectory
        (show "/".toList.isPrefixOf ('.' :: rest) = false from rfl)
      rwa [hbase] at hlanding
  have hjoin := joinReference_of_path (Path.isAbsolute_cons_slash _)
    (fun _ hd => isPlain_of_mem_path (fun _ hs _ => isPlain_of_mem_segments hs) hd)
    (hclean.symm ▸ hscheme) (hclean.symm ▸ hstart)
    (hreference.symm ▸ List.cons_ne_nil c rest) (hreference.symm ▸ hpath.1)
    (hreference.symm ▸ hpath.2)
  rw [hreference, hending, List.append_nil] at hjoin
  refine ⟨hrelative, ?_⟩
  rw [join, hrelative, ofPath_eq_segments directory habsolute hsingle]
  exact hjoin

theorem toPath_origin (path : Text) (hplain : ∀ c ∈ specifier, isPlain c) :
    toPath ("file:///".toList ++
        joinWith '/' (landing (origin path specifier) (splitOn '/' specifier))) =
      .ok (Percent.decode ('/' :: joinWith '/'
        (landing (origin path specifier) (splitOn '/' specifier)))) := by
  have hsegments : ∀ segment ∈ landing (origin path specifier) (splitOn '/' specifier),
      ∀ c ∈ segment, isPlain c := by
    intro segment hs c hc
    rcases mem_landingStack (List.mem_reverse.1 hs) with rfl | hs | ⟨-, hs⟩
    · exact absurd hc List.not_mem_nil
    · unfold origin at hs
      split at hs
      · exact absurd hs List.not_mem_nil
      · exact isPlain_of_mem_segments (List.dropLast_subset _ hs) hc
    · exact hplain c (Text.mem_of_mem_splitOn hs hc)
  exact toPath_of_isPlain (Path.isAbsolute_cons_slash _) fun _ hc =>
    isPlain_of_mem_path hsegments hc

theorem map_decode_origin (path specifier : Text) :
    (origin path specifier).map Percent.decode =
      if Path.isAbsolute specifier then [] else (Path.components path).dropLast := by
  unfold origin
  split
  · rfl
  · rw [List.map_dropLast, map_decode_segments]

end Specifier

end File

end Url

namespace Resolver

open Text (splitOn joinWith)

/-- A plain specifier that is a path leads from the URL of a module to the file to which it leads
from the path of the module.  Its segments are pushed on the names of the module's directory, which
are those of the path, whatever characters they have, and nothing is above the root. -/
theorem resolvedUrl_follows_path (resolver : Resolver) (directory : Text) {path specifier : Text}
    (habsolute : Path.isAbsolute path) (hsingle : "//".toList.isPrefixOf path = false)
    (hspecifier : isPathSpecifier specifier)
    (hdouble : Text.occursIn "//".toList specifier = false)
    (hplain : ∀ c ∈ specifier, Url.isPlain c) (hpercent : '%' ∉ specifier) :
    ∃ url found,
      (resolver.resolvedUrl specifier (Url.File.ofPath directory path)).outcome = .ok url ∧
      Url.File.toPath url = .ok found ∧
      Path.normalize found = Path.normalize
        (Path.join (Path.dirname (Path.absolute directory path)) specifier) ∧
      Path.components found =
        Path.componentsFrom (Path.components path).dropLast specifier := by
  obtain ⟨hrelative, hurl⟩ :=
    Url.File.join_ofPath directory habsolute hsingle hspecifier hdouble hplain
  have hnames : ∀ name ∈ (Path.components path).dropLast, Path.IsName name := fun name hn =>
    Path.isName_of_mem_components habsolute (List.dropLast_subset _ hn)
  have horigin : ∀ name ∈ (Url.File.origin path specifier).map Percent.decode,
      Path.IsName name := by
    rw [Url.File.map_decode_origin]
    split
    · exact fun _ hn => absurd hn List.not_mem_nil
    · exact hnames
  have hcomponents := Url.File.components_decode_landing horigin hpercent
  have hfrom : ((splitOn '/' specifier).foldl (Path.push true)
      ((Url.File.origin path specifier).map Percent.decode).reverse).reverse =
      Path.componentsFrom (Path.components path).dropLast specifier := by
    rw [Url.File.map_decode_origin, Path.componentsFrom]
    split
    · rfl
    · rfl
  rw [hfrom] at hcomponents
  refine ⟨_, _, ?_, Url.File.toPath_origin path hplain, ?_, hcomponents⟩
  · rw [resolvedUrl, hrelative]
    simp only [Bool.false_eq_true, if_false, hspecifier, if_true]
    exact Traced.outcome_ofUrl_eq_ok.2 hurl
  · have hdirectory : Path.dirname (Path.absolute directory path) =
        '/' :: joinWith '/' (Path.components path).dropLast := by
      rw [Path.absolute, Path.join, if_pos habsolute, Path.normalize_of_single habsolute hsingle,
        Path.dirname_joinWith fun _ hn => Path.isName_of_mem_components habsolute hn]
    have hroot : Path.isAbsolute (Percent.decode ('/' :: joinWith '/'
        (Url.landing (Url.File.origin path specifier) (splitOn '/' specifier)))) := by
      rw [Url.File.decode_cons_slash]
      exact Path.isAbsolute_cons_slash _
    rw [hdirectory, Path.normalize_join hnames (Text.isPrefixOf_of_occursIn hdouble),
      Path.normalize_of_single hroot (Url.File.decode_landing_single horigin hpercent), hcomponents]

/-- A directory with a blank, a percent sign and a character outside ASCII stays as it is, and more
steps up than there are directories lead to the root. -/
theorem resolvedUrl_follows_path_up :
    (∃ url found,
      (resolvedUrl ⟨FileSystem.Memory.empty.toFileSystem, [], .listed [], "/".toList⟩
        "../b/./c".toList (Url.File.ofPath "/".toList "/é 100%25/a/x.js".toList)).outcome = .ok url ∧
      Url.File.toPath url = .ok found ∧ Path.normalize found = "/é 100%25/b/c".toList) ∧
    ∃ url found,
      (resolvedUrl ⟨FileSystem.Memory.empty.toFileSystem, [], .listed [], "/".toList⟩
        "../../../../b/".toList (Url.File.ofPath "/".toList "/é 100%25/a/x.js".toList)).outcome = .ok url ∧
      Url.File.toPath url = .ok found ∧ Path.normalize found = "/b".toList := by
  constructor
  · obtain ⟨url, found, hurl, hfound, hnormal, -⟩ := resolvedUrl_follows_path
      ⟨FileSystem.Memory.empty.toFileSystem, [], .listed [], "/".toList⟩ "/".toList
      (show Path.isAbsolute "/é 100%25/a/x.js".toList by decide) (by decide)
      (show isPathSpecifier "../b/./c".toList by decide) (by decide)
      (List.all_eq_true.1 (by decide)) (by decide)
    exact ⟨url, found, hurl, hfound, hnormal.trans rfl⟩
  · obtain ⟨url, found, hurl, hfound, hnormal, -⟩ := resolvedUrl_follows_path
      ⟨FileSystem.Memory.empty.toFileSystem, [], .listed [], "/".toList⟩ "/".toList
      (show Path.isAbsolute "/é 100%25/a/x.js".toList by decide) (by decide)
      (show isPathSpecifier "../../../../b/".toList by decide) (by decide)
      (List.all_eq_true.1 (by decide)) (by decide)
    exact ⟨url, found, hurl, hfound, hnormal.trans rfl⟩

end Resolver

end ModuleResolution
