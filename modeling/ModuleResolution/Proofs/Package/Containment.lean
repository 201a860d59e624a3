import ModuleResolution.FileSystem.Memory
import ModuleResolution.Proofs.Package.Leaves
import ModuleResolution.Proofs.Package.Segment
import ModuleResolution.Proofs.Url.Containment
import ModuleResolution.Resolver

/-!
# What `exports` give away

The segments of a target and of a capture are checked one by one as they are written, and the
target must lead into the package before the capture is put into it.  What the filled target leads
to is not looked at again, so it is inside the package exactly if the filled target stays there.
-/

namespace ModuleResolution

namespace Package

open Text (splitOn joinWith)
open Url (referencePath)

/-! ## Plain references -/

/-- A URL takes every character of the text as it is, and none of them starts an escape. -/
def IsUnambiguous (text : Text) : Prop :=
  ∀ c ∈ text, Url.isPlain c ∧ c ≠ '%'

theorem isUnambiguous_of_all {text : Text} (h : text.all fun c => Url.isPlain c && c != '%') :
    IsUnambiguous text := by
  intro c hc
  have hboth := List.all_eq_true.1 h c hc
  rw [Bool.and_eq_true, bne_iff_ne] at hboth
  exact hboth

theorem referencePath_of_isPlain {rest : Text} (h : ∀ c ∈ rest, Url.isPlain c) :
    referencePath ('.' :: '/' :: rest) = '.' :: '/' :: rest := by
  refine (Url.reference_of_isPlain (by decide) fun c hc => ?_).2.1
  rcases List.mem_cons.1 hc with rfl | hc
  · decide
  · rcases List.mem_cons.1 hc with rfl | hc
    · decide
    · exact h c hc

theorem landing_of_isName {directory names : List Text} (hne : names ≠ [])
    (h : ∀ name ∈ names, Path.IsName name) :
    Url.landing directory (".".toList :: names) = directory ++ names := by
  have hfilled : (".".toList :: names).filter Url.isFilled = ".".toList :: names := by
    refine List.filter_eq_self.2 fun name hn => ?_
    rcases List.mem_cons.1 hn with rfl | hn
    · decide
    · simpa [Url.isFilled] using (h name hn).ne_nil
  have hlast : (".".toList :: names).getLast? = some (names.getLast hne) := by
    rw [List.getLast?_cons_of_ne_nil hne, List.getLast?_eq_some_getLast hne]
  have hname := h _ (List.getLast_mem hne)
  have hdot : Url.walk directory.reverse ".".toList = directory.reverse := rfl
  unfold Url.landing Url.landingStack
  simp only [hfilled, hlast, Option.some.injEq, hname.ne_nil, hname.ne_dot, hname.ne_up, or_self,
    if_false, List.foldl_cons, hdot, Url.foldl_walk_of_isName h, List.reverse_append,
    List.reverse_reverse]

theorem target_of_isName {directory rest : Text} (hplain : ∀ c ∈ rest, Url.isPlain c)
    (hnames : ∀ name ∈ splitOn '/' rest, Path.IsName name) :
    Url.File.target directory ('.' :: '/' :: rest) =
      Url.File.segments directory ++ splitOn '/' rest := by
  have hsplit : splitOn '/' ('.' :: '/' :: rest) = ".".toList :: splitOn '/' rest :=
    Text.splitOn_append_cons ['.'] rest
  rw [Url.File.target, referencePath_of_isPlain hplain, hsplit,
    landing_of_isName (Text.splitOn_ne_nil '/' rest) hnames]

theorem decodedStack_of_isName {names : List Text} (h : ∀ name ∈ names, Path.IsName name)
    (hpercent : ∀ name ∈ names, '%' ∉ name) (stack : List Text) :
    Url.File.decodedStack stack names = names.reverse ++ stack := by
  have hdecode : ∀ name ∈ names, Percent.decode name = name := fun name hn =>
    Percent.decode_of_not_mem (hpercent name hn)
  have hmap : names.map Percent.decode = names := by
    conv => rhs; rw [← List.map_id names]
    exact List.map_congr_left hdecode
  have hstack := Url.File.decodedStack_of_isName_decode
    (fun name hn => (hdecode name hn).symm ▸ h name hn) stack
  rwa [hmap] at hstack

theorem staysIn_of_isUnambiguous {directory rest : Text} (hrest : IsUnambiguous rest)
    (hnames : ∀ name ∈ splitOn '/' rest, Path.IsName name) :
    Url.File.StaysIn directory ('.' :: '/' :: rest) := by
  have hpercent : ∀ name ∈ splitOn '/' rest, '%' ∉ name := fun name hn hm =>
    (hrest '%' (Text.mem_of_mem_splitOn hn hm)).2 rfl
  refine ⟨splitOn '/' rest, splitOn '/' rest, Text.splitOn_ne_nil '/' rest,
    Text.splitOn_ne_nil '/' rest, target_of_isName (fun c hc => (hrest c hc).1) hnames, ?_⟩
  rw [decodedStack_of_isName hnames hpercent, List.reverse_append, List.reverse_reverse,
    List.reverse_reverse]

/-! ## Targets -/

namespace Target

variable {context : TargetContext}

theorem isName_of_mem_fill {rest : Text} (h : Segment.isLegalPath rest)
    (hcapture : ∀ capture, context.capture = some capture -> Segment.isLegalPath capture) :
    ∀ segment ∈ splitOn '/' (fill context rest), Path.IsName segment := by
  have hsolid : Segment.AllSolid (fill context rest) := by
    unfold fill
    cases hc : context.capture with
    | none => exact Segment.allSolid_of_isLegalPath h
    | some capture =>
        exact (Segment.allSolid_of_isLegalPath h).substitute (by decide)
          (Segment.allSolid_of_isLegalPath (hcapture capture hc))
  intro segment hs
  obtain ⟨hnil, hdot, hup⟩ := Segment.isSolid_iff.1 (hsolid segment hs)
  exact ⟨hnil, hdot, hup, Text.not_mem_of_mem_splitOn hs⟩

/-- What holds of the characters of a target and of a capture holds of those of the filled
target. -/
theorem forall_mem_fill {p : Char -> Prop} {rest : Text} (h : ∀ c ∈ rest, p c)
    (hcapture : ∀ capture, context.capture = some capture -> ∀ c ∈ capture, p c) :
    ∀ c ∈ fill context rest, p c := by
  intro c hc
  unfold fill at hc
  cases hcap : context.capture with
  | none => rw [hcap] at hc; exact h c hc
  | some capture =>
      rw [hcap] at hc
      obtain ⟨d, hd, hmem⟩ := List.mem_flatMap.1 hc
      split at hmem
      · exact hcapture capture hcap c hmem
      · rw [List.mem_singleton.1 hmem]
        exact h d hd

end Target

end Package

namespace Resolver

open Package

/-- What `exports` give is where one of their texts leads from the package once the capture is put
into it.  It is inside the package exactly if that reference stays there, and so it is whenever
the text and the capture are read as they are written. -/
theorem resolveExports_isInside_iff (resolver : Resolver) {package subpath url : Text}
    {exports : Json} (hpackage : Path.IsCanonical package)
    (h : (resolver.resolveExports package subpath exports).outcome = .ok url) :
    ∃ text capture reference, Exports.Offers exports subpath text capture ∧
      reference = capture.elim text (fun captured => Text.substitute '*' captured text) ∧
      Url.join (Url.File.ofDirectory resolver.workingDirectory package) reference = .ok url ∧
      (Url.File.IsInside resolver.workingDirectory package url ↔
        Url.File.StaysIn package reference) ∧
      (IsUnambiguous text -> (∀ captured, capture = some captured -> IsUnambiguous captured) ->
        Url.File.IsInside resolver.workingDirectory package url) := by
  obtain ⟨text, capture, hoffers, htext⟩ := Exports.exists_offers_of_resolve h
  obtain ⟨hdot, hpath⟩ := Target.of_resolveText_eq_ok rfl htext
  obtain ⟨hlegal, hlegal', hurl⟩ := Target.of_resolvePath_eq_ok hpath
  obtain ⟨rest, rfl⟩ := List.isPrefixOf_iff_prefix.1 hdot
  have hfill := Target.fill_dotSlash { resolver.targetContext package none with capture } rest
  have helim : Target.fill { resolver.targetContext package none with capture }
      ("./".toList ++ rest) = capture.elim ("./".toList ++ rest)
        (fun captured => Text.substitute '*' captured ("./".toList ++ rest)) := by
    unfold Target.fill
    cases capture <;> rfl
  have hdots : "./".toList.isPrefixOf (Target.fill
      { resolver.targetContext package none with capture } ("./".toList ++ rest)) :=
    List.isPrefixOf_iff_prefix.2 ⟨_, hfill.symm⟩
  have hiff := Url.File.isInside_iff_staysIn hpackage hdots hurl
  refine ⟨_, capture, _, hoffers, helim, hurl, hiff, fun hplain hplain' => hiff.2 ?_⟩
  show Url.File.StaysIn package (Target.fill _ ('.' :: '/' :: rest))
  rw [hfill]
  refine staysIn_of_isUnambiguous ?_ (Target.isName_of_mem_fill hlegal hlegal')
  exact Target.forall_mem_fill (fun c hc => hplain c (List.mem_append_right _ hc)) hplain'

def withoutFiles : Resolver where
  files := FileSystem.Memory.empty.toFileSystem
  conditions := []
  flags := .listed []
  workingDirectory := "/".toList

theorem resolveExports_isInside_iff_subpath_pattern :
    Path.IsCanonical "/p".toList ∧
      (withoutFiles.resolveExports "/p".toList "./a.js".toList
        (.object [("./*".toList, .string "./lib/*".toList)])).outcome =
        .ok "file:///p/lib/a.js".toList ∧
      Url.File.IsInside "/".toList "/p".toList "file:///p/lib/a.js".toList := by
  have hpackage : Path.IsCanonical "/p".toList := ⟨rfl, rfl, rfl⟩
  have hurl : (withoutFiles.resolveExports "/p".toList "./a.js".toList
      (.object [("./*".toList, .string "./lib/*".toList)])).outcome =
      .ok "file:///p/lib/a.js".toList := rfl
  obtain ⟨text, capture, reference, hoffers, -, -, -, hinside⟩ :=
    resolveExports_isInside_iff withoutFiles hpackage hurl
  have htext : IsUnambiguous "./lib/*".toList := isUnambiguous_of_all rfl
  have hcaptured : IsUnambiguous "a.js".toList := isUnambiguous_of_all rfl
  cases capture with
  | none =>
      cases hoffers with
      | field hmem hleaf =>
          cases List.mem_singleton.1 hmem
          cases hleaf
          exact ⟨hpackage, hurl, hinside htext fun _ hc => by cases hc⟩
  | some captured =>
      obtain ⟨fields, key, target, hfields, hmem, hcapture, hleaf⟩ := hoffers
      cases hfields
      cases List.mem_singleton.1 hmem
      cases hleaf
      have hstar : PatternKey.capture? "./*".toList "./a.js".toList = some "a.js".toList := rfl
      rw [hstar] at hcapture
      cases hcapture
      exact ⟨hpackage, hurl, hinside htext fun _ hc => by cases hc; exact hcaptured⟩

/-- A tab hides the dot segments of the capture from the check, and the reference leads to the
root. -/
theorem resolveExports_not_isInside_of_tabs :
    (withoutFiles.resolveExports "/p".toList "./.\t./.\t./secret.js".toList
        (.object [("./*".toList, .string "./*".toList)])).outcome =
        .ok "file:///secret.js".toList ∧
      ¬Url.File.IsInside "/".toList "/p".toList "file:///secret.js".toList := by
  refine ⟨rfl, fun h => ?_⟩
  have hstarts := List.isPrefixOf_iff_prefix.2 h.starts
  revert hstarts
  decide

end Resolver

end ModuleResolution
