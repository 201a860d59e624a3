import ModuleResolution.Proofs.Package.Containment

/-!
# Filled targets

A path target and its capture are checked one by one and put together afterwards.  The filled
target is still made of names, so joining it to the URL of the package appends it.
-/

namespace ModuleResolution

namespace Package

open Text (splitOn joinWith substitute)

theorem join_ofDirectory_of_isName (workingDirectory : Text) {directory rest : Text}
    (hdirectory : Path.IsCanonical directory) (hplain : ∀ c ∈ rest, Url.isPlain c)
    (hnames : ∀ name ∈ splitOn '/' rest, Path.IsName name) :
    Url.join (Url.File.ofDirectory workingDirectory directory) ('.' :: '/' :: rest) =
      .ok (Url.File.ofDirectory workingDirectory directory ++ rest) := by
  have hreference : ∀ c ∈ '.' :: '/' :: rest, Url.isPlain c := by
    rintro c (_ | ⟨_, _ | ⟨_, hc⟩⟩)
    · decide
    · decide
    · exact hplain c hc
  obtain ⟨-, -, hending⟩ := Url.reference_of_isPlain (by decide) hreference
  rw [Url.File.join_ofDirectory hdirectory rfl, hending, target_of_isName hplain hnames,
    Text.joinWith_append_eq _ (Text.splitOn_ne_nil '/' rest), Text.joinWith_splitOn,
    Url.File.ofDirectory_eq workingDirectory hdirectory, List.append_nil, List.append_assoc]

namespace Target

variable {context : TargetContext} {rest : Text}

theorem join_fill (hpackage : Path.IsCanonical context.package) (hlegal : Segment.isLegalPath rest)
    (hplain : ∀ c ∈ rest, Url.isPlain c)
    (hcapture : ∀ capture, context.capture = some capture ->
      Segment.isLegalPath capture ∧ ∀ c ∈ capture, Url.isPlain c) :
    Url.join (Url.File.ofDirectory context.workingDirectory context.package)
        (fill context ('.' :: '/' :: rest)) =
      .ok (Url.File.ofDirectory context.workingDirectory context.package ++ fill context rest) := by
  rw [fill_dotSlash]
  refine join_ofDirectory_of_isName _ hpackage ?_ ?_
  · exact forall_mem_fill hplain fun capture hc => (hcapture capture hc).2
  · exact isName_of_mem_fill hlegal fun capture hc => (hcapture capture hc).1

theorem resolveText_of_not_legal (context : TargetContext) (h : ¬Segment.isLegalPath rest) :
    (resolveText context ('.' :: '/' :: rest)).outcome =
      .error (.resolution (.invalidPackageTarget ('.' :: '/' :: rest))) := by
  have hdot : "./".toList.isPrefixOf ('.' :: '/' :: rest) := rfl
  have hillegal : (!Segment.isLegalPath (List.drop 2 ('.' :: '/' :: rest))) = true := by
    simpa using h
  rw [resolveText, if_pos hdot, resolvePath, if_pos hillegal]
  rfl

/-- A legal target is joined as it is first and then, if there is a legal capture, with it put
in. -/
theorem resolveText_of_legal (hpackage : Path.IsCanonical context.package)
    (hlegal : Segment.isLegalPath rest) (hplain : ∀ c ∈ rest, Url.isPlain c) :
    (resolveText context ('.' :: '/' :: rest)).outcome =
      match context.capture with
      | none => .ok (Url.File.ofDirectory context.workingDirectory context.package ++ rest)
      | some capture =>
          if !Segment.isLegalPath capture then
            .error (.resolution (.invalidModuleSpecifier capture))
          else
            (Traced.ofUrl (Url.join
              (Url.File.ofDirectory context.workingDirectory context.package)
              (fill context ('.' :: '/' :: rest)))).outcome := by
  have hdot : "./".toList.isPrefixOf ('.' :: '/' :: rest) := rfl
  have hpath : ¬(!Segment.isLegalPath (List.drop 2 ('.' :: '/' :: rest))) = true := by
    simpa using hlegal
  have hjoin : Url.join (Url.File.ofDirectory context.workingDirectory context.package)
      ('.' :: '/' :: rest) =
      .ok (Url.File.ofDirectory context.workingDirectory context.package ++ rest) :=
    @join_fill { context with capture := none } rest hpackage hlegal hplain
      fun _ hc => by cases hc
  have hraw := Traced.outcome_ofUrl_eq_ok.2 hjoin
  have hinside : (Url.File.ofDirectory context.workingDirectory context.package).isPrefixOf
      (Url.File.ofDirectory context.workingDirectory context.package ++ rest) :=
    List.isPrefixOf_iff_prefix.2 (List.prefix_append _ _)
  rw [resolveText, if_pos hdot, resolvePath, if_neg hpath]
  refine (Traced.outcome_bind_of_ok hraw).trans ?_
  show (if !_ then _ else _ : Traced Text).outcome = _
  rw [if_neg (by rw [hinside]; decide)]
  cases context.capture with
  | none => rfl
  | some capture =>
      simp only
      split <;> rfl

/-- What a path target gives: its text, with the capture in place of every star, is appended to the
URL of the package, and every segment of it is a name.  An illegal target fails whatever the
capture is, and otherwise an illegal capture does. -/
theorem resolveText_dotSlash (context : TargetContext) (hpackage : Path.IsCanonical context.package)
    (rest : Text) :
    (¬Segment.isLegalPath rest ->
        (resolveText context ('.' :: '/' :: rest)).outcome =
          .error (.resolution (.invalidPackageTarget ('.' :: '/' :: rest)))) ∧
      (Segment.isLegalPath rest -> (∀ c ∈ rest, Url.isPlain c) -> context.capture = none ->
        (resolveText context ('.' :: '/' :: rest)).outcome =
            .ok (Url.File.ofDirectory context.workingDirectory context.package ++ rest) ∧
          ∀ segment ∈ splitOn '/' rest, Path.IsName segment) ∧
      ∀ capture, context.capture = some capture ->
        Segment.isLegalPath rest -> (∀ c ∈ rest, Url.isPlain c) ->
          (¬Segment.isLegalPath capture ->
            (resolveText context ('.' :: '/' :: rest)).outcome =
              .error (.resolution (.invalidModuleSpecifier capture))) ∧
          (Segment.isLegalPath capture -> (∀ c ∈ capture, Url.isPlain c) ->
            (resolveText context ('.' :: '/' :: rest)).outcome =
                .ok (Url.File.ofDirectory context.workingDirectory context.package ++
                  substitute '*' capture rest) ∧
              ∀ segment ∈ splitOn '/' (substitute '*' capture rest), Path.IsName segment) := by
  refine ⟨resolveText_of_not_legal context, ?_, ?_⟩
  · intro hlegal hplain hnone
    have hfill : fill context rest = rest := by rw [fill, hnone]
    have hnames := isName_of_mem_fill hlegal fun _ hc => by rw [hnone] at hc; cases hc
    rw [hfill] at hnames
    refine ⟨?_, hnames⟩
    rw [resolveText_of_legal hpackage hlegal hplain, hnone]
  · intro capture hsome hlegal hplain
    have hfill : fill context rest = substitute '*' capture rest := by rw [fill, hsome]
    rw [resolveText_of_legal hpackage hlegal hplain, hsome, ← hfill]
    refine ⟨fun h => if_pos (by simpa using h), fun h hplain' => ?_⟩
    have hcapture : ∀ other, context.capture = some other ->
        Segment.isLegalPath other ∧ ∀ c ∈ other, Url.isPlain c := fun other hc => by
      cases hsome.symm.trans hc
      exact ⟨h, hplain'⟩
    refine ⟨?_, isName_of_mem_fill hlegal fun other hc => (hcapture other hc).1⟩
    have hjoin := join_fill hpackage hlegal hplain hcapture
    exact (if_neg (by rw [h]; decide)).trans (Traced.outcome_ofUrl_eq_ok.2 hjoin)

/-- Stars within and between names, filled with a capture of two segments. -/
theorem resolveText_dotSlash_stars :
    Path.IsCanonical "/my pkg".toList ∧ Segment.isLegalPath "lib-*/*.js".toList ∧
      Segment.isLegalPath "a/b".toList ∧
      (resolveText ⟨"/".toList, "/my pkg".toList, [], some "a/b".toList, none⟩
        "./lib-*/*.js".toList).outcome =
        .ok "file:///my%20pkg/lib-a/b/a/b.js".toList := by
  have hpackage : Path.IsCanonical "/my pkg".toList := ⟨rfl, rfl, rfl⟩
  have hlegal : Segment.isLegalPath "lib-*/*.js".toList := by decide
  have hcapture : Segment.isLegalPath "a/b".toList := by decide
  obtain ⟨-, -, hfilled⟩ := resolveText_dotSlash
    ⟨"/".toList, "/my pkg".toList, [], some "a/b".toList, none⟩ hpackage "lib-*/*.js".toList
  obtain ⟨-, hurl⟩ := hfilled "a/b".toList rfl hlegal (List.all_eq_true.1 (by decide))
  exact ⟨hpackage, hlegal, hcapture, (hurl hcapture (List.all_eq_true.1 (by decide))).1⟩

end Target

end Package

end ModuleResolution
