import ModuleResolution.Proofs.Command.Answers
import ModuleResolution.Proofs.Resolution.Breaks

/-!
# Output as text

In the layout for text every specifier gets a line of three fields.  The fields are written as they
are, so the lines are read back exactly if no resolved path and no value of an error has a tab or a
line feed, and a path may get one from an escape in a specifier without any.
-/

namespace ModuleResolution

namespace Command

open Text (splitOn joinWith)
open Url (IsUnbroken ReadsUnbroken)

/-! ## Tables -/

/-- The text is read as these rows: each line feed ends a line, nothing follows the last one, and
tabs part the fields of a line. -/
def ReadsAsTable (text : Text) (rows : List (List Text)) : Prop :=
  (splitOn '\n' text).map (splitOn '\t') = rows ++ [[[]]]

instance (text : Text) (rows : List (List Text)) : Decidable (ReadsAsTable text rows) :=
  inferInstanceAs (Decidable (_ = _))

/-- The text can be a field of a table. -/
structure IsField (text : Text) : Prop where
  tab : '\t' ∉ text
  lineFeed : '\n' ∉ text

theorem IsUnbroken.isField {text : Text} (h : IsUnbroken text) : IsField text :=
  ⟨fun hc => (by cases h _ hc), fun hc => (by cases h _ hc)⟩

/-- A row as a line. -/
def lineOf (row : List Text) : Text :=
  joinWith '\t' row ++ ['\n']

theorem splitOn_lines {rows : List (List Text)}
    (h : ∀ row ∈ rows, ∀ field ∈ row, '\n' ∉ field) :
    splitOn '\n' (rows.flatMap lineOf) = rows.map (joinWith '\t') ++ [[]] := by
  induction rows with
  | nil => rfl
  | cons row rest ih =>
      have hrow : '\n' ∉ joinWith '\t' row := by
        intro hc
        rcases Text.mem_joinWith hc with hc | ⟨field, hfield, hc⟩
        · cases hc
        · exact h row List.mem_cons_self field hfield hc
      have hrest := ih fun other hother => h other (List.mem_cons_of_mem _ hother)
      rw [List.flatMap_cons, lineOf, List.append_assoc, List.singleton_append,
        Text.splitOn_append_cons, Text.splitOn_of_not_mem hrow, hrest]
      rfl

theorem readsAsTable_lines_iff {rows : List (List Text)} (hrows : ∀ row ∈ rows, row ≠ []) :
    ReadsAsTable (rows.flatMap lineOf) rows ↔ ∀ row ∈ rows, ∀ field ∈ row, IsField field := by
  constructor
  · intro h row hrow field hfield
    have hread : row ∈ (splitOn '\n' (rows.flatMap lineOf)).map (splitOn '\t') :=
      h ▸ List.mem_append_left _ hrow
    obtain ⟨line, hline, rfl⟩ := List.mem_map.1 hread
    exact ⟨Text.not_mem_of_mem_splitOn hfield,
      fun hc => Text.not_mem_of_mem_splitOn hline (Text.mem_of_mem_splitOn hfield hc)⟩
  · intro h
    have hcut : rows.map (splitOn '\t' ∘ joinWith '\t') = rows := by
      refine (List.map_congr_left fun row hrow => ?_).trans (List.map_id rows)
      exact Text.splitOn_joinWith (hrows row hrow) fun field hfield => (h row hrow field hfield).tab
    rw [ReadsAsTable, splitOn_lines fun row hrow field hfield => (h row hrow field hfield).lineFeed,
      List.map_append, List.map_map, hcut]
    rfl

/-! ## Lines of records -/

/-- The fields of the line about a specifier. -/
def partsOf (specifier : Text) : Answer -> List Text
  | .ok resolution => [specifier, resolution.format.elim ['-'] Format.name, resolution.path]
  | .error error => [specifier, "ERROR".toList, error.message]

/-- The rows about specifiers and their answers, in order. -/
def rowsOf (specifiers : List Text) (answers : List Answer) : List (List Text) :=
  List.zipWith partsOf specifiers answers

/-- What an answer is about: the path, or the value that is at fault. -/
def subject : Answer -> Text
  | .ok resolution => resolution.path
  | .error error => error.value

theorem ne_nil_of_mem_rowsOf (specifiers : List Text) (answers : List Answer) :
    ∀ row ∈ rowsOf specifiers answers, row ≠ [] := by
  intro row hrow
  rw [rowsOf, ← List.map_uncurry_zip_eq_zipWith] at hrow
  obtain ⟨⟨specifier, answer⟩, -, rfl⟩ := List.mem_map.1 hrow
  cases answer with
  | ok resolution => exact List.cons_ne_nil _ _
  | error error => exact List.cons_ne_nil _ _

theorem line_eq (specifier : Text) (answer : Answer) :
    Record.line ⟨specifier, answer⟩ = lineOf (partsOf specifier answer) := by
  cases answer <;> rfl

theorem write_text (specifiers : List Text) (answers : List Answer) :
    Record.write .text (List.zipWith Record.mk specifiers answers) =
      (rowsOf specifiers answers).flatMap lineOf := by
  have hrows : rowsOf specifiers answers = (List.zipWith Record.mk specifiers answers).map
      fun record => partsOf record.specifier record.result := by
    rw [List.map_zipWith, rowsOf]
  rw [hrows, List.flatMap_map]
  exact congrArg (List.flatMap · _) (funext fun record => line_eq record.specifier record.result)

theorem isField_append {first second : Text} :
    IsField (first ++ second) ↔ IsField first ∧ IsField second := by
  constructor
  · intro h
    exact ⟨⟨fun hc => h.tab (List.mem_append_left _ hc),
        fun hc => h.lineFeed (List.mem_append_left _ hc)⟩,
      fun hc => h.tab (List.mem_append_right _ hc),
        fun hc => h.lineFeed (List.mem_append_right _ hc)⟩
  · rintro ⟨h, h'⟩
    exact ⟨fun hc => (List.mem_append.1 hc).elim h.tab h'.tab,
      fun hc => (List.mem_append.1 hc).elim h.lineFeed h'.lineFeed⟩

theorem isField_complaint (error : ResolutionError) : IsField error.complaint := by
  have hall : error.complaint.all fun c => c != '\t' && c != '\n' := by
    cases error <;> dsimp only [ResolutionError.complaint] <;> decide +kernel
  exact ⟨fun hc => (by cases List.all_eq_true.1 hall _ hc),
    fun hc => (by cases List.all_eq_true.1 hall _ hc)⟩

theorem isField_message_iff (error : ResolutionError) :
    IsField error.message ↔ IsField error.value := by
  have hquote : IsField ": \"".toList ∧ IsField "\".".toList :=
    ⟨⟨by decide, by decide⟩, by decide, by decide⟩
  rw [ResolutionError.message, isField_append, isField_append, isField_append]
  simp only [isField_complaint, hquote, true_and, and_true]

theorem isField_format (format : Option Format) :
    IsField (format.elim ['-'] Format.name) := by
  cases format with
  | none => exact ⟨by decide, by decide⟩
  | some format => cases format <;> exact ⟨by decide, by decide⟩

theorem isField_partsOf_iff {specifier : Text} (h : IsField specifier) (answer : Answer) :
    (∀ field ∈ partsOf specifier answer, IsField field) ↔ IsField (subject answer) := by
  cases answer with
  | ok resolution =>
      simp only [partsOf, subject, List.forall_mem_cons, h, isField_format, true_and,
        List.not_mem_nil, false_implies, implies_true, and_true]
  | error error =>
      have hword : IsField "ERROR".toList := ⟨by decide, by decide⟩
      simp only [partsOf, subject, List.forall_mem_cons, h, hword, isField_message_iff, true_and,
        List.not_mem_nil, false_implies, implies_true, and_true]

/-! ## Runs -/

/-- Is the character one that is not shown? -/
def isControl (c : Char) : Bool :=
  decide (c.toNat < 0x20) || (decide (0x7f <= c.toNat) && decide (c.toNat < 0xa0))

/-- All characters of the text are shown. -/
def IsShown (text : Text) : Prop :=
  ∀ c ∈ text, isControl c = false

instance (text : Text) : Decidable (IsShown text) :=
  List.decidableBAll (fun c => isControl c = false) text

theorem IsShown.isField {text : Text} (h : IsShown text) : IsField text :=
  ⟨fun hc => (by cases h _ hc), fun hc => (by cases h _ hc)⟩

/-- Nothing that a run reads brings a tab or a line break into an answer. -/
structure BringsNoBreaks (world : World) (options : Options) : Prop where
  workingDirectory : IsUnbroken world.workingDirectory
  manifests : Package.HasUnbrokenManifests world.files
  parent : ∀ parent ∈ options.parent.join, ReadsUnbroken parent
  specifiers : ∀ specifier ∈ options.specifiers, BringsNoBreak specifier

section SetUp

variable {world : World} {options : Options} {setup : Setup}

/-- The resolver looks into the files of the world, and the parent is the one of the command line
or the working directory. -/
theorem of_setUp_eq_ok (h : setUp world options = .ok setup) :
    setup.resolver.files = world.files ∧
      setup.resolver.workingDirectory = world.workingDirectory ∧
      (setup.parent = Url.File.ofDirectory world.workingDirectory world.workingDirectory ∨
        ∃ parent ∈ options.parent.join,
          parentUrl world.workingDirectory parent = .ok setup.parent) := by
  unfold setUp at h
  obtain ⟨⟨settings, notes⟩, -, h⟩ := bind_eq_ok.1 h
  obtain ⟨flags, -, h⟩ := bind_eq_ok.1 h
  obtain ⟨threshold, -, h⟩ := bind_eq_ok.1 h
  simp only at h
  split at h
  · cases h
  split at h
  · next path hpath =>
      obtain ⟨parent, hparent, h⟩ := bind_eq_ok.1 h
      cases h
      refine ⟨rfl, rfl, .inr ⟨path, (Option.filter_eq_some_iff.1 hpath).1, ?_⟩⟩
      cases hurl : parentUrl world.workingDirectory path with
      | error cause =>
          rw [hurl] at hparent
          cases hparent
      | ok url =>
          rw [hurl] at hparent
          cases hparent
          rfl
  · cases h
    exact ⟨rfl, rfl, .inl rfl⟩

theorem BringsNoBreaks.of_setUp (hbrings : BringsNoBreaks world options)
    (h : setUp world options = .ok setup) :
    setup.resolver.IsUnbroken ∧ ReadsUnbroken setup.parent := by
  obtain ⟨hfiles, hdirectory, hparent⟩ := of_setUp_eq_ok h
  refine ⟨⟨hdirectory ▸ hbrings.workingDirectory, hfiles ▸ hbrings.manifests⟩, ?_⟩
  rcases hparent with hparent | ⟨parent, hmem, hurl⟩
  · rw [hparent]
    exact Url.readsUnbroken_ofDirectory hbrings.workingDirectory hbrings.workingDirectory
  · exact Resolver.readsUnbroken_parentUrl hbrings.workingDirectory (hbrings.parent parent hmem)
      hurl

end SetUp

section Run

variable {specifiers : List Text} {answers : List Answer}

theorem forall_row_iff (hlength : answers.length = specifiers.length)
    (hspecifiers : ∀ specifier ∈ specifiers, IsField specifier) :
    (∀ row ∈ rowsOf specifiers answers, ∀ field ∈ row, IsField field) ↔
      ∀ answer ∈ answers, IsField (subject answer) := by
  induction specifiers generalizing answers with
  | nil =>
      obtain rfl := List.length_eq_zero_iff.1 hlength
      exact iff_of_true (fun _ h => by cases h) (fun _ h => by cases h)
  | cons specifier rest ih =>
      cases answers with
      | nil => cases hlength
      | cons answer others =>
          have hrest := ih (Nat.succ.inj hlength)
            fun other hother => hspecifiers other (List.mem_cons_of_mem _ hother)
          rw [rowsOf, List.zipWith_cons_cons, List.forall_mem_cons, List.forall_mem_cons, ← hrest,
            isField_partsOf_iff (hspecifiers specifier List.mem_cons_self)]
          rfl

/-- A run that writes text and reaches its end writes one line for each specifier of its command
line, in their order: the specifier, the format or a dash, and the path, or else the specifier, a
word for errors and the message.  They are read back as lines of three fields exactly if no path and
no value of an error has a tab or a line feed.  None has if nothing that the run reads brings one as
it is or as an escape. -/
theorem readsAsTable_output_of_run {world : World} {words : List Text} {options : Options}
    {events : List Event} {written : Report} (hwords : Options.ofWords words = .ok options)
    (hlayout : options.layout.getD .json = .text) (h : run world words = (events, .ok written))
    (hspecifiers : ∀ specifier ∈ options.specifiers, IsShown specifier) :
    ∃ setup answers, setUp world options = .ok setup ∧
      Answers setup.resolver setup.parent setup.useCache .empty options.specifiers answers ∧
      options.specifiers.Sublist words ∧ answers.length = options.specifiers.length ∧
      written.output = (rowsOf options.specifiers answers).flatMap lineOf ∧
      (ReadsAsTable written.output (rowsOf options.specifiers answers) ↔
        ∀ answer ∈ answers, IsField (subject answer)) ∧
      (BringsNoBreaks world options ->
        ReadsAsTable written.output (rowsOf options.specifiers answers)) := by
  obtain ⟨setup, answers, hsetup, hanswers, rfl⟩ := exists_answers_of_run hwords h
  have houtput : (report setup (options.layout.getD .json) events
      (List.zipWith Record.mk options.specifiers answers)).output =
        (rowsOf options.specifiers answers).flatMap lineOf := by
    rw [hlayout]
    exact write_text options.specifiers answers
  have hiff : ReadsAsTable ((rowsOf options.specifiers answers).flatMap lineOf)
      (rowsOf options.specifiers answers) ↔ ∀ answer ∈ answers, IsField (subject answer) := by
    rw [readsAsTable_lines_iff (ne_nil_of_mem_rowsOf _ _), forall_row_iff hanswers.length_eq
      fun specifier hmem => (hspecifiers specifier hmem).isField]
  refine ⟨setup, answers, hsetup, hanswers, specifiers_sublist hwords, hanswers.length_eq, houtput,
    houtput ▸ hiff, fun hbrings => houtput ▸ hiff.2 fun answer hmem => IsUnbroken.isField ?_⟩
  obtain ⟨hresolver, hparent⟩ := hbrings.of_setUp hsetup
  obtain ⟨specifier, hspecifier, hdirect⟩ := hanswers.exists_direct answer hmem
  let request : Resolver.Request := ⟨specifier, setup.parent⟩
  have hbringsNone : BringsNoBreak request.specifier := hbrings.specifiers specifier hspecifier
  obtain ⟨hpath, hvalue⟩ := Resolver.isUnbroken_of_direct hresolver hbringsNone hparent
  cases answer with
  | ok resolution => exact hpath resolution hdirect
  | error error => exact hvalue error hdirect

end Run

/-! ## Worlds -/

def moduleManifest : Text :=
  "\x7b\"exports\":\"./m.mjs\"\x7d".toList

def onePackage : World where
  files := FileSystem.Memory.toFileSystem
    ⟨[("/d/node_modules/p/package.json".toList, Text.Utf8.encode moduleManifest),
        ("/d/node_modules/p/m.mjs".toList, [])],
      ["/d/node_modules/p".toList, "/d/node_modules".toList, "/d".toList, "/".toList]⟩
  settingsFiles := FileSystem.Memory.empty.toFileSystem
  logFault? _ := none
  environment := []
  workingDirectory := "/d".toList

theorem hasUnbrokenManifests_onePackage : Package.HasUnbrokenManifests onePackage.files := by
  refine Package.hasUnbrokenManifests_toFileSystem fun octets hoctets text fields hdecode hread => ?_
  have hmanifest : Json.read moduleManifest =
      .ok (.object [("exports".toList, .string "./m.mjs".toList)]) := by cbv
  simp only [List.map_cons, List.map_nil, List.mem_cons, List.not_mem_nil, or_false] at hoctets
  rcases hoctets with rfl | rfl
  · obtain rfl := Option.some.inj ((Text.Utf8.decode?_encode moduleManifest).symm.trans hdecode)
    obtain rfl : _ = fields := Json.object.inj (Except.ok.inj (hmanifest.symm.trans hread))
    refine ⟨(fun _ h => by cases h), ?_, ?_⟩
    · intro text hleaf
      change Package.IsLeaf text (.string "./m.mjs".toList) at hleaf
      cases hleaf
      exact ⟨by decide, by decide⟩
    · intro text hleaf
      change Package.IsLeaf text .null at hleaf
      cases hleaf
  · cases hdecode
    cases hread

/-- The package is asked for, and then one that is not there. -/
theorem readsAsTable_output_of_run_package :
    ∃ options events written answers,
      Options.ofWords ["-f".toList, "text".toList, "p".toList, "q".toList] = .ok options ∧
      options.layout.getD .json = .text ∧
      run onePackage ["-f".toList, "text".toList, "p".toList, "q".toList] =
        (events, .ok written) ∧
      (∀ specifier ∈ options.specifiers, IsShown specifier) ∧
      BringsNoBreaks onePackage options ∧
      answers.length = 2 ∧
      ReadsAsTable written.output (rowsOf ["p".toList, "q".toList] answers) := by
  have hwords : Options.ofWords ["-f".toList, "text".toList, "p".toList, "q".toList] =
      .ok { Options.unset with
        layout := some .text
        specifiers := ["p".toList, "q".toList] } := rfl
  have hshown : ∀ specifier ∈ ["p".toList, "q".toList], IsShown specifier := by decide
  have hbrings : BringsNoBreaks onePackage { Options.unset with
      layout := some .text
      specifiers := ["p".toList, "q".toList] } := by
    refine ⟨by decide, hasUnbrokenManifests_onePackage, (fun _ h => by cases h), ?_⟩
    have hsolid : ∀ specifier ∈ ["p".toList, "q".toList],
        IsUnbroken specifier ∧ '%' ∉ specifier := by decide
    exact fun specifier hmem => ⟨Url.IsSolid.readsUnbroken ⟨(hsolid _ hmem).1, (hsolid _ hmem).2⟩,
      fun _ _ => (hsolid specifier hmem).2⟩
  have hends : (run onePackage ["-f".toList, "text".toList, "p".toList, "q".toList]).2.isOk := by
    decide +kernel
  cases hrun : run onePackage ["-f".toList, "text".toList, "p".toList, "q".toList] with
  | mk events result =>
      rw [hrun] at hends
      cases result with
      | error cause => cases hends
      | ok written =>
          obtain ⟨-, answers, -, -, -, hlength, -, -, htable⟩ :=
            readsAsTable_output_of_run hwords rfl hrun hshown
          exact ⟨_, events, written, answers, hwords, rfl, rfl, hshown, hbrings, hlength,
            htable hbrings⟩

def brokenName : World where
  files := FileSystem.Memory.toFileSystem ⟨[("/a\nb.mjs".toList, [])], ["/".toList]⟩
  settingsFiles := FileSystem.Memory.empty.toFileSystem
  logFault? _ := none
  environment := []
  workingDirectory := "/".toList

/-- A specifier without control characters gets two lines. -/
theorem not_readsAsTable_of_escape :
    ∃ options events written,
      Options.ofWords ["-f".toList, "text".toList, "file:///a%0Ab.mjs".toList] = .ok options ∧
      options.layout.getD .json = .text ∧
      run brokenName ["-f".toList, "text".toList, "file:///a%0Ab.mjs".toList] =
        (events, .ok written) ∧
      (∀ specifier ∈ options.specifiers, IsShown specifier) ∧
      written.output = "file:///a%0Ab.mjs\tmodule\t/a\nb.mjs\n".toList ∧
      ∀ rows, ReadsAsTable written.output rows -> rows.length ≠ options.specifiers.length := by
  have hshown : ∀ specifier ∈ ["file:///a%0Ab.mjs".toList], IsShown specifier := by decide
  have houtput : (run brokenName ["-f".toList, "text".toList,
      "file:///a%0Ab.mjs".toList]).2.toOption.map (·.output) =
        some "file:///a%0Ab.mjs\tmodule\t/a\nb.mjs\n".toList := by
    decide +kernel
  cases hrun : run brokenName ["-f".toList, "text".toList, "file:///a%0Ab.mjs".toList] with
  | mk events result =>
      rw [hrun] at houtput
      cases result with
      | error cause => cases houtput
      | ok written =>
          have houtput : written.output =
              "file:///a%0Ab.mjs\tmodule\t/a\nb.mjs\n".toList := Option.some.inj houtput
          refine ⟨_, events, written, rfl, rfl, rfl, hshown, houtput, fun rows hrows hlength => ?_⟩
          have hlines : (splitOn '\n' written.output).length = rows.length + 1 := by
            rw [← List.length_map, hrows, List.length_append]
            rfl
          have htwo : rows.length = 2 := by
            rw [houtput] at hlines
            exact (Nat.succ.inj hlines).symm
          rw [htwo] at hlength
          cases hlength

end Command

end ModuleResolution
