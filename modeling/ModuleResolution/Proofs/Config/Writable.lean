import ModuleResolution.Command.Run
import ModuleResolution.FileSystem.Disk
import ModuleResolution.Proofs.Config.Integers
import ModuleResolution.Proofs.Config.Layers
import ModuleResolution.Proofs.Text.Utf8
import ModuleResolution.Proofs.Yaml.Hexadecimal

/-!
# Settings that can be loaded

Loading settings fails for two reasons: the configuration file is nested deeper than its reader
admits, or a part that is read by its text has a value there with an integer that is too long to be
written.  YAML texts can spell such integers, in other bases than ten and in sixties; JSON texts,
the environment and the command line cannot.
-/

namespace ModuleResolution

theorem FileSystem.Disk.unifyLines_of_not_mem {text : Text} (h : '\r' ∉ text) :
    unifyLines text = text := by
  induction text using unifyLines.induct with
  | case1 => rfl
  | case2 rest ih => exact absurd List.mem_cons_self h
  | case3 rest hnext ih => exact absurd List.mem_cons_self h
  | case4 c rest hpair hbreak ih =>
      rw [unifyLines, ih (List.not_mem_of_not_mem_cons h)]
      · exact hpair
      · exact hbreak

namespace Config

open Value (HasInteger IsTooLong)

/-! ## Layers without long integers -/

theorem Value.exists_mem_of_field? {name : Text} {entries : List (Value × Value)} {value : Value}
    (h : field? name entries = some value) : ∃ key, (key, value) ∈ entries := by
  induction entries with
  | nil => cases h
  | cons entry rest ih =>
      obtain ⟨key, found⟩ := entry
      have hrest : ∀ entry, field? name rest = some value -> ∃ key, (key, value) ∈ entry :: rest :=
        fun _ h => (ih h).imp fun _ hmem => List.mem_cons_of_mem _ hmem
      cases key with
      | string key =>
          rw [field?] at h
          split at h
          · obtain rfl := Option.some.inj h
            exact ⟨_, List.mem_cons_self⟩
          · exact hrest _ h
      | _ => exact hrest _ h

namespace Layer

variable {layer : Layer} {field : Field}

theorem isUnwritable_iff : layer.isUnwritable ↔ ∃ field value, Settings.readsText field ∧
    layer.value? field = some value ∧ value.isOversized := by
  simp only [isUnwritable, isUnwritableAt, List.any_eq_true, Bool.and_eq_true, Option.any_eq_true]
  constructor
  · rintro ⟨field, -, hreads, value, hheld, hoversized⟩
    exact ⟨field, value, hreads, hheld, hoversized⟩
  · rintro ⟨field, value, hreads, hheld, hoversized⟩
    exact ⟨field, field.mem_all, hreads, value, hheld, hoversized⟩

theorem not_isUnwritable_ofEntries {entries : List (Value × Value)}
    (h : ∀ entry ∈ entries, entry.2.isOversized = false) (source : Text) :
    (ofEntries source entries).isUnwritable = false := by
  refine Bool.eq_false_iff.2 fun hunwritable => ?_
  obtain ⟨field, value, -, hheld, hoversized⟩ := isUnwritable_iff.1 hunwritable
  obtain ⟨key, hmem⟩ := Value.exists_mem_of_field? hheld
  rw [h _ hmem] at hoversized
  cases hoversized

theorem not_isUnwritable_ofEnvironment (environment : Environment) :
    (ofEnvironment environment).isUnwritable = false := by
  refine Bool.eq_false_iff.2 fun hunwritable => ?_
  obtain ⟨field, value, -, hheld, hoversized⟩ := isUnwritable_iff.1 hunwritable
  have hshort : value.isOversized = false := by
    cases field <;> obtain ⟨said, -, rfl⟩ := Option.map_eq_some_iff.1 hheld <;>
      rw [Value.isOversized]
  rw [hshort] at hoversized
  cases hoversized

end Layer

theorem not_isOversized_valueOf (text : Option Text) :
    (Command.valueOf text).isOversized = false := by
  cases text <;> rw [Command.valueOf, Value.isOversized]
  rfl

theorem not_isOversized_of_mem_layer {options : Command.Options} :
    ∀ entry ∈ Command.layer options, entry.2.isOversized = false := by
  have hone : ∀ (field : Field) (value : Option Value),
      (∀ found ∈ value, found.isOversized = false) ->
      ∀ entry ∈ value.toList.map fun value => (Value.string field.name, value),
        entry.2.isOversized = false := by
    rintro field (_ | found) h entry hentry
    · cases hentry
    · rw [List.mem_singleton.1 hentry]
      exact h found rfl
  unfold Command.layer
  refine List.forall_mem_append.2 ⟨List.forall_mem_append.2 ⟨hone _ _ ?_, hone _ _ ?_⟩, hone _ _ ?_⟩
  · intro found hfound
    obtain ⟨values, -, rfl⟩ := Option.map_eq_some_iff.1 hfound
    rw [Value.isOversized, Value.anyOversized_eq, List.any_map]
    exact List.any_eq_false.2 fun value _ => by simp [not_isOversized_valueOf]
  · intro found hfound
    split at hfound
    · obtain rfl := Option.some.inj hfound
      rw [Value.isOversized]
    · cases hfound
  · intro found hfound
    obtain ⟨value, -, rfl⟩ := Option.map_eq_some_iff.1 hfound
    exact not_isOversized_valueOf value

theorem not_isUnwritable_command (options : Command.Options) (source : Text) :
    (Layer.ofEntries source (Settings.given (Command.layer options))).isUnwritable = false :=
  Layer.not_isUnwritable_ofEntries
    (fun entry hentry => not_isOversized_of_mem_layer entry (List.mem_filter.1 hentry).1) source

/-! ## Configuration files -/

namespace Settings

variable {files : FileSystem} {path : Text}

/-- There is a configuration file, and the limit on nesting does not admit what it holds. -/
structure IsTooDeep (admits : Text -> Bool) (files : FileSystem) (path : Text) : Prop where
  ne_nil : path ≠ []
  isFile : files.isFile path
  tooDeep : files.readText path = .error .tooDeep ∨
    ∃ text, files.readText path = .ok text ∧ admits text = false

/-- A file that is read as YAML and has a value with an integer that is too long, for a part that is
read by its text. -/
structure HoldsLongInteger (files : FileSystem) (path : Text) : Prop where
  ne_nil : path ≠ []
  isFile : files.isFile path
  isYaml : ¬".json".toList.isSuffixOf (Text.lower path)
  holds : ∃ text value field held n, files.readText path = .ok text ∧
    Value.ofYaml? text = some value ∧ readsText field ∧
    Value.field? field.name (entriesOf value) = some held ∧ HasInteger n held ∧ IsTooLong n

theorem isTooDeep_iff : isTooDeep files path ↔
    path ≠ [] ∧ files.isFile path ∧ files.readText path = .error .tooDeep := by
  unfold isTooDeep
  cases path with
  | nil => simp
  | cons c rest => split <;> simp_all

theorem isTooDeep_limited_iff {admits : Text -> Bool} :
    isTooDeep (files.limited admits) path ↔ IsTooDeep admits files path := by
  rw [isTooDeep_iff, FileSystem.readText_limited_eq_tooDeep_iff, FileSystem.isFile_limited]
  exact ⟨fun h => ⟨h.1, h.2.1, h.2.2⟩, fun h => ⟨h.ne_nil, h.isFile, h.tooDeep⟩⟩

theorem not_isTooDeep {admits : Text -> Bool} (h : ¬IsTooDeep admits files path) :
    ¬isTooDeep files path := by
  intro hdeep
  obtain ⟨hne, hfile, htooDeep⟩ := isTooDeep_iff.1 hdeep
  exact h ⟨hne, hfile, .inl htooDeep⟩

theorem not_isOversized_of_mem {entries : List (Value × Value)}
    (h : (Value.map entries).isOversized = false) :
    ∀ entry ∈ entries, entry.2.isOversized = false := by
  intro entry hentry
  rw [Value.isOversized, Value.anyEntryOversized_eq, List.any_eq_false] at h
  exact (Bool.or_eq_false_iff.1 (Bool.eq_false_iff.2 (h entry hentry))).2

theorem not_isOversized_of_mem_entriesOf {value : Value} (h : value.isOversized = false) :
    ∀ entry ∈ entriesOf value, entry.2.isOversized = false := by
  unfold entriesOf
  split
  · next entries =>
      split
      · next inner hinner =>
          obtain ⟨key, hmem⟩ := Value.exists_mem_of_field? hinner
          exact not_isOversized_of_mem (not_isOversized_of_mem h _ hmem)
      · exact nofun
      · exact not_isOversized_of_mem h
  · exact nofun

theorem fileLayer_fst (files : FileSystem) (path : Text) : (fileLayer files path).1 =
    if path.isEmpty || !files.isFile path then [] else
      ((readFile? files path).map entriesOf).getD [] := by
  unfold fileLayer
  split
  · next hnil => simp [hnil]
  · next hne =>
      split
      · next hfile => simp [hfile]
      · next hfile => cases readFile? files path <;> simp [hne, hfile]

theorem readFile?_eq_some_iff {value : Value} : readFile? files path = some value ↔
    ∃ text, files.readText path = .ok text ∧
      ((".json".toList.isSuffixOf (Text.lower path) ∧
          ∃ json, Json.read text = .ok json ∧ Value.ofJson json = value) ∨
        (¬".json".toList.isSuffixOf (Text.lower path) ∧ Value.ofYaml? text = some value)) := by
  unfold readFile?
  generalize ".json".toList.isSuffixOf (Text.lower path) = json
  cases files.readText path with
  | error fault => simp
  | ok text =>
      cases json with
      | true => cases hread : Json.read text <;> simp [hread, Except.toOption]
      | false => simp

theorem isUnwritable_fileLayer_iff (source : Text) :
    (Layer.ofEntries source (fileLayer files path).1).isUnwritable ↔
      HoldsLongInteger files path := by
  rw [fileLayer_fst]
  constructor
  · intro h
    obtain ⟨field, held, hreads, hheld, hoversized⟩ := Layer.isUnwritable_iff.1 h
    simp only [Layer.ofEntries] at hheld
    split at hheld
    · cases hheld
    next hfile =>
    obtain ⟨hne, hfile⟩ : path ≠ [] ∧ files.isFile path := by simpa using hfile
    cases hread : readFile? files path with
    | none =>
        rw [hread] at hheld
        cases hheld
    | some value =>
        rw [hread] at hheld
        have hvalue : value.isOversized ≠ false := fun hshort => by
          obtain ⟨key, hmem⟩ := Value.exists_mem_of_field? hheld
          rw [not_isOversized_of_mem_entriesOf hshort _ hmem] at hoversized
          cases hoversized
        obtain ⟨text, htext, ⟨hjson, json, hjsonRead, rfl⟩ | ⟨hyaml, hyamlRead⟩⟩ :=
          readFile?_eq_some_iff.1 hread
        · exact absurd (Value.not_isOversized_of_read hjsonRead) hvalue
        · obtain ⟨n, hn, hlong⟩ := Value.isOversized_iff.1 hoversized
          exact ⟨hne, hfile, hyaml, text, value, field, held, n, htext, hyamlRead, hreads, hheld, hn,
            hlong⟩
  · rintro ⟨hne, hfile, hyaml, text, value, field, held, n, htext, hyamlRead, hreads, hheld, hn,
      hlong⟩
    have hread := readFile?_eq_some_iff.2 ⟨text, htext, .inr ⟨hyaml, hyamlRead⟩⟩
    refine Layer.isUnwritable_iff.2 ⟨field, held, hreads, ?_,
      Value.isOversized_iff.2 ⟨n, hn, hlong⟩⟩
    rw [Layer.ofEntries, if_neg (by simp [hne, hfile]), hread]
    exact hheld

theorem fileLayer_limited {admits : Text -> Bool} (h : ¬IsTooDeep admits files path) :
    fileLayer (files.limited admits) path = fileLayer files path := by
  unfold fileLayer readFile?
  rw [FileSystem.isFile_limited]
  split
  · rfl
  · next hne =>
      split
      · rfl
      · next hfile =>
          have hread : (files.limited admits).readText path = files.readText path := by
            refine FileSystem.readText_limited fun text htext => ?_
            refine (Bool.eq_false_or_eq_true _).resolve_right fun hadmits => ?_
            exact h ⟨by simpa using hne, by simpa using hfile, .inr ⟨text, htext, hadmits⟩⟩
          rw [hread]

theorem layers_limited {admits : Text -> Bool} {environment : Environment} {asked : Option Text}
    (h : ¬IsTooDeep admits files (configPath asked environment))
    (overrides : List (Value × Value)) :
    layers (files.limited admits) environment asked overrides =
      layers files environment asked overrides := by
  simp only [layers, fileLayer_limited h]

theorem load_of_isTooDeep {admits : Text -> Bool} {environment : Environment} {asked : Option Text}
    (h : IsTooDeep admits files (configPath asked environment)) (overrides : List (Value × Value)) :
    load (files.limited admits) environment asked overrides = .error .tooDeep := by
  rw [load_eq, if_pos (isTooDeep_limited_iff.2 h)]

theorem load_limited {admits : Text -> Bool} {environment : Environment} {asked : Option Text}
    (h : ¬IsTooDeep admits files (configPath asked environment))
    (overrides : List (Value × Value)) :
    load (files.limited admits) environment asked overrides =
      load files environment asked overrides := by
  rw [load_eq, if_neg (mt isTooDeep_limited_iff.1 h), layers_limited h, fileLayer_limited h,
    load_eq, if_neg (not_isTooDeep h)]

/-- What the command line and the environment say can always be read, so loading breaks off at the
configuration file alone. -/
theorem load_command_eq {environment : Environment} {asked : Option Text}
    (h : ¬isTooDeep files (configPath asked environment)) (options : Command.Options) :
    load files environment asked (Command.layer options) =
      if (Layer.ofEntries (configPath asked environment)
          (fileLayer files (configPath asked environment)).1).isUnwritable then
        .error .oversizedInteger
      else .ok ((layers files environment asked (Command.layer options)).foldr Layer.layOn builtIn,
        (fileLayer files (configPath asked environment)).2 ++
          (layers files environment asked (Command.layer options)).reverse.flatMap
            Layer.notices) := by
  rw [load_eq, if_neg h]
  simp only [layers, List.any_cons, List.any_nil, not_isUnwritable_command,
    Layer.not_isUnwritable_ofEnvironment, Bool.false_or, Bool.or_false]

/-- A file that is missing or cannot be read gives no layer. -/
theorem fileLayer_fst_eq_nil (h : readFile? files path = none ∨ ¬files.isFile path) :
    (fileLayer files path).1 = [] := by
  rw [fileLayer_fst]
  rcases h with hnone | hfile
  · simp [hnone]
  · simp [hfile]

theorem mem_notices {layers : List Layer} {layer : Layer} {field : Field} (hlayer : layer ∈ layers)
    (hinvalid : layer.isInvalid field) :
    .invalid field layer.source ∈ layers.reverse.flatMap Layer.notices := by
  refine List.mem_flatMap.2 ⟨layer, List.mem_reverse.2 hlayer, ?_⟩
  exact List.mem_map.2 ⟨field, List.mem_filter.2 ⟨field.mem_all, hinvalid⟩, rfl⟩

def hexDisk (digits : Text) : FileSystem :=
  FileSystem.Disk.toFileSystem ⟨[(["c.yml".toList], Text.Utf8.encode (Yaml.hexDocument digits))], []⟩

theorem readText_hexDisk {digits : Text} (h : Yaml.IsHex digits) :
    (hexDisk digits).readText "c.yml".toList = .ok (Yaml.hexDocument digits) := by
  have hbreak : '\r' ∉ Yaml.hexDocument digits := by
    intro hmem
    rcases List.mem_append.1 hmem with hmem | hmem
    · exact absurd hmem (by decide)
    rcases List.mem_append.1 hmem with hmem | hmem
    · exact absurd hmem (by decide)
    · cases h.isSome_hexValue? _ hmem
  have hread : FileSystem.Disk.read
      ⟨[(["c.yml".toList], Text.Utf8.encode (Yaml.hexDocument digits))], []⟩ "c.yml".toList =
        .ok (Text.Utf8.encode (Yaml.hexDocument digits)) := rfl
  simp only [hexDisk, FileSystem.Disk.toFileSystem, FileSystem.Disk.readText, hread, bind,
    Except.bind, Text.Utf8.decode?_encode, FileSystem.Disk.unifyLines_of_not_mem hbreak]
  rfl

theorem holdsLongInteger_hexDisk {digits : Text} (h : Yaml.IsHex digits)
    (hlong : IsTooLong (Yaml.Atom.inBase 16 digits)) :
    HoldsLongInteger (hexDisk digits) "c.yml".toList where
  ne_nil := nofun
  isFile := rfl
  isYaml := by decide
  holds := ⟨_, _, .enableCache, _, _, readText_hexDisk h, Value.ofYaml?_hexDocument h, rfl, rfl,
    .here, hlong⟩

end Settings

end Config

end ModuleResolution
