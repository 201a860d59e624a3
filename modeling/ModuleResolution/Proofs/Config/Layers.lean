import ModuleResolution.Config.Settings
import ModuleResolution.FileSystem.Memory

/-!
# Layers of settings

Every part of the settings is what the highest layer with a value that makes sense for it says, and
what is built in if there is none.  A value that makes no sense gives one notice and has no other
effect.
-/

namespace ModuleResolution

namespace Config

/-! ## Parts of settings -/

/-- What a part of the settings can be. -/
inductive Reading where
  | texts (items : List Text)
  | truth (value : Bool)
  | name (text : Text)
  deriving DecidableEq, Repr

/-- What a value means for a part of the settings, if it makes sense there. -/
def Field.reading? (field : Field) (value : Value) : Option Reading :=
  match field with
  | .conditions => value.texts?.map .texts
  | .experimentalFlags => value.texts?.map .texts
  | .enableCache => value.truth?.map .truth
  | .logLevel => value.levelName?.map .name

/-- The parts of the settings in the order in which a layer is read. -/
def Field.all : List Field :=
  [.conditions, .experimentalFlags, .enableCache, .logLevel]

theorem Field.mem_all (field : Field) : field ∈ Field.all := by
  cases field <;> decide

theorem Field.name_inj {first second : Field} : first.name = second.name ↔ first = second := by
  cases first <;> cases second <;> decide

namespace Settings

/-- What a part of the settings is.  The flags may be left to the environment. -/
def reading? (settings : Settings) : Field -> Option Reading
  | .conditions => some (.texts settings.conditions)
  | .experimentalFlags => settings.flags.map .texts
  | .enableCache => some (.truth settings.enableCache)
  | .logLevel => some (.name settings.logLevel)

variable {settings settings' : Settings} {field : Field} {value : Value}

theorem set?_eq_none_iff : settings.set? field value = none ↔ field.reading? value = none := by
  cases field <;> simp [set?, Field.reading?]

theorem exists_reading?_of_set? (h : settings.set? field value = some settings') :
    ∃ meaning, field.reading? value = some meaning := by
  refine Option.ne_none_iff_exists'.1 fun hnone => ?_
  rw [set?_eq_none_iff.2 hnone] at h
  cases h

theorem reading?_of_set? (h : settings.set? field value = some settings') (part : Field) :
    settings'.reading? part =
      if part = field then field.reading? value else settings.reading? part := by
  cases field <;> obtain ⟨meaning, hmeaning, rfl⟩ := Option.map_eq_some_iff.1 h <;> cases part <;>
    simp [reading?, Field.reading?, hmeaning]

end Settings

/-! ## Layers -/

/-- A layer of settings: what it is called in notices, and the value that it has for a part. -/
structure Layer where
  source : Text
  value? : Field -> Option Value

namespace Layer

/-- What a layer makes of a part of the settings. -/
def reading? (layer : Layer) (field : Field) : Option Reading :=
  (layer.value? field).bind field.reading?

/-- Does a layer have a value for a part that makes no sense there? -/
def isInvalid (layer : Layer) (field : Field) : Bool :=
  (layer.value? field).any fun value => (field.reading? value).isNone

/-- One notice for each value that makes no sense. -/
def notices (layer : Layer) : List Notice :=
  (Field.all.filter layer.isInvalid).map fun field => .invalid field layer.source

/-- Give a part of the settings what a layer makes of it, if anything. -/
def set (layer : Layer) (settings : Settings) (field : Field) : Settings :=
  ((layer.value? field).bind (settings.set? field)).getD settings

/-- Lay a layer over settings. -/
def layOn (layer : Layer) (settings : Settings) : Settings :=
  Field.all.foldl layer.set settings

/-- Does a layer have a value for a part that is read by its text, with an integer that is too long
for that? -/
def isUnwritableAt (layer : Layer) (field : Field) : Bool :=
  Settings.readsText field && (layer.value? field).any Value.isOversized

def isUnwritable (layer : Layer) : Bool :=
  Field.all.any layer.isUnwritableAt

def ofEntries (source : Text) (entries : List (Value × Value)) : Layer where
  source := source
  value? field := Value.field? field.name entries

/-- The environment as a layer.  An empty variable says nothing, and neither does a word for or
against turning the cache off that stands for no truth value. -/
def ofEnvironment (environment : Environment) : Layer where
  source := "environment".toList
  value?
    | .conditions => (environment.value? .conditions).map .string
    | .experimentalFlags => (environment.value? .experimentalFlags).map .string
    | .enableCache =>
        ((environment.value? .disableCache).bind Value.wordTruth?).map fun disabled =>
          .bool !disabled
    | .logLevel => (environment.value? .logLevel).map .string

end Layer

theorem Value.field?_append (name : Text) (first second : List (Value × Value)) :
    field? name (first ++ second) = (field? name first).or (field? name second) := by
  induction first with
  | nil => rfl
  | cons entry rest ih =>
      obtain ⟨key, value⟩ := entry
      cases key with
      | string key =>
          simp only [List.cons_append, field?]
          split
          · rfl
          · exact ih
      | _ => exact ih

theorem Value.field?_entry (field other : Field) (value : Option Value) :
    field? field.name (value.toList.map fun value => (.string other.name, value)) =
      if other = field then value else none := by
  cases value with
  | none => simp [field?]
  | some value => simp [field?, Field.name_inj]

theorem Layer.ofEntries_environmentLayer (environment : Environment) :
    ofEntries "environment".toList (Settings.environmentLayer environment) =
      ofEnvironment environment := by
  refine congrArg (Layer.mk "environment".toList) (funext fun field => ?_)
  simp only [Settings.environmentLayer, Value.field?_append, Value.field?_entry]
  cases environment.value? .disableCache <;> cases field <;> simp

/-- The layers above what is built in, the highest one first. -/
def Settings.layers (files : FileSystem) (environment : Environment) (asked : Option Text)
    (overrides : List (Value × Value)) : List Layer :=
  let path := configPath asked environment
  [.ofEntries "command line".toList (given overrides), .ofEnvironment environment,
    .ofEntries path (fileLayer files path).1]

/-! ## Laying layers over settings -/

namespace Layer

variable {layer : Layer} {settings : Settings} {field part : Field}

theorem reading?_set : (layer.set settings field).reading? part =
    if part = field then (layer.reading? part).or (settings.reading? part)
    else settings.reading? part := by
  unfold set reading?
  cases hvalue : layer.value? field with
  | none =>
      split
      · next hpart => simp [hpart, hvalue]
      · simp
  | some value =>
      rw [Option.bind_some]
      cases hset : settings.set? field value with
      | none =>
          have hinvalid := Settings.set?_eq_none_iff.1 hset
          split
          · next hpart => simp [hpart, hvalue, hinvalid]
          · simp
      | some settings' =>
          rw [Option.getD_some, Settings.reading?_of_set? hset]
          split
          · next hpart =>
              obtain ⟨meaning, hmeaning⟩ := Settings.exists_reading?_of_set? hset
              simp [hpart, hvalue, hmeaning]
          · rfl

theorem reading?_foldl_set (fields : List Field) :
    (fields.foldl layer.set settings).reading? part =
      if part ∈ fields then (layer.reading? part).or (settings.reading? part)
      else settings.reading? part := by
  induction fields generalizing settings with
  | nil => simp
  | cons field fields ih =>
      rw [List.foldl_cons, ih, reading?_set]
      by_cases hpart : part = field
      · cases hreading : layer.reading? part <;> simp [hpart]
      · simp [hpart]

theorem reading?_layOn :
    (layer.layOn settings).reading? part = (layer.reading? part).or (settings.reading? part) := by
  rw [layOn, reading?_foldl_set, if_pos (Field.mem_all part)]

theorem reading?_foldr_layOn (layers : List Layer) :
    (layers.foldr layOn settings).reading? part =
      (layers.findSome? (·.reading? part)).or (settings.reading? part) := by
  induction layers with
  | nil => rfl
  | cons layer layers ih =>
      rw [List.foldr_cons, reading?_layOn, ih, List.findSome?_cons]
      cases layer.reading? part <;> rfl

end Layer

/-! ## Loading -/

namespace Settings

variable {source : Text} {entries : List (Value × Value)} {settings settings' : Settings}
  {field : Field} {notices : List Notice}

theorem applyField_eq (source : Text) (entries : List (Value × Value)) (settings : Settings)
    (field : Field) : applyField source entries settings field =
      if (Layer.ofEntries source entries).isUnwritableAt field then .error .oversizedInteger
      else .ok ((Layer.ofEntries source entries).set settings field,
        if (Layer.ofEntries source entries).isInvalid field then [.invalid field source] else []) := by
  simp only [applyField, Layer.isUnwritableAt, Layer.set, Layer.isInvalid, Layer.ofEntries]
  split
  · next hvalue => simp [hvalue]
  next value hvalue =>
  simp only [hvalue, Option.any_some, Option.bind_some]
  split
  · rfl
  cases hset : settings.set? field value with
  | none => simp [set?_eq_none_iff.1 hset]
  | some settings' =>
      obtain ⟨meaning, hmeaning⟩ := exists_reading?_of_set? hset
      simp [hmeaning]

theorem foldlM_applyField (fields : List Field) (before : List Notice) :
    fields.foldlM (fun (settings, notices) field => do
        let (settings, here) <- applyField source entries settings field
        return (settings, notices ++ here)) (settings, before) =
      if fields.any (Layer.ofEntries source entries).isUnwritableAt then .error .oversizedInteger
      else .ok (fields.foldl (Layer.ofEntries source entries).set settings, before ++
        (fields.filter (Layer.ofEntries source entries).isInvalid).map (.invalid · source)) := by
  induction fields generalizing settings before with
  | nil => simp [pure, Except.pure]
  | cons field fields ih =>
      simp only [applyField_eq] at ih ⊢
      rw [List.foldlM_cons]
      cases hunwritable : (Layer.ofEntries source entries).isUnwritableAt field with
      | true => simp [hunwritable, bind, Except.bind]
      | false =>
          simp only [Bool.false_eq_true, if_false, bind, Except.bind, pure, Except.pure] at ih ⊢
          rw [ih, List.any_cons, hunwritable, Bool.false_or, List.foldl_cons, List.filter_cons]
          cases (Layer.ofEntries source entries).isInvalid field <;> simp

/-- Applying a layer fails if a part of it cannot be read, and lays it over the settings
otherwise. -/
theorem apply_eq (source : Text) (entries : List (Value × Value)) (settings : Settings) :
    settings.apply source entries =
      if (Layer.ofEntries source entries).isUnwritable then .error .oversizedInteger
      else .ok ((Layer.ofEntries source entries).layOn settings,
        (Layer.ofEntries source entries).notices) := by
  rw [apply]
  exact foldlM_applyField Field.all []

section Sequencing

variable {α β : Type} (fails other : Bool) (cause : LoadError)

theorem bind_ite (result : α) (next : α -> Except LoadError β) :
    ((if fails then .error cause else .ok result : Except LoadError α) >>= next) =
      if fails then .error cause else next result := by
  cases fails <;> rfl

theorem ite_ite (result : Except LoadError α) :
    (if fails then .error cause else if other then .error cause else result) =
      if other || fails then .error cause else result := by
  cases fails <;> cases other <;> rfl

end Sequencing

/-- Loading fails if the configuration file is nested too deep or some layer cannot be read, and
lays the layers over what is built in otherwise. -/
theorem load_eq (files : FileSystem) (environment : Environment) (asked : Option Text)
    (overrides : List (Value × Value)) :
    load files environment asked overrides =
      if isTooDeep files (configPath asked environment) then .error .tooDeep
      else if (layers files environment asked overrides).any Layer.isUnwritable then
        .error .oversizedInteger
      else .ok ((layers files environment asked overrides).foldr Layer.layOn builtIn,
        (fileLayer files (configPath asked environment)).2 ++
          (layers files environment asked overrides).reverse.flatMap Layer.notices) := by
  simp only [load, layers, apply_eq, Layer.ofEntries_environmentLayer, bind_ite, pure,
    Except.pure, ite_ite]
  split
  · rfl
  simp only [List.any_cons, List.any_nil, List.foldr_cons, List.foldr_nil, List.reverse_cons,
    List.reverse_nil, List.flatMap_append, List.flatMap_cons, List.flatMap_nil, List.nil_append,
    List.append_nil, Bool.or_false, List.append_assoc, Bool.or_assoc]

/-- If settings are loaded, then each part of them is what the highest layer with a value that
makes sense for it says, or else what is built in.  The notices are those about the configuration
file itself and one for each value that makes no sense, layer by layer from below.

So a value that makes no sense has no influence on the settings, and no part has influence on
another one: two runs whose layers make the same of a part agree on that part. -/
theorem load_layers {files : FileSystem} {environment : Environment} {asked : Option Text}
    {overrides : List (Value × Value)}
    (h : load files environment asked overrides = .ok (settings, notices)) :
    (∀ field, settings.reading? field =
      ((layers files environment asked overrides).findSome? (·.reading? field)).or
        (builtIn.reading? field)) ∧
    notices = (fileLayer files (configPath asked environment)).2 ++
      (layers files environment asked overrides).reverse.flatMap Layer.notices ∧
    ∀ files' environment' asked' overrides' settings' notices' field,
      load files' environment' asked' overrides' = .ok (settings', notices') ->
      (layers files' environment' asked' overrides').map (·.reading? field) =
        (layers files environment asked overrides).map (·.reading? field) ->
      settings'.reading? field = settings.reading? field := by
  have hload : ∀ {files environment asked overrides settings notices},
      load files environment asked overrides = .ok (settings, notices) ->
        settings = (layers files environment asked overrides).foldr Layer.layOn builtIn ∧
        notices = (fileLayer files (configPath asked environment)).2 ++
          (layers files environment asked overrides).reverse.flatMap Layer.notices := by
    intro files environment asked overrides settings notices h
    rw [load_eq] at h
    split at h
    · cases h
    split at h
    · cases h
    · cases h
      exact ⟨rfl, rfl⟩
  obtain ⟨rfl, rfl⟩ := hload h
  refine ⟨fun field => Layer.reading?_foldr_layOn _, rfl, ?_⟩
  intro files' environment' asked' overrides' settings' notices' field h' hsame
  obtain ⟨rfl, -⟩ := hload h'
  have hfind : ∀ layers : List Layer, layers.findSome? (·.reading? field) =
      (layers.map (·.reading? field)).findSome? id := by
    intro layers
    rw [List.findSome?_map]
    rfl
  rw [Layer.reading?_foldr_layOn, Layer.reading?_foldr_layOn, hfind, hfind, hsame]

def unclearCache : FileSystem := FileSystem.Memory.toFileSystem
  ⟨[("/c.json".toList, Text.Utf8.encode
    ("\x7b\"conditions\": \"a,b\", \"enable_cache\": \"maybe\", " ++
      "\"log_level\": \"debug\"\x7d").toList)], []⟩

def unclearLevel : List (Value × Value) :=
  [(.string "conditions".toList, .null), (.string "log_level".toList, .string "loud".toList)]

theorem load_layers_unclear :
    load unclearCache [("ESMRESOLVE_DISABLE_CACHE".toList, "perhaps".toList)]
        (some "/c.json".toList) unclearLevel =
      .ok (⟨["a".toList, "b".toList], none, true, "DEBUG".toList⟩,
        [.invalid .enableCache "/c.json".toList, .invalid .logLevel "command line".toList]) ∧
    ((layers unclearCache [("ESMRESOLVE_DISABLE_CACHE".toList, "perhaps".toList)]
        (some "/c.json".toList) unclearLevel).findSome? (·.reading? .logLevel)).or
      (builtIn.reading? .logLevel) = some (.name "DEBUG".toList) := by
  have hload : load unclearCache [("ESMRESOLVE_DISABLE_CACHE".toList, "perhaps".toList)]
      (some "/c.json".toList) unclearLevel =
        .ok (⟨["a".toList, "b".toList], none, true, "DEBUG".toList⟩,
          [.invalid .enableCache "/c.json".toList, .invalid .logLevel "command line".toList]) := by
    rw [load_eq, if_neg (by decide +kernel), if_neg (by decide +kernel)]
    exact congrArg Except.ok (by decide +kernel)
  exact ⟨hload, ((load_layers hload).1 .logLevel).symm⟩

end Settings

end Config

end ModuleResolution
