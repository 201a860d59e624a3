import ModuleResolution.FileSystem.Memory
import ModuleResolution.Proofs.Package.Scope
import ModuleResolution.Proofs.Path.Name
import ModuleResolution.Proofs.Resolution.Precedence
import ModuleResolution.Proofs.Trace

/-!
# Formats of files

The format of a file follows a table of rules of which the first one that applies decides.  The
rules look at the end of the path, at the manifest nearest to it and at the first octets, so nothing
else has any influence on the format.
-/

namespace ModuleResolution

open Package

/-! ## Tables of rules -/

/-- When a rule applies to a file, and which formats it gives then. -/
structure FormatRule where
  applies : Prop
  gives : Option Format -> Prop

/-- The first rule that applies decides; without one there is no format. -/
def DecidedBy : List FormatRule -> Option Format -> Prop
  | [], format => format = none
  | rule :: rest, format =>
      (rule.applies ∧ rule.gives format) ∨ (¬rule.applies ∧ DecidedBy rest format)

section Tables

variable {rule : FormatRule} {rest : List FormatRule} {format : Option Format}

theorem decidedBy_of_applies (h : rule.applies) :
    DecidedBy (rule :: rest) format ↔ rule.gives format := by
  simp [DecidedBy, h]

theorem decidedBy_of_not_applies (h : ¬rule.applies) :
    DecidedBy (rule :: rest) format ↔ DecidedBy rest format := by
  simp [DecidedBy, h]

theorem DecidedBy.of_forall {p : Option Format -> Prop} {rules : List FormatRule}
    (hnone : p none) (hrules : ∀ rule ∈ rules, ∀ format, rule.gives format -> p format)
    (h : DecidedBy rules format) : p format := by
  induction rules with
  | nil =>
      cases h
      exact hnone
  | cons rule rest ih =>
      rcases h with ⟨-, hgives⟩ | ⟨-, hrest⟩
      · exact hrules rule List.mem_cons_self format hgives
      · exact ih (fun other ho => hrules other (List.mem_cons_of_mem _ ho)) hrest

theorem DecidedBy.unique {rules : List FormatRule}
    (hrules : ∀ rule ∈ rules, ∀ first second, rule.gives first -> rule.gives second ->
      first = second)
    {first second : Option Format} (hfirst : DecidedBy rules first)
    (hsecond : DecidedBy rules second) : first = second := by
  induction rules with
  | nil => exact hfirst.trans hsecond.symm
  | cons rule rest ih =>
      by_cases happlies : rule.applies
      · rw [decidedBy_of_applies happlies] at hfirst hsecond
        exact hrules rule List.mem_cons_self first second hfirst hsecond
      · rw [decidedBy_of_not_applies happlies] at hfirst hsecond
        exact ih (fun other ho => hrules other (List.mem_cons_of_mem _ ho)) hfirst hsecond

end Tables

namespace Resolver

/-! ## The rules -/

section Rules

variable (resolver : Resolver) (path : Text)

/-- The flag for WebAssembly modules is on. -/
def LoadsWasm : Prop :=
  resolver.flags.holds Flags.wasmModules = .ok true

/-- The manifest nearest to the path gives plain scripts this format.  Without a manifest there is
none. -/
def IsScopeFormat (format : Option Format) : Prop :=
  (∃ scope found, Scope.IsNearest resolver.files path scope ∧
      Manifest.load resolver.files scope = .ok found ∧ format = found.bind Manifest.format?) ∨
    ((∀ scope, ¬Scope.IsNearest resolver.files path scope) ∧ format = none)

/-- The rules that do not look at the name of a file. -/
def plainRules : List FormatRule :=
  [⟨resolver.LoadsWasm ∧
      resolver.files.readBytes path wasmMagic.length = .ok wasmMagic, (· = some .wasm)⟩,
    ⟨True, resolver.IsScopeFormat path⟩]

/-- The rules for a file, in their order. -/
def formatRules : List FormatRule :=
  [⟨".mjs".toList.isSuffixOf path, (· = some .module)⟩,
    ⟨".cjs".toList.isSuffixOf path, (· = some .commonjs)⟩,
    ⟨".json".toList.isSuffixOf path, (· = some .json)⟩,
    ⟨".wasm".toList.isSuffixOf path ∧ resolver.LoadsWasm, (· = some .wasm)⟩,
    ⟨".js".toList.isSuffixOf path, fun format =>
      ∃ kind, resolver.IsScopeFormat path kind ∧ format = some (kind.getD .commonjs)⟩,
    ⟨Path.HasNoExtension path, DecidedBy (resolver.plainRules path)⟩]

end Rules

variable {resolver : Resolver} {path : Text} {format : Option Format}

theorem outcome_scopeFormat_eq_ok_iff :
    (resolver.scopeFormat path).outcome = .ok format ↔ resolver.IsScopeFormat path format := by
  have hfind : (Scope.find resolver.files path).outcome =
      .ok (Scope.ofPath? resolver.files path) := rfl
  unfold scopeFormat IsScopeFormat
  rw [Traced.outcome_bind_of_ok hfind, ← Scope.ofPath?_eq_none_iff]
  simp only [← Scope.ofPath?_eq_some_iff]
  cases hscope : Scope.ofPath? resolver.files path with
  | none => simp [eq_comm]
  | some scope =>
      have hload : (Manifest.find resolver.files scope).outcome =
          Manifest.load resolver.files scope := rfl
      simp only [Traced.outcome_bind_eq_ok, hload]
      constructor
      · rintro ⟨found, hfound, hformat⟩
        refine .inl ⟨scope, found, rfl, hfound, ?_⟩
        cases found with
        | none => exact (Except.ok.inj hformat).symm
        | some manifest => exact (Except.ok.inj hformat).symm
      · rintro (⟨_, found, hs, hfound, rfl⟩ | ⟨hs, -⟩)
        · cases hs
          refine ⟨found, hfound, ?_⟩
          cases found with
          | none => rfl
          | some manifest => rfl
        · cases hs

theorem IsScopeFormat.unique {first second : Option Format}
    (hfirst : resolver.IsScopeFormat path first) (hsecond : resolver.IsScopeFormat path second) :
    first = second := by
  rw [← outcome_scopeFormat_eq_ok_iff] at hfirst hsecond
  rw [hfirst] at hsecond
  exact Except.ok.inj hsecond

theorem IsScopeFormat.ne_builtin (h : resolver.IsScopeFormat path format) :
    format ≠ some .builtin := by
  rcases h with ⟨scope, found, -, -, rfl⟩ | ⟨-, rfl⟩
  · intro hformat
    obtain ⟨manifest, -, hkind⟩ := Option.bind_eq_some_iff.1 hformat
    obtain ⟨kind, -, hbuiltin⟩ := Option.map_eq_some_iff.1 hkind
    cases kind <;> cases hbuiltin
  · exact Option.some_ne_none _ ∘ Eq.symm

theorem plainRules_unique : ∀ rule ∈ resolver.plainRules path, ∀ first second,
    rule.gives first -> rule.gives second -> first = second := by
  intro rule hrule first second hfirst hsecond
  simp only [plainRules, List.mem_cons, List.not_mem_nil, or_false] at hrule
  rcases hrule with rfl | rfl
  · exact hfirst.trans hsecond.symm
  · exact IsScopeFormat.unique hfirst hsecond

theorem formatRules_unique : ∀ rule ∈ resolver.formatRules path, ∀ first second,
    rule.gives first -> rule.gives second -> first = second := by
  intro rule hrule first second hfirst hsecond
  simp only [formatRules, List.mem_cons, List.not_mem_nil, or_false] at hrule
  rcases hrule with rfl | rfl | rfl | rfl | rfl | rfl
  · exact hfirst.trans hsecond.symm
  · exact hfirst.trans hsecond.symm
  · exact hfirst.trans hsecond.symm
  · exact hfirst.trans hsecond.symm
  · obtain ⟨kind, hkind, rfl⟩ := hfirst
    obtain ⟨other, hother, rfl⟩ := hsecond
    rw [hkind.unique hother]
  · exact DecidedBy.unique plainRules_unique hfirst hsecond

theorem ne_builtin_of_plainRules (h : DecidedBy (resolver.plainRules path) format) :
    format ≠ some .builtin := by
  refine DecidedBy.of_forall (p := (· ≠ some .builtin)) nofun (fun rule hrule other hother => ?_) h
  simp only [plainRules, List.mem_cons, List.not_mem_nil, or_false] at hrule
  rcases hrule with rfl | rfl
  · rw [hother]
    decide
  · exact hother.ne_builtin

theorem ne_builtin_of_formatRules (h : DecidedBy (resolver.formatRules path) format) :
    format ≠ some .builtin := by
  refine DecidedBy.of_forall (p := (· ≠ some .builtin)) nofun (fun rule hrule other hother => ?_) h
  simp only [formatRules, List.mem_cons, List.not_mem_nil, or_false] at hrule
  rcases hrule with rfl | rfl | rfl | rfl | rfl | rfl
  · rw [hother]; decide
  · rw [hother]; decide
  · rw [hother]; decide
  · rw [hother]; decide
  · obtain ⟨kind, hkind, rfl⟩ := hother
    have hne := hkind.ne_builtin
    cases kind with
    | none => decide
    | some value => exact hne
  · exact ne_builtin_of_plainRules hother

/-! ## Soundness -/

theorem decidedBy_cons_of_ite {c : Prop} [Decidable c] {given : Option Format}
    {next : Traced (Option Format)} {rules : List FormatRule}
    (hnext : next.outcome = .ok format -> DecidedBy rules format)
    (h : (if c then pure given else next).outcome = .ok format) :
    DecidedBy (⟨c, (· = given)⟩ :: rules) format := by
  by_cases hc : c
  · rw [if_pos hc] at h
    exact .inl ⟨hc, (Except.ok.inj h).symm⟩
  · rw [if_neg hc] at h
    exact .inr ⟨hc, hnext h⟩

theorem outcome_holdsFlag_eq_ok_iff {value : Bool} :
    (Traced.ofOutcome (resolver.holdsFlag Flags.wasmModules)).outcome = .ok value ↔
      resolver.flags.holds Flags.wasmModules = .ok value := by
  rw [Traced.outcome_ofOutcome, holdsFlag]
  cases resolver.flags.holds Flags.wasmModules with
  | error cause => exact iff_of_false (fun h => by cases h) fun h => by cases h
  | ok on =>
      constructor
      · intro h
        cases h
        rfl
      · intro h
        cases h
        rfl

theorem not_loadsWasm (h : resolver.flags.holds Flags.wasmModules = .ok false) :
    ¬resolver.LoadsWasm := by
  intro hloads
  rw [LoadsWasm, h] at hloads
  cases hloads

theorem startsLikeWasm_eq_ok_iff {value : Bool} :
    (Traced.ofOutcome (resolver.startsLikeWasm path)).outcome = .ok value ↔
      ∃ octets, resolver.files.readBytes path wasmMagic.length = .ok octets ∧
        (octets == wasmMagic) = value := by
  rw [Traced.outcome_ofOutcome, startsLikeWasm]
  cases resolver.files.readBytes path wasmMagic.length <;> simp

theorem decidedBy_of_formatByScope (h : (resolver.formatByScope path).outcome = .ok format) :
    DecidedBy ((resolver.formatRules path).drop 4) format := by
  unfold formatByScope at h
  obtain ⟨kind, hkind, h⟩ := Traced.outcome_bind_eq_ok.1 h
  rw [outcome_scopeFormat_eq_ok_iff] at hkind
  show DecidedBy [_, _] format
  by_cases hjs : ".js".toList.isSuffixOf path
  · rw [if_pos hjs] at h
    rw [decidedBy_of_applies hjs]
    exact ⟨kind, hkind, (Except.ok.inj h).symm⟩
  · rw [if_neg hjs] at h
    rw [decidedBy_of_not_applies hjs]
    by_cases hextension : Path.extension path = []
    · rw [if_pos hextension] at h
      rw [decidedBy_of_applies (Path.extension_eq_nil_iff.1 hextension)]
      obtain ⟨loads, hloads, h⟩ := Traced.outcome_bind_eq_ok.1 h
      rw [outcome_holdsFlag_eq_ok_iff] at hloads
      cases loads with
      | false =>
          rw [if_neg Bool.false_ne_true] at h
          cases h
          exact .inr ⟨fun hon => not_loadsWasm hloads hon.1, .inl ⟨trivial, hkind⟩⟩
      | true =>
          rw [if_pos rfl] at h
          obtain ⟨starts, hstarts, h⟩ := Traced.outcome_bind_eq_ok.1 h
          obtain ⟨octets, hoctets, hmagic⟩ := startsLikeWasm_eq_ok_iff.1 hstarts
          cases starts with
          | false =>
              cases h
              refine .inr ⟨fun hon => ?_, .inl ⟨trivial, hkind⟩⟩
              rw [hoctets] at hon
              cases hon.2
              cases hmagic
          | true =>
              cases h
              refine .inl ⟨⟨hloads, ?_⟩, rfl⟩
              rw [hoctets, eq_of_beq hmagic]
    · rw [if_neg hextension] at h
      cases h
      rw [decidedBy_of_not_applies fun hno => hextension (Path.extension_eq_nil_iff.2 hno)]
      rfl

theorem decidedBy_of_formatOf (h : (resolver.formatOf path).outcome = .ok format) :
    resolver.files.isFile path ∧ DecidedBy (resolver.formatRules path) format := by
  unfold formatOf at h
  cases hfile : resolver.files.isFile path with
  | false =>
      rw [hfile] at h
      cases h
  | true =>
      rw [hfile, if_neg (by decide)] at h
      refine ⟨rfl, decidedBy_cons_of_ite
        (decidedBy_cons_of_ite (decidedBy_cons_of_ite fun h => ?_)) h⟩
      by_cases hwasm : ".wasm".toList.isSuffixOf path
      · rw [if_pos hwasm] at h
        obtain ⟨loads, hloads, h⟩ := Traced.outcome_bind_eq_ok.1 h
        rw [outcome_holdsFlag_eq_ok_iff] at hloads
        cases loads with
        | true => exact .inl ⟨⟨hwasm, hloads⟩, (Except.ok.inj h).symm⟩
        | false =>
            exact .inr ⟨fun hon => not_loadsWasm hloads hon.2, decidedBy_of_formatByScope h⟩
      · rw [if_neg hwasm] at h
        exact .inr ⟨fun hon => hwasm hon.1, decidedBy_of_formatByScope h⟩

/-! ## Other files -/

/-- The path is a file in both file systems, with the same scope and the same first octets. -/
structure FormatAgree (files other : FileSystem) (path : Text) : Prop where
  isFile : other.isFile path = files.isFile path
  scope : Scope.Agree files other path
  readBytes : other.readBytes path wasmMagic.length = files.readBytes path wasmMagic.length

theorem outcome_scopeFormat_withFiles {other : FileSystem}
    (h : Scope.Agree resolver.files other path) :
    ((resolver.withFiles other).scopeFormat path).outcome =
      (resolver.scopeFormat path).outcome := by
  have hfind : (Scope.find resolver.files path).outcome =
      .ok (Scope.ofPath? resolver.files path) := rfl
  have hfind' : (Scope.find other path).outcome = .ok (Scope.ofPath? resolver.files path) :=
    congrArg Except.ok h.ofPath?_eq
  have hfiles : (resolver.withFiles other).files = other := rfl
  unfold scopeFormat
  rw [hfiles, Traced.outcome_bind_of_ok hfind, Traced.outcome_bind_of_ok hfind']
  cases hscope : Scope.ofPath? resolver.files path with
  | none => rfl
  | some scope =>
      have hload : (Manifest.find other scope).outcome =
          (Manifest.find resolver.files scope).outcome := h.load_eq hscope
      simp only [Traced.outcome_bind]
      rw [hload]

/-- A format rests on three answers: is the path a file, what does its scope give to plain scripts,
and does it start like a WebAssembly module? -/
theorem outcome_formatOf_congr {other : FileSystem}
    (hfile : other.isFile path = resolver.files.isFile path)
    (hscope : ((resolver.withFiles other).scopeFormat path).outcome =
      (resolver.scopeFormat path).outcome)
    (hstarts : (resolver.withFiles other).startsLikeWasm path = resolver.startsLikeWasm path) :
    ((resolver.withFiles other).formatOf path).outcome = (resolver.formatOf path).outcome := by
  have hbyScope : ((resolver.withFiles other).formatByScope path).outcome =
      (resolver.formatByScope path).outcome := by
    unfold formatByScope
    rw [Traced.outcome_bind, Traced.outcome_bind, hscope, hstarts]
    rfl
  have hfile : (resolver.withFiles other).files.isFile path = resolver.files.isFile path := hfile
  unfold formatOf
  rw [hfile]
  simp only [apply_ite Traced.outcome, Traced.outcome_bind, hbyScope]
  rfl

theorem outcome_formatOf_withFiles {other : FileSystem}
    (h : FormatAgree resolver.files other path) :
    ((resolver.withFiles other).formatOf path).outcome = (resolver.formatOf path).outcome := by
  refine outcome_formatOf_congr h.isFile (outcome_scopeFormat_withFiles h.scope) ?_
  have hbytes : (resolver.withFiles other).files.readBytes path wasmMagic.length =
      resolver.files.readBytes path wasmMagic.length := h.readBytes
  unfold startsLikeWasm
  rw [hbytes]

/-! ## Spellings -/

theorem isScopeFormat_congr {first second : Text}
    (h : Path.normalize first = Path.normalize second) :
    resolver.IsScopeFormat first format ↔ resolver.IsScopeFormat second format := by
  unfold IsScopeFormat Scope.IsNearest Scope.candidates
  rw [h]

/-- Over files in memory the rules that do not look at the name are the same for all spellings of a
path. -/
theorem decidedBy_plainRules_congr {memory : FileSystem.Memory}
    (hfiles : resolver.files = memory.toFileSystem) {first second : Text}
    (h : Path.normalize first = Path.normalize second) (hfile : memory.isFile first) :
    DecidedBy (resolver.plainRules first) format ↔
      DecidedBy (resolver.plainRules second) format := by
  have hoctets : memory.octets? second = memory.octets? first := by
    unfold FileSystem.Memory.octets?
    rw [h]
  have hread : memory.read second = memory.read first := by
    unfold FileSystem.Memory.isFile at hfile
    obtain ⟨octets, hfirst⟩ := Option.isSome_iff_exists.1 hfile
    unfold FileSystem.Memory.read
    rw [hoctets, hfirst]
  have hbytes : resolver.files.readBytes second wasmMagic.length =
      resolver.files.readBytes first wasmMagic.length := by
    rw [hfiles]
    simp only [FileSystem.Memory.toFileSystem, hread]
  unfold plainRules
  simp only [DecidedBy, hbytes, isScopeFormat_congr h]

theorem decidedBy_formatRules_congr {memory : FileSystem.Memory}
    (hfiles : resolver.files = memory.toFileSystem) {first second : Text}
    (h : Path.normalize first = Path.normalize second) (hfile : memory.isFile first)
    (hname : Path.basename first = Path.basename second) :
    DecidedBy (resolver.formatRules first) format ↔
      DecidedBy (resolver.formatRules second) format := by
  have hsuffix : ∀ suffix : Text, '/' ∉ suffix ->
      (suffix.isSuffixOf first ↔ suffix.isSuffixOf second) := fun suffix hslash =>
    Path.isSuffixOf_congr hslash hname
  unfold formatRules
  simp only [DecidedBy, hsuffix ".mjs".toList (by decide), hsuffix ".cjs".toList (by decide),
    hsuffix ".json".toList (by decide), hsuffix ".wasm".toList (by decide),
    hsuffix ".js".toList (by decide), isScopeFormat_congr h, Path.hasNoExtension_congr hname,
    decidedBy_plainRules_congr hfiles h hfile]

theorem decidedBy_formatRules_of_not_endsInName (h : ¬Path.EndsInName path) :
    DecidedBy (resolver.formatRules path) format ↔ DecidedBy (resolver.plainRules path) format := by
  have hsuffix : ∀ suffix : Text, '/' ∉ suffix -> 2 < suffix.length ->
      ¬suffix.isSuffixOf path := fun suffix hslash hlength =>
    Bool.eq_false_iff.1 (Path.isSuffixOf_of_not_endsInName h hslash hlength)
  have hwasm : ¬(".wasm".toList.isSuffixOf path ∧ resolver.LoadsWasm) := fun hon =>
    hsuffix ".wasm".toList (by decide) (by decide) hon.1
  unfold formatRules
  rw [decidedBy_of_not_applies (hsuffix ".mjs".toList (by decide) (by decide)),
    decidedBy_of_not_applies (hsuffix ".cjs".toList (by decide) (by decide)),
    decidedBy_of_not_applies (hsuffix ".json".toList (by decide) (by decide)),
    decidedBy_of_not_applies hwasm,
    decidedBy_of_not_applies (hsuffix ".js".toList (by decide) (by decide)),
    decidedBy_of_applies (Path.hasNoExtension_of_not_endsInName h)]

end Resolver

end ModuleResolution
