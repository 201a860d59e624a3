import ModuleResolution.Proofs.Command.Answers
import ModuleResolution.Proofs.Json.RoundTrip

/-!
# Output as JSON

What a run writes in the layout for JSON is read back as one object for each specifier, with the
answer that the specifier got.  The exit code tells whether an answer is an error.
-/

namespace ModuleResolution

namespace Command

/-- The fields that tell what became of a specifier. -/
def fieldsOf (specifier : Text) : Answer -> Json.Fields
  | .ok resolution =>
      [("specifier".toList, .string specifier), ("path".toList, .string resolution.path),
        ("format".toList, resolution.format.elim .null fun format => .string format.name)]
  | .error error =>
      [("specifier".toList, .string specifier), ("error".toList, .string error.name),
        ("message".toList, .string error.message)]

/-- The objects about specifiers and their answers, in order. -/
def objectsOf (specifiers : List Text) (answers : List Answer) : List Json.Fields :=
  List.zipWith fieldsOf specifiers answers

theorem ofRow_row (specifier : Text) (answer : Answer) :
    Json.ofRow (Record.row ⟨specifier, answer⟩) = .object (fieldsOf specifier answer) := by
  cases answer with
  | error error => rfl
  | ok resolution =>
      obtain ⟨path, format⟩ := resolution
      cases format <;> rfl

theorem nodup_row (record : Record) : (record.row.map Prod.fst).Nodup := by
  obtain ⟨specifier, answer⟩ := record
  cases answer with
  | error error => exact (by decide : ["specifier".toList, "error".toList, "message".toList].Nodup)
  | ok resolution =>
      exact (by decide : ["specifier".toList, "path".toList, "format".toList].Nodup)

theorem mem_error_fieldsOf_iff (specifier : Text) (answer : Answer) :
    "error".toList ∈ (fieldsOf specifier answer).map Prod.fst ↔
      Record.failed ⟨specifier, answer⟩ := by
  cases answer with
  | error error => exact iff_of_true (by simp [fieldsOf]) rfl
  | ok resolution =>
      exact iff_of_false
        (by decide : "error".toList ∉ ["specifier".toList, "path".toList, "format".toList])
        (by simp [Record.failed])

variable {specifiers : List Text} {answers : List Answer}

theorem objectsOf_eq_map : objectsOf specifiers answers =
    (List.zipWith Record.mk specifiers answers).map
      fun record => fieldsOf record.specifier record.result := by
  rw [List.map_zipWith, objectsOf]

theorem read_write_records :
    Json.read (Record.write .json (List.zipWith Record.mk specifiers answers)) =
      .ok (.array ((objectsOf specifiers answers).map .object)) := by
  have hnodup : ∀ row ∈ (List.zipWith Record.mk specifiers answers).map Record.row,
      (row.map Prod.fst).Nodup := by
    intro row hrow
    obtain ⟨record, -, rfl⟩ := List.mem_map.1 hrow
    exact nodup_row record
  have hrow : Json.ofRow ∘ Record.row =
      Json.object ∘ fun record : Record => fieldsOf record.specifier record.result :=
    funext fun record => ofRow_row record.specifier record.result
  rw [Record.write, Json.read_write hnodup, objectsOf_eq_map, List.map_map, List.map_map, hrow]

theorem exists_error_iff :
    (∃ fields ∈ objectsOf specifiers answers, "error".toList ∈ fields.map Prod.fst) ↔
      ∃ record ∈ List.zipWith Record.mk specifiers answers, record.failed := by
  rw [objectsOf_eq_map]
  constructor
  · rintro ⟨fields, hfields, herror⟩
    obtain ⟨record, hrecord, rfl⟩ := List.mem_map.1 hfields
    exact ⟨record, hrecord, (mem_error_fieldsOf_iff _ _).1 herror⟩
  · rintro ⟨record, hrecord, hfailed⟩
    exact ⟨_, List.mem_map_of_mem hrecord, (mem_error_fieldsOf_iff _ _).2 hfailed⟩

theorem number_exitCode_report (setup : Setup) (layout : Layout) (events : List Event)
    (records : List Record) : (report setup layout events records).exitCode.number =
      if ∃ record ∈ records, record.failed then 1 else 0 := by
  have hnone : (records.filter Record.failed).length = 0 ↔ ¬∃ record ∈ records, record.failed := by
    rw [List.length_eq_zero_iff, List.filter_eq_nil_iff]
    simp only [not_exists, not_and]
  simp only [report, hnone, ite_not]
  split <;> rfl

/-- A run that writes JSON and reaches its end writes an array, as reading tells, with one object for
each specifier of its command line, in their order.  The object has the specifier character for
character, and then the path and the format that it resolves to, or the name and the message of its
error.  The exit code is 1 if an object has an error, and 0 otherwise. -/
theorem read_output_of_run {world : World} {words : List Text} {options : Options}
    {events : List Event} {written : Report} (hwords : Options.ofWords words = .ok options)
    (hlayout : options.layout.getD .json = .json) (h : run world words = (events, .ok written)) :
    ∃ setup answers, setUp world options = .ok setup ∧
      Answers setup.resolver setup.parent setup.useCache .empty options.specifiers answers ∧
      options.specifiers.Sublist words ∧ answers.length = options.specifiers.length ∧
      Json.read written.output =
        .ok (.array ((objectsOf options.specifiers answers).map .object)) ∧
      written.exitCode.number =
        if ∃ fields ∈ objectsOf options.specifiers answers,
          "error".toList ∈ fields.map Prod.fst then 1 else 0 := by
  obtain ⟨setup, answers, hsetup, hanswers, rfl⟩ := exists_answers_of_run hwords h
  refine ⟨setup, answers, hsetup, hanswers, specifiers_sublist hwords, hanswers.length_eq, ?_, ?_⟩
  · rw [hlayout]
    exact read_write_records
  · simp only [exists_error_iff]
    exact number_exitCode_report _ _ _ _

def oneModule : World where
  files := FileSystem.Memory.toFileSystem
    ⟨[("/d/é😀.mjs".toList, [])], ["/d".toList, "/".toList]⟩
  settingsFiles := FileSystem.Memory.empty.toFileSystem
  logFault? _ := none
  environment := []
  workingDirectory := "/d".toList

/-- The module is asked for, and then a package that is not there. -/
theorem read_output_of_run_missing :
    ∃ options events written answers,
      Options.ofWords ["./é😀.mjs".toList, "a\"b".toList] = .ok options ∧
      options.layout.getD .json = .json ∧
      run oneModule ["./é😀.mjs".toList, "a\"b".toList] = (events, .ok written) ∧
      answers.length = 2 ∧
      Json.read written.output = .ok (.array
        ((objectsOf ["./é😀.mjs".toList, "a\"b".toList] answers).map .object)) ∧
      written.exitCode.number = 1 := by
  have hwords : Options.ofWords ["./é😀.mjs".toList, "a\"b".toList] =
      .ok { Options.unset with specifiers := ["./é😀.mjs".toList, "a\"b".toList] } := rfl
  have hcode : (run oneModule ["./é😀.mjs".toList, "a\"b".toList]).2.toOption.map
      (·.exitCode.number) = some 1 := by decide +kernel
  cases hrun : run oneModule ["./é😀.mjs".toList, "a\"b".toList] with
  | mk events result =>
      rw [hrun] at hcode
      cases result with
      | error cause => cases hcode
      | ok written =>
          obtain ⟨-, answers, -, -, -, hlength, hread, -⟩ := read_output_of_run hwords rfl hrun
          exact ⟨_, events, written, answers, hwords, rfl, rfl, hlength, hread,
            Option.some.inj hcode⟩

end Command

end ModuleResolution
