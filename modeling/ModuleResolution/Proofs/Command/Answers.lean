import ModuleResolution.Command.Run
import ModuleResolution.Proofs.Cache.Batch
import ModuleResolution.Proofs.Command.Words

/-!
# Answers of a run

A run resolves the specifiers of its command line one after the other through one cache.  If it
reaches its end, then every specifier has been answered, with a resolution or with an error, and the
report is that of the records with these answers.
-/

namespace ModuleResolution

namespace Command

/-- What a specifier resolves to, or why it does not. -/
abbrev Answer := Except ResolutionError Resolution

/-- Specifiers that are resolved one after the other through one cache get these answers. -/
inductive Answers (resolver : Resolver) (parent : Text) (useCache : Bool) :
    Cache -> List Text -> List Answer -> Prop where
  | nil {cache : Cache} : Answers resolver parent useCache cache [] []
  | cons {cache : Cache} {specifier : Text} {specifiers : List Text} {answer : Answer}
      {answers : List Answer}
      (here : (resolver.resolve cache specifier parent useCache).1.outcome =
        answer.mapError .resolution)
      (rest : Answers resolver parent useCache
        (resolver.resolve cache specifier parent useCache).2 specifiers answers) :
      Answers resolver parent useCache cache (specifier :: specifiers) (answer :: answers)

namespace Answers

variable {resolver : Resolver} {parent : Text} {useCache : Bool} {cache : Cache}
  {specifiers : List Text} {answers : List Answer}

theorem length_eq (h : Answers resolver parent useCache cache specifiers answers) :
    answers.length = specifiers.length := by
  induction h with
  | nil => rfl
  | cons _ _ ih => rw [List.length_cons, List.length_cons, ih]

end Answers

namespace Record

variable {resolver : Resolver} {parent : Text} {useCache : Bool} {cache : Cache}
  {specifiers : List Text} {records : List Record}

theorem ofOutcome_eq_ok {specifier : Text} {outcome : Except Failure Resolution} {record : Record}
    (h : ofOutcome specifier outcome = .ok record) :
    ∃ answer : Answer, outcome = answer.mapError .resolution ∧ record = ⟨specifier, answer⟩ := by
  match outcome with
  | .ok resolution =>
      cases h
      exact ⟨.ok resolution, rfl, rfl⟩
  | .error (.resolution error) =>
      cases h
      exact ⟨.error error, rfl, rfl⟩
  | .error (.fault fault) => cases h

theorem exists_answers
    (h : (ofSpecifiers resolver parent useCache cache specifiers).1.outcome = .ok records) :
    ∃ answers, Answers resolver parent useCache cache specifiers answers ∧
      records = List.zipWith Record.mk specifiers answers := by
  induction specifiers generalizing cache records with
  | nil =>
      cases h
      exact ⟨[], .nil, rfl⟩
  | cons specifier specifiers ih =>
      rw [outcome_ofSpecifiers_cons] at h
      obtain ⟨record, hrecord, h⟩ := bind_eq_ok.1 h
      obtain ⟨others, hothers, h⟩ := bind_eq_ok.1 h
      cases h
      obtain ⟨answer, hanswer, rfl⟩ := ofOutcome_eq_ok hrecord
      obtain ⟨answers, hanswers, rfl⟩ := ih hothers
      exact ⟨answer :: answers, .cons hanswer hanswers, rfl⟩

theorem ofOutcome_mapError (specifier : Text) (answer : Answer) :
    ofOutcome specifier (answer.mapError .resolution) = .ok ⟨specifier, answer⟩ := by
  cases answer <;> rfl

theorem outcome_ofSpecifiers_of_answers {answers : List Answer}
    (h : Answers resolver parent useCache cache specifiers answers) :
    (ofSpecifiers resolver parent useCache cache specifiers).1.outcome =
      .ok (List.zipWith Record.mk specifiers answers) := by
  induction h with
  | nil => rfl
  | cons here _ ih =>
      rw [outcome_ofSpecifiers_cons, here, ofOutcome_mapError, ih]
      rfl

end Record

theorem Answers.exists_direct {resolver : Resolver} {parent : Text} {useCache : Bool}
    {specifiers : List Text} {answers : List Answer}
    (h : Answers resolver parent useCache .empty specifiers answers) :
    ∀ answer ∈ answers, ∃ specifier ∈ specifiers,
      resolver.direct ⟨specifier, parent⟩ = answer.mapError .resolution := by
  have hrecords := Record.outcome_ofSpecifiers_of_answers h
  rw [Resolver.outcome_ofSpecifiers_empty] at hrecords
  have hresults : (List.zipWith Record.mk specifiers answers).map Record.result = answers := by
    rw [← List.map_uncurry_zip_eq_zipWith, List.map_map]
    exact List.map_snd_zip (Nat.le_of_eq h.length_eq)
  intro answer hmem
  obtain ⟨record, hrecord, rfl⟩ := List.mem_map.1 (hresults ▸ hmem)
  obtain ⟨specifier, hspecifier, hof⟩ := exists_mem_of_mapM_eq_ok hrecords record hrecord
  obtain ⟨answer, hdirect, rfl⟩ := Record.ofOutcome_eq_ok hof
  exact ⟨specifier, hspecifier, hdirect⟩

theorem exists_answers_of_run {world : World} {words : List Text} {options : Options}
    {events : List Event} {written : Report} (hwords : Options.ofWords words = .ok options)
    (h : run world words = (events, .ok written)) :
    ∃ setup answers, setUp world options = .ok setup ∧
      Answers setup.resolver setup.parent setup.useCache .empty options.specifiers answers ∧
      written = report setup (options.layout.getD .json) events
        (List.zipWith Record.mk options.specifiers answers) := by
  unfold run at h
  simp only [hwords] at h
  split at h
  · cases h
  next setup hsetup =>
  split at h
  · cases h
  next records hrecords =>
  obtain ⟨answers, hanswers, rfl⟩ := Record.exists_answers hrecords
  cases h
  exact ⟨setup, answers, hsetup, hanswers, rfl⟩

end Command

end ModuleResolution
