import ModuleResolution.Trace

/-!
# Outcomes of steps in a row

How a traced computation ends whose second step depends on the first one: either the first step
ends it, or its result goes on to the second.
-/

namespace ModuleResolution

theorem bind_eq_ok {ε α β : Type} {first : Except ε α} {next : α -> Except ε β} {result : β} :
    (first >>= next) = .ok result ↔ ∃ value, first = .ok value ∧ next value = .ok result := by
  cases first <;> simp [bind, Except.bind]

namespace Traced

variable {α β : Type} {run : Traced α} {next : α -> Traced β}

theorem outcome_bind_of_ok {result : α} (h : run.outcome = .ok result) :
    (run >>= next).outcome = (next result).outcome := by
  rw [outcome_bind, h]
  rfl

theorem outcome_bind_of_error {failure : Failure} (h : run.outcome = .error failure) :
    (run >>= next).outcome = .error failure := by
  rw [outcome_bind, h]
  rfl

theorem outcome_bind_eq_ok {result : β} :
    (run >>= next).outcome = .ok result ↔
      ∃ middle, run.outcome = .ok middle ∧ (next middle).outcome = .ok result := by
  rw [outcome_bind]
  exact bind_eq_ok

theorem outcome_bind_congr {other : Traced α} {next' : α -> Traced β}
    (hrun : other.outcome = run.outcome)
    (hnext : ∀ result, (next' result).outcome = (next result).outcome) :
    (other >>= next').outcome = (run >>= next).outcome := by
  rw [outcome_bind, outcome_bind, hrun]
  exact congrArg _ (funext hnext)

/-- Two computations in two steps end alike if the first steps agree on all that the second ones
ask for. -/
theorem outcome_bind_congr_view {γ : Type} (view : α -> γ) {other : Traced α}
    {next' : α -> Traced β} (hrun : other.outcome.map view = run.outcome.map view)
    (hnext : ∀ result result', view result' = view result ->
      (next' result').outcome = (next result).outcome) :
    (other >>= next').outcome = (run >>= next).outcome := by
  cases hfirst : run.outcome with
  | error failure =>
      cases hsecond : other.outcome with
      | error failure' =>
          rw [hfirst, hsecond] at hrun
          cases hrun
          rw [outcome_bind_of_error hfirst, outcome_bind_of_error hsecond]
      | ok result' =>
          rw [hfirst, hsecond] at hrun
          cases hrun
  | ok result =>
      cases hsecond : other.outcome with
      | error failure' =>
          rw [hfirst, hsecond] at hrun
          cases hrun
      | ok result' =>
          rw [hfirst, hsecond] at hrun
          rw [outcome_bind_of_ok hfirst, outcome_bind_of_ok hsecond]
          exact hnext _ _ (Except.ok.inj hrun)

theorem outcome_bind_some (run : Traced α) :
    (run >>= fun result => pure (some result)).outcome = run.outcome.map some := by
  rw [outcome_bind]
  cases run.outcome <;> rfl

theorem exists_some_of_bind {run : Traced (Option α)} {next : Option α -> Traced (Option β)}
    {result : β} (hnone : (next none).outcome = .ok none)
    (h : (run >>= next).outcome = .ok (some result)) :
    ∃ middle, run.outcome = .ok (some middle) ∧
      (next (some middle)).outcome = .ok (some result) := by
  obtain ⟨found, hrun, hnext⟩ := outcome_bind_eq_ok.1 h
  cases found with
  | none =>
      rw [hnone] at hnext
      cases hnext
  | some middle => exact ⟨middle, hrun, hnext⟩

theorem outcome_bind_eq_error {failure : Failure} :
    (run >>= next).outcome = .error failure ↔
      run.outcome = .error failure ∨
        ∃ middle, run.outcome = .ok middle ∧ (next middle).outcome = .error failure := by
  cases h : run.outcome with
  | error other =>
      rw [outcome_bind_of_error h]
      constructor
      · intro he
        cases he
        exact .inl rfl
      · intro hrun
        rcases hrun with he | ⟨_, hm, _⟩
        · cases he
          rfl
        · cases hm
  | ok middle =>
      rw [outcome_bind_of_ok h]
      refine ⟨fun he => .inr ⟨middle, rfl, he⟩, ?_⟩
      intro hrun
      rcases hrun with he | ⟨_, hm, he⟩
      · cases he
      · cases hm
        exact he

theorem outcome_ofUrl_eq_ok {outcome : Except Url.SyntaxError α} {result : α} :
    (ofUrl outcome).outcome = .ok result ↔ outcome = .ok result := by
  cases outcome with
  | error cause =>
      constructor
      · intro h
        cases h
      · intro h
        cases h
  | ok value =>
      constructor
      · intro h
        cases h
        rfl
      · intro h
        cases h
        rfl

theorem outcome_ofUrl_eq_error {outcome : Except Url.SyntaxError α} {failure : Failure} :
    (ofUrl outcome).outcome = .error failure ↔
      ∃ cause, outcome = .error cause ∧ failure = .fault (.url cause) := by
  cases outcome with
  | error cause =>
      constructor
      · intro h
        cases h
        exact ⟨cause, rfl, rfl⟩
      · intro hrun
        obtain ⟨_, hc, rfl⟩ := hrun
        cases hc
        rfl
  | ok value =>
      constructor
      · intro h
        cases h
      · intro hrun
        obtain ⟨_, hc, _⟩ := hrun
        cases hc

/-! ## Faults -/

def Stops (run : Traced α) : Prop :=
  ∃ fault, run.outcome = .error (.fault fault)

@[simp] theorem not_stops_of_ok {result : α} (h : run.outcome = .ok result) : ¬run.Stops := by
  intro hrun
  obtain ⟨fault, hf⟩ := hrun
  rw [h] at hf
  cases hf

theorem not_stops_of_resolution {error : ResolutionError}
    (h : run.outcome = .error (.resolution error)) : ¬run.Stops := by
  intro hrun
  obtain ⟨fault, hf⟩ := hrun
  rw [h] at hf
  cases hf

@[simp] theorem not_stops_pure (result : α) : ¬(pure result : Traced α).Stops :=
  not_stops_of_ok rfl

@[simp] theorem not_stops_reject (error : ResolutionError) : ¬(reject error : Traced α).Stops :=
  not_stops_of_resolution rfl

@[simp] theorem stops_fail_fault (fault : Fault) : (fail (.fault fault) : Traced α).Stops :=
  ⟨fault, rfl⟩

@[simp] theorem stops_after (events : List Event) : (after events run).Stops ↔ run.Stops :=
  Iff.rfl

theorem stops_ofUrl {outcome : Except Url.SyntaxError α} :
    (ofUrl outcome).Stops ↔ ∃ cause, outcome = .error cause := by
  constructor
  · intro h
    obtain ⟨fault, hf⟩ := h
    obtain ⟨cause, hc, _⟩ := outcome_ofUrl_eq_error.1 hf
    exact ⟨cause, hc⟩
  · intro h
    obtain ⟨cause, hc⟩ := h
    exact ⟨_, outcome_ofUrl_eq_error.2 ⟨cause, hc, rfl⟩⟩

theorem stops_bind :
    (run >>= next).Stops ↔
      run.Stops ∨ ∃ result, run.outcome = .ok result ∧ (next result).Stops := by
  constructor
  · intro h
    obtain ⟨fault, hf⟩ := h
    rcases outcome_bind_eq_error.1 hf with he | ⟨middle, hm, he⟩
    · exact .inl ⟨fault, he⟩
    · exact .inr ⟨middle, hm, fault, he⟩
  · intro h
    rcases h with ⟨fault, he⟩ | ⟨middle, hm, fault, he⟩
    · exact ⟨fault, outcome_bind_eq_error.2 (.inl he)⟩
    · exact ⟨fault, outcome_bind_eq_error.2 (.inr ⟨middle, hm, he⟩)⟩

theorem stops_bind_option {run : Traced (Option α)} {next : Option α -> Traced β} :
    (run >>= next).Stops ↔
      run.Stops ∨ (run.outcome = .ok none ∧ (next none).Stops) ∨
        ∃ result, run.outcome = .ok (some result) ∧ (next (some result)).Stops := by
  rw [stops_bind]
  constructor
  · intro h
    rcases h with h | ⟨result, hr, h⟩
    · exact .inl h
    · cases result with
      | none => exact .inr (.inl ⟨hr, h⟩)
      | some value => exact .inr (.inr ⟨value, hr, h⟩)
  · intro h
    rcases h with h | ⟨hr, h⟩ | ⟨value, hr, h⟩
    · exact .inl h
    · exact .inr ⟨none, hr, h⟩
    · exact .inr ⟨some value, hr, h⟩

theorem stops_bind_of_ok {result : α} (h : run.outcome = .ok result) :
    (run >>= next).Stops ↔ (next result).Stops := by
  unfold Stops
  rw [outcome_bind_of_ok h]

/-! ## One fault -/

section Avoids

variable {fault : Fault}

def Avoids (fault : Fault) (run : Traced α) : Prop :=
  run.outcome ≠ .error (.fault fault)

theorem avoids_pure (result : α) : (pure result : Traced α).Avoids fault :=
  fun h => by cases h

theorem avoids_reject (error : ResolutionError) : (reject error : Traced α).Avoids fault :=
  fun h => by cases h

theorem avoids_fail {other : Fault} (h : other ≠ fault) :
    (fail (.fault other) : Traced α).Avoids fault := by
  intro he
  cases he
  exact h rfl

theorem avoids_ofUrl {outcome : Except Url.SyntaxError α} (h : ∀ cause, .url cause ≠ fault) :
    (ofUrl outcome).Avoids fault := by
  intro he
  obtain ⟨cause, -, heq⟩ := outcome_ofUrl_eq_error.1 he
  cases heq
  exact h cause rfl

theorem Avoids.bind (h : run.Avoids fault) (hnext : ∀ result, (next result).Avoids fault) :
    (run >>= next).Avoids fault := by
  intro he
  rcases outcome_bind_eq_error.1 he with hrun | ⟨middle, -, hmiddle⟩
  · exact h hrun
  · exact hnext middle hmiddle

end Avoids

/-! ## Results and errors -/

section Gives

variable {good : α -> Prop} {tolerable : ResolutionError -> Prop} {after : β -> Prop}

structure Gives (good : α -> Prop) (tolerable : ResolutionError -> Prop) (run : Traced α) :
    Prop where
  result : ∀ value, run.outcome = .ok value -> good value
  error : ∀ error, run.outcome = .error (.resolution error) -> tolerable error

theorem gives_pure {value : α} (h : good value) : (pure value : Traced α).Gives good tolerable :=
  ⟨fun _ hv => by cases hv; exact h, fun _ he => nomatch he⟩

theorem gives_none : (pure none : Traced (Option α)).Gives (∀ value ∈ ·, good value) tolerable :=
  gives_pure fun _ h => by cases h

theorem gives_some {value : α} (h : good value) :
    (pure (some value) : Traced (Option α)).Gives (∀ value ∈ ·, good value) tolerable :=
  gives_pure fun _ hv => Option.some.inj hv ▸ h

theorem gives_reject {error : ResolutionError} (h : tolerable error) :
    (reject error : Traced α).Gives good tolerable :=
  ⟨fun _ hv => (nomatch hv), fun _ he => by cases he; exact h⟩

theorem gives_fault (fault : Fault) : (fail (.fault fault) : Traced α).Gives good tolerable :=
  ⟨fun _ hv => (nomatch hv), fun _ he => nomatch he⟩

theorem gives_emit (events : List Event) : (emit events).Gives (fun _ => True) tolerable :=
  ⟨fun _ _ => trivial, fun _ he => (nomatch he)⟩

theorem gives_ofUrl {outcome : Except Url.SyntaxError α}
    (h : ∀ value, outcome = .ok value -> good value) : (ofUrl outcome).Gives good tolerable := by
  refine ⟨fun value hv => h value (outcome_ofUrl_eq_ok.1 hv), fun error he => ?_⟩
  obtain ⟨_, _, hfailure⟩ := outcome_ofUrl_eq_error.1 he
  cases hfailure

theorem Gives.of_outcome_eq {other : Traced α} (h : run.Gives good tolerable)
    (heq : other.outcome = run.outcome) : other.Gives good tolerable :=
  ⟨fun value hv => h.result value (heq.symm.trans hv),
    fun error he => h.error error (heq.symm.trans he)⟩

theorem Gives.bind (h : run.Gives good tolerable)
    (hnext : ∀ value, good value -> (next value).Gives after tolerable) :
    (run >>= next).Gives after tolerable := by
  constructor
  · intro value hv
    obtain ⟨middle, hmiddle, hv⟩ := outcome_bind_eq_ok.1 hv
    exact (hnext middle (h.result middle hmiddle)).result value hv
  · intro error he
    rcases outcome_bind_eq_error.1 he with he | ⟨middle, hmiddle, he⟩
    · exact h.error error he
    · exact (hnext middle (h.result middle hmiddle)).error error he

end Gives

end Traced

end ModuleResolution
