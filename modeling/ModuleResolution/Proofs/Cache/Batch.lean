import Mathlib.Tactic.Choose
import ModuleResolution.Command.Record
import ModuleResolution.Proofs.Cache.Transparency

/-!
# Batches with and without a cache

All specifiers of a batch have one parent, so different specifiers have different keys, and what a
specifier finds in the cache is what it would find out itself.  A batch is therefore a map of the
record that each specifier gets alone, up to the first fault.
-/

namespace ModuleResolution

/-! ## Maps that may fail -/

section Map

variable {α β ε : Type} {f : α -> Except ε β} {items : List α}

theorem mapM_eq_ok {g : α -> β} (h : ∀ item ∈ items, f item = .ok (g item)) :
    items.mapM f = .ok (items.map g) := by
  induction items with
  | nil => rfl
  | cons item rest ih =>
      have hrest := ih fun other hother => h other (List.mem_cons_of_mem _ hother)
      rw [List.mapM_cons, h item List.mem_cons_self, hrest]
      rfl

theorem exists_ok_of_mapM_eq_ok {results : List β} (h : items.mapM f = .ok results) :
    ∀ item ∈ items, ∃ result, f item = .ok result := by
  induction items generalizing results with
  | nil => exact fun _ hitem => by cases hitem
  | cons item rest ih =>
      rw [List.mapM_cons] at h
      cases hitem : f item with
      | error cause =>
          rw [hitem] at h
          cases h
      | ok result =>
          cases hrest : rest.mapM f with
          | error cause =>
              rw [hitem, hrest] at h
              cases h
          | ok others => exact List.forall_mem_cons.2 ⟨⟨result, hitem⟩, ih hrest⟩

theorem exists_mem_of_mapM_eq_ok {results : List β} (h : items.mapM f = .ok results) :
    ∀ result ∈ results, ∃ item ∈ items, f item = .ok result := by
  induction items generalizing results with
  | nil =>
      cases h
      exact fun _ hresult => by cases hresult
  | cons item rest ih =>
      rw [List.mapM_cons] at h
      cases hitem : f item with
      | error cause =>
          rw [hitem] at h
          cases h
      | ok result =>
          cases hrest : rest.mapM f with
          | error cause =>
              rw [hitem, hrest] at h
              cases h
          | ok others =>
              rw [hitem, hrest] at h
              cases h
              refine List.forall_mem_cons.2 ⟨⟨item, List.mem_cons_self, hitem⟩, fun other hother => ?_⟩
              obtain ⟨source, hsource, heq⟩ := ih hrest other hother
              exact ⟨source, List.mem_cons_of_mem _ hsource, heq⟩

end Map

namespace Command

namespace Record

def ofOutcome (specifier : Text) : Except Failure Resolution -> Except Failure Record
  | .ok resolution => .ok ⟨specifier, .ok resolution⟩
  | .error (.resolution error) => .ok ⟨specifier, .error error⟩
  | .error (.fault fault) => .error (.fault fault)

/-- The first specifier gets its record, unless it ends the batch, and the others go on with the
cache that it leaves. -/
theorem outcome_ofSpecifiers_cons (resolver : Resolver) (parent : Text) (useCache : Bool)
    (cache : Cache) (specifier : Text) (rest : List Text) :
    (ofSpecifiers resolver parent useCache cache (specifier :: rest)).1.outcome = (do
      let record <- ofOutcome specifier (resolver.resolve cache specifier parent useCache).1.outcome
      let records <- (ofSpecifiers resolver parent useCache
        (resolver.resolve cache specifier parent useCache).2 rest).1.outcome
      return record :: records) := by
  rw [ofSpecifiers]
  generalize resolver.resolve cache specifier parent useCache = answer
  obtain ⟨run, after⟩ := answer
  cases houtcome : run.outcome with
  | ok resolution =>
      simp only [houtcome, ofOutcome, Traced.outcome_after, Traced.outcome_bind,
        Traced.outcome_pure]
      rfl
  | error failure =>
      cases failure with
      | fault fault =>
          simp only [houtcome, ofOutcome]
          rfl
      | resolution error =>
          simp only [houtcome, ofOutcome, Traced.outcome_after, Traced.outcome_bind,
            Traced.outcome_pure]
          rfl

end Record

end Command

namespace Resolver

open Command (Record)

variable (resolver : Resolver) (parent : Text)

def recordOf (specifier : Text) : Except Failure Record :=
  Record.ofOutcome specifier (resolver.direct ⟨specifier, parent⟩)

/-! ## Without a cache -/

theorem resolve_of_not_useCache (cache : Cache) (specifier : Text) :
    (resolver.resolve cache specifier parent false).1.outcome =
        resolver.direct ⟨specifier, parent⟩ ∧
      (resolver.resolve cache specifier parent false).2 = cache := by
  unfold direct resolve
  cases parentUrl resolver.workingDirectory parent with
  | error cause => exact ⟨rfl, rfl⟩
  | ok url => exact ⟨rfl, rfl⟩

theorem outcome_ofSpecifiers_of_not_useCache (cache : Cache) (specifiers : List Text) :
    (Record.ofSpecifiers resolver parent false cache specifiers).1.outcome =
      specifiers.mapM (resolver.recordOf parent) := by
  induction specifiers with
  | nil => rfl
  | cons specifier rest ih =>
      obtain ⟨hrun, hcache⟩ := resolver.resolve_of_not_useCache parent cache specifier
      rw [Record.outcome_ofSpecifiers_cons, hrun, hcache, ih, List.mapM_cons]
      rfl

/-! ## With a cache -/

variable {parent}

theorem agree_of_parent_eq {first second : Request} (h : first.parent = second.parent) :
    resolver.Agree first second := by
  intro key hkey hkey' resolution hok
  have hspecifier : first.specifier = second.specifier := by
    unfold key? at hkey hkey'
    rw [h] at hkey
    cases hparent : parentUrl resolver.workingDirectory second.parent with
    | error cause =>
        rw [hparent] at hkey
        cases hkey
    | ok url =>
        rw [hparent] at hkey hkey'
        exact List.append_cancel_right ((Option.some.inj hkey).trans (Option.some.inj hkey').symm)
  have hsame : first = second := by
    cases first
    cases second
    cases h
    cases hspecifier
    rfl
  rwa [← hsame]

/-- Through a cache that holds what requests from this parent have stored, a specifier gets the
record that it gets without one. -/
theorem outcome_ofSpecifiers_of_holds {cache : Cache} {earlier : List Request}
    (hholds : resolver.Holds cache earlier) (hparent : ∀ request ∈ earlier, request.parent = parent)
    (specifiers : List Text) :
    (Record.ofSpecifiers resolver parent true cache specifiers).1.outcome =
      specifiers.mapM (resolver.recordOf parent) := by
  induction specifiers generalizing cache earlier with
  | nil => rfl
  | cons specifier rest ih =>
      obtain ⟨hrun, hnext⟩ := hholds.step resolver ⟨specifier, parent⟩
      have hpairwise : earlier.Pairwise resolver.Agree :=
        List.pairwise_of_forall_mem_list fun first hfirst second hsecond =>
          resolver.agree_of_parent_eq ((hparent first hfirst).trans (hparent second hsecond).symm)
      have hagree : ∀ request ∈ earlier, resolver.Agree request ⟨specifier, parent⟩ :=
        fun request hrequest => resolver.agree_of_parent_eq (hparent request hrequest)
      have hdirect := (resolver.answer_eq_direct_iff hpairwise ⟨specifier, parent⟩).2 hagree
      have hparent' : ∀ request ∈ earlier ++ [⟨specifier, parent⟩], request.parent = parent := by
        intro request hrequest
        rcases List.mem_append.1 hrequest with hrequest | hrequest
        · exact hparent request hrequest
        · rw [List.mem_singleton.1 hrequest]
      rw [Record.outcome_ofSpecifiers_cons, hrun.trans hdirect, ih hnext hparent', List.mapM_cons]
      rfl

/-! ## Batches -/

theorem outcome_ofSpecifiers_empty (useCache : Bool) (specifiers : List Text) :
    (Record.ofSpecifiers resolver parent useCache .empty specifiers).1.outcome =
      specifiers.mapM (resolver.recordOf parent) := by
  cases useCache with
  | false => exact resolver.outcome_ofSpecifiers_of_not_useCache parent .empty specifiers
  | true =>
      have hempty : resolver.Holds .empty [] := fun key => rfl
      exact resolver.outcome_ofSpecifiers_of_holds hempty (fun _ h => by cases h) specifiers

/-- A batch has the same records, or the same fault, with a fresh cache and without one.  The record
of a specifier is the one that it gets alone, so in another order the specifiers get the same
records in that order. -/
theorem batch_records (specifiers : List Text) :
    (Record.ofSpecifiers resolver parent true .empty specifiers).1.outcome =
        (Record.ofSpecifiers resolver parent false .empty specifiers).1.outcome ∧
      ∀ useCache records,
        (Record.ofSpecifiers resolver parent useCache .empty specifiers).1.outcome = .ok records ->
        ∃ record : Text -> Record, records = specifiers.map record ∧
          (∀ specifier ∈ specifiers,
            (Record.ofSpecifiers resolver parent useCache .empty [specifier]).1.outcome =
              .ok [record specifier]) ∧
          ∀ reordered, reordered.Perm specifiers ->
            (Record.ofSpecifiers resolver parent useCache .empty reordered).1.outcome =
                .ok (reordered.map record) ∧
              (reordered.map record).Perm records := by
  simp only [outcome_ofSpecifiers_empty, true_and]
  intro _ records hrecords
  have : Nonempty Record := ⟨⟨[], .error (.moduleNotFound [])⟩⟩
  choose! record hrecord using exists_ok_of_mapM_eq_ok hrecords
  have hmap : records = specifiers.map record :=
    Except.ok.inj (hrecords.symm.trans (mapM_eq_ok hrecord))
  refine ⟨record, hmap, fun specifier hmem => ?_, fun reordered hperm => ⟨?_, ?_⟩⟩
  · have hone : ∀ other ∈ [specifier], resolver.recordOf parent other = .ok (record other) := by
      intro other hother
      rw [List.mem_singleton.1 hother]
      exact hrecord specifier hmem
    exact mapM_eq_ok hone
  · exact mapM_eq_ok fun specifier hmem => hrecord specifier (hperm.subset hmem)
  · rw [hmap]
    exact hperm.map record

/-- A module that is there, one that is missing, and the first one again. -/
theorem batch_records_repeated :
    ∃ record : Text -> Record,
      (Record.ofSpecifiers twoDirectories "/d/x.mjs".toList true .empty
        ["./a.mjs".toList, "./b.mjs".toList, "./a.mjs".toList]).1.outcome =
        .ok [record "./a.mjs".toList, record "./b.mjs".toList, record "./a.mjs".toList] ∧
      (Record.ofSpecifiers twoDirectories "/d/x.mjs".toList true .empty
        ["./b.mjs".toList, "./a.mjs".toList, "./a.mjs".toList]).1.outcome =
        .ok [record "./b.mjs".toList, record "./a.mjs".toList, record "./a.mjs".toList] ∧
      record "./a.mjs".toList = ⟨"./a.mjs".toList, .ok ⟨"/d/a.mjs".toList, some .module⟩⟩ ∧
      record "./b.mjs".toList =
        ⟨"./b.mjs".toList, .error (.moduleNotFound "file:///d/b.mjs".toList)⟩ := by
  have hrun : (Record.ofSpecifiers twoDirectories "/d/x.mjs".toList true .empty
      ["./a.mjs".toList, "./b.mjs".toList, "./a.mjs".toList]).1.outcome =
      .ok [⟨"./a.mjs".toList, .ok ⟨"/d/a.mjs".toList, some .module⟩⟩,
        ⟨"./b.mjs".toList, .error (.moduleNotFound "file:///d/b.mjs".toList)⟩,
        ⟨"./a.mjs".toList, .ok ⟨"/d/a.mjs".toList, some .module⟩⟩] := rfl
  obtain ⟨record, hrecords, -, hreorder⟩ := (batch_records twoDirectories _).2 true _ hrun
  obtain ⟨hswapped, -⟩ := hreorder _ (List.Perm.swap "./a.mjs".toList "./b.mjs".toList _)
  obtain ⟨ha, hrest⟩ := List.cons.inj hrecords
  obtain ⟨hb, -⟩ := List.cons.inj hrest
  refine ⟨record, ?_, hswapped, ha.symm, hb.symm⟩
  rw [hrun, hrecords]
  rfl

end Resolver

end ModuleResolution
