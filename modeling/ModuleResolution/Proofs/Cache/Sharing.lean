import Mathlib.Data.Finset.Card
import Mathlib.Logic.Function.Basic
import ModuleResolution.Proofs.Cache.Transparency

/-!
# Callers that share a cache

A call looks its key up in one step and, after a look-up in vain, stores what it has worked out in
another one.  The steps of several callers come in any order, so two of them may look in vain for
one key and work out different resolutions.  The first one that is stored under a key is what every
call under that key returns, nothing that is stored changes, and the counters count the look-ups.
-/

namespace ModuleResolution

namespace Cache

/-- What is looked up: a specifier and the URL of the module it stands in. -/
structure Query where
  specifier : Text
  parent : Text
  deriving DecidableEq, Repr

def Query.key (query : Query) : Text :=
  Cache.key query.specifier query.parent

/-- What a caller does to a shared cache in one step. -/
inductive Act (Caller : Type) where
  /-- A look-up finds an entry, and the call returns it. -/
  | found (caller : Caller) (query : Query) (resolution : Resolution)
  /-- A look-up finds nothing. -/
  | missed (caller : Caller) (query : Query)
  /-- A call that has found nothing fails. -/
  | failed (caller : Caller) (query : Query) (failure : Failure)
  /-- A call that has found nothing stores what it has worked out, and returns what is kept. -/
  | stored (caller : Caller) (query : Query) (computed kept : Resolution)
  /-- A call that does not use the cache ends. -/
  | bypassed (caller : Caller) (outcome : Except Failure Resolution)
  | cleared

namespace Act

variable {Caller : Type}

def isFound : Act Caller -> Bool
  | .found _ _ _ => true
  | _ => false

def isMissed : Act Caller -> Bool
  | .missed _ _ => true
  | _ => false

/-- Is the step a look-up? -/
def isLookUp (act : Act Caller) : Bool :=
  act.isFound || act.isMissed

/-- The key and the resolution with which a call returns from the cache. -/
def answer? : Act Caller -> Option (Text × Resolution)
  | .found _ query resolution => some (query.key, resolution)
  | .stored _ query _ kept => some (query.key, kept)
  | _ => none

/-- The key and the resolution that a call wants to store. -/
def offer? : Act Caller -> Option (Text × Resolution)
  | .stored _ query computed _ => some (query.key, computed)
  | _ => none

end Act

variable {Caller : Type}

/-- What calls want to store, the first one first. -/
def offers (acts : List (Act Caller)) : List (Text × Resolution) :=
  acts.filterMap Act.offer?

theorem offers_append (acts : List (Act Caller)) (act : Act Caller) :
    offers (acts ++ [act]) = offers acts ++ act.offer?.toList := by
  unfold offers
  rw [List.filterMap_append]
  cases h : act.offer? <;> simp [h]

/-! ## What a step makes of the cache -/

structure Effect (before after : Cache) (act : Act Caller) : Prop where
  added : ∃ added, after.entries = before.entries ++ added ∧ added ⊆ act.offer?.toList
  entry : ∀ key, Association.get? key after.entries =
    (Association.get? key before.entries).or (Association.get? key act.offer?.toList)
  distinct : (before.entries.map Prod.fst).Nodup -> (after.entries.map Prod.fst).Nodup
  hits : after.hits = before.hits + act.isFound.toNat
  misses : after.misses = before.misses + act.isMissed.toNat
  answer : ∀ key resolution, act.answer? = some (key, resolution) ->
    Association.get? key after.entries = some resolution

theorem Effect.of_entries_eq {before after : Cache} {act : Act Caller}
    (hentries : after.entries = before.entries) (hoffer : act.offer? = none)
    (hits : after.hits = before.hits + act.isFound.toNat)
    (misses : after.misses = before.misses + act.isMissed.toNat)
    (answer : ∀ key resolution, act.answer? = some (key, resolution) ->
      Association.get? key before.entries = some resolution) : Effect before after act where
  added := ⟨[], by rw [hentries, List.append_nil], List.nil_subset _⟩
  entry key := by rw [hentries, hoffer, Option.toList_none, Association.get?, Option.or_none]
  distinct h := by rwa [hentries]
  hits := hits
  misses := misses
  answer key resolution h := by rw [hentries, answer key resolution h]

theorem Effect.of_kept {cache : Cache} {caller : Caller} {query : Query}
    {computed kept : Resolution} (h : Association.get? query.key cache.entries = some kept) :
    Effect cache cache (.stored caller query computed kept) where
  added := ⟨[], by rw [List.append_nil], List.nil_subset _⟩
  entry key := by
    by_cases hk : query.key = key
    · rw [← hk, h, Option.some_or]
    · have hoffer : Association.get? key [(query.key, computed)] = none := by
        simp [Association.get?, hk]
      rw [Act.offer?, Option.toList_some, hoffer, Option.or_none]
  distinct h := h
  hits := rfl
  misses := rfl
  answer key resolution ha := by
    cases ha
    exact h

theorem Effect.of_put {cache : Cache} {caller : Caller} {query : Query} {computed : Resolution}
    (h : Association.get? query.key cache.entries = none) :
    Effect cache
      { cache with entries := Association.put query.key computed cache.entries }
      (.stored caller query computed computed) where
  added := ⟨[(query.key, computed)], Association.put_of_get?_eq_none computed h,
    List.Subset.refl _⟩
  entry key := by
    rw [Association.put_of_get?_eq_none computed h, Association.get?_append]
    rfl
  distinct hdistinct := by
    have hnew : query.key ∉ cache.entries.map Prod.fst := Association.get?_eq_none_iff.1 h
    rw [Association.put_of_get?_eq_none computed h, List.map_append, List.nodup_append]
    refine ⟨hdistinct, List.nodup_singleton _, fun key hkey other hother hsame => ?_⟩
    have hother : other = query.key := List.mem_singleton.1 hother
    exact hnew (hother ▸ hsame ▸ hkey)
  hits := rfl
  misses := rfl
  answer key resolution ha := by
    cases ha
    exact Association.get?_put_self query.key computed cache.entries

/-! ## What steps have made of an empty cache -/

structure Accounts (cache : Cache) (acts : List (Act Caller)) : Prop where
  entry : ∀ key, Association.get? key cache.entries = Association.get? key (offers acts)
  distinct : (cache.entries.map Prod.fst).Nodup
  hits : cache.hits = acts.countP Act.isFound
  misses : cache.misses = acts.countP Act.isMissed
  answer : ∀ act ∈ acts, ∀ key resolution, act.answer? = some (key, resolution) ->
    Association.get? key (offers acts) = some resolution

theorem accounts_empty : Accounts .empty ([] : List (Act Caller)) where
  entry _ := rfl
  distinct := List.nodup_nil
  hits := rfl
  misses := rfl
  answer _ h := absurd h List.not_mem_nil

theorem countP_append_singleton (p : Act Caller -> Bool) (acts : List (Act Caller))
    (act : Act Caller) : (acts ++ [act]).countP p = acts.countP p + (p act).toNat := by
  rw [List.countP_append, List.countP_singleton]
  cases p act <;> rfl

theorem countP_isLookUp (acts : List (Act Caller)) :
    acts.countP Act.isLookUp = acts.countP Act.isFound + acts.countP Act.isMissed := by
  induction acts with
  | nil => rfl
  | cons act rest ih =>
      rw [List.countP_cons, List.countP_cons, List.countP_cons, ih]
      cases act <;> simp [Act.isLookUp, Act.isFound, Act.isMissed] <;> omega

theorem Accounts.next {before after : Cache} {acts : List (Act Caller)} {act : Act Caller}
    (h : Accounts before acts) (heffect : Effect before after act) :
    Accounts after (acts ++ [act]) := by
  have hoffers : ∀ key, Association.get? key (offers (acts ++ [act])) =
      (Association.get? key (offers acts)).or (Association.get? key act.offer?.toList) := by
    intro key
    rw [offers_append, Association.get?_append]
  have hentry : ∀ key, Association.get? key after.entries =
      Association.get? key (offers (acts ++ [act])) := by
    intro key
    rw [heffect.entry, h.entry, hoffers]
  refine ⟨hentry, heffect.distinct h.distinct, ?_, ?_, ?_⟩
  · rw [heffect.hits, h.hits, countP_append_singleton]
  · rw [heffect.misses, h.misses, countP_append_singleton]
  · intro other hother key resolution ha
    rcases List.mem_append.1 hother with hother | hother
    · rw [hoffers, h.answer other hother key resolution ha, Option.some_or]
    · rw [List.mem_singleton.1 hother] at ha
      rw [← hentry]
      exact heffect.answer key resolution ha

theorem Accounts.size_eq {cache : Cache} {acts : List (Act Caller)} (h : Accounts cache acts) :
    cache.size = ((offers acts).map Prod.fst).toFinset.card := by
  have hkeys : (cache.entries.map Prod.fst).toFinset = ((offers acts).map Prod.fst).toFinset := by
    ext key
    have hnone : Association.get? key cache.entries = none ↔ key ∉ cache.entries.map Prod.fst :=
      Association.get?_eq_none_iff
    rw [h.entry key, Association.get?_eq_none_iff] at hnone
    rw [List.mem_toFinset, List.mem_toFinset]
    exact not_iff_not.1 hnone.symm
  rw [← hkeys, List.toFinset_card_of_nodup h.distinct, List.length_map]
  rfl

/-! ## Calls -/

/-- What one call does, and how it ends: with `uncached` if it finds nothing. -/
inductive IsCall (caller : Caller) (uncached : Except Failure Resolution) :
    Option Query -> List (Act Caller) -> Except Failure Resolution -> Prop where
  | found {query : Query} {resolution : Resolution} :
      IsCall caller uncached (some query) [.found caller query resolution] (.ok resolution)
  | failed {query : Query} {failure : Failure} (fails : uncached = .error failure) :
      IsCall caller uncached (some query)
        [.missed caller query, .failed caller query failure] (.error failure)
  | stored {query : Query} {computed kept : Resolution} (succeeds : uncached = .ok computed) :
      IsCall caller uncached (some query)
        [.missed caller query, .stored caller query computed kept] (.ok kept)
  | bypassed : IsCall caller uncached none [.bypassed caller uncached] uncached

section IsCall

variable {caller : Caller} {uncached outcome : Except Failure Resolution} {query? : Option Query}
  {acts : List (Act Caller)}

theorem IsCall.not_mem_cleared (h : IsCall caller uncached query? acts outcome) :
    .cleared ∉ acts := by
  cases h <;> simp

theorem IsCall.offers_eq_nil (h : IsCall caller uncached query? acts outcome)
    (hend : query? = none ∨ ∃ failure, outcome = .error failure) : offers acts = [] := by
  cases h with
  | stored succeeds =>
      rcases hend with hquery | ⟨failure, hfailure⟩
      · cases hquery
      · cases hfailure
  | found => rfl
  | failed fails => rfl
  | bypassed => rfl

end IsCall

/-! ## Callers -/

/-- A cache and the queries that callers have looked up in vain and are at work on. -/
structure Shared (Caller : Type) where
  cache : Cache
  pending : Caller -> Option Query

namespace Shared

variable [DecidableEq Caller]

/-- The steps of callers.  Only a caller that is at work on nothing starts a call, and what it works
out may be anything. -/
inductive Step : Shared Caller -> Act Caller -> Shared Caller -> Prop where
  | found {state : Shared Caller} {caller : Caller} {query : Query} {resolution : Resolution}
      {after : Cache} (idle : state.pending caller = none)
      (look : state.cache.get query.specifier query.parent = (some resolution, after)) :
      Step state (.found caller query resolution) ⟨after, state.pending⟩
  | missed {state : Shared Caller} {caller : Caller} {query : Query} {after : Cache}
      (idle : state.pending caller = none)
      (look : state.cache.get query.specifier query.parent = (none, after)) :
      Step state (.missed caller query)
        ⟨after, Function.update state.pending caller (some query)⟩
  | failed {state : Shared Caller} {caller : Caller} {query : Query}
      (working : state.pending caller = some query) (failure : Failure) :
      Step state (.failed caller query failure)
        ⟨state.cache, Function.update state.pending caller none⟩
  | stored {state : Shared Caller} {caller : Caller} {query : Query}
      {computed kept : Resolution} {after : Cache} (working : state.pending caller = some query)
      (keep : state.cache.set query.specifier query.parent computed = (kept, after)) :
      Step state (.stored caller query computed kept)
        ⟨after, Function.update state.pending caller none⟩
  | bypassed {state : Shared Caller} {caller : Caller} (idle : state.pending caller = none)
      (outcome : Except Failure Resolution) : Step state (.bypassed caller outcome) state
  | cleared {state : Shared Caller} : Step state .cleared ⟨state.cache.clear, state.pending⟩

/-- Steps one after the other, in any order of the callers. -/
inductive Run (start : Shared Caller) : List (Act Caller) -> Shared Caller -> Prop where
  | start : Run start [] start
  | next {acts : List (Act Caller)} {middle finish : Shared Caller} {act : Act Caller} :
      Run start acts middle -> Step middle act finish -> Run start (acts ++ [act]) finish

/-! ## Runs -/

theorem Step.effect {before after : Shared Caller} {act : Act Caller} (h : Step before act after)
    (hact : act ≠ .cleared) : Effect before.cache after.cache act := by
  cases h with
  | found idle look =>
      obtain ⟨hentry, rfl⟩ := get_eq_some_iff.1 look
      refine .of_entries_eq rfl rfl rfl rfl fun key resolution ha => ?_
      cases ha
      exact hentry
  | missed idle look =>
      obtain ⟨-, rfl⟩ := get_eq_none_iff.1 look
      exact .of_entries_eq rfl rfl rfl rfl fun key resolution ha => by cases ha
  | failed working failure =>
      exact .of_entries_eq rfl rfl rfl rfl fun key resolution ha => by cases ha
  | stored working keep =>
      rcases set_eq_iff.1 keep with ⟨hentry, rfl⟩ | ⟨hnone, rfl, rfl⟩
      · exact .of_kept hentry
      · exact .of_put hnone
  | bypassed idle outcome =>
      exact .of_entries_eq rfl rfl rfl rfl fun key resolution ha => by cases ha
  | cleared => exact absurd rfl hact

theorem Run.accounts {start finish : Shared Caller} {acts : List (Act Caller)}
    (h : Run start acts finish) (hkept : .cleared ∉ acts) (hempty : start.cache = .empty) :
    Accounts finish.cache acts := by
  induction h with
  | start =>
      rw [hempty]
      exact accounts_empty
  | next hrun hstep ih =>
      rw [List.mem_append, not_or, List.mem_singleton] at hkept
      exact (ih hkept.1).next (hstep.effect (Ne.symm hkept.2))

theorem Run.entries_eq_append {start finish : Shared Caller} {acts : List (Act Caller)}
    (h : Run start acts finish) (hkept : .cleared ∉ acts) :
    ∃ added, finish.cache.entries = start.cache.entries ++ added ∧ added ⊆ offers acts := by
  induction h with
  | start => exact ⟨[], (List.append_nil _).symm, List.nil_subset _⟩
  | next hrun hstep ih =>
      rw [List.mem_append, not_or, List.mem_singleton] at hkept
      obtain ⟨earlier, hentries, hearlier⟩ := ih hkept.1
      obtain ⟨added, hadded, hoffer⟩ := (hstep.effect (Ne.symm hkept.2)).added
      refine ⟨earlier ++ added, by rw [hadded, hentries, List.append_assoc], ?_⟩
      rw [offers_append]
      exact List.append_subset.2 ⟨List.Subset.trans hearlier (List.subset_append_left _ _),
        List.Subset.trans hoffer (List.subset_append_right _ _)⟩

/-! ## Calls of a resolver -/

theorem update_settled {pending : Caller -> Option Query} {caller : Caller}
    (hidle : pending caller = none) (query : Query) :
    Function.update (Function.update pending caller (some query)) caller none = pending := by
  rw [Function.update_idem, ← hidle, Function.update_eq_self]

theorem exists_run_of_resolveCached (resolver : Resolver) (state : Shared Caller) {caller : Caller}
    (hidle : state.pending caller = none) (query : Query) :
    ∃ acts, IsCall caller (resolver.resolveUncached query.specifier query.parent).outcome
        (some query) acts
        (resolver.resolveCached state.cache query.specifier query.parent).1.outcome ∧
      Run state acts
        ⟨(resolver.resolveCached state.cache query.specifier query.parent).2, state.pending⟩ := by
  rw [← resolver.resolveReported_outcome]
  cases hlook : state.cache.get query.specifier query.parent with
  | mk found after =>
      cases found with
      | some resolution =>
          refine ⟨[.found caller query resolution], ?_, ?_⟩
          · simp only [Resolver.resolveCached, hlook]
            exact .found
          · simp only [Resolver.resolveCached, hlook]
            exact Run.start.next (.found hidle hlook)
      | none =>
          have hstart : Run state [] state := .start
          have hmissed := hstart.next (.missed hidle hlook)
          have hworking : Function.update state.pending caller (some query) caller = some query :=
            Function.update_self caller (some query) state.pending
          have hsettled := update_settled hidle query
          cases houtcome : (resolver.resolveReported query.specifier query.parent).outcome with
          | error failure =>
              refine ⟨[.missed caller query, .failed caller query failure], ?_, ?_⟩
              · simp only [Resolver.resolveCached, hlook, houtcome]
                exact .failed rfl
              · simp only [Resolver.resolveCached, hlook, houtcome]
                have hrun := hmissed.next (.failed hworking failure)
                rwa [hsettled] at hrun
          | ok computed =>
              cases hkeep : after.set query.specifier query.parent computed with
              | mk kept last =>
                  refine ⟨[.missed caller query, .stored caller query computed kept], ?_, ?_⟩
                  · simp only [Resolver.resolveCached, hlook, houtcome, hkeep]
                    exact .stored rfl
                  · simp only [Resolver.resolveCached, hlook, houtcome, hkeep]
                    have hrun := hmissed.next (.stored hworking hkeep)
                    rwa [hsettled] at hrun

/-- Every call of a resolver takes these steps.  With a malformed parent it does not get as far as
the cache. -/
theorem exists_run_of_resolve (resolver : Resolver) (state : Shared Caller) {caller : Caller}
    (hidle : state.pending caller = none) (specifier parent : Text) (useCache : Bool) :
    ∃ acts, IsCall caller (resolver.direct ⟨specifier, parent⟩)
        (if useCache then
          (parentUrl resolver.workingDirectory parent).toOption.map (Query.mk specifier)
        else none) acts
        (resolver.resolve state.cache specifier parent useCache).1.outcome ∧
      Run state acts
        ⟨(resolver.resolve state.cache specifier parent useCache).2, state.pending⟩ := by
  cases hparent : parentUrl resolver.workingDirectory parent with
  | error cause =>
      have hrun : ∀ cache useCache, resolver.resolve cache specifier parent useCache =
          (.fail (.fault (.url cause)), cache) := by
        intro cache useCache
        simp only [Resolver.resolve, hparent]
      refine ⟨[.bypassed caller (resolver.direct ⟨specifier, parent⟩)], ?_, ?_⟩
      · rw [Resolver.direct, hrun, hrun]
        cases useCache <;> exact .bypassed
      · rw [hrun]
        exact Run.start.next (.bypassed hidle _)
  | ok url =>
      rw [resolver.direct_eq hparent]
      cases useCache with
      | true =>
          simp only [Resolver.resolve, hparent, if_true]
          exact exists_run_of_resolveCached resolver state hidle ⟨specifier, url⟩
      | false =>
          simp only [Resolver.resolve, hparent, Bool.false_eq_true, if_false]
          rw [resolver.resolveReported_outcome]
          exact ⟨_, .bypassed, Run.start.next (.bypassed hidle _)⟩

/-- Without a clearing, entries are only added, and by steps that store.  From an empty cache, every
call under a key returns the first resolution that was stored under it, the counters count the
look-ups, and there is an entry for each key under which something was stored.  Every call of a
resolver, whatever its files and settings, takes these steps. -/
theorem calls_agree {start finish : Shared Caller} {acts : List (Act Caller)}
    (h : Run start acts finish) (hkept : .cleared ∉ acts) :
    (∃ added, finish.cache.entries = start.cache.entries ++ added ∧ added ⊆ offers acts) ∧
    (start.cache = .empty ->
      (∀ act ∈ acts, ∀ key resolution, act.answer? = some (key, resolution) ->
        Association.get? key (offers acts) = some resolution) ∧
      (∀ key, Association.get? key finish.cache.entries = Association.get? key (offers acts)) ∧
      finish.cache.hits + finish.cache.misses = acts.countP Act.isLookUp ∧
      finish.cache.size = ((offers acts).map Prod.fst).toFinset.card) ∧
    finish.cache.clear = .empty ∧
    ∀ (resolver : Resolver) (caller : Caller) (specifier parent : Text) (useCache : Bool),
      finish.pending caller = none ->
      (∃ call, IsCall caller (resolver.direct ⟨specifier, parent⟩)
          (if useCache then
            (parentUrl resolver.workingDirectory parent).toOption.map (Query.mk specifier)
          else none) call
          (resolver.resolve finish.cache specifier parent useCache).1.outcome ∧
        Run finish call
          ⟨(resolver.resolve finish.cache specifier parent useCache).2, finish.pending⟩) ∧
      (useCache = false ∨ (∃ failure, (resolver.resolve finish.cache specifier parent
          useCache).1.outcome = .error failure) ->
        (resolver.resolve finish.cache specifier parent useCache).2.entries =
          finish.cache.entries) := by
  refine ⟨h.entries_eq_append hkept, fun hempty => ?_, rfl, ?_⟩
  · have haccounts := h.accounts hkept hempty
    refine ⟨haccounts.answer, haccounts.entry, ?_, haccounts.size_eq⟩
    rw [haccounts.hits, haccounts.misses, countP_isLookUp]
  · intro resolver caller specifier parent useCache hidle
    obtain ⟨call, hcall, hrun⟩ :=
      exists_run_of_resolve resolver finish hidle specifier parent useCache
    refine ⟨⟨call, hcall, hrun⟩, fun hend => ?_⟩
    obtain ⟨added, hentries, hadded⟩ := hrun.entries_eq_append hcall.not_mem_cleared
    have hnothing : offers call = [] := by
      refine hcall.offers_eq_nil ?_
      rcases hend with rfl | hfailure
      · exact .inl rfl
      · exact .inr hfailure
    rw [hnothing, List.subset_nil] at hadded
    rw [hentries, hadded, List.append_nil]

def race (query : Query) (first second : Resolution) : List (Act Bool) :=
  [.missed false query, .missed true query, .stored false query first first,
    .stored true query second first, .found true query first]

/-- Both return the module that was stored first, and it is the only entry. -/
theorem calls_agree_race :
    ∃ (query : Query) (first second : Resolution) (finish : Shared Bool), first ≠ second ∧
      Run ⟨.empty, fun _ => none⟩ (race query first second) finish ∧
      .cleared ∉ race query first second ∧
      (∀ act ∈ race query first second, ∀ key resolution, act.answer? = some (key, resolution) ->
        resolution = first) ∧
      finish.cache.size = 1 ∧ finish.cache.hits + finish.cache.misses = 3 := by
  let query : Query := ⟨"./a".toList, "file:///x.mjs".toList⟩
  let first : Resolution := ⟨"/a.js".toList, some .commonjs⟩
  let second : Resolution := ⟨"/a.js".toList, some .module⟩
  have hstart : Run (⟨.empty, fun _ => none⟩ : Shared Bool) [] _ := .start
  have hmissed : Run _ (_ ++ [.missed false query]) _ := hstart.next (.missed rfl rfl)
  have hmissed' : Run _ (_ ++ [.missed true query]) _ := hmissed.next (.missed rfl rfl)
  have hstored : Run _ (_ ++ [.stored false query first first]) _ :=
    hmissed'.next (.stored rfl rfl)
  have hstored' : Run _ (_ ++ [.stored true query second first]) _ :=
    hstored.next (.stored rfl rfl)
  have hrun : Run _ (_ ++ [.found true query first]) _ := hstored'.next (.found rfl rfl)
  have hkept : .cleared ∉ race query first second := by simp [race]
  obtain ⟨-, hagree, -, -⟩ := calls_agree hrun hkept
  obtain ⟨hanswer, -, hlookups, hsize⟩ := hagree rfl
  refine ⟨query, first, second, _, by decide, hrun, hkept, ?_, hsize, hlookups⟩
  intro act hact key resolution ha
  have hfirst : Association.get? key [(query.key, first), (query.key, second)] =
      some resolution := hanswer act hact key resolution ha
  by_cases hk : query.key = key
  · simpa [Association.get?, hk, eq_comm] using hfirst
  · simp [Association.get?, hk] at hfirst

end Shared

end Cache

end ModuleResolution
