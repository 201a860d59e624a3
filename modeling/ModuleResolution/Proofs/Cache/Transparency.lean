import ModuleResolution.FileSystem.Memory
import ModuleResolution.Proofs.Association
import ModuleResolution.Proofs.Text.Pieces
import ModuleResolution.Resolver

/-!
# Caches and recomputation

A sequence of requests through one cache, against the same requests without it.  An entry is the
result of the first successful request under its key, so the two agree exactly if no successful
request shares its key with a later one that ends differently.  Keys of different requests are
equal only if a parent has a `#` in it.
-/

namespace ModuleResolution

namespace Cache

/-- Two keys are equal only if a part between two marks belongs to the specifier of one and to the
parent of the other. -/
theorem key_eq_key_iff {specifier parent specifier' parent' : Text} :
    key specifier parent = key specifier' parent' ↔
      (specifier = specifier' ∧ parent = parent') ∨
      ∃ between,
        (specifier' = specifier ++ '#' :: between ∧ parent = between ++ '#' :: parent') ∨
        (specifier = specifier' ++ '#' :: between ∧ parent' = between ++ '#' :: parent) := by
  unfold key
  constructor
  · intro h
    rcases List.append_eq_append_iff.mp h with ⟨rest, hs, hp⟩ | ⟨rest, hs, hp⟩
    · cases rest with
      | nil => exact .inl ⟨by simpa using hs.symm, by simpa using hp⟩
      | cons c between =>
          rw [List.cons_append, List.cons.injEq] at hp
          obtain ⟨rfl, hp⟩ := hp
          exact .inr ⟨between, .inl ⟨hs, hp⟩⟩
    · cases rest with
      | nil => exact .inl ⟨by simpa using hs, by simpa using hp.symm⟩
      | cons c between =>
          rw [List.cons_append, List.cons.injEq] at hp
          obtain ⟨rfl, hp⟩ := hp
          exact .inr ⟨between, .inr ⟨hs, hp⟩⟩
  · rintro (⟨rfl, rfl⟩ | ⟨between, ⟨rfl, rfl⟩ | ⟨rfl, rfl⟩⟩) <;> simp

theorem key_injective {specifier parent specifier' parent' : Text} (h : '#' ∉ parent)
    (h' : '#' ∉ parent') (heq : key specifier parent = key specifier' parent') :
    specifier = specifier' ∧ parent = parent' := by
  rcases key_eq_key_iff.mp heq with hsame | ⟨between, ⟨-, rfl⟩ | ⟨-, rfl⟩⟩
  · exact hsame
  · exact absurd (by simp) h
  · exact absurd (by simp) h'

end Cache

namespace Resolver

/-- A specifier and the module it stands in, given as a URL or a path. -/
structure Request where
  specifier : Text
  parent : Text
  deriving DecidableEq, Repr

variable (resolver : Resolver)

/-- How a request ends without a cache. -/
def direct (request : Request) : Except Failure Resolution :=
  (resolver.resolve .empty request.specifier request.parent false).1.outcome

/-- How requests end one after the other through one cache. -/
def replay : Cache -> List Request -> List (Except Failure Resolution)
  | _, [] => []
  | cache, request :: rest =>
      let (run, cache) := resolver.resolve cache request.specifier request.parent true
      run.outcome :: replay cache rest

/-- The key under which a request is looked up; one with a malformed parent is not. -/
def key? (request : Request) : Option Text :=
  match parentUrl resolver.workingDirectory request.parent with
  | .ok parent => some (Cache.key request.specifier parent)
  | .error _ => none

/-- Under the key of `first`, if it succeeds, `second` finds what it would find out itself. -/
def Agree (first second : Request) : Prop :=
  ∀ key, resolver.key? first = some key -> resolver.key? second = some key ->
    ∀ resolution, resolver.direct first = .ok resolution -> resolver.direct second = .ok resolution

def stored? (key : Text) (requests : List Request) : Option Resolution :=
  requests.findSome? fun request =>
    if resolver.key? request = some key then (resolver.direct request).toOption else none

/-! ## One request -/

theorem resolveReported_outcome (specifier parent : Text) :
    (resolver.resolveReported specifier parent).outcome =
      (resolver.resolveUncached specifier parent).outcome := by
  unfold resolveReported
  cases h : (resolver.resolveUncached specifier parent).outcome with
  | ok resolution => simp [h]
  | error failure => cases failure <;> simp [h]

theorem direct_eq {request : Request} {parent : Text}
    (h : parentUrl resolver.workingDirectory request.parent = .ok parent) :
    resolver.direct request = (resolver.resolveUncached request.specifier parent).outcome := by
  simp [direct, resolve, h, resolveReported_outcome]

theorem direct_of_parentUrl_eq_error {request : Request} {cause : Url.SyntaxError}
    (h : parentUrl resolver.workingDirectory request.parent = .error cause) :
    resolver.direct request = .error (.fault (.url cause)) := by
  simp [direct, resolve, h]

theorem resolve_of_key?_eq_none {request : Request} (h : resolver.key? request = none)
    (cache : Cache) :
    (resolver.resolve cache request.specifier request.parent true).1.outcome =
        resolver.direct request ∧
      (resolver.resolve cache request.specifier request.parent true).2.entries =
        cache.entries := by
  unfold key? at h
  unfold direct resolve
  split at h
  · simp at h
  · next hp => simp [hp]

theorem resolve_of_hit {request : Request} {key : Text} (hkey : resolver.key? request = some key)
    {cache : Cache} {resolution : Resolution}
    (h : Association.get? key cache.entries = some resolution) :
    (resolver.resolve cache request.specifier request.parent true).1.outcome = .ok resolution ∧
      (resolver.resolve cache request.specifier request.parent true).2.entries =
        cache.entries := by
  unfold key? at hkey
  unfold resolve
  split at hkey
  · next parent hp =>
      obtain rfl := Option.some.inj hkey
      simp [hp, resolveCached, Cache.get, h]
  · simp at hkey

theorem resolve_of_miss {request : Request} {key : Text} (hkey : resolver.key? request = some key)
    {cache : Cache} (h : Association.get? key cache.entries = none) :
    (resolver.resolve cache request.specifier request.parent true).1.outcome =
        resolver.direct request ∧
      (resolver.resolve cache request.specifier request.parent true).2.entries =
        match resolver.direct request with
        | .ok resolution => Association.put key resolution cache.entries
        | .error _ => cache.entries := by
  unfold key? at hkey
  split at hkey
  · next parent hp =>
      obtain rfl := Option.some.inj hkey
      rw [direct_eq resolver hp, ← resolveReported_outcome]
      simp only [resolve, hp, if_true, resolveCached, Cache.get, h]
      cases hrun : (resolver.resolveReported request.specifier parent).outcome with
      | ok resolution => simp [Cache.set, h]
      | error failure => simp [hrun]
  · simp at hkey

/-! ## What is stored -/

theorem stored?_append (key : Text) (requests : List Request) (request : Request) :
    resolver.stored? key (requests ++ [request]) =
      (resolver.stored? key requests).or
        (if resolver.key? request = some key then (resolver.direct request).toOption
          else none) := by
  simp only [stored?, List.findSome?_append, List.findSome?_singleton]

theorem stored?_eq_some {key : Text} {requests : List Request} {resolution : Resolution}
    (h : resolver.stored? key requests = some resolution) :
    ∃ request ∈ requests, resolver.key? request = some key ∧
      resolver.direct request = .ok resolution := by
  obtain ⟨request, hmem, hfound⟩ := List.exists_of_findSome?_eq_some h
  split at hfound
  · next hkey =>
      refine ⟨request, hmem, hkey, ?_⟩
      cases hd : resolver.direct request with
      | ok found => simpa [hd, Except.toOption] using hfound
      | error failure => simp [hd, Except.toOption] at hfound
  · simp at hfound

theorem stored?_of_agree {requests : List Request} (h : requests.Pairwise resolver.Agree)
    {request : Request} (hmem : request ∈ requests) {key : Text}
    (hkey : resolver.key? request = some key) {resolution : Resolution}
    (hok : resolver.direct request = .ok resolution) :
    resolver.stored? key requests = some resolution := by
  induction requests with
  | nil => simp at hmem
  | cons first rest ih =>
      obtain ⟨hfirst, hrest⟩ := List.pairwise_cons.mp h
      have hfound : resolver.stored? key (first :: rest) =
          (if resolver.key? first = some key then (resolver.direct first).toOption
            else none).or (resolver.stored? key rest) := by
        rw [stored?, List.findSome?_cons]
        cases (if resolver.key? first = some key then (resolver.direct first).toOption
          else none) <;> rfl
      rw [hfound]
      rcases List.mem_cons.mp hmem with rfl | hmem
      · simp [hkey, hok, Except.toOption]
      · rw [ih hrest hmem]
        by_cases hk : resolver.key? first = some key
        · cases hd : resolver.direct first with
          | error failure => simp [Except.toOption]
          | ok found =>
              have hsame := hfirst request hmem key hk hkey found hd
              rw [hok] at hsame
              simpa [hk, Except.toOption] using hsame.symm
        · simp [hk]

def Holds (cache : Cache) (requests : List Request) : Prop :=
  ∀ key, Association.get? key cache.entries = resolver.stored? key requests

/-- One request: it gets what is stored under its key or else its own result, and the cache goes on
to hold what is stored. -/
theorem Holds.step {cache : Cache} {requests : List Request} (h : resolver.Holds cache requests)
    (request : Request) :
    (resolver.resolve cache request.specifier request.parent true).1.outcome =
        (match (resolver.key? request).bind fun key => resolver.stored? key requests with
          | some resolution => .ok resolution
          | none => resolver.direct request) ∧
      resolver.Holds (resolver.resolve cache request.specifier request.parent true).2
        (requests ++ [request]) := by
  cases hkey : resolver.key? request with
  | none =>
      obtain ⟨hrun, hentries⟩ := resolver.resolve_of_key?_eq_none hkey cache
      refine ⟨hrun, fun other => ?_⟩
      rw [hentries, h other, stored?_append]
      simp [hkey]
  | some key =>
      simp only [Option.bind_some]
      cases hs : resolver.stored? key requests with
      | some resolution =>
          obtain ⟨hrun, hentries⟩ := resolver.resolve_of_hit hkey ((h key).trans hs)
          refine ⟨hrun, fun other => ?_⟩
          rw [hentries, h other, stored?_append, hkey]
          by_cases ho : key = other
          · subst ho
            simp [hs]
          · simp [ho]
      | none =>
          obtain ⟨hrun, hentries⟩ := resolver.resolve_of_miss hkey ((h key).trans hs)
          refine ⟨hrun, fun other => ?_⟩
          rw [hentries, stored?_append, hkey]
          cases hd : resolver.direct request with
          | error failure => simp [h other, Except.toOption]
          | ok resolution =>
              by_cases ho : key = other
              · subst ho
                simp [hs, Except.toOption]
              · simp [Association.get?_put_of_ne (Ne.symm ho), h other, ho]

/-! ## All requests -/

theorem answer_eq_direct_iff {requests : List Request} (h : requests.Pairwise resolver.Agree)
    (request : Request) :
    (match (resolver.key? request).bind fun key => resolver.stored? key requests with
      | some resolution => .ok resolution
      | none => resolver.direct request) = resolver.direct request ↔
      ∀ earlier ∈ requests, resolver.Agree earlier request := by
  constructor
  · intro hanswer earlier hmem key hkey hkey' resolution hok
    have hs := resolver.stored?_of_agree h hmem hkey hok
    rw [hkey', Option.bind_some, hs] at hanswer
    exact hanswer.symm
  · intro hagree
    split
    · next resolution hfound =>
        obtain ⟨key, hkey, hs⟩ := Option.bind_eq_some_iff.mp hfound
        obtain ⟨earlier, hmem, hkey', hok⟩ := resolver.stored?_eq_some hs
        exact (hagree earlier hmem key hkey' hkey resolution hok).symm
    · rfl

theorem replay_eq_map_direct_iff {cache : Cache} {earlier : List Request}
    (hholds : resolver.Holds cache earlier) (hagree : earlier.Pairwise resolver.Agree)
    (requests : List Request) :
    resolver.replay cache requests = requests.map resolver.direct ↔
      (earlier ++ requests).Pairwise resolver.Agree := by
  induction requests generalizing cache earlier with
  | nil => simpa [replay] using hagree
  | cons request rest ih =>
      obtain ⟨hrun, hnext⟩ := hholds.step resolver request
      have hanswer := resolver.answer_eq_direct_iff hagree request
      rw [← hrun] at hanswer
      simp only [replay, List.map_cons, List.cons.injEq, hanswer]
      have hmoved : earlier ++ request :: rest = (earlier ++ [request]) ++ rest := by simp
      by_cases hr : ∀ first ∈ earlier, resolver.Agree first request
      · have hearlier : (earlier ++ [request]).Pairwise resolver.Agree := by
          rw [List.pairwise_append]
          exact ⟨hagree, by simp, by simpa using hr⟩
        rw [hmoved, ih hnext hearlier]
        exact ⟨fun hall => hall.2, fun hall => ⟨hr, hall⟩⟩
      · refine ⟨fun hall => absurd hall.1 hr, fun hall => absurd ?_ hr⟩
        intro first hfirst
        exact (List.pairwise_append.mp hall).2.2 first hfirst request (by simp)

theorem agree_of_parents {first second : Request}
    (h : ∀ parent, parentUrl resolver.workingDirectory first.parent = .ok parent -> '#' ∉ parent)
    (h' : ∀ parent, parentUrl resolver.workingDirectory second.parent = .ok parent ->
      '#' ∉ parent) : resolver.Agree first second := by
  intro key hkey hkey' resolution hok
  unfold key? at hkey hkey'
  split at hkey
  · next parent hp =>
      split at hkey'
      · next parent' hp' =>
          have heq : Cache.key first.specifier parent = Cache.key second.specifier parent' :=
            (Option.some.inj hkey).trans (Option.some.inj hkey').symm
          obtain ⟨hspecifier, rfl⟩ := Cache.key_injective (h parent hp) (h' parent' hp') heq
          rw [resolver.direct_eq hp] at hok
          rw [resolver.direct_eq hp', ← hspecifier, hok]
      · simp at hkey'
  · simp at hkey

/-- Requests through a fresh cache all end as they do without one exactly if each of them agrees
with the successful ones before it under the same key.  They do whenever no parent has a `#` in
its URL. -/
theorem replay_empty_eq_map_direct_iff (requests : List Request) :
    (resolver.replay .empty requests = requests.map resolver.direct ↔
      requests.Pairwise resolver.Agree) ∧
    ((∀ request ∈ requests, ∀ parent,
        parentUrl resolver.workingDirectory request.parent = .ok parent -> '#' ∉ parent) ->
      resolver.replay .empty requests = requests.map resolver.direct) := by
  have hempty : resolver.Holds .empty [] := fun key => by simp [Cache.empty, stored?, Association.get?]
  have hiff := resolver.replay_eq_map_direct_iff hempty List.Pairwise.nil requests
  refine ⟨by simpa using hiff, fun h => hiff.mpr ?_⟩
  rw [List.nil_append, List.pairwise_iff_forall_sublist]
  intro first second hsub
  exact resolver.agree_of_parents (h first (hsub.subset (by simp)))
    (h second (hsub.subset (by simp)))

def twoDirectories : Resolver where
  files := FileSystem.Memory.toFileSystem
    ⟨[("/d/a.mjs".toList, []), ("/e/a.mjs".toList, [])], ["/d".toList, "/e".toList, "/".toList]⟩
  conditions := []
  flags := .listed []
  workingDirectory := "/".toList

/-- The mark in the first parent makes both keys equal, and the second request gets the module of
the first one. -/
theorem replay_ne_direct_of_marked_parent :
    twoDirectories.replay .empty
        [⟨"./a.mjs".toList, "file:///d/x#file:///e/y".toList⟩,
          ⟨"./a.mjs#file:///d/x".toList, "file:///e/y".toList⟩] =
        [.ok ⟨"/d/a.mjs".toList, some .module⟩, .ok ⟨"/d/a.mjs".toList, some .module⟩] ∧
      [⟨"./a.mjs".toList, "file:///d/x#file:///e/y".toList⟩,
          ⟨"./a.mjs#file:///d/x".toList, "file:///e/y".toList⟩].map twoDirectories.direct =
        [.ok ⟨"/d/a.mjs".toList, some .module⟩, .ok ⟨"/e/a.mjs".toList, some .module⟩] :=
  ⟨rfl, rfl⟩

end Resolver

end ModuleResolution
