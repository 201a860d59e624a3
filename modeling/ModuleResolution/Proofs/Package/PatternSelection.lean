import ModuleResolution.Package.Exports
import ModuleResolution.Proofs.Association
import ModuleResolution.Proofs.Package.PatternOrder

/-!
# Selection in subpath maps

A name without a star that is a key takes the target of that key.  Any other name takes the target
of the one matching pattern that is more specific than all others that match, so the order of the
fields does not count.
-/

namespace ModuleResolution

namespace Package

namespace SubpathMap

open PatternKey

variable {fields : Json.Fields} {subject : Text}

/-- The name is a key itself, and none with a star. -/
def IsExact (fields : Json.Fields) (subject : Text) : Prop :=
  '*' ∉ subject ∧ subject ∈ fields.map Prod.fst

/-- The field has a pattern that matches the name and is more specific than every other one that
does. -/
def BestMatch (fields : Json.Fields) (subject : Text) (target : Json) (capture : Text) : Prop :=
  ∃ key, (key, target) ∈ fields ∧ Matches key subject capture ∧
    ∀ other ∈ fields.map Prod.fst, other ≠ key ->
      ∀ capture', Matches other subject capture' -> MoreSpecific key other

/-! ## The first pattern that matches -/

theorem firstMatch?_eq_none {keys : List Text} (hstars : ∀ key ∈ keys, key.count '*' = 1)
    (h : ∀ key ∈ keys, ∀ capture, ¬Matches key subject capture) :
    firstMatch? fields subject keys = none := by
  induction keys with
  | nil => rfl
  | cons key rest ih =>
      have hkey : capture? key subject = none := by
        rw [Option.eq_none_iff_forall_ne_some]
        intro capture hcapture
        exact h key (by simp) capture
          ((capture?_eq_some_iff (hstars key (by simp))).1 hcapture)
      rw [firstMatch?, hkey]
      exact ih (fun other hother => hstars other (List.mem_cons_of_mem _ hother))
        fun other hother => h other (List.mem_cons_of_mem _ hother)

theorem firstMatch?_of_matches {keys : List Text} (hsorted : PatternKey.Sorted keys)
    (hstars : ∀ key ∈ keys, key.count '*' = 1) {key capture : Text} (hkey : key ∈ keys)
    (hmatches : Matches key subject capture) :
    ∃ best captured, best ∈ keys ∧ Matches best subject captured ∧
      (∀ other ∈ keys, other ≠ best ->
        ∀ capture', Matches other subject capture' -> MoreSpecific best other) ∧
      firstMatch? fields subject keys = (Association.get? best fields).map (·, captured) := by
  induction keys with
  | nil => simp at hkey
  | cons first rest ih =>
      obtain ⟨hfirst, hrest⟩ := List.pairwise_cons.mp hsorted
      have hstarsRest : ∀ other ∈ rest, other.count '*' = 1 :=
        fun other hother => hstars other (List.mem_cons_of_mem _ hother)
      cases hcapture : capture? first subject with
      | some captured =>
          have hbest := (capture?_eq_some_iff (hstars first (by simp))).1 hcapture
          refine ⟨first, captured, by simp, hbest, ?_, by simp [firstMatch?, hcapture]⟩
          intro other hother hne capture' hmatches'
          have hmem : other ∈ rest := (List.mem_cons.mp hother).resolve_left hne
          rcases hbest.eq_or_moreSpecific hmatches' with heq | hmore | hless
          · exact absurd heq.symm hne
          · exact hmore
          · exact absurd hless (hfirst other hmem)
      | none =>
          have hnot : ∀ capture', ¬Matches first subject capture' := by
            intro capture' hmatches'
            simp [hmatches'.capture?_eq_some] at hcapture
          have hmem : key ∈ rest := by
            rcases List.mem_cons.mp hkey with rfl | hmem
            · exact absurd hmatches (hnot capture)
            · exact hmem
          obtain ⟨best, captured, hbest, hmatch, hmore, hrun⟩ := ih hrest hstarsRest hmem
          refine ⟨best, captured, List.mem_cons_of_mem _ hbest, hmatch, ?_, ?_⟩
          · intro other hother hne capture' hmatches'
            rcases List.mem_cons.mp hother with rfl | hother
            · exact absurd hmatches' (hnot capture')
            · exact hmore other hother hne capture' hmatches'
          · simpa [firstMatch?, hcapture] using hrun

/-! ## The selection -/

theorem select?_of_exact (distinct : (fields.map Prod.fst).Nodup) {target : Json}
    (hstar : '*' ∉ subject) (hmem : (subject, target) ∈ fields) :
    select? fields subject = some (target, none) := by
  have hget := (Association.get?_eq_some_iff_mem distinct).mpr hmem
  simp [select?, hstar, hget]

theorem select?_of_not_exact (h : ¬IsExact fields subject) :
    select? fields subject =
      (firstMatch? fields subject (expansionKeys (fields.map Prod.fst))).map
        fun (target, capture) => (target, some capture) := by
  have hnone : (if subject.contains '*' then none else Association.get? subject fields) = none := by
    split
    · rfl
    · next hstar =>
        rw [Association.get?_eq_none_iff]
        exact fun hmem => h ⟨by simpa using hstar, hmem⟩
  simp only [select?, hnone]

theorem select?_eq_none (h : ¬IsExact fields subject)
    (hnone : ∀ key ∈ fields.map Prod.fst, ∀ capture, ¬Matches key subject capture) :
    select? fields subject = none := by
  rw [select?_of_not_exact h, firstMatch?_eq_none]
  · rfl
  · exact fun key hkey => (mem_expansionKeys.mp hkey).2
  · exact fun key hkey => hnone key (mem_expansionKeys.mp hkey).1

theorem exists_bestMatch (distinct : (fields.map Prod.fst).Nodup)
    (h : ¬IsExact fields subject) {key capture : Text} (hkey : key ∈ fields.map Prod.fst)
    (hmatches : Matches key subject capture) :
    ∃ target captured, BestMatch fields subject target captured ∧
      select? fields subject = some (target, some captured) := by
  have hmem : key ∈ expansionKeys (fields.map Prod.fst) :=
    mem_expansionKeys.mpr ⟨hkey, hmatches.count_eq_one⟩
  obtain ⟨best, captured, hbest, hmatch, hmore, hrun⟩ :=
    firstMatch?_of_matches (expansionKeys_sorted _)
      (fun other hother => (mem_expansionKeys.mp hother).2) hmem hmatches
  obtain ⟨⟨name, target⟩, hfield, rfl⟩ := List.mem_map.mp (mem_expansionKeys.mp hbest).1
  refine ⟨target, captured, ⟨name, hfield, hmatch, ?_⟩, ?_⟩
  · intro other hother hne capture' hmatches'
    exact hmore other (mem_expansionKeys.mpr ⟨hother, hmatches'.count_eq_one⟩) hne capture'
      hmatches'
  · rw [select?_of_not_exact h, hrun, (Association.get?_eq_some_iff_mem distinct).mpr hfield]
    rfl

theorem BestMatch.unique (distinct : (fields.map Prod.fst).Nodup) {target target' : Json}
    {capture capture' : Text} (h : BestMatch fields subject target capture)
    (h' : BestMatch fields subject target' capture') : target = target' ∧ capture = capture' := by
  obtain ⟨key, hmem, hmatch, hmore⟩ := h
  obtain ⟨key', hmem', hmatch', hmore'⟩ := h'
  have hkeys : key' = key := by
    refine Decidable.byContradiction fun hne => ?_
    have habove := hmore key' (List.mem_map_of_mem hmem') hne capture' hmatch'
    have hbelow := hmore' key (List.mem_map_of_mem hmem) (Ne.symm hne) capture hmatch
    exact habove.asymm hbelow
  subst hkeys
  have htarget := (Association.get?_eq_some_iff_mem distinct).mpr hmem
  have htarget' := (Association.get?_eq_some_iff_mem distinct).mpr hmem'
  exact ⟨Option.some.inj (htarget.symm.trans htarget'), hmatch.capture_unique hmatch'⟩

theorem select?_of_bestMatch (distinct : (fields.map Prod.fst).Nodup)
    (h : ¬IsExact fields subject) {target : Json} {capture : Text}
    (hbest : BestMatch fields subject target capture) :
    select? fields subject = some (target, some capture) := by
  have ⟨key, hmem, hmatch, _⟩ := hbest
  obtain ⟨target', captured, hbest', hrun⟩ :=
    exists_bestMatch distinct h (List.mem_map_of_mem hmem) hmatch
  obtain ⟨rfl, rfl⟩ := hbest.unique distinct hbest'
  exact hrun

/-! ## The order of the fields -/

theorem BestMatch.perm {fields' : Json.Fields} (hperm : fields.Perm fields') {target : Json}
    {capture : Text} (h : BestMatch fields subject target capture) :
    BestMatch fields' subject target capture := by
  obtain ⟨key, hmem, hmatch, hmore⟩ := h
  refine ⟨key, hperm.mem_iff.mp hmem, hmatch, fun other hother => hmore other ?_⟩
  exact (hperm.map Prod.fst).mem_iff.mpr hother

theorem select?_perm (distinct : (fields.map Prod.fst).Nodup) {fields' : Json.Fields}
    (hperm : fields.Perm fields') : select? fields' subject = select? fields subject := by
  have hkeys := hperm.map Prod.fst
  have distinct' : (fields'.map Prod.fst).Nodup := hkeys.nodup_iff.mp distinct
  have hexact : IsExact fields' subject ↔ IsExact fields subject := by
    rw [IsExact, IsExact, hkeys.mem_iff]
  by_cases he : IsExact fields subject
  · obtain ⟨hstar, hmem⟩ := he
    obtain ⟨⟨name, target⟩, hfield, rfl⟩ := List.mem_map.mp hmem
    rw [select?_of_exact distinct hstar hfield,
      select?_of_exact distinct' hstar (hperm.mem_iff.mp hfield)]
  · have he' : ¬IsExact fields' subject := fun h => he (hexact.mp h)
    by_cases hm : ∃ key ∈ fields.map Prod.fst, ∃ capture, Matches key subject capture
    · obtain ⟨key, hkey, capture, hmatches⟩ := hm
      obtain ⟨target, captured, hbest, hrun⟩ := exists_bestMatch distinct he hkey hmatches
      rw [hrun, select?_of_bestMatch distinct' he' (hbest.perm hperm)]
    · have hnone : ∀ key ∈ fields.map Prod.fst, ∀ capture, ¬Matches key subject capture :=
        fun key hkey capture hmatches => hm ⟨key, hkey, capture, hmatches⟩
      rw [select?_eq_none he hnone, select?_eq_none he']
      exact fun key hkey => hnone key (hkeys.mem_iff.mpr hkey)

/-! ## What a name gives -/

/-- A name gives what the target of its own key gives, or what the target of the best match gives
with the capture of that match, or nothing if there is neither.  The order of the fields does not
count. -/
theorem resolve_eq_of_selection (context : TargetContext) (fields : Json.Fields) (subject : Text)
    (distinct : (fields.map Prod.fst).Nodup) :
    (∀ target, '*' ∉ subject -> (subject, target) ∈ fields ->
      resolve context fields subject = Target.resolve { context with capture := none } target) ∧
    (¬IsExact fields subject ->
      (∀ target capture, BestMatch fields subject target capture ->
        resolve context fields subject =
          Target.resolve { context with capture := some capture } target) ∧
      (∀ key ∈ fields.map Prod.fst, ∀ capture, Matches key subject capture ->
        ∃ target captured, BestMatch fields subject target captured ∧
          ∀ target' captured', BestMatch fields subject target' captured' ->
            target' = target ∧ captured' = captured) ∧
      ((∀ key ∈ fields.map Prod.fst, ∀ capture, ¬Matches key subject capture) ->
        resolve context fields subject = pure none)) ∧
    ∀ fields', fields.Perm fields' ->
      resolve context fields' subject = resolve context fields subject := by
  refine ⟨?_, fun hexact => ⟨?_, ?_, ?_⟩, ?_⟩
  · intro target hstar hmem
    rw [resolve, select?_of_exact distinct hstar hmem]
  · intro target capture hbest
    rw [resolve, select?_of_bestMatch distinct hexact hbest]
  · intro key hkey capture hmatches
    obtain ⟨target, captured, hbest, -⟩ := exists_bestMatch distinct hexact hkey hmatches
    exact ⟨target, captured, hbest, fun _ _ hbest' => hbest'.unique distinct hbest⟩
  · intro hnone
    rw [resolve, select?_eq_none hexact hnone]
  · intro fields' hperm
    rw [resolve, resolve, select?_perm distinct hperm]

/-- Of two patterns that match, the one with the longer base gives the target, although it comes
last. -/
theorem resolve_eq_of_selection_longer_base :
    ([("./*".toList, Json.string "./a/*".toList), ("./x/*.js".toList, .null)].map
      Prod.fst).Nodup ∧
    resolve ⟨"/".toList, "/p".toList, [], none, none⟩
        [("./*".toList, .string "./a/*".toList), ("./x/*.js".toList, .null)]
        "./x/y.js".toList =
      Target.resolve ⟨"/".toList, "/p".toList, [], some "y".toList, none⟩ .null := by
  have distinct : ([("./*".toList, Json.string "./a/*".toList), ("./x/*.js".toList, .null)].map
      Prod.fst).Nodup := by decide
  have hexact : ¬IsExact [("./*".toList, Json.string "./a/*".toList), ("./x/*.js".toList, .null)]
      "./x/y.js".toList := by
    intro h
    obtain ⟨-, hmem⟩ := h
    revert hmem
    decide
  have hbest : BestMatch [("./*".toList, Json.string "./a/*".toList), ("./x/*.js".toList, .null)]
      "./x/y.js".toList .null "y".toList := by
    refine ⟨"./x/*.js".toList, by simp, ?_, ?_⟩
    · exact ⟨"./x/".toList, ".js".toList, by decide, by decide, by decide, by decide, by decide⟩
    · intro other hother hne _ _
      simp only [List.map_cons, List.map_nil, List.mem_cons, List.not_mem_nil, or_false] at hother
      rcases hother with rfl | rfl
      · exact .inl (by decide)
      · exact absurd rfl hne
  exact ⟨distinct, ((resolve_eq_of_selection _ _ _ distinct).2.1 hexact).1 _ _ hbest⟩

end SubpathMap

end Package

end ModuleResolution
