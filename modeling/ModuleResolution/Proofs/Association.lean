import ModuleResolution.Association

/-!
# Entries of associations

What a look-up finds is an entry; if no key is there twice, every entry is found.
-/

namespace ModuleResolution

namespace Association

variable {α β : Type} [DecidableEq α]

theorem mem_of_get?_eq_some {key : α} {value : β} {entries : List (α × β)}
    (h : get? key entries = some value) : (key, value) ∈ entries := by
  induction entries with
  | nil => simp [get?] at h
  | cons entry rest ih =>
      obtain ⟨name, old⟩ := entry
      by_cases hk : name = key
      · have hv : old = value := by simpa [get?, hk] using h
        simp [hk, hv]
      · exact List.mem_cons_of_mem _ (ih (by simpa [get?, hk] using h))

theorem get?_eq_none_iff {key : α} {entries : List (α × β)} :
    get? key entries = none ↔ key ∉ entries.map Prod.fst := by
  induction entries with
  | nil => simp [get?]
  | cons entry rest ih =>
      obtain ⟨name, old⟩ := entry
      by_cases hk : name = key
      · simp [get?, hk]
      · simp only [get?, hk, if_false, ih, List.map_cons, List.mem_cons, not_or]
        exact ⟨fun h => ⟨Ne.symm hk, h⟩, fun h => h.2⟩

theorem get?_eq_some_iff_mem {entries : List (α × β)} (h : (entries.map Prod.fst).Nodup)
    {key : α} {value : β} : get? key entries = some value ↔ (key, value) ∈ entries := by
  refine ⟨mem_of_get?_eq_some, fun hmem => ?_⟩
  induction entries with
  | nil => simp at hmem
  | cons entry rest ih =>
      obtain ⟨name, old⟩ := entry
      simp only [List.map_cons, List.nodup_cons] at h
      rcases List.mem_cons.mp hmem with heq | hmem
      · cases heq
        simp [get?]
      · have hk : name ≠ key := by
          rintro rfl
          exact h.1 (List.mem_map_of_mem hmem)
        simpa [get?, hk] using ih h.2 hmem

theorem get?_append (key : α) (first second : List (α × β)) :
    get? key (first ++ second) = (get? key first).or (get? key second) := by
  induction first with
  | nil => rfl
  | cons entry rest ih =>
      obtain ⟨name, value⟩ := entry
      by_cases hk : name = key
      · simp [get?, hk]
      · simp [get?, hk, ih]

theorem put_of_get?_eq_none {key : α} (value : β) {entries : List (α × β)}
    (h : get? key entries = none) : put key value entries = entries ++ [(key, value)] := by
  induction entries with
  | nil => rfl
  | cons entry rest ih =>
      obtain ⟨name, old⟩ := entry
      have hk : name ≠ key := by
        rintro rfl
        simp [get?] at h
      have hrest : get? key rest = none := by simpa [get?, hk] using h
      simp [put, hk, ih hrest]

end Association

end ModuleResolution
