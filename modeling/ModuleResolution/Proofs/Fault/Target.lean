import ModuleResolution.Package.Exports
import ModuleResolution.Proofs.Fault.Url
import ModuleResolution.Proofs.Package.Leaves
import ModuleResolution.Proofs.Trace

/-!
# Targets that stop

Which text of a target a resolution comes to is decided by the conditions and by what the targets
before it give.  A target stops exactly if the resolution comes to a text that stops, and a path in
the package stops exactly if it leads out of it.
-/

namespace ModuleResolution

/-- The list has an element that hits, and all elements before it are passed over. -/
def Reaches {α : Type} (passes hits : α -> Prop) (list : List α) : Prop :=
  ∃ before element after, list = before ++ element :: after ∧ (∀ other ∈ before, passes other) ∧
    hits element

section Reaches

variable {α : Type} {passes hits : α -> Prop}

theorem not_reaches_nil : ¬Reaches passes hits [] := by
  intro h
  obtain ⟨before, element, after, h, -, -⟩ := h
  cases before <;> cases h

theorem reaches_cons_iff {first : α} {rest : List α} :
    Reaches passes hits (first :: rest) ↔
      hits first ∨ (passes first ∧ Reaches passes hits rest) := by
  constructor
  · intro h
    obtain ⟨before, element, after, h, hbefore, helement⟩ := h
    cases before with
    | nil =>
        cases h
        exact .inl helement
    | cons head others =>
        cases h
        exact .inr ⟨hbefore first List.mem_cons_self, others, element, after, rfl,
          fun other ho => hbefore other (List.mem_cons_of_mem _ ho), helement⟩
  · intro h
    rcases h with h | ⟨hfirst, before, element, after, rfl, hbefore, helement⟩
    · exact ⟨[], first, rest, rfl, by simp, h⟩
    · refine ⟨first :: before, element, after, rfl, fun other ho => ?_, helement⟩
      rcases List.mem_cons.1 ho with rfl | ho
      · exact hfirst
      · exact hbefore other ho

theorem reaches_congr {hits' : α -> Prop} {list : List α}
    (h : ∀ element ∈ list, hits element ↔ hits' element) :
    Reaches passes hits list ↔ Reaches passes hits' list := by
  constructor
  · intro hreaches
    obtain ⟨before, element, after, rfl, hbefore, helement⟩ := hreaches
    exact ⟨before, element, after, rfl, hbefore, (h element (by simp)).1 helement⟩
  · intro hreaches
    obtain ⟨before, element, after, rfl, hbefore, helement⟩ := hreaches
    exact ⟨before, element, after, rfl, hbefore, (h element (by simp)).2 helement⟩

end Reaches

namespace Package

namespace Target

/-- The item of a list gives nothing or is an invalid target. -/
def IsPassedOver (context : TargetContext) (target : Json) : Prop :=
  (resolve context target).outcome = .ok none ∨
    ∃ text, (resolve context target).outcome = .error (.resolution (.invalidPackageTarget text))

/-- The resolution of a target comes to a text that stops it. -/
inductive Stops (context : TargetContext) (stops : Text -> Prop) : Json -> Prop where
  | text {text : Text} : stops text -> Stops context stops (.string text)
  | field {before after : Json.Fields} {key : Text} {value : Json} :
      Keys.inOrder false false ((before ++ (key, value) :: after).map Prod.fst) ->
      (∀ other ∈ before, isActive context other.1 ->
        (resolve context other.2).outcome = .ok none) ->
      isActive context key -> Stops context stops value ->
      Stops context stops (.object (before ++ (key, value) :: after))
  | item {before after : List Json} {value : Json} :
      (∀ other ∈ before, IsPassedOver context other) -> Stops context stops value ->
      Stops context stops (.array (before ++ value :: after))

theorem Stops.imp {context : TargetContext} {stops stops' : Text -> Prop}
    (h : ∀ text, stops text -> stops' text) {target : Json} (ht : Stops context stops target) :
    Stops context stops' target := by
  induction ht with
  | text ht => exact .text (h _ ht)
  | field horder hbefore hactive _ ih => exact .field horder hbefore hactive ih
  | item hbefore _ ih => exact .item hbefore ih

theorem stops_congr {context : TargetContext} {stops stops' : Text -> Prop}
    (h : ∀ text, stops text ↔ stops' text) {target : Json} :
    Stops context stops target ↔ Stops context stops' target :=
  ⟨Stops.imp fun text => (h text).1, Stops.imp fun text => (h text).2⟩

theorem isInvalidTarget_iff {failure : Failure} :
    isInvalidTarget failure ↔ ∃ text, failure = .resolution (.invalidPackageTarget text) := by
  unfold isInvalidTarget
  split
  · next text => exact ⟨fun _ => ⟨text, rfl⟩, fun _ => rfl⟩
  · next hnot =>
      refine iff_of_false Bool.false_ne_true ?_
      intro h
      obtain ⟨text, h⟩ := h
      exact hnot text h

section Resolve

variable (context : TargetContext)

theorem resolveFirstActive_stops_iff (fields : Json.Fields) :
    (resolveFirstActive context fields).Stops ↔
      Reaches (fun other => isActive context other.1 -> (resolve context other.2).outcome = .ok none)
        (fun field => isActive context field.1 ∧ (resolve context field.2).Stops) fields := by
  induction fields with
  | nil =>
      rw [resolveFirstActive]
      exact iff_of_false (Traced.not_stops_pure _) not_reaches_nil
  | cons field rest ih =>
      rw [reaches_cons_iff, resolveFirstActive]
      by_cases hactive : isActive context field.1
      · rw [if_pos hactive, Traced.stops_bind_option, ← ih]
        simp [hactive]
      · rw [if_neg hactive, ih]
        simp [hactive]

theorem resolveFirstItem_stops_iff (items : List Json) :
    (resolveFirstItem context items).Stops ↔
      Reaches (IsPassedOver context) (fun item => (resolve context item).Stops) items := by
  induction items with
  | nil =>
      rw [resolveFirstItem]
      exact iff_of_false (Traced.not_stops_pure _) not_reaches_nil
  | cons item rest ih =>
      rw [reaches_cons_iff, resolveFirstItem, ← ih]
      unfold IsPassedOver
      cases houtcome : (resolve context item).outcome with
      | ok given =>
          have hitem : ¬(resolve context item).Stops := Traced.not_stops_of_ok houtcome
          cases given with
          | none => simp [hitem]
          | some url => simp [hitem]
      | error failure =>
          cases failure with
          | fault fault =>
              have hitem : (resolve context item).Stops := ⟨fault, houtcome⟩
              simp [hitem, isInvalidTarget]
          | resolution error =>
              have hitem : ¬(resolve context item).Stops :=
                Traced.not_stops_of_resolution houtcome
              have hinvalid : isInvalidTarget (.resolution error) ↔
                  ∃ text, error = .invalidPackageTarget text := by
                rw [isInvalidTarget_iff]
                simp
              cases rest with
              | nil =>
                  have hnil : ¬(resolveFirstItem context []).Stops := by
                    rw [resolveFirstItem]
                    exact Traced.not_stops_pure _
                  simp [hitem, hnil]
              | cons next others =>
                  by_cases hi : isInvalidTarget (.resolution error)
                  · simp [hitem, hi, hinvalid.1 hi]
                  · have hnone : ¬∃ text, error = .invalidPackageTarget text :=
                      fun h => hi (hinvalid.2 h)
                    simp only [not_exists] at hnone
                    simp [hitem, hi, hnone]

end Resolve

theorem stops_object_iff {context : TargetContext} {stops : Text -> Prop} {fields : Json.Fields} :
    Stops context stops (.object fields) ↔
      Keys.inOrder false false (fields.map Prod.fst) ∧
        Reaches
          (fun other => isActive context other.1 -> (resolve context other.2).outcome = .ok none)
          (fun field => isActive context field.1 ∧ Stops context stops field.2) fields := by
  constructor
  · intro h
    cases h with
    | field horder hbefore hactive hvalue =>
        exact ⟨horder, _, _, _, rfl, hbefore, hactive, hvalue⟩
  · intro hstops
    obtain ⟨horder, before, field, after, rfl, hbefore, hactive, hvalue⟩ := hstops
    exact .field horder hbefore hactive hvalue

theorem stops_array_iff {context : TargetContext} {stops : Text -> Prop} {items : List Json} :
    Stops context stops (.array items) ↔
      Reaches (IsPassedOver context) (Stops context stops) items := by
  constructor
  · intro h
    cases h with
    | item hbefore hvalue => exact ⟨_, _, _, rfl, hbefore, hvalue⟩
  · intro hstops
    obtain ⟨before, item, after, rfl, hbefore, hvalue⟩ := hstops
    exact .item hbefore hvalue

theorem resolve_stops_iff (context : TargetContext) : ∀ target : Json,
    (resolve context target).Stops ↔
      Stops context (fun text => (resolveText context text).Stops) target
  | .string text => by
      rw [resolve, Traced.stops_bind]
      constructor
      · intro h
        rcases h with h | ⟨_, _, h⟩
        · exact .text h
        · exact absurd h (Traced.not_stops_pure _)
      · intro h
        cases h with
        | text h => exact .inl h
  | .object fields => by
      have hfields : ∀ field ∈ fields, (resolve context field.2).Stops ↔
          Stops context (fun text => (resolveText context text).Stops) field.2 :=
        fun field _ => resolve_stops_iff context field.2
      rw [resolve, stops_object_iff]
      unfold Keys.check
      by_cases horder : Keys.inOrder false false (fields.map Prod.fst)
      · rw [if_pos horder]
        simp only [horder, true_and]
        rw [resolveFirstActive_stops_iff]
        exact reaches_congr fun field hf => and_congr_right fun _ => hfields field hf
      · rw [if_neg horder]
        exact iff_of_false (Traced.not_stops_reject _) fun h => horder h.1
  | .array items => by
      have hitems : ∀ item ∈ items, (resolve context item).Stops ↔
          Stops context (fun text => (resolveText context text).Stops) item :=
        fun item _ => resolve_stops_iff context item
      rw [resolve, stops_array_iff, resolveFirstItem_stops_iff]
      exact reaches_congr hitems
  | .null => by
      rw [resolve]
      exact iff_of_false (Traced.not_stops_pure _) fun h => by cases h
  | .bool _ => by
      rw [resolve]
      exact iff_of_false (Traced.not_stops_reject _) fun h => by cases h
  | .integer _ => by
      rw [resolve]
      exact iff_of_false (Traced.not_stops_reject _) fun h => by cases h
  | .real _ => by
      rw [resolve]
      exact iff_of_false (Traced.not_stops_reject _) fun h => by cases h
termination_by target => sizeOf target
decreasing_by
  · next hf =>
      have hsize := List.sizeOf_lt_of_mem hf
      have hfield : sizeOf field = 1 + sizeOf field.1 + sizeOf field.2 := by cases field; rfl
      have hobject : sizeOf (Json.object fields) = 1 + sizeOf fields :=
        Json.object.sizeOf_spec fields
      omega
  · next hi =>
      have hsize := List.sizeOf_lt_of_mem hi
      have harray : sizeOf (Json.array items) = 1 + sizeOf items := Json.array.sizeOf_spec items
      omega

/-! ## Texts -/

variable {context : TargetContext}

/-- A target leads out of its package, before a capture is put into it. -/
def LeadsOut (workingDirectory package target : Text) : Prop :=
  ∃ url, Url.join (Url.File.ofDirectory workingDirectory package) target = .ok url ∧
    (Url.File.ofDirectory workingDirectory package).isPrefixOf url = false

theorem not_malformed_of_dotSlash {base reference : Text} (hbase : Url.IsFile base)
    (h : "./".toList.isPrefixOf reference) : ¬∃ cause, Url.join base reference = .error cause := by
  obtain ⟨rest, rfl⟩ := List.isPrefixOf_iff_prefix.1 h
  rw [Url.join_eq_error_iff hbase]
  exact fun hm => Url.not_isMalformed_dot _ hm.2

theorem resolvePath_stops_iff {target : Text} (h : "./".toList.isPrefixOf target) :
    (resolvePath context target).Stops ↔
      Segment.isLegalPath (target.drop 2) ∧
        LeadsOut context.workingDirectory context.package target := by
  have hbase := Url.isFile_ofDirectory context.workingDirectory context.package
  have hfirst := not_malformed_of_dotSlash hbase h
  have hfilled : "./".toList.isPrefixOf (fill context target) := by
    obtain ⟨rest, rfl⟩ := List.isPrefixOf_iff_prefix.1 h
    exact List.isPrefixOf_iff_prefix.2 ⟨_, (fill_dotSlash context rest).symm⟩
  have hsecond := not_malformed_of_dotSlash hbase hfilled
  unfold resolvePath LeadsOut
  by_cases hlegal : Segment.isLegalPath (target.drop 2)
  · cases hurl : Url.join (Url.File.ofDirectory context.workingDirectory context.package) target with
    | error cause => exact absurd ⟨cause, hurl⟩ hfirst
    | ok url =>
        simp only [hlegal, Bool.not_true, Bool.false_eq_true, if_false, true_and]
        rw [Traced.stops_bind_of_ok (Traced.outcome_ofUrl_eq_ok.2 hurl)]
        cases hbelow : (Url.File.ofDirectory context.workingDirectory
            context.package).isPrefixOf url with
        | false => simp [hbelow]
        | true =>
            refine iff_of_false ?_ ?_
            · simp only [Bool.not_true, Bool.false_eq_true, if_false]
              split
              · exact Traced.not_stops_pure _
              · split
                · exact Traced.not_stops_reject _
                · rw [Traced.stops_ofUrl]
                  exact hsecond
            · intro hstops
              obtain ⟨other, hother, hfalse⟩ := hstops
              cases hother
              rw [hbelow] at hfalse
              cases hfalse
  · simp [hlegal]

/-- A text stops as a path that leads out of the package, or as the name of another package that
does. -/
inductive TextStops (context : TargetContext) (names : Text -> Prop) (text : Text) : Prop where
  | path : "./".toList.isPrefixOf text -> Segment.isLegalPath (text.drop 2) ->
      LeadsOut context.workingDirectory context.package text -> TextStops context names text
  | name : "./".toList.isPrefixOf text = false -> "../".toList.isPrefixOf text = false ->
      "/".toList.isPrefixOf text = false -> Url.isAbsolute text = false ->
      names (fill context text) -> TextStops context names text

theorem resolveText_stops_iff (text : Text) :
    (resolveText context text).Stops ↔
      TextStops context
        (fun name => ∃ external, context.external = some external ∧ (external name).Stops) text := by
  unfold resolveText
  cases hpath : "./".toList.isPrefixOf text with
  | true =>
      rw [if_pos rfl, resolvePath_stops_iff hpath]
      constructor
      · intro hstops
        obtain ⟨hlegal, hout⟩ := hstops
        exact .path hpath hlegal hout
      · intro h
        cases h with
        | path _ hlegal hout => exact ⟨hlegal, hout⟩
        | name hnot => rw [hpath] at hnot; cases hnot
  | false =>
      rw [if_neg Bool.false_ne_true]
      constructor
      · intro h
        split at h
        · exact absurd h (Traced.not_stops_reject _)
        · next external hexternal =>
            split at h
            · exact absurd h (Traced.not_stops_reject _)
            · next hname =>
                simp only [Bool.or_eq_true, not_or, Bool.not_eq_true] at hname
                exact .name hpath hname.1.1 hname.1.2 hname.2 ⟨external, hexternal, h⟩
      · intro h
        cases h with
        | path hdot => rw [hpath] at hdot; cases hdot
        | name _ hup hslash habsolute hnames =>
            obtain ⟨external, hexternal, hstops⟩ := hnames
            simp only [hexternal, hup, hslash, habsolute, Bool.or_self, Bool.false_eq_true, if_false]
            exact hstops

theorem TextStops.imp {names names' : Text -> Prop} (h : ∀ name, names name -> names' name)
    {text : Text} (ht : TextStops context names text) : TextStops context names' text := by
  cases ht with
  | path hdot hlegal hout => exact .path hdot hlegal hout
  | name hdot hup hslash habsolute hn => exact .name hdot hup hslash habsolute (h _ hn)

end Target

/-! ## Maps -/

theorem SubpathMap.resolve_stops_iff (context : TargetContext) (fields : Json.Fields)
    (subject : Text) :
    (SubpathMap.resolve context fields subject).Stops ↔
      ∃ target capture, SubpathMap.select? fields subject = some (target, capture) ∧
        (Target.resolve { context with capture } target).Stops := by
  unfold SubpathMap.resolve
  cases hselect : SubpathMap.select? fields subject with
  | none =>
      refine iff_of_false (Traced.not_stops_pure _) ?_
      intro h
      obtain ⟨target, capture, h, -⟩ := h
      cases h
  | some selected =>
      constructor
      · exact fun h => ⟨selected.1, selected.2, rfl, h⟩
      · intro h
        obtain ⟨target, capture, h, hstops⟩ := h
        cases h
        exact hstops

namespace Exports

inductive Selects (exports : Json) : Text -> Json -> Option Text -> Prop where
  | main : (mainTarget exports).isTruthy -> Selects exports ".".toList (mainTarget exports) none
  | subpath {fields : Json.Fields} {subpath : Text} {target : Json} {capture : Option Text} :
      "./".toList.isPrefixOf subpath -> subpathMap? exports = some fields ->
      SubpathMap.select? fields subpath = some (target, capture) ->
      Selects exports subpath target capture

def Stops (context : TargetContext) (subpath : Text) (exports : Json) : Prop :=
  (∀ fields, exports = .object fields -> Keys.inOrder false false (fields.map Prod.fst)) ∧
    ∃ target capture, Selects exports subpath target capture ∧
      Target.Stops { context with capture }
        (Target.TextStops { context with capture } fun _ => False) target

theorem checkKeys_eq_ok_iff {package : Text} {exports : Json} :
    checkKeys package exports = .ok () ↔
      ∀ fields, exports = .object fields -> Keys.inOrder false false (fields.map Prod.fst) := by
  unfold checkKeys Keys.check
  split
  · next fields =>
      constructor
      · intro h other hother
        cases hother
        split at h
        · next horder => exact horder
        · cases h
      · intro h
        rw [if_pos (h fields rfl)]
  · next hobject => exact iff_of_true rfl fun fields h => absurd h (hobject fields)

theorem resolve?_stops_iff {context : TargetContext} {subpath : Text}
    (hsubpath : subpath = ".".toList ∨ "./".toList.isPrefixOf subpath) (exports : Json) :
    (resolve? context subpath exports).Stops ↔
      ∃ target capture, Selects exports subpath target capture ∧
        (Target.resolve { context with capture } target).Stops := by
  unfold resolve?
  constructor
  · intro h
    split at h
    · next hmain =>
        simp only at h
        split at h
        · next htruthy => exact ⟨_, _, hmain ▸ .main htruthy, h⟩
        · exact absurd h (Traced.not_stops_pure _)
    · next hmain =>
        have hdot := hsubpath.resolve_left hmain
        split at h
        · exact absurd h (Traced.not_stops_pure _)
        · next fields hfields =>
            rw [if_pos hdot, SubpathMap.resolve_stops_iff] at h
            obtain ⟨target, capture, hselect, h⟩ := h
            exact ⟨_, _, .subpath hdot hfields hselect, h⟩
  · intro h
    obtain ⟨target, capture, hselects, h⟩ := h
    cases hselects with
    | main htruthy =>
        simp only [if_true, htruthy]
        exact h
    | subpath hdot hfields hselect =>
        have hmain : subpath ≠ ".".toList := by
          rintro rfl
          cases hdot
        simp only [hmain, if_false, hfields, hdot, if_true]
        exact (SubpathMap.resolve_stops_iff _ _ _).2 ⟨_, _, hselect, h⟩

theorem resolve_stops_iff {context : TargetContext} (hexternal : context.external = none)
    {subpath : Text} (hsubpath : subpath = ".".toList ∨ "./".toList.isPrefixOf subpath)
    (exports : Json) : (resolve context subpath exports).Stops ↔ Stops context subpath exports := by
  have htarget : ∀ (capture : Option Text) (target : Json),
      (Target.resolve { context with capture } target).Stops ↔
        Target.Stops { context with capture }
          (Target.TextStops { context with capture } fun _ => False) target := by
    intro capture target
    rw [Target.resolve_stops_iff]
    refine Target.stops_congr fun text => ?_
    rw [Target.resolveText_stops_iff]
    refine ⟨Target.TextStops.imp ?_, Target.TextStops.imp fun _ h => h.elim⟩
    intro name hname
    obtain ⟨external, hsome, -⟩ := hname
    rw [hexternal] at hsome
    cases hsome
  unfold resolve Stops
  cases hkeys : checkKeys context.package exports with
  | error error =>
      refine iff_of_false (Traced.not_stops_reject _) fun h => ?_
      have hok : checkKeys context.package exports = .ok () := checkKeys_eq_ok_iff.2 h.1
      rw [hkeys] at hok
      cases hok
  | ok _ =>
      have horder := checkKeys_eq_ok_iff.1 hkeys
      simp only
      rw [Traced.stops_bind_option, resolve?_stops_iff hsubpath]
      simp only [Traced.not_stops_reject, Traced.not_stops_pure, and_false, exists_false, or_false,
        htarget]
      exact (and_iff_right horder).symm

end Exports

end Package

end ModuleResolution
