import Mathlib.Data.List.Nodup
import LivePage.Proofs.Render.Builtins
import LivePage.Proofs.Render.Panics
import LivePage.Proofs.Render.Reports
import LivePage.Proofs.Tree.Queries

/-!
# What the reports are told apart by

A report names a component by its id, and a property or a style entry of it by a label. In a tree
without duplicate ids this tells any two subjects of reports apart, with one exception: a property
whose name is that of a style entry behind the mark of style entries.

* `Component.nodup_map_id_visited`: what it is for the visited that no ids are duplicate.
* `Subject`, `Site`: what reports are about. `Engine.sites` are the sites that the reports of a tree
  have to name.
* `Engine.eq_or_collide_of_key_eq`: the two sites that can have one key.
* `Engine.nodup_keys_render`: when all reports have different keys.
-/

namespace LivePage

/-! ## Ids that stand once -/

namespace Component

mutual

/-- The components that are visited have their ids in the order of the tree. -/
theorem map_id_visited_sublist : ∀ c : Component, (c.visited.map id).Sublist c.ids
  | ⟨cid, type, props, style, children⟩ => by
    rw [visited, ids, List.map_cons]
    refine List.Sublist.cons_cons _ ?_
    split
    · exact map_id_visitedAll_sublist children
    · exact List.nil_sublist _

theorem map_id_visitedAll_sublist : ∀ cs : List Component,
    ((visitedAll cs).map id).Sublist (idsAll cs)
  | [] => List.Sublist.refl _
  | c :: cs => by
    rw [visitedAll, idsAll, List.map_append]
    exact (map_id_visited_sublist c).append (map_id_visitedAll_sublist cs)

end

theorem nodup_map_id_visited {c : Component} (h : c.duplicateIds = []) :
    (c.visited.map id).Nodup :=
  (duplicateIds_eq_nil_iff.mp h).sublist (map_id_visited_sublist c)

end Component

/-! ## Subjects of reports -/

/-- What a report is about: a component as a whole, a property of it or an entry of its style. -/
inductive Subject
  | whole
  | property (name : String)
  | styleEntry (name : String)
deriving DecidableEq

/-- How reports name a subject. -/
def Subject.label : Subject → Option String
  | whole => none
  | property name => some name
  | styleEntry name => some ("style." ++ name)

/-- A subject of the component with an id. -/
structure Site where
  nodeId : String
  subject : Subject
deriving DecidableEq

/-- What reports on a site have in common. -/
def Site.key (s : Site) : String × Option String := (s.nodeId, s.subject.label)

/-- The component and the label that a report names. -/
def Diagnostic.key (d : Diagnostic) : String × Option String := (d.nodeId, d.prop)

/-- A property with the label of a style entry. -/
def Subject.Collide (s t : Subject) : Prop :=
  ∃ name, s = .property ("style." ++ name) ∧ t = .styleEntry name

/-- Subjects with one label are one subject, or a property that is named as a style entry is
labelled and this style entry. -/
theorem Subject.eq_or_collide {s t : Subject} (h : s.label = t.label) :
    s = t ∨ s.Collide t ∨ t.Collide s := by
  cases s with
  | whole =>
    cases t with
    | whole => exact .inl rfl
    | property name => cases h
    | styleEntry name => cases h
  | property name =>
    cases t with
    | whole => cases h
    | property other =>
      cases h
      exact .inl rfl
    | styleEntry other =>
      cases h
      exact .inr (.inl ⟨other, rfl, rfl⟩)
  | styleEntry name =>
    cases t with
    | whole => cases h
    | property other =>
      cases h
      exact .inr (.inr ⟨name, rfl, rfl⟩)
    | styleEntry other =>
      have hlabel : "style." ++ name = "style." ++ other := Option.some.inj h
      exact .inl (congrArg Subject.styleEntry (String.append_right_inj _ |>.mp hlabel))

/-! ## What fails in a map of properties -/

namespace PropMap

variable {evaluator : Evaluator} {ctx : Context} {values : PropMap}

/-- Whether a property is bound to a source that fails. -/
def fails (evaluator : Evaluator) (ctx : Context) (p : PropValue) : Bool :=
  match evaluateProp evaluator ctx p with
  | .ok _ => false
  | .error _ => true

/-- The entry of a name is bound to a source that fails. -/
def FailsAt (evaluator : Evaluator) (ctx : Context) (values : PropMap) (name : String) : Prop :=
  ∃ source cause, values.get? name = some (.bound source) ∧
    evaluateSource evaluator ctx source = .error cause

/-- The names of the entries that fail, in key order. -/
def failing (evaluator : Evaluator) (ctx : Context) (values : PropMap) : List String :=
  (values.filter fun _ p => fails evaluator ctx p).keys

theorem fails_iff {p : PropValue} :
    fails evaluator ctx p = true ↔ ∃ source cause, p = .bound source ∧
      evaluateSource evaluator ctx source = .error cause := by
  cases p with
  | literal j => simp [fails, evaluateProp]
  | bound source => cases h : evaluateSource evaluator ctx source <;> simp [fails, evaluateProp, h]

theorem mem_failing_iff {name : String} :
    name ∈ failing evaluator ctx values ↔ FailsAt evaluator ctx values name := by
  simp only [failing, KeyMap.mem_keys_iff, KeyMap.get?_filter, Option.filter_eq_some_iff, fails_iff,
    FailsAt]
  constructor
  · rintro ⟨p, hget, source, cause, rfl, hcause⟩
    exact ⟨source, cause, hget, hcause⟩
  · rintro ⟨source, cause, hget, hcause⟩
    exact ⟨_, hget, source, cause, rfl, hcause⟩

theorem nodup_failing (evaluator : Evaluator) (ctx : Context) (values : PropMap) :
    (failing evaluator ctx values).Nodup :=
  KeyMap.nodup_keys _

/-- The failures of an evaluation name the entries that fail. -/
theorem map_prop_evaluateProps (evaluator : Evaluator) (ctx : Context) (values : PropMap) :
    (evaluateProps evaluator ctx values).2.map PropFailure.prop = failing evaluator ctx values := by
  rw [evaluateProps, List.map_filterMap]
  change _ = (values.entries.filter fun e => fails evaluator ctx e.2).map Prod.fst
  induction values.entries with
  | nil => rfl
  | cons entry entries ih =>
    rw [List.filterMap_cons, List.filter_cons, ih]
    cases h : evaluateProp evaluator ctx entry.2 with
    | ok v => simp [propFailure?, fails, h]
    | error cause => simp [propFailure?, fails, h]

end PropMap

namespace Engine

variable {evaluator : Evaluator} {ctx : Context} {c d : Component} {s t : Site}

/-! ## The sites of a tree -/

/-- What is reported of one component under the built-in renderers. -/
def subjects (evaluator : Evaluator) (ctx : Context) (c : Component) : List Subject :=
  match tag? c.type with
  | none => [.whole]
  | some _ =>
    (PropMap.failing evaluator ctx c.props).map .property ++
      (PropMap.failing evaluator ctx c.style).map .styleEntry

/-- What is reported of a tree, one visited component after the other. -/
def sites (evaluator : Evaluator) (ctx : Context) (c : Component) : List Site :=
  c.visited.flatMap fun d => (subjects evaluator ctx d).map fun subject => ⟨d.id, subject⟩

/-- A component has a renderer, and both a style entry and the property that is named as this entry
is labelled fail. -/
def Ambiguous (evaluator : Evaluator) (ctx : Context) (c : Component) : Prop :=
  tag? c.type ≠ none ∧ ∃ name,
    PropMap.FailsAt evaluator ctx c.props ("style." ++ name) ∧
      PropMap.FailsAt evaluator ctx c.style name

theorem nodup_subjects (evaluator : Evaluator) (ctx : Context) (c : Component) :
    (subjects evaluator ctx c).Nodup := by
  rw [subjects]
  split
  · exact List.nodup_singleton _
  · refine List.Nodup.append ?_ ?_ ?_
    · exact (PropMap.nodup_failing evaluator ctx c.props).map fun _ _ h => Subject.property.inj h
    · exact (PropMap.nodup_failing evaluator ctx c.style).map fun _ _ h => Subject.styleEntry.inj h
    · intro subject hprop hstyle
      obtain ⟨name, -, rfl⟩ := List.mem_map.mp hprop
      obtain ⟨other, -, hother⟩ := List.mem_map.mp hstyle
      cases hother

theorem mem_sites_iff :
    s ∈ sites evaluator ctx c ↔
      ∃ d ∈ c.visited, s.nodeId = d.id ∧ s.subject ∈ subjects evaluator ctx d := by
  rw [sites, List.mem_flatMap]
  constructor
  · rintro ⟨d, hd, hs⟩
    obtain ⟨subject, hsubject, rfl⟩ := List.mem_map.mp hs
    exact ⟨d, hd, rfl, hsubject⟩
  · rintro ⟨d, hd, hid, hsubject⟩
    refine ⟨d, hd, List.mem_map.mpr ⟨s.subject, hsubject, ?_⟩⟩
    rw [← hid]

/-- Where ids are not duplicate, no site comes twice. -/
theorem nodup_sites (h : c.duplicateIds = []) (evaluator : Evaluator) (ctx : Context) :
    (sites evaluator ctx c).Nodup := by
  rw [sites, List.nodup_flatMap]
  refine ⟨fun d _ => (nodup_subjects evaluator ctx d).map fun _ _ h => (Site.mk.inj h).2, ?_⟩
  refine (List.pairwise_map.mp (Component.nodup_map_id_visited h)).imp fun {d e} hne => ?_
  intro s hd he
  obtain ⟨subject, -, rfl⟩ := List.mem_map.mp hd
  obtain ⟨other, -, hother⟩ := List.mem_map.mp he
  exact hne (Site.mk.inj hother).1.symm

/-- The subjects of a component that has a renderer are its properties and style entries that
fail. -/
theorem mem_subjects_of_tag? {tag : String} (h : tag? c.type = some tag) (name : String) :
    (.property name ∈ subjects evaluator ctx c ↔ PropMap.FailsAt evaluator ctx c.props name) ∧
      (.styleEntry name ∈ subjects evaluator ctx c ↔
        PropMap.FailsAt evaluator ctx c.style name) := by
  simp [subjects, h, PropMap.mem_failing_iff]

theorem ambiguous_of_collide (hs : s.subject ∈ subjects evaluator ctx d)
    (ht : t.subject ∈ subjects evaluator ctx d) (hcollide : s.subject.Collide t.subject) :
    Ambiguous evaluator ctx d := by
  obtain ⟨name, hs', ht'⟩ := hcollide
  rw [hs'] at hs
  rw [ht'] at ht
  cases htag : tag? d.type with
  | none => simp [subjects, htag] at hs
  | some tag =>
    refine ⟨by simp [htag], name, ?_, ?_⟩
    · exact (mem_subjects_of_tag? htag _).1.mp hs
    · exact (mem_subjects_of_tag? htag _).2.mp ht

/-- Of a tree without duplicate ids, two sites with one key are a property and a style entry of one
component, in which both fail. -/
theorem eq_or_collide_of_key_eq (h : c.duplicateIds = []) (hs : s ∈ sites evaluator ctx c)
    (ht : t ∈ sites evaluator ctx c) (hkey : s.key = t.key) :
    s = t ∨ ∃ d ∈ c.visited, s.nodeId = d.id ∧ t.nodeId = d.id ∧ Ambiguous evaluator ctx d ∧
      (s.subject.Collide t.subject ∨ t.subject.Collide s.subject) := by
  obtain ⟨d, hd, hsd, hs⟩ := mem_sites_iff.mp hs
  obtain ⟨e, he, hte, ht⟩ := mem_sites_iff.mp ht
  obtain ⟨hid, hlabel⟩ := Prod.mk.inj hkey
  obtain rfl : d = e := by
    refine List.inj_on_of_nodup_map (Component.nodup_map_id_visited h) hd he ?_
    rw [← hsd, hid, hte]
  rcases Subject.eq_or_collide hlabel with heq | hcollide | hcollide
  · left
    cases s
    cases t
    cases hid
    cases heq
    rfl
  · exact .inr ⟨d, hd, hsd, hte, ambiguous_of_collide hs ht hcollide, .inl hcollide⟩
  · exact .inr ⟨d, hd, hsd, hte, ambiguous_of_collide ht hs hcollide, .inr hcollide⟩

/-- An ambiguous component has two sites with one key. -/
theorem exists_sites_of_ambiguous (hd : d ∈ c.visited) (h : Ambiguous evaluator ctx d) :
    ∃ s ∈ sites evaluator ctx c, ∃ t ∈ sites evaluator ctx c, s.key = t.key ∧ s ≠ t := by
  obtain ⟨htag, name, hprop, hstyle⟩ := h
  obtain ⟨tag, htag⟩ := Option.ne_none_iff_exists'.mp htag
  refine ⟨⟨d.id, .property ("style." ++ name)⟩, mem_sites_iff.mpr ⟨d, hd, rfl, ?_⟩,
    ⟨d.id, .styleEntry name⟩, mem_sites_iff.mpr ⟨d, hd, rfl, ?_⟩, rfl, by simp⟩
  · exact (mem_subjects_of_tag? htag _).1.mpr hprop
  · exact (mem_subjects_of_tag? htag _).2.mpr hstyle

theorem nodup_map_key_sites_iff (h : c.duplicateIds = []) :
    ((sites evaluator ctx c).map Site.key).Nodup ↔ ∀ d ∈ c.visited, ¬Ambiguous evaluator ctx d := by
  rw [List.nodup_map_iff_inj_on (nodup_sites h evaluator ctx)]
  constructor
  · intro hinj d hd hambiguous
    obtain ⟨s, hs, t, ht, hkey, hne⟩ := exists_sites_of_ambiguous hd hambiguous
    exact hne (hinj s hs t ht hkey)
  · intro hclear s hs t ht hkey
    rcases eq_or_collide_of_key_eq h hs ht hkey with heq | ⟨d, hd, -, -, hambiguous, -⟩
    · exact heq
    · exact absurd hambiguous (hclear d hd)

/-! ## The reports of a tree -/

/-- A built-in renderer does not fail. -/
theorem exists_builtin {engine : Engine} (hr : engine.registry.KeepsBuiltins) {tag : String}
    (h : tag? c.type = some tag) :
    ∃ renderer, engine.registry.get? c.type = some renderer ∧
      ∀ i, failureReport c (renderer i) = [] := by
  rcases tag?_cases h with ⟨ht, -⟩ | ⟨ht, -⟩ | ⟨ht, -⟩ | ⟨ht, -⟩ | ⟨ht, -⟩
  · exact exists_renderer_container hr (by simp [containerTypes, ht])
  · exact exists_renderer_container hr (by simp [containerTypes, ht])
  · exact ⟨Renderer.text, hr.get?_eq ht (by decide) rfl, fun _ => rfl⟩
  · refine ⟨Renderer.image, hr.get?_eq ht (by decide) rfl, fun i => ?_⟩
    rw [Renderer.image_eq]
    rfl
  · exact exists_renderer_container hr (by simp [containerTypes, ht])

theorem map_key_propReport (evaluator : Evaluator) (ctx : Context) (c : Component) (place : String)
    (values : PropMap) :
    ((evaluateProps evaluator ctx values).2.map (propReport c place)).map Diagnostic.key =
      (PropMap.failing evaluator ctx values).map fun name => (c.id, some (place ++ name)) := by
  rw [← PropMap.map_prop_evaluateProps, List.map_map, List.map_map]
  rfl

theorem map_key_ownReports {engine : Engine} (hr : engine.registry = Registry.builtins)
    (ctx : Context) (c : Component) :
    (engine.ownReports ctx c).map Diagnostic.key =
      (subjects engine.evaluator ctx c).map fun subject => Site.key ⟨c.id, subject⟩ := by
  cases htag : tag? c.type with
  | none =>
    have hget : engine.registry.get? c.type = none :=
      hr ▸ Registry.get?_eq_none (not_mem_builtins_of_tag? htag)
    rw [ownReports_unregistered hget, subjects, htag]
    rfl
  | some tag =>
    have hkeeps : engine.registry.KeepsBuiltins := hr ▸ Registry.keepsBuiltins_builtins
    obtain ⟨renderer, hget, hreturns⟩ := exists_builtin hkeeps htag
    rw [ownReports_registered hget, hreturns, List.append_nil, propReports, List.map_append,
      map_key_propReport, map_key_propReport]
    simp [subjects, htag, Site.key, Subject.label, Function.comp_def]

/-- The built-in renderers do not panic, so it makes no difference whether panics are caught. -/
theorem render_builtins_eq (evaluator : Evaluator) (catchPanics : Bool) (ctx : Context)
    (c : Component) :
    render ⟨Registry.builtins, evaluator, catchPanics⟩ ctx c =
      render ⟨Registry.builtins, evaluator, true⟩ ctx c := by
  cases catchPanics with
  | true => rfl
  | false =>
    obtain ⟨reports, h⟩ : ∃ reports,
        render ⟨Registry.builtins, evaluator, false⟩ ctx c =
          ⟨.ok (output evaluator ctx c), reports⟩ :=
      exists_render_builtins rfl ctx c
    have hcaught := caught_render Registry.builtins evaluator ctx c
    rw [h] at hcaught
    rw [h, hcaught.eq_of_ok]

/-- The reports of a tree have the keys of its sites. -/
theorem exists_render_keys (evaluator : Evaluator) (catchPanics : Bool) (ctx : Context)
    (c : Component) :
    ∃ o reports, render ⟨Registry.builtins, evaluator, catchPanics⟩ ctx c = ⟨.ok o, reports⟩ ∧
      reports.map Diagnostic.key = (sites evaluator ctx c).map Site.key := by
  obtain ⟨o, reports, h, hreported⟩ : ∃ o reports,
      render ⟨Registry.builtins, evaluator, true⟩ ctx c = ⟨.ok o, reports⟩ ∧
        Reported ⟨Registry.builtins, evaluator, true⟩ ctx c.visited reports o.markers :=
    reported_render rfl Registry.keepsBuiltins_builtins Registry.othersFailAtOnce_builtins ctx c
  refine ⟨o, reports, (render_builtins_eq evaluator catchPanics ctx c).trans h, ?_⟩
  rw [hreported.reports_eq, sites, List.map_flatMap, List.map_flatMap]
  have hown (d : Component) :
      (ownReports ⟨Registry.builtins, evaluator, true⟩ ctx d).map Diagnostic.key =
        (subjects evaluator ctx d).map fun subject => Site.key ⟨d.id, subject⟩ :=
    map_key_ownReports rfl ctx d
  simp only [hown, List.map_map]
  rfl

/-- **What reports are told apart by.** In a tree without duplicate ids, rendered with the built-in
renderers, there is one report for each component without a renderer and for each property and style
entry that fails, and no other. Two of them name the same component and label only if one is about a
style entry of this component and the other about the property that is named as this entry is
labelled, so all reports can be told apart exactly if there is no component in which both fail. -/
theorem nodup_keys_render {c : Component} (h : c.duplicateIds = []) (evaluator : Evaluator)
    (ctx : Context) (catchPanics : Bool) :
    ∃ o reports, render ⟨Registry.builtins, evaluator, catchPanics⟩ ctx c = ⟨.ok o, reports⟩ ∧
      reports.map Diagnostic.key = (sites evaluator ctx c).map Site.key ∧
      (sites evaluator ctx c).Nodup ∧
      (∀ s ∈ sites evaluator ctx c, ∀ t ∈ sites evaluator ctx c, s.key = t.key →
        s = t ∨ ∃ d ∈ c.visited, s.nodeId = d.id ∧ t.nodeId = d.id ∧ Ambiguous evaluator ctx d ∧
          (s.subject.Collide t.subject ∨ t.subject.Collide s.subject)) ∧
      ((reports.map Diagnostic.key).Nodup ↔ ∀ d ∈ c.visited, ¬Ambiguous evaluator ctx d) := by
  obtain ⟨o, reports, hrender, hkeys⟩ := exists_render_keys evaluator catchPanics ctx c
  refine ⟨o, reports, hrender, hkeys, nodup_sites h evaluator ctx,
    fun s hs t ht => eq_or_collide_of_key_eq h hs ht, ?_⟩
  rw [hkeys]
  exact nodup_map_key_sites_iff h

/-- A card of which a property and a style entry of the same name fail, and a text below it. -/
def unpaintedCard : Component :=
  (((Component.new "card" "View").bindProp "color" "ink").bindStyle "color" "paper").withChild
    ((Component.new "note" "Text").bindProp "content" "note")

theorem nodup_keys_render_unpaintedCard :
    unpaintedCard.duplicateIds = [] ∧
      ∃ o reports, render ⟨Registry.builtins, .path, true⟩ .empty unpaintedCard = ⟨.ok o, reports⟩ ∧
        reports.map Diagnostic.key = [("card", some "color"), ("card", some "style.color"),
          ("note", some "content")] ∧
        ∀ d ∈ unpaintedCard.visited, ¬Ambiguous .path .empty d := by
  have hids : unpaintedCard.duplicateIds = [] := by decide
  obtain ⟨o, reports, hrender, -, -, -, hnodup⟩ := nodup_keys_render hids .path .empty true
  have hkeys : reports.map Diagnostic.key = [("card", some "color"), ("card", some "style.color"),
      ("note", some "content")] := by
    have hreports := congrArg (fun p => p.reports.map Diagnostic.key) hrender
    rw [← hreports]
    rfl
  refine ⟨hids, o, reports, hrender, hkeys, hnodup.mp ?_⟩
  rw [hkeys]
  decide

/-- A view with a property that is named as its style entry is labelled. -/
def inkedView : Component :=
  ((Component.new "v" "View").bindProp "style.color" "ink").bindStyle "color" "paper"

/-- The reports of a tree without duplicate ids need not have different keys. -/
theorem not_forall_nodup_keys :
    ¬∀ (c : Component) (ctx : Context), c.duplicateIds = [] →
      ((render ⟨Registry.builtins, .path, true⟩ ctx c).reports.map Diagnostic.key).Nodup := by
  intro h
  have hnodup := h inkedView .empty (by decide)
  have hkeys :
      (render ⟨Registry.builtins, .path, true⟩ .empty inkedView).reports.map Diagnostic.key =
        [("v", some "style.color"), ("v", some "style.color")] := rfl
  rw [hkeys] at hnodup
  exact absurd hnodup (by decide)

end Engine

end LivePage
