import Mathlib.Algebra.Ring.Parity
import LivePage.Proofs.DataSource.Integrity

/-!
# What a catalog owes to its history

The catalog that operations lead to can be read off the record of these operations and their
outcomes.

* `History.toggleCount`: how often a reference was toggled since the page or the source was last
  removed. `isReferenced_of_effect` says what one operation does to a reference, and
  `isReferenced_iff_odd` that there is a reference where the number is odd.
* `Event.globalChange`, `globals_eq_replay`: the global sources are the outcome of the log of
  additions and removals.
* `sameSources_ofEdits`: toggles leave no trace in the sources.
* `Catalog.toggleReference_twice`, `Catalog.toggleReference_comm`: toggles cancel and commute.
* `History.catalog_determined`: all of it.
-/

namespace LivePage

namespace Event

/-- Whether an event is a successful toggle of the reference of a page to a source. -/
def toggles (page id : String) : Event → Bool
  | ⟨.toggleReference p j, .ok _⟩ => p == page && j == id
  | _ => false

/-- Whether an event removes a page or a source, and with it the reference of the page to the
source. -/
def clears (page id : String) : Event → Bool
  | ⟨.removePage p, .ok _⟩ => p == page
  | ⟨.removeGlobal j, .ok (.removed _ _)⟩ => j == id
  | _ => false

/-- What an event does to the list of global sources. -/
def globalChange : Event → Keyed.Change String DataSource
  | ⟨.addGlobal d, .ok _⟩ => .put d
  | ⟨.removeGlobal id, .ok (.removed _ _)⟩ => .remove id
  | _ => .keep

variable {e : Edit} {error : CatalogError}

@[simp] theorem toggles_error (page id : String) :
    toggles page id ⟨e, .error error⟩ = false := by cases e <;> rfl

@[simp] theorem clears_error (page id : String) : clears page id ⟨e, .error error⟩ = false := by
  cases e <;> rfl

@[simp] theorem globalChange_error : globalChange ⟨e, .error error⟩ = .keep := by cases e <;> rfl

end Event

namespace History

/-! ## References -/

/-- How often the reference of a page to a source was toggled since the page or the source was last
removed. -/
def toggleCount (page id : String) (events : List Event) : Nat :=
  (events.rtakeWhile fun event => !event.clears page id).countP (Event.toggles page id)

variable {page id : String} {events : List Event} {event : Event}

theorem toggleCount_concat_of_clears (h : event.clears page id = true) :
    toggleCount page id (events ++ [event]) = 0 := by
  rw [toggleCount, List.rtakeWhile_concat_neg]
  · rfl
  · simp [h]

theorem toggleCount_concat (h : event.clears page id = false) :
    toggleCount page id (events ++ [event]) =
      toggleCount page id events + if event.toggles page id then 1 else 0 := by
  rw [toggleCount, List.rtakeWhile_concat_pos]
  · simp [toggleCount, List.countP_append, List.countP_cons]
  · simp [h]

/-- What an operation does to one reference: it takes it away, or toggles it, or leaves it. -/
theorem isReferenced_of_effect {c c' : Catalog} {e : Edit} {answer : Answer}
    (he : e.Effect c answer c') (q j : String) :
    c'.isReferenced q j =
      (!Event.clears q j ⟨e, .ok answer⟩ &&
        (c.isReferenced q j ^^ Event.toggles q j ⟨e, .ok answer⟩)) := by
  cases he with
  | added hid => simp [Event.clears, Event.toggles, Catalog.isReferenced]
  | absent hnone => simp [Event.clears, Event.toggles]
  | replaced hids => simp [Event.clears, Event.toggles, Catalog.isReferenced]
  | @removed id d pages _ hremoved =>
    rw [hremoved.isReferenced_eq]
    by_cases hj : j = id
    · simp [Event.clears, hj]
    · have hkept : (id == j) = false := beq_false_of_ne (Ne.symm hj)
      simp [Event.clears, Event.toggles, bne_iff_ne.mpr hj, hkept]
  | @dropped page =>
    rw [Catalog.isReferenced_removePage]
    by_cases hq : q = page
    · simp [Event.clears, hq]
    · simp [Event.clears, Event.toggles, hq, Ne.symm hq]
  | @toggled page id on _ htoggled =>
    rw [htoggled.isReferenced_eq, htoggled.on_eq]
    by_cases hqj : q = page ∧ j = id
    · obtain ⟨rfl, rfl⟩ := hqj
      simp [Event.clears, Event.toggles]
    · have hother : (page == q && id == j) = false := by
        rw [Bool.and_eq_false_iff, beq_eq_false_iff_ne, beq_eq_false_iff_ne, ← not_and_or]
        exact fun h => hqj ⟨h.1.symm, h.2.symm⟩
      simp [Event.clears, Event.toggles, hqj, hother]

/-- A page refers to a source where the reference was toggled an odd number of times since. -/
theorem isReferenced_iff_odd (edits : List Edit) :
    ∀ page id, (ofEdits edits).catalog.isReferenced page id = true ↔
      Odd (toggleCount page id (ofEdits edits).events) := by
  apply History.induction (P := fun history => ∀ page id,
    history.catalog.isReferenced page id = true ↔ Odd (toggleCount page id history.events))
  case empty =>
    intro page id
    simp [empty, Catalog.empty, Catalog.isReferenced, toggleCount]
  case refusal =>
    intro history e error ih page id
    rw [toggleCount_concat (by simp), ih page id]
    simp
  case effect =>
    intro history e answer c' ih he page id
    rw [isReferenced_of_effect he]
    -- The count starts anew where the reference is cleared, and changes its parity with a toggle.
    cases hclears : Event.clears page id ⟨e, .ok answer⟩ with
    | true =>
      rw [toggleCount_concat_of_clears hclears]
      simp
    | false =>
      rw [toggleCount_concat hclears]
      cases Event.toggles page id ⟨e, .ok answer⟩ with
      | true => simp [Nat.odd_add_one, ← ih]
      | false => simp [← ih]

/-! ## Global sources -/

/-- The global sources are what the additions and removals lead to. -/
theorem globals_eq_replay (edits : List Edit) :
    (ofEdits edits).catalog.globals =
      Keyed.replay DataSource.id ((ofEdits edits).events.map Event.globalChange) := by
  apply History.induction (P := fun history => history.catalog.globals =
    Keyed.replay DataSource.id (history.events.map Event.globalChange))
  case empty => rfl
  case refusal =>
    intro history e error ih
    rw [List.map_append, List.map_singleton, Event.globalChange_error, Keyed.replay_concat]
    exact ih
  case effect =>
    intro history e answer c' ih he
    rw [List.map_append, List.map_singleton, Keyed.replay_concat, ← ih]
    cases he with
    | added hid => rfl
    | absent hnone => rfl
    | removed hremoved =>
      have hlists := Keyed.lists_replay DataSource.id (history.events.map Event.globalChange)
      rw [← ih] at hlists
      rw [hremoved.globals_eq, Keyed.eraseP_eq_remove hlists.nodup]
      rfl
    | toggled htoggled => exact htoggled.globals_eq
    | replaced hids => rfl
    | dropped => rfl

end History

/-! ## Toggles and sources -/

/-- Catalogs with the same global sources and the same sources of pages. -/
structure Catalog.SameSources (c c' : Catalog) : Prop where
  globals_eq : c.globals = c'.globals
  pageSourceMap_eq : c.pageSourceMap = c'.pageSourceMap

/-- Whether an operation is a toggle. -/
def Edit.isToggle : Edit → Bool
  | .toggleReference _ _ => true
  | _ => false

namespace Catalog

variable {c c' : Catalog}

/-- A toggle leaves the sources alone. -/
theorem sameSources_toggle {e : Edit} (h : e.isToggle = true) (c : Catalog) :
    SameSources (e.run c).2 c := by
  rcases e.run_cases c with ⟨answer, c', hrun, heffect⟩ | ⟨error, hrun⟩
  · rw [hrun]
    cases heffect with
    | toggled htoggled => exact ⟨htoggled.globals_eq, htoggled.pageSourceMap_eq⟩
    | _ => cases h
  · rw [hrun]
    exact ⟨rfl, rfl⟩

/-- No operation looks at the references to change the sources. -/
theorem SameSources.run (h : SameSources c c') (e : Edit) :
    SameSources (e.run c).2 (e.run c').2 := by
  obtain ⟨hglobals, hpages⟩ := h
  have hfound (id : String) : c.getGlobal? id = c'.getGlobal? id := by
    rw [getGlobal?, hglobals, getGlobal?]
  cases e with
  | addGlobal d =>
    rw [Edit.run_eq, Edit.run_eq, Edit.result, Edit.result, addGlobal, addGlobal]
    cases d.id.isEmpty with
    | true => exact ⟨hglobals, hpages⟩
    | false => exact ⟨congrArg (Keyed.put DataSource.id d) hglobals, hpages⟩
  | removeGlobal id =>
    -- The source is there in both catalogs or in neither.
    have hnone : c'.removeGlobal id = none ↔ c.removeGlobal id = none := by
      rw [removeGlobal_eq_none_iff, removeGlobal_eq_none_iff, hfound]
    rw [Edit.run_eq, Edit.run_eq, Edit.result, Edit.result]
    cases hremove : c.removeGlobal id with
    | none =>
      rw [hnone.mpr hremove]
      exact ⟨hglobals, hpages⟩
    | some outcome =>
      cases hremove' : c'.removeGlobal id with
      | none =>
        rw [hnone.mp hremove'] at hremove
        cases hremove
      | some outcome' =>
        have hremoved := removed hremove
        have hremoved' := removed hremove'
        exact ⟨by rw [hremoved.globals_eq, hremoved'.globals_eq, hglobals],
          by rw [hremoved.pageSourceMap_eq, hremoved'.pageSourceMap_eq, hpages]⟩
  | toggleReference page id =>
    have htoggle := sameSources_toggle (e := .toggleReference page id) rfl c
    have htoggle' := sameSources_toggle (e := .toggleReference page id) rfl c'
    exact ⟨by rw [htoggle.globals_eq, htoggle'.globals_eq, hglobals],
      by rw [htoggle.pageSourceMap_eq, htoggle'.pageSourceMap_eq, hpages]⟩
  | setPageSources page ds =>
    rw [Edit.run_eq, Edit.run_eq, Edit.result, Edit.result, setPageSources, setPageSources]
    cases checkIds page ds with
    | error error => exact ⟨hglobals, hpages⟩
    | ok _ => exact ⟨hglobals, congrArg
        (fun m : KeyMap _ => if ds.isEmpty then m.erase page else m.insert page ds) hpages⟩
  | removePage page => exact ⟨hglobals, congrArg (KeyMap.erase · page) hpages⟩

end Catalog

/-- The sources are what they would be without any toggle. -/
theorem History.sameSources_ofEdits (edits : List Edit) :
    Catalog.SameSources (ofEdits edits).catalog
      (ofEdits (edits.filter fun e => !e.isToggle)).catalog := by
  induction edits using List.reverseRecOn with
  | nil => exact ⟨rfl, rfl⟩
  | append_singleton edits e ih =>
    rw [List.filter_append, ofEdits_concat]
    cases htoggle : e.isToggle with
    | true =>
      have hsame := Catalog.sameSources_toggle htoggle (ofEdits edits).catalog
      simp only [List.filter_cons, htoggle, Bool.not_true, Bool.false_eq_true, if_false,
        List.filter_nil, List.append_nil]
      exact ⟨hsame.globals_eq.trans ih.globals_eq, hsame.pageSourceMap_eq.trans ih.pageSourceMap_eq⟩
    | false =>
      simp only [List.filter_cons, htoggle, Bool.not_false, if_true, List.filter_nil]
      rw [ofEdits_concat]
      exact ih.run e

/-! ## Toggles that cancel and commute -/

namespace Catalog

variable {c c' c₁ c₂ : Catalog} {page id page' id' : String} {on on' : Bool}

theorem Toggled.isReferenced_self (h : Toggled c page id on c') : c'.isReferenced page id = on := by
  simp [h.isReferenced_eq]

theorem Toggled.isReferenced_of_ne (h : Toggled c page id on c')
    (hne : (page, id) ≠ (page', id')) :
    c'.isReferenced page' id' = c.isReferenced page' id' := by
  rw [h.isReferenced_eq, if_neg]
  rintro ⟨rfl, rfl⟩
  exact hne rfl

theorem Toggled.getGlobal?_eq (h : Toggled c page id on c') (j : String) :
    c'.getGlobal? j = c.getGlobal? j := by
  rw [getGlobal?, h.globals_eq, getGlobal?]

/-- What can be toggled: a reference that is there, and one to a source that is there. -/
theorem Toggled.possible (h : Toggled c page id on c') :
    c.isReferenced page id = true ∨ (c.getGlobal? id).isSome = true := by
  cases on with
  | true => exact .inr (h.defined rfl)
  | false => exact .inl (by simpa using h.on_eq)

/-- A toggle done twice gives back the catalog. -/
theorem toggleReference_twice (hc : c.Consistent) (h : c.toggleReference page id = .ok (on, c')) :
    c'.toggleReference page id = .ok (!on, c) := by
  have htoggled := toggled h
  have hpossible : c'.isReferenced page id = true ∨ (c'.getGlobal? id).isSome = true := by
    rw [htoggled.isReferenced_self, htoggled.getGlobal?_eq]
    -- A reference that was dropped can be made again, because its source is there.
    rcases htoggled.possible with href | hglobal
    · have hdefined := hc.definedReferences page id (mem_references_iff.mpr href)
      exact .inr (Keyed.isSome_get?_iff.mpr hdefined)
    · exact .inr hglobal
  obtain ⟨back, c₂, hback⟩ := exists_toggleReference hpossible
  have htoggled₂ := toggled hback
  have hon : back = !on := by rw [htoggled₂.on_eq, htoggled.isReferenced_self]
  have hsame : c₂ = c := by
    refine eq_of_isReferenced (htoggled₂.noEmptySets (htoggled.noEmptySets hc.noEmptySets))
      hc.noEmptySets (htoggled₂.globals_eq.trans htoggled.globals_eq)
      (htoggled₂.pageSourceMap_eq.trans htoggled.pageSourceMap_eq) fun q j => ?_
    rw [htoggled₂.isReferenced_eq, htoggled.isReferenced_eq]
    split
    · rename_i hqj
      rw [hon, htoggled.on_eq, hqj.1, hqj.2, Bool.not_not]
    · rfl
  rw [hback, hon, hsame]

/-- Toggles of two references can be done in either order. -/
theorem toggleReference_comm (hc : c.NoEmptySets) (hne : (page, id) ≠ (page', id'))
    (h₁ : c.toggleReference page id = .ok (on, c₁))
    (h₂ : c₁.toggleReference page' id' = .ok (on', c₂)) :
    ∃ c', c.toggleReference page' id' = .ok (on', c') ∧
      c'.toggleReference page id = .ok (on, c₂) := by
  have htoggled₁ := toggled h₁
  have htoggled₂ := toggled h₂
  -- Neither toggle changes whether the other is possible, nor what it answers.
  have hpossible' := htoggled₂.possible
  rw [htoggled₁.isReferenced_of_ne hne, htoggled₁.getGlobal?_eq] at hpossible'
  obtain ⟨first, c', hfirst⟩ := exists_toggleReference hpossible'
  have htoggled' := toggled hfirst
  have hpossible := htoggled₁.possible
  rw [← htoggled'.isReferenced_of_ne hne.symm, ← htoggled'.getGlobal?_eq] at hpossible
  obtain ⟨second, c₃, hsecond⟩ := exists_toggleReference hpossible
  have htoggled₃ := toggled hsecond
  have hon' : first = on' := by
    rw [htoggled'.on_eq, htoggled₂.on_eq, htoggled₁.isReferenced_of_ne hne]
  have hon : second = on := by
    rw [htoggled₃.on_eq, htoggled₁.on_eq, htoggled'.isReferenced_of_ne hne.symm]
  have hsame : c₃ = c₂ := by
    refine eq_of_isReferenced (htoggled₃.noEmptySets (htoggled'.noEmptySets hc))
      (htoggled₂.noEmptySets (htoggled₁.noEmptySets hc)) ?_ ?_ fun q j => ?_
    · rw [htoggled₃.globals_eq, htoggled'.globals_eq, htoggled₂.globals_eq, htoggled₁.globals_eq]
    · rw [htoggled₃.pageSourceMap_eq, htoggled'.pageSourceMap_eq, htoggled₂.pageSourceMap_eq,
        htoggled₁.pageSourceMap_eq]
    · rw [htoggled₃.isReferenced_eq, htoggled'.isReferenced_eq, htoggled₂.isReferenced_eq,
        htoggled₁.isReferenced_eq, hon, hon']
      by_cases hqj : q = page ∧ j = id
      · have hother : ¬(q = page' ∧ j = id') := by
          rintro ⟨rfl, rfl⟩
          exact hne (Prod.ext hqj.1.symm hqj.2.symm)
        rw [if_pos hqj, if_neg hother, if_pos hqj]
      · rw [if_neg hqj, if_neg hqj]
  exact ⟨c', by rw [hfirst, hon'], by rw [hsecond, hon, hsame]⟩

end Catalog

/-- A toggle that answers on a stored catalog is one that is not refused. -/
theorem Edit.run_toggleReference_iff {c c' : Catalog} {page id : String} {on : Bool} :
    (Edit.toggleReference page id).run c = (.ok (.referenced on), c') ↔
      c.toggleReference page id = .ok (on, c') := by
  rw [Edit.run_eq, Edit.result]
  cases c.toggleReference page id with
  | error error => simp [Except.map]
  | ok outcome => simp [Except.map, Prod.ext_iff]

namespace History

/-! ## The whole catalog -/

/-- **A catalog is determined by its history.** A page refers to a source where the reference was
toggled an odd number of times since the page or the source was last removed. The global sources are
each listed once, as they were last added, in the order in which they were first added since their
last removal. Of the toggles nothing else is left: histories that differ in toggles only, and by
even numbers of them, have the same catalog; a toggle done twice gives back the catalog, and toggles
of two references can be done in either order. -/
theorem catalog_determined (edits : List Edit) :
    (∀ page id, (ofEdits edits).catalog.isReferenced page id = true ↔
      Odd (toggleCount page id (ofEdits edits).events)) ∧
    Keyed.Lists DataSource.id ((ofEdits edits).events.map Event.globalChange)
      (ofEdits edits).catalog.globals ∧
    (∀ edits' : List Edit,
      (edits'.filter fun e => !e.isToggle) = (edits.filter fun e => !e.isToggle) →
      (∀ page id, Odd (toggleCount page id (ofEdits edits').events) ↔
        Odd (toggleCount page id (ofEdits edits).events)) →
      (ofEdits edits').catalog = (ofEdits edits).catalog) ∧
    (∀ (page id : String) (on : Bool) (c : Catalog),
      (Edit.toggleReference page id).run (ofEdits edits).catalog = (.ok (.referenced on), c) →
      (Edit.toggleReference page id).run c = (.ok (.referenced !on), (ofEdits edits).catalog)) ∧
    ∀ (page id page' id' : String) (on on' : Bool) (c₁ c₂ : Catalog),
      (page, id) ≠ (page', id') →
      (Edit.toggleReference page id).run (ofEdits edits).catalog = (.ok (.referenced on), c₁) →
      (Edit.toggleReference page' id').run c₁ = (.ok (.referenced on'), c₂) →
      ∃ c', (Edit.toggleReference page' id').run (ofEdits edits).catalog =
          (.ok (.referenced on'), c') ∧
        (Edit.toggleReference page id).run c' = (.ok (.referenced on), c₂) := by
  have hconsistent (edits : List Edit) : (ofEdits edits).catalog.Consistent :=
    Catalog.consistent_of_edits edits
  refine ⟨isReferenced_iff_odd edits, ?_, fun edits' hothers hparity => ?_,
    fun page id on c htoggle => ?_, fun page id page' id' on on' c₁ c₂ hne h₁ h₂ => ?_⟩
  · rw [globals_eq_replay]
    exact Keyed.lists_replay DataSource.id _
  · have hsame := sameSources_ofEdits edits
    have hsame' := sameSources_ofEdits edits'
    rw [hothers] at hsame'
    refine Catalog.eq_of_isReferenced (hconsistent edits').noEmptySets
      (hconsistent edits).noEmptySets (hsame'.globals_eq.trans hsame.globals_eq.symm)
      (hsame'.pageSourceMap_eq.trans hsame.pageSourceMap_eq.symm) fun page id => ?_
    rw [Bool.eq_iff_iff, isReferenced_iff_odd, isReferenced_iff_odd]
    exact hparity page id
  · rw [Edit.run_toggleReference_iff] at htoggle ⊢
    exact Catalog.toggleReference_twice (hconsistent edits) htoggle
  · simp only [Edit.run_toggleReference_iff] at h₁ h₂ ⊢
    exact Catalog.toggleReference_comm (hconsistent edits).noEmptySets hne h₁ h₂

/-- Two sources, each of which a page refers to; one of them is removed and added again. -/
def renewedUsers : List Edit :=
  [.addGlobal (DataSource.new "users" (RequestOptions.get "/v1/users")),
    .addGlobal (DataSource.new "orders" (RequestOptions.get "/orders")),
    .toggleReference "home" "users", .toggleReference "about" "orders", .removeGlobal "users",
    .addGlobal (DataSource.new "users" (RequestOptions.get "/v2/users"))]

/-- The toggle of a reference that was lost with its source. -/
def homeUsers : Edit := .toggleReference "home" "users"

/-- The toggle of a reference that is there. -/
def aboutOrders : Edit := .toggleReference "about" "orders"

theorem catalog_determined_renewedUsers :
    Odd (toggleCount "about" "orders" (ofEdits renewedUsers).events) ∧
      (ofEdits renewedUsers).catalog.isReferenced "about" "orders" = true ∧
      (ofEdits renewedUsers).catalog.globals.map DataSource.id = ["orders", "users"] ∧
      (ofEdits (renewedUsers ++ [homeUsers, homeUsers])).catalog = (ofEdits renewedUsers).catalog ∧
      homeUsers.run (ofEdits (renewedUsers ++ [homeUsers])).catalog =
        (.ok (.referenced false), (ofEdits renewedUsers).catalog) ∧
      ∃ c', aboutOrders.run (ofEdits renewedUsers).catalog = (.ok (.referenced false), c') ∧
        homeUsers.run c' = (.ok (.referenced true),
          (ofEdits (renewedUsers ++ [homeUsers, aboutOrders])).catalog) := by
  obtain ⟨hreferenced, -, htoggles, htwice, hcomm⟩ := catalog_determined renewedUsers
  have hodd : Odd (toggleCount "about" "orders" (ofEdits renewedUsers).events) := by decide +kernel
  have hevents : (ofEdits (renewedUsers ++ [homeUsers, homeUsers])).events =
      (ofEdits renewedUsers).events ++ [⟨homeUsers, .ok (.referenced true)⟩] ++
        [⟨homeUsers, .ok (.referenced false)⟩] := rfl
  refine ⟨hodd, (hreferenced _ _).mpr hodd, rfl, htoggles _ rfl fun page id => ?_,
    htwice _ _ true _ rfl, hcomm _ _ _ _ true false _ _ (by simp) rfl rfl⟩
  have hsame : Event.toggles page id ⟨homeUsers, .ok (.referenced true)⟩ =
      Event.toggles page id ⟨homeUsers, .ok (.referenced false)⟩ := rfl
  rw [hevents, toggleCount_concat rfl, toggleCount_concat rfl, hsame]
  split
  · rw [Nat.odd_add_one, Nat.odd_add_one, not_not]
  · rfl

end History

end LivePage
