import LivePage.DataSource.Catalog

/-!
# What operations do to references

The references of a catalog are seen through one question, whether a page refers to a source. Every
operation is described by what it does to the answers; the stored sets follow from these, as long as
none of them is empty.

* `Catalog.Toggled`, `Catalog.toggled`: all that dropping or making a reference does.
* `Catalog.Removed`, `Catalog.removed`: all that removing a global source does.
* `Catalog.isReferenced_removePage`: what removing a page does.
* `Catalog.eq_of_isReferenced`: catalogs with the same sources and the same references are equal.
-/

namespace LivePage

namespace Catalog

variable {c c' : Catalog} {page id : String}

/-! ## Stored sets -/

theorem isReferenced_eq (c : Catalog) (page id : String) :
    c.isReferenced page id = ((c.referenceMap.get? page).getD KeyMap.empty).contains id := by
  unfold isReferenced
  cases c.referenceMap.get? page <;> rfl

theorem isReferenced_of_get? {refs : KeySet} (h : c.referenceMap.get? page = some refs) :
    c.isReferenced page id = refs.contains id := by
  rw [isReferenced_eq, h]
  rfl

theorem pagesReferencing_eq (c : Catalog) (id : String) :
    c.pagesReferencing id = c.referenceMap.keys.filter fun page => c.isReferenced page id := by
  have hentry : ∀ e ∈ c.referenceMap.entries,
      KeyMap.contains e.2 id = c.isReferenced e.1 id := fun e he =>
    (isReferenced_of_get? (KeyMap.get?_eq_some_iff.mpr he)).symm
  change (c.referenceMap.entries.filter fun e => KeyMap.contains e.2 id).map Prod.fst = _
  rw [List.filter_congr hentry, KeyMap.keys, List.filter_map]
  rfl

/-- No page is stored with an empty set of references. -/
def NoEmptySets (c : Catalog) : Prop := ∀ page, c.referenceMap.get? page ≠ some KeyMap.empty

theorem noEmptySets_empty : empty.NoEmptySets := nofun

/-- Where no set is empty, the references determine what is stored. -/
theorem referenceMap_eq (h : c.NoEmptySets) (h' : c'.NoEmptySets)
    (hrefs : ∀ page id, c.isReferenced page id = c'.isReferenced page id) :
    c.referenceMap = c'.referenceMap := by
  apply KeyMap.ext_get?
  intro page
  have hpage (id : String) := hrefs page id
  simp only [isReferenced_eq] at hpage
  have hne := h page
  have hne' := h' page
  cases hc : c.referenceMap.get? page with
  | none =>
    cases hc' : c'.referenceMap.get? page with
    | none => rfl
    | some refs' =>
      rw [hc, hc'] at hpage
      exact absurd (hc'.trans (congrArg some (KeySet.ext_contains hpage).symm)) hne'
  | some refs =>
    cases hc' : c'.referenceMap.get? page with
    | none =>
      rw [hc, hc'] at hpage
      exact absurd (hc.trans (congrArg some (KeySet.ext_contains hpage))) hne
    | some refs' =>
      rw [hc, hc'] at hpage
      exact congrArg some (KeySet.ext_contains hpage)

/-- Catalogs with the same sources and the same references are equal, as long as no stored set is
empty. -/
theorem eq_of_isReferenced (h : c.NoEmptySets) (h' : c'.NoEmptySets)
    (hglobals : c.globals = c'.globals) (hpages : c.pageSourceMap = c'.pageSourceMap)
    (hrefs : ∀ page id, c.isReferenced page id = c'.isReferenced page id) : c = c' := by
  have hmap := referenceMap_eq h h' hrefs
  obtain ⟨globals, pages, refs⟩ := c
  obtain ⟨globals', pages', refs'⟩ := c'
  simp_all

/-! ## Overwriting the references of one page -/

theorem isReferenced_insert (c : Catalog) (page : String) (refs : KeySet) (q j : String) :
    isReferenced { c with referenceMap := c.referenceMap.insert page refs } q j =
      if q = page then refs.contains j else c.isReferenced q j := by
  rw [isReferenced_eq, isReferenced_eq, KeyMap.get?_insert]
  split <;> rfl

theorem isReferenced_erase (c : Catalog) (page q j : String) :
    isReferenced { c with referenceMap := c.referenceMap.erase page } q j =
      if q = page then false else c.isReferenced q j := by
  rw [isReferenced_eq, isReferenced_eq, KeyMap.get?_erase]
  split <;> rfl

theorem NoEmptySets.insert (h : c.NoEmptySets) {refs : KeySet} (hrefs : refs ≠ KeyMap.empty)
    (page : String) :
    NoEmptySets { c with referenceMap := c.referenceMap.insert page refs } := by
  intro q
  rw [KeyMap.get?_insert]
  split
  · simpa using hrefs
  · exact h q

theorem NoEmptySets.erase (h : c.NoEmptySets) (page : String) :
    NoEmptySets { c with referenceMap := c.referenceMap.erase page } := by
  intro q
  rw [KeyMap.get?_erase]
  split
  · simp
  · exact h q

/-! ## Dropping empty sets -/

/-- A catalog whose stored sets are those of another that are not empty. -/
def dropEmptySets (c : Catalog) : Catalog :=
  { c with referenceMap := c.referenceMap.filter fun _ refs => !refs.isEmpty }

theorem isReferenced_dropEmptySets (c : Catalog) (q j : String) :
    c.dropEmptySets.isReferenced q j = c.isReferenced q j := by
  rw [dropEmptySets, isReferenced_eq, isReferenced_eq, KeyMap.get?_filter]
  cases hq : c.referenceMap.get? q with
  | none => rfl
  | some refs =>
    cases hempty : refs.isEmpty with
    | true =>
      rw [KeyMap.isEmpty_iff.mp hempty]
      rfl
    | false => simp [Option.filter, hempty]

theorem noEmptySets_dropEmptySets (c : Catalog) : c.dropEmptySets.NoEmptySets := by
  intro q hq
  rw [dropEmptySets, KeyMap.get?_filter] at hq
  obtain ⟨-, hempty⟩ := Option.filter_eq_some_iff.mp hq
  simp [KeyMap.isEmpty, KeyMap.empty] at hempty

/-! ## Dropping and making a reference -/

/-- All that dropping or making a reference does: `on` says whether the page refers to the source
afterwards. -/
structure Toggled (c : Catalog) (page id : String) (on : Bool) (c' : Catalog) : Prop where
  on_eq : on = !c.isReferenced page id
  defined : on = true → (c.getGlobal? id).isSome = true
  globals_eq : c'.globals = c.globals
  pageSourceMap_eq : c'.pageSourceMap = c.pageSourceMap
  isReferenced_eq : ∀ q j,
    c'.isReferenced q j = if q = page ∧ j = id then on else c.isReferenced q j
  noEmptySets : c.NoEmptySets → c'.NoEmptySets

/-- A reference that is there is dropped. -/
theorem toggled_of_isReferenced (h : c.isReferenced page id = true) :
    ∃ c', c.toggleReference page id = .ok (false, c') ∧ Toggled c page id false c' := by
  unfold toggleReference
  dsimp only
  rw [isReferenced_eq] at h
  rw [if_pos h]
  -- What is left of the page's set decides whether the page itself is dropped.
  refine ⟨_, rfl, ?_, nofun, rfl, rfl, fun q j => ?_, fun hne => ?_⟩
  · rw [isReferenced_eq, h]
    rfl
  · have herase := KeySet.contains_erase ((c.referenceMap.get? page).getD KeyMap.empty) id j
    split
    · rename_i hempty
      rw [KeyMap.isEmpty_iff.mp hempty] at herase
      rw [isReferenced_erase]
      by_cases hq : q = page
      · subst hq
        rw [if_pos rfl, isReferenced_eq]
        by_cases hj : j = id
        · simp [hj]
        · simpa [hj] using herase
      · simp [hq]
    · rw [isReferenced_insert, herase]
      by_cases hq : q = page
      · subst hq
        by_cases hj : j = id <;> simp [hj, isReferenced_eq]
      · simp [hq]
  · split
    · exact hne.erase page
    · rename_i hempty
      exact hne.insert (fun hrest => hempty (KeyMap.isEmpty_iff.mpr hrest)) page

/-- A reference that is not there is made to a global source that exists. -/
theorem toggled_of_not_isReferenced (h : c.isReferenced page id = false)
    (hglobal : (c.getGlobal? id).isSome = true) :
    ∃ c', c.toggleReference page id = .ok (true, c') ∧ Toggled c page id true c' := by
  have hnone : (c.getGlobal? id).isNone = false := by
    rw [← Option.not_isSome, hglobal]
    rfl
  unfold toggleReference
  dsimp only
  rw [isReferenced_eq] at h
  rw [if_neg (by rw [h]; exact Bool.false_ne_true),
    if_neg (by rw [hnone]; exact Bool.false_ne_true)]
  refine ⟨_, rfl, ?_, fun _ => hglobal, rfl, rfl, fun q j => ?_, fun hne => ?_⟩
  · rw [isReferenced_eq, h]
    rfl
  · rw [isReferenced_insert, KeySet.contains_add]
    by_cases hq : q = page
    · subst hq
      by_cases hj : j = id <;> simp [hj, isReferenced_eq]
    · simp [hq]
  · refine hne.insert (fun hadd => ?_) page
    have hcontains := KeySet.contains_add ((c.referenceMap.get? page).getD KeyMap.empty) id id
    rw [hadd] at hcontains
    simp at hcontains

/-- A reference to a source that does not exist is refused. -/
theorem toggleReference_unknown (h : c.isReferenced page id = false)
    (hglobal : (c.getGlobal? id).isSome = false) :
    c.toggleReference page id = .error (.unknownGlobal id) := by
  unfold toggleReference
  dsimp only
  rw [isReferenced_eq] at h
  rw [if_neg (by rw [h]; exact Bool.false_ne_true),
    if_pos (by rw [← Option.not_isSome, hglobal]; rfl)]

theorem toggled {on : Bool} (h : c.toggleReference page id = .ok (on, c')) :
    Toggled c page id on c' := by
  cases href : c.isReferenced page id with
  | true =>
    obtain ⟨_, hok, htoggled⟩ := toggled_of_isReferenced href
    rw [hok] at h
    cases h
    exact htoggled
  | false =>
    cases hglobal : (c.getGlobal? id).isSome with
    | true =>
      obtain ⟨_, hok, htoggled⟩ := toggled_of_not_isReferenced href hglobal
      rw [hok] at h
      cases h
      exact htoggled
    | false =>
      rw [toggleReference_unknown href hglobal] at h
      cases h

/-- A reference that is there can be dropped, and one to a source that exists can be made. -/
theorem exists_toggleReference
    (h : c.isReferenced page id = true ∨ (c.getGlobal? id).isSome = true) :
    ∃ on c', c.toggleReference page id = .ok (on, c') := by
  cases href : c.isReferenced page id with
  | true =>
    obtain ⟨c', hok, -⟩ := toggled_of_isReferenced href
    exact ⟨_, c', hok⟩
  | false =>
    obtain ⟨c', hok, -⟩ := toggled_of_not_isReferenced href
      (h.resolve_left (by rw [href]; exact Bool.false_ne_true))
    exact ⟨_, c', hok⟩

/-! ## Removing a global source, and a page -/

/-- All that removing a global source does. -/
structure Removed (c : Catalog) (id : String) (d : DataSource) (pages : List String)
    (c' : Catalog) : Prop where
  found : c.getGlobal? id = some d
  pages_eq : pages = c.pagesReferencing id
  globals_eq : c'.globals = c.globals.eraseP fun g => g.id == id
  pageSourceMap_eq : c'.pageSourceMap = c.pageSourceMap
  isReferenced_eq : ∀ q j, c'.isReferenced q j = (j != id && c.isReferenced q j)
  noEmptySets : c'.NoEmptySets

theorem removeGlobal_eq_none_iff : c.removeGlobal id = none ↔ c.getGlobal? id = none := by
  rw [removeGlobal, Option.map_eq_none_iff]

theorem removed {d : DataSource} {pages : List String}
    (h : c.removeGlobal id = some (d, pages, c')) : Removed c id d pages c' := by
  rw [removeGlobal, Option.map_eq_some_iff] at h
  obtain ⟨found, hfound, heq⟩ := h
  cases heq
  let erased : Catalog := ⟨c.globals.eraseP fun g => g.id == id, c.pageSourceMap,
    c.referenceMap.mapValues fun refs => refs.erase id⟩
  refine ⟨hfound, rfl, rfl, rfl, fun q j => ?_, noEmptySets_dropEmptySets erased⟩
  refine (isReferenced_dropEmptySets erased q j).trans ?_
  rw [isReferenced_eq, isReferenced_eq, KeyMap.get?_mapValues]
  cases c.referenceMap.get? q with
  | none => simp
  | some refs => exact KeySet.contains_erase refs id j

theorem isReferenced_removePage (c : Catalog) (page q j : String) :
    (c.removePage page).isReferenced q j = if q = page then false else c.isReferenced q j :=
  isReferenced_erase _ page q j

theorem NoEmptySets.removePage (h : c.NoEmptySets) (page : String) :
    (c.removePage page).NoEmptySets :=
  NoEmptySets.erase (c := { c with pageSourceMap := c.pageSourceMap.erase page }) h page

end Catalog

end LivePage
