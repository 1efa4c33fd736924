import LivePage.Proofs.Collection.KeyedLog
import LivePage.Proofs.DataSource.Editing

/-!
# The integrity of a catalog

What every catalog keeps to that was empty and on which operations were carried out, refused ones
among them.

* `SoundIds`: the ids of a list of sources are neither empty nor given twice; `checkIds_eq_ok_iff`
  says that this is what is checked.
* `SoundSources`: the ids of the global sources are sound, and so are those of every page.
* `Consistent`: moreover nothing empty is stored, and every reference is to a global source.
* `Consistent.effect`: one operation; `Catalog.consistent_ofEdits`: all runs.
-/

namespace LivePage

/-! ## Ids -/

/-- No source of a list has an empty id, and no two have the same. -/
structure SoundIds (ds : List DataSource) : Prop where
  nonempty : ∀ d ∈ ds, d.id ≠ ""
  nodup : (ds.map DataSource.id).Nodup

namespace SoundIds

variable {ds : List DataSource}

theorem nil : SoundIds [] := ⟨by simp, .nil⟩

theorem cons_iff {d : DataSource} :
    SoundIds (d :: ds) ↔ d.id ≠ "" ∧ d.id ∉ ds.map DataSource.id ∧ SoundIds ds := by
  constructor
  · rintro ⟨hnonempty, hnodup⟩
    rw [List.map_cons, List.nodup_cons] at hnodup
    exact ⟨hnonempty d List.mem_cons_self, hnodup.1,
      fun x hx => hnonempty x (List.mem_cons_of_mem _ hx), hnodup.2⟩
  · rintro ⟨hd, hnew, hds⟩
    exact ⟨List.forall_mem_cons.mpr ⟨hd, hds.nonempty⟩, List.nodup_cons.mpr ⟨hnew, hds.nodup⟩⟩

theorem sublist (h : SoundIds ds) {ds' : List DataSource} (hsub : ds'.Sublist ds) : SoundIds ds' :=
  ⟨fun d hd => h.nonempty d (hsub.subset hd), h.nodup.sublist (hsub.map _)⟩

theorem put (h : SoundIds ds) {d : DataSource} (hd : d.id ≠ "") :
    SoundIds (Keyed.put DataSource.id d ds) := by
  refine ⟨fun x hx => ?_, Keyed.nodup_map_put h.nodup d⟩
  rcases (Keyed.mem_put h.nodup).mp hx with rfl | ⟨hx, -⟩
  · exact hd
  · exact h.nonempty x hx

end SoundIds

namespace Catalog

theorem checkIdsAfter_eq_ok_iff {scope : String} {seen : List String} {ds : List DataSource} :
    checkIdsAfter scope seen ds = .ok () ↔
      SoundIds ds ∧ ∀ id ∈ seen, id ∉ ds.map DataSource.id := by
  induction ds generalizing seen with
  | nil => simp [checkIdsAfter, SoundIds.nil]
  | cons d ds ih =>
    rw [SoundIds.cons_iff]
    by_cases hempty : d.id = ""
    · simp [checkIdsAfter, hempty]
    by_cases hseen : d.id ∈ seen
    · have hrefused : ¬∀ id ∈ seen, id ∉ (d :: ds).map DataSource.id :=
        fun h => h d.id hseen List.mem_cons_self
      simp only [checkIdsAfter, hempty, hseen, hrefused, String.isEmpty_iff, List.contains_eq_mem,
        decide_true, if_true, if_false, reduceCtorEq, and_false]
    · have hpassed :
          checkIdsAfter scope seen (d :: ds) = checkIdsAfter scope (d.id :: seen) ds := by
        simp [checkIdsAfter, hempty, hseen]
      rw [hpassed, ih]
      constructor
      · rintro ⟨hds, hseen'⟩
        obtain ⟨hnew, hold⟩ := List.forall_mem_cons.mp hseen'
        refine ⟨⟨hempty, hnew, hds⟩, fun id hid hmem => ?_⟩
        rcases List.mem_cons.mp hmem with rfl | hmem
        · exact hseen hid
        · exact hold id hid hmem
      · rintro ⟨⟨-, hnew, hds⟩, hold⟩
        exact ⟨hds, List.forall_mem_cons.mpr
          ⟨hnew, fun id hid hmem => hold id hid (List.mem_cons_of_mem _ hmem)⟩⟩

/-- The check of ids passes where they are sound, and nowhere else. -/
theorem checkIds_eq_ok_iff {scope : String} {ds : List DataSource} :
    checkIds scope ds = .ok () ↔ SoundIds ds := by
  rw [checkIds, checkIdsAfter_eq_ok_iff]
  simp

/-! ## Sources -/

/-- The ids of the global sources are sound, and so are those of the sources of every page. -/
structure SoundSources (c : Catalog) : Prop where
  globals : SoundIds c.globals
  pages : ∀ page, SoundIds (c.pageSources page)

variable {c c' : Catalog}

theorem pageSources_insert (c : Catalog) (page : String) (ds : List DataSource) (q : String) :
    pageSources { c with pageSourceMap := c.pageSourceMap.insert page ds } q =
      if q = page then ds else c.pageSources q := by
  rw [pageSources, KeyMap.get?_insert]
  split <;> rfl

theorem pageSources_erase (c : Catalog) (page q : String) :
    pageSources { c with pageSourceMap := c.pageSourceMap.erase page } q =
      if q = page then [] else c.pageSources q := by
  rw [pageSources, KeyMap.get?_erase]
  split <;> rfl

theorem pageSources_congr (h : c'.pageSourceMap = c.pageSourceMap) (page : String) :
    c'.pageSources page = c.pageSources page := by
  rw [pageSources, h, pageSources]

theorem soundSources_empty : empty.SoundSources := ⟨.nil, fun _ => .nil⟩

/-- Every operation keeps ids sound. -/
theorem SoundSources.effect (h : c.SoundSources) {e : Edit} {answer : Answer}
    (he : e.Effect c answer c') : c'.SoundSources := by
  cases he with
  | added hid => exact ⟨h.globals.put hid, h.pages⟩
  | absent hnone => exact h
  | removed hremoved =>
    refine ⟨?_, fun page => ?_⟩
    · rw [hremoved.globals_eq, Keyed.eraseP_eq_remove h.globals.nodup]
      exact h.globals.sublist (Keyed.remove_sublist _ _ _)
    · rw [pageSources_congr hremoved.pageSourceMap_eq]
      exact h.pages page
  | toggled htoggled =>
    refine ⟨htoggled.globals_eq ▸ h.globals, fun page => ?_⟩
    rw [pageSources_congr htoggled.pageSourceMap_eq]
    exact h.pages page
  | @replaced page ds hids =>
    refine ⟨h.globals, fun q => ?_⟩
    have hds : SoundIds ds := checkIds_eq_ok_iff.mp hids
    split
    · rw [pageSources_erase]
      split
      · exact .nil
      · exact h.pages q
    · rw [pageSources_insert]
      split
      · exact hds
      · exact h.pages q
  | @dropped page =>
    refine ⟨h.globals, fun q => ?_⟩
    have hq : (c.removePage page).pageSources q = if q = page then [] else c.pageSources q :=
      pageSources_erase c page q
    rw [hq]
    split
    · exact .nil
    · exact h.pages q

/-! ## What is stored -/

/-- No page is stored with an empty list of sources. -/
def NoEmptyLists (c : Catalog) : Prop := ∀ page, c.pageSourceMap.get? page ≠ some []

theorem NoEmptyLists.effect (h : c.NoEmptyLists) {e : Edit} {answer : Answer}
    (he : e.Effect c answer c') : c'.NoEmptyLists := by
  cases he with
  | added hid => exact h
  | absent hnone => exact h
  | removed hremoved => exact fun q => hremoved.pageSourceMap_eq ▸ h q
  | toggled htoggled => exact fun q => htoggled.pageSourceMap_eq ▸ h q
  | @replaced page ds hids =>
    intro q
    by_cases hds : ds = []
    · simp only [hds, List.isEmpty_nil, if_true, KeyMap.get?_erase]
      split
      · simp
      · exact h q
    · simp only [List.isEmpty_iff, hds, if_false, KeyMap.get?_insert]
      split
      · simpa using hds
      · exact h q
  | @dropped page =>
    intro q
    rw [removePage, KeyMap.get?_erase]
    split
    · simp
    · exact h q

theorem NoEmptySets.effect (h : c.NoEmptySets) {e : Edit} {answer : Answer}
    (he : e.Effect c answer c') : c'.NoEmptySets := by
  cases he with
  | added hid => exact h
  | absent hnone => exact h
  | removed hremoved => exact hremoved.noEmptySets
  | toggled htoggled => exact htoggled.noEmptySets h
  | replaced hids => exact h
  | dropped => exact h.removePage _

/-- Every reference is to a global source. -/
def DefinedReferences (c : Catalog) : Prop :=
  ∀ page, ∀ id ∈ c.references page, id ∈ c.globals.map DataSource.id

theorem mem_references_iff {page id : String} :
    id ∈ c.references page ↔ c.isReferenced page id = true := by
  unfold references isReferenced
  cases c.referenceMap.get? page with
  | none => simp
  | some refs => exact KeySet.contains_iff_mem_keys.symm

/-- Removal takes the references along with the source; all other operations keep the ids of the
global sources that there are. -/
theorem DefinedReferences.effect (h : c.DefinedReferences) (hids : SoundIds c.globals) {e : Edit}
    {answer : Answer} (he : e.Effect c answer c') : c'.DefinedReferences := by
  have hold (page id : String) (href : c.isReferenced page id = true) :
      id ∈ c.globals.map DataSource.id := h page id (mem_references_iff.mpr href)
  intro q j hj
  rw [mem_references_iff] at hj
  cases he with
  | @added d hid =>
    have hmem := hold q j hj
    rw [Keyed.map_key_put]
    split
    · exact hmem
    · exact List.mem_append_left _ hmem
  | absent hnone => exact hold q j hj
  | @removed id d pages _ hremoved =>
    rw [hremoved.isReferenced_eq, Bool.and_eq_true, bne_iff_ne] at hj
    obtain ⟨hne, href⟩ := hj
    obtain ⟨x, hx, rfl⟩ := List.mem_map.mp (hold q j href)
    rw [hremoved.globals_eq, Keyed.eraseP_eq_remove hids.nodup]
    exact List.mem_map_of_mem (List.mem_filter.mpr ⟨hx, bne_iff_ne.mpr hne⟩)
  | @toggled page id on _ htoggled =>
    rw [htoggled.globals_eq]
    rw [htoggled.isReferenced_eq] at hj
    split at hj
    · rename_i hqj
      rw [hqj.2]
      exact Keyed.isSome_get?_iff.mp (htoggled.defined hj)
    · exact hold q j hj
  | replaced _ => exact hold q j hj
  | @dropped page =>
    rw [isReferenced_removePage] at hj
    split at hj
    · cases hj
    · exact hold q j hj

/-- The ids of all sources are sound, neither an empty list of sources nor an empty set of
references is stored, and every reference is to a global source. -/
structure Consistent (c : Catalog) : Prop extends SoundSources c where
  noEmptyLists : c.NoEmptyLists
  noEmptySets : c.NoEmptySets
  definedReferences : c.DefinedReferences

theorem consistent_empty : empty.Consistent :=
  { soundSources_empty with
    noEmptyLists := nofun
    noEmptySets := noEmptySets_empty
    definedReferences := nofun }

/-- Every operation keeps a catalog consistent. -/
theorem Consistent.effect (h : c.Consistent) {e : Edit} {answer : Answer}
    (he : e.Effect c answer c') : c'.Consistent :=
  { h.toSoundSources.effect he with
    noEmptyLists := h.noEmptyLists.effect he
    noEmptySets := h.noEmptySets.effect he
    definedReferences := h.definedReferences.effect h.globals he }

/-- Whatever operations lead to is consistent. -/
theorem consistent_of_edits (edits : List Edit) : (History.ofEdits edits).catalog.Consistent := by
  apply History.induction (P := fun history => history.catalog.Consistent)
  case empty => exact consistent_empty
  case effect => exact fun _ _ _ _ h he => h.effect he
  case refusal => exact fun _ _ _ h => h

/-- **The integrity of a catalog.** Whatever operations are carried out on the empty catalog, with
whatever arguments, it is consistent afterwards. An operation on a stored catalog makes of it what
the operation that returns a new catalog returns, and one that fails leaves it as it was. -/
theorem consistent_ofEdits :
    (∀ edits : List Edit, (History.ofEdits edits).catalog.Consistent) ∧
      (∀ (e : Edit) (c : Catalog), e.run c =
        match e.result c with
        | .ok (answer, c') => (.ok answer, c')
        | .error error => (.error error, c)) ∧
      ∀ (e : Edit) (c : Catalog) (error : CatalogError),
        (e.run c).1 = .error error → (e.run c).2 = c := by
  refine ⟨consistent_of_edits, Edit.run_eq, fun e c error herror => ?_⟩
  rcases e.run_cases c with ⟨answer, c', hrun, -⟩ | ⟨error', hrun⟩
  · rw [hrun] at herror
    cases herror
  · rw [hrun]

/-- A source, a page that refers to it, and a page with the same source of its own. -/
def usersEdits : List Edit :=
  [.addGlobal (DataSource.new "users" (RequestOptions.get "/users")),
    .toggleReference "home" "users",
    .setPageSources "about" [DataSource.new "users" (RequestOptions.get "/team")]]

theorem consistent_ofEdits_users :
    (History.ofEdits usersEdits).catalog.Consistent ∧
      ((Edit.toggleReference "home" "orders").run (History.ofEdits usersEdits).catalog).1 =
        .error (.unknownGlobal "orders") ∧
      ((Edit.toggleReference "home" "orders").run (History.ofEdits usersEdits).catalog).2 =
        (History.ofEdits usersEdits).catalog := by
  have hrefused :
      ((Edit.toggleReference "home" "orders").run (History.ofEdits usersEdits).catalog).1 =
        .error (.unknownGlobal "orders") := by rfl
  exact ⟨consistent_ofEdits.1 _, hrefused, consistent_ofEdits.2.2 _ _ _ hrefused⟩

end Catalog

end LivePage
