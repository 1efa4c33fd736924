import LivePage.Proofs.Collection.KeyedOverwrite
import LivePage.Proofs.DataSource.Integrity

/-!
# Removing a global source

A removal takes one source out of the list of global sources and its id out of the references of
every page. The pages that it answers with are those that a look at the references finds before, and
nothing else about the catalog can be seen to change.

* `Catalog.pagesReferencing_congr`: the pages that refer to a source follow from the references.
* `Keyed.exists_eraseP`: where the first member of a key stands, and what is left without it.
* `Catalog.Removed.getGlobal?_eq`, `Catalog.Removed.pagesReferencing_eq`: what other sources keep.
* `Catalog.removal_complete`: all of it.
-/

namespace LivePage

/-- The first member with a key stands behind members of other keys only; without it these and all
that follow are left, in their order. -/
theorem Keyed.exists_eraseP {κ α : Type} [DecidableEq κ] {key : α → κ} {k : κ} {x : α} {xs : List α}
    (h : get? key k xs = some x) :
    key x = k ∧ ∃ before after, xs = before ++ x :: after ∧ (∀ y ∈ before, key y ≠ k) ∧
      (xs.eraseP fun y => key y == k) = before ++ after := by
  obtain ⟨hx, before, after, rfl, hbefore⟩ := List.find?_eq_some_iff_append.mp h
  have hothers : ∀ y ∈ before, ¬(key y == k) = true := fun y hy => by simpa using hbefore y hy
  refine ⟨by simpa using hx, before, after, rfl, fun y hy => by simpa using hbefore y hy, ?_⟩
  rw [List.eraseP_append_right _ hothers, List.eraseP_cons_of_pos]
  exact hx

namespace Catalog

variable {c c' : Catalog} {id : String} {d : DataSource} {pages : List String}

/-! ## The pages that refer to a source -/

/-- The pages that refer to a global source, as a set. -/
def referring (c : Catalog) (id : String) : KeySet :=
  (c.referenceMap.filter fun _ refs => refs.contains id).mapValues fun _ => ()

theorem pagesReferencing_eq_keys (c : Catalog) (id : String) :
    c.pagesReferencing id = (c.referring id).keys := by
  rw [pagesReferencing, KeyMap.keys, referring, KeyMap.keys, KeyMap.mapValues, List.map_map]
  rfl

theorem contains_referring (c : Catalog) (id page : String) :
    (c.referring id).contains page = c.isReferenced page id := by
  rw [referring, KeyMap.contains, KeyMap.get?_mapValues, KeyMap.get?_filter, isReferenced_eq]
  cases c.referenceMap.get? page with
  | none => rfl
  | some refs => cases hrefs : KeyMap.contains refs id <;> simp [Option.filter, hrefs]

/-- Catalogs with the same references to a source list the same pages, in the same order. -/
theorem pagesReferencing_congr (h : ∀ page, c'.isReferenced page id = c.isReferenced page id) :
    c'.pagesReferencing id = c.pagesReferencing id := by
  have hsame : c'.referring id = c.referring id := KeySet.ext_contains fun page => by
    rw [contains_referring, contains_referring, h page]
  rw [pagesReferencing_eq_keys, hsame, pagesReferencing_eq_keys]

theorem mem_pagesReferencing_iff {page : String} :
    page ∈ c.pagesReferencing id ↔ c.isReferenced page id = true := by
  rw [pagesReferencing_eq_keys, ← KeySet.contains_iff_mem_keys, contains_referring]

/-! ## What a removal leaves -/

namespace Removed

/-- The source that is removed is taken out of the list, and the others stay in their order. -/
theorem exists_globals (h : c.Removed id d pages c') :
    d.id = id ∧ ∃ before after, c.globals = before ++ d :: after ∧ (∀ g ∈ before, g.id ≠ id) ∧
      c'.globals = before ++ after := by
  obtain ⟨hid, before, after, hglobals, hbefore, herase⟩ := Keyed.exists_eraseP h.found
  exact ⟨hid, before, after, hglobals, hbefore, h.globals_eq.trans herase⟩

/-- The source under another id is what it was. -/
theorem getGlobal?_eq (h : c.Removed id d pages c') {j : String} (hj : j ≠ id) :
    c'.getGlobal? j = c.getGlobal? j := by
  obtain ⟨hid, before, after, hglobals, -, hglobals'⟩ := h.exists_globals
  have hd : (d.id == j) = false := beq_false_of_ne (by rw [hid]; exact Ne.symm hj)
  rw [getGlobal?, hglobals', Keyed.get?_append, getGlobal?, hglobals, Keyed.get?_append]
  congr 1
  rw [Keyed.get?, Keyed.get?, List.find?_cons, hd]

/-- No page refers to the source any more. -/
theorem isReferenced_self (h : c.Removed id d pages c') (page : String) :
    c'.isReferenced page id = false := by
  simp [h.isReferenced_eq]

theorem isReferenced_of_ne (h : c.Removed id d pages c') {j : String} (hj : j ≠ id)
    (page : String) : c'.isReferenced page j = c.isReferenced page j := by
  simp [h.isReferenced_eq, hj]

theorem pagesReferencing_self (h : c.Removed id d pages c') : c'.pagesReferencing id = [] := by
  refine List.eq_nil_iff_forall_not_mem.mpr fun page hpage => ?_
  rw [mem_pagesReferencing_iff, h.isReferenced_self] at hpage
  cases hpage

end Removed

/-- **A removal is complete and touches nothing else.** In any catalog, removing the global source
of an id answers with this source and with the pages that refer to it, as they are listed before,
also where the references are taken away page by page. Afterwards no page refers to the id. The
other global sources are what they were and stand in the same order; the references to them and the
sources of all pages are what they were. Removing an id without a source changes nothing. -/
theorem removal_complete :
    (∀ (c : Catalog) (id : String) (d : DataSource), c.getGlobal? id = some d →
      ∃ c', c.removeGlobal id = some (d, c.pagesReferencing id, c') ∧
        (Edit.removeGlobal id).run c = (.ok (.removed d (c.pagesReferencing id)), c') ∧
        c'.pagesReferencing id = [] ∧
        (∀ page, c'.isReferenced page id = false) ∧
        (∃ before after, c.globals = before ++ d :: after ∧ (∀ g ∈ before, g.id ≠ id) ∧
          c'.globals = before ++ after) ∧
        (∀ j, j ≠ id → c'.getGlobal? j = c.getGlobal? j ∧
          c'.pagesReferencing j = c.pagesReferencing j ∧
          ∀ page, c'.isReferenced page j = c.isReferenced page j) ∧
        ∀ page, c'.pageSources page = c.pageSources page) ∧
      ∀ (c : Catalog) (id : String), c.getGlobal? id = none →
        c.removeGlobal id = none ∧ (Edit.removeGlobal id).run c = (.ok .absent, c) := by
  refine ⟨fun c id d hfound => ?_, fun c id hnone => ?_⟩
  · obtain ⟨c', hremove⟩ : ∃ c', c.removeGlobal id = some (d, c.pagesReferencing id, c') := by
      rw [removeGlobal, hfound]
      exact ⟨_, rfl⟩
    have hremoved := removed hremove
    obtain ⟨-, hglobals⟩ := hremoved.exists_globals
    refine ⟨c', hremove, ?_, hremoved.pagesReferencing_self, hremoved.isReferenced_self, hglobals,
      fun j hj => ?_, pageSources_congr hremoved.pageSourceMap_eq⟩
    · rw [Edit.run_eq, Edit.result, hremove]
    · exact ⟨hremoved.getGlobal?_eq hj, pagesReferencing_congr (hremoved.isReferenced_of_ne hj),
        hremoved.isReferenced_of_ne hj⟩
  · have hremove := removeGlobal_eq_none_iff.mpr hnone
    exact ⟨hremove, by rw [Edit.run_eq, Edit.result, hremove]⟩

/-- Two sources; one page refers to both, and two pages to one of them each. -/
def sharedEdits : List Edit :=
  [.addGlobal (DataSource.new "users" (RequestOptions.get "/users")),
    .addGlobal (DataSource.new "orders" (RequestOptions.get "/orders")),
    .toggleReference "home" "users", .toggleReference "home" "orders",
    .toggleReference "team" "users", .toggleReference "shop" "orders"]

theorem removal_complete_users :
    let c := (History.ofEdits sharedEdits).catalog
    let users := DataSource.new "users" (RequestOptions.get "/users")
    c.getGlobal? "users" = some users ∧
      (∃ c', c.removeGlobal "users" = some (users, ["home", "team"], c') ∧
        c'.pagesReferencing "users" = [] ∧
        c'.pagesReferencing "orders" = ["home", "shop"]) ∧
      c.getGlobal? "ghost" = none ∧
      (Edit.removeGlobal "ghost").run c = (.ok .absent, c) := by
  intro c users
  have hfound : c.getGlobal? "users" = some users := rfl
  have hghost : c.getGlobal? "ghost" = none := rfl
  obtain ⟨c', hremove, -, hpages, -, -, hothers, -⟩ := removal_complete.1 c "users" users hfound
  have hbefore : c.pagesReferencing "users" = ["home", "team"] := by decide +kernel
  have horders : c.pagesReferencing "orders" = ["home", "shop"] := by decide +kernel
  refine ⟨hfound, ⟨c', hbefore ▸ hremove, hpages, ?_⟩, hghost, (removal_complete.2 c _ hghost).2⟩
  rw [(hothers "orders" (by decide)).2.1, horders]

end Catalog

end LivePage
