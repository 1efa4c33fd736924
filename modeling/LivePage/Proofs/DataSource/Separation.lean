import LivePage.Proofs.DataSource.Integrity

/-!
# Pages side by side

A catalog is the global sources, and for every page its sources and its references. An operation
overwrites each of these parts on its own: what becomes of a page depends on the page and on the
global sources, never on another page.

* `Edit.onGlobals`, `Edit.onPageSources`, `Edit.onReference`: what an operation makes of each part.
* `Edit.Overwrites`, `Edit.run_overwrites`: it makes nothing else of a catalog.
* `Catalog.AgreeBeside`: two catalogs that differ in nothing but one page.
* `Catalog.AgreeBeside.run`, `Catalog.agreeBeside_run`: one operation on both, and one on the page.
-/

namespace LivePage

open Catalog

/-! ## What an operation does to each part -/

namespace Edit

/-- What an operation makes of the global sources. -/
def onGlobals : Edit → List DataSource → List DataSource
  | .addGlobal d, ds => if d.id.isEmpty then ds else Keyed.put DataSource.id d ds
  | .removeGlobal id, ds => ds.eraseP fun d => d.id == id
  | _, ds => ds

/-- What an operation makes of the sources of a page. -/
def onPageSources (page : String) : Edit → List DataSource → List DataSource
  | .setPageSources q new, ds => if page = q ∧ (checkIds q new).isOk then new else ds
  | .removePage q, ds => if page = q then [] else ds
  | _, ds => ds

/-- What an operation makes of a reference of a page, which is there or not, to a global source that
is `defined` or not. -/
def onReference (page id : String) (defined : Bool) : Edit → Bool → Bool
  | .removeGlobal j, on => on && !(id == j && defined)
  | .toggleReference q j, on => if page = q ∧ id = j then !on && defined else on
  | .removePage q, on => if page = q then false else on
  | _, on => on

/-- The page to which an operation is confined. -/
def page? : Edit → Option String
  | .toggleReference page _ => some page
  | .setPageSources page _ => some page
  | .removePage page => some page
  | _ => none

end Edit

/-- All that an operation makes of a catalog, part by part. -/
structure Edit.Overwrites (e : Edit) (c c' : Catalog) : Prop where
  globals_eq : c'.globals = e.onGlobals c.globals
  pageSources_eq : ∀ page, c'.pageSources page = e.onPageSources page (c.pageSources page)
  isReferenced_eq : ∀ page id, c'.isReferenced page id =
    e.onReference page id (c.getGlobal? id).isSome (c.isReferenced page id)

namespace Edit

variable {c c' : Catalog} {page id : String}

theorem overwrites_removeGlobal_of_none (h : c.getGlobal? id = none) :
    (removeGlobal id).Overwrites c c := by
  refine ⟨?_, fun _ => rfl, fun q j => ?_⟩
  · have hnot : ∀ d ∈ c.globals, ¬(d.id == id) = true := List.find?_eq_none.mp h
    exact (List.eraseP_of_forall_not hnot).symm
  · rw [onReference]
    by_cases hj : j = id
    · simp [hj, h]
    · simp [hj]

theorem overwrites_removeGlobal_of_removed {d : DataSource} {pages : List String}
    (h : c.Removed id d pages c') : (removeGlobal id).Overwrites c c' := by
  refine ⟨h.globals_eq, pageSources_congr h.pageSourceMap_eq, fun q j => ?_⟩
  rw [h.isReferenced_eq, onReference, Bool.and_comm]
  by_cases hj : j = id
  · simp [hj, h.found]
  · have hne : (j == id) = false := beq_false_of_ne hj
    simp [bne, hne]

theorem overwrites_toggleReference_of_toggled {on : Bool} (h : c.Toggled page id on c') :
    (toggleReference page id).Overwrites c c' := by
  have hon : on = (!c.isReferenced page id && (c.getGlobal? id).isSome) := by
    rw [← h.on_eq]
    cases on with
    | true => exact (h.defined rfl).symm
    | false => rfl
  refine ⟨h.globals_eq, pageSources_congr h.pageSourceMap_eq, fun q j => ?_⟩
  rw [h.isReferenced_eq, onReference]
  split
  · rename_i hqj
    rw [hqj.1, hqj.2, hon]
  · rfl

theorem overwrites_toggleReference_of_unknown (h : c.isReferenced page id = false)
    (hglobal : (c.getGlobal? id).isSome = false) : (toggleReference page id).Overwrites c c := by
  refine ⟨rfl, fun _ => rfl, fun q j => ?_⟩
  rw [onReference]
  split
  · rename_i hqj
    rw [hqj.1, hqj.2, h, hglobal]
    rfl
  · rfl

/-- An operation overwrites each part of a catalog on its own. -/
theorem run_overwrites (e : Edit) (c : Catalog) : e.Overwrites c (e.run c).2 := by
  rw [e.run_eq c]
  cases e with
  | addGlobal d =>
    rw [result, Catalog.addGlobal]
    by_cases hd : d.id.isEmpty = true
    · rw [if_pos hd]
      exact ⟨by rw [onGlobals, if_pos hd]; rfl, fun _ => rfl, fun _ _ => rfl⟩
    · rw [if_neg hd]
      exact ⟨by rw [onGlobals, if_neg hd]; rfl, fun _ => rfl, fun _ _ => rfl⟩
  | removeGlobal id =>
    rw [result]
    cases hremove : c.removeGlobal id with
    | none => exact overwrites_removeGlobal_of_none (removeGlobal_eq_none_iff.mp hremove)
    | some outcome => exact overwrites_removeGlobal_of_removed (removed hremove)
  | toggleReference page id =>
    rw [result]
    cases htoggle : c.toggleReference page id with
    | error error =>
      -- Only a reference that is not there is refused, to a source that does not exist.
      have hrefused : ¬(c.isReferenced page id = true ∨ (c.getGlobal? id).isSome = true) := by
        intro h
        obtain ⟨on, c', hok⟩ := exists_toggleReference h
        rw [hok] at htoggle
        cases htoggle
      rw [not_or, Bool.not_eq_true, Bool.not_eq_true] at hrefused
      exact overwrites_toggleReference_of_unknown hrefused.1 hrefused.2
    | ok outcome => exact overwrites_toggleReference_of_toggled (toggled htoggle)
  | setPageSources page ds =>
    rw [result, Catalog.setPageSources]
    cases hids : checkIds page ds with
    | error error =>
      have hfailed : (checkIds page ds).isOk = false := by rw [hids]; rfl
      exact ⟨rfl, fun q => by simp [onPageSources, hfailed, Except.map], fun _ _ => rfl⟩
    | ok passed =>
      have hpassed : (checkIds page ds).isOk = true := by rw [hids]; rfl
      refine ⟨rfl, fun q => ?_, fun _ _ => rfl⟩
      simp only [onPageSources, hpassed, and_true, Except.map]
      split
      · rename_i hempty
        rw [pageSources_erase, List.isEmpty_iff.mp hempty]
      · rw [pageSources_insert]
  | removePage page =>
    exact ⟨rfl, fun q => pageSources_erase c page q, fun q j => isReferenced_removePage c page q j⟩

end Edit

namespace Catalog

/-! ## Catalogs that differ in one page -/

/-- Two catalogs differ in nothing but the sources and the references of one page. -/
structure AgreeBeside (q : String) (c c' : Catalog) : Prop where
  globals_eq : c.globals = c'.globals
  pageSources_eq : ∀ page, page ≠ q → c.pageSources page = c'.pageSources page
  isReferenced_eq : ∀ page id, page ≠ q → c.isReferenced page id = c'.isReferenced page id

variable {q page : String} {c c' : Catalog}

namespace AgreeBeside

theorem refl (q : String) (c : Catalog) : c.AgreeBeside q c :=
  ⟨rfl, fun _ _ => rfl, fun _ _ _ => rfl⟩

theorem getGlobal?_eq (h : c.AgreeBeside q c') (id : String) :
    c.getGlobal? id = c'.getGlobal? id := by
  rw [getGlobal?, h.globals_eq, getGlobal?]

theorem scopedSources_eq (h : c.AgreeBeside q c') (hpage : page ≠ q) :
    c.scopedSources page = c'.scopedSources page := by
  have hreferenced : c.referencedGlobals page = c'.referencedGlobals page := by
    rw [referencedGlobals, referencedGlobals, h.globals_eq]
    exact List.filter_congr fun d _ => h.isReferenced_eq page d.id hpage
  rw [scopedSources, scopedSources, hreferenced, h.pageSources_eq page hpage]

/-- The same operation on both leaves catalogs that differ in nothing but the page. -/
theorem run (h : c.AgreeBeside q c') (e : Edit) : (e.run c).2.AgreeBeside q (e.run c').2 := by
  have hc := e.run_overwrites c
  have hc' := e.run_overwrites c'
  refine ⟨?_, fun page hpage => ?_, fun page id hpage => ?_⟩
  · rw [hc.globals_eq, hc'.globals_eq, h.globals_eq]
  · rw [hc.pageSources_eq, hc'.pageSources_eq, h.pageSources_eq page hpage]
  · rw [hc.isReferenced_eq, hc'.isReferenced_eq, h.isReferenced_eq page id hpage, h.getGlobal?_eq]

end AgreeBeside

/-- An operation on one page changes nothing but that page. -/
theorem agreeBeside_run {e : Edit} (he : e.page? = some q) (c : Catalog) :
    (e.run c).2.AgreeBeside q c := by
  have hc := e.run_overwrites c
  refine ⟨?_, fun page hpage => ?_, fun page id hpage => ?_⟩
  · rw [hc.globals_eq]
    cases e <;> first | rfl | cases he
  · rw [hc.pageSources_eq]
    cases e <;> cases he <;> simp [Edit.onPageSources, hpage]
  · rw [hc.isReferenced_eq]
    cases e <;> cases he <;> simp [Edit.onReference, hpage]

/-- A reference of another page is made in both catalogs or in neither. -/
theorem AgreeBeside.toggleReference (h : c.AgreeBeside q c') (hpage : page ≠ q) (id : String) :
    (∃ e, c.toggleReference page id = .error e ∧ c'.toggleReference page id = .error e) ∨
      ∃ on c₁ c₁', c.toggleReference page id = .ok (on, c₁) ∧
        c'.toggleReference page id = .ok (on, c₁') ∧ c₁.AgreeBeside q c₁' := by
  have hrun := h.run (.toggleReference page id)
  rw [Edit.run_eq, Edit.run_eq, Edit.result, Edit.result] at hrun
  have href := h.isReferenced_eq page id hpage
  have hglobal := congrArg Option.isSome (h.getGlobal?_eq id)
  by_cases hmade : c.isReferenced page id = true ∨ (c.getGlobal? id).isSome = true
  · obtain ⟨on, c₁, hok⟩ := exists_toggleReference hmade
    obtain ⟨on', c₁', hok'⟩ := exists_toggleReference (href ▸ hglobal ▸ hmade)
    have hon : on = on' := by
      rw [(toggled hok).on_eq, (toggled hok').on_eq, href]
    rw [hok, hok'] at hrun
    exact .inr ⟨on, c₁, c₁', hok, hon ▸ hok', hrun⟩
  · rw [not_or, Bool.not_eq_true, Bool.not_eq_true] at hmade
    exact .inl ⟨_, toggleReference_unknown hmade.1 hmade.2,
      toggleReference_unknown (href ▸ hmade.1) (hglobal ▸ hmade.2)⟩

end Catalog

end LivePage
