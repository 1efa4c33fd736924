import Mathlib.Data.List.Induction
import LivePage.DataSource.Editing
import LivePage.Proofs.DataSource.References

/-!
# Editing in place and new catalogs

An operation that overwrites a stored catalog step by step makes of it what the operation that
returns a new catalog returns, and one that is refused leaves the catalog as it was.

* `Editing.removeGlobal_run`, `Editing.toggleReference_run` and so on: one operation.
* `Edit.run_eq`: all of them.
* `Edit.Effect`, `Edit.run_cases`: all that an operation can do to a catalog.
* `History.induction`: what holds of the empty catalog and after every operation holds always.
-/

namespace LivePage

namespace Editing

variable {α β : Type} {c : Catalog}

/-! ## Steps -/

theorem run_pure (a : α) (c : Catalog) : run (pure a) c = (.ok a, c) := rfl

theorem run_throw (e : CatalogError) (c : Catalog) : run (throw e : Editing α) c = (.error e, c) :=
  rfl

theorem run_get_bind (f : Catalog → Editing α) (c : Catalog) :
    run (get >>= f) c = run (f c) c := rfl

theorem run_modify (f : Catalog → Catalog) (c : Catalog) : run (modify f) c = (.ok (), f c) := rfl

theorem run_modifyReferences (f : KeyMap KeySet → KeyMap KeySet) (c : Catalog) :
    run (modifyReferences f) c = (.ok (), { c with referenceMap := f c.referenceMap }) := rfl

/-- After a step that answers, the operation goes on with its answer and the catalog it left. -/
theorem run_bind {e : Editing α} {a : α} {c' : Catalog} (h : run e c = (.ok a, c'))
    (f : α → Editing β) : run (e >>= f) c = run (f a) c' := by
  have h' : StateT.run (ExceptT.run e) c = (.ok a, c') := h
  change StateT.run (ExceptT.run (e >>= f)) c = _
  rw [ExceptT.run_bind, StateT.run_bind, h']
  rfl

/-- A step that fails ends the operation. -/
theorem run_bind_error {e : Editing α} {err : CatalogError} {c' : Catalog}
    (h : run e c = (.error err, c')) (f : α → Editing β) :
    run (e >>= f) c = (.error err, c') := by
  have h' : StateT.run (ExceptT.run e) c = (.error err, c') := h
  change StateT.run (ExceptT.run (e >>= f)) c = _
  rw [ExceptT.run_bind, StateT.run_bind, h']
  rfl

/-- An operation that answers with a function of another's answer. -/
theorem run_map (e : Editing α) (f : α → β) (c : Catalog) :
    run (e >>= fun a => pure (f a)) c = ((run e c).1.map f, (run e c).2) := by
  cases h : run e c with
  | mk outcome c' =>
    cases outcome with
    | ok a => rw [run_bind h, run_pure, Except.map]
    | error err => rw [run_bind_error h, Except.map]

/-! ## References -/

theorem dropReference_run_of_isReferenced {page id : String} (h : c.isReferenced page id = true) :
    run (dropReference page id) c =
      (.ok true, { c with
        referenceMap := c.referenceMap.insert page
          (((c.referenceMap.get? page).getD KeyMap.empty).erase id) }) := by
  rw [dropReference, run_get_bind]
  cases hpage : c.referenceMap.get? page with
  | none =>
    rw [Catalog.isReferenced_eq, hpage] at h
    cases h
  | some refs =>
    rw [Catalog.isReferenced_of_get? hpage] at h
    dsimp only
    rw [run_bind (run_modifyReferences _ c), run_pure, h]
    rfl

/-- A set without the id is written back as it was. -/
theorem dropReference_run_of_not_isReferenced {page id : String}
    (h : c.isReferenced page id = false) : run (dropReference page id) c = (.ok false, c) := by
  rw [dropReference, run_get_bind]
  cases hpage : c.referenceMap.get? page with
  | none => rfl
  | some refs =>
    rw [Catalog.isReferenced_of_get? hpage] at h
    dsimp only
    rw [run_bind (run_modifyReferences _ c), run_pure, h, KeySet.erase_of_not_contains h,
      KeyMap.insert_eq_self hpage]

/-- One page loses its reference, and all others keep theirs. -/
theorem dropReference_run (page id : String) (c : Catalog) :
    ∃ c', run (dropReference page id) c = (.ok (c.isReferenced page id), c') ∧
      c'.globals = c.globals ∧ c'.pageSourceMap = c.pageSourceMap ∧
      ∀ q j, c'.isReferenced q j = if q = page ∧ j = id then false else c.isReferenced q j := by
  cases h : c.isReferenced page id with
  | true =>
    refine ⟨_, dropReference_run_of_isReferenced h, rfl, rfl, fun q j => ?_⟩
    rw [Catalog.isReferenced_insert, KeySet.contains_erase]
    by_cases hq : q = page
    · subst hq
      by_cases hj : j = id <;> simp [hj, Catalog.isReferenced_eq]
    · simp [hq]
  | false =>
    refine ⟨_, dropReference_run_of_not_isReferenced h, rfl, rfl, fun q j => ?_⟩
    split
    · rename_i hqj
      rw [hqj.1, hqj.2, h]
    · rfl

/-- Pages lose their references one after the other; the answer names those that had one. -/
theorem dropReferences_run (id : String) {pages : List String} (hnodup : pages.Nodup)
    (c : Catalog) :
    ∃ c', run (dropReferences id pages) c =
        (.ok (pages.filter fun page => c.isReferenced page id), c') ∧
      c'.globals = c.globals ∧ c'.pageSourceMap = c.pageSourceMap ∧
      ∀ q j, c'.isReferenced q j = if q ∈ pages ∧ j = id then false else c.isReferenced q j := by
  induction pages generalizing c with
  | nil => exact ⟨c, rfl, rfl, rfl, fun q j => by simp⟩
  | cons page pages ih =>
    obtain ⟨hpage, hpages⟩ := List.nodup_cons.mp hnodup
    obtain ⟨c₁, hrun₁, hglobals₁, hsources₁, hrefs₁⟩ := dropReference_run page id c
    obtain ⟨c₂, hrun₂, hglobals₂, hsources₂, hrefs₂⟩ := ih hpages c₁
    have hothers : pages.filter (fun page => c₁.isReferenced page id) =
        pages.filter fun page => c.isReferenced page id := by
      refine List.filter_congr fun q hq => ?_
      rw [hrefs₁, if_neg]
      rintro ⟨rfl, -⟩
      exact hpage hq
    refine ⟨c₂, ?_, hglobals₂.trans hglobals₁, hsources₂.trans hsources₁, fun q j => ?_⟩
    · rw [dropReferences, run_bind hrun₁, run_bind hrun₂, run_pure, hothers, List.filter_cons]
    · rw [hrefs₂, hrefs₁]
      by_cases hj : j = id
      · by_cases hq : q = page <;> simp [hj, hq]
      · simp [hj]

/-! ## Whole operations -/

theorem addGlobal_run (d : DataSource) (c : Catalog) :
    run (addGlobal d) c =
      match c.addGlobal d with
      | .ok c' => (.ok (), c')
      | .error e => (.error e, c) := by
  rw [addGlobal, Catalog.addGlobal]
  split
  · exact run_bind_error (run_throw _ c) _
  · rfl

theorem removeGlobal_run (id : String) (c : Catalog) :
    run (removeGlobal id) c =
      match c.removeGlobal id with
      | some (d, pages, c') => (.ok (some (d, pages)), c')
      | none => (.ok none, c) := by
  rw [removeGlobal, run_get_bind]
  cases hfound : c.getGlobal? id with
  | none =>
    rw [Catalog.removeGlobal_eq_none_iff.mpr hfound]
    rfl
  | some d =>
    obtain ⟨c', hremove⟩ : ∃ c', c.removeGlobal id = some (d, c.pagesReferencing id, c') := by
      rw [Catalog.removeGlobal, hfound]
      exact ⟨_, rfl⟩
    have hremoved := Catalog.removed hremove
    obtain ⟨c₁, hrun, hglobals, hsources, hrefs⟩ := dropReferences_run id
      (KeyMap.nodup_keys c.referenceMap)
      { c with globals := c.globals.eraseP fun g => g.id == id }
    dsimp only
    rw [hremove, run_bind (run_modify _ c), run_get_bind, run_bind hrun,
      run_bind (run_modifyReferences _ c₁), run_pure]
    -- The loop and the map leave sets with the same members; without empty sets they are equal.
    have hc' : c₁.dropEmptySets = c' := by
      refine Catalog.eq_of_isReferenced (Catalog.noEmptySets_dropEmptySets c₁)
        hremoved.noEmptySets (hglobals.trans hremoved.globals_eq.symm)
        (hsources.trans hremoved.pageSourceMap_eq.symm) fun q j => ?_
      rw [Catalog.isReferenced_dropEmptySets, hrefs, hremoved.isReferenced_eq]
      by_cases hj : j = id
      · by_cases hq : q ∈ c.referenceMap.keys
        · simp [hj, hq]
        · have hnone : c.referenceMap.get? q = none := by
            cases h : c.referenceMap.get? q with
            | none => rfl
            | some refs => exact absurd (KeyMap.mem_keys_iff.mpr ⟨refs, h⟩) hq
          simp [hj, hq, Catalog.isReferenced_eq, hnone]
      · simp [hj, Catalog.isReferenced_eq]
    rw [← hc', Catalog.pagesReferencing_eq]
    rfl

theorem toggleReference_run (page id : String) (c : Catalog) :
    run (toggleReference page id) c =
      match c.toggleReference page id with
      | .ok (on, c') => (.ok on, c')
      | .error e => (.error e, c) := by
  rw [toggleReference, Catalog.toggleReference]
  dsimp only
  rw [← Catalog.isReferenced_eq]
  cases href : c.isReferenced page id with
  | true =>
    rw [run_bind (dropReference_run_of_isReferenced href), if_pos rfl, if_pos rfl, run_get_bind]
    dsimp only
    rw [KeyMap.get?_insert, if_pos rfl, Option.getD_some]
    split
    · rw [run_bind (run_modifyReferences _ _), run_pure, KeyMap.erase_insert]
    · rfl
  | false =>
    rw [run_bind (dropReference_run_of_not_isReferenced href), if_neg Bool.false_ne_true,
      if_neg Bool.false_ne_true, run_get_bind]
    split
    · exact run_bind_error (run_throw _ c) _
    · rfl

theorem setPageSources_run (page : String) (ds : List DataSource) (c : Catalog) :
    run (setPageSources page ds) c =
      match c.setPageSources page ds with
      | .ok c' => (.ok (), c')
      | .error e => (.error e, c) := by
  rw [setPageSources, Catalog.setPageSources]
  cases Catalog.checkIds page ds <;> rfl

theorem removePage_run (page : String) (c : Catalog) :
    run (removePage page) c = (.ok (), c.removePage page) := rfl

end Editing

/-- An operation on a stored catalog does what the operation that returns a new catalog does, and if
it is refused, the stored catalog is what it was. -/
theorem Edit.run_eq (e : Edit) (c : Catalog) :
    e.run c =
      match e.result c with
      | .ok (answer, c') => (.ok answer, c')
      | .error error => (.error error, c) := by
  rw [run]
  cases e with
  | addGlobal d =>
    rw [perform, result, Editing.run_map, Editing.addGlobal_run]
    cases c.addGlobal d <;> rfl
  | removeGlobal id =>
    rw [perform, result, Editing.run_map, Editing.removeGlobal_run]
    cases c.removeGlobal id <;> rfl
  | toggleReference page id =>
    rw [perform, result, Editing.run_map, Editing.toggleReference_run]
    cases c.toggleReference page id <;> rfl
  | setPageSources page ds =>
    rw [perform, result, Editing.run_map, Editing.setPageSources_run]
    cases c.setPageSources page ds <;> rfl
  | removePage page =>
    rw [perform, result, Editing.run_map, Editing.removePage_run]
    rfl

/-! ## All that an operation can do -/

/-- What an operation that is not refused answers, and what it makes of a catalog. -/
inductive Edit.Effect (c : Catalog) : Edit → Answer → Catalog → Prop
  | added {d : DataSource} (hid : d.id ≠ "") :
    Effect c (.addGlobal d) .done { c with globals := Keyed.put DataSource.id d c.globals }
  | absent {id : String} (hnone : c.getGlobal? id = none) : Effect c (.removeGlobal id) .absent c
  | removed {id : String} {d : DataSource} {pages : List String} {c' : Catalog}
    (h : c.Removed id d pages c') : Effect c (.removeGlobal id) (.removed d pages) c'
  | toggled {page id : String} {on : Bool} {c' : Catalog} (h : c.Toggled page id on c') :
    Effect c (.toggleReference page id) (.referenced on) c'
  | replaced {page : String} {ds : List DataSource} (hids : Catalog.checkIds page ds = .ok ()) :
    Effect c (.setPageSources page ds) .done { c with
      pageSourceMap :=
        if ds.isEmpty then c.pageSourceMap.erase page else c.pageSourceMap.insert page ds }
  | dropped {page : String} : Effect c (.removePage page) .done (c.removePage page)

theorem Edit.effect_of_result {e : Edit} {c c' : Catalog} {answer : Answer}
    (h : e.result c = .ok (answer, c')) : e.Effect c answer c' := by
  cases e with
  | addGlobal d =>
    rw [result, Catalog.addGlobal] at h
    split at h
    · cases h
    · rename_i hid
      cases h
      exact .added (by simpa using hid)
  | removeGlobal id =>
    rw [result] at h
    split at h
    · rename_i hnone
      cases h
      exact .absent (Catalog.removeGlobal_eq_none_iff.mp hnone)
    · rename_i hsome
      cases h
      exact .removed (Catalog.removed hsome)
  | toggleReference page id =>
    rw [result] at h
    cases htoggle : c.toggleReference page id with
    | error error =>
      rw [htoggle] at h
      cases h
    | ok outcome =>
      rw [htoggle] at h
      cases h
      exact .toggled (Catalog.toggled htoggle)
  | setPageSources page ds =>
    rw [result, Catalog.setPageSources] at h
    split at h
    · cases h
    · rename_i hids
      cases h
      exact .replaced hids
  | removePage page =>
    cases h
    exact .dropped

/-- An operation on a stored catalog has its effect, or is refused and has none. -/
theorem Edit.run_cases (e : Edit) (c : Catalog) :
    (∃ answer c', e.run c = (.ok answer, c') ∧ e.Effect c answer c') ∨
      ∃ error, e.run c = (.error error, c) := by
  rw [e.run_eq c]
  cases hresult : e.result c with
  | ok outcome => exact .inl ⟨_, _, rfl, effect_of_result hresult⟩
  | error error => exact .inr ⟨error, rfl⟩

/-- What holds of the empty catalog, and after every effect and every refusal, holds of whatever
operations lead to. -/
theorem History.induction {P : History → Prop} (empty : P History.empty)
    (effect : ∀ (h : History) (e : Edit) (answer : Answer) (c' : Catalog), P h →
      e.Effect h.catalog answer c' → P ⟨h.events ++ [⟨e, .ok answer⟩], c'⟩)
    (refusal : ∀ (h : History) (e : Edit) (error : CatalogError), P h →
      P ⟨h.events ++ [⟨e, .error error⟩], h.catalog⟩)
    (edits : List Edit) : P (ofEdits edits) := by
  induction edits using List.reverseRecOn with
  | nil => exact empty
  | append_singleton edits e ih =>
    rw [ofEdits_concat, extend]
    rcases e.run_cases (ofEdits edits).catalog with ⟨answer, c', hrun, heffect⟩ | ⟨error, hrun⟩
    · rw [hrun]
      exact effect _ e answer c' ih heffect
    · rw [hrun]
      exact refusal _ e error ih

end LivePage
