import LivePage.Proofs.DataSource.Separation
import LivePage.Proofs.DataSource.Visibility

/-!
# The integrity of read catalogs

The ids of a catalog that is read from a text are checked, and nothing else is. A page of it may
refer to a global source that the text does not define: such a reference dangles. Operations let no
reference dangle that did not dangle in the text, and removing a global source takes away all
references to it but those that dangle.

* `Catalog.ofText_eq_ok_iff`: the texts that are accepted.
* `Catalog.Dangling`: references without a source; `Dangling.of_run` says that an operation makes
  none, and `Dangling.of_after` that a sequence does not.
* `Catalog.isReferenced_removeGlobal_iff`: the references that outlast a removal.
* `Catalog.integrity_of_ofText`: what a read catalog keeps to, whatever is done to it.
-/

namespace LivePage

namespace Catalog

variable {c c' : Catalog} {page id : String}

/-! ## Accepted texts -/

theorem checkPages_eq_ok_iff {pages : List (String × List DataSource)} :
    checkPages pages = .ok () ↔ ∀ entry ∈ pages, SoundIds entry.2 := by
  refine ⟨soundIds_of_checkPages, fun h => ?_⟩
  induction pages with
  | nil => rfl
  | cons entry pages ih =>
    obtain ⟨hentry, hpages⟩ := List.forall_mem_cons.mp h
    rw [checkPages, checkIds_eq_ok_iff.mpr hentry]
    exact ih hpages

/-- The check passes the catalogs with sound ids, as they are. -/
theorem checkAll_eq_ok_iff : c.checkAll = .ok c' ↔ c = c' ∧ c'.SoundSources := by
  constructor
  · intro h
    refine ⟨?_, soundSources_of_checkAll h⟩
    rw [checkAll] at h
    split at h
    · cases h
    · split at h
      · cases h
      · exact Except.ok.inj h
  · rintro ⟨rfl, h⟩
    have hpages : ∀ entry ∈ c.pageSourceMap.entries, SoundIds entry.2 := by
      intro entry hentry
      have hsources : c.pageSources entry.1 = entry.2 := by
        rw [pageSources, KeyMap.get?_eq_some_iff.mpr hentry]
        rfl
      exact hsources ▸ h.pages entry.1
    rw [checkAll, checkIds_eq_ok_iff.mpr h.globals]
    dsimp only
    rw [checkPages_eq_ok_iff.mpr hpages]

/-- A text is accepted if it denotes a catalog whose ids are sound; the references of the catalog
do not matter. -/
theorem ofText_eq_ok_iff {text : String} :
    ofText text = .ok c ↔ (RawJson.parse? text).bind ofRaw? = some c ∧ c.SoundSources := by
  rw [ofText]
  cases RawJson.parse? text with
  | none => simp
  | some j =>
    dsimp only [Option.bind_some]
    rw [ofDocument]
    cases ofRaw? j with
    | none => simp
    | some c₀ => simpa using checkAll_eq_ok_iff

/-! ## Dangling references -/

/-- A page refers to a global source that there is not. -/
def Dangling (c : Catalog) (page id : String) : Prop :=
  c.isReferenced page id = true ∧ id ∉ c.globals.map DataSource.id

theorem definedReferences_iff : c.DefinedReferences ↔ ∀ page id, ¬c.Dangling page id := by
  simp only [DefinedReferences, Dangling, mem_references_iff, not_and, not_not]

theorem definedReferences_iff_entries : c.DefinedReferences ↔
    ∀ entry ∈ c.referenceMap.entries, ∀ id ∈ entry.2.keys, id ∈ c.globals.map DataSource.id := by
  constructor
  · intro h entry hentry id hid
    refine h entry.1 id (mem_references_iff.mpr ?_)
    rw [isReferenced_of_get? (KeyMap.get?_eq_some_iff.mpr hentry), KeySet.contains_iff_mem_keys]
    exact hid
  · intro h page id hid
    rw [references] at hid
    cases hpage : c.referenceMap.get? page with
    | none => simp [hpage] at hid
    | some refs =>
      rw [hpage] at hid
      exact h (page, refs) (KeyMap.get?_eq_some_iff.mp hpage) id hid

instance (c : Catalog) : Decidable c.DefinedReferences :=
  decidable_of_iff _ definedReferences_iff_entries.symm

/-- An operation lets no reference dangle that did not before. -/
theorem Dangling.of_run {e : Edit} (h : (e.run c).2.Dangling page id) : c.Dangling page id := by
  have hrun := e.run_overwrites c
  rw [Dangling, hrun.isReferenced_eq, hrun.globals_eq] at h
  obtain ⟨href, hundefined⟩ := h
  cases e with
  | addGlobal d =>
    refine ⟨href, fun hid => hundefined ?_⟩
    rw [Edit.onGlobals]
    split
    · exact hid
    · rw [Keyed.map_key_put]
      split
      · exact hid
      · exact List.mem_append_left _ hid
  | removeGlobal j =>
    simp only [Edit.onReference, Bool.and_eq_true, Bool.not_eq_true', Bool.and_eq_false_iff] at href
    refine ⟨href.1, fun hid => hundefined ?_⟩
    -- The source of the id is there, so it is another one that was removed.
    have hne : id ≠ j := by
      rintro rfl
      have hdefined : (c.getGlobal? id).isSome = true := Keyed.isSome_get?_iff.mpr hid
      simp [hdefined] at href
    obtain ⟨d, hd, rfl⟩ := List.mem_map.mp hid
    exact List.mem_map_of_mem ((List.mem_eraseP_of_neg (by simpa using hne)).mpr hd)
  | toggleReference q j =>
    rw [Edit.onReference] at href
    split at href
    · rw [Bool.and_eq_true] at href
      exact absurd (Keyed.isSome_get?_iff.mp href.2) hundefined
    · exact ⟨href, hundefined⟩
  | setPageSources q ds => exact ⟨href, hundefined⟩
  | removePage q =>
    rw [Edit.onReference] at href
    split at href
    · cases href
    · exact ⟨href, hundefined⟩

/-- A sequence of operations lets no reference dangle that did not before. -/
theorem Dangling.of_after {edits : List Edit} (h : (c.after edits).Dangling page id) :
    c.Dangling page id := by
  induction edits generalizing c with
  | nil => exact h
  | cons e edits ih => exact (ih h).of_run

/-- The references to a global source that outlast its removal are those without a source. -/
theorem isReferenced_removeGlobal_iff :
    ((Edit.removeGlobal id).run c).2.isReferenced page id = true ↔ c.Dangling page id := by
  have hdefined : (c.getGlobal? id).isSome = true ↔ id ∈ c.globals.map DataSource.id :=
    Keyed.isSome_get?_iff
  rw [((Edit.removeGlobal id).run_overwrites c).isReferenced_eq, Edit.onReference, Dangling,
    ← hdefined]
  simp

/-! ## Read catalogs -/

theorem Obtained.after (h : Obtained c) (edits : List Edit) : Obtained (c.after edits) := by
  induction edits generalizing c with
  | nil => exact h
  | cons e edits ih => exact ih (h.edited e)

/-- Removing sources takes away all references to them exactly when no reference dangles. -/
theorem forall_isReferenced_removeGlobal_iff :
    (∀ page id, ((Edit.removeGlobal id).run c).2.isReferenced page id = false) ↔
      ∀ page id, ¬c.Dangling page id := by
  refine forall₂_congr fun page id => ?_
  rw [Bool.eq_false_iff, Ne, isReferenced_removeGlobal_iff]

/-- **The integrity of a read catalog.** A text is accepted if it denotes a catalog whose ids are
neither empty nor given twice within a scope. Every reference is then to a global source, and no
reference is left to one that is removed, exactly when none dangles in the text. Whatever operations
are carried out, ids stay sound, and the references that dangle are among those of the text: where
the text has none, removing a source leaves no reference to it, also if it was not there. -/
theorem integrity_of_ofText (text : String) (c : Catalog) :
    (ofText text = .ok c ↔ (RawJson.parse? text).bind ofRaw? = some c ∧ c.SoundSources) ∧
    (ofText text = .ok c →
      (c.SoundSources ∧ c.DefinedReferences ∧
          (∀ page id, ((Edit.removeGlobal id).run c).2.isReferenced page id = false) ↔
        ∀ page id, ¬c.Dangling page id) ∧
      ∀ edits : List Edit,
        (c.after edits).SoundSources ∧
        (∀ page id, (c.after edits).Dangling page id → c.Dangling page id) ∧
        ((∀ page id, ¬c.Dangling page id) →
          (c.after edits).DefinedReferences ∧
          ∀ page id, ((Edit.removeGlobal id).run (c.after edits)).2.isReferenced page id =
            false)) := by
  refine ⟨ofText_eq_ok_iff, fun h => ⟨?_, fun edits => ⟨?_, fun _ _ => Dangling.of_after, ?_⟩⟩⟩
  · rw [forall_isReferenced_removeGlobal_iff, definedReferences_iff, and_self]
    exact and_iff_right (Obtained.read h).soundSources
  · exact ((Obtained.read h).after edits).soundSources
  · intro hnone
    have hafter : ∀ page id, ¬(c.after edits).Dangling page id :=
      fun page id hdangling => hnone page id hdangling.of_after
    exact ⟨definedReferences_iff.mpr hafter, forall_isReferenced_removeGlobal_iff.mpr hafter⟩

/-- A text with a source and a page that refers to it. -/
def usersText : String :=
  "\x7b\"globals\": [\x7b\"id\": \"users\"\x7d], \"references\": \x7b\"home\": [\"users\"]\x7d\x7d"

/-- Another page comes to refer to the source. -/
def aboutEdits : List Edit := [.toggleReference "about" "users"]

theorem integrity_of_ofText_usersText :
    ∃ c, ofText usersText = .ok c ∧ (∀ page id, ¬c.Dangling page id) ∧
      (c.after aboutEdits).isReferenced "about" "users" = true ∧
      (c.after aboutEdits).DefinedReferences ∧
      ((Edit.removeGlobal "users").run (c.after aboutEdits)).2.isReferenced "about" "users" =
        false := by
  have hread : ((ofText usersText).toOption.any fun c =>
      decide c.DefinedReferences && (c.after aboutEdits).isReferenced "about" "users") = true := by
    decide +kernel
  cases htext : ofText usersText with
  | error e =>
    rw [htext] at hread
    cases hread
  | ok c =>
    rw [htext, Except.toOption, Option.any_some, Bool.and_eq_true, decide_eq_true_eq] at hread
    have hnone := definedReferences_iff.mp hread.1
    obtain ⟨-, hafter⟩ := (integrity_of_ofText usersText c).2 htext
    obtain ⟨-, -, hdefined⟩ := hafter aboutEdits
    exact ⟨c, rfl, hnone, hread.2, (hdefined hnone).1, (hdefined hnone).2 "about" "users"⟩

/-- A text without sources and with a page that refers to one. -/
def ghostText : String := "\x7b\"references\": \x7b\"home\": [\"ghost\"]\x7d\x7d"

/-- Not every reference of a read catalog is to a global source, nor does removal take away all
references to what is removed. -/
theorem not_forall_integrity :
    ¬∀ (text : String) (c : Catalog), ofText text = .ok c →
      c.SoundSources ∧ c.DefinedReferences ∧
        ∀ page id, ((Edit.removeGlobal id).run c).2.isReferenced page id = false := by
  intro h
  have hread : ((ofText ghostText).toOption.any fun c =>
      ((Edit.removeGlobal "ghost").run c).2.isReferenced "home" "ghost") = true := by
    decide +kernel
  cases htext : ofText ghostText with
  | error e =>
    rw [htext] at hread
    cases hread
  | ok c =>
    rw [htext, Except.toOption, Option.any_some] at hread
    have hgone := (h ghostText c htext).2.2 "home" "ghost"
    exact Bool.false_ne_true (hgone.symm.trans hread)

end Catalog

end LivePage
