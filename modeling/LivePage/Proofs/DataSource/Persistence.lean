import LivePage.Json.Canonical
import LivePage.Proofs.DataSource.Reading

/-!
# Catalogs that survive being saved

The further parameters of a request are written beside its method and its address. One that has the
name of either is written as a second field of this name, which is not read; all others come back.
So a source survives being written if no parameter has such a name, and a catalog if all its sources
do: what operations make of sound ids is accepted when it is read.

* `RequestOptions.Storable`: the requests in question.
* `RequestOptions.ofRaw?_raw_eq_some_iff`, `DataSource.ofRaw?_raw_eq_some_iff`,
  `Catalog.ofRaw?_raw_eq_some_iff`: what is read back as it was written.
* `DataSource.storable_of_ofRaw?`: what is read has no such parameter.
* `Catalog.Storable.effect`: operations with such sources keep to such sources.
* `Catalog.survives_saving`: the catalogs that are read back.
-/

namespace LivePage

/-! ## Requests -/

namespace RequestOptions

/-- No further parameter has the name of another field, and the value of each is canonical, as all
values are that documents denote. -/
def Storable (o : RequestOptions) : Prop :=
  ∀ e ∈ o.params.entries, e.1 ∉ fieldNames ∧ e.2.Canonical

theorem storable_empty : empty.Storable := nofun

/-- The fields of a request that are not further parameters. -/
def ownFields (o : RequestOptions) : List (String × RawJson) :=
  [("method", .str o.method.name), ("url", .str o.url)]

/-- The further parameters of a request as fields. -/
def paramFields (o : RequestOptions) : List (String × RawJson) :=
  o.params.entries.map fun e => (e.1, e.2.raw)

theorem raw_eq (o : RequestOptions) : o.raw = .obj (o.ownFields ++ o.paramFields) := rfl

/-- The parameters of a request that is read have names of their own. -/
theorem storable_of_ofRaw? {j : RawJson} {o : RequestOptions} (h : ofRaw? j = some o) :
    o.Storable := by
  cases j with
  | obj fields =>
    simp only [ofRaw?, Option.bind_eq_bind, Option.bind_eq_some_iff] at h
    obtain ⟨r, -, method, -, url, -, params, hparams, ho⟩ := h
    obtain rfl := Option.some.inj ho
    intro e he
    obtain ⟨f, hf, hkey, hread⟩ := RawJson.exists_field_of_map? hparams he
    have hname : f.1 ∉ fieldNames := by simpa using (List.mem_filter.mp hf).2
    exact ⟨hkey ▸ hname, RawJson.canonical_of_value? hread⟩
  | _ => cases h

theorem ofRaw?_name (m : HttpMethod) : HttpMethod.ofRaw? (.str m.name) = some m := by
  cases m <;> rfl

section

variable {o : RequestOptions} (h : ∀ e ∈ o.params.entries, e.1 ∉ fieldNames)

include h

theorem ofFields?_own_append :
    Record.ofFields? fieldNames (o.ownFields ++ o.paramFields) = some ⟨o.ownFields⟩ := by
  have hparams : o.paramFields.filter (fun f => fieldNames.contains f.1) = [] := by
    rw [List.filter_eq_nil_iff, paramFields, List.forall_mem_map]
    simpa using h
  have hown : o.ownFields.filter (fun f => fieldNames.contains f.1) = o.ownFields := rfl
  have hnodup : (o.ownFields.map Prod.fst).Nodup := by
    simp [ownFields]
  rw [Record.ofFields?, List.filter_append, hown, hparams, List.append_nil]
  exact if_pos hnodup

theorem filter_own_append :
    (o.ownFields ++ o.paramFields).filter (fun f => !fieldNames.contains f.1) = o.paramFields := by
  have hparams : o.paramFields.filter (fun f => !fieldNames.contains f.1) = o.paramFields := by
    rw [List.filter_eq_self, paramFields, List.forall_mem_map]
    simpa using h
  have hown : o.ownFields.filter (fun f => !fieldNames.contains f.1) = [] := rfl
  rw [List.filter_append, hown, hparams, List.nil_append]

end

/-- The requests that are read back as they were written. -/
theorem ofRaw?_raw_eq_some_iff {o : RequestOptions} : ofRaw? o.raw = some o ↔ o.Storable := by
  refine ⟨storable_of_ofRaw?, fun h => ?_⟩
  have hnames : ∀ e ∈ o.params.entries, e.1 ∉ fieldNames := fun e he => (h e he).1
  have hparams : RawJson.map? RawJson.value? (.obj o.paramFields) = some o.params :=
    (RawJson.map?_write_eq_some_iff RawJson.value? Json.raw).mpr fun e he =>
      Json.value?_raw (h e he).2
  have hmethod : (Record.mk o.ownFields).optional "method" .get HttpMethod.ofRaw? =
      some o.method := ofRaw?_name o.method
  have hurl : (Record.mk o.ownFields).optional "url" "" RawJson.string? = some o.url := rfl
  simp only [raw_eq, ofRaw?, ofFields?_own_append hnames, filter_own_append hnames, hmethod, hurl,
    hparams, Option.bind_eq_bind, Option.bind_some]
  rfl

end RequestOptions

/-! ## Sources -/

theorem ResponseField.ofRaw?_raw (f : ResponseField) : ofRaw? f.raw = some f := rfl

namespace DataSource

/-- The sources that are read back as they were written. -/
theorem ofRaw?_raw_eq_some_iff {d : DataSource} : ofRaw? d.raw = some d ↔ d.options.Storable := by
  rw [← RequestOptions.ofRaw?_raw_eq_some_iff]
  have hfields : RawJson.list? ResponseField.ofRaw?
      (.arr (d.responseFields.map ResponseField.raw)) = some d.responseFields :=
    (RawJson.list?_write_eq_some_iff _ _).mpr fun f _ => f.ofRaw?_raw
  have hread : ofRaw? d.raw = (RequestOptions.ofRaw? d.options.raw).bind fun options =>
      (RawJson.list? ResponseField.ofRaw?
        (.arr (d.responseFields.map ResponseField.raw))).bind fun responseFields =>
          some ⟨d.id, d.label, options, responseFields⟩ := by
    obtain ⟨id, label, options, responseFields⟩ := d
    cases label <;> rfl
  rw [hread, hfields, Option.bind_eq_some_iff]
  constructor
  · rintro ⟨options, hoptions, hd⟩
    rw [hoptions, ← Option.some.inj hd]
  · intro h
    exact ⟨d.options, h, rfl⟩

theorem storable_of_ofRaw? {j : RawJson} {d : DataSource} (h : ofRaw? j = some d) :
    d.options.Storable := by
  simp only [ofRaw?, Option.bind_eq_bind, Option.bind_eq_some_iff] at h
  obtain ⟨r, -, id, -, label, -, options, hoptions, fields, -, hd⟩ := h
  obtain rfl := Option.some.inj hd
  rcases Record.exists_read_of_optional hoptions with ⟨j', hread⟩ | rfl
  · exact RequestOptions.storable_of_ofRaw? hread
  · exact RequestOptions.storable_empty

theorem list?_raw_eq_some_iff {ds : List DataSource} :
    RawJson.list? ofRaw? (.arr (ds.map raw)) = some ds ↔ ∀ d ∈ ds, d.options.Storable :=
  (RawJson.list?_write_eq_some_iff ofRaw? raw).trans
    (forall₂_congr fun _ _ => ofRaw?_raw_eq_some_iff)

end DataSource

/-! ## Catalogs -/

namespace Catalog

variable {c c' : Catalog}

/-- The requests of all sources are storable. -/
structure Storable (c : Catalog) : Prop where
  globals : ∀ d ∈ c.globals, d.options.Storable
  pages : ∀ page, ∀ d ∈ c.pageSources page, d.options.Storable

theorem forall_pageSources_iff {P : DataSource → Prop} :
    (∀ page, ∀ d ∈ c.pageSources page, P d) ↔ ∀ e ∈ c.pageSourceMap.entries, ∀ d ∈ e.2, P d := by
  constructor
  · intro h e he d hd
    refine h e.1 d ?_
    rw [pageSources, KeyMap.get?_eq_some_iff.mpr he]
    exact hd
  · intro h page d hd
    rw [pageSources] at hd
    cases hsources : c.pageSourceMap.get? page with
    | none => simp [hsources] at hd
    | some ds =>
      rw [hsources] at hd
      exact h (page, ds) (KeyMap.get?_eq_some_iff.mp hsources) d hd

theorem keySet?_keys (refs : KeySet) : keySet? (.arr (refs.keys.map .str)) = some refs := by
  have hkeys : RawJson.list? RawJson.string? (.arr (refs.keys.map .str)) = some refs.keys :=
    (RawJson.list?_write_eq_some_iff RawJson.string? .str).mpr fun _ _ => rfl
  rw [keySet?, hkeys, Option.map_some, KeySet.ofMembers_keys]

theorem storable_of_ofRaw? {j : RawJson} (h : ofRaw? j = some c) : c.Storable := by
  have hlist {d : RawJson} {ds : List DataSource}
      (hds : RawJson.list? DataSource.ofRaw? d = some ds) : ∀ d ∈ ds, d.options.Storable := by
    intro d hd
    obtain ⟨d', hread⟩ := RawJson.exists_read_of_list? hds hd
    exact DataSource.storable_of_ofRaw? hread
  simp only [ofRaw?, Option.bind_eq_bind, Option.bind_eq_some_iff] at h
  obtain ⟨r, -, globals, hglobals, pages, hpages, references, -, hc⟩ := h
  obtain rfl := Option.some.inj hc
  constructor
  · rcases Record.exists_read_of_optional hglobals with ⟨j', hread⟩ | rfl
    · exact hlist hread
    · exact nofun
  · rw [forall_pageSources_iff]
    rcases Record.exists_read_of_optional hpages with ⟨j', hread⟩ | rfl
    · intro e he
      obtain ⟨d', hds⟩ := RawJson.exists_read_of_map? hread he
      exact hlist hds
    · exact nofun

/-- The catalogs that are read back as they were written. -/
theorem ofRaw?_raw_eq_some_iff : ofRaw? c.raw = some c ↔ c.Storable := by
  refine ⟨storable_of_ofRaw?, fun h => ?_⟩
  have hglobals := DataSource.list?_raw_eq_some_iff.mpr h.globals
  have hpages := (RawJson.map?_write_eq_some_iff (RawJson.list? DataSource.ofRaw?)
    fun ds => .arr (ds.map DataSource.raw)).mpr fun e he =>
      DataSource.list?_raw_eq_some_iff.mpr (forall_pageSources_iff.mp h.pages e he)
  have hreferences := (RawJson.map?_write_eq_some_iff keySet?
    fun refs : KeySet => .arr (refs.keys.map .str)).mpr fun e (_ : e ∈ c.referenceMap.entries) =>
      keySet?_keys e.2
  have hread : ofRaw? c.raw =
      (RawJson.list? DataSource.ofRaw? (.arr (c.globals.map DataSource.raw))).bind fun globals =>
        (RawJson.map? (RawJson.list? DataSource.ofRaw?) (.obj (c.pageSourceMap.entries.map fun e =>
          (e.1, .arr (e.2.map DataSource.raw))))).bind fun pages =>
          (RawJson.map? keySet? (.obj (c.referenceMap.entries.map fun e =>
            (e.1, .arr (e.2.keys.map .str))))).bind fun references =>
            some ⟨globals, pages, references⟩ := rfl
  rw [hread, hglobals, hpages, hreferences]
  rfl

/-- A document is accepted if it denotes a catalog whose ids are sound. -/
theorem ofDocument_eq_ok_iff {j : RawJson} :
    ofDocument j = .ok c ↔ ofRaw? j = some c ∧ c.SoundSources := by
  rw [ofDocument]
  cases ofRaw? j with
  | none => simp
  | some c₀ => simpa using checkAll_eq_ok_iff

/-- The catalogs that are accepted as they were written. -/
theorem ofDocument_raw_eq_ok_iff : ofDocument c.raw = .ok c ↔ c.Storable ∧ c.SoundSources :=
  ofDocument_eq_ok_iff.trans (and_congr_left' ofRaw?_raw_eq_some_iff)

/-- What is accepted as a document is accepted as a text, if the document is read from its text. -/
theorem ofText_text (h : ofDocument c.raw = .ok c)
    (hparse : RawJson.parse? c.raw.pretty = some c.raw) : ofText c.text = .ok c := by
  rw [ofText, text, hparse]
  exact h

end Catalog

/-! ## Operations -/

/-- The sources that an operation adds. -/
def Edit.definitions : Edit → List DataSource
  | .addGlobal d => [d]
  | .setPageSources _ ds => ds
  | _ => []

namespace Catalog

variable {c c' : Catalog}

theorem storable_empty : empty.Storable := ⟨nofun, fun _ => nofun⟩

/-- Operations that add such sources keep to such sources. -/
theorem Storable.effect (h : c.Storable) (hids : SoundIds c.globals) {e : Edit} {answer : Answer}
    (hdefinitions : ∀ d ∈ e.definitions, d.options.Storable) (he : e.Effect c answer c') :
    c'.Storable := by
  cases he with
  | @added d hid =>
    refine ⟨fun x hx => ?_, h.pages⟩
    rcases (Keyed.mem_put hids.nodup).mp hx with rfl | ⟨hx, -⟩
    · exact hdefinitions x (List.mem_singleton_self x)
    · exact h.globals x hx
  | absent hnone => exact h
  | removed hremoved =>
    refine ⟨fun x hx => ?_, fun page => ?_⟩
    · rw [hremoved.globals_eq] at hx
      exact h.globals x (List.mem_of_mem_eraseP hx)
    · rw [pageSources_congr hremoved.pageSourceMap_eq]
      exact h.pages page
  | toggled htoggled =>
    refine ⟨htoggled.globals_eq ▸ h.globals, fun page => ?_⟩
    rw [pageSources_congr htoggled.pageSourceMap_eq]
    exact h.pages page
  | @replaced page ds hids =>
    refine ⟨h.globals, fun q => ?_⟩
    split
    · rw [pageSources_erase]
      split
      · exact nofun
      · exact h.pages q
    · rw [pageSources_insert]
      split
      · exact hdefinitions
      · exact h.pages q
  | @dropped page =>
    refine ⟨h.globals, fun q => ?_⟩
    have hq : (c.removePage page).pageSources q = if q = page then [] else c.pageSources q :=
      pageSources_erase c page q
    rw [hq]
    split
    · exact nofun
    · exact h.pages q

theorem storable_of_edits {edits : List Edit}
    (h : ∀ e ∈ edits, ∀ d ∈ e.definitions, d.options.Storable) :
    (History.ofEdits edits).catalog.Storable := by
  induction edits using List.reverseRecOn with
  | nil => exact storable_empty
  | append_singleton edits e ih =>
    obtain ⟨hedits, he⟩ := List.forall_mem_append.mp h
    have hbefore := ih hedits
    have hids := (consistent_of_edits edits).globals
    rw [History.ofEdits_concat, History.extend]
    rcases e.run_cases (History.ofEdits edits).catalog with
      ⟨answer, c', hrun, heffect⟩ | ⟨error, hrun⟩
    · rw [hrun]
      exact hbefore.effect hids (he e (List.mem_singleton_self e)) heffect
    · rw [hrun]
      exact hbefore

/-- **Catalogs survive being saved.** A catalog is accepted as it was written if its ids are sound
and no further parameter of a request has the name of another field, and only then. That is so of
whatever operations with such sources lead to, and of every source and every catalog that is read.
From its text such a catalog is read back wherever the text is read as the document it was printed
from. -/
theorem survives_saving :
    (∀ c : Catalog, ofDocument c.raw = .ok c ↔ c.Storable ∧ c.SoundSources) ∧
    (∀ edits : List Edit, (∀ e ∈ edits, ∀ d ∈ e.definitions, d.options.Storable) →
      ofDocument (History.ofEdits edits).catalog.raw = .ok (History.ofEdits edits).catalog) ∧
    (∀ (j : RawJson) (d : DataSource), DataSource.ofRaw? j = some d →
      d.options.Storable ∧ DataSource.ofRaw? d.raw = some d) ∧
    (∀ (j : RawJson) (c : Catalog), ofDocument j = .ok c → ofDocument c.raw = .ok c) ∧
    ∀ c : Catalog, ofDocument c.raw = .ok c → RawJson.parse? c.raw.pretty = some c.raw →
      ofText c.text = .ok c := by
  refine ⟨fun c => ofDocument_raw_eq_ok_iff, fun edits h => ?_, fun j d h => ?_, fun j c h => ?_,
    fun c => ofText_text⟩
  · exact ofDocument_raw_eq_ok_iff.mpr
      ⟨storable_of_edits h, (consistent_of_edits edits).toSoundSources⟩
  · have hstorable := DataSource.storable_of_ofRaw? h
    exact ⟨hstorable, DataSource.ofRaw?_raw_eq_some_iff.mpr hstorable⟩
  · obtain ⟨hread, hsound⟩ := ofDocument_eq_ok_iff.mp h
    exact ofDocument_raw_eq_ok_iff.mpr ⟨storable_of_ofRaw? hread, hsound⟩

/-- A labelled source with a nested parameter, and a page that refers to it. -/
def mockedEdits : List Edit :=
  [.addGlobal ((DataSource.new "u" ⟨.put, "/u", KeyMap.ofList [("mock", .arr [.null])]⟩).withLabel
    "U"), .toggleReference "p" "u"]

/-- A source of which nothing but the id is written. -/
def bareSource : RawJson := .obj [("id", .str "u")]

/-- A document without most of its sections. -/
def bareDocument : RawJson := .obj [("globals", .arr [bareSource])]

theorem survives_saving_mocked :
    (∀ e ∈ mockedEdits, ∀ d ∈ e.definitions, d.options.Storable) ∧
      RawJson.parse? (History.ofEdits mockedEdits).catalog.raw.pretty =
        some (History.ofEdits mockedEdits).catalog.raw ∧
      ofText (History.ofEdits mockedEdits).catalog.text =
        .ok (History.ofEdits mockedEdits).catalog ∧
      (∃ d, DataSource.ofRaw? bareSource = some d ∧ DataSource.ofRaw? d.raw = some d) ∧
      ∃ c, ofDocument bareDocument = .ok c ∧ ofDocument c.raw = .ok c := by
  have hdefinitions : ∀ e ∈ mockedEdits, ∀ d ∈ e.definitions, d.options.Storable := by
    have hparams : ∀ e ∈ [("mock", Json.arr [.null])],
        e.1 ∉ RequestOptions.fieldNames ∧ e.2.Canonical := by
      simp [RequestOptions.fieldNames, Json.Canonical, Json.CanonicalItems]
    intro e he d hd
    rcases List.mem_pair.mp he with rfl | rfl
    · obtain rfl := List.mem_singleton.mp hd
      exact hparams
    · cases hd
  have hparse : RawJson.parse? (History.ofEdits mockedEdits).catalog.raw.pretty =
      some (History.ofEdits mockedEdits).catalog.raw := by decide +kernel
  have hsource : DataSource.ofRaw? bareSource = some (DataSource.new "u" RequestOptions.empty) :=
    rfl
  have hdocument : ofDocument bareDocument =
      .ok { empty with globals := [DataSource.new "u" RequestOptions.empty] } := rfl
  obtain ⟨-, hedits, hread, hdocuments, htext⟩ := survives_saving
  exact ⟨hdefinitions, hparse, htext _ (hedits _ hdefinitions) hparse,
    ⟨_, hsource, (hread _ _ hsource).2⟩, _, hdocument, hdocuments _ _ hdocument⟩

end Catalog

end LivePage
