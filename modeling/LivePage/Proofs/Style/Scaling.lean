import LivePage.Proofs.Render.Absence
import LivePage.Proofs.Style.ReadBack

/-!
# The scaling of images

The style of an image may set its scaling under two spellings of one property. The renderer derives
a scaling from the mode where the style has no `objectFit`, and writes it under that name; in key
order it stands behind `object-fit`.

* `Html.lookup_declared_reverse`: of several spellings of a property, the last one is declared last.
* `Engine.exists_scaling_render_image`: which scaling of an image is declared last.
-/

namespace LivePage

namespace Html

/-- The last declaration of a property is that of the last spelling that has a value. -/
theorem lookup_declared_reverse {style : KeyMap Json} {name : String} {v : Json}
    (hget : style.get? name = some v) (hv : v ≠ .null) (hname : isStyleProperty name = true)
    (hlast : ∀ other w, style.get? other = some w → w ≠ .null → kebab other = kebab name →
      ¬name < other) :
    KeyMap.lookup (kebab name) (declared style).reverse = some v.display := by
  obtain ⟨before, after, hentries⟩ := List.append_of_mem (KeyMap.get?_eq_some_iff.mp hget)
  have hafter : KeyMap.lookup (kebab name)
      ((after.filter isDeclared).map fun e => (kebab e.1, e.2.display)).reverse = none := by
    rw [KeyMap.lookup_eq_none_iff]
    simp only [List.map_reverse, List.map_map, List.mem_reverse, List.mem_map, List.mem_filter]
    rintro ⟨⟨other, w⟩, ⟨he, hdeclared⟩, hspelling⟩
    have hmem : (other, w) ∈ style.entries := by
      rw [hentries]
      exact List.mem_append_right _ (List.mem_cons_of_mem _ he)
    have hascending := style.ascending
    rw [hentries, List.pairwise_append, List.pairwise_cons] at hascending
    exact hlast other w (KeyMap.get?_eq_some_iff.mpr hmem) (isDeclared_iff.mp hdeclared).1 hspelling
      (hascending.2.1.1 _ he)
  have hdeclared := isDeclared_iff.mpr ⟨hv, hname⟩
  rw [declared, hentries, List.filter_append, List.filter_cons_of_pos hdeclared, List.map_append,
    List.map_cons, List.reverse_append, List.reverse_cons, List.append_assoc, KeyMap.lookup_append,
    hafter, Option.none_or, List.singleton_append, KeyMap.lookup, if_pos rfl]

/-- The two spellings of the scaling. -/
theorem kebab_eq_objectFit_iff {name : String} :
    kebab name = "object-fit" ↔ name = "object-fit" ∨ name = "objectFit" := by
  have hspellings :
      spellings "object-fit".toList = ["object-fit".toList, "objectFit".toList] := by
    decide +kernel
  rw [kebab_eq_iff, hspellings]
  simp only [List.mem_cons, List.not_mem_nil, or_false, String.toList_inj]

variable {style : KeyMap Json} {v : Json}

/-- `objectFit` is declared after `object-fit`. -/
theorem lookup_objectFit (hget : style.get? "objectFit" = some v) (hv : v ≠ .null) :
    KeyMap.lookup "object-fit" (declared style).reverse = some v.display := by
  have hkebab : kebab "objectFit" = "object-fit" := kebab_eq_objectFit_iff.mpr (.inr rfl)
  have hlast := lookup_declared_reverse hget hv (by decide) fun other _ _ _ hspelling => by
    rcases kebab_eq_objectFit_iff.mp (hspelling.trans hkebab) with rfl | rfl <;> decide
  rwa [hkebab] at hlast

/-- `object-fit` counts if `objectFit` is not declared. -/
theorem lookup_object_fit (hget : style.get? "object-fit" = some v) (hv : v ≠ .null)
    (hnone : ∀ w, style.get? "objectFit" = some w → w = .null) :
    KeyMap.lookup "object-fit" (declared style).reverse = some v.display := by
  have hkebab : kebab "object-fit" = "object-fit" := kebab_eq_objectFit_iff.mpr (.inl rfl)
  have hlast := lookup_declared_reverse hget hv (by decide) fun other w hw hne hspelling => by
    rcases kebab_eq_objectFit_iff.mp (hspelling.trans hkebab) with rfl | rfl
    · decide
    · exact absurd (hnone w hw) hne
  rwa [hkebab] at hlast

end Html

/-! ## Images -/

/-- The scaling that the mode of an image asks for. -/
def RenderInput.modeFit? (i : RenderInput) : Option String :=
  objectFit? ((i.props.string? "mode").getD "scaleToFill")

/-- A style sets the scaling of an image itself, in one of the spellings. -/
def Props.SetsScaling (style : Props) (fit : String) : Prop :=
  ∃ name v, Html.kebab name = "object-fit" ∧ style.value name = .json v ∧ v ≠ .null ∧
    v.display = fit

namespace RenderInput

variable {i : RenderInput}

/-- The mode adds its scaling to a style without `objectFit`, and nothing to any other. -/
theorem imageStyle_cases (i : RenderInput) :
    ((i.style.value "objectFit" = .undefined → i.modeFit? = none) ∧
      i.imageStyle = i.style.jsonMap) ∨
    ∃ fit, i.style.value "objectFit" = .undefined ∧ i.modeFit? = some fit ∧
      i.imageStyle = i.style.jsonMap.insert "objectFit" (.str fit) := by
  unfold imageStyle modeFit?
  cases i.style.value "objectFit" with
  | json v => exact .inl ⟨nofun, rfl⟩
  | undefined =>
    cases objectFit? ((i.props.string? "mode").getD "scaleToFill") with
    | none => exact .inl ⟨fun _ => rfl, rfl⟩
    | some fit => exact .inr ⟨fit, rfl, rfl, rfl⟩

/-- Unless the mode overrules it, the style of an image declares last what it sets itself. -/
theorem exists_lookup_jsonMap {style : Props} (hset : ∃ fit, style.SetsScaling fit) :
    ∃ fit, KeyMap.lookup "object-fit" (Html.declared style.jsonMap).reverse = some fit ∧
      style.SetsScaling fit := by
  by_cases hfit : ∃ v, style.jsonMap.get? "objectFit" = some v ∧ v ≠ .null
  · obtain ⟨v, hget, hv⟩ := hfit
    exact ⟨_, Html.lookup_objectFit hget hv, "objectFit", v,
      Html.kebab_eq_objectFit_iff.mpr (.inr rfl), Props.value_eq_json_iff.mpr hget, hv, rfl⟩
  · have hnone : ∀ w, style.jsonMap.get? "objectFit" = some w → w = .null :=
      fun w hw => by_contra fun hne => hfit ⟨w, hw, hne⟩
    obtain ⟨-, name, v, hname, hvalue, hv, -⟩ := hset
    have hget := Props.value_eq_json_iff.mp hvalue
    rcases Html.kebab_eq_objectFit_iff.mp hname with rfl | rfl
    · exact ⟨_, Html.lookup_object_fit hget hv hnone, "object-fit", v, hname, hvalue, hv, rfl⟩
    · exact absurd (hnone v hget) hv

/-- The scaling that is declared last is one that the style sets, unless the style has no
`objectFit` and the mode asks for a scaling: then it is this one. -/
theorem exists_lookup_imageStyle (hset : ∃ fit, i.style.SetsScaling fit) :
    ∃ fit, KeyMap.lookup "object-fit" (Html.declared i.imageStyle).reverse = some fit ∧
      ((i.style.value "objectFit" = .undefined → i.modeFit? = none) → i.style.SetsScaling fit) ∧
      (i.style.value "objectFit" = .undefined → ∀ derived, i.modeFit? = some derived →
        fit = derived) := by
  rcases i.imageStyle_cases with ⟨hmode, hstyle⟩ | ⟨derived, hvalue, hmode, hstyle⟩
  · obtain ⟨own, hlast, hsets⟩ := exists_lookup_jsonMap hset
    rw [hstyle]
    refine ⟨own, hlast, fun _ => hsets, fun hvalue derived hderived => ?_⟩
    rw [hmode hvalue] at hderived
    cases hderived
  · have hget : i.imageStyle.get? "objectFit" = some (.str derived) := by
      rw [hstyle, KeyMap.get?_insert, if_pos rfl]
    refine ⟨derived, Html.lookup_objectFit hget nofun, fun hnone => ?_, fun _ other hother => ?_⟩
    · rw [hnone hvalue] at hmode
      cases hmode
    · exact Option.some.inj (hmode.symm.trans hother)

theorem semicolon_not_mem_objectFit? {mode fit : String} (h : objectFit? mode = some fit) :
    ';' ∉ fit.toList := by
  unfold objectFit? at h
  split at h <;> cases h <;> decide

/-- The mode adds no semicolon. -/
theorem semicolon_not_mem_imageStyle
    (h : ∀ name v, i.style.value name = .json v → ';' ∉ v.display.toList) {name : String} {v : Json}
    (hget : i.imageStyle.get? name = some v) : ';' ∉ v.display.toList := by
  have hown {name : String} {v : Json} (hget : i.style.jsonMap.get? name = some v) :
      ';' ∉ v.display.toList := h name v (Props.value_eq_json_iff.mpr hget)
  rcases i.imageStyle_cases with ⟨-, hstyle⟩ | ⟨fit, -, hmode, hstyle⟩
  · rw [hstyle] at hget
    exact hown hget
  · rw [hstyle, KeyMap.get?_insert] at hget
    split at hget
    · obtain rfl := Option.some.inj hget
      exact semicolon_not_mem_objectFit? hmode
    · exact hown hget

end RenderInput

/-- The value of the last declaration of a property, where every semicolon ends a declaration. -/
def Style.last? (property css : String) : Option String :=
  KeyMap.lookup property (readWith (fun _ => true) css).reverse

namespace Engine

variable {engine : Engine} {ctx : Context} {c : Component}

theorem render_renderer_image (hg : engine.registry.get? c.type = some Renderer.image) :
    engine.render ctx c = ⟨.ok (.element "img" c.id (input engine.evaluator ctx c).imageAttributes
      (input engine.evaluator ctx c).imageStyle []), propReports engine.evaluator ctx c⟩ := by
  rw [render_eq, visit_returns hg (Renderer.image_eq _)]
  rfl

/-- What is read of the HTML of an image. -/
theorem read_image (nodeId : String) (attrs style : KeyMap Json) :
    Markup.read (Output.element "img" nodeId attrs style []).toHtml =
      some [.element "img" (Html.attributes nodeId attrs .empty ++
        (Html.styleAttribute? style).toList.map fun css => ("style", some css)) []] :=
  Style.read_element "img" nodeId attrs style []

/-- **Which scaling of an image counts.** The style attribute of an image whose style sets its
scaling, under any spelling, and none of whose values holds a semicolon, has a last declaration of
its scaling. It is one that the style sets, if the style has `objectFit` or the mode asks for no
scaling; but if the style has only another spelling, the one that the mode asks for. -/
theorem exists_scaling_render_image (hg : engine.registry.get? c.type = some Renderer.image)
    (hset : ∃ fit, (input engine.evaluator ctx c).style.SetsScaling fit)
    (hvalues : ∀ name v, (input engine.evaluator ctx c).style.value name = .json v →
      ';' ∉ v.display.toList) :
    ∃ o reports attributes css fit, engine.render ctx c = ⟨.ok o, reports⟩ ∧
      Markup.read o.toHtml = some [.element "img" (attributes ++ [("style", some css)]) []] ∧
      Style.last? "object-fit" css = some fit ∧
      (((input engine.evaluator ctx c).style.value "objectFit" = .undefined →
        (input engine.evaluator ctx c).modeFit? = none) →
        (input engine.evaluator ctx c).style.SetsScaling fit) ∧
      ((input engine.evaluator ctx c).style.value "objectFit" = .undefined →
        ∀ derived, (input engine.evaluator ctx c).modeFit? = some derived → fit = derived) := by
  obtain ⟨fit, hlast, hown, hmode⟩ := RenderInput.exists_lookup_imageStyle hset
  have hread := Html.readWith_styleText_of_forall fun d hd => by
    obtain ⟨e, he, rfl⟩ := List.mem_map.mp hd
    exact RenderInput.semicolon_not_mem_imageStyle hvalues
      (KeyMap.get?_eq_some_iff.mpr (List.mem_filter.mp he).1)
  have hne : Html.declarations (input engine.evaluator ctx c).imageStyle ≠ [] := by
    rw [Html.declarations_eq]
    intro hnil
    rw [List.map_eq_nil_iff.mp hnil] at hlast
    cases hlast
  have himage := read_image c.id (input engine.evaluator ctx c).imageAttributes
    (input engine.evaluator ctx c).imageStyle
  rw [Html.styleAttribute?, if_neg hne] at himage
  exact ⟨_, _, _, _, fit, render_renderer_image hg, himage, by rw [Style.last?, hread, hlast],
    hown, hmode⟩

/-- An image with a scaling in its style, under the given spelling, and another one as its mode. -/
def scaledImage (spelling : String) : Component :=
  ((Component.new "photo" "Image").withProp "mode" (.str "aspectFit")).withStyle spelling
    (.str "cover")

theorem value_scaledImage_iff {spelling name : String} {v : Json} :
    (input .path .empty (scaledImage spelling)).style.value name = .json v ↔
      name = spelling ∧ v = .str "cover" := by
  have hentries : (input .path .empty (scaledImage spelling)).style.jsonMap.entries =
      [(spelling, .str "cover")] := rfl
  rw [Props.value_eq_json_iff, KeyMap.get?_eq_some_iff, hentries, List.mem_singleton,
    Prod.mk.injEq]

theorem semicolon_not_mem_scaledImage {spelling : String} (name : String) (v : Json)
    (h : (input .path .empty (scaledImage spelling)).style.value name = .json v) :
    ';' ∉ v.display.toList := by
  rw [(value_scaledImage_iff.mp h).2]
  decide

theorem setsScaling_scaledImage_iff {spelling fit : String}
    (hspelling : Html.kebab spelling = "object-fit") :
    (input .path .empty (scaledImage spelling)).style.SetsScaling fit ↔ fit = "cover" := by
  constructor
  · rintro ⟨name, v, -, hvalue, -, rfl⟩
    rw [(value_scaledImage_iff.mp hvalue).2]
    rfl
  · rintro rfl
    exact ⟨spelling, .str "cover", hspelling, value_scaledImage_iff.mpr ⟨rfl, rfl⟩, nofun, rfl⟩

/-- The scaling that `objectFit` sets counts. -/
theorem scaling_render_objectFit :
    ∃ o reports attributes css,
      render ⟨Registry.builtins, .path, true⟩ .empty (scaledImage "objectFit") = ⟨.ok o, reports⟩ ∧
      Markup.read o.toHtml = some [.element "img" (attributes ++ [("style", some css)]) []] ∧
      Style.last? "object-fit" css = some "cover" := by
  have hspelling : Html.kebab "objectFit" = "object-fit" := by decide
  have hvalue : (input .path .empty (scaledImage "objectFit")).style.value "objectFit" =
      .json (.str "cover") := value_scaledImage_iff.mpr ⟨rfl, rfl⟩
  obtain ⟨o, reports, attributes, css, fit, hrender, hread, hlast, hown, -⟩ :=
    @exists_scaling_render_image ⟨Registry.builtins, .path, true⟩ .empty
      (scaledImage "objectFit") rfl ⟨"cover", (setsScaling_scaledImage_iff hspelling).mpr rfl⟩
      semicolon_not_mem_scaledImage
  have hfit := hown fun hnone => by
    rw [hvalue] at hnone
    cases hnone
  rw [(setsScaling_scaledImage_iff hspelling).mp hfit] at hlast
  exact ⟨o, reports, attributes, css, hrender, hread, hlast⟩

/-- There are images for which the mode overrules the scaling that their style sets. -/
theorem not_forall_setsScaling :
    ¬∀ (engine : Engine) (ctx : Context) (c : Component),
      engine.registry.get? c.type = some Renderer.image →
      (∃ fit, (input engine.evaluator ctx c).style.SetsScaling fit) →
      (∀ name v, (input engine.evaluator ctx c).style.value name = .json v →
        ';' ∉ v.display.toList) →
      ∀ o reports attributes css, engine.render ctx c = ⟨.ok o, reports⟩ →
        Markup.read o.toHtml = some [.element "img" (attributes ++ [("style", some css)]) []] →
        ∃ fit, Style.last? "object-fit" css = some fit ∧
          (input engine.evaluator ctx c).style.SetsScaling fit := by
  intro h
  have hspelling : Html.kebab "object-fit" = "object-fit" := by decide
  have hg : (⟨Registry.builtins, .path, true⟩ : Engine).registry.get?
      (scaledImage "object-fit").type = some Renderer.image := rfl
  have hcss : Html.styleAttribute? (input .path .empty (scaledImage "object-fit")).imageStyle =
      some "object-fit: cover; object-fit: contain" := by decide +kernel
  have hread := read_image (scaledImage "object-fit").id
    (input .path .empty (scaledImage "object-fit")).imageAttributes
    (input .path .empty (scaledImage "object-fit")).imageStyle
  rw [hcss] at hread
  obtain ⟨fit, hlast, hsets⟩ := h ⟨Registry.builtins, .path, true⟩ .empty
    (scaledImage "object-fit") hg ⟨"cover", (setsScaling_scaledImage_iff hspelling).mpr rfl⟩
    semicolon_not_mem_scaledImage _ _ _ _ (render_renderer_image hg) hread
  rw [(setsScaling_scaledImage_iff hspelling).mp hsets] at hlast
  revert hlast
  decide +kernel

end Engine

end LivePage
