import LivePage.Proofs.Markup.Attributes
import LivePage.Proofs.Markup.Elements
import LivePage.Proofs.Render.Absence
import LivePage.Proofs.Render.Builtins

/-!
# Start tags

With the built-in renderers every component has one start tag. No name stands twice in it, unless
one of its properties has the name under which its id or its style is written.

* `Engine.startTag`: the attributes of a component's start tag, as they are read from the HTML.
* `Engine.startTags_render`: the start tags of a tree, and in which trees all names are distinct.
-/

namespace LivePage

/-- The root of a tree is visited. -/
theorem Component.mem_visited (c : Component) : c ∈ c.visited := by
  cases c
  rw [visited]
  exact List.mem_cons_self

namespace Engine

variable {evaluator : Evaluator} {ctx : Context} {c : Component}

/-! ## The start tag of a component -/

/-- The attributes of the start tag that stands for a component, as they are read from the HTML. -/
def startTag (evaluator : Evaluator) (ctx : Context) (c : Component) :
    List (String × Option String) :=
  match tag? c.type with
  | none =>
    [("class", some ("render-marker " ++ Html.markerClass .unknown)), ("data-node-id", some c.id)]
  | some _ => Html.attributes c.id (attributesOf evaluator ctx c) (styleOf evaluator ctx c)

/-- A property of a component has a value that is written if it becomes an attribute: any but null
and false. -/
def Shows (evaluator : Evaluator) (ctx : Context) (c : Component) (name : String) : Prop :=
  ∃ v, (input evaluator ctx c).props.value name = .json v ∧ v ≠ .null ∧ v ≠ .bool false

/-- A property of a component becomes an attribute of the name under which its id or its style is
written. -/
def Collides (evaluator : Evaluator) (ctx : Context) (c : Component) : Prop :=
  tag? c.type ≠ none ∧
    ((c.id ≠ "" ∧ Shows evaluator ctx c "data-node-id") ∨
      (Html.declarations (styleOf evaluator ctx c) ≠ [] ∧ Shows evaluator ctx c "style"))

theorem startTag_unregistered (h : tag? c.type = none) (evaluator : Evaluator) (ctx : Context) :
    startTag evaluator ctx c = [("class", some ("render-marker " ++ Html.markerClass .unknown)),
      ("data-node-id", some c.id)] := by
  rw [startTag, h]

theorem startTag_element (h : tag? c.type ≠ none) (evaluator : Evaluator) (ctx : Context) :
    startTag evaluator ctx c =
      Html.attributes c.id (attributesOf evaluator ctx c) (styleOf evaluator ctx c) := by
  obtain ⟨tag, ht⟩ := Option.ne_none_iff_exists'.mp h
  rw [startTag, ht]

/-- The names that the built-in renderers keep for themselves: they are left out of the attributes
or set by the renderer. -/
def ownNames : List String :=
  ["content", "type", "size", "plain", "disabled", "mode", "lazyLoad", "class", "loading"]

/-- Under any other safe name the element has the value of the property. -/
theorem get?_attributesOf {name : String} (hsafe : Html.isSafeAttr name = true)
    (hown : name ∉ ownNames) :
    (attributesOf evaluator ctx c).get? name = (input evaluator ctx c).props.jsonMap.get? name := by
  have hplain {skip : List String} (hskip : skip ⊆ ownNames) :
      ((input evaluator ctx c).attributes skip).get? name =
        (input evaluator ctx c).props.jsonMap.get? name := by
    have hname : name ∉ skip := fun h => hown (hskip h)
    rw [RenderInput.attributes, KeyMap.get?_filter]
    cases (input evaluator ctx c).props.jsonMap.get? name <;> simp [Option.filter, hname, hsafe]
  have hset {m : KeyMap Json} {key : String} {value : Json} (hkey : key ∈ ownNames) :
      (m.insert key value).get? name = m.get? name := by
    rw [KeyMap.get?_insert, if_neg]
    rintro rfl
    exact hown hkey
  unfold attributesOf RenderInput.imageAttributes RenderInput.buttonAttributes
  dsimp only
  repeat' split
  all_goals simp (disch := decide) only [hset, hplain]

/-- A property is written under a name that no renderer keeps for itself if the name is safe and the
property shows. -/
theorem mem_written_attributesOf_iff {name : String} (hown : name ∉ ownNames) :
    name ∈ (Html.written (attributesOf evaluator ctx c)).map Prod.fst ↔
      Html.isSafeAttr name = true ∧ Shows evaluator ctx c name := by
  rw [Html.mem_written_iff, Shows]
  refine and_congr_right fun hsafe => ?_
  rw [get?_attributesOf hsafe hown]
  simp only [Props.value_eq_json_iff]

/-- In the start tag of a component no name stands twice, unless a property collides with the id or
the style. -/
theorem nodup_startTag_iff :
    ((startTag evaluator ctx c).map Prod.fst).Nodup ↔ ¬Collides evaluator ctx c := by
  by_cases ht : tag? c.type = none
  · simp [startTag_unregistered ht, Collides, ht]
  · have hid : "data-node-id" ∈ (Html.written (attributesOf evaluator ctx c)).map Prod.fst ↔ _ :=
      mem_written_attributesOf_iff (by decide)
    have hstyle : "style" ∈ (Html.written (attributesOf evaluator ctx c)).map Prod.fst ↔ _ :=
      mem_written_attributesOf_iff (by decide)
    have hsafe : Html.isSafeAttr "data-node-id" = true ∧ Html.isSafeAttr "style" = true := by
      decide
    rw [startTag_element ht, Html.nodup_attributes_iff, hid, hstyle, Collides]
    simp only [ne_eq, ht, hsafe, not_false_eq_true, true_and, not_or, not_and]

/-! ## The start tags of a tree -/

theorem elementsAll_content (evaluator : Evaluator) (ctx : Context) (c : Component)
    (os : List Output) :
    Markup.elementsAll (Output.nodesAll (contentOf evaluator ctx c ++ os)) =
      Markup.elementsAll (Output.nodesAll os) := by
  have hcontent : Markup.elementsAll (Output.nodesAll (contentOf evaluator ctx c)) = [] := by
    unfold contentOf label RenderInput.label
    repeat' split
    all_goals simp [Output.nodes, Output.nodesAll, Markup.elements, Markup.elementsAll]
  rw [Output.nodesAll_append, Markup.elementsAll_append, hcontent, List.nil_append]

/-- The tags of the built-in renderers are proper ones, and void for images only. -/
theorem writtenTag_of_tag? {type tag : String} (h : tag? type = some tag) :
    (if Html.isTag tag then tag else "div") = tag ∧
      (Html.voidTags.contains tag = true ↔ type = "Image") := by
  rcases tag?_cases h with ⟨rfl, rfl⟩ | ⟨rfl, rfl⟩ | ⟨rfl, rfl⟩ | ⟨rfl, rfl⟩ | ⟨rfl, rfl⟩ <;>
    decide

/-- The start tag of a component's element comes before those of its children's outputs, where it
renders them. -/
theorem startTags_element {tag : String} (ht : tag? c.type = some tag) (evaluator : Evaluator)
    (ctx : Context) :
    (Markup.elementsAll (output evaluator ctx c).nodes).map Markup.attributes =
      startTag evaluator ctx c :: if c.type ∈ containerTypes then
        (Markup.elementsAll (Output.nodesAll (outputAll evaluator ctx c.children))).map
          Markup.attributes
      else [] := by
  obtain ⟨htag, hvoid⟩ := writtenTag_of_tag? ht
  have hsome : tag? c.type ≠ none := by
    rw [ht]
    exact Option.some_ne_none _
  rw [output_element ht, Output.nodes, htag, Markup.elementsAll, Markup.elements,
    Markup.elementsAll, List.append_nil, List.map_cons, Markup.attributes, startTag_element hsome]
  congr 1
  by_cases himage : c.type = "Image"
  · rw [if_pos (hvoid.mpr himage), if_neg (by rw [himage]; decide)]
    rfl
  · rw [if_neg (mt hvoid.mp himage), Markup.elementsAll_merge, elementsAll_content]
    split <;> rfl

theorem startTags_unregistered (ht : tag? c.type = none) (evaluator : Evaluator) (ctx : Context) :
    (Markup.elementsAll (output evaluator ctx c).nodes).map Markup.attributes =
      [startTag evaluator ctx c] := by
  rw [output_unregistered ht, unknownMarker, Output.nodes, startTag_unregistered ht]
  simp [Markup.elementsAll, Markup.elements, Markup.attributes, Markup.elementsAll_merge]

mutual

/-- The start tags of a tree's output are those of its visited components. -/
theorem startTags_output (evaluator : Evaluator) (ctx : Context) : ∀ c : Component,
    (Markup.elementsAll (output evaluator ctx c).nodes).map Markup.attributes =
      c.visited.map (startTag evaluator ctx)
  | ⟨id, type, props, style, children⟩ => by
    cases ht : tag? type with
    | none =>
      have hleaf : type ∉ containerTypes := by
        intro h
        simp only [containerTypes, List.mem_cons, List.not_mem_nil, or_false] at h
        rcases h with rfl | rfl | rfl <;> cases ht
      rw [Component.visited_leaf hleaf]
      exact startTags_unregistered ht evaluator ctx
    | some tag =>
      rw [startTags_element ht, Component.visited, startTags_outputAll evaluator ctx children]
      split <;> rfl

theorem startTags_outputAll (evaluator : Evaluator) (ctx : Context) : ∀ cs : List Component,
    (Markup.elementsAll (Output.nodesAll (outputAll evaluator ctx cs))).map Markup.attributes =
      (Component.visitedAll cs).map (startTag evaluator ctx)
  | [] => rfl
  | c :: cs => by
    rw [outputAll, Output.nodesAll, Markup.elementsAll_append, List.map_append,
      startTags_output evaluator ctx c, startTags_outputAll evaluator ctx cs,
      Component.visitedAll, List.map_append]

end

theorem startTags_normalForm (evaluator : Evaluator) (ctx : Context) (c : Component) :
    (Markup.elementsAll (output evaluator ctx c).normalForm).map Markup.attributes =
      c.visited.map (startTag evaluator ctx) := by
  rw [Output.normalForm, Markup.elementsAll_merge, startTags_output]

/-- **When the names in start tags are distinct.** With the built-in renderers, the start tags of
the HTML of a tree are those of its visited components. In all of them no name stands twice, exactly
if no visited component has a property that is written under the name of its id or of its style. A
browser takes the id of every component that has one, and the style as it was evaluated unless a
property has its name. -/
theorem startTags_render (evaluator : Evaluator) (catchPanics : Bool) (ctx : Context)
    (c : Component) :
    ∃ o reports ms, render ⟨Registry.builtins, evaluator, catchPanics⟩ ctx c = ⟨.ok o, reports⟩ ∧
      Markup.read o.toHtml = some ms ∧
      (Markup.elementsAll ms).map Markup.attributes = c.visited.map (startTag evaluator ctx) ∧
      ((∀ m ∈ Markup.elementsAll ms, (m.attributes.map Prod.fst).Nodup) ↔
        ∀ d ∈ c.visited, ¬Collides evaluator ctx d) ∧
      ∀ d ∈ c.visited, tag? d.type ≠ none →
        (d.id ≠ "" → Html.taken "data-node-id" (startTag evaluator ctx d) = some (some d.id)) ∧
        (Html.declarations (styleOf evaluator ctx d) ≠ [] →
          (∀ name, name.toLower = "style" → ¬Shows evaluator ctx d name) →
          Html.taken "style" (startTag evaluator ctx d) =
            some (some ("; ".intercalate (Html.declarations (styleOf evaluator ctx d))))) := by
  obtain ⟨reports, h⟩ :=
    @exists_render_builtins ⟨Registry.builtins, evaluator, catchPanics⟩ rfl ctx c
  have htags := startTags_normalForm evaluator ctx c
  refine ⟨_, reports, _, h, (Markup.reads_toHtml (output evaluator ctx c)).read_eq, htags, ?_, ?_⟩
  · have hall : (∀ m ∈ Markup.elementsAll (output evaluator ctx c).normalForm,
        (m.attributes.map Prod.fst).Nodup) ↔
        ∀ tag ∈ c.visited.map (startTag evaluator ctx), (tag.map Prod.fst).Nodup := by
      rw [← htags]
      simp only [List.forall_mem_map]
    exact hall.trans (by simp only [List.forall_mem_map, nodup_startTag_iff])
  · intro d _ ht
    rw [startTag_element ht]
    refine ⟨fun hid => Html.taken_dataNodeId hid _ _, fun hstyle hshows => ?_⟩
    refine Html.taken_style d.id (fun name hname hlower => ?_) hstyle
    have hown : ∀ own ∈ ownNames, own.toLower ≠ "style" := by decide +kernel
    rw [mem_written_attributesOf_iff fun hmem => hown name hmem hlower] at hname
    exact hshows name hlower hname.2

/-- A page whose style is both a property and a style entry. -/
def restyledPage : Component :=
  ((Component.new "page" "View").withProp "style" (.str "color: red")).withStyle "color"
    (.str "blue")

/-- There are trees with a start tag in which a name stands twice. -/
theorem not_forall_startTags_nodup :
    ¬∀ (ctx : Context) (c : Component) (o : Output) (reports : List Diagnostic) (ms : List Markup),
      render ⟨Registry.builtins, .path, true⟩ ctx c = ⟨.ok o, reports⟩ →
        Markup.read o.toHtml = some ms →
        ∀ m ∈ Markup.elementsAll ms, (m.attributes.map Prod.fst).Nodup := by
  intro h
  obtain ⟨reports, hrender⟩ :=
    @exists_render_builtins ⟨Registry.builtins, .path, true⟩ rfl .empty restyledPage
  have hall := h _ _ _ _ _ hrender (Markup.reads_toHtml (output .path .empty restyledPage)).read_eq
  have hmem : startTag .path .empty restyledPage ∈
      (Markup.elementsAll (output .path .empty restyledPage).normalForm).map Markup.attributes := by
    rw [startTags_normalForm]
    exact List.mem_map_of_mem (Component.mem_visited restyledPage)
  obtain ⟨m, hm, htag⟩ := List.mem_map.mp hmem
  have hnodup := hall m hm
  rw [htag] at hnodup
  revert hnodup
  decide +kernel

end Engine

end LivePage
