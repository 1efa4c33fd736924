import LivePage.Proofs.Markup.Elements
import LivePage.Proofs.Render.Builtins

/-!
# What the HTML shows

The text of an output is what is left of its HTML without the tags, and its markers are among the
elements of the HTML, provided that no element hides what it holds.

* `dropTags`: a text without its tags.
* `Output.Shown`: the outputs in which elements with void tags are empty.
* `ShowsText`: a stretch of HTML adds a text to what is shown, wherever it stands.
* `Output.MarkersAmong`: markers that are shown among elements, in their order.
* `Engine.visibleText_render`: what is shown of a tree with the built-in renderers.
-/

namespace LivePage

namespace Markup

/-- A text without its tags, from inside a tag or from outside: `<` begins a tag and `>` ends it. -/
def dropTags : Bool → List Char → List Char
  | _, [] => []
  | true, c :: cs => dropTags (c != '>') cs
  | false, c :: cs => if c = '<' then dropTags true cs else c :: dropTags false cs

theorem dropTags_inside {cs : List Char} (h : '>' ∉ cs) (rest : List Char) :
    dropTags true (cs ++ '>' :: rest) = dropTags false rest := by
  induction cs with
  | nil => rfl
  | cons c cs ih =>
    obtain ⟨hc, hcs⟩ := not_or.mp (mt List.mem_cons.mpr h)
    have hne : (c != '>') = true := by simpa using Ne.symm hc
    rw [List.cons_append, dropTags, hne]
    exact ih hcs

theorem dropTags_outside {cs : List Char} (h : '<' ∉ cs) (rest : List Char) :
    dropTags false (cs ++ rest) = cs ++ dropTags false rest := by
  induction cs with
  | nil => rfl
  | cons c cs ih =>
    obtain ⟨hc, hcs⟩ := not_or.mp (mt List.mem_cons.mpr h)
    rw [List.cons_append, dropTags, if_neg (Ne.symm hc), ih hcs, List.cons_append]

/-! ## Tags -/

theorem gt_not_mem_escape (s : String) : '>' ∉ (Html.escape s).toList := by
  intro h
  rw [toList_escape, List.mem_flatMap] at h
  obtain ⟨c, -, hc⟩ := h
  revert hc
  unfold Html.escapeChar
  repeat' split
  all_goals simp_all [eq_comm]

theorem IsName.gt_not_mem {name : String} (h : IsName name) : '>' ∉ name.toList := by
  obtain ⟨first, rest, hl, hall⟩ := h
  rw [hl]
  intro hmem
  exact absurd (hall '>' hmem) (by decide)

theorem gt_not_mem_valueAttr {name : String} (h : IsName name) (value : String) :
    '>' ∉ (Html.valueAttr name value).toList := by
  simp [Html.valueAttr, h.gt_not_mem, gt_not_mem_escape]

theorem gt_not_mem_attrText {name : String} (h : IsName name) (value : Json) :
    '>' ∉ (Html.attrText name value).toList := by
  cases value with
  | null => simp [Html.attrText]
  | bool b => cases b <;> simp [Html.attrText, h.gt_not_mem]
  | num n | str s | arr items | obj fields => exact gt_not_mem_valueAttr h _

/-- The attributes of a start tag do not end it. -/
theorem gt_not_mem_attributesHtml (nodeId : String) (attrs style : KeyMap Json) :
    '>' ∉ (attributesHtml nodeId attrs style).toList := by
  have hjoin (entries : List (String × Json)) (h : ∀ e ∈ entries, IsName e.1) :
      '>' ∉ (String.join (entries.map fun e => Html.attrText e.1 e.2)).toList := by
    induction entries with
    | nil => simp
    | cons e es ih =>
      obtain ⟨he, hes⟩ := List.forall_mem_cons.mp h
      rw [List.map_cons, String.join_cons, String.toList_append, List.mem_append, not_or]
      exact ⟨gt_not_mem_attrText he e.2, ih hes⟩
  have hsafe : ∀ e ∈ attrs.entries.filter (fun e => Html.isSafeAttr e.1), IsName e.1 :=
    fun e he => isName_of_isSafeAttr (List.mem_filter.mp he).2
  unfold attributesHtml
  rw [String.toList_append, String.toList_append, List.mem_append, List.mem_append, not_or, not_or]
  refine ⟨⟨?_, hjoin _ hsafe⟩, ?_⟩
  · split
    · simp
    · exact gt_not_mem_valueAttr isName_dataNodeId nodeId
  · split
    · simp
    · exact gt_not_mem_valueAttr isName_style _

/-! ## Stretches of HTML -/

/-- Where it stands outside tags, a stretch of HTML adds a text to what is shown and ends outside
tags. -/
def ShowsText (html text : String) : Prop :=
  ∀ rest, dropTags false (html.toList ++ rest) = (Html.escape text).toList ++ dropTags false rest

theorem ShowsText.nil : ShowsText "" "" := fun rest => by rw [toList_escape]; rfl

theorem ShowsText.append {html html' text text' : String} (h : ShowsText html text)
    (h' : ShowsText html' text') : ShowsText (html ++ html') (text ++ text') := by
  intro rest
  rw [String.toList_append, List.append_assoc, h, h', toList_escape_append, List.append_assoc]

theorem ShowsText.text (s : String) : ShowsText (Html.escape s) s :=
  dropTags_outside fun h => (ne_of_mem_escape h).1 rfl

/-- A tag adds nothing. -/
theorem ShowsText.tag {body : String} (h : '>' ∉ body.toList) :
    ShowsText ("<" ++ body ++ ">") "" := by
  intro rest
  have hs : ("<" ++ body ++ ">").toList ++ rest = '<' :: (body.toList ++ '>' :: rest) := by simp
  rw [hs, dropTags, if_pos rfl, dropTags_inside h, toList_escape]
  rfl

/-- An element adds what stands between its tags. -/
theorem ShowsText.element {tag html inner text : String} (ht : IsName tag)
    (ha : '>' ∉ html.toList) (hi : ShowsText inner text) :
    ShowsText ("<" ++ tag ++ html ++ ">" ++ inner ++ "</" ++ tag ++ ">") text := by
  have hstart : '>' ∉ (tag ++ html).toList := by simp [ht.gt_not_mem, ha]
  have hend : '>' ∉ ("/" ++ tag).toList := by simp [ht.gt_not_mem]
  have hclose : "</" = "<" ++ "/" := by decide
  have h := ((ShowsText.tag hstart).append hi).append (ShowsText.tag hend)
  simpa only [String.empty_append, String.append_empty, hclose, String.append_assoc] using h

/-- An element without content adds nothing. -/
theorem ShowsText.void {tag html : String} (ht : IsName tag) (ha : '>' ∉ html.toList) :
    ShowsText ("<" ++ tag ++ html ++ " />") "" := by
  have hbody : '>' ∉ (tag ++ html ++ " /").toList := by simp [ht.gt_not_mem, ha]
  have hend : " />" = " /" ++ ">" := by decide
  simpa only [hend, String.append_assoc] using ShowsText.tag hbody

end Markup

namespace Output

/-! ## Outputs that hide nothing -/

mutual

/-- No element of an output hides what it holds: those that are written with a void tag are
empty. -/
def Shown : Output → Prop
  | .element tag _ _ _ children =>
    (Html.voidTags.contains (if Html.isTag tag then tag else "div") = true → children = []) ∧
      ShownAll children
  | .fragment children => ShownAll children
  | .text _ => True
  | .marker _ _ _ => True
  | .empty => True

/-- No output of a row hides anything. -/
def ShownAll : List Output → Prop
  | [] => True
  | o :: os => o.Shown ∧ ShownAll os

end

theorem shownAll_append {os os' : List Output} (h : ShownAll os) (h' : ShownAll os') :
    ShownAll (os ++ os') := by
  induction os with
  | nil => exact h'
  | cons o os ih => exact ⟨h.1, ih h.2⟩

open Markup

mutual

/-- What the HTML of an output shows is its text. -/
theorem showsText_toHtml : ∀ {o : Output}, o.Shown → ShowsText o.toHtml o.textContent
  | .element tag id attrs style children, h => by
    have ht := isName_writtenTag tag
    have ha := gt_not_mem_attributesHtml id attrs style
    rw [toHtml_element, startTag_eq, textContent]
    by_cases hvoid : Html.voidTags.contains (if Html.isTag tag then tag else "div") = true
    -- the HTML leaves the children out, the text does not: they agree because there are none
    · rw [if_pos hvoid, h.1 hvoid]
      exact .void ht ha
    · rw [if_neg hvoid]
      exact .element ht ha (showsText_toHtmlAll h.2)
  | .text s, _ => .text s
  | .fragment children, h => showsText_toHtmlAll (show ShownAll children from h)
  | .marker kind id message, _ => by
    -- a marker is written as an element whose content is its message
    have ha : '>' ∉ (Html.valueAttr "class" ("render-marker " ++ Html.markerClass kind) ++
        Html.valueAttr "data-node-id" id).toList := by
      rw [String.toList_append, List.mem_append, not_or]
      exact ⟨gt_not_mem_valueAttr isName_class _, gt_not_mem_valueAttr isName_dataNodeId id⟩
    rw [toHtml_marker]
    exact .element isName_div ha (.text message)
  | .empty, _ => .nil

/-- What the HTML of a row of outputs shows is their text. -/
theorem showsText_toHtmlAll : ∀ {os : List Output}, ShownAll os →
    ShowsText (toHtmlAll os) (textContentAll os)
  | [], _ => .nil
  | _ :: _, h => (showsText_toHtml h.1).append (showsText_toHtmlAll h.2)

end

/-- The `div` in which a marker is shown; other outputs have none. -/
def markerDiv? : Output → Option Markup
  | .marker kind id message =>
    some (.element "div" [("class", some ("render-marker " ++ Html.markerClass kind)),
      ("data-node-id", some id)] (ofText message))
  | _ => none

/-- The markers `os` are shown among the elements `ms`, in their order. -/
def MarkersAmong (os : List Output) (ms : List Markup) : Prop :=
  ∃ divs : List Markup, os.map markerDiv? = divs.map some ∧ divs.Sublist ms

theorem MarkersAmong.nil (ms : List Markup) : MarkersAmong [] ms := ⟨[], rfl, ms.nil_sublist⟩

theorem MarkersAmong.append {os os' : List Output} {ms ms' : List Markup}
    (h : MarkersAmong os ms) (h' : MarkersAmong os' ms') :
    MarkersAmong (os ++ os') (ms ++ ms') := by
  obtain ⟨divs, hdivs, hsub⟩ := h
  obtain ⟨divs', hdivs', hsub'⟩ := h'
  exact ⟨divs ++ divs', by rw [List.map_append, List.map_append, hdivs, hdivs'],
    hsub.append hsub'⟩

theorem MarkersAmong.cons {os : List Output} {ms : List Markup} (h : MarkersAmong os ms)
    (m : Markup) : MarkersAmong os (m :: ms) := by
  obtain ⟨divs, hdivs, hsub⟩ := h
  exact ⟨divs, hdivs, hsub.cons m⟩

mutual

/-- The markers of an output are among the elements of its HTML. -/
theorem markersAmong_nodes : ∀ {o : Output}, o.Shown → MarkersAmong o.markers (elementsAll o.nodes)
  | .element tag id attrs style children, h => by
    rw [markers, nodes, elementsAll, elements, elementsAll, List.append_nil]
    refine .cons ?_ _
    by_cases hvoid : Html.voidTags.contains (if Html.isTag tag then tag else "div") = true
    · rw [h.1 hvoid]
      exact .nil _
    · rw [if_neg hvoid, elementsAll_merge]
      exact markersAmong_nodesAll h.2
  | .text _, _ => .nil _
  | .fragment children, h => markersAmong_nodesAll (show ShownAll children from h)
  | .marker kind id message, _ => by
    rw [nodes, elementsAll, elements, elementsAll_merge]
    exact ⟨_, rfl, List.Sublist.cons_cons _ (List.nil_sublist _)⟩
  | .empty, _ => .nil _

/-- The markers of a row of outputs are among the elements of their HTML. -/
theorem markersAmong_nodesAll : ∀ {os : List Output}, ShownAll os →
    MarkersAmong (markersAll os) (elementsAll (nodesAll os))
  | [], _ => .nil _
  | o :: os, h => by
    rw [markersAll, nodesAll, elementsAll_append]
    exact (markersAmong_nodes h.1).append (markersAmong_nodesAll h.2)

end

end Output

namespace Engine

/-! ## Trees with the built-in renderers -/

theorem shownAll_contentOf (evaluator : Evaluator) (ctx : Context) (c : Component) :
    Output.ShownAll (contentOf evaluator ctx c) := by
  unfold contentOf label RenderInput.label
  repeat' split
  all_goals simp [Output.Shown, Output.ShownAll]

/-- Images are the only elements with a void tag, and they are empty. -/
theorem content_eq_nil_of_void {c : Component} {tag : String} (ht : tag? c.type = some tag)
    (hvoid : Html.voidTags.contains (if Html.isTag tag then tag else "div") = true)
    (evaluator : Evaluator) (ctx : Context) (os : List Output) :
    (contentOf evaluator ctx c ++ if c.type ∈ containerTypes then os else []) = [] := by
  have htype : c.type = "Image" := by
    rcases tag?_cases ht with ⟨h, rfl⟩ | ⟨h, rfl⟩ | ⟨h, rfl⟩ | ⟨h, rfl⟩ | ⟨h, rfl⟩
    case inr.inr.inr.inl => exact h
    all_goals exact absurd hvoid (by decide)
  simp [contentOf, label, containerTypes, htype]

mutual

/-- The output of a tree hides nothing. -/
theorem shown_output (evaluator : Evaluator) (ctx : Context) :
    ∀ c : Component, (output evaluator ctx c).Shown
  | ⟨id, type, props, style, children⟩ => by
    cases ht : tag? type with
    | none =>
      rw [output_unregistered ht]
      trivial
    | some tag =>
      rw [output_element ht]
      refine ⟨fun hvoid => content_eq_nil_of_void ht hvoid evaluator ctx _,
        Output.shownAll_append (shownAll_contentOf evaluator ctx _) ?_⟩
      split
      · exact shownAll_outputAll evaluator ctx children
      · trivial

theorem shownAll_outputAll (evaluator : Evaluator) (ctx : Context) : ∀ cs : List Component,
    Output.ShownAll (outputAll evaluator ctx cs)
  | [] => trivial
  | c :: cs => ⟨shown_output evaluator ctx c, shownAll_outputAll evaluator ctx cs⟩

end

/-- **The text of an output is what its HTML shows.** With the built-in renderers, every tree has an
output. Its HTML without the tags, entities decoded, is its text; and the HTML is read as elements
among which each of its markers is a `div`, in the same order. -/
theorem visibleText_render (evaluator : Evaluator) (catchPanics : Bool) (ctx : Context)
    (c : Component) :
    ∃ o reports ms, render ⟨Registry.builtins, evaluator, catchPanics⟩ ctx c = ⟨.ok o, reports⟩ ∧
      Markup.decode (Markup.dropTags false o.toHtml.toList) = o.textContent.toList ∧
      Markup.read o.toHtml = some ms ∧ Output.MarkersAmong o.markers (Markup.elementsAll ms) := by
  obtain ⟨reports, h⟩ :=
    @exists_render_builtins ⟨Registry.builtins, evaluator, catchPanics⟩ rfl ctx c
  have hshown := shown_output evaluator ctx c
  refine ⟨_, reports, _, h, ?_, (Markup.reads_toHtml (output evaluator ctx c)).read_eq, ?_⟩
  · have htext := Output.showsText_toHtml hshown []
    rw [List.append_nil, Markup.dropTags, List.append_nil] at htext
    rw [htext, Markup.decode_escape]
  · rw [Markup.elementsAll_merge]
    exact Output.markersAmong_nodes hshown

end Engine

end LivePage
