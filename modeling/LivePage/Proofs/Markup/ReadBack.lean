import LivePage.Output.Html
import LivePage.Proofs.Markup.Reader

/-!
# Reading HTML back

The plain reader of markup recovers from the HTML of an output what the output holds, so no text,
name or value can begin or end markup.

* `Output.nodes`: the elements and texts of an output, fragments flattened.
* `Output.normalForm`: the same with adjacent texts joined and empty ones dropped.
* `Reads`: a stretch of HTML makes the reader add certain nodes, wherever it stands.
* `read_toHtml`: the HTML of an output is read as its normal form.
-/

namespace LivePage

namespace Markup

/-- Nodes after a text: texts that follow each other are joined, and an empty text is dropped. -/
def mergeAfter (before : String) : List Markup → List Markup
  | [] => ofText before
  | .text s :: ms => mergeAfter (before ++ s) ms
  | .element name attributes children :: ms =>
    ofText before ++ .element name attributes children :: mergeAfter "" ms

/-- Nodes with adjacent texts joined and empty ones dropped. -/
def merge : List Markup → List Markup := mergeAfter ""

end Markup

namespace Html

/-- An attribute as it is read: true has no value, and false and null are no attributes. -/
def attribute? (name : String) : Json → Option (String × Option String)
  | .bool true => some (name, none)
  | .bool false => none
  | .null => none
  | value => some (name, some value.display)

/-- Whether a style entry is written. -/
def isDeclared : String × Json → Bool
  | (_, .null) => false
  | (name, _) => isStyleProperty name

/-- The declarations of a style: those that are not null and whose names are properties, in key
order. -/
def declarations (style : KeyMap Json) : List String :=
  (style.entries.filter isDeclared).map fun e => kebab e.1 ++ ": " ++ e.2.display

/-- The attributes of an element: its component's id if there is one, the attributes with safe names
in key order, and the declarations of its style if there are any. -/
def attributes (nodeId : String) (attrs style : KeyMap Json) : List (String × Option String) :=
  (if nodeId = "" then [] else [("data-node-id", some nodeId)]) ++
    (attrs.entries.filter fun e => isSafeAttr e.1).filterMap (fun e => attribute? e.1 e.2) ++
    (if declarations style = [] then []
      else [("style", some ("; ".intercalate (declarations style)))])

end Html

namespace Output

mutual

/-- The nodes that an output stands for. An element without a proper tag is a `div`, and one with a
void tag has no content; a marker is a `div` with its class, its component's id and its message. -/
def nodes : Output → List Markup
  | .element tag id attrs style children =>
    let name := if Html.isTag tag then tag else "div"
    [.element name (Html.attributes id attrs style)
      (if Html.voidTags.contains name then [] else Markup.merge (nodesAll children))]
  | .text s => [.text s]
  | .fragment children => nodesAll children
  | .marker kind id message =>
    [.element "div" [("class", some ("render-marker " ++ Html.markerClass kind)),
      ("data-node-id", some id)] (Markup.merge [.text message])]
  | .empty => []

/-- The nodes of a row of outputs. -/
def nodesAll : List Output → List Markup
  | [] => []
  | o :: os => o.nodes ++ nodesAll os

end

/-- The normal form of an output: its nodes, adjacent texts joined and empty ones dropped. -/
def normalForm (o : Output) : List Markup := Markup.merge o.nodes

end Output

namespace Markup

open Reading

/-! ## Escaping -/

theorem decode_escapeChar (c : Char) (cs : List Char) :
    decode (Html.escapeChar c ++ cs) = c :: decode cs := by
  by_cases hamp : c = '&'
  · subst hamp; rfl
  by_cases hlt : c = '<'
  · subst hlt; rfl
  by_cases hgt : c = '>'
  · subst hgt; rfl
  by_cases hquot : c = '\x22'
  · subst hquot; rfl
  have hc : Html.escapeChar c = [c] := by simp [Html.escapeChar, hamp, hlt, hgt, hquot]
  rw [hc, List.singleton_append, decode.eq_def]
  split <;> simp_all

theorem toList_escape (s : String) : (Html.escape s).toList = s.toList.flatMap Html.escapeChar :=
  String.toList_ofList

/-- Decoding undoes escaping. -/
theorem decode_escape (s : String) : decode (Html.escape s).toList = s.toList := by
  rw [toList_escape]
  induction s.toList with
  | nil => rfl
  | cons c cs ih => rw [List.flatMap_cons, decode_escapeChar, ih]

theorem toList_escape_append (s t : String) :
    (Html.escape (s ++ t)).toList = (Html.escape s).toList ++ (Html.escape t).toList := by
  simp only [toList_escape, String.toList_append, List.flatMap_append]

theorem not_mem_escapeChar (c : Char) : '<' ∉ Html.escapeChar c ∧ '\x22' ∉ Html.escapeChar c := by
  unfold Html.escapeChar
  repeat' split
  all_goals simp_all [eq_comm]

/-- No character of an escaped text begins a tag or ends a value. -/
theorem ne_of_mem_escape {s : String} {c : Char} (h : c ∈ (Html.escape s).toList) :
    c ≠ '<' ∧ c ≠ '\x22' := by
  rw [toList_escape, List.mem_flatMap] at h
  obtain ⟨d, -, hc⟩ := h
  constructor
  · rintro rfl; exact (not_mem_escapeChar d).1 hc
  · rintro rfl; exact (not_mem_escapeChar d).2 hc

theorem ofText_decode_escape (s : String) :
    ofText (String.ofList (decode (Html.escape s).toList)) = ofText s := by
  rw [decode_escape, String.ofList_toList]

/-! ## Names -/

/-- A word that the reader takes as one name. -/
def IsName (name : String) : Prop :=
  ∃ first rest, name.toList = first :: rest ∧ ∀ c ∈ first :: rest, isNameChar c = true

theorem isNameChar_of_isAlphanum {c : Char} (h : c.isAlphanum = true) : isNameChar c = true := by
  have hne : ∀ d : Char, d.isAlphanum = false → c ≠ d := by
    rintro d hd rfl
    exact absurd h (by simp [hd])
  simp [isNameChar, isBlank, hne]

theorem isNameChar_of_isAlpha {c : Char} (h : c.isAlpha = true) : isNameChar c = true :=
  isNameChar_of_isAlphanum (by simp [Char.isAlphanum, h])

theorem isName_of_isSafeAttr {name : String} (h : Html.isSafeAttr name = true) : IsName name := by
  unfold Html.isSafeAttr at h
  split at h
  · simp at h
  · rename_i first rest hl
    simp only [Bool.and_eq_true, Bool.or_eq_true, List.all_eq_true, beq_iff_eq] at h
    obtain ⟨⟨hf, hr⟩, -⟩ := h
    refine ⟨first, rest, hl, fun c hc => ?_⟩
    rcases List.mem_cons.1 hc with rfl | hc
    · rcases hf with (hf | rfl) | rfl
      · exact isNameChar_of_isAlpha hf
      · decide
      · decide
    · rcases hr c hc with (((hc | rfl) | rfl) | rfl) | rfl
      · exact isNameChar_of_isAlphanum hc
      all_goals decide

theorem isName_of_isTag {tag : String} (h : Html.isTag tag = true) : IsName tag := by
  unfold Html.isTag at h
  split at h
  · simp at h
  · rename_i first rest hl
    simp only [Bool.and_eq_true, List.all_eq_true, Bool.or_eq_true, beq_iff_eq] at h
    refine ⟨first, rest, hl, fun c hc => ?_⟩
    rcases List.mem_cons.1 hc with rfl | hc
    · exact isNameChar_of_isAlpha h.1
    · rcases h.2 c hc with hc | rfl
      · exact isNameChar_of_isAlphanum hc
      · decide

/-! ## Attributes -/

/-- A stretch of a start tag adds attributes to it. -/
def ReadsAttributes (html : String) (attributes : List (String × Option String)) : Prop :=
  ∀ mode tag nodes frames, InTag mode tag → ∃ mode',
    run ⟨mode, nodes, frames⟩ html.toList = some ⟨mode', nodes, frames⟩ ∧
      InTag mode' ⟨tag.name, tag.attributes ++ attributes⟩

theorem ReadsAttributes.nil : ReadsAttributes "" [] := by
  intro mode tag nodes frames h
  exact ⟨mode, rfl, by simpa using h⟩

theorem ReadsAttributes.append {html₁ html₂ : String} {as₁ as₂ : List (String × Option String)}
    (h₁ : ReadsAttributes html₁ as₁) (h₂ : ReadsAttributes html₂ as₂) :
    ReadsAttributes (html₁ ++ html₂) (as₁ ++ as₂) := by
  intro mode tag nodes frames h
  obtain ⟨mode₁, hr₁, hm₁⟩ := h₁ mode tag nodes frames h
  obtain ⟨mode₂, hr₂, hm₂⟩ := h₂ mode₁ _ nodes frames hm₁
  exact ⟨mode₂, run_trans_toList hr₁ hr₂, by simpa using hm₂⟩

/-- A bare name is an attribute without a value. -/
theorem readsAttributes_name {name : String} (hn : IsName name) :
    ReadsAttributes (" " ++ name) [(name, none)] := by
  intro mode tag nodes frames h
  obtain ⟨first, rest, hl, hall⟩ := hn
  refine ⟨.key tag (first :: rest), ?_, .inr (.inr ⟨tag, first :: rest, rfl, ?_⟩)⟩
  · rw [String.toList_append, hl]
    exact h.run_key (hall first List.mem_cons_self) fun c hc => hall c (List.mem_cons_of_mem _ hc)
  · rw [← hl, Tag.add, String.ofList_toList]

/-- A name and an escaped value in quotes are an attribute with that value. -/
theorem readsAttributes_valueAttr {name : String} (hn : IsName name) (value : String) :
    ReadsAttributes (Html.valueAttr name value) [(name, some value)] := by
  intro mode tag nodes frames h
  obtain ⟨first, rest, hl, hall⟩ := hn
  refine ⟨.between (tag.add (first :: rest) (some value)), ?_, .inr (.inl ?_)⟩
  · have hs : (Html.valueAttr name value).toList =
        (' ' :: first :: rest) ++ (['=', '\x22'] ++ ((Html.escape value).toList ++ ['\x22'])) := by
      simp [Html.valueAttr, hl]
    rw [hs]
    refine run_trans (h.run_key (hall first List.mem_cons_self)
      fun c hc => hall c (List.mem_cons_of_mem _ hc)) ?_
    have hopen : run ⟨.key tag (first :: rest), nodes, frames⟩ ['=', '\x22'] =
        some ⟨.value tag (first :: rest) [], nodes, frames⟩ := rfl
    refine run_trans hopen ?_
    refine run_trans (run_value tag _ [] fun c hc => (ne_of_mem_escape hc).2) ?_
    rw [List.nil_append, run_cons]
    simp [step, decode_escape]
  · rw [← hl, Tag.add, String.ofList_toList]

/-- Each attribute is written as it is read. -/
theorem readsAttributes_attrText {name : String} (hn : IsName name) (value : Json) :
    ReadsAttributes (Html.attrText name value) (Html.attribute? name value).toList := by
  cases value with
  | null => exact .nil
  | bool b =>
    cases b with
    | false => exact .nil
    | true => exact readsAttributes_name hn
  | num n => exact readsAttributes_valueAttr hn _
  | str s => exact readsAttributes_valueAttr hn _
  | arr items => exact readsAttributes_valueAttr hn _
  | obj fields => exact readsAttributes_valueAttr hn _

theorem readsAttributes_entries {entries : List (String × Json)}
    (h : ∀ e ∈ entries, IsName e.1) :
    ReadsAttributes (String.join (entries.map fun e => Html.attrText e.1 e.2))
      (entries.filterMap fun e => Html.attribute? e.1 e.2) := by
  induction entries with
  | nil => exact .nil
  | cons e es ih =>
    have he := readsAttributes_attrText (h e List.mem_cons_self) e.2
    have hes := ih fun d hd => h d (List.mem_cons_of_mem _ hd)
    have := he.append hes
    rw [List.map_cons, String.join_cons]
    cases ha : Html.attribute? e.1 e.2 <;> simpa [ha] using this

/-- The style is declared entry by entry. -/
theorem filterMap_declaration? (entries : List (String × Json)) :
    entries.filterMap (fun e => Html.declaration? e.1 e.2) =
      (entries.filter Html.isDeclared).map fun e => Html.kebab e.1 ++ ": " ++ e.2.display := by
  induction entries with
  | nil => rfl
  | cons e es ih =>
    obtain ⟨name, value⟩ := e
    rw [List.filterMap_cons, List.filter_cons, ih]
    cases value <;> cases hp : Html.isStyleProperty name <;>
      simp [Html.declaration?, Html.isDeclared, hp]

theorem styleText_eq (style : KeyMap Json) :
    Html.styleText style = "; ".intercalate (Html.declarations style) := by
  rw [Html.styleText, filterMap_declaration?, Html.declarations]

/-- A style text is empty only if nothing is declared. -/
theorem styleText_eq_empty_iff (style : KeyMap Json) :
    Html.styleText style = "" ↔ Html.declarations style = [] := by
  rw [styleText_eq]
  constructor
  · intro h
    cases hd : Html.declarations style with
    | nil => rfl
    | cons d ds =>
      have hmem : d ∈ Html.declarations style := by rw [hd]; exact List.mem_cons_self
      rw [Html.declarations, List.mem_map] at hmem
      obtain ⟨e, -, rfl⟩ := hmem
      rw [hd] at h
      have := congrArg String.toList h
      cases ds <;> simp [String.toList_intercalate] at this
  · intro h
    rw [h]; rfl

/-- What stands in a start tag after its name. -/
def attributesHtml (nodeId : String) (attrs style : KeyMap Json) : String :=
  (if nodeId.isEmpty then "" else Html.valueAttr "data-node-id" nodeId) ++
    String.join ((attrs.entries.filter fun e => Html.isSafeAttr e.1).map
      fun e => Html.attrText e.1 e.2) ++
    if (Html.styleText style).isEmpty then "" else Html.valueAttr "style" (Html.styleText style)

theorem startTag_eq (tag nodeId : String) (attrs style : KeyMap Json) :
    Html.startTag tag nodeId attrs style = "<" ++ tag ++ attributesHtml nodeId attrs style := by
  simp [Html.startTag, attributesHtml, String.append_assoc]

theorem isName_dataNodeId : IsName "data-node-id" :=
  ⟨'d', "ata-node-id".toList, rfl, List.all_eq_true.mp rfl⟩

theorem isName_style : IsName "style" :=
  ⟨'s', "tyle".toList, rfl, List.all_eq_true.mp rfl⟩

theorem isName_class : IsName "class" :=
  ⟨'c', "lass".toList, rfl, List.all_eq_true.mp rfl⟩

theorem readsAttributes_attributesHtml (nodeId : String) (attrs style : KeyMap Json) :
    ReadsAttributes (attributesHtml nodeId attrs style) (Html.attributes nodeId attrs style) := by
  unfold attributesHtml Html.attributes
  refine .append (.append ?_ ?_) ?_
  · by_cases h : nodeId = ""
    · simpa [h] using ReadsAttributes.nil
    · simpa [h] using readsAttributes_valueAttr isName_dataNodeId nodeId
  · refine readsAttributes_entries fun e he => ?_
    exact isName_of_isSafeAttr (List.mem_filter.1 he).2
  · have hs := styleText_eq_empty_iff style
    by_cases h : Html.declarations style = []
    · simpa [h, hs.2 h] using ReadsAttributes.nil
    · have hne : Html.styleText style ≠ "" := fun he => h (hs.1 he)
      simp only [String.isEmpty_iff, hne, h, ↓reduceIte]
      rw [← styleText_eq]
      exact readsAttributes_valueAttr isName_style _

/-! ## Nodes -/

/-- A stretch of HTML adds nodes where it stands. The text before it may go on into it, and its own
last text beyond it; `done` are the nodes that are complete once it is read. -/
def Reads (html : String) (ms : List Markup) : Prop :=
  ∀ before nodes frames, ∃ done after,
    run ⟨.text (Html.escape before).toList, nodes, frames⟩ html.toList =
        some ⟨.text (Html.escape after).toList, nodes ++ done, frames⟩ ∧
      ∀ rest, mergeAfter before (ms ++ rest) = done ++ mergeAfter after rest

theorem Reads.nil : Reads "" [] := by
  intro before nodes frames
  exact ⟨[], before, by simp, fun rest => rfl⟩

theorem Reads.append {html₁ html₂ : String} {ms₁ ms₂ : List Markup} (h₁ : Reads html₁ ms₁)
    (h₂ : Reads html₂ ms₂) : Reads (html₁ ++ html₂) (ms₁ ++ ms₂) := by
  intro before nodes frames
  obtain ⟨done₁, mid, hr₁, hm₁⟩ := h₁ before nodes frames
  obtain ⟨done₂, after, hr₂, hm₂⟩ := h₂ mid (nodes ++ done₁) frames
  refine ⟨done₁ ++ done₂, after, ?_, fun rest => ?_⟩
  · rw [← List.append_assoc]
    exact run_trans_toList hr₁ hr₂
  · rw [List.append_assoc, hm₁, hm₂, List.append_assoc]

/-- Escaped text goes on with the text before it. -/
theorem Reads.text (s : String) : Reads (Html.escape s) [.text s] := by
  intro before nodes frames
  refine ⟨[], before ++ s, ?_, fun rest => rfl⟩
  rw [run_text _ fun c hc => (ne_of_mem_escape hc).1, toList_escape_append, List.append_nil]

/-- The beginning of a tag ends the text before it. -/
theorem run_tagName {tag : String} (ht : IsName tag) (before : String) (nodes : List Markup)
    (frames : List Frame) :
    run ⟨.text (Html.escape before).toList, nodes, frames⟩ ("<" ++ tag).toList =
      some ⟨.startName tag.toList, nodes ++ ofText before, frames⟩ := by
  obtain ⟨first, rest, hl, hall⟩ := ht
  have hf := hall first List.mem_cons_self
  have hs : first ≠ '/' := by
    rintro rfl; exact absurd hf (by decide)
  have ht : ("<" ++ tag).toList = '<' :: first :: rest := by rw [String.toList_append, hl]; rfl
  rw [ht, hl, run_cons]
  simp only [step, ↓reduceIte, Option.bind_some, run_cons, hs, hf, ofText_decode_escape]
  exact run_startName [first] fun c hc => hall c (List.mem_cons_of_mem _ hc)

/-- An end tag closes the element that it names, with the text before it as the last content. -/
theorem run_endTag {tag : String} (ht : IsName tag) (before : String) (nodes : List Markup)
    (attributes : List (String × Option String)) (siblings : List Markup) (frames : List Frame) :
    run ⟨.text (Html.escape before).toList, nodes, ⟨⟨tag.toList, attributes⟩, siblings⟩ :: frames⟩
        ("</" ++ tag ++ ">").toList =
      some ⟨.text [], siblings ++ [.element tag attributes (nodes ++ ofText before)], frames⟩ := by
  obtain ⟨first, rest, hl, hall⟩ := ht
  have ht : ("</" ++ tag ++ ">").toList = '<' :: '/' :: (tag.toList ++ ['>']) := by
    rw [String.toList_append, String.toList_append]; rfl
  rw [ht, run_cons]
  simp only [step, ↓reduceIte, Option.bind_some, run_cons, ofText_decode_escape]
  refine run_trans (run_endName [] (by rw [hl]; exact hall)) ?_
  have hn : isNameChar '>' = false := by decide
  simp [step, hn, close, Tag.element, String.ofList_toList]

/-- A start tag, content and the end tag are an element. -/
theorem Reads.element {tag html inner : String} (ht : IsName tag)
    {attributes : List (String × Option String)} {ms : List Markup}
    (ha : ReadsAttributes html attributes) (hi : Reads inner ms) :
    Reads ("<" ++ tag ++ html ++ ">" ++ inner ++ "</" ++ tag ++ ">")
      [.element tag attributes (merge ms)] := by
  intro before nodes frames
  obtain ⟨mode, hr, hm⟩ := ha (.startName tag.toList) ⟨tag.toList, []⟩ (nodes ++ ofText before)
    frames (.inl ⟨tag.toList, rfl, rfl⟩)
  obtain ⟨done, after, hri, hmi⟩ := hi "" [] (⟨⟨tag.toList, attributes⟩, nodes ++ ofText before⟩ ::
    frames)
  refine ⟨ofText before ++ [.element tag attributes (merge ms)], "", ?_, fun rest => ?_⟩
  · have hc : done ++ ofText after = merge ms := by
      simpa [merge, mergeAfter] using (hmi []).symm
    have hs : "<" ++ tag ++ html ++ ">" ++ inner ++ "</" ++ tag ++ ">" =
        ("<" ++ tag) ++ (html ++ (">" ++ (inner ++ ("</" ++ tag ++ ">")))) := by
      simp only [String.append_assoc]
    rw [hs]
    refine run_trans_toList (run_tagName ht before nodes frames) (run_trans_toList hr ?_)
    refine run_trans_toList hm.run_open (run_trans_toList hri ?_)
    rw [run_endTag ht, List.nil_append, hc, List.append_assoc, toList_escape]
    rfl
  · simp [mergeAfter]

/-- A start tag with a slash is an element without content. -/
theorem Reads.void {tag html : String} (ht : IsName tag)
    {attributes : List (String × Option String)} (ha : ReadsAttributes html attributes) :
    Reads ("<" ++ tag ++ html ++ " />") [.element tag attributes []] := by
  intro before nodes frames
  obtain ⟨mode, hr, hm⟩ := ha (.startName tag.toList) ⟨tag.toList, []⟩ (nodes ++ ofText before)
    frames (.inl ⟨tag.toList, rfl, rfl⟩)
  refine ⟨ofText before ++ [.element tag attributes []], "", ?_, fun rest => ?_⟩
  · refine run_trans_toList (run_trans_toList (run_tagName ht before nodes frames) hr) ?_
    refine hm.run_slash.trans ?_
    rw [List.append_assoc, Tag.element, String.ofList_toList, toList_escape]
    rfl
  · simp [mergeAfter]

theorem isName_div : IsName "div" :=
  ⟨'d', "iv".toList, rfl, List.all_eq_true.mp rfl⟩

/-- The tag that is written for an element is a name. -/
theorem isName_writtenTag (tag : String) : IsName (if Html.isTag tag then tag else "div") := by
  split
  · rename_i h; exact isName_of_isTag h
  · exact isName_div

theorem markerClass_eq (kind : MarkerKind) :
    " class=\"render-marker " ++ Html.markerClass kind ++ "\"" =
      Html.valueAttr "class" ("render-marker " ++ Html.markerClass kind) := by
  cases kind <;> decide

/-- A marker is written as a `div` around its message. -/
theorem toHtml_marker (kind : MarkerKind) (id message : String) :
    (Output.marker kind id message).toHtml =
      "<" ++ "div" ++ (Html.valueAttr "class" ("render-marker " ++ Html.markerClass kind) ++
        Html.valueAttr "data-node-id" id) ++ ">" ++ Html.escape message ++
        "</" ++ "div" ++ ">" := by
  have hs : (Output.marker kind id message).toHtml =
      "<div class=\"render-marker " ++ Html.markerClass kind ++ "\"" ++
        Html.valueAttr "data-node-id" id ++ ">" ++ Html.escape message ++ "</div>" := rfl
  have ho : "<div class=\"render-marker " = "<" ++ "div" ++ " class=\"render-marker " := by decide
  have hc : "</div>" = "</" ++ "div" ++ ">" := by decide
  rw [hs, ho, hc, ← markerClass_eq]
  simp only [String.append_assoc]

/-- An element is written with its tag if that is a proper one, and without content if it is a void
one. -/
theorem toHtml_element (tag id : String) (attrs style : KeyMap Json) (children : List Output) :
    (Output.element tag id attrs style children).toHtml =
      if Html.voidTags.contains (if Html.isTag tag then tag else "div") then
        Html.startTag (if Html.isTag tag then tag else "div") id attrs style ++ " />"
      else
        Html.startTag (if Html.isTag tag then tag else "div") id attrs style ++ ">" ++
          Output.toHtmlAll children ++ "</" ++ (if Html.isTag tag then tag else "div") ++ ">" := rfl

theorem reads_marker (kind : MarkerKind) (id message : String) :
    Reads (Output.marker kind id message).toHtml (Output.marker kind id message).nodes := by
  have ha := (readsAttributes_valueAttr isName_class
    ("render-marker " ++ Html.markerClass kind)).append
    (readsAttributes_valueAttr isName_dataNodeId id)
  rw [toHtml_marker]
  exact Reads.element isName_div ha (Reads.text message)

mutual

/-- The HTML of an output is read as its nodes. -/
theorem reads_toHtml : ∀ o : Output, Reads o.toHtml o.nodes
  | .element tag id attrs style children => by
    have ht := isName_writtenTag tag
    have ha := readsAttributes_attributesHtml id attrs style
    rw [toHtml_element, Output.nodes, startTag_eq]
    by_cases hv : Html.voidTags.contains (if Html.isTag tag then tag else "div") = true
    · rw [if_pos hv, if_pos hv]
      exact Reads.void ht ha
    · rw [if_neg hv, if_neg hv]
      exact Reads.element ht ha (reads_toHtmlAll children)
  | .text s => Reads.text s
  | .fragment children => reads_toHtmlAll children
  | .marker kind id message => reads_marker kind id message
  | .empty => Reads.nil

/-- The HTML of a row of outputs is read as their nodes. -/
theorem reads_toHtmlAll : ∀ os : List Output, Reads (Output.toHtmlAll os) (Output.nodesAll os)
  | [] => Reads.nil
  | o :: os => (reads_toHtml o).append (reads_toHtmlAll os)

end

/-- **Reading HTML back**: the plain reader accepts the HTML of every output, with all its tags
balanced, and recovers the output's normal form. -/
theorem read_toHtml (o : Output) : read o.toHtml = some o.normalForm := by
  obtain ⟨done, after, hr, hm⟩ := reads_toHtml o "" [] []
  have hs : start = ⟨.text (Html.escape "").toList, [], []⟩ := by rw [toList_escape]; rfl
  have hn : o.normalForm = done ++ ofText after := by
    simpa [Output.normalForm, merge, mergeAfter] using hm []
  rw [read, hs, hr, hn]
  simp [finish, decode_escape, String.ofList_toList]

end Markup

end LivePage
