import LivePage.Proofs.Markup.Attributes
import LivePage.Proofs.Markup.Elements
import LivePage.Proofs.Style.Names

/-!
# Reading styles back

Names of style entries are letters and hyphens, so no name can add a declaration to a style
attribute. Values are escaped as text of an attribute only: a value can end its declaration, and
leave a quote or a parenthesis open.

* `Html.declared`: what a style declares.
* `Html.readWith_styleText_iff`: when the text of a style is read as what it declares.
* `Style.read_styleAttribute`: the style attribute of an element.
-/

namespace LivePage

namespace Html

/-- What a style declares: the entries that are not null and whose names are properties, in key
order, each by its name as it is written and the text of its value. -/
def declared (style : KeyMap Json) : List (String × String) :=
  (style.entries.filter isDeclared).map fun e => (kebab e.1, e.2.display)

theorem isDeclared_iff {name : String} {v : Json} :
    isDeclared (name, v) = true ↔ v ≠ .null ∧ isStyleProperty name = true := by
  cases v <;> simp [isDeclared]

theorem declarations_eq (style : KeyMap Json) :
    declarations style = (declared style).map Style.declare := by
  rw [declarations, declared, List.map_map]
  rfl

theorem isProperty_of_mem_declared {style : KeyMap Json} :
    ∀ d ∈ declared style, Style.IsProperty d.1 := by
  intro d hd
  obtain ⟨⟨name, value⟩, he, rfl⟩ := List.mem_map.mp hd
  exact isProperty_kebab (isDeclared_iff.mp (List.mem_filter.mp he).2).2

/-- The text of a style is read as what the style declares exactly if the values are
self-contained. -/
theorem readWith_styleText_iff {closed : List Char → Bool} (hc : Style.IgnoresPlain closed)
    (style : KeyMap Json) :
    Style.readWith closed (styleText style) = declared style ↔
      Style.SelfContained closed ((declared style).map Prod.snd) := by
  rw [Markup.styleText_eq, declarations_eq]
  exact Style.readWith_intercalate_iff hc isProperty_of_mem_declared

/-- Where no value holds a semicolon, semicolons end the declarations. -/
theorem readWith_styleText_of_forall {style : KeyMap Json}
    (h : ∀ d ∈ declared style, ';' ∉ d.2.toList) :
    Style.readWith (fun _ => true) (styleText style) = declared style := by
  rw [readWith_styleText_iff Style.ignoresPlain_true, Style.selfContained_true_iff]
  exact List.forall_mem_map.mpr h

/-- The text of the style attribute, if there is one. -/
def styleAttribute? (style : KeyMap Json) : Option String :=
  if declarations style = [] then none else some (styleText style)

theorem styleAttribute_eq (style : KeyMap Json) :
    styleAttribute style = (styleAttribute? style).toList.map fun css => ("style", some css) := by
  rw [styleAttribute, styleAttribute?, Markup.styleText_eq]
  split <;> rfl

theorem styleAttribute?_getD (style : KeyMap Json) :
    (styleAttribute? style).getD "" = styleText style := by
  unfold styleAttribute?
  split
  next h => exact ((Markup.styleText_eq_empty_iff style).mpr h).symm
  next => rfl

end Html

namespace Style

/-- What is read of the HTML of an element; the style attribute comes last. -/
theorem read_element (tag nodeId : String) (attrs style : KeyMap Json) (children : List Output) :
    Markup.read (Output.element tag nodeId attrs style children).toHtml =
      some [.element (if Html.isTag tag then tag else "div") (Html.attributes nodeId attrs .empty ++
          (Html.styleAttribute? style).toList.map fun css => ("style", some css))
        (if Html.voidTags.contains (if Html.isTag tag then tag else "div") then []
          else Markup.merge (Output.nodesAll children))] := by
  have hempty : Html.styleAttribute .empty = [] := rfl
  rw [(Markup.reads_toHtml _).read_eq, Output.nodes, Html.attributes_eq, Html.attributes_eq, hempty,
    List.append_nil, ← Html.styleAttribute_eq]
  rfl

/-- **What a style attribute declares.** The style attribute of an element, if it has one, is the
last in its start tag. It is read as one declaration for each style entry that is not null and whose
name is a property, in key order, with the written name and the text of the value, exactly if no
value holds a semicolon outside quotes and parentheses and each value before the last one closes its
quotes and parentheses. -/
theorem read_styleAttribute (tag nodeId : String) (attrs style : KeyMap Json)
    (children : List Output) :
    ∃ name content css, Markup.read (Output.element tag nodeId attrs style children).toHtml =
        some [.element name (Html.attributes nodeId attrs .empty ++
          (css : Option String).toList.map fun css => ("style", some css)) content] ∧
      (read (css.getD "") = Html.declared style ↔
        SelfContained isClosed ((Html.declared style).map Prod.snd)) := by
  refine ⟨_, _, _, read_element tag nodeId attrs style children, ?_⟩
  rw [Html.styleAttribute?_getD]
  exact Html.readWith_styleText_iff ignoresPlain_isClosed style

/-- A color that goes on with another declaration. -/
def twoColors : KeyMap Json := KeyMap.empty.insert "color" (.str "red; background: blue")

/-- There are elements whose style attribute is read as more than its style declares. -/
theorem not_forall_read_styleAttribute :
    ¬∀ (tag nodeId : String) (attrs style : KeyMap Json) (children : List Output)
        (name css : String) (before : List (String × Option String)) (content : List Markup),
      Markup.read (Output.element tag nodeId attrs style children).toHtml =
          some [.element name (before ++ [("style", some css)]) content] →
        read css = Html.declared style := by
  intro h
  have hread := read_element "div" "v" .empty twoColors []
  have hcss : Html.styleAttribute? twoColors = some "color: red; background: blue" := by
    decide +kernel
  rw [hcss] at hread
  have hdeclared := h _ _ _ _ _ _ _ _ _ hread
  revert hdeclared
  decide +kernel

end Style

end LivePage
