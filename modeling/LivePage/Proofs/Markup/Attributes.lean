import LivePage.Proofs.Markup.ReadBack

/-!
# Attributes of start tags

A start tag joins three sources: the id of the component, the attributes of the element and its
style. Attributes are kept by name, so no two of them meet; but one of them may have the name under
which the id or the style is written.

* `written`, `styleAttribute`: the parts of a start tag. `attributes_eq`: the whole.
* `nodup_attributes_iff`: when no name stands twice.
* `taken`: what a browser takes for an attribute.
-/

namespace LivePage

namespace Html

/-- The attributes that are written for the attributes of an element, in key order. -/
def written (attrs : KeyMap Json) : List (String × Option String) :=
  (attrs.entries.filter fun e => isSafeAttr e.1).filterMap fun e => attribute? e.1 e.2

/-- The attribute of the style: all declarations, if there are any. -/
def styleAttribute (style : KeyMap Json) : List (String × Option String) :=
  if declarations style = [] then []
  else [("style", some ("; ".intercalate (declarations style)))]

theorem attributes_eq (nodeId : String) (attrs style : KeyMap Json) :
    attributes nodeId attrs style =
      (if nodeId = "" then [] else [("data-node-id", some nodeId)]) ++ written attrs ++
        styleAttribute style := rfl

theorem attribute?_eq_some {name key : String} {value : Json} {text : Option String}
    (h : attribute? name value = some (key, text)) : key = name := by
  cases value with
  | bool b => cases b <;> simp_all [attribute?]
  | null => cases h
  | num n | str s | arr items | obj fields => simp_all [attribute?]

/-- All values but null and false are written. -/
theorem attribute?_eq_none_iff {name : String} {value : Json} :
    attribute? name value = none ↔ value = .null ∨ value = .bool false := by
  cases value with
  | bool b => cases b <;> simp [attribute?]
  | null | num n | str s | arr items | obj fields => simp [attribute?]

theorem names_written_sublist (attrs : KeyMap Json) :
    ((written attrs).map Prod.fst).Sublist attrs.keys := by
  unfold written KeyMap.keys
  induction attrs.entries with
  | nil => exact .slnil
  | cons e es ih =>
    rw [List.map_cons, List.filter_cons]
    split
    · simp only [List.filterMap_cons]
      cases ha : attribute? e.1 e.2 with
      | none => exact ih.cons _
      | some a =>
        obtain ⟨key, text⟩ := a
        obtain rfl := attribute?_eq_some ha
        exact ih.cons_cons _
    · exact ih.cons _

/-- Of the attributes of an element no name is written twice. -/
theorem nodup_written (attrs : KeyMap Json) : ((written attrs).map Prod.fst).Nodup :=
  (KeyMap.nodup_keys attrs).sublist (names_written_sublist attrs)

/-- A name is written if it is safe and has a value other than null and false. -/
theorem mem_written_iff {attrs : KeyMap Json} {name : String} :
    name ∈ (written attrs).map Prod.fst ↔
      isSafeAttr name = true ∧ ∃ v, attrs.get? name = some v ∧ v ≠ .null ∧ v ≠ .bool false := by
  simp only [written, List.mem_map, List.mem_filterMap, List.mem_filter]
  constructor
  · rintro ⟨⟨_, text⟩, ⟨⟨key, v⟩, ⟨hmem, hsafe⟩, ha⟩, rfl⟩
    obtain rfl := attribute?_eq_some ha
    have hne : ¬(v = .null ∨ v = .bool false) := by
      rw [← attribute?_eq_none_iff, ha]
      exact Option.some_ne_none _
    exact ⟨hsafe, v, KeyMap.get?_eq_some_iff.mpr hmem, not_or.mp hne⟩
  · rintro ⟨hsafe, v, hget, hne⟩
    cases ha : attribute? name v with
    | none => exact absurd (attribute?_eq_none_iff.mp ha) (not_or.mpr hne)
    | some a =>
      obtain ⟨key, text⟩ := a
      exact ⟨_, ⟨_, ⟨KeyMap.get?_eq_some_iff.mp hget, hsafe⟩, ha⟩, attribute?_eq_some ha⟩

/-- No name stands twice in a start tag, unless an attribute of the element has the name under which
the id is written, or the style. -/
theorem nodup_attributes_iff (nodeId : String) (attrs style : KeyMap Json) :
    ((attributes nodeId attrs style).map Prod.fst).Nodup ↔
      (nodeId ≠ "" → "data-node-id" ∉ (written attrs).map Prod.fst) ∧
        (declarations style ≠ [] → "style" ∉ (written attrs).map Prod.fst) := by
  have hwritten := nodup_written attrs
  rw [attributes_eq, styleAttribute]
  by_cases hid : nodeId = "" <;> by_cases hstyle : declarations style = [] <;>
    simp [hid, hstyle, List.nodup_append, hwritten, -List.mem_map]
  all_goals grind

/-- What a browser takes for an attribute: the first of its name, in small or capital letters. -/
def taken (name : String) (tag : List (String × Option String)) : Option (Option String) :=
  (tag.find? fun a => a.1.toLower == name).map Prod.snd

/-- The id comes first in its start tag. -/
theorem taken_dataNodeId {nodeId : String} (h : nodeId ≠ "") (attrs style : KeyMap Json) :
    taken "data-node-id" (attributes nodeId attrs style) = some (some nodeId) := by
  have hlower : ("data-node-id".toLower == "data-node-id") = true := by decide +kernel
  simp only [attributes_eq, if_neg h, taken, List.cons_append,
    List.find?_cons, hlower, Option.map_some]

/-- The style is taken, unless an attribute of the element has its name. -/
theorem taken_style (nodeId : String) {attrs style : KeyMap Json}
    (hattrs : ∀ name ∈ (written attrs).map Prod.fst, name.toLower ≠ "style")
    (hstyle : declarations style ≠ []) :
    taken "style" (attributes nodeId attrs style) =
      some (some ("; ".intercalate (declarations style))) := by
  have hid : ("data-node-id".toLower == "style") = false := by decide +kernel
  have hlower : ("style".toLower == "style") = true := by decide +kernel
  have hbefore : ∀ a ∈ (if nodeId = "" then [] else [("data-node-id", some nodeId)]) ++
      written attrs, ¬(a.1.toLower == "style") = true := by
    intro a ha
    rcases List.mem_append.mp ha with ha | ha
    · split at ha
      · cases ha
      · rw [List.mem_singleton.mp ha, hid]
        exact Bool.false_ne_true
    · rw [beq_iff_eq]
      exact hattrs a.1 (List.mem_map_of_mem ha)
  rw [taken, attributes_eq, List.find?_append, List.find?_eq_none.mpr hbefore, styleAttribute,
    if_neg hstyle, Option.none_or]
  simp only [List.find?_cons, hlower, Option.map_some]

end Html

end LivePage
