import LivePage.Proofs.Markup.ReadBack

/-!
# The elements of markup

What a reader of HTML finds, element by element.

* `elementsAll`: the elements of a row of nodes in preorder. Joining texts leaves them as they are
  (`elementsAll_merge`).
* `Reads.read_eq`: what is read of a text that stands alone.
-/

namespace LivePage

namespace Markup

mutual

/-- The elements of a node in preorder. -/
def elements : Markup → List Markup
  | .text _ => []
  | .element name attributes children => .element name attributes children :: elementsAll children

/-- The elements of a row of nodes in preorder. -/
def elementsAll : List Markup → List Markup
  | [] => []
  | m :: ms => m.elements ++ elementsAll ms

end

/-- The attributes of an element. -/
def attributes : Markup → List (String × Option String)
  | .text _ => []
  | .element _ attributes _ => attributes

theorem elementsAll_append (ms ms' : List Markup) :
    elementsAll (ms ++ ms') = elementsAll ms ++ elementsAll ms' := by
  induction ms with
  | nil => rfl
  | cons m ms ih => rw [List.cons_append, elementsAll, elementsAll, ih, List.append_assoc]

theorem elementsAll_ofText (s : String) : elementsAll (ofText s) = [] := by
  unfold ofText
  split <;> simp [elements, elementsAll]

theorem elementsAll_mergeAfter (before : String) (ms : List Markup) :
    elementsAll (mergeAfter before ms) = elementsAll ms := by
  induction ms generalizing before with
  | nil => exact elementsAll_ofText before
  | cons m ms ih =>
    cases m with
    | text s => rw [mergeAfter, ih, elementsAll, elements, List.nil_append]
    | element name attributes children =>
      rw [mergeAfter, elementsAll_append, elementsAll_ofText, List.nil_append, elementsAll,
        elementsAll, ih]

/-- Texts are no elements, joined or not. -/
theorem elementsAll_merge (ms : List Markup) : elementsAll (merge ms) = elementsAll ms :=
  elementsAll_mergeAfter "" ms

/-- A text that adds nodes wherever it stands is read as these nodes. -/
theorem Reads.read_eq {html : String} {ms : List Markup} (h : Reads html ms) :
    read html = some (merge ms) := by
  obtain ⟨done, after, hr, hm⟩ := h "" [] []
  have hs : Reading.start = ⟨.text (Html.escape "").toList, [], []⟩ := by rw [toList_escape]; rfl
  have hn : merge ms = done ++ ofText after := by
    simpa [merge, mergeAfter] using hm []
  rw [read, hs, hr, hn]
  simp [Reading.finish, decode_escape, String.ofList_toList]

end Markup

namespace Output

theorem nodesAll_append (os os' : List Output) :
    nodesAll (os ++ os') = nodesAll os ++ nodesAll os' := by
  induction os with
  | nil => rfl
  | cons o os ih => rw [List.cons_append, nodesAll, nodesAll, ih, List.append_assoc]

end Output

end LivePage
