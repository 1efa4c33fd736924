import LivePage.Json.Canonical
import LivePage.Tree.Encoding

/-!
# Component trees that survive being written

A bound value is written as an object, and nothing marks it as bound but its key. A literal that
has just this shape is written as it is, so it is read as a bound value, or not at all. Trees with
such a literal are the only ones that change: all others are read back as they were written, from
the document and from the value that it denotes, and reading never makes a literal of that shape.

* `Json.LooksBound`: the literals in question.
* `Component.literals`: all literals of a tree, in preorder.
* `Component.toJson`: a component as a value.
* `Component.Faithful`: ways to write components whose fields are read one by one; written so, a
  tree is read back exactly when its literals are intact (`Faithful.ofRaw?_eq_some_iff`).
* `Component.intact_of_ofRaw?`: what is read has intact literals only.
* `Component.survives_writing`: the trees that are read back.
-/

namespace LivePage

namespace Json

/-- Whether a value is an object whose only key is that of a bound value. -/
def LooksBound : Json → Prop
  | .obj fields => fields.map Prod.fst = [PropValue.exprKey]
  | _ => False

instance : DecidablePred LooksBound
  | .obj fields => inferInstanceAs (Decidable (fields.map Prod.fst = [PropValue.exprKey]))
  | .null | .bool _ | .num _ | .str _ | .arr _ => inferInstanceAs (Decidable False)

/-- Whether a value keeps its meaning as a literal when it is written and read. -/
structure Intact (j : Json) : Prop where
  canonical : j.Canonical
  not_looksBound : ¬ j.LooksBound

end Json

/-! ## Property values -/

namespace PropValue

/-- The value of a literal. -/
def literal? : PropValue → Option Json
  | .literal j => some j
  | .bound _ => none

theorem canonical_bound (source : String) : (bound source).toJson.Canonical := by
  simp [toJson, Json.Canonical, Json.CanonicalFields]

/-- A property value is written as the value it was read from. -/
theorem toJson_of_ofJson {j : Json} {p : PropValue} (h : ofJson j = .ok p) : p.toJson = j := by
  unfold ofJson at h
  split at h
  · split at h
    · rename_i hkey
      split at h
      · obtain rfl := Except.ok.inj h
        rw [toJson, hkey]
      · exact absurd h (by simp)
    · obtain rfl := Except.ok.inj h
      rfl
  · obtain rfl := Except.ok.inj h
    rfl

/-- A value is read as a literal exactly when it does not look like a bound value. -/
theorem ofJson_eq_literal_iff {j : Json} : ofJson j = .ok (.literal j) ↔ ¬ j.LooksBound := by
  unfold ofJson
  split
  · rename_i key value
    split
    · rename_i hkey
      simp only [Json.LooksBound, hkey]
      split <;> simp
    · rename_i hkey
      simp [Json.LooksBound, hkey]
  · rename_i hne
    simp only [true_iff]
    intro h
    cases j with
    | obj fields =>
      obtain ⟨f, rfl, hf⟩ := List.map_eq_singleton_iff.mp h
      exact hne f.1 f.2 rfl
    | _ => exact h

theorem ofRaw?_eq_some_iff {d : RawJson} {p : PropValue} :
    ofRaw? d = some p ↔ ∃ j, d.value? = some j ∧ ofJson j = .ok p := by
  unfold ofRaw?
  rw [Option.bind_eq_some_iff]
  refine exists_congr fun j => and_congr_right fun _ => ?_
  cases ofJson j <;> simp

/-- The property values that are read back as they were written. -/
theorem ofRaw?_raw_eq_some_iff {p : PropValue} :
    ofRaw? p.toJson.raw = some p ↔ ∀ j ∈ p.literal?, j.Intact := by
  rw [ofRaw?_eq_some_iff]
  cases p with
  | literal j =>
    simp only [literal?, Option.mem_some_iff, forall_eq', toJson]
    constructor
    · rintro ⟨j', hvalue, hj'⟩
      obtain rfl : j = j' := toJson_of_ofJson hj'
      exact ⟨RawJson.canonical_of_value? hvalue, ofJson_eq_literal_iff.mp hj'⟩
    · intro h
      exact ⟨j, Json.value?_raw h.canonical, ofJson_eq_literal_iff.mpr h.not_looksBound⟩
  | bound source =>
    refine ⟨fun _ j hj => absurd hj (by simp [literal?]), fun _ => ?_⟩
    exact ⟨_, Json.value?_raw (canonical_bound source), rfl⟩

/-- Literals that are read are intact. -/
theorem intact_of_ofRaw? {d : RawJson} {p : PropValue} (h : ofRaw? d = some p) :
    ∀ j ∈ p.literal?, j.Intact := by
  obtain ⟨j, hvalue, hp⟩ := ofRaw?_eq_some_iff.mp h
  intro j' hj'
  cases p with
  | literal j'' =>
    obtain rfl : j'' = j' := by simpa [literal?] using hj'
    obtain rfl : j'' = j := toJson_of_ofJson hp
    exact ⟨RawJson.canonical_of_value? hvalue, ofJson_eq_literal_iff.mp hp⟩
  | bound source => exact absurd hj' (by simp [literal?])

end PropValue

/-! ## Maps of properties -/

namespace PropMap

/-- The literals among the values. -/
def literals (props : PropMap) : List Json := props.values.filterMap PropValue.literal?

/-- Properties as a value. -/
def toJson (props : PropMap) : Json := .ofMap (props.mapValues PropValue.toJson)

theorem forall_literals_iff {props : PropMap} {P : Json → Prop} :
    (∀ j ∈ literals props, P j) ↔ ∀ e ∈ props.entries, ∀ j ∈ e.2.literal?, P j := by
  simp only [literals, KeyMap.values, List.mem_filterMap, List.mem_map, Option.mem_def]
  constructor
  · intro h e he j hj
    exact h j ⟨e.2, ⟨e, he, rfl⟩, hj⟩
  · rintro h j ⟨p, ⟨e, he, rfl⟩, hj⟩
    exact h e he j hj

theorem raw_toJson (props : PropMap) : (toJson props).raw = raw props := by
  have hfields (entries : List (String × PropValue)) :
      Json.rawFields (entries.map fun e => (e.1, e.2.toJson)) =
        entries.map fun e => (e.1, e.2.toJson.raw) := by
    induction entries with
    | nil => rfl
    | cons e entries ih => rw [List.map_cons, List.map_cons, Json.rawFields, ih]
  rw [toJson, Json.ofMap, Json.raw, KeyMap.mapValues, hfields, raw]

theorem canonical_toJson {props : PropMap} (h : ∀ j ∈ literals props, j.Canonical) :
    (toJson props).Canonical := by
  refine ⟨(props.mapValues PropValue.toJson).ascending, Json.canonicalFields_iff.mpr ?_⟩
  simp only [KeyMap.mapValues, List.forall_mem_map]
  intro e he
  have hliteral := forall_literals_iff.mp h e he
  cases hp : e.2 with
  | literal j => exact hliteral j (by simp [hp, PropValue.literal?])
  | bound source => exact PropValue.canonical_bound source

/-- The maps of properties that are read back as they were written. -/
theorem ofRaw?_raw_eq_some_iff {props : PropMap} :
    ofRaw? (raw props) = some props ↔ ∀ j ∈ literals props, j.Intact := by
  rw [forall_literals_iff, raw, ofRaw?,
    RawJson.map?_write_eq_some_iff PropValue.ofRaw? fun p => p.toJson.raw]
  exact forall₂_congr fun e _ => PropValue.ofRaw?_raw_eq_some_iff

theorem intact_of_ofRaw? {d : RawJson} {props : PropMap} (h : ofRaw? d = some props) :
    ∀ j ∈ literals props, j.Intact := by
  refine forall_literals_iff.mpr fun e he => ?_
  obtain ⟨d', hd'⟩ := RawJson.exists_read_of_map? h he
  exact PropValue.intact_of_ofRaw? hd'

end PropMap

/-! ## Components -/

namespace Component

mutual

/-- The literals of a tree in preorder. -/
def literals : Component → List Json
  | ⟨_, _, props, style, children⟩ =>
    PropMap.literals props ++ PropMap.literals style ++ literalsAll children

/-- The literals of a row of trees in preorder. -/
def literalsAll : List Component → List Json
  | [] => []
  | c :: cs => c.literals ++ literalsAll cs

end

mutual

/-- A component as a value. -/
def toJson : Component → Json
  | ⟨id, type, props, style, children⟩ =>
    .obj [("children", .arr (toJsonAll children)), ("id", .str id), ("props", PropMap.toJson props),
      ("style", PropMap.toJson style), ("type", .str type)]

/-- Components as values. -/
def toJsonAll : List Component → List Json
  | [] => []
  | c :: cs => c.toJson :: toJsonAll cs

end

variable {id type : String} {props style : PropMap} {children : List Component}

/-- The component of fields that are all given, each under its own name. -/
theorem ofRecord?_eq {r : Record} {jprops jstyle : RawJson} (hid : r.get? "id" = some (.str id))
    (htype : r.get? "type" = some (.str type)) (hprops : r.get? "props" = some jprops)
    (hstyle : r.get? "style" = some jstyle) :
    ofRecord? r children = (PropMap.ofRaw? jprops).bind fun props =>
      (PropMap.ofRaw? jstyle).map fun style => ⟨id, type, props, style, children⟩ := by
  simp only [ofRecord?, Record.optional, hid, htype, hprops, hstyle, RawJson.string?]
  cases PropMap.ofRaw? jprops with
  | none => rfl
  | some props => cases PropMap.ofRaw? jstyle <;> rfl

/-- An object is read as its own component exactly when each field is read as its own. -/
theorem ofRaw?_obj_eq_some_iff {fields : List (String × RawJson)} {items : List RawJson}
    (hknown : Record.ofFields? fieldNames fields = some ⟨fields⟩)
    (hid : KeyMap.lookup "id" fields = some (.str id))
    (htype : KeyMap.lookup "type" fields = some (.str type))
    (hprops : KeyMap.lookup "props" fields = some (PropMap.raw props))
    (hstyle : KeyMap.lookup "style" fields = some (PropMap.raw style))
    (hchildren : childrenNamed? fields = ofItems? items) :
    ofRaw? (.obj fields) = some ⟨id, type, props, style, children⟩ ↔
      (∀ j ∈ PropMap.literals props ++ PropMap.literals style, j.Intact) ∧
        ofItems? items = some children := by
  rw [ofRaw?, hknown, hchildren]
  cases ofItems? items with
  | none => simp
  | some cs =>
    simp only [ofRecord?_eq (r := ⟨fields⟩) hid htype hprops hstyle, Option.bind_eq_some_iff,
      Option.map_eq_some_iff, Component.mk.injEq, List.mem_append, or_imp, forall_and,
      ← PropMap.ofRaw?_raw_eq_some_iff, Option.some.injEq]
    constructor
    · rintro ⟨_, hp, _, hs, -, -, rfl, rfl, rfl⟩
      exact ⟨⟨hp, hs⟩, rfl⟩
    · rintro ⟨⟨hp, hs⟩, rfl⟩
      exact ⟨props, hp, style, hs, trivial, trivial, rfl, rfl, rfl⟩

theorem ofItems?_cons_eq_some_iff {d : RawJson} {items : List RawJson} {c : Component}
    {cs : List Component} :
    ofItems? (d :: items) = some (c :: cs) ↔ ofRaw? d = some c ∧ ofItems? items = some cs := by
  rw [ofItems?]
  cases ofRaw? d <;> cases ofItems? items <;> simp

/-- Whether a way to write components writes each of their fields so that it is read by itself. -/
def Faithful (write : Component → RawJson) : Prop :=
  ∀ (id type : String) (props style : PropMap) (children : List Component),
    ofRaw? (write ⟨id, type, props, style, children⟩) = some ⟨id, type, props, style, children⟩ ↔
      (∀ j ∈ PropMap.literals props ++ PropMap.literals style, j.Intact) ∧
        ofItems? (children.map write) = some children

theorem rawAll_eq_map (cs : List Component) : rawAll cs = cs.map raw := by
  induction cs with
  | nil => rfl
  | cons c cs ih => rw [rawAll, ih, List.map_cons]

theorem rawItems_toJsonAll (cs : List Component) :
    Json.rawItems (toJsonAll cs) = cs.map fun c => c.toJson.raw := by
  induction cs with
  | nil => rfl
  | cons c cs ih => rw [toJsonAll, Json.rawItems, ih, List.map_cons]

/-- The object of a component has its fields in declared order. -/
theorem faithful_raw : Faithful raw := by
  intro id type props style children
  rw [raw, rawAll_eq_map]
  refine ofRaw?_obj_eq_some_iff ?_ rfl rfl rfl rfl ?_
  · simp [Record.ofFields?, fieldNames]
  · simp [childrenNamed?, childrenOf?]

/-- The value of a component has its fields in key order. -/
theorem faithful_raw_toJson : Faithful fun c => c.toJson.raw := by
  intro id type props style children
  simp only [toJson, Json.raw, Json.rawFields, PropMap.raw_toJson, rawItems_toJsonAll]
  refine ofRaw?_obj_eq_some_iff ?_ rfl rfl rfl rfl ?_
  · simp [Record.ofFields?, fieldNames]
  · simp [childrenNamed?, childrenOf?]

mutual

/-- A faithfully written tree is read back exactly when all literals in it are intact. -/
theorem Faithful.ofRaw?_eq_some_iff {write : Component → RawJson} (hwrite : Faithful write) :
    ∀ c : Component, ofRaw? (write c) = some c ↔ ∀ j ∈ c.literals, j.Intact
  | ⟨id, type, props, style, children⟩ => by
    rw [hwrite, hwrite.ofItems?_eq_some_iff children, literals, ← List.forall_mem_append]

/-- A faithfully written row of trees is read back exactly when all literals in it are intact. -/
theorem Faithful.ofItems?_eq_some_iff {write : Component → RawJson} (hwrite : Faithful write) :
    ∀ cs : List Component, ofItems? (cs.map write) = some cs ↔ ∀ j ∈ literalsAll cs, j.Intact
  | [] => by simp [ofItems?, literalsAll]
  | c :: cs => by
    rw [List.map_cons, ofItems?_cons_eq_some_iff, hwrite.ofRaw?_eq_some_iff c,
      hwrite.ofItems?_eq_some_iff cs, literalsAll, List.forall_mem_append]

end

mutual

/-- The value that the object of a component denotes. -/
theorem value?_raw : ∀ {c : Component}, (∀ j ∈ c.literals, j.Canonical) →
    c.raw.value? = some c.toJson
  | ⟨id, type, props, style, children⟩, h => by
    rw [literals, List.forall_mem_append, List.forall_mem_append] at h
    obtain ⟨⟨hprops, hstyle⟩, hchildren⟩ := h
    have hp := Json.value?_raw (PropMap.canonical_toJson hprops)
    have hs := Json.value?_raw (PropMap.canonical_toJson hstyle)
    rw [PropMap.raw_toJson] at hp hs
    simp only [raw, RawJson.value?, RawJson.fieldValues?, hp, hs, itemValues?_rawAll hchildren,
      Option.map_some, toJson]
    simp only [Json.ofMap, KeyMap.ofList, KeyMap.insert, KeyMap.empty, List.foldl_cons,
      List.foldl_nil, KeyMap.insertEntry, String.reduceLT, String.reduceEq, ↓reduceIte]

/-- The values that the objects of components denote. -/
theorem itemValues?_rawAll : ∀ {cs : List Component}, (∀ j ∈ literalsAll cs, j.Canonical) →
    RawJson.itemValues? (rawAll cs) = some (toJsonAll cs)
  | [], _ => rfl
  | c :: cs, h => by
    rw [literalsAll, List.forall_mem_append] at h
    rw [rawAll, RawJson.itemValues?, value?_raw h.1, itemValues?_rawAll h.2, toJsonAll]

end

theorem intact_of_ofRecord? {r : Record} {c : Component}
    (h : ofRecord? r children = some c) (hchildren : ∀ j ∈ literalsAll children, j.Intact) :
    ∀ j ∈ c.literals, j.Intact := by
  have hoptional {name : String} {props : PropMap}
      (hprops : r.optional name KeyMap.empty PropMap.ofRaw? = some props) :
      ∀ j ∈ PropMap.literals props, j.Intact := by
    unfold Record.optional at hprops
    split at hprops
    · exact PropMap.intact_of_ofRaw? hprops
    · obtain rfl := Option.some.inj hprops
      simp [PropMap.literals, KeyMap.values, KeyMap.empty]
  simp only [ofRecord?, Option.bind_eq_bind, Option.bind_eq_some_iff] at h
  obtain ⟨id, -, type, -, props, hprops, style, hstyle, hc⟩ := h
  obtain rfl := Option.some.inj hc
  rw [literals, List.forall_mem_append, List.forall_mem_append]
  exact ⟨⟨hoptional hprops, hoptional hstyle⟩, hchildren⟩

mutual

/-- All literals of a tree that is read are intact. -/
theorem intact_of_ofRaw? : ∀ {d : RawJson} {c : Component}, ofRaw? d = some c →
    ∀ j ∈ c.literals, j.Intact
  | .obj fields, c, h => by
    rw [ofRaw?] at h
    split at h
    · rename_i r children _ hchildren
      exact intact_of_ofRecord? h (intact_of_childrenNamed? hchildren)
    · simp at h
  | .arr items, c, h => by
    rw [ofRaw?] at h
    split at h
    · rename_i r children _ hchildren
      exact intact_of_ofRecord? h (intact_of_childrenAt? hchildren)
    · simp at h
  | .null, _, h | .bool _, _, h | .num _, _, h | .str _, _, h | .valueless, _, h => by
    simp [ofRaw?] at h

theorem intact_of_childrenNamed? : ∀ {fields : List (String × RawJson)} {cs : List Component},
    childrenNamed? fields = some cs → ∀ j ∈ literalsAll cs, j.Intact
  | [], cs, h => by
    obtain rfl := Option.some.inj h
    simp [literalsAll]
  | (key, d) :: fields, cs, h => by
    rw [childrenNamed?] at h
    split at h
    · exact intact_of_childrenOf? h
    · exact intact_of_childrenNamed? h

theorem intact_of_childrenAt? : ∀ {n : Nat} {items : List RawJson} {cs : List Component},
    childrenAt? n items = some cs → ∀ j ∈ literalsAll cs, j.Intact
  | _, [], cs, h => by
    rw [childrenAt?] at h
    obtain rfl := Option.some.inj h
    simp [literalsAll]
  | 0, d :: _, cs, h => by
    rw [childrenAt?] at h
    exact intact_of_childrenOf? h
  | n + 1, _ :: items, cs, h => by
    rw [childrenAt?] at h
    exact intact_of_childrenAt? h

theorem intact_of_childrenOf? : ∀ {d : RawJson} {cs : List Component},
    childrenOf? d = some cs → ∀ j ∈ literalsAll cs, j.Intact
  | .arr items, cs, h => by
    rw [childrenOf?] at h
    exact intact_of_ofItems? h
  | .obj _, _, h | .null, _, h | .bool _, _, h | .num _, _, h | .str _, _, h
  | .valueless, _, h => by
    simp [childrenOf?] at h

theorem intact_of_ofItems? : ∀ {items : List RawJson} {cs : List Component},
    ofItems? items = some cs → ∀ j ∈ literalsAll cs, j.Intact
  | [], cs, h => by
    obtain rfl := Option.some.inj h
    simp [literalsAll]
  | d :: items, cs, h => by
    rw [ofItems?] at h
    split at h
    · rename_i c cs' hc hcs
      obtain rfl := Option.some.inj h
      rw [literalsAll, List.forall_mem_append]
      exact ⟨intact_of_ofRaw? hc, intact_of_ofItems? hcs⟩
    · simp at h

end

/-! ## Written trees -/

/-- **A tree survives being written exactly when no literal in it looks like a bound value.** Its
object denotes its value, and from either one the tree is read back, or else a tree with such a
literal is not. A tree that was read, in whichever form, always survives. -/
theorem survives_writing :
    (∀ c : Component, (∀ j ∈ c.literals, j.Canonical) →
      c.raw.value? = some c.toJson ∧
      (ofRaw? c.raw = some c ↔ ∀ j ∈ c.literals, ¬ j.LooksBound) ∧
      (ofRaw? c.toJson.raw = some c ↔ ∀ j ∈ c.literals, ¬ j.LooksBound)) ∧
    ∀ (d : RawJson) (c : Component), ofRaw? d = some c →
      c.raw.value? = some c.toJson ∧ ofRaw? c.raw = some c ∧ ofRaw? c.toJson.raw = some c := by
  refine ⟨fun c hcanonical => ?_, fun d c h => ?_⟩
  · have hintact : (∀ j ∈ c.literals, j.Intact) ↔ ∀ j ∈ c.literals, ¬ j.LooksBound :=
      forall₂_congr fun j hj => ⟨Json.Intact.not_looksBound, fun h => ⟨hcanonical j hj, h⟩⟩
    exact ⟨value?_raw hcanonical, (faithful_raw.ofRaw?_eq_some_iff c).trans hintact,
      (faithful_raw_toJson.ofRaw?_eq_some_iff c).trans hintact⟩
  · have hintact := intact_of_ofRaw? h
    exact ⟨value?_raw fun j hj => (hintact j hj).canonical,
      (faithful_raw.ofRaw?_eq_some_iff c).mpr hintact,
      (faithful_raw_toJson.ofRaw?_eq_some_iff c).mpr hintact⟩

/-- A page with a text that quotes a bound value. -/
def quotingPage : Component :=
  (new "page" "page").withChild
    ((new "help" "text").withProp "sample" (.obj [(PropValue.exprKey, .str "user.name")]))

/-- A list with a bound property, and a literal that holds an object with the key of bound values
further inside. -/
def teamList : Component :=
  ((new "team" "list").bindProp "rows" "users").withProp "hints"
    (.arr [.obj [(PropValue.exprKey, .null)]])

/-- The same list in the form of an array. -/
def teamDocument : RawJson :=
  .arr [.str "team", .str "list", .obj [("rows", .obj [("$expr", .str "users")]),
    ("hints", .arr [.obj [("$expr", .null)]])]]

theorem survives_writing_quotingPage :
    ((∀ j ∈ quotingPage.literals, j.Canonical) ∧ ofRaw? quotingPage.raw ≠ some quotingPage) ∧
      ofRaw? teamDocument = some teamList ∧ ofRaw? teamList.raw = some teamList := by
  have hliterals : quotingPage.literals = [.obj [(PropValue.exprKey, .str "user.name")]] := rfl
  have hcanonical : ∀ j ∈ quotingPage.literals, j.Canonical := by
    simp [hliterals, Json.Canonical, Json.CanonicalFields]
  have hread : ofRaw? teamDocument = some teamList := by
    rfl
  refine ⟨⟨hcanonical, fun hread => ?_⟩, hread, (survives_writing.2 _ _ hread).2.1⟩
  have hbound := (survives_writing.1 quotingPage hcanonical).2.1.mp hread
  exact hbound (.obj [(PropValue.exprKey, .str "user.name")]) (by simp [hliterals]) rfl

end Component

end LivePage
