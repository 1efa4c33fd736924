/-!
# A plain reader of markup

`Markup.read` knows text up to the next `<`, start tags with and without a slash at their end, end
tags, attributes with a quoted value or without one, and four entities. It goes through the text
character by character and keeps the elements that are open; tags that do not balance are refused.

* `Mode`, `Reading`: what the next character belongs to, and what has been read.
* `Reading.step`: one character. `Reading.run`: a text.
* `run_text`, `run_value`, `run_startName`: a stretch of characters that leaves the mode as it is.
* `Reading.InTag`: a mode in which a blank or the end of the tag may follow.
-/

namespace LivePage

/-- Text, or an element with its attributes in order, of which some have no value. -/
inductive Markup
  | text (content : String)
  | element (name : String) (attributes : List (String × Option String)) (children : List Markup)

namespace Markup

/-- The text that a text with entities stands for; no other entity is known. -/
def decode : List Char → List Char
  | '&' :: 'a' :: 'm' :: 'p' :: ';' :: cs => '&' :: decode cs
  | '&' :: 'l' :: 't' :: ';' :: cs => '<' :: decode cs
  | '&' :: 'g' :: 't' :: ';' :: cs => '>' :: decode cs
  | '&' :: 'q' :: 'u' :: 'o' :: 't' :: ';' :: cs => '\x22' :: decode cs
  | c :: cs => c :: decode cs
  | [] => []

/-- The node of a text; an empty text has none. -/
def ofText (content : String) : List Markup := if content.isEmpty then [] else [.text content]

/-- White space between the parts of a tag. -/
def isBlank (c : Char) : Bool := [' ', '\t', '\n', '\r', '\x0c'].contains c

/-- The characters of names: all but white space and those that end a name. -/
def isNameChar (c : Char) : Bool :=
  !(isBlank c || ['\x22', '\x27', '<', '>', '/', '='].contains c)

/-- A start tag as far as it has been read. -/
structure Tag where
  name : List Char
  attributes : List (String × Option String)

/-- The tag with one more attribute. -/
def Tag.add (tag : Tag) (key : List Char) (value : Option String) : Tag :=
  { tag with attributes := tag.attributes ++ [(String.ofList key, value)] }

/-- The element of a start tag and its content. -/
def Tag.element (tag : Tag) (children : List Markup) : Markup :=
  .element (String.ofList tag.name) tag.attributes children

/-- What the next character belongs to. -/
inductive Mode
  /-- Text, its entities not yet decoded. -/
  | text (raw : List Char)
  /-- A tag of which only the `<` has been read. -/
  | opened
  /-- The name of a start tag. -/
  | startName (name : List Char)
  /-- A start tag between two attributes. -/
  | between (tag : Tag)
  /-- The name of an attribute. -/
  | key (tag : Tag) (name : List Char)
  /-- The quote that opens the value of an attribute. -/
  | equals (tag : Tag) (name : List Char)
  /-- The value of an attribute, its entities not yet decoded. -/
  | value (tag : Tag) (name raw : List Char)
  /-- The `>` after the slash at the end of a start tag. -/
  | slash (tag : Tag)
  /-- The name of an end tag. -/
  | endName (name : List Char)

/-- An element that is open: its start tag, and its siblings before it. -/
structure Frame where
  tag : Tag
  before : List Markup

/-- What has been read: the nodes of the innermost open element, and the open elements, innermost
first. -/
structure Reading where
  mode : Mode
  nodes : List Markup
  frames : List Frame

namespace Reading

/-- A character inside a start tag where an attribute may begin or the tag may end. -/
def stepInTag (r : Reading) (tag : Tag) (c : Char) : Option Reading :=
  if isBlank c then some { r with mode := .between tag }
  else if c = '>' then some ⟨.text [], [], ⟨tag, r.nodes⟩ :: r.frames⟩
  else if c = '/' then some { r with mode := .slash tag }
  else if isNameChar c then some { r with mode := .key tag [c] }
  else none

/-- The end tag of the innermost open element. -/
def close (r : Reading) (name : List Char) : Option Reading :=
  match r.frames with
  | [] => none
  | frame :: frames =>
    if frame.tag.name = name then
      some ⟨.text [], frame.before ++ [frame.tag.element r.nodes], frames⟩
    else none

/-- Reads one character. -/
def step (r : Reading) (c : Char) : Option Reading :=
  match r.mode with
  | .text raw =>
    if c = '<' then
      some { r with mode := .opened, nodes := r.nodes ++ ofText (String.ofList (decode raw)) }
    else some { r with mode := .text (raw ++ [c]) }
  | .opened =>
    if c = '/' then some { r with mode := .endName [] }
    else if isNameChar c then some { r with mode := .startName [c] }
    else none
  | .startName name =>
    if isNameChar c then some { r with mode := .startName (name ++ [c]) }
    else r.stepInTag ⟨name, []⟩ c
  | .between tag => r.stepInTag tag c
  | .key tag name =>
    if isNameChar c then some { r with mode := .key tag (name ++ [c]) }
    else if c = '=' then some { r with mode := .equals tag name }
    else r.stepInTag (tag.add name none) c
  | .equals tag name => if c = '\x22' then some { r with mode := .value tag name [] } else none
  | .value tag name raw =>
    if c = '\x22' then
      some { r with mode := .between (tag.add name (some (String.ofList (decode raw)))) }
    else some { r with mode := .value tag name (raw ++ [c]) }
  | .slash tag =>
    if c = '>' then some { r with mode := .text [], nodes := r.nodes ++ [tag.element []] } else none
  | .endName name =>
    if isNameChar c then some { r with mode := .endName (name ++ [c]) }
    else if c = '>' then r.close name
    else none

/-- Reads a text. -/
def run (r : Reading) (cs : List Char) : Option Reading := cs.foldlM step r

/-- The nodes of a text that is read to its end: no tag is open there, and no element. -/
def finish (r : Reading) : Option (List Markup) :=
  match r.mode, r.frames with
  | .text raw, [] => some (r.nodes ++ ofText (String.ofList (decode raw)))
  | _, _ => none

/-- Before the first character. -/
def start : Reading := ⟨.text [], [], []⟩

/-! ## Runs -/

@[simp] theorem run_nil (r : Reading) : r.run [] = some r := rfl

@[simp] theorem run_cons (r : Reading) (c : Char) (cs : List Char) :
    r.run (c :: cs) = (r.step c).bind (·.run cs) := List.foldlM_cons

theorem run_append (r : Reading) (cs ds : List Char) :
    r.run (cs ++ ds) = (r.run cs).bind (·.run ds) := List.foldlM_append

/-- Two runs, one after the other. -/
theorem run_trans {r₁ r₂ r₃ : Reading} {cs ds : List Char} (h₁ : r₁.run cs = some r₂)
    (h₂ : r₂.run ds = some r₃) : r₁.run (cs ++ ds) = some r₃ := by
  rw [run_append, h₁, Option.bind_some, h₂]

/-- Two runs over strings, one after the other. -/
theorem run_trans_toList {r₁ r₂ r₃ : Reading} {a b : String} (h₁ : r₁.run a.toList = some r₂)
    (h₂ : r₂.run b.toList = some r₃) : r₁.run (a ++ b).toList = some r₃ := by
  rw [String.toList_append]
  exact run_trans h₁ h₂

variable {nodes : List Markup} {frames : List Frame} {cs : List Char}

/-- Characters of which each is only added to what the mode holds. -/
theorem run_collect (mode : List Char → Mode) (held : List Char)
    (h : ∀ c ∈ cs, ∀ held, step ⟨mode held, nodes, frames⟩ c =
      some ⟨mode (held ++ [c]), nodes, frames⟩) :
    run ⟨mode held, nodes, frames⟩ cs = some ⟨mode (held ++ cs), nodes, frames⟩ := by
  induction cs generalizing held with
  | nil => simp
  | cons c cs ih =>
    rw [run_cons, h c List.mem_cons_self, Option.bind_some,
      ih _ fun d hd => h d (List.mem_cons_of_mem _ hd)]
    simp

theorem run_text (raw : List Char) (h : ∀ c ∈ cs, c ≠ '<') :
    run ⟨.text raw, nodes, frames⟩ cs = some ⟨.text (raw ++ cs), nodes, frames⟩ :=
  run_collect .text raw fun c hc _ => by simp [step, h c hc]

theorem run_value (tag : Tag) (name raw : List Char) (h : ∀ c ∈ cs, c ≠ '\x22') :
    run ⟨.value tag name raw, nodes, frames⟩ cs =
      some ⟨.value tag name (raw ++ cs), nodes, frames⟩ :=
  run_collect (.value tag name) raw fun c hc _ => by simp [step, h c hc]

theorem run_startName (name : List Char) (h : ∀ c ∈ cs, isNameChar c = true) :
    run ⟨.startName name, nodes, frames⟩ cs = some ⟨.startName (name ++ cs), nodes, frames⟩ :=
  run_collect .startName name fun c hc _ => by simp [step, h c hc]

theorem run_key (tag : Tag) (name : List Char) (h : ∀ c ∈ cs, isNameChar c = true) :
    run ⟨.key tag name, nodes, frames⟩ cs = some ⟨.key tag (name ++ cs), nodes, frames⟩ :=
  run_collect (.key tag) name fun c hc _ => by simp [step, h c hc]

theorem run_endName (name : List Char) (h : ∀ c ∈ cs, isNameChar c = true) :
    run ⟨.endName name, nodes, frames⟩ cs = some ⟨.endName (name ++ cs), nodes, frames⟩ :=
  run_collect .endName name fun c hc _ => by simp [step, h c hc]

/-! ## Inside a start tag -/

/-- The mode stands in a start tag after a complete name or attribute, and `tag` is what the tag
holds if it ends there. -/
def InTag (mode : Mode) (tag : Tag) : Prop :=
  (∃ name, mode = .startName name ∧ tag = ⟨name, []⟩) ∨ mode = .between tag ∨
    ∃ before name, mode = .key before name ∧ tag = before.add name none

/-- Where an attribute may begin or the tag may end, it does not matter what came just before. -/
theorem InTag.step {mode : Mode} {tag : Tag} (h : InTag mode tag) {c : Char}
    (hn : isNameChar c = false) (he : c ≠ '=') :
    Reading.step ⟨mode, nodes, frames⟩ c = stepInTag ⟨mode, nodes, frames⟩ tag c := by
  rcases h with ⟨name, rfl, rfl⟩ | rfl | ⟨before, name, rfl, rfl⟩ <;> simp [Reading.step, hn, he]

theorem InTag.run_blank {mode : Mode} {tag : Tag} (h : InTag mode tag) :
    run ⟨mode, nodes, frames⟩ [' '] = some ⟨.between tag, nodes, frames⟩ := by
  rw [run_cons, h.step (by decide) (by decide)]
  rfl

/-- The end of a start tag opens an element. -/
theorem InTag.run_open {mode : Mode} {tag : Tag} (h : InTag mode tag) :
    run ⟨mode, nodes, frames⟩ ['>'] = some ⟨.text [], [], ⟨tag, nodes⟩ :: frames⟩ := by
  rw [run_cons, h.step (by decide) (by decide)]
  rfl

/-- A slash at the end of a start tag makes an element without content. -/
theorem InTag.run_slash {mode : Mode} {tag : Tag} (h : InTag mode tag) :
    run ⟨mode, nodes, frames⟩ [' ', '/', '>'] =
      some ⟨.text [], nodes ++ [tag.element []], frames⟩ := by
  show run _ ([' '] ++ ['/', '>']) = _
  exact run_trans h.run_blank rfl

/-- The name of an attribute after a blank. -/
theorem InTag.run_key {mode : Mode} {tag : Tag} (h : InTag mode tag) {first : Char}
    {rest : List Char} (hf : isNameChar first = true)
    (hr : ∀ c ∈ rest, isNameChar c = true) :
    run ⟨mode, nodes, frames⟩ (' ' :: first :: rest) =
      some ⟨.key tag (first :: rest), nodes, frames⟩ := by
  show run _ ([' '] ++ first :: rest) = _
  refine run_trans h.run_blank ?_
  have hb : isBlank first = false := by
    unfold isNameChar at hf
    simp_all
  have hs : first ≠ '>' ∧ first ≠ '/' := by
    constructor <;> rintro rfl <;> exact absurd hf (by decide)
  rw [run_cons]
  simp only [Reading.step, stepInTag, hb, hs.1, hs.2, hf, Bool.false_eq_true, ↓reduceIte,
    Option.bind_some]
  exact Reading.run_key tag [first] hr

end Reading

/-- The nodes of a text, if its tags are well-formed and balanced. -/
def read (text : String) : Option (List Markup) :=
  (Reading.start.run text.toList).bind Reading.finish

end Markup

end LivePage
