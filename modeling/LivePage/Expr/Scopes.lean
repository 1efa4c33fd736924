import LivePage.Expr.Context

/-!
# Contexts that share their layers

A context that is made from another one does not copy its layers. A layer is stored as a frame that
refers to the frame around it, and a context is a reference to its innermost frame. Contexts made
from one context share its frames, and no frame is ever changed.

* `Layering`, `ContextCall`: the calls by which contexts are made.
* `makeAll`: what calls make one after the other. `ContextCall.context` makes contexts, and
  `ContextCall.layers` records the layers as they were given.
* `Scopes`: the frames of all contexts that were made. `Scopes.context` follows the references of a
  context, and `Scopes.after` carries out calls.
-/

namespace LivePage

/-- The bindings of a layer as they are given; a name may be given more than one. -/
abbrev Layer := List (String × Binding)

/-- The layer that the keys of an object give; an empty one if there is no object. -/
def Layer.ofJson : Json → Layer
  | .obj fields => fields.map fun f => (f.1, .value f.2)
  | _ => []

/-- A call that puts a layer inside a context. -/
inductive Layering
  | child (bindings : Layer)
  | withBinding (name : String) (binding : Binding)
  | withValue (name : String) (value : Json)

namespace Layering

/-- The context with the new layer. -/
def on (ctx : Context) : Layering → Context
  | .child bindings => ctx.child bindings
  | .withBinding name binding => ctx.withBinding name binding
  | .withValue name value => ctx.withValue name value

/-- The new layer. -/
def layer : Layering → Layer
  | .child bindings => bindings
  | .withBinding name binding => [(name, binding)]
  | .withValue name value => [(name, .value value)]

end Layering

/-- A call that makes a context. The contexts that were made before are numbered from 0; a number
beyond them stands for the context without layers. -/
inductive ContextCall
  | new
  | ofJson (data : Json)
  | extend (base : Nat) (layering : Layering)

namespace ContextCall

/-- The context that a call makes, from those that were made before. -/
def context (made : List Context) : ContextCall → Context
  | .new => .empty
  | .ofJson data => .ofJson data
  | .extend base layering => layering.on (made[base]?.getD .empty)

/-- The layers of the context that a call makes, the innermost first, from those of the contexts
that were made before. -/
def layers (made : List (List Layer)) : ContextCall → List Layer
  | .new => []
  | .ofJson data => [.ofJson data]
  | .extend base layering => layering.layer :: made[base]?.getD []

end ContextCall

/-- What was made before, and what calls make one after the other. -/
def makeAll {α : Type} (make : List α → ContextCall → α) (made : List α)
    (calls : List ContextCall) : List α :=
  calls.foldl (fun made call => made ++ [make made call]) made

/-- A layer as it is stored, and the place of the frame around it. -/
structure Frame where
  bindings : KeyMap Binding
  parent : Option Nat

/-- The frames of all contexts that were made, and the contexts. A frame refers only to frames that
were stored before it. -/
structure Scopes where
  /-- The frames, the earliest first. -/
  frames : List Frame
  /-- The places of the innermost frames of the contexts, the earliest first. -/
  heads : List (Option Nat)
  parent_lt : ∀ i (h : i < frames.length), ∀ p ∈ frames[i].parent, p < i
  head_lt : ∀ head ∈ heads, ∀ p ∈ head, p < frames.length

namespace Scopes

/-- No context is made yet. -/
def empty : Scopes := ⟨[], [], by simp, by simp⟩

/-! ## Following references -/

/-- The layers from a frame outwards. -/
def chain (s : Scopes) : Option Nat → List (KeyMap Binding)
  | none => []
  | some i =>
    if h : i < s.frames.length then s.frames[i].bindings :: s.chain s.frames[i].parent else []
termination_by place => place.elim 0 (· + 1)
decreasing_by
  cases hparent : s.frames[i].parent with
  | none => exact Nat.succ_pos i
  | some p => exact Nat.succ_lt_succ (s.parent_lt i h p hparent)

/-- The context whose innermost frame is at a place. -/
def context (s : Scopes) (head : Option Nat) : Context := ⟨s.chain head⟩

/-- The contexts that were made, the earliest first. -/
def contexts (s : Scopes) : List Context := s.heads.map s.context

/-- The place of the innermost frame of the context with a number. -/
def head (s : Scopes) (number : Nat) : Option Nat := s.heads[number]?.join

theorem lt_of_mem_head (s : Scopes) (number : Nat) : ∀ p ∈ s.head number, p < s.frames.length := by
  intro p hp
  have hhead : s.heads[number]? = some (some p) := Option.join_eq_some_iff.mp hp
  exact s.head_lt _ (List.mem_of_getElem? hhead) p rfl

/-! ## Making contexts -/

/-- Makes a context without layers. -/
def new (s : Scopes) : Scopes where
  frames := s.frames
  heads := s.heads ++ [none]
  parent_lt := s.parent_lt
  head_lt head hhead := by
    rcases List.mem_append.mp hhead with hhead | hhead
    · exact s.head_lt head hhead
    · rw [List.mem_singleton.mp hhead]
      simp

/-- Stores a frame inside of a stored one, and makes the context of which it is the innermost. -/
def push (s : Scopes) (parent : Option Nat) (h : ∀ p ∈ parent, p < s.frames.length)
    (layer : Layer) : Scopes where
  frames := s.frames ++ [⟨KeyMap.ofList layer, parent⟩]
  heads := s.heads ++ [some s.frames.length]
  parent_lt i hi p hp := by
    rw [List.length_append, List.length_singleton] at hi
    rcases Nat.lt_succ_iff_lt_or_eq.mp hi with hlt | rfl
    · rw [List.getElem_append_left hlt] at hp
      exact s.parent_lt i hlt p hp
    · rw [List.getElem_concat_length rfl] at hp
      exact h p hp
  head_lt head hhead p hp := by
    rw [List.length_append, List.length_singleton]
    rcases List.mem_append.mp hhead with hhead | hhead
    · exact Nat.lt_succ_of_lt (s.head_lt head hhead p hp)
    · rw [List.mem_singleton.mp hhead, Option.mem_some_iff] at hp
      omega

/-- Carries out a call. -/
def make (s : Scopes) : ContextCall → Scopes
  | .new => s.new
  | .ofJson data => s.push none (by simp) (.ofJson data)
  | .extend base layering => s.push (s.head base) (s.lt_of_mem_head base) layering.layer

/-- Carries out calls one after the other. -/
def after (s : Scopes) (calls : List ContextCall) : Scopes := calls.foldl make s

end Scopes

end LivePage
