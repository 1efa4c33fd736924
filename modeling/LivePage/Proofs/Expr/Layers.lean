import LivePage.Expr.Scopes

/-!
# Contexts as maps in layers

However a context is made, it is the map that its layers give when inner ones are put over outer
ones. Look-up goes from the inside out and the flat map is built from the outside in; both show
the last binding that the innermost layer with the name gives to it. Frames are shared between
contexts, and calls that come later do not change what a context shows.

* `Context.GivenLast`, `Context.Shows`: what a context shows of its layers.
  `Context.shows_ofLayers` says that it does.
* `makeAll_context`: the contexts that calls make are those of the layers that were given.
* `Scopes.chain_eq_of_append`: a frame stored later changes nothing that is read from an earlier
  one. `Scopes.contexts_make` is one call and `Scopes.contexts_after` all of them.
* `Scopes.layered`: the whole statement.
-/

namespace LivePage

/-! ## Maps in layers -/

namespace KeyMap

variable {α : Type}

theorem lookup_eq_findSome? (k : String) (entries : List (String × α)) :
    lookup k entries = entries.findSome? fun e => if k = e.1 then some e.2 else none := by
  induction entries with
  | nil => rfl
  | cons e rest ih =>
    obtain ⟨k', v'⟩ := e
    rw [lookup, List.findSome?_cons, ih]
    split <;> rfl

/-- Look-up in a list finds the first entry of a key. -/
theorem lookup_eq_some_iff_append {entries : List (String × α)} {k : String} {v : α} :
    lookup k entries = some v ↔
      ∃ before after, entries = before ++ (k, v) :: after ∧ k ∉ before.map Prod.fst := by
  rw [lookup_eq_findSome?, List.findSome?_eq_some_iff]
  simp only [Option.ite_none_right_eq_some, Option.some.injEq, ite_eq_right_iff, reduceCtorEq,
    imp_false]
  constructor
  · rintro ⟨before, ⟨k', v'⟩, after, rfl, ⟨rfl, rfl⟩, hbefore⟩
    refine ⟨before, after, rfl, fun hk => ?_⟩
    obtain ⟨e, he, hke⟩ := List.mem_map.mp hk
    exact hbefore e he hke.symm
  · rintro ⟨before, after, rfl, hbefore⟩
    refine ⟨before, (k, v), after, rfl, ⟨rfl, rfl⟩, fun e he hke => hbefore ?_⟩
    exact List.mem_map.mpr ⟨e, he, hke.symm⟩

end KeyMap

namespace Context

/-- The last of the bindings that a layer gives to a name. -/
def GivenLast (layer : Layer) (name : String) (binding : Binding) : Prop :=
  ∃ before after, layer = before ++ (name, binding) :: after ∧ name ∉ after.map Prod.fst

/-- What a context shows of its layers, the innermost of which is the first. -/
structure Shows (ctx : Context) (layers : List Layer) : Prop where
  lookup_eq_some_iff : ∀ name binding, ctx.lookup name = some binding ↔
    ∃ inner layer outer, layers = inner ++ layer :: outer ∧
      (∀ l ∈ inner, name ∉ l.map Prod.fst) ∧ GivenLast layer name binding
  mem_flatten_iff : ∀ name binding,
    (name, binding) ∈ ctx.flatten.entries ↔ ctx.lookup name = some binding
  lookup_on : ∀ (layering : Layering) (name : String), name ∉ layering.layer.map Prod.fst →
    (layering.on ctx).lookup name = ctx.lookup name
  depth_eq : ctx.depth = layers.length

/-- The context with the given layers. -/
def ofLayers (layers : List Layer) : Context := ⟨layers.map KeyMap.ofList⟩

theorem get?_ofList_eq_some_iff_givenLast {layer : Layer} {name : String} {binding : Binding} :
    (KeyMap.ofList layer).get? name = some binding ↔ GivenLast layer name binding := by
  rw [KeyMap.get?_ofList, KeyMap.lookup_eq_some_iff_append]
  constructor
  · rintro ⟨after, before, hreverse, hafter⟩
    refine ⟨before.reverse, after.reverse, ?_, ?_⟩
    · rw [← List.reverse_reverse layer, hreverse]
      simp
    · rwa [List.map_reverse, List.mem_reverse]
  · rintro ⟨before, after, rfl, hafter⟩
    refine ⟨after.reverse, before.reverse, by simp, ?_⟩
    rwa [List.map_reverse, List.mem_reverse]

theorem on_eq_child (ctx : Context) (layering : Layering) :
    layering.on ctx = ctx.child layering.layer := by
  cases layering <;> rfl

/-- A new layer hides nothing but what it names. -/
theorem lookup_on {layering : Layering} {name : String}
    (h : name ∉ layering.layer.map Prod.fst) (ctx : Context) :
    (layering.on ctx).lookup name = ctx.lookup name := by
  rw [on_eq_child, lookup_child, KeyMap.get?_ofList_eq_none_iff.mpr h, Option.none_or]

theorem shows_ofLayers (layers : List Layer) : (ofLayers layers).Shows layers where
  lookup_eq_some_iff name binding := by
    rw [lookup, ofLayers, List.findSome?_map, List.findSome?_eq_some_iff]
    simp only [Function.comp_apply, KeyMap.get?_ofList_eq_none_iff,
      get?_ofList_eq_some_iff_givenLast]
    constructor
    · rintro ⟨inner, layer, outer, hlayers, hlayer, hinner⟩
      exact ⟨inner, layer, outer, hlayers, hinner, hlayer⟩
    · rintro ⟨inner, layer, outer, hlayers, hinner, hlayer⟩
      exact ⟨inner, layer, outer, hlayers, hlayer, hinner⟩
  mem_flatten_iff name binding := by rw [← KeyMap.get?_eq_some_iff, get?_flatten]
  lookup_on layering name h := lookup_on h _
  depth_eq := List.length_map ..

end Context

/-! ## Contexts as values -/

theorem Context.ofJson_eq_ofLayers (data : Json) : ofJson data = ofLayers [.ofJson data] := by
  cases data <;> rfl

open Context

/-- A call makes the context of the layers that it gives. -/
theorem ContextCall.context_map_ofLayers (made : List (List Layer)) (call : ContextCall) :
    call.context (made.map ofLayers) = ofLayers (call.layers made) := by
  cases call with
  | new => rfl
  | ofJson data => exact ofJson_eq_ofLayers data
  | extend base layering =>
    rw [ContextCall.context, ContextCall.layers, List.getElem?_map, on_eq_child]
    cases made[base]? <;> rfl

theorem makeAll_context (made : List (List Layer)) (calls : List ContextCall) :
    makeAll ContextCall.context (made.map ofLayers) calls =
      (makeAll ContextCall.layers made calls).map ofLayers := by
  induction calls generalizing made with
  | nil => rfl
  | cons call calls ih =>
    have hstep : made.map ofLayers ++ [call.context (made.map ofLayers)] =
        (made ++ [call.layers made]).map ofLayers := by
      rw [ContextCall.context_map_ofLayers, List.map_append, List.map_singleton]
    rw [makeAll, List.foldl_cons, hstep]
    exact ih (made ++ [call.layers made])

theorem length_makeAll {α : Type} (make : List α → ContextCall → α) (made : List α)
    (calls : List ContextCall) : (makeAll make made calls).length = made.length + calls.length := by
  induction calls generalizing made with
  | nil => rfl
  | cons call calls ih =>
    rw [makeAll, List.foldl_cons, List.length_cons]
    refine (ih _).trans ?_
    rw [List.length_append, List.length_singleton]
    omega

/-! ## Contexts as references -/

namespace Scopes

variable {s t : Scopes}

theorem chain_some {i : Nat} (h : i < s.frames.length) :
    s.chain (some i) = s.frames[i].bindings :: s.chain s.frames[i].parent := by
  rw [chain, dif_pos h]

/-- What is read from a frame does not depend on frames that are stored later. -/
theorem chain_eq_of_append {more : List Frame} (h : t.frames = s.frames ++ more)
    {place : Option Nat} (hplace : ∀ p ∈ place, p < s.frames.length) :
    t.chain place = s.chain place := by
  -- The frame around a frame is an earlier one.
  induction place using chain.induct s with
  | case1 => rw [chain, chain]
  | case2 i hi ih =>
    have hit : i < t.frames.length := by
      rw [h, List.length_append]
      omega
    have hframe : t.frames[i] = s.frames[i] := by
      simp only [h, List.getElem_append_left hi]
    rw [chain_some hi, chain_some hit, hframe]
    refine congrArg _ (ih fun p hp => ?_)
    exact Nat.lt_trans (s.parent_lt i hi p hp) hi
  | case3 i hi => exact absurd (hplace i rfl) hi

/-- A store was followed by another one, which has all its frames and contexts at their places. -/
structure GrowsTo (s t : Scopes) : Prop where
  frames_eq : ∃ more, t.frames = s.frames ++ more
  heads_eq : ∃ more, t.heads = s.heads ++ more

namespace GrowsTo

theorem refl (s : Scopes) : s.GrowsTo s :=
  ⟨⟨[], (List.append_nil _).symm⟩, ⟨[], (List.append_nil _).symm⟩⟩

theorem trans {r : Scopes} (hrs : r.GrowsTo s) (hst : s.GrowsTo t) : r.GrowsTo t := by
  obtain ⟨⟨frames, hframes⟩, heads, hheads⟩ := hrs
  obtain ⟨⟨frames', hframes'⟩, heads', hheads'⟩ := hst
  exact ⟨⟨frames ++ frames', by rw [hframes', hframes, List.append_assoc]⟩,
    heads ++ heads', by rw [hheads', hheads, List.append_assoc]⟩

/-- Every context keeps what it shows. -/
theorem context_eq (h : s.GrowsTo t) {head : Option Nat} (hhead : head ∈ s.heads) :
    t.context head = s.context head := by
  obtain ⟨more, hframes⟩ := h.frames_eq
  rw [context, context, chain_eq_of_append hframes (s.head_lt head hhead)]

/-- Every context stays where it is. -/
theorem heads_getElem?_eq (h : s.GrowsTo t) {number : Nat} {head : Option Nat}
    (hhead : s.heads[number]? = some head) : t.heads[number]? = some head := by
  obtain ⟨more, hheads⟩ := h.heads_eq
  rw [hheads, List.getElem?_append_left (List.getElem?_eq_some_iff.mp hhead).1, hhead]

end GrowsTo

theorem growsTo_make (s : Scopes) (call : ContextCall) : s.GrowsTo (s.make call) := by
  cases call with
  | new => exact ⟨⟨[], (List.append_nil _).symm⟩, _, rfl⟩
  | ofJson data => exact ⟨⟨_, rfl⟩, _, rfl⟩
  | extend base layering => exact ⟨⟨_, rfl⟩, _, rfl⟩

theorem growsTo_after (s : Scopes) (calls : List ContextCall) : s.GrowsTo (s.after calls) := by
  induction calls generalizing s with
  | nil => exact .refl s
  | cons call calls ih => exact (growsTo_make s call).trans (ih (s.make call))

theorem GrowsTo.contexts_eq (h : s.GrowsTo t) {head : Option Nat}
    (hheads : t.heads = s.heads ++ [head]) : t.contexts = s.contexts ++ [t.context head] := by
  rw [contexts, contexts, hheads, List.map_append, List.map_singleton]
  refine congrArg (· ++ [t.context head]) ?_
  exact List.map_congr_left fun earlier hearlier => h.context_eq hearlier

theorem context_none (s : Scopes) : s.context none = Context.empty := by
  rw [context, chain]
  rfl

/-- A frame that is pushed is the innermost layer of a new context. -/
theorem contexts_push (s : Scopes) (parent : Option Nat) (h : ∀ p ∈ parent, p < s.frames.length)
    (layer : Layer) :
    (s.push parent h layer).contexts = s.contexts ++ [(s.context parent).child layer] := by
  have hgrows : s.GrowsTo (s.push parent h layer) := ⟨⟨_, rfl⟩, _, rfl⟩
  have hlast : s.frames.length < (s.push parent h layer).frames.length := by
    simp [push]
  have hframe : (s.push parent h layer).frames[s.frames.length] =
      ⟨KeyMap.ofList layer, parent⟩ := by
    simp [push]
  rw [hgrows.contexts_eq rfl, context, chain_some hlast, hframe,
    chain_eq_of_append (s := s) rfl h]
  rfl

theorem context_head (s : Scopes) (number : Nat) :
    s.context (s.head number) = s.contexts[number]?.getD .empty := by
  rw [head, contexts, List.getElem?_map]
  cases s.heads[number]? with
  | none => exact context_none s
  | some head => rfl

/-- A call makes the context that it makes of the contexts as values. -/
theorem contexts_make (s : Scopes) (call : ContextCall) :
    (s.make call).contexts = s.contexts ++ [call.context s.contexts] := by
  cases call with
  | new =>
    have hgrows : s.GrowsTo s.new := growsTo_make s .new
    rw [make, hgrows.contexts_eq rfl, context_none, ContextCall.context]
  | ofJson data =>
    rw [make, contexts_push, context_none, ContextCall.context, ofJson_eq_ofLayers]
    rfl
  | extend base layering =>
    rw [make, contexts_push, context_head, ContextCall.context, on_eq_child]

theorem contexts_after (s : Scopes) (calls : List ContextCall) :
    (s.after calls).contexts = makeAll ContextCall.context s.contexts calls := by
  induction calls generalizing s with
  | nil => rfl
  | cons call calls ih =>
    rw [after, List.foldl_cons, makeAll, List.foldl_cons, ← contexts_make]
    exact ih (s.make call)

/-- **Contexts are maps in layers.** Whichever calls are made, every one makes a context: that of
the layers that were given to it. Its look-up finds the last binding that the innermost layer with
the name gives to it, its flat map has an entry exactly where look-up finds one, the same, and its
depth is the number of its layers, empty ones included. A further layer changes look-up only for
the names in it. However many contexts are made afterwards, on it or beside it, the reference to the
context stays where it is and shows the same. -/
theorem layered (calls more : List ContextCall) (number : Nat) (h : number < calls.length) :
    ∃ (layers : List Layer) (ctx : Context) (head : Option Nat),
      (makeAll ContextCall.layers [] calls)[number]? = some layers ∧
      (makeAll ContextCall.context [] calls)[number]? = some ctx ∧ ctx.Shows layers ∧
      (empty.after calls).heads[number]? = some head ∧
      (empty.after calls).context head = ctx ∧
      (empty.after (calls ++ more)).heads[number]? = some head ∧
      (empty.after (calls ++ more)).context head = ctx := by
  have hmade : makeAll ContextCall.context [] calls =
      (makeAll ContextCall.layers [] calls).map ofLayers := makeAll_context [] calls
  have hcontexts : (empty.after calls).contexts = makeAll ContextCall.context [] calls :=
    contexts_after empty calls
  obtain ⟨layers, hlayers⟩ :
      ∃ layers, (makeAll ContextCall.layers [] calls)[number]? = some layers :=
    ⟨_, List.getElem?_eq_getElem (by simpa [length_makeAll] using h)⟩
  have hctx : (makeAll ContextCall.context [] calls)[number]? = some (ofLayers layers) := by
    rw [hmade, List.getElem?_map, hlayers, Option.map_some]
  obtain ⟨head, hhead, hshown⟩ : ∃ head, (empty.after calls).heads[number]? = some head ∧
      (empty.after calls).context head = ofLayers layers := by
    rwa [← hcontexts, contexts, List.getElem?_map, Option.map_eq_some_iff] at hctx
  have hgrows : (empty.after calls).GrowsTo (empty.after (calls ++ more)) := by
    rw [after, after, List.foldl_append]
    exact growsTo_after _ more
  refine ⟨layers, ofLayers layers, head, hlayers, hctx, shows_ofLayers layers, hhead, hshown,
    hgrows.heads_getElem?_eq hhead, ?_⟩
  rw [hgrows.context_eq (List.mem_of_getElem? hhead), hshown]

/-- A page's data, a repeated name inside of it, and an empty layer inside of that. -/
def itemCalls : List ContextCall :=
  [.ofJson (.obj [("item", .str "outer"), ("users", .num (.int 1))]),
    .extend 0 (.child [("item", .pending), ("item", .error "timeout")]),
    .extend 1 (.child [])]

/-- Another layer inside of the page's data, and a context without layers. -/
def laterCalls : List ContextCall := [.extend 0 (.withValue "item" (.str "inner")), .new]

theorem layered_itemCalls :
    2 < itemCalls.length ∧
      ∃ ctx head, (makeAll ContextCall.context [] itemCalls)[2]? = some ctx ∧
        ctx.lookup "item" = some (.error "timeout") ∧
        ("users", .value (.num (.int 1))) ∈ ctx.flatten.entries ∧ ctx.depth = 3 ∧
        (ctx.withBinding "item" .pending).lookup "users" = some (.value (.num (.int 1))) ∧
        (empty.after (itemCalls ++ laterCalls)).context head = ctx := by
  obtain ⟨layers, ctx, head, hlayers, hctx, hshows, -, -, -, hlater⟩ :=
    layered itemCalls laterCalls 2 (by decide)
  obtain rfl := Option.some.inj hlayers
  have hitem : ctx.lookup "item" = some (.error "timeout") :=
    (hshows.lookup_eq_some_iff _ _).mpr ⟨[[]], _, _, rfl, by simp, [("item", .pending)], [], rfl,
      by simp⟩
  have husers : ctx.lookup "users" = some (.value (.num (.int 1))) :=
    (hshows.lookup_eq_some_iff _ _).mpr ⟨[[], [("item", .pending), ("item", .error "timeout")]], _,
      [], rfl, by simp, [("item", .value (.str "outer"))], [], rfl, by simp⟩
  refine ⟨by decide, ctx, head, hctx, hitem, (hshows.mem_flatten_iff _ _).mpr husers,
    hshows.depth_eq, ?_, hlater⟩
  exact (hshows.lookup_on (.withBinding "item" .pending) "users" (by decide)).trans husers

end Scopes

end LivePage
