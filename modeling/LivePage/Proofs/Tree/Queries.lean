import Mathlib.Data.List.Forall2
import Mathlib.Data.List.Nodup
import LivePage.Proofs.Collection.KeyedOverwrite
import LivePage.Tree.Walk

/-!
# What a tree answers, and its preorder

Every question to a tree is one to the list of its components in preorder. How many there are and
which is the first with an id is read off the recursion; for the ids that come again one follows a
walk id by id.

* `Component.ComeAgain`: the members that come again in a list, in the order in which they first do.
* `Census.Records.meet`, `Census.Records.foldl_meet`: one id, and all of them.
* `Component.comeAgain_duplicateIds`, `Component.duplicateIds_eq_nil_iff`: what duplicate ids are,
  and when there are none.
* `Component.queries_preorder`: all questions at once.
-/

namespace LivePage

namespace Component

/-! ## The components and their ids -/

mutual

theorem length_preorder : ∀ c : Component, c.preorder.length = c.count
  | ⟨id, type, props, style, children⟩ => by
    rw [preorder, count, List.length_cons, length_preorderAll children, Nat.add_comm]

theorem length_preorderAll : ∀ cs : List Component, (preorderAll cs).length = countAll cs
  | [] => rfl
  | c :: cs => by
    rw [preorderAll, countAll, List.length_append, length_preorder c, length_preorderAll cs]

end

mutual

theorem map_id_preorder : ∀ c : Component, c.preorder.map id = c.ids
  | ⟨cid, type, props, style, children⟩ => by
    rw [preorder, ids, List.map_cons, map_id_preorderAll children]

theorem map_id_preorderAll : ∀ cs : List Component, (preorderAll cs).map id = idsAll cs
  | [] => rfl
  | c :: cs => by
    rw [preorderAll, idsAll, List.map_append, map_id_preorder c, map_id_preorderAll cs]

end

mutual

/-- A component is found where a walk meets its id first. -/
theorem find?_eq_find?_preorder (i : String) :
    ∀ c : Component, c.find? i = c.preorder.find? fun d => d.id == i
  | ⟨cid, type, props, style, children⟩ => by
    rw [find?, preorder]
    split
    · rename_i h
      rw [List.find?_cons_of_pos (by simpa using h)]
    · rename_i h
      rw [List.find?_cons_of_neg (by simpa using h), findAmong?_eq_find?_preorderAll i children]

theorem findAmong?_eq_find?_preorderAll (i : String) :
    ∀ cs : List Component, findAmong? i cs = (preorderAll cs).find? fun d => d.id == i
  | [] => rfl
  | c :: cs => by
    rw [findAmong?, preorderAll, List.find?_append, find?_eq_find?_preorder i c,
      findAmong?_eq_find?_preorderAll i cs]

end

theorem find?_eq_none_iff {c : Component} {i : String} :
    c.find? i = none ↔ ∀ d ∈ c.preorder, d.id ≠ i := by
  rw [find?_eq_find?_preorder, List.find?_eq_none]
  simp only [beq_iff_eq, ne_eq]

/-- Where all ids are different, every component is found by its own. -/
theorem find?_id_eq_some {c d : Component} (h : (c.preorder.map id).Nodup)
    (hd : d ∈ c.preorder) : c.find? d.id = some d := by
  rw [find?_eq_find?_preorder]
  exact Keyed.get?_of_mem h hd

/-! ## Members that come again -/

/-- At a place of a list a member stands for the second time. -/
def SecondAt (xs : List String) (x : String) (i : Nat) : Prop :=
  xs[i]? = some x ∧ (xs.take i).count x = 1

/-- The members that come again in a list, each once, in the order of the places at which they come
for the second time. -/
structure ComeAgain (xs found : List String) : Prop where
  mem_iff : ∀ x, x ∈ found ↔ 2 ≤ xs.count x
  nodup : found.Nodup
  ordered : ∃ places : List Nat, places.Pairwise (· < ·) ∧
    List.Forall₂ (SecondAt xs) found places

variable {xs found : List String} {x y : String} {i : Nat}

theorem SecondAt.lt_length (h : SecondAt xs x i) : i < xs.length :=
  (List.getElem?_eq_some_iff.mp h.1).1

/-- A place keeps its member when the list grows. -/
theorem SecondAt.append (h : SecondAt xs x i) (ys : List String) : SecondAt (xs ++ ys) x i := by
  have hi := h.lt_length
  constructor
  · rw [List.getElem?_append_left hi, h.1]
  · rw [List.take_append_of_le_length (Nat.le_of_lt hi), h.2]

/-- What came once stands for the second time at the end. -/
theorem secondAt_length (h : xs.count x = 1) : SecondAt (xs ++ [x]) x xs.length := by
  refine ⟨List.getElem?_concat_length, ?_⟩
  rw [List.take_left, h]

/-- Places at which members stand for the second time are within the list. -/
theorem lt_length_of_forall₂ {places : List Nat} (h : List.Forall₂ (SecondAt xs) found places) :
    ∀ i ∈ places, i < xs.length := by
  induction h with
  | nil => simp
  | cons hfirst _ ih => exact List.forall_mem_cons.mpr ⟨hfirst.lt_length, ih⟩

namespace ComeAgain

theorem nil : ComeAgain [] [] := ⟨by simp, List.nodup_nil, [], .nil, .nil⟩

/-- A list without such members has all its members once. -/
theorem eq_nil_iff (h : ComeAgain xs found) : found = [] ↔ xs.Nodup := by
  rw [List.eq_nil_iff_forall_not_mem, List.nodup_iff_count_le_one]
  refine forall_congr' fun x => ?_
  rw [h.mem_iff]
  omega

/-- What came never, or again already, does not come for the second time. -/
theorem keep (h : ComeAgain xs found) (hx : xs.count x ≠ 1) : ComeAgain (xs ++ [x]) found where
  mem_iff y := by
    rw [h.mem_iff, List.count_append, List.count_singleton]
    split
    · rename_i hxy
      obtain rfl : x = y := by simpa using hxy
      omega
    · rfl
  nodup := h.nodup
  ordered := by
    obtain ⟨places, hascending, hsecond⟩ := h.ordered
    exact ⟨places, hascending, hsecond.imp fun y i hy => hy.append [x]⟩

/-- What came once comes for the second time, after all that did before. -/
theorem add (h : ComeAgain xs found) (hx : xs.count x = 1) :
    ComeAgain (xs ++ [x]) (found ++ [x]) where
  mem_iff y := by
    rw [List.mem_append, List.mem_singleton, h.mem_iff, List.count_append, List.count_singleton]
    by_cases hxy : y = x
    · subst hxy
      simp [hx]
    · have hyx : x ≠ y := fun heq => hxy heq.symm
      simp [hxy, hyx]
  nodup := by
    have hmem : x ∉ found := by
      rw [h.mem_iff, hx]
      decide
    exact List.nodup_append.mpr ⟨h.nodup, List.nodup_singleton x, by
      rintro y hy z hz rfl
      rw [List.mem_singleton] at hz
      exact hmem (hz ▸ hy)⟩
  ordered := by
    obtain ⟨places, hascending, hsecond⟩ := h.ordered
    refine ⟨places ++ [xs.length], ?_, ?_⟩
    · refine List.pairwise_append.mpr ⟨hascending, List.pairwise_singleton _ _, ?_⟩
      intro i hi j hj
      rw [List.mem_singleton.mp hj]
      exact lt_length_of_forall₂ hsecond i hi
    · refine List.rel_append (hsecond.imp fun y i hy => hy.append [x]) ?_
      exact .cons (secondAt_length hx) .nil

end ComeAgain

end Component

/-! ## What a walk takes down -/

namespace Census

open Component

variable {s : Census} {done : List String}

/-- A walk has met the members of a list, in their order. -/
structure Records (s : Census) (done : List String) : Prop where
  contains_iff : ∀ id, s.seen.contains id = true ↔ id ∈ done
  comeAgain : ComeAgain done s.again

theorem records_empty : empty.Records [] := ⟨fun id => by simp [empty], .nil⟩

/-- An id was met but not yet again exactly if it came once. -/
theorem Records.met_once_iff (h : s.Records done) (id : String) :
    (s.seen.contains id && !s.again.contains id) = true ↔ done.count id = 1 := by
  rw [Bool.and_eq_true, h.contains_iff, Bool.not_eq_true', ← Bool.not_eq_true,
    List.contains_iff_mem, h.comeAgain.mem_iff, ← List.one_le_count_iff]
  omega

/-- An id that is met is taken down again if it was met just once before. -/
theorem Records.meet (h : s.Records done) (id : String) : (s.meet id).Records (done ++ [id]) where
  contains_iff other := by
    rw [Census.meet, KeySet.contains_add, Bool.or_eq_true, beq_iff_eq, h.contains_iff,
      List.mem_append, List.mem_singleton, or_comm]
  comeAgain := by
    rw [Census.meet]
    split
    · rename_i honce
      exact h.comeAgain.add ((h.met_once_iff id).mp honce)
    · rename_i hother
      exact h.comeAgain.keep fun hcount => hother ((h.met_once_iff id).mpr hcount)

theorem Records.foldl_meet (h : s.Records done) (ids : List String) :
    (ids.foldl Census.meet s).Records (done ++ ids) := by
  induction ids generalizing s done with
  | nil => rwa [List.append_nil]
  | cons id ids ih =>
    have hrest := ih (h.meet id)
    rwa [List.append_assoc, List.singleton_append] at hrest

end Census

namespace Component

mutual

/-- A walk over a tree meets its ids one after the other. -/
theorem walk_eq_foldl_meet : ∀ (s : Census) (c : Component), c.walk s = c.ids.foldl Census.meet s
  | s, ⟨id, type, props, style, children⟩ => by
    rw [walk, ids, List.foldl_cons, walkAll_eq_foldl_meet (s.meet id) children]

theorem walkAll_eq_foldl_meet : ∀ (s : Census) (cs : List Component),
    walkAll s cs = (idsAll cs).foldl Census.meet s
  | s, [] => rfl
  | s, c :: cs => by
    rw [walkAll, idsAll, List.foldl_append, walkAll_eq_foldl_meet (walk s c) cs,
      walk_eq_foldl_meet s c]

end

/-- The search in a list takes down what a walk along the list does. -/
theorem repetitions_eq_foldl_meet (s : Census) {seen : List String}
    (hseen : ∀ id, seen.contains id = s.seen.contains id) (ids : List String) :
    repetitions seen s.again ids = (ids.foldl Census.meet s).again := by
  induction ids generalizing s seen with
  | nil => rfl
  | cons id ids ih =>
    have hmore (other : String) :
        (id :: seen).contains other = (s.meet id).seen.contains other := by
      rw [List.contains_cons, hseen, Census.meet, KeySet.contains_add]
    rw [repetitions, List.foldl_cons]
    split
    · rename_i hid
      have hagain : (if s.again.contains id then s.again else s.again ++ [id]) =
          (s.meet id).again := by
        rw [Census.meet, ← hseen, hid]
        cases s.again.contains id <;> rfl
      rw [hagain]
      refine ih (s.meet id) fun other => ?_
      -- The list does not grow by an id that it has.
      rw [← hmore, List.contains_cons]
      cases hother : other == id with
      | true => rw [beq_iff_eq.mp hother, hid, Bool.true_or]
      | false => rw [Bool.false_or]
    · rename_i hid
      have hagain : s.again = (s.meet id).again := by
        rw [Census.meet, ← hseen, eq_false_of_ne_true hid]
        rfl
      rw [hagain]
      exact ih (s.meet id) hmore

theorem duplicateIds_eq_walk (c : Component) : c.duplicateIds = (c.walk .empty).again := by
  rw [duplicateIds, walk_eq_foldl_meet]
  exact repetitions_eq_foldl_meet .empty (fun id => rfl) c.ids

/-- The duplicate ids are those that come again in preorder. -/
theorem comeAgain_duplicateIds (c : Component) : ComeAgain (c.preorder.map id) c.duplicateIds := by
  rw [duplicateIds_eq_walk, walk_eq_foldl_meet, map_id_preorder]
  exact (Census.records_empty.foldl_meet c.ids).comeAgain

/-- A tree has no duplicate ids exactly if its components have different ids. -/
theorem duplicateIds_eq_nil_iff {c : Component} : c.duplicateIds = [] ↔ c.ids.Nodup := by
  rw [(comeAgain_duplicateIds c).eq_nil_iff, map_id_preorder]

/-- **A tree answers for its components in preorder.** It counts all of them, and finds the first
one with an id, if there is one. A walk that takes down what it meets finds the duplicate ids: just
those that come again in preorder, however often and in whichever subtrees, each once, in the order
of the places at which they come for the second time. If there are none, all ids are different, and
every component of the tree is found by its own id. -/
theorem queries_preorder (c : Component) :
    c.count = c.preorder.length ∧
      (∀ i, c.find? i = c.preorder.find? fun d => d.id == i) ∧
      (∀ i, c.find? i = none ↔ ∀ d ∈ c.preorder, d.id ≠ i) ∧
      c.duplicateIds = (c.walk .empty).again ∧
      ComeAgain (c.preorder.map id) c.duplicateIds ∧
      (c.duplicateIds = [] ↔ (c.preorder.map id).Nodup) ∧
      (c.duplicateIds = [] → ∀ d ∈ c.preorder, c.find? d.id = some d) := by
  have hagain := comeAgain_duplicateIds c
  refine ⟨(length_preorder c).symm, fun i => find?_eq_find?_preorder i c,
    fun i => find?_eq_none_iff, duplicateIds_eq_walk c, hagain, hagain.eq_nil_iff,
    fun hnil d hd => ?_⟩
  exact find?_id_eq_some (hagain.eq_nil_iff.mp hnil) hd

/-- Ids that come again in other subtrees, one of them twice. -/
def menuPage : Component :=
  (new "menu" "View").withChildren
    [(new "item" "Block").withChildren [new "icon" "Image", new "item" "Text"],
      (new "icon" "Block").withChild (new "item" "Button"), new "menu" "Text"]

/-- All ids are different. -/
def iconPage : Component :=
  (new "menu" "View").withChildren [(new "item" "Block").withChild (new "icon" "Image"),
    new "label" "Text"]

theorem queries_preorder_menuPage :
    menuPage.count = 7 ∧ menuPage.duplicateIds = ["item", "icon", "menu"] ∧
      ComeAgain ["menu", "item", "icon", "item", "icon", "item", "menu"] ["item", "icon", "menu"] ∧
      iconPage.duplicateIds = [] ∧ iconPage.find? "icon" = some (new "icon" "Image") ∧
      iconPage.find? "menu item" = none := by
  obtain ⟨hcount, -, -, hwalk, hagain, -, -⟩ := queries_preorder menuPage
  obtain ⟨-, -, hnone, -, -, -, hfind⟩ := queries_preorder iconPage
  have hnil : iconPage.duplicateIds = [] := by decide
  refine ⟨hcount, hwalk, hagain, hnil, hfind hnil (new "icon" "Image") ?_, (hnone _).mpr ?_⟩
  · exact .tail _ (.tail _ (.head _))
  · simp [iconPage, withChildren, withChild, new, preorder, preorderAll]

end Component

end LivePage
