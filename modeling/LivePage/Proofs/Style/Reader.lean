/-!
# A plain reader of style attributes

A style attribute is a list of declarations. Semicolons end declarations, except inside quotes and
parentheses; the name of a declaration ends at its first colon, and the rest is its value.

* `Nesting`: the quotes and parentheses that are open. `isClosed`: there are none.
* `pieces`: a text cut at its semicolons, or only at those before which it is closed.
* `declaration?`, `readWith`, `read`: the declarations of a text.
* `SelfContained`: values that neither end their declaration nor reach into the next one.
* `readWith_intercalate_iff`: declarations are read as they were written exactly if their values are
  self-contained.
-/

namespace LivePage

namespace Style

/-! ## Quotes and parentheses -/

/-- The quote that is open, if there is one, and the number of parentheses that are open. -/
structure Nesting where
  quote : Option Char
  depth : Nat
deriving DecidableEq

/-- Reads one character. A quote ends at the next one of its kind, and parentheses inside it do not
count. -/
def Nesting.step (n : Nesting) (c : Char) : Nesting :=
  match n.quote with
  | some q => if c = q then { n with quote := none } else n
  | none =>
    if c = '\x22' ∨ c = '\x27' then { n with quote := some c }
    else if c = '(' then { n with depth := n.depth + 1 }
    else if c = ')' then { n with depth := n.depth - 1 }
    else n

/-- Whether no quote and no parenthesis is open after a text. -/
def isClosed (cs : List Char) : Bool := cs.foldl Nesting.step ⟨none, 0⟩ = ⟨none, 0⟩

/-! ## Declarations -/

/-- A text cut at the semicolons before which it is closed, its characters so far held. -/
def pieces (closed : List Char → Bool) (held : List Char) : List Char → List (List Char)
  | [] => [held]
  | c :: cs =>
    if c = ';' ∧ closed held = true then held :: pieces closed [] cs
    else pieces closed (held ++ [c]) cs

/-- A text without the blank that follows a separator. -/
def dropBlank : List Char → List Char
  | ' ' :: cs => cs
  | cs => cs

/-- The name and the value of a declaration; without a colon it is none. -/
def declaration? (piece : List Char) : Option (String × String) :=
  let cs := dropBlank piece
  match cs.dropWhile (· != ':') with
  | [] => none
  | _ :: value => some (String.ofList (cs.takeWhile (· != ':')), String.ofList (dropBlank value))

/-- The declarations of a text that is cut where it is closed. -/
def readWith (closed : List Char → Bool) (css : String) : List (String × String) :=
  (pieces closed [] css.toList).filterMap declaration?

/-- The declarations of a style attribute. -/
def read : String → List (String × String) := readWith isClosed

/-- The text of a declaration. -/
def declare (d : String × String) : String := d.1 ++ ": " ++ d.2

/-! ## Values -/

/-- No semicolon of a value ends its declaration. -/
def Whole (closed : List Char → Bool) (value : List Char) : Prop :=
  ∀ before after, value = before ++ ';' :: after → closed before = false

/-- Values that neither end their declaration nor, the last one apart, leave it open for the next
one. -/
structure SelfContained (closed : List Char → Bool) (values : List String) : Prop where
  whole : ∀ v ∈ values, Whole closed v.toList
  ends : ∀ v ∈ values.dropLast, closed v.toList = true

/-- A character of property names, or one that stands between a name and a value. -/
def IsPlain (c : Char) : Prop := c.isAlpha = true ∨ c ∈ ['-', ':', ' ']

/-- Plain characters before a text leave it open or closed. -/
def IgnoresPlain (closed : List Char → Bool) : Prop :=
  ∀ plain cs, (∀ c ∈ plain, IsPlain c) → closed (plain ++ cs) = closed cs

/-- The names that are written: letters and hyphens. -/
def IsProperty (name : String) : Prop :=
  name ≠ "" ∧ ∀ c ∈ name.toList, c.isAlpha = true ∨ c = '-'

theorem IsPlain.ne {c d : Char} (h : IsPlain c) (hd : d.isAlpha = false)
    (hd' : d ∉ ['-', ':', ' ']) : c ≠ d := by
  rintro rfl
  rcases h with h | h
  · rw [hd] at h
    cases h
  · exact hd' h

/-- Only quotes and opening parentheses open anything. -/
theorem foldl_step_start {cs : List Char} (h : ∀ c ∈ cs, c ∉ ['\x22', '\x27', '(']) :
    cs.foldl Nesting.step ⟨none, 0⟩ = ⟨none, 0⟩ := by
  induction cs with
  | nil => rfl
  | cons c cs ih =>
    obtain ⟨hc, hcs⟩ := List.forall_mem_cons.mp h
    have hstep : Nesting.step ⟨none, 0⟩ c = ⟨none, 0⟩ := by
      simp only [List.mem_cons, List.not_mem_nil, or_false, not_or] at hc
      simp [Nesting.step, hc]
    rw [List.foldl_cons, hstep, ih hcs]

/-- The reader of style attributes ignores plain characters. -/
theorem ignoresPlain_isClosed : IgnoresPlain isClosed := by
  intro plain cs h
  have hplain : ∀ c ∈ plain, c ∉ ['\x22', '\x27', '('] := by
    intro c hc hmem
    simp only [List.mem_cons, List.not_mem_nil, or_false] at hmem
    rcases hmem with rfl | rfl | rfl <;> exact absurd rfl ((h _ hc).ne (by decide) (by decide))
  rw [isClosed, List.foldl_append, foldl_step_start hplain, isClosed]

/-- So does a reader for which every semicolon separates. -/
theorem ignoresPlain_true : IgnoresPlain fun _ => true := fun _ _ _ => rfl

/-- A text without semicolons is whole. -/
theorem whole_of_not_mem {closed : List Char → Bool} {cs : List Char} (h : ';' ∉ cs) :
    Whole closed cs := by
  rintro before after rfl
  exact absurd (List.mem_append_right _ List.mem_cons_self) h

theorem selfContained_singleton {closed : List Char → Bool} {v : String} :
    SelfContained closed [v] ↔ Whole closed v.toList :=
  ⟨fun h => h.whole v List.mem_cons_self,
    fun h => ⟨fun w hw => by rwa [List.mem_singleton.mp hw], fun w hw => by cases hw⟩⟩

theorem selfContained_cons_cons {closed : List Char → Bool} {v w : String} {vs : List String} :
    SelfContained closed (v :: w :: vs) ↔
      Whole closed v.toList ∧ closed v.toList = true ∧ SelfContained closed (w :: vs) := by
  constructor
  · rintro ⟨hwhole, hends⟩
    rw [List.forall_mem_cons] at hwhole
    rw [List.dropLast_cons_cons, List.forall_mem_cons] at hends
    exact ⟨hwhole.1, hends.1, hwhole.2, hends.2⟩
  · rintro ⟨hv, hclosed, hwhole, hends⟩
    refine ⟨List.forall_mem_cons.mpr ⟨hv, hwhole⟩, ?_⟩
    rw [List.dropLast_cons_cons]
    exact List.forall_mem_cons.mpr ⟨hclosed, hends⟩

/-- Where every semicolon separates, the self-contained values are those without one. -/
theorem selfContained_true_iff {values : List String} :
    SelfContained (fun _ => true) values ↔ ∀ v ∈ values, ';' ∉ v.toList := by
  constructor
  · intro h v hv hmem
    obtain ⟨before, after, hv'⟩ := List.append_of_mem hmem
    cases h.whole v hv before after hv'
  · intro h
    exact ⟨fun v hv => whole_of_not_mem (h v hv), fun _ _ => rfl⟩

/-! ## Cutting -/

variable {closed : List Char → Bool} {held cs : List Char}

theorem whole_cons_iff {c : Char} :
    Whole closed (c :: cs) ↔
      ¬(c = ';' ∧ closed [] = true) ∧ Whole (fun w => closed (c :: w)) cs := by
  constructor
  · intro h
    refine ⟨fun ⟨hc, hclosed⟩ => ?_, fun before after hcs => ?_⟩
    · have hopen := h [] cs (by rw [hc, List.nil_append])
      rw [hclosed] at hopen
      cases hopen
    · exact h (c :: before) after (by rw [hcs, List.cons_append])
  · rintro ⟨hc, hcs⟩ before after h
    cases before with
    | nil => exact Bool.eq_false_iff.mpr fun hclosed => hc ⟨(List.cons.inj h).1, hclosed⟩
    | cons b before =>
      obtain ⟨rfl, htail⟩ := List.cons.inj h
      exact hcs before after htail

/-- A text is held up to its first separating semicolon. -/
theorem pieces_append {w : List Char} (h : Whole (fun cs => closed (held ++ cs)) w) :
    pieces closed held (w ++ cs) = pieces closed (held ++ w) cs := by
  induction w generalizing held with
  | nil => rw [List.nil_append, List.append_nil]
  | cons c w ih =>
    obtain ⟨hc, hw⟩ := whole_cons_iff.mp h
    rw [List.append_nil] at hc
    rw [List.cons_append, pieces, if_neg hc, ih, List.append_assoc, List.singleton_append]
    simpa only [List.append_assoc, List.singleton_append] using hw

/-- The first piece ends with the text, or at its first separating semicolon. -/
theorem exists_pieces_eq (closed : List Char → Bool) (held cs : List Char) :
    ∃ w rest, pieces closed held cs = (held ++ w) :: rest ∧
      Whole (fun cs => closed (held ++ cs)) w ∧ ((cs = w ∧ rest = []) ∨
        ∃ ys, cs = w ++ ';' :: ys ∧ closed (held ++ w) = true ∧ rest = pieces closed [] ys) := by
  induction cs generalizing held with
  | nil =>
    refine ⟨[], [], ?_, whole_of_not_mem List.not_mem_nil, .inl ⟨rfl, rfl⟩⟩
    rw [pieces, List.append_nil]
  | cons c cs ih =>
    rw [pieces]
    split
    -- the character ends the piece
    next hc =>
      rw [hc.1]
      exact ⟨[], _, by rw [List.append_nil], (whole_of_not_mem List.not_mem_nil),
        .inr ⟨cs, rfl, by rw [List.append_nil, hc.2], rfl⟩⟩
    -- the character is held, so it belongs to the first piece
    next hc =>
      obtain ⟨w, rest, hpieces, hwhole, hend⟩ := ih (held ++ [c])
      simp only [List.append_assoc, List.singleton_append] at hpieces hwhole hend
      refine ⟨c :: w, rest, hpieces, whole_cons_iff.mpr ⟨?_, hwhole⟩, ?_⟩
      · rwa [List.append_nil]
      · exact hend.imp (fun h => ⟨congrArg (c :: ·) h.1, h.2⟩)
          fun ⟨ys, hcs, h⟩ => ⟨ys, congrArg (c :: ·) hcs, h⟩

/-! ## Reading -/

/-- What stands before a value: perhaps a blank, the name, the colon and a blank. -/
def leadIn (blank : List Char) (name : String) : List Char := blank ++ name.toList ++ [':', ' ']

variable {blank : List Char} {name : String}

theorem IsProperty.ne_colon (h : IsProperty name) : ∀ c ∈ name.toList, (c != ':') = true := by
  intro c hc
  rw [bne_iff_ne]
  rintro rfl
  exact absurd (h.2 ':' hc) (by decide)

theorem isPlain_leadIn (hn : IsProperty name) (hb : blank = [] ∨ blank = [' ']) :
    ∀ c ∈ leadIn blank name, IsPlain c := by
  intro c hc
  simp only [leadIn, List.mem_append] at hc
  rcases hc with (hc | hc) | hc
  · rcases hb with rfl | rfl
    · cases hc
    · exact .inr (by rw [List.mem_singleton.mp hc]; decide)
  · exact (hn.2 c hc).imp_right fun h => by rw [h]; decide
  · exact .inr (List.mem_cons_of_mem _ hc)

/-- A name, a colon, a blank and a value are a declaration. -/
theorem declaration?_leadIn (hn : IsProperty name) (hb : blank = [] ∨ blank = [' '])
    (value : List Char) :
    declaration? (leadIn blank name ++ value) = some (name, String.ofList value) := by
  have hdrop : dropBlank (leadIn blank name ++ value) = name.toList ++ ':' :: ' ' :: value := by
    rcases hb with rfl | rfl
    · obtain ⟨c, cs, hl⟩ := List.exists_cons_of_ne_nil (mt String.toList_eq_nil_iff.mp hn.1)
      have hne : c ≠ ' ' := by
        rintro rfl
        exact absurd (hn.2 ' ' (by rw [hl]; exact List.mem_cons_self)) (by decide)
      simp only [leadIn, hl, List.nil_append, List.cons_append, List.append_assoc]
      rw [dropBlank]
      simpa using hne
    · simp [leadIn, dropBlank]
  have hcolon : (':' :: ' ' :: value).dropWhile (· != ':') = ':' :: ' ' :: value := rfl
  have hend : (':' :: ' ' :: value).takeWhile (· != ':') = [] := rfl
  rw [declaration?, hdrop]
  simp only [List.dropWhile_append_of_pos hn.ne_colon, List.takeWhile_append_of_pos hn.ne_colon,
    hcolon, hend, List.append_nil, dropBlank, String.ofList_toList]

/-- The first declaration has the whole value exactly if it is whole and the text goes on with a
semicolon that separates, or ends. -/
theorem filterMap_pieces_leadIn_iff (hc : IgnoresPlain closed) (hn : IsProperty name)
    (hb : blank = [] ∨ blank = [' ']) {value : String} {tail : List Char}
    {ds : List (String × String)} :
    (pieces closed [] (leadIn blank name ++ (value.toList ++ tail))).filterMap declaration? =
        (name, value) :: ds ↔
      Whole closed value.toList ∧ ((tail = [] ∧ ds = []) ∨ ∃ ys, tail = ';' :: ys ∧
        closed value.toList = true ∧ (pieces closed [] ys).filterMap declaration? = ds) := by
  have hplain := isPlain_leadIn hn hb
  have hignore (cs : List Char) : closed (leadIn blank name ++ cs) = closed cs :=
    hc _ cs hplain
  have hlead : pieces closed [] (leadIn blank name ++ (value.toList ++ tail)) =
      pieces closed (leadIn blank name) (value.toList ++ tail) :=
    -- no semicolon stands before the value
    pieces_append (whole_of_not_mem fun hmem =>
      absurd rfl ((hplain _ hmem).ne (by decide) (by decide)))
  rw [hlead]
  constructor
  · intro hread
    obtain ⟨w, rest, hpieces, hwhole, hend⟩ :=
      exists_pieces_eq closed (leadIn blank name) (value.toList ++ tail)
    rw [hpieces, List.filterMap_cons_some (declaration?_leadIn hn hb w)] at hread
    -- the declaration read from the first piece has its text as the value, so it ends where the
    -- value does
    obtain ⟨hd, rfl⟩ := List.cons.inj hread
    obtain rfl : w = value.toList := by rw [← (Prod.mk.inj hd).2, String.toList_ofList]
    simp only [hignore, List.append_cancel_left_eq, List.append_right_eq_self] at hwhole hend
    exact ⟨hwhole, hend.imp (fun h => ⟨h.1, by rw [h.2]; rfl⟩)
      fun ⟨ys, htail, hclosed, hrest⟩ => ⟨ys, htail, hclosed, by rw [hrest]⟩⟩
  · rintro ⟨hwhole, hend⟩
    have hheld : pieces closed (leadIn blank name) (value.toList ++ tail) =
        pieces closed (leadIn blank name ++ value.toList) tail := by
      refine pieces_append ?_
      simpa only [hignore] using hwhole
    rw [hheld]
    rcases hend with ⟨rfl, rfl⟩ | ⟨ys, rfl, hclosed, rfl⟩
    · rw [pieces, List.filterMap_cons_some (declaration?_leadIn hn hb _), String.ofList_toList]
      rfl
    · rw [pieces, if_pos ⟨rfl, (hignore _).trans hclosed⟩,
        List.filterMap_cons_some (declaration?_leadIn hn hb _), String.ofList_toList]

theorem append_leadIn (blank : List Char) (name : String) (cs : List Char) :
    blank ++ (leadIn [] name ++ cs) = leadIn blank name ++ cs := by simp [leadIn]

theorem toList_intercalate_declare (d : String × String) (ds : List (String × String)) :
    ("; ".intercalate ((d :: ds).map declare)).toList = leadIn [] d.1 ++ (d.2.toList ++
      if ds = [] then [] else ';' :: ' ' :: ("; ".intercalate (ds.map declare)).toList) := by
  cases ds <;> simp [declare, leadIn]

/-- The declarations at the beginning of a text, or after a separator and its blank. -/
theorem filterMap_pieces_intercalate_iff (hc : IgnoresPlain closed) {d : String × String}
    {ds : List (String × String)} (hn : ∀ e ∈ d :: ds, IsProperty e.1)
    (hb : blank = [] ∨ blank = [' ']) :
    (pieces closed [] (blank ++ ("; ".intercalate ((d :: ds).map declare)).toList)).filterMap
        declaration? = d :: ds ↔ SelfContained closed ((d :: ds).map Prod.snd) := by
  induction ds generalizing d blank with
  | nil =>
    have hd := hn d List.mem_cons_self
    rw [toList_intercalate_declare, append_leadIn, filterMap_pieces_leadIn_iff hc hd hb]
    simp [selfContained_singleton]
  | cons e ds ih =>
    obtain ⟨hd, hes⟩ := List.forall_mem_cons.mp hn
    have hrest := ih hes (.inr rfl)
    rw [List.singleton_append] at hrest
    have hsplit : SelfContained closed ((d :: e :: ds).map Prod.snd) ↔ Whole closed d.2.toList ∧
        closed d.2.toList = true ∧ SelfContained closed ((e :: ds).map Prod.snd) :=
      selfContained_cons_cons
    rw [toList_intercalate_declare, append_leadIn, filterMap_pieces_leadIn_iff hc hd hb,
      if_neg (List.cons_ne_nil e ds), hsplit, ← hrest]
    refine and_congr_right fun _ => ⟨?_, fun ⟨hclosed, hread⟩ => .inr ⟨_, rfl, hclosed, hread⟩⟩
    rintro (⟨htail, -⟩ | ⟨ys, hys, hclosed, hread⟩)
    · cases htail
    · rw [(List.cons.inj hys).2]
      exact ⟨hclosed, hread⟩

/-- **Reading declarations back.** Declarations with proper names, joined by semicolons, are read as
they were written exactly if their values are self-contained. -/
theorem readWith_intercalate_iff (hc : IgnoresPlain closed) {ds : List (String × String)}
    (hn : ∀ d ∈ ds, IsProperty d.1) :
    readWith closed ("; ".intercalate (ds.map declare)) = ds ↔
      SelfContained closed (ds.map Prod.snd) := by
  cases ds with
  | nil =>
    have hempty : SelfContained closed [] := ⟨nofun, nofun⟩
    exact iff_of_true rfl hempty
  | cons d ds =>
    rw [readWith, ← filterMap_pieces_intercalate_iff hc hn (.inl rfl), List.nil_append]

end Style

end LivePage
