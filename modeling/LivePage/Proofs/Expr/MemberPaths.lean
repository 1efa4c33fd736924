import LivePage.Proofs.Expr.Recognition
import LivePage.Proofs.Expr.Scanning

/-!
# Paths into data

A path is an identifier and keys after it, each in brackets as a string literal or, if it is a word,
after `.` or `?.`. However the keys are written, the tokens parse as the same term, which reads one
member after the other and cannot fail. A member that is there is a part of the value; every other
one is undefined.

* `KeyNotation`, `PathNotation`: the ways to write a key and a list of keys.
* `Term.path`, `parse_path`: the term of a path.
* `Json.Part`, `member_eq_json_iff`: the parts of a value under a key.
* `evaluateSource_path`: the value of a path.
-/

namespace LivePage

/-! ## Notations -/

/-- The ways to write a key: in brackets, as a literal in either quotes, or after `.` or `?.` if it
is a word. -/
inductive KeyNotation (key : String) : List Char → Prop
  | index {quote : Char} {inside : List Char} :
      quote = '\x27' ∨ quote = '\x22' → Token.Inside quote inside key.toList →
      KeyNotation key ('[' :: quote :: (inside ++ [quote, ']']))
  | named {o : Operator} :
      o = .dot ∨ o = .optionalDot → Text.IsWord key.toList → KeyNotation key (o.chars ++ key.toList)

/-- The ways to write a list of keys, one after the other. -/
inductive PathNotation : List String → List Char → Prop
  | nil : PathNotation [] []
  | cons {key : String} {keys : List String} {cs rest : List Char} :
      KeyNotation key cs → PathNotation keys rest → PathNotation (key :: keys) (cs ++ rest)

/-- A key may be written in brackets with the quote and backslashes escaped. -/
theorem KeyNotation.quoted {quote : Char} (hquote : quote = '\x27' ∨ quote = '\x22')
    (key : String) : KeyNotation key ('[' :: ((Token.quoted quote key).toList ++ [']'])) := by
  have hindex := KeyNotation.index hquote (Token.inside_flatMap_escape hquote key.toList)
  rw [Token.quoted, String.toList_ofList]
  simpa using hindex

/-! ## Tokens -/

section

open Token

variable {key x : String} {keys : List String} {cs rest : List Char}

/-- A word is scanned as itself before a text that does not go on with it. -/
theorem Token.scan_word_append (hx : Text.IsWord x.toList)
    (hrest : ∀ c ∈ rest.head?, Text.isWordChar c = false) (expression : String) :
    scan expression 0 (x.toList ++ rest) = (scan expression 0 rest).map (.ident x :: ·) := by
  cases hchars : x.toList with
  | nil =>
    rw [hchars] at hx
    exact hx.elim
  | cons first others =>
    rw [hchars] at hx
    have hscan := scan_spelling (s := .word first others hx.1 hx.2) hrest expression
    rw [Spelling.token, ← hchars, String.ofList_toList] at hscan
    exact hscan

/-- The operators of member access, with none of which another operator begins. -/
def Operator.accesses : List Operator := [.dot, .optionalDot, .openBracket, .closeBracket]

/-- An operator of member access is scanned as itself before every text. -/
theorem Token.scan_access {o : Operator} (ho : o ∈ Operator.accesses) (expression : String)
    (rest : List Char) :
    scan expression 0 (o.chars ++ rest) = (scan expression 0 rest).map (.op o :: ·) := by
  have halone : ∀ o ∈ Operator.accesses, ∀ p ∈ Operator.all, o.chars <+: p.chars → p = o := by
    decide
  refine scan_spelling (s := .operator o) (fun p hp => ?_) expression
  by_contra hlonger
  have hprefix := List.prefix_of_prefix_length_le (List.prefix_append o.chars rest) hp
    (Nat.le_of_lt (Nat.lt_of_not_le hlonger))
  rw [halone o ho p (Operator.mem_all p) hprefix] at hlonger
  exact hlonger (Nat.le_refl _)

/-- What is written after a key goes on no word. -/
theorem PathNotation.isWordChar_head (h : PathNotation keys cs) :
    ∀ c ∈ cs.head?, Text.isWordChar c = false := by
  cases h with
  | nil => exact nofun
  | cons hkey h =>
    intro c hc
    cases hkey with
    | index =>
      obtain rfl : '[' = c := by simpa using hc
      decide +kernel
    | named ho =>
      rcases ho with rfl | rfl
      · obtain rfl : '.' = c := by simpa [Operator.chars] using hc
        decide +kernel
      · obtain rfl : '?' = c := by simpa [Operator.chars] using hc
        decide +kernel

end

/-! ## Terms -/

namespace Term

/-- The term that reads members under a list of keys, one after the other. -/
def path (target : Term) (keys : List String) : Term :=
  keys.foldl (fun target key => .member target (.literal (.json (.str key)))) target

theorem idents_path (target : Term) (keys : List String) :
    (target.path keys).idents = target.idents := by
  induction keys generalizing target with
  | nil => rfl
  | cons key keys ih =>
    rw [path, List.foldl_cons, ← path, ih, idents, idents, List.append_nil]

/-- Reading members does not fail. -/
theorem eval_path {ctx : Context} {target : Term} {v : Value} (h : target.eval ctx = .ok v)
    (keys : List String) :
    (target.path keys).eval ctx =
      .ok (keys.foldl (fun target key => target.member (.json (.str key))) v) := by
  induction keys generalizing target v with
  | nil => exact h
  | cons key keys ih =>
    have hmember : (member target (.literal (.json (.str key)))).eval ctx =
        .ok (v.member (.json (.str key))) := by
      rw [eval, h]
      rfl
    rw [path, List.foldl_cons, ← path, ih hmember, List.foldl_cons]

/-- A word that is not reserved is an identifier. -/
theorem ofWord_of_not_reserved {x : String} (h : x ∉ Names.reserved) : ofWord x = .ident x := by
  have hne {name : String} (hname : name ∈ Names.reserved) : x ≠ name := by
    rintro rfl
    exact h hname
  rw [ofWord, if_neg (hne (by decide)), if_neg (hne (by decide)), if_neg (hne (by decide)),
    if_neg (hne (by decide))]

/-- An operand with its member accesses is an expression. -/
def ParseTree.ofOperand (d : ParseTree (.phrase .access)) : ParseTree (.phrase .expr) :=
  .ofOr (.or (.and (.ofUnary (.ofAccess d)) .andNil) .orNil)

@[simp] theorem ParseTree.tokens_ofOperand (d : ParseTree (.phrase .access)) :
    (ofOperand d).tokens = d.tokens := by simp [ofOperand]

end Term

/-- However a list of keys is written, it is a row of member accesses. -/
theorem PathNotation.exists_tree {keys : List String} {cs : List Char} (h : PathNotation keys cs) :
    ∃ d : Term.ParseTree .moreAccess, (∀ expression, Token.scan expression 0 cs = .ok d.tokens) ∧
      ∀ target, d.term target = target.path keys := by
  induction h with
  | nil => exact ⟨.accessNil, fun expression => rfl, fun target => rfl⟩
  | @cons key keys cs rest hkey hkeys ih =>
    obtain ⟨d, hscan, hterm⟩ := ih
    cases hkey with
    | @index quote inside hquote hinside =>
      refine ⟨.index (.ofOperand (.access (.str key) .accessNil)) d, fun expression => ?_,
        fun target => hterm _⟩
      have hchars : '[' :: quote :: (inside ++ [quote, ']']) ++ rest =
          Operator.openBracket.chars ++ ((Token.Spelling.literal quote inside key.toList hquote
            hinside).chars ++ (Operator.closeBracket.chars ++ rest)) := by
        simp [Operator.chars, Token.Spelling.chars]
      have hliteral : (Token.Spelling.literal quote inside key.toList hquote hinside).EndsBefore
          (Operator.closeBracket.chars ++ rest) := trivial
      rw [hchars, Token.scan_access (by decide), Token.scan_spelling hliteral,
        Token.scan_access (by decide), hscan]
      simp [Except.map, Token.Spelling.token]
    | @named o ho hword =>
      refine ⟨.named o ho key d, fun expression => ?_, fun target => hterm _⟩
      have haccess : o ∈ Operator.accesses := by rcases ho with rfl | rfl <;> decide
      rw [List.append_assoc, Token.scan_access haccess,
        Token.scan_word_append hword hkeys.isWordChar_head, hscan]
      rfl

/-- A path parses as the term that reads its keys, however they are written. -/
theorem parse_path {x path : String} {keys : List String} (hx : Text.IsWord x.toList)
    (hreserved : x ∉ Names.reserved) (h : PathNotation keys path.toList) :
    Term.parse (x ++ path) = .ok ((Term.ident x).path keys) := by
  obtain ⟨d, hscan, hterm⟩ := h.exists_tree
  have htokens : Token.ofText (x ++ path) =
      .ok (Term.ParseTree.ofOperand (.access (.word x) d)).tokens := by
    rw [Token.ofText, String.toList_append, Token.scan_word_append hx h.isWordChar_head, hscan]
    simp [Except.map]
  rw [← hterm, ← Term.ofWord_of_not_reserved hreserved]
  exact Term.bind_eq_ok.mpr ⟨_, htokens, Term.ofTokens_tokens _ _⟩

/-! ## Parts of data -/

/-- The parts of a JSON value under a key: what an object has under it; an item of an array, whose
place the key writes in decimal; and the length of an array and of a string, in code points. -/
inductive Json.Part : Json → String → Json → Prop
  | field {fields : List (String × Json)} {key : String} {w : Json} :
      KeyMap.lookup key fields = some w → Part (.obj fields) key w
  | item {items : List Json} {key : String} {i : Nat} {w : Json} :
      Decimal.Writes i key.toList → items[i]? = some w → Part (.arr items) key w
  | length {items : List Json} : Part (.arr items) "length" (.num (.int items.length))
  | codePoints {s : String} : Part (.str s) "length" (.num (.int s.length))

/-- The length of an array is not under a numeral. -/
theorem not_writes_length (i : Nat) : ¬Decimal.Writes i "length".toList := by
  rw [← Decimal.natural?_eq_some_iff]
  have hnone : Decimal.natural? "length".toList = none := by decide +kernel
  rw [hnone]
  exact nofun

/-- The member of a value under a key is its part there; it is undefined if there is none. -/
theorem Value.member_eq_json_iff {target : Value} {key : String} {w : Json} :
    target.member (.json (.str key)) = .json w ↔ ∃ j, target = .json j ∧ j.Part key w := by
  constructor
  · intro h
    unfold member at h
    dsimp only at h
    split at h
    · rename_i found hfound
      obtain rfl := Value.json.inj h
      split at hfound
      · exact ⟨_, rfl, .field hfound⟩
      · split at hfound
        · rename_i hlength
          obtain rfl : key = "length" := hlength
          cases hfound
          exact ⟨_, rfl, .length⟩
        · obtain ⟨i, hi, hitem⟩ := Option.bind_eq_some_iff.mp hfound
          exact ⟨_, rfl, .item (Decimal.natural?_eq_some_iff.mp hi) hitem⟩
      · split at hfound
        · rename_i hlength
          obtain rfl : key = "length" := hlength
          cases hfound
          exact ⟨_, rfl, .codePoints⟩
        · cases hfound
      · cases hfound
    · cases h
  · rintro ⟨j, rfl, hpart⟩
    cases hpart with
    | field hfield => simp [member, display, Json.display, hfield]
    | length => rfl
    | codePoints => rfl
    | @item items key i w hwrites hitem =>
      have hlength : key ≠ "length" := by
        rintro rfl
        exact not_writes_length i hwrites
      simp [member, display, Json.display, hlength, Decimal.natural?_eq_some_iff.mpr hwrites, hitem]

/-! ## Values of paths -/

/-- Expressions of one term have the same value. -/
theorem evaluateGuarded_eq_of_parse {e e' : String} {t : Term} (h : Term.parse e = .ok t)
    (h' : Term.parse e' = .ok t) (ctx : Context) :
    evaluateGuarded .path ctx e = evaluateGuarded .path ctx e' := by
  rw [evaluateGuarded, evaluateGuarded, Term.freeIdentifiers_eq h, Term.freeIdentifiers_eq h',
    Evaluator.evaluate_path, Evaluator.evaluate_path, evaluateExpression, evaluateExpression, h, h']

/-- A group around a path is evaluated as the path. -/
theorem evaluateSource_grouped_path {x path : String} {keys : List String}
    (hx : Text.IsWord x.toList) (hreserved : x ∉ Names.reserved)
    (h : PathNotation keys path.toList) (ctx : Context) :
    evaluateSource .path ctx (Template.grouped (x ++ path)) =
      evaluateGuarded .path ctx (x ++ path) := by
  have hparse := parse_path hx hreserved h
  obtain ⟨ts, htokens, -⟩ := Term.bind_eq_ok.mp hparse
  have hblank : ∃ c ∈ (x ++ path).toList, Text.isWhiteSpace c = false := by
    cases hchars : x.toList with
    | nil =>
      rw [hchars] at hx
      exact hx.elim
    | cons first others =>
      have hword := hx.isWordChar first (by simp [hchars])
      exact ⟨first, by simp [hchars], Text.isWhiteSpace_of_isWordChar hword⟩
  rw [evaluateSource_eq_of_parse (Template.parse_grouped htokens hblank)]
  exact evaluateGuarded_eq_of_parse (Term.parse_trim hparse) hparse ctx

/-- **Paths read the part of the data that they address.** Let an identifier that is no reserved
word be bound to a JSON value, and let keys be written after it, each in brackets as a string
literal or, if it is a word, after `.` or `?.`. A group around this path has a value: that of
reading one member after the other. A member is the part of a value under a key, if there is one,
and undefined if there is none, so every member of what is undefined is undefined. Whatever the
identifier stands for, it makes no difference how the keys are written. -/
theorem evaluateSource_path (x : String) (hx : Text.IsWord x.toList)
    (hreserved : x ∉ Names.reserved) :
    (∀ (ctx : Context) (v : Json) (keys : List String) (path : String),
      ctx.lookup x = some (.value v) → PathNotation keys path.toList →
      evaluateSource .path ctx (Template.grouped (x ++ path)) =
        .ok (keys.foldl (fun target key => target.member (.json (.str key))) (.json v))) ∧
    (∀ (target : Value) (key : String) (w : Json),
      target.member (.json (.str key)) = .json w ↔ ∃ j, target = .json j ∧ j.Part key w) ∧
    ∀ (ctx : Context) (keys : List String) (path path' : String),
      PathNotation keys path.toList → PathNotation keys path'.toList →
      evaluateSource .path ctx (Template.grouped (x ++ path)) =
        evaluateSource .path ctx (Template.grouped (x ++ path')) := by
  refine ⟨fun ctx v keys path hv h => ?_, fun target key w => Value.member_eq_json_iff,
    fun ctx keys path path' h h' => ?_⟩
  · have hparse := parse_path hx hreserved h
    have hready : ∀ name ∈ freeIdentifiers (x ++ path),
        (∀ m, ctx.lookup name ≠ some (.error m)) ∧ ctx.lookup name ≠ some .pending := by
      intro name hname
      rw [Term.freeIdentifiers_eq hparse, List.mem_eraseDups] at hname
      have hname := (List.mem_filter.mp hname).1
      rw [Term.idents_path] at hname
      obtain rfl := List.mem_singleton.mp hname
      rw [hv]
      exact ⟨nofun, nofun⟩
    have hident : (Term.ident x).eval ctx = .ok (.json v) := by
      rw [Term.eval, Term.evalIdent, hv]
    rw [evaluateSource_grouped_path hx hreserved h, evaluateGuarded_of_ready hready,
      Evaluator.evaluate_path, evaluateExpression, hparse]
    exact Term.eval_path hident keys
  · rw [evaluateSource_grouped_path hx hreserved h, evaluateSource_grouped_path hx hreserved h']
    exact evaluateGuarded_eq_of_parse (parse_path hx hreserved h) (parse_path hx hreserved h') ctx

/-- Rows of which the second has a reserved word and a quote after a brace among its keys. -/
def rowsContext : Context :=
  Context.empty.withValue "rows"
    (.arr [.null, .obj [("new", .obj [("\x7d'", .str "d\u00e9j\u00e0")])]])

theorem evaluateSource_path_rows :
    PathNotation ["+01", "new", "\x7d'", "length"] "[\"+01\"]?.new['\x7d\\''].length".toList ∧
      evaluateSource .path rowsContext
          (Template.grouped ("rows" ++ "[\"+01\"]?.new['\x7d\\''].length")) =
        .ok (.json (.num (.int 4))) := by
  have hpath : PathNotation ["+01", "new", "\x7d'", "length"]
      "[\"+01\"]?.new['\x7d\\''].length".toList := by
    refine Eq.mp (congrArg (PathNotation _) ?_)
      (PathNotation.cons (KeyNotation.quoted (.inr rfl) "+01")
        (.cons (.named (.inr rfl) (by decide +kernel))
          (.cons (KeyNotation.quoted (.inl rfl) "\x7d'")
            (.cons (.named (.inl rfl) (by decide +kernel)) .nil))))
    decide +kernel
  obtain ⟨hvalue, -, -⟩ := evaluateSource_path "rows" (by decide +kernel) (by decide +kernel)
  exact ⟨hpath, hvalue rowsContext _ _ _ rfl hpath⟩

end LivePage
