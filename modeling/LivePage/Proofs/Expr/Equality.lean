import LivePage.Expr.Source
import LivePage.Proofs.Expr.Recognition
import LivePage.Proofs.Expr.Spacing

/-!
# Where loose equality depends on the order of its sides

A container on the left is compared as it is, and a container on the right as text. So an array or
an object and the string that is its text are equal in one order and unequal in the other. No other
two values tell the order apart.

* `Value.Quotes`: a string is the text of a container.
* `Json.equals_comm`: equality without conversion does not depend on the order.
* `Json.unopened_displayNumber`: no number looks like a container.
* `Value.looseEquals_comm_of_not_quotes`: loose equality of any other two values.
* `Term.parse_compared`: the term of two expressions in parentheses that are compared.
* `looseEquals_comm_iff`: the values, and the comparisons of expressions that have them.
-/

namespace LivePage

/-! ## Equality without conversion -/

namespace Number

theorem equals_comm (m n : Number) : m.equals n = n.equals m := by
  cases m with
  | int i =>
    cases n with
    | int j => simp [equals, eq_comm]
    | double y => rfl
  | double x =>
    cases n with
    | int j => rfl
    | double y => exact x.equals_comm y

end Number

namespace Json

mutual

/-- Two values are equal in both orders or in neither. -/
theorem equals_comm : ∀ a b : Json, a.equals b = b.equals a
  | .null, b => by cases b <;> rfl
  | .bool x, b => by
    cases b with
    | bool y => simp [equals, eq_comm]
    | _ => rfl
  | .num m, b => by
    cases b with
    | num n => exact m.equals_comm n
    | _ => rfl
  | .str s, b => by
    cases b with
    | str t => simp [equals, eq_comm]
    | _ => rfl
  | .arr xs, b => by
    cases b with
    | arr ys => exact equalsItems_comm xs ys
    | _ => rfl
  | .obj fs, b => by
    cases b with
    | obj gs => exact equalsFields_comm fs gs
    | _ => rfl

theorem equalsItems_comm : ∀ xs ys : List Json, equalsItems xs ys = equalsItems ys xs
  | [], [] | [], _ :: _ | _ :: _, [] => rfl
  | x :: xs, y :: ys => by
    rw [equalsItems, equalsItems, equals_comm x y, equalsItems_comm xs ys]

theorem equalsFields_comm : ∀ fs gs : List (String × Json), equalsFields fs gs = equalsFields gs fs
  | [], [] | [], _ :: _ | _ :: _, [] => rfl
  | (k, x) :: fs, (l, y) :: gs => by
    rw [equalsFields, equalsFields, equals_comm x y, equalsFields_comm fs gs, Bool.beq_comm]

end

end Json

/-! ## The text of a number -/

namespace Text

/-- Nothing in a text opens an array or an object. -/
def Unopened (cs : List Char) : Prop := ∀ c ∈ cs, c ≠ '[' ∧ c ≠ '\x7b'

variable {cs ds : List Char}

theorem Unopened.append (h : Unopened cs) (h' : Unopened ds) : Unopened (cs ++ ds) := by
  intro c hc
  rcases List.mem_append.mp hc with hc | hc
  · exact h c hc
  · exact h' c hc

theorem Unopened.subset (h : Unopened cs) (hsub : ds ⊆ cs) : Unopened ds :=
  fun c hc => h c (hsub hc)

theorem unopened_replicate (n : Nat) : Unopened (List.replicate n '0') := by
  intro c hc
  rw [List.eq_of_mem_replicate hc]
  decide

theorem unopened_digitsOf (n : Nat) : Unopened (Decimal.digitsOf n) := by
  intro c hc
  have hdigit := Nat.isDigit_of_mem_toDigits (by decide) (by decide) hc
  constructor <;> rintro rfl <;> exact absurd hdigit (by decide)

end Text

open Text (Unopened)

namespace Binary64

variable {format : DoubleFormat}

theorem unopened_positionalText (hend : Unopened format.integralEnd.toList) {digits : List Char}
    (hdigits : Unopened digits) (power : Int) :
    Unopened (positionalText format digits power).toList := by
  have hpoint : Unopened ".".toList := by simp [Unopened]
  have hzero : Unopened ['0'] := by simp [Unopened]
  unfold positionalText
  split
  · rw [String.toList_append, String.toList_ofList]
    exact (hdigits.append (Text.unopened_replicate _)).append hend
  · have hfraction := (Text.unopened_replicate ((-power).toNat - digits.length)).append
      (hdigits.subset (List.drop_subset (digits.length - (-power).toNat) digits))
    have hwhole : Unopened (if (digits.take (digits.length - (-power).toNat)).isEmpty then ['0']
        else digits.take (digits.length - (-power).toNat)) := by
      split
      · exact hzero
      · exact hdigits.subset (List.take_subset _ _)
    simp only [String.toList_append, String.toList_ofList]
    exact (hwhole.append hpoint).append hfraction

theorem unopened_scientificText {digits : List Char} (hdigits : Unopened digits) (leading : Int) :
    Unopened (scientificText digits leading).toList := by
  have hpoint : Unopened ['.'] := by simp [Unopened]
  have hsign : Unopened (if leading < 0 then "e-" else "e+").toList := by
    split <;> simp [Unopened]
  unfold scientificText
  dsimp only
  rw [String.toList_append, String.toList_append, String.toList_ofList, String.toList_ofList]
  refine (Unopened.append ?_ hsign).append (Text.unopened_digitsOf _)
  split
  · rename_i d e rest
    refine (hpoint.append hdigits).subset ?_
    simp
  · exact hdigits

theorem unopened_text (hend : Unopened format.integralEnd.toList) (x : Binary64) :
    Unopened (x.text format).toList := by
  cases x with
  | nan => simp [text, Unopened]
  | signed negative rank =>
    have hsign : Unopened (if negative then "-" else "").toList := by
      split <;> simp [Unopened]
    have hzero : Unopened "0".toList := by simp [Unopened]
    have hinf : Unopened "inf".toList := by simp [Unopened]
    unfold text
    dsimp only
    split
    · rw [String.toList_append]
      exact hsign.append hinf
    split
    · rw [String.toList_append, String.toList_append]
      exact (hsign.append hzero).append hend
    · rw [String.toList_append]
      refine hsign.append ?_
      split
      · exact unopened_positionalText hend (Text.unopened_digitsOf _) _
      · exact unopened_scientificText (Text.unopened_digitsOf _) _

end Binary64

namespace Json

theorem unopened_integerText (i : Int) : Unopened (Decimal.integerText i).toList := by
  have hsign : Unopened (if i < 0 then "-" else "").toList := by
    split <;> simp [Unopened]
  rw [Decimal.integerText, String.toList_append, String.toList_ofList]
  exact hsign.append (Text.unopened_digitsOf _)

theorem unopened_numberText (n : Number) : Unopened (numberText n).toList := by
  cases n with
  | int i => exact unopened_integerText i
  | double x => exact x.unopened_text (by simp [doubleFormat, Unopened])

theorem unopened_displayNumber (n : Number) : Unopened (displayNumber n).toList := by
  unfold displayNumber
  split
  · exact unopened_numberText _
  split
  · split
    · exact unopened_integerText _
    · exact unopened_numberText _
  · exact unopened_numberText _

/-! ## Containers -/

/-- An array or an object. -/
def IsContainer : Json → Prop
  | .arr _ => True
  | .obj _ => True
  | _ => False

variable {a b : Json}

theorem not_unopened_compact (h : a.IsContainer) : ¬Unopened a.compact.toList := by
  intro hun
  cases a with
  | arr items => exact (hun '[' (by simp [compact, raw, RawJson.compact])).1 rfl
  | obj fields => exact (hun '\x7b' (by simp [compact, raw, RawJson.compact])).2 rfl
  | _ => exact h

theorem display_of_isContainer (h : a.IsContainer) : a.display = a.compact := by
  cases a with
  | arr items | obj fields => rfl
  | _ => exact h.elim

theorem isNaN_of_isContainer (h : a.IsContainer) : (Value.json a).toNumber.isNaN = true := by
  cases a with
  | arr items | obj fields => rfl
  | _ => exact h.elim

theorem equals_of_isContainer (ha : a.IsContainer) (hb : ¬b.IsContainer) : a.equals b = false := by
  cases a with
  | arr items =>
    cases b with
    | arr items' => exact absurd trivial hb
    | _ => rfl
  | obj fields =>
    cases b with
    | obj fields' => exact absurd trivial hb
    | _ => rfl
  | _ => exact ha.elim

end Json

/-! ## Loose equality -/

namespace Value

/-- The first value is a string, the second a container, and the string is its text. -/
def Quotes : Value → Value → Prop
  | .json (.str s), .json a => a.IsContainer ∧ s = a.compact
  | _, _ => False

variable {l r : Value} {a b : Json}

/-- Undefined and null equal each other and nothing else. -/
theorem looseEquals_of_isNullish (h : l.isNullish = true ∨ r.isNullish = true) :
    l.looseEquals r = (l.isNullish && r.isNullish) := by
  unfold looseEquals
  rw [if_pos (by simpa using h)]

/-- A container on the left is compared as it is. -/
theorem looseEquals_of_isContainer (ha : a.IsContainer) (hb : (Value.json b).isNullish = false) :
    (Value.json a).looseEquals (.json b) = a.equals b := by
  cases a with
  | arr items | obj fields =>
    unfold looseEquals
    rw [hb]
    cases b <;> rfl
  | _ => exact ha.elim

/-- A container on the right is compared as text with what is no container. -/
theorem looseEquals_container (hb : b.IsContainer) (ha : ¬a.IsContainer)
    (hnull : (Value.json a).isNullish = false) :
    (Value.json a).looseEquals (.json b) = (a.display == b.compact) := by
  have hnan := Json.isNaN_of_isContainer hb
  have hdisplay := Json.display_of_isContainer hb
  cases b with
  | arr items | obj fields =>
    cases a with
    | null => exact absurd hnull (by simp [isNullish])
    | arr _ | obj _ => exact absurd trivial ha
    | bool _ | num _ | str _ => simp [looseEquals, isNullish, hnan, hdisplay]
  | _ => exact hb.elim

/-- Values that are neither nullish nor containers are compared as strings or as numbers, and as
text where one of them is no number. -/
theorem looseEquals_comm_scalars (ha : ¬a.IsContainer) (hb : ¬b.IsContainer)
    (hnull : (Value.json a).isNullish = false) (hnull' : (Value.json b).isNullish = false) :
    (Value.json a).looseEquals (.json b) = (Value.json b).looseEquals (.json a) := by
  have hconverted : (if (Value.json a).toNumber.isNaN || (Value.json b).toNumber.isNaN then
        a.display == b.display
      else (Value.json a).toNumber.equals (Value.json b).toNumber) =
      if (Value.json b).toNumber.isNaN || (Value.json a).toNumber.isNaN then
        b.display == a.display
      else (Value.json b).toNumber.equals (Value.json a).toNumber := by
    rw [Bool.or_comm, Bool.beq_comm, Binary64.equals_comm]
  cases a with
  | arr _ | obj _ => exact absurd trivial ha
  | null => cases hnull
  | bool _ | num _ =>
    cases b with
    | arr _ | obj _ => exact absurd trivial hb
    | null => cases hnull'
    | bool _ | num _ | str _ => exact hconverted
  | str s =>
    cases b with
    | arr _ | obj _ => exact absurd trivial hb
    | null => cases hnull'
    | bool _ | num _ => exact hconverted
    | str t => exact Bool.beq_comm

/-- A string is the only value without a container that may be shown as one. -/
theorem quotes_of_display_eq (ha : a.IsContainer) (hb : ¬b.IsContainer)
    (h : b.display = a.compact) : (Value.json b).Quotes (.json a) := by
  have hopened : ¬Unopened b.display.toList := h ▸ Json.not_unopened_compact ha
  cases b with
  | str s => exact ⟨ha, h⟩
  | arr _ | obj _ => exact absurd trivial hb
  | null => exact absurd (by simp [Json.display, Unopened]) hopened
  | bool x => exact absurd (by cases x <;> simp [Json.display, Unopened]) hopened
  | num n => exact absurd (Json.unopened_displayNumber n) hopened

theorem looseEquals_comm_container (ha : a.IsContainer) (hb : ¬b.IsContainer)
    (hnull : (Value.json b).isNullish = false) (h : ¬(Value.json b).Quotes (.json a)) :
    (Value.json a).looseEquals (.json b) = (Value.json b).looseEquals (.json a) := by
  have hne : b.display ≠ a.compact := fun heq => h (quotes_of_display_eq ha hb heq)
  rw [looseEquals_of_isContainer ha hnull, looseEquals_container ha hb hnull,
    Json.equals_of_isContainer ha hb, beq_eq_false_iff_ne.mpr hne]

/-- Two values neither of which quotes the other are loosely equal in both orders or in neither. -/
theorem looseEquals_comm_of_not_quotes (h : ¬(l.Quotes r ∨ r.Quotes l)) :
    l.looseEquals r = r.looseEquals l := by
  obtain ⟨hlr, hrl⟩ := not_or.mp h
  by_cases hnull : l.isNullish = true ∨ r.isNullish = true
  · rw [looseEquals_of_isNullish hnull, looseEquals_of_isNullish hnull.symm, Bool.and_comm]
  rw [not_or, Bool.not_eq_true, Bool.not_eq_true] at hnull
  obtain ⟨hl, hr⟩ := hnull
  cases l with
  | undefined => cases hl
  | json a =>
    cases r with
    | undefined => cases hr
    | json b =>
      by_cases ha : a.IsContainer
      · by_cases hb : b.IsContainer
        · rw [looseEquals_of_isContainer ha hr, looseEquals_of_isContainer hb hl, a.equals_comm]
        · exact looseEquals_comm_container ha hb hr hrl
      · by_cases hb : b.IsContainer
        · exact (looseEquals_comm_container hb ha hl hlr).symm
        · exact looseEquals_comm_scalars ha hb hl hr

/-- A string equals the container that it is the text of, and the container does not equal it. -/
theorem looseEquals_of_quotes (h : l.Quotes r) :
    l.looseEquals r = true ∧ r.looseEquals l = false := by
  unfold Quotes at h
  split at h
  · rename_i s a
    obtain ⟨ha, rfl⟩ := h
    have hstring : ¬(Json.str a.compact).IsContainer := id
    constructor
    · rw [looseEquals_container ha hstring rfl]
      exact beq_self_eq_true _
    · rw [looseEquals_of_isContainer ha rfl, Json.equals_of_isContainer ha hstring]
  · exact h.elim

/-- The order of the sides tells just the strings apart that are the text of the other side. -/
theorem looseEquals_eq_iff :
    l.looseEquals r = r.looseEquals l ↔ ¬(l.Quotes r ∨ r.Quotes l) := by
  refine ⟨?_, looseEquals_comm_of_not_quotes⟩
  rintro heq (h | h)
  · obtain ⟨htrue, hfalse⟩ := looseEquals_of_quotes h
    rw [htrue, hfalse] at heq
    cases heq
  · obtain ⟨htrue, hfalse⟩ := looseEquals_of_quotes h
    rw [htrue, hfalse] at heq
    cases heq

end Value

/-! ## Comparisons of expressions -/

namespace Term

/-- Two expressions in parentheses, compared with an operator. -/
def compared (o : Operator) (a b : String) : String :=
  "(" ++ a ++ ") " ++ o.text ++ " (" ++ b ++ ")"

variable {o : Operator} {a b : String} {s t : Term}

theorem ofText_compared {as bs : List Token} (ha : Token.ofText a = .ok as)
    (hb : Token.ofText b = .ok bs) :
    Token.ofText (compared o a b) =
      .ok (.op .openParen :: as ++ [.op .closeParen] ++
        .op o :: (.op .openParen :: bs ++ [.op .closeParen])) := by
  have hchars : (compared o a b).toList =
      '(' :: (a.toList ++ ')' :: ' ' :: (o.chars ++ ' ' :: '(' :: (b.toList ++ [')']))) := by
    simp [compared, Operator.text]
  have hclose (cs : List Char) : Token.Apart (')' :: cs) :=
    Token.apart_cons Token.endsToken_closeParen cs
  have hblank (cs : List Char) : Token.Apart (' ' :: cs) :=
    Token.apart_cons (Token.endsToken_of_isWhiteSpace (by decide)) cs
  unfold Token.ofText at ha hb ⊢
  rw [hchars, Token.scan_openParen, Token.scan_append_of_apart (hclose _) ha,
    Token.scan_closeParen, Token.scan_whiteSpace _ _ (by decide), Token.scan_op_of_apart (hblank _),
    Token.scan_whiteSpace _ _ (by decide), Token.scan_openParen,
    Token.scan_append_of_apart (hclose _) hb, Token.scan_closeParen]
  simp [Token.scan, Except.map]

/-- The term of a comparison of expressions in parentheses. -/
theorem parse_compared {comparison : Comparison} (ho : o.comparison? = some comparison)
    (ha : parse a = .ok s) (hb : parse b = .ok t) :
    parse (compared o a b) = .ok (.compare comparison s t) := by
  obtain ⟨as, has, hs⟩ := parse_sound ha
  obtain ⟨bs, hbs, ht⟩ := parse_sound hb
  have hderives : Derives .expr
      (.op .openParen :: as ++ [.op .closeParen] ++
        .op o :: (.op .openParen :: bs ++ [.op .closeParen]))
      (.compare comparison s t) :=
    .ofOr (.ofAnd (.ofComparison
      (.compare ho (.ofAccess (.ofPrimary (.paren hs))) (.ofAccess (.ofPrimary (.paren ht))))))
  obtain ⟨d, hd, hterm⟩ := derives_iff.mp hderives
  refine bind_eq_ok.mpr ⟨_, ofText_compared has hbs, ?_⟩
  rw [← hd, ← hterm]
  exact ofTokens_tokens _ d

end Term

section

variable {ctx : Context} {a b : String}

theorem evaluateExpression_of_parse {t : Term} (h : Term.parse a = .ok t) (ctx : Context) :
    evaluateExpression ctx a = t.eval ctx := by
  unfold evaluateExpression
  rw [h]

/-- A comparison of accepted expressions has a value exactly if both of them do. -/
theorem evaluateExpression_compared {o : Operator} {comparison : Comparison}
    (ho : o.comparison? = some comparison) {s t : Term} (ha : Term.parse a = .ok s)
    (hb : Term.parse b = .ok t) {v : Value} :
    evaluateExpression ctx (Term.compared o a b) = .ok v ↔
      ∃ l r, evaluateExpression ctx a = .ok l ∧ evaluateExpression ctx b = .ok r ∧
        v = .ofBool (comparison.holds l r) := by
  rw [evaluateExpression_of_parse (Term.parse_compared ho ha hb), Term.eval,
    evaluateExpression_of_parse ha, evaluateExpression_of_parse hb, Term.bind_eq_ok]
  constructor
  · rintro ⟨l, hl, h⟩
    obtain ⟨r, hr, hv⟩ := Term.bind_eq_ok.mp h
    cases hv
    exact ⟨l, r, hl, hr, rfl⟩
  · rintro ⟨l, r, hl, hr, rfl⟩
    exact ⟨l, hl, Term.bind_eq_ok.mpr ⟨r, hr, rfl⟩⟩

end

/-- **Where loose equality depends on the order of its sides.** Two values are loosely equal in both
orders or in neither, unless one of them is a string and the other a container of which it is the
text: then the string on the left equals the container on the right, and the container on the left
does not equal the string. So let two accepted expressions be compared with `==` or with `!=`. The
comparison has a value if both of them have one; then it is a truth value in either order, and the
same in both unless the value of one quotes the value of the other. -/
theorem looseEquals_comm_iff (l r : Value) :
    (l.looseEquals r = r.looseEquals l ↔ ¬(l.Quotes r ∨ r.Quotes l)) ∧
    (l.Quotes r → l.looseEquals r = true ∧ r.looseEquals l = false) ∧
    ∀ (ctx : Context) (a b : String) (s t : Term), Term.parse a = .ok s → Term.parse b = .ok t →
      ∀ o ∈ [Operator.equal, .unequal],
        ((∃ v, evaluateExpression ctx (Term.compared o a b) = .ok v) ↔
          (∃ v, evaluateExpression ctx a = .ok v) ∧ ∃ v, evaluateExpression ctx b = .ok v) ∧
        (evaluateExpression ctx a = .ok l → evaluateExpression ctx b = .ok r →
          ∃ x y, evaluateExpression ctx (Term.compared o a b) = .ok (.ofBool x) ∧
            evaluateExpression ctx (Term.compared o b a) = .ok (.ofBool y) ∧
            (x = y ↔ ¬(l.Quotes r ∨ r.Quotes l))) := by
  refine ⟨Value.looseEquals_eq_iff, Value.looseEquals_of_quotes, ?_⟩
  intro ctx a b s t ha hb o ho
  obtain ⟨comparison, hcomparison, hholds⟩ : ∃ comparison, o.comparison? = some comparison ∧
      (comparison.holds l r = comparison.holds r l ↔ l.looseEquals r = r.looseEquals l) := by
    simp only [List.mem_cons, List.not_mem_nil, or_false] at ho
    rcases ho with rfl | rfl
    · exact ⟨.equal, rfl, Iff.rfl⟩
    · exact ⟨.unequal, rfl, Bool.not_inj_iff⟩
  have hab {v : Value} : evaluateExpression ctx (Term.compared o a b) = .ok v ↔ _ :=
    evaluateExpression_compared hcomparison ha hb
  have hba {v : Value} : evaluateExpression ctx (Term.compared o b a) = .ok v ↔ _ :=
    evaluateExpression_compared hcomparison hb ha
  constructor
  · constructor
    · rintro ⟨v, hv⟩
      obtain ⟨l', r', hl, hr, -⟩ := hab.mp hv
      exact ⟨⟨l', hl⟩, r', hr⟩
    · rintro ⟨⟨l', hl⟩, r', hr⟩
      exact ⟨_, hab.mpr ⟨l', r', hl, hr, rfl⟩⟩
  · intro hl hr
    exact ⟨_, _, hab.mpr ⟨l, r, hl, hr, rfl⟩, hba.mpr ⟨r, l, hr, hl, rfl⟩,
      hholds.trans Value.looseEquals_eq_iff⟩

/-- A list, and a string that is its text. -/
def listContext : Context :=
  (Context.empty.withValue "list" (.arr [.num (.int 1)])).withValue "text" (.str "[1]")

theorem looseEquals_comm_iff_list :
    Term.parse "list" = .ok (.ident "list") ∧ Term.parse "text" = .ok (.ident "text") ∧
      ∃ x y, evaluateExpression listContext (Term.compared .equal "list" "text") = .ok (.ofBool x) ∧
        evaluateExpression listContext (Term.compared .equal "text" "list") = .ok (.ofBool y) ∧
        x ≠ y := by
  have hlisttokens : Token.ofText "list" = .ok [.ident "list"] := by decide +kernel
  have htexttokens : Token.ofText "text" = .ok [.ident "text"] := by decide +kernel
  have hlist : Term.parse "list" = .ok (.ident "list") :=
    Term.bind_eq_ok.mpr ⟨_, hlisttokens, rfl⟩
  have htext : Term.parse "text" = .ok (.ident "text") :=
    Term.bind_eq_ok.mpr ⟨_, htexttokens, rfl⟩
  have hlistvalue : evaluateExpression listContext "list" = .ok (.json (.arr [.num (.int 1)])) := by
    rw [evaluateExpression_of_parse hlist]
    rfl
  have htextvalue : evaluateExpression listContext "text" = .ok (.json (.str "[1]")) := by
    rw [evaluateExpression_of_parse htext]
    rfl
  obtain ⟨-, -, hcompared⟩ :=
    looseEquals_comm_iff (.json (.arr [.num (.int 1)])) (.json (.str "[1]"))
  obtain ⟨-, hboth⟩ := hcompared listContext "list" "text" _ _ hlist htext .equal (by simp)
  obtain ⟨x, y, hx, hy, hxy⟩ := hboth hlistvalue htextvalue
  have hquotes : (Value.json (.str "[1]")).Quotes (.json (.arr [.num (.int 1)])) :=
    ⟨trivial, by decide +kernel⟩
  exact ⟨hlist, htext, x, y, hx, hy, fun h => hxy.mp h (.inr hquotes)⟩

/-- Loose equality does depend on the order of its sides. -/
theorem not_forall_looseEquals_comm : ¬∀ l r : Value, l.looseEquals r = r.looseEquals l := by
  intro h
  have hlist := h (.json (.str "[1]")) (.json (.arr [.num (.int 1)]))
  revert hlist
  decide +kernel

end LivePage
