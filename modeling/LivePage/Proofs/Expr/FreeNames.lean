import LivePage.Expr.Names
import LivePage.Proofs.Expr.Grammar
import LivePage.Proofs.Expr.Lexing

/-!
# The names of an expression and its identifiers

`freeIdentifiers` reads characters and knows nothing of the grammar. On every expression that the
parser accepts it finds the identifiers of the term.

* `Token.mentions`: the words among the tokens that do not follow a point.
* `Token.Separated`: no two operands stand side by side, as in every list of tokens that writes a
  term (`Derives.separated`).
* `Derives.idents_eq`: the identifiers of a term are the mentions among its tokens.
* `words_eq_mentions`: the words that the reader of characters finds are the mentions.
* `Term.freeIdentifiers_eq`: the names that are found are the identifiers that are no reserved
  words.
* `freeIdentifiers_of_parse`: each of them is a word of its own among the tokens.
-/

namespace LivePage

/-- The operators after which a name is the name of a member. -/
def Operator.isPoint : Operator → Bool
  | .dot => true
  | .optionalDot => true
  | _ => false

namespace Token

/-! ## Mentions -/

/-- The words that do not follow a point; `member` says whether a point came just before. -/
def mentions (member : Bool) : List Token → List String
  | [] => []
  | .ident name :: ts => if member then mentions false ts else name :: mentions false ts
  | .op o :: ts => mentions o.isPoint ts
  | .str _ :: ts => mentions false ts
  | .num _ :: ts => mentions false ts

theorem mentions_append_op (member : Bool) (ts : List Token) (o : Operator) (us : List Token) :
    mentions member (ts ++ .op o :: us) = mentions member ts ++ mentions o.isPoint us := by
  induction ts generalizing member with
  | nil => rfl
  | cons t ts ih =>
    cases t with
    | ident name => cases member <;> simp [mentions, ih]
    | str content => exact ih false
    | num x => exact ih false
    | op p => exact ih p.isPoint

/-- Whether a token is one of the two points. -/
def isPoint : Token → Bool
  | .op o => o.isPoint
  | _ => false

/-- A mention is a word of its own, and the token before it is no point. -/
theorem exists_of_mem_mentions {member : Bool} {ts : List Token} {name : String}
    (h : name ∈ mentions member ts) :
    ∃ before after, ts = before ++ .ident name :: after ∧
      before.getLast?.elim member isPoint = false := by
  induction ts generalizing member with
  | nil => cases h
  | cons t ts ih =>
    by_cases hrest : name ∈ mentions t.isPoint ts
    · obtain ⟨before, after, rfl, hlast⟩ := ih hrest
      refine ⟨t :: before, after, rfl, ?_⟩
      rw [List.getLast?_cons, Option.elim_some]
      cases hb : before.getLast? with
      | none => simpa [hb] using hlast
      | some last => simpa [hb] using hlast
    · cases t with
      | ident word =>
        cases member with
        | true => exact absurd h hrest
        | false =>
          rcases List.mem_cons.mp h with rfl | h
          · exact ⟨[], ts, rfl, rfl⟩
          · exact absurd h hrest
      | str content => exact absurd h hrest
      | num x => exact absurd h hrest
      | op o => exact absurd h hrest

/-! ## Operands apart -/

/-- No two operands stand side by side; `operand` says whether one came just before. -/
def Separated (operand : Bool) : List Token → Prop
  | [] => True
  | .op _ :: ts => Separated false ts
  | .ident _ :: ts => operand = false ∧ Separated true ts
  | .str _ :: ts => operand = false ∧ Separated true ts
  | .num _ :: ts => operand = false ∧ Separated true ts

theorem Separated.append_op {operand : Bool} {ts us : List Token} (o : Operator)
    (h : Separated operand ts) (hu : Separated false us) :
    Separated operand (ts ++ .op o :: us) := by
  induction ts generalizing operand with
  | nil => exact hu
  | cons t ts ih =>
    cases t with
    | ident name => exact ⟨h.1, ih h.2⟩
    | str content => exact ⟨h.1, ih h.2⟩
    | num x => exact ⟨h.1, ih h.2⟩
    | op p => exact ih h

end Token

/-! ## The tokens of a term -/

namespace Term

open Token

/-- The tokens of a term alternate between operands and operators. -/
theorem Derives.separated {level : Level} {ts : List Token} {t : Term} (h : Derives level ts t) :
    Separated false ts := by
  induction h with
  | ofOr _ ih | ofAnd _ ih | ofComparison _ ih | ofUnary _ ih | ofAccess _ ih | ofPrimary _ ih =>
    exact ih
  | cond _ _ _ iha ihb ihc => exact (iha.append_op _ ihb).append_op _ ihc
  | or _ _ iha ihb => exact iha.append_op _ ihb
  | and _ _ iha ihb => exact iha.append_op _ ihb
  | compare _ _ _ iha ihb => exact iha.append_op _ ihb
  | not _ ih => exact ih
  | neg _ ih => exact ih
  | named name _ _ ih => exact ih.append_op _ ⟨rfl, trivial⟩
  | index _ _ iht ihk => exact (iht.append_op _ ihk).append_op _ trivial
  | num | str | word => exact ⟨rfl, trivial⟩
  | paren _ ih => exact ih.append_op .closeParen trivial

/-- The words that are constants. -/
def isConstant (name : String) : Bool := ["true", "false", "null", "undefined"].contains name

theorem idents_ofWord (name : String) :
    (ofWord name).idents = [name].filter fun name => !isConstant name := by
  unfold ofWord
  by_cases htrue : name = "true"
  · subst htrue; rfl
  by_cases hfalse : name = "false"
  · subst hfalse; rfl
  by_cases hnull : name = "null"
  · subst hnull; rfl
  by_cases hundefined : name = "undefined"
  · subst hundefined; rfl
  rw [if_neg htrue, if_neg hfalse, if_neg hnull, if_neg hundefined]
  simp [idents, isConstant, htrue, hfalse, hnull, hundefined]

theorem isPoint_of_comparison? {o : Operator} {comparison : Comparison}
    (h : o.comparison? = some comparison) : o.isPoint = false := by
  cases o <;> first | rfl | cases h

/-- The identifiers of a term, from left to right, are the words among its tokens that do not follow
a point and are no constants. -/
theorem Derives.idents_eq {level : Level} {ts : List Token} {t : Term} (h : Derives level ts t) :
    t.idents = (mentions false ts).filter fun name => !isConstant name := by
  induction h with
  | ofOr _ ih | ofAnd _ ih | ofComparison _ ih | ofUnary _ ih | ofAccess _ ih | ofPrimary _ ih =>
    exact ih
  | cond _ _ _ iha ihb ihc =>
    rw [mentions_append_op, mentions_append_op, List.filter_append, List.filter_append, idents,
      iha, ihb, ihc]
    rfl
  | or _ _ iha ihb =>
    rw [mentions_append_op, List.filter_append, idents, iha, ihb]
    rfl
  | and _ _ iha ihb =>
    rw [mentions_append_op, List.filter_append, idents, iha, ihb]
    rfl
  | compare ho _ _ iha ihb =>
    rw [mentions_append_op, isPoint_of_comparison? ho, List.filter_append, idents, iha, ihb]
  | not _ ih => exact ih
  | neg _ ih => exact ih
  | named name ho _ ih =>
    rw [mentions_append_op, List.filter_append, idents, ih]
    rcases ho with rfl | rfl <;> rfl
  | index _ _ iht ihk =>
    rw [mentions_append_op, mentions_append_op, List.filter_append, List.filter_append, idents,
      iht, ihk]
    exact (List.append_nil _).symm
  | num | str => rfl
  | word name => exact idents_ofWord name
  | paren _ ih =>
    show _ = (mentions false (_ ++ _)).filter _
    rw [mentions_append_op, List.filter_append, ih]
    exact (List.append_nil _).symm

end Term

namespace Names

open Token

/-! ## The reader of characters -/

variable {member : Bool}

theorem words_eq_words_drop (member : Bool) (skip : Nat) (cs : List Char) :
    words member skip cs = words member 0 (cs.drop skip) := by
  induction cs generalizing skip with
  | nil => cases skip <;> simp [words]
  | cons c cs ih =>
    cases skip with
    | zero => rfl
    | succ skip => rw [words, ih, List.drop_succ_cons]

/-- A string literal that is closed is passed over as it is read. -/
theorem skipQuoted_eq {quote : Char} {cs content rest : List Char}
    (h : readQuoted quote cs = some (content, rest)) : skipQuoted quote cs = rest := by
  induction h using readQuoted_induction with
  | close cs =>
    rw [skipQuoted.eq_def]
    exact if_pos rfl
  | escape c cs content rest hq h ih =>
    rw [skipQuoted.eq_def]
    simpa [hq] using ih
  | char c cs content rest hq he h ih =>
    rw [skipQuoted.eq_def]
    simpa [hq, he] using ih

/-- A string literal that is not closed is passed over to the end of the text. -/
theorem skipQuoted_eq_nil {quote : Char} {cs : List Char} (h : readQuoted quote cs = none) :
    skipQuoted quote cs = [] := by
  fun_induction skipQuoted quote cs with
  | case1 => rfl
  | case2 cs =>
    rw [readQuoted_quote] at h
    cases h
  | case3 => rfl
  | case4 c cs hquote ih =>
    rw [readQuoted_escape hquote, Option.map_eq_none_iff] at h
    exact ih h
  | case5 c cs hquote hescape ih =>
    rw [readQuoted_char hquote hescape, Option.map_eq_none_iff] at h
    exact ih h

theorem words_str {quote : Char} {cs content rest : List Char} (hquote : isQuote quote = true)
    (h : readQuoted quote cs = some (content, rest)) :
    words member 0 (quote :: cs) = words false 0 rest := by
  rw [words, if_pos hquote, skipQuoted_eq h, words_eq_words_drop,
    ← List.suffix_iff_eq_drop.mp (suffix_of_readQuoted h)]

theorem words_unclosed {quote : Char} {cs : List Char} (hquote : isQuote quote = true)
    (h : readQuoted quote cs = none) : words member 0 (quote :: cs) = [] := by
  rw [words, if_pos hquote, skipQuoted_eq_nil h, words_eq_words_drop, List.length_nil,
    Nat.sub_zero, List.drop_length]
  rfl

/-- A class of characters that holds none of the quotes is disjoint from them. -/
theorem isQuote_eq_false {p : Char → Bool} (hsingle : p '\x27' = false)
    (hdouble : p '\x22' = false) (hback : p '\x60' = false) {c : Char} (h : p c = true) :
    isQuote c = false := by
  rw [Bool.eq_false_iff]
  intro hq
  simp only [isQuote, Bool.or_eq_true, beq_iff_eq] at hq
  rcases hq with (rfl | rfl) | rfl <;> simp_all

theorem drop_length_takeWhile (p : Char → Bool) (cs : List Char) :
    cs.drop (cs.takeWhile p).length = cs.dropWhile p := by
  calc cs.drop (cs.takeWhile p).length
      = (cs.takeWhile p ++ cs.dropWhile p).drop (cs.takeWhile p).length := by
        rw [List.takeWhile_append_dropWhile]
    _ = cs.dropWhile p := List.drop_left

theorem words_word {c : Char} (h : Text.isWordStart c = true) (cs : List Char) :
    words member 0 (c :: cs) =
      mentions member [.ident (String.ofList (c :: cs.takeWhile Text.isWordChar))] ++
        words false 0 (cs.dropWhile Text.isWordChar) := by
  have hquote := isQuote_eq_false (p := Text.isWordStart) rfl rfl rfl h
  rw [words, hquote, if_neg Bool.false_ne_true, if_pos h]
  dsimp only
  rw [words_eq_words_drop, drop_length_takeWhile]
  cases member <;> rfl

theorem words_digit {c : Char} (h : c.isDigit = true) (cs : List Char) :
    words member 0 (c :: cs) = words false 0 (cs.dropWhile isNumberChar) := by
  have hquote := isQuote_eq_false (p := Char.isDigit) rfl rfl rfl h
  rw [words, hquote, if_neg Bool.false_ne_true, Text.isWordStart_of_isDigit h,
    if_neg Bool.false_ne_true, if_pos h, words_eq_words_drop, drop_length_takeWhile]

theorem words_whiteSpace {c : Char} (h : Text.isWhiteSpace c = true) (cs : List Char) :
    words member 0 (c :: cs) = words member 0 cs := by
  have hquote := isQuote_eq_false (p := Text.isWhiteSpace) rfl rfl rfl h
  rw [words, hquote, if_neg Bool.false_ne_true, Text.isWordStart_of_isWhiteSpace h,
    if_neg Bool.false_ne_true, Text.isDigit_of_isWhiteSpace h, if_neg Bool.false_ne_true, if_pos h]

theorem words_chars {ds : List Char}
    (h : ∀ c ∈ ds, isQuote c = false ∧ c.isDigit = false ∧ Text.isWordStart c = false ∧
      Text.isWhiteSpace c = false) (cs : List Char) :
    words member 0 (ds ++ cs) = words (ds.foldl (fun _ c => c == '.') member) 0 cs := by
  induction ds generalizing member with
  | nil => rfl
  | cons c ds ih =>
    obtain ⟨hc, hds⟩ := List.forall_mem_cons.mp h
    rw [List.cons_append, words]
    simp only [hc, Bool.false_eq_true, if_false]
    exact ih hds

/-- Only after a point is the next word the name of a member. -/
theorem words_op (o : Operator) (cs : List Char) :
    words member 0 (o.chars ++ cs) = words o.isPoint 0 cs := by
  have hlast : o.chars.foldl (fun _ c => c == '.') member = o.isPoint := by
    cases o <;> rfl
  rw [← hlast]
  refine words_chars ?_ cs
  intro c hc
  obtain ⟨hsingle, hdouble, hback, hdigit, hstart, hspace⟩ := operator_chars hc
  exact ⟨by simp [isQuote, hsingle, hdouble, hback], hdigit, hstart, hspace⟩

/-- Where no word follows a number, the letters that the reader of names would take for a part of it
are none: both readings of the number end at the same place. -/
theorem dropWhile_isNumberChar {expression : String} {cs : List Char} {ts : List Token}
    (h : scan expression 0 (cs.dropWhile Token.isNumberChar) = .ok ts) (hs : Separated true ts) :
    cs.dropWhile isNumberChar = cs.dropWhile Token.isNumberChar := by
  induction cs with
  | nil => rfl
  | cons c cs ih =>
    by_cases hc : Token.isNumberChar c = true
    · have hc' : isNumberChar c = true := by
        simp only [Token.isNumberChar, Bool.or_eq_true] at hc
        simp only [isNumberChar, Char.isAlphanum, Bool.or_eq_true]
        exact hc.imp_left .inr
      rw [List.dropWhile_cons_of_pos hc] at h
      rw [List.dropWhile_cons_of_pos hc, List.dropWhile_cons_of_pos hc', ih h]
    · have hc' : ¬isNumberChar c = true := by
        intro hn
        rw [List.dropWhile_cons_of_neg hc] at h
        have halpha : c.isAlpha = true := by
          simp only [Token.isNumberChar, Bool.or_eq_true, not_or] at hc
          simp only [isNumberChar, Char.isAlphanum, Bool.or_eq_true] at hn
          tauto
        obtain ⟨name, ts', rfl⟩ := scan_word (Text.isWordStart_of_isAlpha halpha) h
        exact Bool.noConfusion hs.1
      rw [List.dropWhile_cons_of_neg hc, List.dropWhile_cons_of_neg hc']

/-- On a text whose tokens alternate between operands and operators, the reader of characters finds
the mentions among the tokens. -/
theorem words_eq_mentions {expression : String} {operand : Bool} {cs : List Char} {ts : List Token}
    (h : scan expression 0 cs = .ok ts) (hs : Separated operand ts) :
    words member 0 cs = mentions member ts := by
  induction h using Token.scan_induction generalizing member operand with
  | nil => rfl
  | whiteSpace c cs ts hw h ih =>
    rw [words_whiteSpace hw]
    exact ih hs
  | token c cs token rest ts hw hread h ih =>
    cases Token.lexeme_of_readToken hread with
    | str hquote hread =>
      rw [words_str (by rcases hquote with rfl | rfl <;> rfl) hread]
      exact ih hs.2
    | num x hdigit =>
      rw [words_digit hdigit, dropWhile_isNumberChar h hs.2]
      exact ih hs.2
    | ident hstart =>
      rw [words_word hstart, ih hs.2]
      cases member <;> rfl
    | op hchars =>
      rw [← hchars, words_op]
      exact ih hs

end Names

/-! ## The identifiers of an expression -/

theorem isConstant_reserved {name : String} (h : Term.isConstant name = true) :
    Names.reserved.contains name = true := by
  simp only [Term.isConstant, List.contains_eq_mem, decide_eq_true_eq] at h
  simp only [List.mem_cons, List.not_mem_nil, or_false] at h
  rcases h with rfl | rfl | rfl | rfl <;> decide

namespace Term

/-- The names that a term reads and that are no reserved words. -/
def references (t : Term) : List String :=
  t.idents.filter fun name => !Names.reserved.contains name

theorem freeIdentifiers_eq {expression : String} {t : Term} (h : parse expression = .ok t) :
    freeIdentifiers expression = t.references.eraseDups := by
  obtain ⟨ts, hts, hderives⟩ := parse_sound h
  rw [freeIdentifiers, Names.words_eq_mentions hts hderives.separated, references,
    hderives.idents_eq, List.filter_filter]
  congr 2
  funext name
  cases hconstant : isConstant name with
  | true =>
    have hreserved := isConstant_reserved hconstant
    simp only [hreserved, Bool.not_true, Bool.and_false]
  | false => simp

end Term

/-- **The names found in the text are the identifiers of the term.** On every expression that the
parser accepts, the names are those of the identifiers from left to right, each once and where it
first comes, but for the reserved words; and each of them is a word of its own that follows no
point, so none is the name of a member or a part of a string or a number. -/
theorem freeIdentifiers_of_parse {expression : String} {t : Term}
    (h : Term.parse expression = .ok t) :
    freeIdentifiers expression =
      (t.idents.filter fun name => !Names.reserved.contains name).eraseDups ∧
    ∃ ts, Token.ofText expression = .ok ts ∧
      ∀ name ∈ freeIdentifiers expression, ∃ before after,
        ts = before ++ .ident name :: after ∧ ∀ last ∈ before.getLast?, last.isPoint = false := by
  obtain ⟨ts, hts, hderives⟩ := Term.parse_sound h
  refine ⟨Term.freeIdentifiers_eq h, ts, hts, ?_⟩
  intro name hname
  rw [freeIdentifiers, Names.words_eq_mentions hts hderives.separated, List.mem_eraseDups,
    List.mem_filter] at hname
  obtain ⟨before, after, hsplit, hlast⟩ := Token.exists_of_mem_mentions hname.1
  refine ⟨before, after, hsplit, ?_⟩
  intro last hl
  rw [Option.mem_def.mp hl, Option.elim_some] at hlast
  exact hlast

theorem freeIdentifiers_rows :
    ∃ t, Term.parse "rows[1]?.rows ? NaN : 'user' == user . name" = .ok t ∧
      freeIdentifiers "rows[1]?.rows ? NaN : 'user' == user . name" =
        (t.idents.filter fun name => !Names.reserved.contains name).eraseDups ∧
      ∃ ts, Token.ofText "rows[1]?.rows ? NaN : 'user' == user . name" = .ok ts ∧
        ∀ name ∈ freeIdentifiers "rows[1]?.rows ? NaN : 'user' == user . name", ∃ before after,
          ts = before ++ .ident name :: after ∧
            ∀ last ∈ before.getLast?, last.isPoint = false := by
  have hsome : (Term.parse "rows[1]?.rows ? NaN : 'user' == user . name").isOk = true := by
    decide +kernel
  cases h : Term.parse "rows[1]?.rows ? NaN : 'user' == user . name" with
  | error fault =>
    rw [h] at hsome
    cases hsome
  | ok t => exact ⟨t, rfl, freeIdentifiers_of_parse h⟩

end LivePage
