import LivePage.Proofs.Expr.DataStates

/-!
# Expressions in groups

Three readers pass over string literals: the splitter that looks for the end of a group, the scanner
of tokens, and the search for names. On a text that has tokens all three find the same literals. So
whatever stands in a literal, a group around such a text ends at its own brace, and the source that
is this group has the value of the text.

* `Token.run_of_scan`: a text that has tokens closes all that it opens.
* `Token.quoted`, `evaluateGuarded_quoted`: the literal of a string, and its value.
* `Template.closeGroup_of_readQuoted`, `Names.skipQuoted_eq`: where the readers leave a literal.
* `Template.split_append_group`: a group is split off where it stands outside of other groups.
* `evaluateSource_grouped`: the values of a group, of the text in it and of a written literal.
-/

namespace LivePage

namespace Template

/-! ## Literals -/

namespace Nesting

variable {depth : Nat}

theorem run_append (s : Nesting) (cs ds : List Char) :
    s.run (cs ++ ds) = (s.run cs).bind fun s' => s'.run ds := by
  unfold run
  rw [List.foldlM_append]
  rfl

/-- The characters that change where a reader of code stands. -/
def marks : List Char := ['\x27', '\x22', '\x60', '\x7b', '\x7d']

theorem step_of_not_mem {c : Char} (h : c ∉ marks) : (code depth).step c = some (code depth) := by
  simp only [marks, List.mem_cons, List.not_mem_nil, or_false, not_or] at h
  simp [step, h]

/-- Characters of a class without marks leave a reader of code where it stands. -/
theorem run_code {p : Char → Bool} (hp : (marks.all fun c => !p c) = true) {cs : List Char}
    (h : ∀ c ∈ cs, p c = true) : (code depth).run cs = some (code depth) := by
  induction cs with
  | nil => rfl
  | cons c cs ih =>
    obtain ⟨hc, hcs⟩ := List.forall_mem_cons.mp h
    have hnot : c ∉ marks := by
      intro hmem
      have hmark := List.all_eq_true.mp hp c hmem
      rw [hc] at hmark
      cases hmark
    rw [run_cons, step_of_not_mem hnot]
    exact ih hcs

end Nesting

end Template

namespace Token

open Template (Nesting)

variable {quote : Char} {cs content rest : List Char}

/-- A literal that is closed leaves a reader of code where it stood. -/
theorem exists_run_of_readQuoted (hquote : quote ≠ '\\')
    (h : readQuoted quote cs = some (content, rest)) :
    ∃ inside, cs = inside ++ rest ∧
      ∀ depth, (Nesting.quoted quote depth).run inside = some (.code depth) := by
  induction h using readQuoted_induction with
  | close cs => exact ⟨[quote], rfl, fun depth => by simp [Nesting.run, Nesting.step, hquote]⟩
  | escape c cs content rest hq h ih =>
    obtain ⟨inside, rfl, hrun⟩ := ih
    refine ⟨'\\' :: c :: inside, rfl, fun depth => ?_⟩
    simpa [Nesting.run_cons, Nesting.step] using hrun depth
  | char c cs content rest hq he h ih =>
    obtain ⟨inside, rfl, hrun⟩ := ih
    refine ⟨c :: inside, rfl, fun depth => ?_⟩
    simpa [Nesting.run_cons, Nesting.step, hq, he] using hrun depth

/-- A token leaves a reader of code where it stands. -/
theorem Lexeme.exists_run {c : Char} {token : Token} (h : Lexeme c cs token rest) (depth : Nat) :
    ∃ used, c :: cs = used ++ rest ∧ (Nesting.code depth).run used = some (.code depth) := by
  cases h with
  | str hquote hread =>
    obtain ⟨inside, rfl, hrun⟩ := exists_run_of_readQuoted (quote_ne_backslash hquote) hread
    have hstep : (Nesting.code depth).step c = some (.quoted c depth) := by
      rcases hquote with rfl | rfl <;> rfl
    refine ⟨c :: inside, rfl, ?_⟩
    rw [Nesting.run_cons, hstep]
    exact hrun depth
  | num x hdigit =>
    have hnumber : isNumberChar c = true := by simp [isNumberChar, hdigit]
    refine ⟨c :: cs.takeWhile isNumberChar, by simp,
      Nesting.run_code (p := isNumberChar) rfl ?_⟩
    exact List.forall_mem_cons.mpr ⟨hnumber, fun d => List.mem_takeWhile_imp⟩
  | ident hstart =>
    refine ⟨c :: cs.takeWhile Text.isWordChar, by simp,
      Nesting.run_code (p := Text.isWordChar) rfl ?_⟩
    exact List.forall_mem_cons.mpr
      ⟨Text.isWordChar_of_isWordStart hstart, fun d => List.mem_takeWhile_imp⟩
  | op hchars =>
    rename_i o
    have hmarks : (Nesting.marks.all fun d => !o.chars.contains d) = true := by cases o <;> rfl
    exact ⟨o.chars, hchars.symm, Nesting.run_code hmarks fun d hd => by simpa using hd⟩

/-- A text that has tokens leaves a reader of code where it stands. -/
theorem run_of_scan {expression : String} {ts : List Token}
    (h : scan expression 0 cs = .ok ts) (depth : Nat) :
    (Nesting.code depth).run cs = some (.code depth) := by
  induction h using scan_induction with
  | nil => rfl
  | whiteSpace c cs ts hc h ih =>
    have hstep : (Nesting.code depth).run [c] = some (.code depth) :=
      Nesting.run_code (p := Text.isWhiteSpace) rfl (by simpa using hc)
    rw [← List.singleton_append, Nesting.run_append, hstep]
    exact ih
  | token c cs token rest ts hc hread h ih =>
    obtain ⟨used, hused, hrun⟩ := (lexeme_of_readToken hread).exists_run depth
    rw [hused, Nesting.run_append, hrun]
    exact ih

/-! ## Written literals -/

/-- How a character is written in a literal. -/
def escape (quote c : Char) : List Char := if c = '\\' ∨ c = quote then ['\\', c] else [c]

/-- The literal of a string, in some quotes. -/
def quoted (quote : Char) (s : String) : String :=
  String.ofList (quote :: (s.toList.flatMap (escape quote) ++ [quote]))

/-- An escaped string is inside of its literal. -/
theorem inside_flatMap_escape (hquote : quote = '\x27' ∨ quote = '\x22') (cs : List Char) :
    Inside quote (cs.flatMap (escape quote)) cs := by
  induction cs with
  | nil => exact .nil
  | cons c cs ih =>
    rw [List.flatMap_cons]
    by_cases hc : c = '\\' ∨ c = quote
    · have hself : unescape c = c := by
        rcases hc with rfl | rfl
        · rfl
        · rcases hquote with rfl | rfl <;> rfl
      have hescaped := ih.escape c
      rw [hself] at hescaped
      rw [escape, if_pos hc]
      exact hescaped
    · rw [escape, if_neg hc]
      exact .char (fun h => hc (.inr h)) (fun h => hc (.inl h)) ih

theorem readQuoted_flatMap_escape (hquote : quote = '\x27' ∨ quote = '\x22')
    (cs rest : List Char) :
    readQuoted quote (cs.flatMap (escape quote) ++ quote :: rest) = some (cs, rest) :=
  readQuoted_of_inside (quote_ne_backslash hquote) (inside_flatMap_escape hquote cs) rest

theorem isWhiteSpace_quote (hquote : quote = '\x27' ∨ quote = '\x22') :
    Text.isWhiteSpace quote = false := by
  rcases hquote with rfl | rfl <;> decide

theorem ofText_quoted (hquote : quote = '\x27' ∨ quote = '\x22') (s : String) :
    ofText (quoted quote s) = .ok [.str s] := by
  have hread (expression : String) :
      readToken expression quote (s.toList.flatMap (escape quote) ++ [quote]) =
        .ok (.str s, []) := by
    rw [readToken_of_quote hquote, readQuoted_flatMap_escape hquote]
    dsimp only
    rw [String.ofList_toList]
  rw [ofText, quoted, String.toList_ofList, scan_cons (isWhiteSpace_quote hquote) (hread _)]
  rfl

theorem trim_quoted (hquote : quote = '\x27' ∨ quote = '\x22') (s : String) :
    Text.trim (quoted quote s).toList = (quoted quote s).toList := by
  have hspace := isWhiteSpace_quote hquote
  rw [quoted, String.toList_ofList, Text.trim_eq_self hspace hspace]

end Token

/-- A literal is the string that it writes, whatever data there is. -/
theorem evaluateGuarded_quoted {quote : Char} (hquote : quote = '\x27' ∨ quote = '\x22')
    (s : String) (ctx : Context) :
    evaluateGuarded .path ctx (Token.quoted quote s) = .ok (.json (.str s)) := by
  have hparse : Term.parse (Token.quoted quote s) = .ok (.literal (.json (.str s))) :=
    Term.bind_eq_ok.mpr ⟨_, Token.ofText_quoted hquote s, rfl⟩
  have hnames : freeIdentifiers (Token.quoted quote s) = [] := by
    rw [Term.freeIdentifiers_eq hparse]
    rfl
  have hready : ∀ name ∈ freeIdentifiers (Token.quoted quote s),
      (∀ m, ctx.lookup name ≠ some (.error m)) ∧ ctx.lookup name ≠ some .pending := by
    rw [hnames]
    exact nofun
  rw [evaluateGuarded_of_ready hready, Evaluator.evaluate_path, evaluateExpression, hparse]
  rfl

/-! ## Groups -/

namespace Template

/-- The group around an expression. -/
def grouped (expression : String) : String :=
  String.ofList ('$' :: '\x7b' :: (expression.toList ++ ['\x7d']))

/-- The search for the end of a group goes on after what a reader has read. -/
theorem closeFrom_append {s s' : Nesting} {inside : List Char} (h : s.run inside = some s')
    (rest : List Char) :
    closeFrom s (inside ++ rest) = extendInside inside (closeFrom s' rest) := by
  induction inside generalizing s with
  | nil =>
    obtain rfl : s = s' := Option.some.inj h
    show closeFrom s rest = extendInside [] (closeFrom s rest)
    cases closeFrom s rest <;> rfl
  | cons c cs ih =>
    rw [Nesting.run_cons] at h
    obtain ⟨next, hstep, hrun⟩ := Option.bind_eq_some_iff.mp h
    rw [List.cons_append, closeFrom_cons, hstep]
    dsimp only
    rw [ih hrun]
    cases closeFrom s' rest <;> rfl

/-- The search for the end of a group leaves a literal where the scanner leaves it. -/
theorem closeGroup_of_readQuoted {quote : Char} {cs content rest : List Char}
    (hquote : quote = '\x27' ∨ quote = '\x22')
    (h : Token.readQuoted quote cs = some (content, rest)) :
    ∃ inside, cs = inside ++ rest ∧ ∀ depth,
      closeGroup depth (some quote) cs = extendInside inside (closeGroup depth none rest) := by
  obtain ⟨inside, rfl, hrun⟩ :=
    Token.exists_run_of_readQuoted (Token.quote_ne_backslash hquote) h
  exact ⟨inside, rfl, fun depth => closeFrom_append (hrun depth) rest⟩

variable {e : String} {ts : List Token}

theorem balanced_of_ofText (h : Token.ofText e = .ok ts) : Balanced e.toList :=
  Token.run_of_scan h 0

theorem closeGroup_append (h : Token.ofText e = .ok ts) (after : List Char) :
    closeGroup 0 none (e.toList ++ '\x7d' :: after) = some (e.toList, after) :=
  closeGroup_eq_some_iff.mpr ⟨rfl, balanced_of_ofText h⟩

/-- A group around a text that has tokens is split off where it stands outside of other groups. -/
theorem split_append_group (h : Token.ofText e = .ok ts)
    (hblank : ∃ c ∈ e.toList, Text.isWhiteSpace c = false) {ps : List Piece} {before : List Char}
    (hbefore : Writes ps before) (after : List Char) :
    split 0 0 (before ++ '$' :: '\x7b' :: (e.toList ++ '\x7d' :: after)) =
      (split (before.length + (e.toList.length + 3)) 0 after).map
        (ps.map Piece.segment ++ .expr (String.ofList (Text.trim e.toList)) :: ·) := by
  have htrim : Text.trim e.toList ≠ [] := by
    obtain ⟨c, hc, hspace⟩ := hblank
    intro htrim
    rw [Text.trim_eq_nil_iff.mp htrim c hc] at hspace
    cases hspace
  have hlength : 0 + before.length + 1 + (e.toList.length + 2) =
      before.length + (e.toList.length + 3) := by omega
  rw [split_append_of_writes hbefore (.inr rfl), split_group (closeGroup_append h after) htrim,
    hlength]
  cases split (before.length + (e.toList.length + 3)) 0 after <;> rfl

theorem parse_grouped (h : Token.ofText e = .ok ts)
    (hblank : ∃ c ∈ e.toList, Text.isWhiteSpace c = false) :
    parse (grouped e) = .ok (.expr (String.ofList (Text.trim e.toList))) := by
  have hgroup : hasGroup (grouped e).toList = true := by
    rw [grouped, String.toList_ofList]
    rfl
  have hsplit := split_append_group h hblank .nil []
  rw [List.nil_append] at hsplit
  rw [parse, if_pos hgroup, grouped, String.toList_ofList, hsplit, split]
  rfl

end Template

/-- **A group ends at its own brace.** Where the scanner of tokens leaves a literal, the search for
names and the search for the end of a group leave it too. So let an expression have tokens and not
be blank. A group around it is closed by its own brace, whatever comes after it, and split off as
the expression wherever it stands outside of other groups; the source that is this group alone has
the value of the expression, as has the expression itself if no group is opened in it. The group
around the literal of a string is that string, whatever is in it and whatever data there is. -/
theorem evaluateSource_grouped :
    (∀ (quote : Char) (cs content rest : List Char), quote = '\x27' ∨ quote = '\x22' →
      Token.readQuoted quote cs = some (content, rest) →
      Names.skipQuoted quote cs = rest ∧
      ∃ inside, cs = inside ++ rest ∧ ∀ depth,
        Template.closeGroup depth (some quote) cs =
          Template.extendInside inside (Template.closeGroup depth none rest)) ∧
    (∀ (e : String) (ts : List Token), Token.ofText e = .ok ts →
      (∃ c ∈ e.toList, Text.isWhiteSpace c = false) →
      (∀ after, Template.closeGroup 0 none (e.toList ++ '\x7d' :: after) =
        some (e.toList, after)) ∧
      (∀ ps before after, Template.Writes ps before →
        Template.split 0 0 (before ++ '$' :: '\x7b' :: (e.toList ++ '\x7d' :: after)) =
          (Template.split (before.length + (e.toList.length + 3)) 0 after).map
            (ps.map Template.Piece.segment ++ .expr (String.ofList (Text.trim e.toList)) :: ·)) ∧
      Template.parse (Template.grouped e) = .ok (.expr (String.ofList (Text.trim e.toList))) ∧
      ∀ ctx,
        evaluateSource .path ctx (Template.grouped e) =
          evaluateGuarded .path ctx (String.ofList (Text.trim e.toList)) ∧
        (¬['$', '\x7b'] <:+: e.toList →
          evaluateSource .path ctx (Template.grouped e) = evaluateSource .path ctx e)) ∧
    ∀ (quote : Char) (s : String) (ctx : Context), quote = '\x27' ∨ quote = '\x22' →
      evaluateSource .path ctx (Template.grouped (Token.quoted quote s)) =
        .ok (.json (.str s)) := by
  refine ⟨fun quote cs content rest hquote h =>
      ⟨Names.skipQuoted_eq h, Template.closeGroup_of_readQuoted hquote h⟩, ?_, ?_⟩
  · intro e ts h hblank
    refine ⟨Template.closeGroup_append h, fun ps before after hbefore =>
      Template.split_append_group h hblank hbefore after, Template.parse_grouped h hblank, ?_⟩
    intro ctx
    have hvalue := evaluateSource_eq_of_parse (Template.parse_grouped h hblank) .path ctx
    exact ⟨hvalue, fun hno => by rw [hvalue, evaluateSource_of_no_group hno]⟩
  · intro quote s ctx hquote
    have hblank : ∃ c ∈ (Token.quoted quote s).toList, Text.isWhiteSpace c = false :=
      ⟨quote, by simp [Token.quoted], Token.isWhiteSpace_quote hquote⟩
    rw [evaluateSource_eq_of_parse (Template.parse_grouped (Token.ofText_quoted hquote s) hblank),
      Token.trim_quoted hquote, String.ofList_toList, evaluateGuarded_quoted hquote]

/-- The source under the name `users` has failed; the literals mention it only in what they hold. -/
theorem evaluateSource_grouped_users :
    Token.readQuoted '\x27' "\x7d$\x7busers\\'' || flag".toList =
        some ("\x7d$\x7busers'".toList, " || flag".toList) ∧
      Names.skipQuoted '\x27' "\x7d$\x7busers\\'' || flag".toList = " || flag".toList ∧
      Token.ofText " flag || '\x7d$\x7busers' " =
        .ok [.ident "flag", .op .or, .str "\x7d$\x7busers"] ∧
      evaluateSource .path loadingContext (Template.grouped " flag || '\x7d$\x7busers' ") =
        .ok (.json (.str "\x7d$\x7busers")) ∧
      evaluateSource .path loadingContext
          (Template.grouped (Token.quoted '\x22' "\x7d$\x7busers\"")) =
        .ok (.json (.str "\x7d$\x7busers\"")) := by
  have hread : Token.readQuoted '\x27' "\x7d$\x7busers\\'' || flag".toList =
      some ("\x7d$\x7busers'".toList, " || flag".toList) := by decide +kernel
  have htokens : Token.ofText " flag || '\x7d$\x7busers' " =
      .ok [.ident "flag", .op .or, .str "\x7d$\x7busers"] := by decide +kernel
  have hparse : Term.parse " flag || '\x7d$\x7busers' " =
      .ok (.or (.ident "flag") (.literal (.json (.str "\x7d$\x7busers")))) :=
    Term.bind_eq_ok.mpr ⟨_, htokens, rfl⟩
  have htrim := Term.parse_trim hparse
  have hready : ∀ name ∈ freeIdentifiers
      (String.ofList (Text.trim " flag || '\x7d$\x7busers' ".toList)),
      (∀ m, loadingContext.lookup name ≠ some (.error m)) ∧
        loadingContext.lookup name ≠ some .pending := by
    intro name hname
    rw [Term.freeIdentifiers_eq htrim, List.mem_eraseDups] at hname
    obtain rfl := List.mem_singleton.mp hname
    exact ⟨nofun, nofun⟩
  obtain ⟨hliterals, hgroups, hstrings⟩ := evaluateSource_grouped
  have hblank : ∃ c ∈ " flag || '\x7d$\x7busers' ".toList, Text.isWhiteSpace c = false :=
    ⟨'|', by decide +kernel, by decide⟩
  refine ⟨hread, (hliterals _ _ _ _ (.inl rfl) hread).1, htokens, ?_, hstrings _ _ _ (.inr rfl)⟩
  rw [((hgroups _ _ htokens hblank).2.2.2 loadingContext).1, evaluateGuarded_of_ready hready,
    Evaluator.evaluate_path, evaluateExpression, htrim]
  rfl

end LivePage
