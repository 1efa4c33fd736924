import LivePage.Expr.Source
import LivePage.Proofs.Template.Pieces

/-!
# Sources one after the other

Two sources with groups in them, written one after the other, are written by their two rows of
pieces, where text that meets text at the seam becomes one. Only a `$` at the end of the first and a
brace at the beginning of the second would make a group that neither of them has. The segments of
the whole are therefore evaluated like those of the first and then those of the second, and the
whole is text even where each of them is one expression.

* `Seamless`, `hasGroup_append_eq_false`: where two texts without a group have none together.
* `joinRows`, `Writes.joinRows`: two rows as one, and the source that they write together.
* `evaluateSegments_append`, `evaluateSegments_joinRows`: the text of two rows.
* `display_evaluateSource`: a source with a group in it shows the text of its segments.
* `evaluateSource_append`: the value of two sources, one after the other.
-/

namespace LivePage

namespace Template

/-! ## Rows -/

/-- The last character of one source and the first of another do not open a group together. -/
def Seamless (cs ds : List Char) : Prop := ¬(cs.getLast? = some '$' ∧ ds.head? = some '\x7b')

variable {kept kept' cs ds rest : List Char} {p : Piece} {ps qs : List Piece}

theorem Seamless.of_append_left (h : Seamless (rest ++ cs) ds) : Seamless cs ds := by
  rintro ⟨hlast, hhead⟩
  exact h ⟨by rw [List.getLast?_append, hlast]; rfl, hhead⟩

theorem Seamless.of_append_right (h : Seamless cs (ds ++ rest)) : Seamless cs ds := by
  rintro ⟨hlast, hhead⟩
  exact h ⟨hlast, by rw [List.head?_append, hhead]; rfl⟩

/-- Two texts without a group have none together, unless it opens at the seam. -/
theorem hasGroup_append_eq_false (hkept : hasGroup kept = false) (hkept' : hasGroup kept' = false)
    (hseam : Seamless kept kept') : hasGroup (kept ++ kept') = false := by
  induction kept with
  | nil => exact hkept'
  | cons c kept ih =>
    rw [hasGroup, Bool.or_eq_false_iff] at hkept
    have hrest : Seamless ([c] ++ kept) kept' := hseam
    rw [List.cons_append, hasGroup, ih hkept.2 hrest.of_append_left, Bool.or_false,
      Bool.eq_false_iff, Ne, opensGroup_iff]
    rintro ⟨after, hopens⟩
    rw [List.cons.injEq] at hopens
    obtain ⟨rfl, hopens⟩ := hopens
    cases kept with
    | nil => exact hseam ⟨rfl, by rw [← List.nil_append kept', hopens]; rfl⟩
    | cons d kept =>
      rw [List.cons_append, List.cons.injEq] at hopens
      obtain ⟨rfl, -⟩ := hopens
      exact Bool.noConfusion hkept.1

/-- A piece before a row; text before text becomes one. -/
def attach : Piece → List Piece → List Piece
  | .text kept, .text kept' :: qs => .text (kept ++ kept') :: qs
  | p, qs => p :: qs

/-- Two rows, one after the other. -/
def joinRows (ps qs : List Piece) : List Piece := ps.foldr attach qs

theorem attach_ne_nil (p : Piece) (qs : List Piece) : attach p qs ≠ [] := by
  fun_cases attach p qs <;> exact nofun

theorem attach_eq_group {inside : List Char} (h : attach p qs = [.group inside]) : qs = [] := by
  revert h
  fun_cases attach p qs with
  | case1 kept kept' qs => exact nofun
  | case2 p qs hmeet => exact fun h => (List.cons.inj h).2

theorem ofPieces_of_ne_group (h : ∀ inside, ps ≠ [.group inside]) :
    ofPieces ps = .interpolated (ps.map Piece.segment) := by
  fun_cases ofPieces ps with
  | case1 inside => exact absurd rfl (h inside)
  | case2 ps hgroup => rfl

/-- Two rows that are not empty are more than one group together. -/
theorem joinRows_ne_group {inside : List Char} (hps : ps ≠ []) (hqs : qs ≠ []) :
    joinRows ps qs ≠ [.group inside] := by
  cases ps with
  | nil => exact absurd rfl hps
  | cons p ps =>
    intro h
    have hrest : joinRows ps qs = [] := attach_eq_group h
    cases ps with
    | nil => exact hqs hrest
    | cons p' ps => exact attach_ne_nil _ _ hrest

theorem Writes.ne_nil (hps : Writes ps cs) (hgroup : ['$', '\x7b'] <:+: cs) : ps ≠ [] := by
  rintro rfl
  obtain rfl : [] = cs := hps.chars_eq
  exact absurd (List.eq_nil_of_infix_nil hgroup) nofun

theorem Writes.attach (hp : p.Valid) (h : Writes qs ds) (hseam : Seamless p.chars ds) :
    Writes (attach p qs) (p.chars ++ ds) := by
  fun_cases Template.attach p qs with
  | case1 kept kept' qs =>
    obtain ⟨after, rfl, hne', hno', hafter, hqs⟩ := h.text_inv
    obtain ⟨hne, hno⟩ := hp
    rw [← hasGroup_iff, Bool.not_eq_true] at hno
    have hjoined := hasGroup_append_eq_false hno hno' hseam.of_append_right
    show Writes _ (kept ++ (kept' ++ after))
    rw [← List.append_assoc]
    exact hqs.text (by simp [hne]) hjoined hafter
  | case2 p qs hmeet =>
    refine .cons hp (fun q hq hboth => ?_) h
    cases qs with
    | nil => cases hq
    | cons q' qs =>
      obtain rfl : q' = q := by simpa using hq
      cases p with
      | group inside => exact hboth.1
      | text kept =>
        cases q' with
        | group inside => exact hboth.2
        | text kept' => exact hmeet kept kept' qs rfl rfl

/-- Two rows write the one source after the other. -/
theorem Writes.joinRows (hps : Writes ps cs) (hqs : Writes qs ds) (hseam : Seamless cs ds) :
    Writes (joinRows ps qs) (cs ++ ds) := by
  induction ps generalizing cs with
  | nil =>
    obtain rfl : [] = cs := hps.chars_eq
    exact hqs
  | cons p ps ih =>
    obtain ⟨hp, -, rest, rfl, hps'⟩ := hps.cons_inv
    rw [List.append_assoc]
    refine .attach hp (ih hps' hseam.of_append_left) ?_
    cases p with
    | group inside => simp [Seamless, Piece.chars, List.getLast?_cons]
    | text kept =>
      -- after the text comes the second source, or a group, which begins with no brace
      obtain ⟨rest', hrest, -, -, hboundary, -⟩ := hps.text_inv
      obtain rfl : rest = rest' := List.append_cancel_left hrest
      rcases hboundary with rfl | hopens
      · simpa using hseam
      · obtain ⟨after, rfl⟩ := opensGroup_iff.mp hopens
        exact fun h => by simp at h

end Template

/-! ## Texts of rows -/

section

variable (evaluator : Evaluator) (ctx : Context)

open Template

theorem evaluateSegments_append (segments more : List Segment) :
    evaluateSegments evaluator ctx (segments ++ more) = do
      let text ← evaluateSegments evaluator ctx segments
      let rest ← evaluateSegments evaluator ctx more
      return text ++ rest := by
  induction segments with
  | nil =>
    rw [List.nil_append, evaluateSegments]
    cases evaluateSegments evaluator ctx more with
    | error e => rfl
    | ok rest => exact congrArg Except.ok String.empty_append.symm
  | cons segment segments ih =>
    rw [List.cons_append, evaluateSegments, evaluateSegments, ih]
    cases evaluateSegment evaluator ctx segment with
    | error e => rfl
    | ok text =>
      cases evaluateSegments evaluator ctx segments with
      | error e => rfl
      | ok texts =>
        cases evaluateSegments evaluator ctx more with
        | error e => rfl
        | ok rest => exact congrArg Except.ok String.append_assoc.symm

theorem evaluateSegments_attach (p : Piece) (qs : List Piece) :
    evaluateSegments evaluator ctx ((attach p qs).map Piece.segment) =
      evaluateSegments evaluator ctx (p.segment :: qs.map Piece.segment) := by
  fun_cases attach p qs with
  | case2 p qs hmeet => rfl
  | case1 kept kept' qs =>
    simp only [List.map_cons, Piece.segment, evaluateSegments, evaluateSegment]
    cases evaluateSegments evaluator ctx (qs.map Piece.segment) with
    | error e => rfl
    | ok rest =>
      show Except.ok (String.ofList (kept ++ kept') ++ rest) =
        Except.ok (String.ofList kept ++ (String.ofList kept' ++ rest))
      rw [String.ofList_append, String.append_assoc]

/-- The text of two rows is that of the first and then that of the second. -/
theorem evaluateSegments_joinRows (ps qs : List Piece) :
    evaluateSegments evaluator ctx ((joinRows ps qs).map Piece.segment) =
      evaluateSegments evaluator ctx (ps.map Piece.segment ++ qs.map Piece.segment) := by
  induction ps with
  | nil => rfl
  | cons p ps ih =>
    rw [joinRows, List.foldr_cons, evaluateSegments_attach, List.map_cons, List.cons_append,
      evaluateSegments, evaluateSegments]
    rw [joinRows] at ih
    rw [ih]

/-- A source with a group in it shows the text of its row. -/
theorem display_evaluateSource {source : String} {ps : List Piece}
    (hgroup : ['$', '\x7b'] <:+: source.toList) (hps : Writes ps source.toList) :
    (evaluateSource evaluator ctx source).map Value.display =
      evaluateSegments evaluator ctx (ps.map Piece.segment) := by
  have hparse := (((parse_eq_ok_iff source).1 hgroup).1 _).mpr ⟨ps, hps, rfl⟩
  rw [evaluateSource, hparse]
  fun_cases ofPieces ps with
  | case1 inside =>
    simp only [List.map_cons, List.map_nil, Piece.segment, evaluateSegments, evaluateSegment]
    cases evaluateGuarded evaluator ctx (String.ofList (Text.trim inside)) with
    | error e => rfl
    | ok v => exact congrArg Except.ok (String.append_empty).symm
  | case2 ps hgroup =>
    dsimp only
    cases evaluateSegments evaluator ctx (ps.map Piece.segment) <;> rfl

end

/-- **Sources are evaluated one after the other.** Let two sources have groups in them and be split
into segments, and let no group open at the seam, with `$` at the end of the first and a brace at
the beginning of the second. Then the value of the one written after the other is the text shown for
the first followed by the text shown for the second. It has a value if and only if both have one; if
not, it fails as the first does, or as the second if the first has a value. -/
theorem evaluateSource_append (a b : String) (segments more : List Segment)
    (ha : ['$', '\x7b'] <:+: a.toList) (hb : ['$', '\x7b'] <:+: b.toList)
    (hsplit : Template.split 0 0 a.toList = .ok segments)
    (hsplit' : Template.split 0 0 b.toList = .ok more)
    (hseam : ¬(a.toList.getLast? = some '$' ∧ b.toList.head? = some '\x7b'))
    (evaluator : Evaluator) (ctx : Context) :
    evaluateSource evaluator ctx (a ++ b) =
      match evaluateSource evaluator ctx a, evaluateSource evaluator ctx b with
      | .ok v, .ok w => .ok (.json (.str (v.display ++ w.display)))
      | .ok _, .error e => .error e
      | .error e, _ => .error e := by
  obtain ⟨ps, hps⟩ := Template.exists_writes_of_split hsplit
  obtain ⟨qs, hqs⟩ := Template.exists_writes_of_split hsplit'
  have hrows := hps.joinRows hqs hseam
  rw [← String.toList_append] at hrows
  have hgroup : ['$', '\x7b'] <:+: (a ++ b).toList := by
    rw [String.toList_append]
    exact ha.trans (List.infix_append' [] _ _)
  have hparse := (((Template.parse_eq_ok_iff (a ++ b)).1 hgroup).1 _).mpr ⟨_, hrows, rfl⟩
  rw [Template.ofPieces_of_ne_group fun inside =>
    Template.joinRows_ne_group (hps.ne_nil ha) (hqs.ne_nil hb)] at hparse
  rw [evaluateSource, hparse]
  dsimp only
  rw [evaluateSegments_joinRows, evaluateSegments_append,
    ← display_evaluateSource evaluator ctx ha hps, ← display_evaluateSource evaluator ctx hb hqs]
  cases evaluateSource evaluator ctx a <;> cases evaluateSource evaluator ctx b <;> rfl

/-- A context with an amount. -/
def amountContext : Context := Context.empty.withValue "amount" (.num (.int 12))

/-- A source that is one expression, and one that begins with a `$`. -/
theorem evaluateSource_append_amount :
    (evaluateSource .path amountContext "$\x7bamount\x7d").map Value.display = .ok "12" ∧
      (evaluateSource .path amountContext "$ or $\x7b'\x7d'\x7d").map Value.display =
        .ok "$ or \x7d" ∧
      evaluateSource .path amountContext ("$\x7bamount\x7d" ++ "$ or $\x7b'\x7d'\x7d") =
        .ok (.json (.str "12$ or \x7d")) := by
  have ha : (evaluateSource .path amountContext "$\x7bamount\x7d").map Value.display =
      .ok "12" := by
    decide +kernel
  have hb : (evaluateSource .path amountContext "$ or $\x7b'\x7d'\x7d").map Value.display =
      .ok "$ or \x7d" := by
    decide +kernel
  have happend := evaluateSource_append "$\x7bamount\x7d" "$ or $\x7b'\x7d'\x7d"
    [.expr "amount"] [.text "$ or ", .expr "'\x7d'"] (by decide +kernel) (by decide +kernel)
    (by decide +kernel) (by decide +kernel) (by decide +kernel) .path amountContext
  refine ⟨ha, hb, happend.trans ?_⟩
  have hjoined : "12" ++ "$ or \x7d" = "12$ or \x7d" := by decide +kernel
  generalize evaluateSource .path amountContext "$\x7bamount\x7d" = result at ha
  generalize evaluateSource .path amountContext "$ or $\x7b'\x7d'\x7d" = result' at hb
  cases result with
  | error e => cases ha
  | ok v =>
    cases result' with
    | error e => cases hb
    | ok w =>
      dsimp only
      rw [← hjoined, ← Except.ok.inj ha, ← Except.ok.inj hb]

end LivePage
