import LivePage.Proofs.Template.Balance
import LivePage.Proofs.Text.Classes
import Mathlib.Data.List.Chain

/-!
# The one reading of a template

A source with a group in it can be written in at most one way as a row of groups and the text
between them, and it is a template exactly if it can.

* `Piece`, `Writes`: texts and groups, and the rows of them that write a source.
* `Writes.unique`: no source is written by two rows.
* `exists_writes_of_split`, `split_of_writes`: the segments of a source are those of the row that
  writes it.
* `parse_eq_ok_iff`: the template of a source.
-/

namespace LivePage

namespace Template

/-- A part of a source: text that is kept, or a group with its inside. -/
inductive Piece
  | text (cs : List Char)
  | group (inside : List Char)

namespace Piece

/-- The characters of a piece. -/
def chars : Piece → List Char
  | text cs => cs
  | group inside => '$' :: '\x7b' :: (inside ++ ['\x7d'])

/-- The segment that a piece is read as: text is kept, and the inside of a group is trimmed. -/
def segment : Piece → Segment
  | text cs => .text (String.ofList cs)
  | group inside => .expr (String.ofList (Text.trim inside))

/-- Whether a piece is text. -/
def IsText : Piece → Prop
  | text _ => True
  | group _ => False

/-- Text is not empty and opens no group; the inside of a group is balanced and not blank. -/
def Valid : Piece → Prop
  | text cs => cs ≠ [] ∧ ¬['$', '\x7b'] <:+: cs
  | group inside => Balanced inside ∧ ∃ c ∈ inside, Text.isWhiteSpace c = false

end Piece

/-- A row of pieces writes a source: all are valid, and no two texts stand side by side. -/
structure Writes (ps : List Piece) (cs : List Char) : Prop where
  valid : ∀ p ∈ ps, p.Valid
  apart : ps.IsChain fun p q => ¬(p.IsText ∧ q.IsText)
  chars_eq : ps.flatMap Piece.chars = cs

/-- The template that a row of pieces is read as. -/
def ofPieces : List Piece → Template
  | [.group inside] => .expr (String.ofList (Text.trim inside))
  | ps => .interpolated (ps.map Piece.segment)

/-! ## Openings -/

theorem opensGroup_iff {cs : List Char} :
    opensGroup cs = true ↔ ∃ rest, cs = '$' :: '\x7b' :: rest := by
  unfold opensGroup
  split
  · simp
  · rename_i hno
    simp only [Bool.false_eq_true, false_iff]
    rintro ⟨rest, rfl⟩
    exact hno rest rfl

theorem hasGroup_iff {cs : List Char} : hasGroup cs = true ↔ ['$', '\x7b'] <:+: cs := by
  induction cs with
  | nil => simp [hasGroup]
  | cons c cs ih =>
    rw [hasGroup, Bool.or_eq_true, ih, List.infix_cons_iff, opensGroup_iff]
    refine or_congr_left ?_
    constructor
    · rintro ⟨rest, h⟩
      exact ⟨rest, h.symm⟩
    · rintro ⟨rest, h⟩
      exact ⟨rest, h.symm⟩

/-- Where the text before a group may end: at the end of the source or at an opening. -/
def AtBoundary (rest : List Char) : Prop := rest = [] ∨ opensGroup rest = true

/-- What follows a text opens no group together with its last character. -/
theorem opensGroup_append {c : Char} {text rest : List Char} (hrest : AtBoundary rest)
    (h : opensGroup (c :: text) = false) : opensGroup (c :: text ++ rest) = false := by
  rw [Bool.eq_false_iff, Ne, opensGroup_iff] at h ⊢
  rintro ⟨more, hmore⟩
  rw [List.cons_append, List.cons.injEq] at hmore
  obtain ⟨rfl, hmore⟩ := hmore
  cases text with
  | cons d text =>
    rw [List.cons_append, List.cons.injEq] at hmore
    exact h ⟨text, by rw [hmore.1]⟩
  | nil =>
    rw [List.nil_append] at hmore
    rcases hrest with rfl | hopens
    · cases hmore
    · obtain ⟨after, rfl⟩ := opensGroup_iff.mp hopens
      simp at hmore

/-- A text without an opening is all that comes before the next group. -/
theorem takeText_append {text rest : List Char} (hrest : AtBoundary rest)
    (h : hasGroup text = false) : takeText (text ++ rest) = text := by
  induction text with
  | nil =>
    rcases hrest with rfl | hopens
    · rfl
    · obtain ⟨after, rfl⟩ := opensGroup_iff.mp hopens
      rfl
  | cons c text ih =>
    rw [hasGroup, Bool.or_eq_false_iff] at h
    have hopens := opensGroup_append hrest h.1
    rw [List.cons_append] at hopens ⊢
    rw [takeText, hopens, if_neg Bool.false_ne_true, ih h.2]

/-- Every source is a text without an opening and a rest that is empty or begins with one. -/
theorem exists_takeText_append (cs : List Char) :
    ∃ rest, cs = takeText cs ++ rest ∧ AtBoundary rest ∧ hasGroup (takeText cs) = false := by
  induction cs with
  | nil => exact ⟨[], rfl, .inl rfl, rfl⟩
  | cons c cs ih =>
    rw [takeText]
    cases hopens : opensGroup (c :: cs) with
    | true => exact ⟨c :: cs, rfl, .inr hopens, rfl⟩
    | false =>
      obtain ⟨rest, hcs, hrest, hno⟩ := ih
      rw [if_neg Bool.false_ne_true]
      refine ⟨rest, by rw [List.cons_append, ← hcs], hrest, ?_⟩
      rw [hasGroup, hno, Bool.or_false, Bool.eq_false_iff, Ne, opensGroup_iff]
      rintro ⟨more, hmore⟩
      rw [List.cons.injEq] at hmore
      rw [hmore.1, hcs, hmore.2] at hopens
      cases hopens

/-! ## Rows of pieces -/

namespace Writes

variable {p q : Piece} {ps qs : List Piece} {cs kept inside rest : List Char}

theorem nil : Writes [] [] := ⟨nofun, .nil, rfl⟩

theorem cons (hp : p.Valid) (hnext : ∀ q ∈ ps.head?, ¬(p.IsText ∧ q.IsText))
    (h : Writes ps rest) : Writes (p :: ps) (p.chars ++ rest) where
  valid := List.forall_mem_cons.mpr ⟨hp, h.valid⟩
  apart := List.isChain_cons.mpr ⟨hnext, h.apart⟩
  chars_eq := by rw [List.flatMap_cons, h.chars_eq]

theorem cons_inv (h : Writes (p :: ps) cs) :
    p.Valid ∧ (∀ q ∈ ps.head?, ¬(p.IsText ∧ q.IsText)) ∧
      ∃ rest, cs = p.chars ++ rest ∧ Writes ps rest := by
  obtain ⟨hp, hps⟩ := List.forall_mem_cons.mp h.valid
  obtain ⟨hnext, hapart⟩ := List.isChain_cons.mp h.apart
  exact ⟨hp, hnext, _, h.chars_eq.symm, hps, hapart, rfl⟩

/-- A row that may follow a text writes what may follow a text. -/
theorem atBoundary (h : Writes ps cs) (hhead : ∀ p ∈ ps.head?, ¬p.IsText) : AtBoundary cs := by
  cases ps with
  | nil => exact .inl h.chars_eq.symm
  | cons p ps =>
    obtain ⟨-, -, rest, rfl, -⟩ := h.cons_inv
    cases p with
    | text cs => exact absurd trivial (hhead (.text cs) rfl)
    | group inside => exact .inr (opensGroup_iff.mpr ⟨_, rfl⟩)

theorem text_inv (h : Writes (.text kept :: ps) cs) :
    ∃ rest, cs = kept ++ rest ∧ kept ≠ [] ∧ hasGroup kept = false ∧ AtBoundary rest ∧
      Writes ps rest := by
  obtain ⟨⟨hne, hno⟩, hnext, rest, hcs, hps⟩ := h.cons_inv
  refine ⟨rest, hcs, hne, ?_, hps.atBoundary fun q hq hq' => hnext q hq ⟨trivial, hq'⟩, hps⟩
  rwa [Bool.eq_false_iff, Ne, hasGroup_iff]

theorem group_inv (h : Writes (.group inside :: ps) cs) :
    ∃ rest, cs = '$' :: '\x7b' :: (inside ++ '\x7d' :: rest) ∧ Balanced inside ∧
      Text.trim inside ≠ [] ∧ Writes ps rest := by
  obtain ⟨⟨hbalanced, c, hc, hblank⟩, -, rest, hcs, hps⟩ := h.cons_inv
  refine ⟨rest, by simpa [Piece.chars] using hcs, hbalanced, ?_, hps⟩
  intro htrim
  rw [Text.trim_eq_nil_iff.mp htrim c hc] at hblank
  cases hblank

/-- What begins with text opens no group. -/
theorem opensGroup_eq_false (h : Writes (.text kept :: ps) cs) : opensGroup cs = false := by
  obtain ⟨rest, rfl, hne, hno, hrest, -⟩ := h.text_inv
  cases kept with
  | nil => exact absurd rfl hne
  | cons c kept =>
    rw [hasGroup, Bool.or_eq_false_iff] at hno
    exact opensGroup_append hrest hno.1

/-- What may follow a text does not begin with text. -/
theorem not_isText (hcs : AtBoundary cs) (h : Writes ps cs) : ∀ p ∈ ps.head?, ¬p.IsText := by
  cases ps with
  | nil => exact nofun
  | cons p ps =>
    intro q hq
    obtain rfl : p = q := by simpa using hq
    cases p with
    | group inside => exact id
    | text kept =>
      intro _
      rcases hcs with rfl | hopens
      · obtain ⟨rest, hcs, hne, -⟩ := h.text_inv
        exact hne (List.append_eq_nil_iff.mp hcs.symm).1
      · rw [h.opensGroup_eq_false] at hopens
        cases hopens

theorem text (hne : kept ≠ []) (hno : hasGroup kept = false) (hrest : AtBoundary rest)
    (h : Writes ps rest) : Writes (.text kept :: ps) (kept ++ rest) := by
  refine cons ⟨hne, ?_⟩ (fun q hq hboth => h.not_isText hrest q hq hboth.2) h
  rwa [Bool.eq_false_iff, Ne, hasGroup_iff] at hno

theorem group (hbalanced : Balanced inside) (hblank : Text.trim inside ≠ [])
    (h : Writes ps rest) :
    Writes (.group inside :: ps) ('$' :: '\x7b' :: (inside ++ '\x7d' :: rest)) := by
  have hchar : ∃ c ∈ inside, Text.isWhiteSpace c = false := by
    by_contra hall
    refine hblank (Text.trim_eq_nil_iff.mpr fun c hc => ?_)
    by_contra hspace
    exact hall ⟨c, hc, by simpa using hspace⟩
  simpa [Piece.chars] using cons (p := .group inside) ⟨hbalanced, hchar⟩ (fun _ _ h => h.1) h

theorem eq_nil (h : Writes ps []) : ps = [] := by
  cases ps with
  | nil => rfl
  | cons p ps =>
    cases p with
    | text kept =>
      obtain ⟨rest, hcs, hne, -⟩ := h.text_inv
      exact absurd (List.append_eq_nil_iff.mp hcs.symm).1 hne
    | group inside =>
      obtain ⟨rest, hcs, -⟩ := h.group_inv
      cases hcs

theorem opensGroup_eq_true (h : Writes (.group inside :: ps) cs) : opensGroup cs = true := by
  obtain ⟨rest, rfl, -⟩ := h.group_inv
  rfl

/-- No source is written by two rows. -/
theorem unique (h : Writes ps cs) (h' : Writes qs cs) : ps = qs := by
  induction ps generalizing qs cs with
  | nil =>
    obtain rfl : [] = cs := h.chars_eq
    rw [h'.eq_nil]
  | cons p ps ih =>
    cases qs with
    | nil =>
      obtain rfl : [] = cs := h'.chars_eq
      cases h.eq_nil
    | cons q qs =>
      -- the first characters tell text from a group, and each is as long as the splitter finds it
      cases p with
      | text kept =>
        cases q with
        | group inside => exact absurd h'.opensGroup_eq_true (by simp [h.opensGroup_eq_false])
        | text kept' =>
          obtain ⟨rest, rfl, -, hno, hrest, hps⟩ := h.text_inv
          obtain ⟨rest', hcs, -, hno', hrest', hqs⟩ := h'.text_inv
          have hkept : kept = kept' := by
            rw [← takeText_append hrest hno, hcs, takeText_append hrest' hno']
          subst hkept
          obtain rfl : rest = rest' := List.append_cancel_left hcs
          rw [ih hps hqs]
      | group inside =>
        cases q with
        | text kept => exact absurd h.opensGroup_eq_true (by simp [h'.opensGroup_eq_false])
        | group inside' =>
          obtain ⟨rest, rfl, hbalanced, -, hps⟩ := h.group_inv
          obtain ⟨rest', hcs, hbalanced', -, hqs⟩ := h'.group_inv
          simp only [List.cons.injEq, true_and] at hcs
          have hclose := closeGroup_eq_some_iff.mpr ⟨hcs, hbalanced'⟩
          rw [closeGroup_eq_some_iff.mpr ⟨rfl, hbalanced⟩] at hclose
          cases hclose
          rw [ih hps hqs]

end Writes

/-! ## Splitting -/

theorem split_eq_split_drop (offset skip : Nat) (cs : List Char) :
    split offset skip cs = split (offset + skip) 0 (cs.drop skip) := by
  induction cs generalizing offset skip with
  | nil => cases skip <;> simp [split]
  | cons c cs ih =>
    cases skip with
    | zero => rfl
    | succ skip =>
      rw [split, ih, List.drop_succ_cons]
      congr 1
      omega

/-- Text is split off as it stands. -/
theorem split_text {kept rest : List Char} (hne : kept ≠ []) (hno : hasGroup kept = false)
    (hrest : AtBoundary rest) (offset : Nat) :
    split offset 0 (kept ++ rest) =
      (split (offset + kept.length) 0 rest).map (.text (String.ofList kept) :: ·) := by
  cases kept with
  | nil => exact absurd rfl hne
  | cons c kept =>
    rw [hasGroup, Bool.or_eq_false_iff] at hno
    have hopens := opensGroup_append hrest hno.1
    rw [List.cons_append] at hopens ⊢
    rw [split, hopens, if_neg Bool.false_ne_true]
    dsimp only
    rw [takeText_append hrest hno.2, split_eq_split_drop, List.drop_left, List.length_cons,
      Nat.add_assoc, Nat.add_comm 1]

/-- A group is split off, and the search goes on after it. -/
theorem split_group {cs inside rest : List Char}
    (hclose : closeGroup 0 none cs = some (inside, rest)) (hblank : Text.trim inside ≠ [])
    (offset : Nat) :
    split offset 0 ('$' :: '\x7b' :: cs) =
      (split (offset + 1 + (inside.length + 2)) 0 rest).map
        (.expr (String.ofList (Text.trim inside)) :: ·) := by
  obtain ⟨rfl, -⟩ := closeGroup_eq_some_iff.mp hclose
  have hdrop : ('\x7b' :: (inside ++ '\x7d' :: rest)).drop (inside.length + 2) = rest := by
    simp [List.drop_append]
  rw [split, opensGroup, if_pos rfl, List.drop_succ_cons, List.drop_zero, hclose]
  dsimp only
  rw [List.isEmpty_eq_false_iff.mpr hblank, if_neg Bool.false_ne_true, split_eq_split_drop, hdrop]

theorem AtBoundary.append {cs rest : List Char} (hcs : AtBoundary cs) (hrest : AtBoundary rest) :
    AtBoundary (cs ++ rest) := by
  rcases hcs with rfl | hopens
  · exact hrest
  · obtain ⟨after, rfl⟩ := opensGroup_iff.mp hopens
    exact .inr rfl

/-- What a row writes is split into the segments of the row, whatever comes after it, as long as
that is the end or a group. -/
theorem split_append_of_writes {ps : List Piece} {cs rest : List Char} (h : Writes ps cs)
    (hrest : AtBoundary rest) (offset : Nat) :
    split offset 0 (cs ++ rest) =
      (split (offset + cs.length) 0 rest).map (ps.map Piece.segment ++ ·) := by
  induction ps generalizing cs offset with
  | nil =>
    obtain rfl : [] = cs := h.chars_eq
    rw [List.nil_append, List.length_nil, Nat.add_zero]
    cases split offset 0 rest <;> rfl
  | cons p ps ih =>
    cases p with
    | text kept =>
      obtain ⟨after, rfl, hne, hno, hafter, hps⟩ := h.text_inv
      rw [List.append_assoc, split_text hne hno (hafter.append hrest), ih hps, List.length_append,
        Nat.add_assoc]
      cases split (offset + (kept.length + after.length)) 0 rest <;> rfl
    | group inside =>
      obtain ⟨after, rfl, hbalanced, hblank, hps⟩ := h.group_inv
      have hlength : offset + 1 + (inside.length + 2) + after.length =
          offset + ('$' :: '\x7b' :: (inside ++ '\x7d' :: after)).length := by
        simp only [List.length_cons, List.length_append]
        omega
      simp only [List.cons_append, List.append_assoc]
      rw [split_group (closeGroup_eq_some_iff.mpr ⟨rfl, hbalanced⟩) hblank, ih hps, hlength]
      cases split (offset + ('$' :: '\x7b' :: (inside ++ '\x7d' :: after)).length) 0 rest <;> rfl

/-- The segments of what a row writes are those of the row. -/
theorem split_of_writes {ps : List Piece} {cs : List Char} (h : Writes ps cs) (offset : Nat) :
    split offset 0 cs = .ok (ps.map Piece.segment) := by
  have hsplit := split_append_of_writes h (.inl rfl) offset
  rw [List.append_nil] at hsplit
  rw [hsplit, split, Except.map, List.append_nil]

/-- A source that has segments is written by a row. -/
theorem exists_writes_of_split {offset : Nat} {cs : List Char} {segments : List Segment}
    (h : split offset 0 cs = .ok segments) : ∃ ps, Writes ps cs := by
  -- on the length, as the text after a piece is no tail of the list
  induction hn : cs.length using Nat.strongRecOn generalizing offset cs segments with
  | ind n ih =>
    cases hopens : opensGroup cs with
    | true =>
      obtain ⟨after, rfl⟩ := opensGroup_iff.mp hopens
      cases hclose : closeGroup 0 none after with
      | none =>
        rw [split, hopens, if_pos rfl, List.drop_succ_cons, List.drop_zero, hclose] at h
        cases h
      | some r =>
        obtain ⟨inside, rest⟩ := r
        by_cases hblank : Text.trim inside = []
        · rw [split, hopens, if_pos rfl, List.drop_succ_cons, List.drop_zero, hclose] at h
          simp [hblank] at h
        · obtain ⟨rfl, hbalanced⟩ := closeGroup_eq_some_iff.mp hclose
          rw [split_group hclose hblank] at h
          cases hrest : split (offset + 1 + (inside.length + 2)) 0 rest with
          | error fault =>
            rw [hrest] at h
            cases h
          | ok more =>
            obtain ⟨ps, hps⟩ := ih rest.length (by simp [← hn]; omega) hrest rfl
            exact ⟨.group inside :: ps, hps.group hbalanced hblank⟩
    | false =>
      obtain ⟨rest, hcs, hboundary, hno⟩ := exists_takeText_append cs
      by_cases hempty : takeText cs = []
      · rw [hempty, List.nil_append] at hcs
        rw [← hcs] at hboundary
        obtain rfl : cs = [] := hboundary.resolve_right (by simp [hopens])
        exact ⟨[], .nil⟩
      · rw [hcs, split_text hempty hno hboundary] at h
        cases hrest : split (offset + (takeText cs).length) 0 rest with
        | error fault =>
          rw [hrest] at h
          cases h
        | ok more =>
          have hlt : rest.length < n := by
            have hpos := List.length_pos_iff.mpr hempty
            have hlength := congrArg List.length hcs
            rw [List.length_append] at hlength
            omega
          obtain ⟨ps, hps⟩ := ih rest.length hlt hrest rfl
          have htext := hps.text hempty hno hboundary
          rw [← hcs] at htext
          exact ⟨_, htext⟩

/-! ## Templates -/

/-- The template of segments is that of their row: a row of one group is its expression. -/
theorem ofPieces_eq (ps : List Piece) :
    ofPieces ps =
      match ps.map Piece.segment with
      | [.expr expression] => .expr expression
      | segments => .interpolated segments := by
  rcases ps with _ | ⟨_ | _, _ | _⟩ <;> rfl

/-- **Templates have one reading.** A source with a group in it is accepted exactly if it is written
by a row of pieces; there is only one such row, and the template is that of the row. A source
without a group is one expression. Every group is closed at the brace after its balanced inside, and
one that is not closed is read to the end of the source without closing more than was opened. -/
theorem parse_eq_ok_iff (source : String) :
    (['$', '\x7b'] <:+: source.toList →
      (∀ t, parse source = .ok t ↔ ∃ ps, Writes ps source.toList ∧ t = ofPieces ps) ∧
      ∀ ps qs, Writes ps source.toList → Writes qs source.toList → ps = qs) ∧
    (¬['$', '\x7b'] <:+: source.toList →
      parse source = .ok (.expr (String.ofList (Text.trim source.toList)))) ∧
    ∀ cs,
      match closeGroup 0 none cs with
      | some (inside, rest) => cs = inside ++ '\x7d' :: rest ∧ Balanced inside
      | none => ∃ s, Nesting.run (.code 0) cs = some s := by
  refine ⟨fun hgroup => ⟨fun t => ⟨?_, ?_⟩, fun ps qs => Writes.unique⟩, fun hnone => ?_, ?_⟩
  · intro h
    rw [parse, if_pos (hasGroup_iff.mpr hgroup)] at h
    cases hsplit : split 0 0 source.toList with
    | error fault =>
      rw [hsplit] at h
      cases h
    | ok segments =>
      obtain ⟨ps, hps⟩ := exists_writes_of_split hsplit
      rw [split_of_writes hps] at h
      refine ⟨ps, hps, ?_⟩
      rw [ofPieces_eq]
      exact (Except.ok.inj h).symm
  · rintro ⟨ps, hps, rfl⟩
    rw [parse, if_pos (hasGroup_iff.mpr hgroup), split_of_writes hps, ofPieces_eq]
    rfl
  · rw [parse, if_neg fun h => hnone (hasGroup_iff.mp h)]
  · intro cs
    cases hclose : closeGroup 0 none cs with
    | none => exact closeGroup_eq_none_iff.mp hclose
    | some r => exact closeGroup_eq_some_iff.mp hclose

/-- A text that ends with the first character of an opening, and a group with braces and an escaped
quote in it. -/
def pricePieces : List Piece :=
  [.text ['o', 'n', 'l', 'y', ' ', '$'],
    .group [' ', '\x7b', '\x22', '\\', '\x22', '\x7d', '\x22', '\x7d', ' ']]

theorem writes_pricePieces : Writes pricePieces (pricePieces.flatMap Piece.chars) where
  valid := by
    refine List.forall_mem_cons.mpr ⟨⟨nofun, by decide⟩, List.forall_mem_cons.mpr ⟨⟨?_, ?_⟩, nofun⟩⟩
    · decide
    · exact ⟨'\x7b', by decide, by decide⟩
  apart := by simp [pricePieces, Piece.IsText]
  chars_eq := rfl

theorem parse_eq_ok_iff_price :
    ['$', '\x7b'] <:+: (String.ofList (pricePieces.flatMap Piece.chars)).toList ∧
      parse (String.ofList (pricePieces.flatMap Piece.chars)) = .ok (ofPieces pricePieces) :=
  have hgroup : ['$', '\x7b'] <:+: (String.ofList (pricePieces.flatMap Piece.chars)).toList := by
    rw [String.toList_ofList]
    decide
  ⟨hgroup, (((parse_eq_ok_iff _).1 hgroup).1 _).mpr
    ⟨_, by rw [String.toList_ofList]; exact writes_pricePieces, rfl⟩⟩

end Template

end LivePage
