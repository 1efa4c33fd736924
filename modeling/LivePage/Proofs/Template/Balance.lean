import LivePage.Expr.Template

/-!
# Where a group ends

The inside of a group is read one character at a time. Quotes open string literals, in which a
backslash protects the next character; outside of them braces are counted. A group ends at the first
brace that closes more than the inside has opened.

* `Nesting`, `Nesting.step`, `Nesting.run`: where a reader of the inside stands, and how it goes on.
* `Balanced`: texts that close all that they open and nothing else.
* `closeGroup_eq_some_iff`: a group is closed after a balanced text.
* `closeGroup_eq_none_iff`: a group is not closed if no brace closes more than was opened.
-/

namespace LivePage

namespace Template

/-- Where a reader stands: among code or in a string literal with some quote, directly after a
backslash or not, and how many braces are open. -/
inductive Nesting
  | code (depth : Nat)
  | quoted (quote : Char) (depth : Nat)
  | escaped (quote : Char) (depth : Nat)
deriving DecidableEq

namespace Nesting

/-- Reads one more character; nothing comes after a brace that closes none. -/
def step : Nesting → Char → Option Nesting
  | code depth, c =>
    if c = '\x27' ∨ c = '\x22' ∨ c = '\x60' then some (quoted c depth)
    else if c = '\x7b' then some (code (depth + 1))
    else if c = '\x7d' then
      match depth with
      | 0 => none
      | depth + 1 => some (code depth)
    else some (code depth)
  | quoted quote depth, c =>
    if c = '\\' then some (escaped quote depth)
    else if c = quote then some (code depth)
    else some (quoted quote depth)
  | escaped quote depth, _ => some (quoted quote depth)

/-- Reads a text. -/
def run (s : Nesting) (cs : List Char) : Option Nesting := cs.foldlM step s

theorem run_cons (s : Nesting) (c : Char) (cs : List Char) :
    s.run (c :: cs) = (s.step c).bind fun s' => s'.run cs := List.foldlM_cons

theorem step_eq_none {s : Nesting} {c : Char} (h : s.step c = none) :
    s = code 0 ∧ c = '\x7d' := by
  cases s with
  | escaped quote depth => cases h
  | quoted quote depth =>
    simp only [step] at h
    split at h
    · cases h
    · split at h <;> cases h
  | code depth =>
    simp only [step] at h
    split at h
    · cases h
    split at h
    · cases h
    split at h
    · rename_i hc
      cases depth with
      | zero => exact ⟨rfl, hc⟩
      | succ depth => cases h
    · cases h

end Nesting

/-- A text that never closes more braces than it has opened, and at whose end every brace and every
string literal is closed. -/
def Balanced (cs : List Char) : Prop := Nesting.run (.code 0) cs = some (.code 0)

instance (cs : List Char) : Decidable (Balanced cs) :=
  inferInstanceAs (Decidable (Nesting.run (.code 0) cs = some (.code 0)))

/-! ## The search for the end -/

theorem extendInside_eq_some {cs inside rest : List Char} {r : Option (List Char × List Char)} :
    extendInside cs r = some (inside, rest) ↔
      ∃ more, inside = cs ++ more ∧ r = some (more, rest) := by
  cases r with
  | none => simp [extendInside]
  | some r =>
    obtain ⟨more, after⟩ := r
    simp only [extendInside, Option.map_some, Option.some.injEq, Prod.mk.injEq]
    constructor
    · rintro ⟨rfl, rfl⟩
      exact ⟨more, rfl, rfl, rfl⟩
    · rintro ⟨_, rfl, rfl, rfl⟩
      exact ⟨rfl, rfl⟩

theorem extendInside_cons (c d : Char) (r : Option (List Char × List Char)) :
    extendInside [c, d] r = extendInside [c] (extendInside [d] r) := by
  cases r <;> rfl

/-- The search for the end of a group from the place where a reader stands. -/
def closeFrom : Nesting → List Char → Option (List Char × List Char)
  | .code depth, cs => closeGroup depth none cs
  | .quoted quote depth, cs => closeGroup depth (some quote) cs
  | .escaped _ _, [] => none
  | .escaped quote depth, c :: cs => extendInside [c] (closeGroup depth (some quote) cs)

theorem closeFrom_nil (s : Nesting) : closeFrom s [] = none := by
  cases s with
  | code depth | quoted quote depth => rw [closeFrom, closeGroup.eq_def]
  | escaped quote depth => rfl

/-- The search goes on as the reader does, and ends where the reader finds no next state. -/
theorem closeFrom_cons (s : Nesting) (c : Char) (cs : List Char) :
    closeFrom s (c :: cs) =
      match s.step c with
      | some s' => extendInside [c] (closeFrom s' cs)
      | none => some ([], cs) := by
  cases s with
  | escaped quote depth => rfl
  | quoted quote depth =>
    rw [closeFrom, closeGroup.eq_def, Nesting.step]
    dsimp only
    by_cases hescape : c = '\\'
    · rw [if_pos hescape, if_pos hescape]
      cases cs with
      | nil => rfl
      | cons d ds => exact extendInside_cons c d _
    · rw [if_neg hescape, if_neg hescape]
      split <;> rfl
  | code depth =>
    rw [closeFrom, closeGroup.eq_def, Nesting.step.eq_def]
    dsimp only
    split
    · rfl
    split
    · rfl
    split
    · cases depth <;> rfl
    · rfl

theorem closeFrom_eq_some_iff {s : Nesting} {cs inside rest : List Char} :
    closeFrom s cs = some (inside, rest) ↔
      cs = inside ++ '\x7d' :: rest ∧ s.run inside = some (.code 0) := by
  induction cs generalizing s inside with
  | nil => simp [closeFrom_nil]
  | cons c cs ih =>
    rw [closeFrom_cons]
    cases hstep : s.step c with
    | none =>
      obtain ⟨rfl, rfl⟩ := Nesting.step_eq_none hstep
      constructor
      · intro h
        cases h
        exact ⟨rfl, rfl⟩
      · rintro ⟨hcs, hrun⟩
        cases inside with
        | nil =>
          cases hcs
          rfl
        | cons d inside =>
          rw [List.cons_append, List.cons.injEq] at hcs
          rw [← hcs.1, Nesting.run_cons, hstep] at hrun
          cases hrun
    | some s' =>
      dsimp only
      rw [extendInside_eq_some]
      constructor
      · rintro ⟨more, rfl, h⟩
        obtain ⟨rfl, hrun⟩ := ih.mp h
        exact ⟨rfl, by rw [List.singleton_append, Nesting.run_cons, hstep]; exact hrun⟩
      · rintro ⟨hcs, hrun⟩
        cases inside with
        | nil =>
          -- then the reader stands where the group ends, and could not have gone on
          cases hrun
          rw [List.nil_append, List.cons.injEq] at hcs
          rw [hcs.1] at hstep
          cases hstep
        | cons d inside =>
          rw [List.cons_append, List.cons.injEq] at hcs
          obtain ⟨rfl, hcs⟩ := hcs
          rw [Nesting.run_cons, hstep] at hrun
          exact ⟨inside, rfl, ih.mpr ⟨hcs, hrun⟩⟩

theorem closeFrom_eq_none_iff {s : Nesting} {cs : List Char} :
    closeFrom s cs = none ↔ ∃ s', s.run cs = some s' := by
  induction cs generalizing s with
  | nil => simp [closeFrom_nil, Nesting.run]
  | cons c cs ih =>
    rw [closeFrom_cons, Nesting.run_cons]
    cases s.step c with
    | none => simp
    | some s' => simp [extendInside, ih]

/-- A group is closed by the brace after a balanced text. -/
theorem closeGroup_eq_some_iff {cs inside rest : List Char} :
    closeGroup 0 none cs = some (inside, rest) ↔
      cs = inside ++ '\x7d' :: rest ∧ Balanced inside :=
  closeFrom_eq_some_iff (s := .code 0)

/-- A group is not closed if its reader gets to the end of the text. -/
theorem closeGroup_eq_none_iff {cs : List Char} :
    closeGroup 0 none cs = none ↔ ∃ s, Nesting.run (.code 0) cs = some s :=
  closeFrom_eq_none_iff (s := .code 0)

end Template

end LivePage
