import LivePage.Files.Path
import Mathlib.Data.List.TakeWhile

/-!
# The parts of paths

A path is cut at its slashes into stretches, and its parts are read off the stretches alone. So the
parts of a path are found from those of the paths that it is made of.

* `Path.stretches_append`: the stretches of two texts with a slash between them.
* `Path.parts_eq`: the parts of a path from its stretches.
* `Path.partsOf_append_slash`, `Path.parts_join`: the parts of a longer path.
* `Path.parts_parent?`: the parts of a path without its last part.
-/

namespace LivePage

namespace Path

/-! ## Stretches -/

theorem stretches_slash (cs : List Char) : stretches ('/' :: cs) = [] :: stretches cs := rfl

theorem stretches_ne_nil (cs : List Char) : stretches cs ≠ [] := by
  cases cs with
  | nil => exact List.cons_ne_nil _ _
  | cons c cs =>
    unfold stretches
    split
    · exact List.cons_ne_nil _ _
    · split <;> exact List.cons_ne_nil _ _

theorem stretches_cons {c : Char} (hc : c ≠ '/') (cs : List Char) :
    ∃ first rest, stretches cs = first :: rest ∧ stretches (c :: cs) = (c :: first) :: rest := by
  obtain ⟨first, rest, h⟩ := List.exists_cons_of_ne_nil (stretches_ne_nil cs)
  exact ⟨first, rest, h, by rw [stretches, if_neg hc, h]⟩

theorem stretches_append (cs ds : List Char) :
    stretches (cs ++ '/' :: ds) = stretches cs ++ stretches ds := by
  induction cs with
  | nil => rfl
  | cons c cs ih =>
    by_cases hc : c = '/'
    · subst hc
      rw [List.cons_append, stretches_slash, stretches_slash, ih, List.cons_append]
    · obtain ⟨first, rest, hcs, h⟩ := stretches_cons hc cs
      rw [List.cons_append, h, stretches, if_neg hc, ih, hcs, List.cons_append, List.cons_append]

/-- Only the empty text has one empty stretch. -/
theorem stretches_eq_nil_singleton {cs : List Char} : stretches cs = [[]] ↔ cs = [] := by
  constructor
  · intro h
    cases cs with
    | nil => rfl
    | cons c cs =>
      by_cases hc : c = '/'
      · subst hc
        rw [stretches_slash, List.cons.injEq] at h
        exact absurd h.2 (stretches_ne_nil cs)
      · obtain ⟨first, rest, -, hcons⟩ := stretches_cons hc cs
        rw [hcons] at h
        cases h
  · rintro rfl
    rfl

theorem not_mem_of_mem_stretches {cs s : List Char} (h : s ∈ stretches cs) : '/' ∉ s := by
  induction cs generalizing s with
  | nil =>
    obtain rfl := List.mem_singleton.mp h
    exact List.not_mem_nil
  | cons c cs ih =>
    by_cases hc : c = '/'
    · subst hc
      rw [stretches_slash] at h
      rcases List.mem_cons.mp h with rfl | h
      · exact List.not_mem_nil
      · exact ih h
    · obtain ⟨first, rest, hcs, hcons⟩ := stretches_cons hc cs
      rw [hcons] at h
      rcases List.mem_cons.mp h with rfl | h
      · intro hmem
        rcases List.mem_cons.mp hmem with heq | hmem
        · exact hc heq.symm
        · exact ih (by simp [hcs]) hmem
      · exact ih (by simp [hcs, h])

theorem stretches_of_not_mem {s : List Char} (h : '/' ∉ s) : stretches s = [s] := by
  induction s with
  | nil => rfl
  | cons c s ih =>
    obtain ⟨hc, hs⟩ := List.ne_and_not_mem_of_not_mem_cons h
    rw [stretches, if_neg hc.symm, ih hs]

/-- Stretches that are joined by slashes are found again. -/
theorem stretches_intercalate {ss : List (List Char)} (hne : ss ≠ []) (h : ∀ s ∈ ss, '/' ∉ s) :
    stretches (['/'].intercalate ss) = ss := by
  induction ss with
  | nil => exact absurd rfl hne
  | cons s ss ih =>
    obtain ⟨hs, hss⟩ := List.forall_mem_cons.mp h
    cases ss with
    | nil =>
      rw [List.intercalate_singleton]
      exact stretches_of_not_mem hs
    | cons s' ss =>
      rw [List.intercalate_cons_cons, List.append_assoc, List.singleton_append, stretches_append,
        stretches_of_not_mem hs, ih (List.cons_ne_nil _ _) hss, List.singleton_append]

/-! ## Parts -/

/-- The part that stretches begin with, if it is a slash or a point. -/
def lead : List (List Char) → List Part
  | [] => []
  | s :: ss => if s = [] ∧ ss ≠ [] then [.root] else if s = ['.'] then [.current] else []

theorem lead_root {ss : List (List Char)} (h : ss ≠ []) : lead ([] :: ss) = [.root] :=
  if_pos ⟨rfl, h⟩

/-- A text that begins neither with a slash nor with a point that is a part has no such part. -/
theorem lead_eq_nil {cs : List Char} (hroot : ∀ ds, cs ≠ '/' :: ds) (hpoint : cs ≠ ['.'])
    (hcurrent : ∀ ds, cs ≠ '.' :: '/' :: ds) : lead (stretches cs) = [] := by
  cases cs with
  | nil => rfl
  | cons c cs =>
    have hc : c ≠ '/' := fun h => hroot cs (by rw [h])
    obtain ⟨first, rest, hcs, h⟩ := stretches_cons hc cs
    have hstretch : c :: first ≠ ['.'] := by
      -- else the text after the point is empty or begins with a slash
      intro heq
      cases heq
      cases cs with
      | nil => exact hpoint rfl
      | cons d cs =>
        by_cases hd : d = '/'
        · exact hcurrent cs (by rw [hd])
        · obtain ⟨_, _, -, hcons⟩ := stretches_cons hd cs
          rw [hcons] at hcs
          cases hcs
    simp [h, lead, hstretch]

/-- The parts that stretches make up. -/
def partsOf (ss : List (List Char)) : List Part := lead ss ++ ss.filterMap stretchPart?

/-- The parts of a path are read off its stretches. -/
theorem parts_eq (path : String) : parts path = partsOf (stretches path.toList) := by
  unfold partsOf parts beginning
  split
  rename_i start body hbeginning
  split at hbeginning
  · rename_i cs hcs
    cases hbeginning
    rw [hcs, stretches_slash, lead_root (stretches_ne_nil _)]
    rfl
  · rename_i hcs
    cases hbeginning
    rw [hcs]
    rfl
  · rename_i cs hcs
    cases hbeginning
    rw [hcs]
    rfl
  · rename_i hroot hpoint hcurrent
    cases hbeginning
    rw [lead_eq_nil hroot hpoint hcurrent]
    rfl

theorem partsOf_ne_nil {ss : List (List Char)} (hne : ss ≠ []) (hempty : ss ≠ [[]]) :
    partsOf ss ≠ [] := by
  cases ss with
  | nil => exact absurd rfl hne
  | cons s ss =>
    by_cases hs : s = []
    · subst hs
      have hss : ss ≠ [] := fun h => hempty (by rw [h])
      simp [partsOf, lead_root hss]
    · by_cases hpoint : s = ['.']
      · subst hpoint
        simp [partsOf, lead]
      · have hpart : (stretchPart? s).isSome = true := by
          rw [stretchPart?, if_neg (by simp [hs, hpoint])]
          split <;> rfl
        obtain ⟨part, hsome⟩ := Option.isSome_iff_exists.mp hpart
        simp [partsOf, hsome]

/-- A path that is not empty has a part. -/
theorem parts_ne_nil {path : String} (h : path.toList ≠ []) : parts path ≠ [] := by
  rw [parts_eq]
  exact partsOf_ne_nil (stretches_ne_nil _) fun hempty => h (stretches_eq_nil_singleton.mp hempty)

theorem mem_lead {ss : List (List Char)} {part : Part} (h : part ∈ lead ss) :
    part = .root ∨ part = .current := by
  cases ss with
  | nil => cases h
  | cons s ss =>
    rw [lead] at h
    split_ifs at h
    · exact .inl (List.mem_singleton.mp h)
    · exact .inr (List.mem_singleton.mp h)
    · cases h

theorem lead_append {ss ts : List (List Char)} (h : lead (ss ++ ts) = []) : lead ss = [] := by
  cases ss with
  | nil => rfl
  | cons s ss =>
    rw [List.cons_append, lead] at h
    rw [lead]
    split
    · rename_i hroot
      simp [hroot] at h
    · split
      · rename_i hpoint
        simp [hpoint] at h
      · rfl

/-! ## Longer paths -/

section

variable {ss ts : List (List Char)}

theorem partsOf_append (hs : ss ≠ []) (ht : ts ≠ []) :
    partsOf (ss ++ ts) = partsOf (ss ++ [[]]) ++ ts.filterMap stretchPart? := by
  have hlead : lead (ss ++ ts) = lead (ss ++ [[]]) := by
    obtain ⟨s, ss, rfl⟩ := List.exists_cons_of_ne_nil hs
    simp [lead, ht]
  simp [partsOf, hlead, stretchPart?]

theorem partsOf_append_nil (hs : ss ≠ []) (hempty : ss ≠ [[]]) :
    partsOf (ss ++ [[]]) = partsOf ss := by
  have hlead : lead (ss ++ [[]]) = lead ss := by
    obtain ⟨s, ss, rfl⟩ := List.exists_cons_of_ne_nil hs
    by_cases hss : ss = []
    · have hs : s ≠ [] := fun h => hempty (by rw [h, hss])
      simp [lead, hs]
    · simp [lead, hss]
  simp [partsOf, hlead, stretchPart?]

/-- What comes after a slash adds its own parts. -/
theorem partsOf_append_slash (cs ds : List Char) :
    partsOf (stretches (cs ++ '/' :: ds)) =
      partsOf (stretches (cs ++ ['/'])) ++ (stretches ds).filterMap stretchPart? := by
  rw [stretches_append, stretches_append, partsOf_append (stretches_ne_nil _) (stretches_ne_nil _)]
  rfl

/-- A slash at the end adds no part. -/
theorem partsOf_append_final {cs : List Char} (h : cs ≠ []) :
    partsOf (stretches (cs ++ ['/'])) = partsOf (stretches cs) := by
  rw [stretches_append]
  exact partsOf_append_nil (stretches_ne_nil _) fun hempty =>
    h (stretches_eq_nil_singleton.mp hempty)

end

/-- A path that is joined to a directory adds its parts to those of the directory, unless it begins
with a special part. -/
theorem parts_join (dir : String) {path : String} (h : lead (stretches path.toList) = []) :
    parts (join dir path) = parts dir ++ parts path := by
  have hpath : parts path = (stretches path.toList).filterMap stretchPart? := by
    rw [parts_eq, partsOf, h, List.nil_append]
  have hhead : path.toList.head? ≠ some '/' := by
    intro hhead
    obtain ⟨ds, hds⟩ := List.head?_eq_some_iff.mp hhead
    rw [hds, stretches_slash, lead_root (stretches_ne_nil _)] at h
    cases h
  by_cases hdir : dir = ""
  · subst hdir
    have hjoin : join "" path = path := by simp [join]
    rw [hjoin]
    rfl
  · have hdir' : dir.toList ≠ [] := fun h => hdir (String.toList_eq_nil_iff.mp h)
    have hempty : dir.isEmpty = false := by simpa using hdir
    by_cases hlast : dir.toList.getLast? = some '/'
    · obtain ⟨cs, hcs⟩ := List.getLast?_eq_some_iff.mp hlast
      have hjoin : join dir path = dir ++ path := by simp [join, hhead, hempty, hlast]
      rw [hjoin, hpath, parts_eq, parts_eq, String.toList_append, hcs, List.append_assoc,
        List.singleton_append, partsOf_append_slash]
    · have hjoin : join dir path = dir ++ "/" ++ path := by simp [join, hhead, hempty, hlast]
      have hslash : (dir ++ "/" ++ path).toList = dir.toList ++ '/' :: path.toList := by
        simp [String.toList_append]
      rw [hjoin, hpath, parts_eq, parts_eq, hslash, partsOf_append_slash,
        partsOf_append_final hdir']

/-- A text that ends in a slash and begins a path has the first parts of the path. -/
theorem prefix_parts {entry path : String} (hslash : entry.toList.getLast? = some '/')
    (h : entry.toList <+: path.toList) : parts entry <+: parts path := by
  obtain ⟨cs, hcs⟩ := List.getLast?_eq_some_iff.mp hslash
  obtain ⟨ds, hds⟩ := h
  rw [parts_eq, parts_eq, ← hds, hcs, List.append_assoc, List.singleton_append,
    partsOf_append_slash cs ds]
  exact List.prefix_append _ _

/-! ## Shorter paths -/

section

variable {ss : List (List Char)}

theorem exists_dropTrailing_append (ss : List (List Char)) :
    ∃ tail, (∀ s ∈ tail, stretchPart? s = none) ∧ ss = dropTrailing ss ++ tail := by
  refine ⟨(ss.reverse.takeWhile fun s => (stretchPart? s).isNone).reverse, ?_, ?_⟩
  · intro s hs
    simpa using List.mem_takeWhile_imp (List.mem_reverse.mp hs)
  · rw [dropTrailing, ← List.reverse_append, List.takeWhile_append_dropWhile, List.reverse_reverse]

theorem prefix_dropTrailing (ss : List (List Char)) : dropTrailing ss <+: ss := by
  obtain ⟨tail, -, h⟩ := exists_dropTrailing_append ss
  exact ⟨tail, h.symm⟩

theorem filterMap_dropTrailing (ss : List (List Char)) :
    (dropTrailing ss).filterMap stretchPart? = ss.filterMap stretchPart? := by
  obtain ⟨tail, htail, h⟩ := exists_dropTrailing_append ss
  have hparts := congrArg (List.filterMap stretchPart?) h
  rw [List.filterMap_append, List.filterMap_eq_nil_iff.mpr htail, List.append_nil] at hparts
  exact hparts.symm

/-- What is left of stretches ends in a part. -/
theorem dropTrailing_reverse {last : List Char} {before : List (List Char)}
    (h : (dropTrailing ss).reverse = last :: before) :
    dropTrailing ss = before.reverse ++ [last] ∧ ∃ part, stretchPart? last = some part := by
  have hsplit : dropTrailing ss = before.reverse ++ [last] := by
    rw [← List.reverse_reverse (dropTrailing ss), h, List.reverse_cons]
  rw [dropTrailing, List.reverse_reverse] at h
  have hhead := List.head?_dropWhile_not (fun s => (stretchPart? s).isNone) ss.reverse
  rw [h] at hhead
  exact ⟨hsplit, Option.isSome_iff_exists.mp (by simpa using hhead)⟩

theorem filterMap_stretches_intercalate (h : ∀ s ∈ ss, '/' ∉ s) :
    (stretches (['/'].intercalate ss)).filterMap stretchPart? = ss.filterMap stretchPart? := by
  by_cases hne : ss = []
  · subst hne
    rfl
  · rw [stretches_intercalate hne h]

end

theorem beginning_of_lead {cs : List Char} (h : lead (stretches cs) = []) :
    beginning cs = ([], cs) := by
  unfold beginning
  split
  · rw [stretches_slash, lead_root (stretches_ne_nil _)] at h
    cases h
  · cases h
  · cases h
  · rfl

/-- A path without some of its last stretches begins as it did. -/
theorem beginning_intercalate {cs start body : List Char} {ss : List (List Char)}
    (h : beginning cs = (start, body)) (hss : ss <+: stretches body) :
    beginning (start ++ ['/'].intercalate ss) = (start, ['/'].intercalate ss) := by
  obtain ⟨ts, hts⟩ := hss
  unfold beginning at h
  split at h
  · cases h
    rfl
  · cases h
    rcases List.append_eq_singleton_iff.mp hts with ⟨rfl, -⟩ | ⟨rfl, -⟩ <;> rfl
  · cases h
    -- the stretches begin with the empty one before the slash
    rw [stretches_slash] at hts
    rcases ss with _ | ⟨s, _ | ⟨s', ss⟩⟩
    · rfl
    · cases hts
      rfl
    · obtain rfl : s = [] := (List.cons.inj hts).1
      rfl
  · rename_i hroot hpoint hcurrent
    cases h
    refine beginning_of_lead ?_
    have hlead : lead (ss ++ ts) = [] := hts ▸ lead_eq_nil hroot hpoint hcurrent
    by_cases hne : ss = []
    · subst hne
      rfl
    · rw [List.nil_append, stretches_intercalate hne fun s hs =>
        not_mem_of_mem_stretches (hts ▸ List.mem_append_left ts hs)]
      exact lead_append hlead

theorem parts_of_beginning {path : String} {start body : List Char}
    (h : beginning path.toList = (start, body)) :
    parts path =
      (if start = ['/'] then [.root] else if start = ['.'] then [.current] else []) ++
        (stretches body).filterMap stretchPart? := by
  rw [parts, h]

/-- A path without its last part has the parts before it. -/
theorem parts_parent? {path up : String} (h : parent? path = some up) :
    parts up = (parts path).dropLast := by
  cases hbeginning : beginning path.toList with
  | mk start body =>
    rw [parent?, hbeginning] at h
    dsimp only at h
    rw [parts_of_beginning hbeginning, ← filterMap_dropTrailing]
    split at h
    · rename_i hnone
      split_ifs at h with hstart
      cases h
      rw [List.reverse_eq_nil_iff.mp hnone, hstart]
      rfl
    · rename_i last before hbefore
      obtain ⟨hsplit, part, hpart⟩ := dropTrailing_reverse hbefore
      have hbegins : dropTrailing before.reverse <+: stretches body := by
        refine (prefix_dropTrailing _).trans (.trans ?_ (prefix_dropTrailing _))
        rw [hsplit]
        exact List.prefix_append _ _
      have hup : beginning up.toList =
          (start, ['/'].intercalate (dropTrailing before.reverse)) := by
        cases h
        rw [String.toList_ofList]
        exact beginning_intercalate hbeginning hbegins
      have hslash : ∀ s ∈ dropTrailing before.reverse, '/' ∉ s :=
        fun s hs => not_mem_of_mem_stretches (hbegins.subset hs)
      rw [parts_of_beginning hup, filterMap_stretches_intercalate hslash, filterMap_dropTrailing,
        hsplit, List.filterMap_append, List.filterMap_cons_some hpart, List.filterMap_nil,
        ← List.append_assoc, List.dropLast_concat]

end Path

end LivePage
