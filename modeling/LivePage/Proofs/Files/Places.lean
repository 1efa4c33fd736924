import LivePage.Files.Tree
import LivePage.Proofs.Files.Paths
import Mathlib.Data.List.Basic

/-!
# What operations on files change

A path leads to a place, which its parts alone decide. An operation on a path changes what stands at
that place, or, where directories are made on the way, at the places of its first parts.

* `Path.place`, `Path.keyOf`: the place to which parts lead, and its key.
* `FileTree.write_eq_ok`, `FileTree.makeDirectory_eq_ok`: the one entry that an operation changes.
* `FileTree.Making`: trees between which some of the directories on the way to a path are made.
* `FileTree.making_makeDirectories`: nothing else is done to make them all.
-/

namespace LivePage

namespace Path

open FileTree (Place)

/-- The place to which a part leads from another one. -/
def Part.follow (place : Place) : Part → Place
  | .root => []
  | .current => place
  | .parent => place.tail
  | .normal name => name :: place

/-- The place to which parts lead. -/
def place (ps : List Part) : Place := ps.foldl Part.follow []

/-- The key of the place to which a path leads. -/
def keyOf (ps : List Part) : String := FileTree.key (place ps)

theorem foldl_follow_normal (place : Place) (names : List String) :
    (names.map Part.normal).foldl Part.follow place = names.reverse ++ place := by
  induction names generalizing place with
  | nil => rfl
  | cons name names ih => simp [Part.follow, ih]

/-- Names lead further down. -/
theorem place_append_normal (ps : List Part) (names : List String) :
    place (ps ++ names.map .normal) = names.reverse ++ place ps := by
  rw [place, List.foldl_append, foldl_follow_normal, place]

/-- The place to which a step of a route leads from another one. -/
def step (place : Place) (name : String) : Place :=
  if name = "." then place else if name = ".." then place.tail else name :: place

theorem foldl_step_eq_follow (place : Place) (ss : List (List Char)) :
    ((ss.filter fun s => !s.isEmpty).map String.ofList).foldl step place =
      (ss.filterMap stretchPart?).foldl Part.follow place := by
  induction ss generalizing place with
  | nil => rfl
  | cons s ss ih =>
    by_cases hempty : s = []
    · subst hempty
      exact ih place
    have hfilter : (s :: ss).filter (fun s => !s.isEmpty) = s :: ss.filter fun s => !s.isEmpty :=
      List.filter_cons_of_pos (by simpa using hempty)
    rw [hfilter, List.map_cons, List.foldl_cons, ih]
    by_cases hpoint : s = ['.']
    · subst hpoint
      rfl
    by_cases hpoints : s = ['.', '.']
    · subst hpoints
      rfl
    have hpart : stretchPart? s = some (.normal (String.ofList s)) := by
      rw [stretchPart?, if_neg (by simp [hempty, hpoint]), if_neg hpoints]
    have hname : String.ofList s ≠ "." ∧ String.ofList s ≠ ".." := by
      constructor
      · exact fun h => hpoint (String.ofList_injective h)
      · exact fun h => hpoints (String.ofList_injective h)
    rw [List.filterMap_cons_some hpart, List.foldl_cons, step, if_neg hname.1, if_neg hname.2]
    rfl

theorem foldl_follow_lead (ss : List (List Char)) : (lead ss).foldl Part.follow [] = [] := by
  cases ss with
  | nil => rfl
  | cons s ss =>
    rw [lead]
    split_ifs <;> rfl

/-- The steps of a path lead where its parts lead. -/
theorem foldl_step_eq_place (path : String) :
    (((stretches path.toList).filter fun s => !s.isEmpty).map String.ofList).foldl step [] =
      place (parts path) := by
  rw [parts_eq, partsOf, place, List.foldl_append, foldl_follow_lead, foldl_step_eq_follow]

end Path

namespace FileTree

variable {t u : FileTree} {path : String}

theorem ok_of_bind {α β : Type} {x : Except FileError α} {f : α → Except FileError β} {b : β}
    (h : x >>= f = .ok b) : ∃ a, x = .ok a ∧ f a = .ok b := by
  cases x with
  | error e => cases h
  | ok a => exact ⟨a, rfl, h⟩

theorem follow_eq_ok {dir : Place} {steps : List String} {dir' : Place}
    (h : t.follow dir steps = .ok dir') : dir' = steps.foldl Path.step dir := by
  induction steps generalizing dir with
  | nil => exact (Except.ok.inj h).symm
  | cons name names ih =>
    rw [List.foldl_cons, Path.step]
    rw [follow] at h
    split_ifs at h ⊢
    · exact ih h
    · exact ih h
    · split at h
      · cases h
      · cases h
      · cases h
      · exact ih h

/-- A route that ends in a name leads to the place of that name in the directory before it. -/
theorem place_of_route {r : Route} {dir : Place} {name : String} (hroute : route path = .ok r)
    (hdir : t.follow [] r.steps = .ok dir) (hname : r.target? = some name) :
    Path.place (Path.parts path) = name :: dir := by
  obtain ⟨hlast, hisName⟩ := Option.filter_eq_some_iff.mp hname
  have hsteps : r.steps ++ [name] =
      ((Path.stretches path.toList).filter fun s => !s.isEmpty).map String.ofList := by
    unfold route at hroute
    dsimp only at hroute
    split_ifs at hroute
    cases hroute
    exact List.dropLast_append_getLast? name hlast
  have hneither : name ≠ "." ∧ name ≠ ".." := by simpa [isName] using hisName
  rw [← Path.foldl_step_eq_place, ← hsteps, List.foldl_append, ← follow_eq_ok hdir]
  show Path.step dir name = name :: dir
  rw [Path.step, if_neg hneither.1, if_neg hneither.2]

theorem look_eq_ok {dir : Place} {name : String} {found : Option FileEntry}
    (h : t.look dir name = .ok found) : t.entries.get? (key (name :: dir)) = found := by
  unfold look at h
  split_ifs at h
  exact Except.ok.inj h

/-- A file that is written changes the entry of its path, which was no directory. -/
theorem write_eq_ok {content : String} (h : t.write path content = .ok u) :
    t.entries.get? (Path.keyOf (Path.parts path)) ≠ some .directory ∧
      u.entries = t.entries.insert (Path.keyOf (Path.parts path)) (.file content) := by
  unfold write at h
  obtain ⟨r, hroute, h⟩ := ok_of_bind h
  obtain ⟨dir, hdir, h⟩ := ok_of_bind h
  split at h
  · obtain ⟨_, -, h⟩ := ok_of_bind h
    cases h
  · rename_i name hname
    split_ifs at h
    obtain ⟨found, hlook, h⟩ := ok_of_bind h
    split at h
    · cases h
    · rename_i hfound
      cases h
      rw [Path.keyOf, place_of_route hroute hdir hname, look_eq_ok hlook]
      exact ⟨hfound, rfl⟩

/-- A directory that is made is a new entry of its path. -/
theorem makeDirectory_eq_ok (h : t.makeDirectory path = .ok u) :
    t.entries.get? (Path.keyOf (Path.parts path)) = none ∧
      u.entries = t.entries.insert (Path.keyOf (Path.parts path)) .directory := by
  unfold makeDirectory at h
  obtain ⟨r, hroute, h⟩ := ok_of_bind h
  obtain ⟨dir, hdir, h⟩ := ok_of_bind h
  split at h
  · cases h
  · rename_i name hname
    obtain ⟨found, hlook, h⟩ := ok_of_bind h
    split at h
    · cases h
    · cases h
      rw [Path.keyOf, place_of_route hroute hdir hname, look_eq_ok hlook]
      exact ⟨rfl, rfl⟩

/-! ## Directories on the way -/

/-- Directories are made at paths on the way to some parts. -/
inductive Making (ps : List Path.Part) : FileTree → FileTree → Prop
  | refl (t : FileTree) : Making ps t t
  | step {t u v : FileTree} {path : String} :
      Making ps t u → Path.parts path <+: ps → u.makeDirectory path = .ok v → Making ps t v

namespace Making

variable {ps qs : List Path.Part}

/-- What is on the way to the first parts is on the way to all of them. -/
theorem mono (hps : ps <+: qs) (h : Making ps t u) : Making qs t u := by
  induction h with
  | refl => exact .refl _
  | step _ hpath hmake ih => exact .step ih (hpath.trans hps) hmake

theorem ensure (h : Making ps t u) (hpath : Path.parts path <+: ps) {v : FileTree}
    (hensure : u.ensureDirectory path = .ok v) : Making ps t v := by
  unfold ensureDirectory at hensure
  split at hensure
  · rename_i hmake
    cases hensure
    exact .step h hpath hmake
  · split_ifs at hensure
    cases hensure
    exact h

end Making

/-- All that is done to make a directory is to make directories on the way to it. -/
theorem making_makeDirectoriesWithin (fuel : Nat) (t : FileTree) (path : String) :
    Making (Path.parts path) t (makeDirectoriesWithin fuel t path).2 := by
  induction fuel generalizing t path with
  | zero => exact .refl t
  | succ fuel ih =>
    unfold makeDirectoriesWithin
    split
    · exact .refl t
    split
    · rename_i hmake
      exact .step (.refl t) List.prefix_rfl hmake
    · split
      · exact .refl t
      · rename_i parent hparent
        have hbegins : Path.parts parent <+: Path.parts path := by
          rw [Path.parts_parent? hparent]
          exact List.dropLast_prefix _
        have hmaking := (ih t parent).mono hbegins
        split
        · rename_i hresult
          rw [hresult] at hmaking
          exact hmaking
        · rename_i hresult
          rw [hresult] at hmaking
          split
          · rename_i hensure
            exact hmaking.ensure List.prefix_rfl hensure
          · exact hmaking
    · split <;> exact .refl t

theorem making_makeDirectories (t : FileTree) (path : String) :
    Making (Path.parts path) t (t.makeDirectories path).2 :=
  making_makeDirectoriesWithin _ t path

end FileTree

end LivePage
