import LivePage.Files.Script
import LivePage.Proofs.Files.Places

/-!
# Runs of scripts

Outside of a tree any operation on files may fail, and one that fails may have done a part of what
it should. What a script may change at worst is known all the same, as it is known which operations
the script asks for.

* `FileScript.Run`: the runs of a script where any operation may fail.
* `FileTree.Change`, `FileTree.Frame`: what may become of an entry where only some files may be
  written.
* `FileScript.Confined`: scripts that write only such files and end in a result of some kind.
* `FileScript.Run.sound`: what every run of such a script keeps.
-/

namespace LivePage

namespace FileScript

/-- The runs of a script. A file that cannot be written is left as it was or with some other
content, and whatever comes of making directories, some of those on the way are made. -/
inductive Run {α : Type} : FileScript α → FileTree → α → FileTree → Prop
  | done (a : α) (t : FileTree) : Run (.done a) t a t
  | read {path : String} {next : Except FileError String → FileScript α} {a : α} {t u : FileTree}
      (r : Except FileError String) : r = t.read path ∨ (∃ e, r = .error e) →
      Run (next r) t a u → Run (.read path next) t a u
  | write {path content : String} {next : Except FileError Unit → FileScript α} {a : α}
      {t u v : FileTree} : t.write path content = .ok u → Run (next (.ok ())) u a v →
      Run (.write path content next) t a v
  | unwritten {path content : String} {next : Except FileError Unit → FileScript α} {a : α}
      {t u : FileTree} (e : FileError) : Run (next (.error e)) t a u →
      Run (.write path content next) t a u
  | torn {path content : String} {next : Except FileError Unit → FileScript α} {a : α}
      {t u v : FileTree} (e : FileError) (part : String) : t.write path part = .ok u →
      Run (next (.error e)) u a v → Run (.write path content next) t a v
  | makeDirectories {path : String} {next : Except FileError Unit → FileScript α} {a : α}
      {t u v : FileTree} (r : Except FileError Unit) : FileTree.Making (Path.parts path) t u →
      Run (next r) u a v → Run (.makeDirectories path next) t a v

/-- Running a script on a tree is one of its runs. -/
theorem run_runOn {α : Type} (s : FileScript α) (t : FileTree) :
    s.Run t (s.runOn t).1 (s.runOn t).2 := by
  induction s generalizing t with
  | done a => exact .done a t
  | read path next ih => exact .read (t.read path) (.inl rfl) (ih _ t)
  | write path content next ih =>
    unfold runOn
    split
    · rename_i u hwrite
      exact .write hwrite (ih _ u)
    · rename_i e hwrite
      exact .unwritten e (ih _ t)
  | makeDirectories path next ih =>
    exact .makeDirectories _ (FileTree.making_makeDirectories t path) (ih _ _)

end FileScript

/-! ## Entries -/

namespace FileTree

/-- What may become of the entry under a key where the files at some paths may be written: it stays,
it becomes such a file, or it is a new directory on the way to one. -/
inductive Change (may : String → Prop) (k : String) : Option FileEntry → Option FileEntry → Prop
  | same (e : Option FileEntry) : Change may k e e
  | file {dest content : String} {e : Option FileEntry} : may dest →
      k = Path.keyOf (Path.parts dest) → e ≠ some .directory →
      Change may k e (some (.file content))
  | directory {dest : String} {ps : List Path.Part} : may dest →
      ps <+: (Path.parts dest).dropLast → k = Path.keyOf ps →
      Change may k none (some .directory)

/-- Two trees differ only in entries that may have changed. -/
def Frame (may : String → Prop) (t u : FileTree) : Prop :=
  ∀ k, Change may k (t.entries.get? k) (u.entries.get? k)

variable {may : String → Prop} {t u v : FileTree} {dest : String}

theorem Change.trans {k : String} {e e' e'' : Option FileEntry} (h : Change may k e e')
    (h' : Change may k e' e'') : Change may k e e'' := by
  cases h with
  | same => exact h'
  | file hmay hk he =>
    cases h' with
    | same => exact .file hmay hk he
    | file hmay' hk' _ => exact .file hmay' hk' he
  | directory hmay hps hk =>
    cases h' with
    | same => exact .directory hmay hps hk
    | file _ _ he => exact absurd rfl he

theorem Frame.refl (t : FileTree) : Frame may t t := fun _ => .same _

theorem Frame.trans (h : Frame may t u) (h' : Frame may u v) : Frame may t v :=
  fun k => (h k).trans (h' k)

theorem frame_of_write {content : String} (hmay : may dest) (h : t.write dest content = .ok u) :
    Frame may t u := by
  obtain ⟨hfile, hentries⟩ := write_eq_ok h
  intro k
  rw [hentries, KeyMap.get?_insert]
  split
  · rename_i hk
    subst hk
    exact .file hmay rfl hfile
  · exact .same _

theorem frame_of_making {ps : List Path.Part} (hmay : may dest)
    (hps : ps <+: (Path.parts dest).dropLast) (h : Making ps t u) : Frame may t u := by
  induction h with
  | refl => exact .refl _
  | step _ hpath hmake ih =>
    refine ih.trans fun k => ?_
    obtain ⟨hnone, hentries⟩ := makeDirectory_eq_ok hmake
    rw [hentries, KeyMap.get?_insert]
    split
    · rename_i hk
      subst hk
      rw [hnone]
      exact .directory hmay (hpath.trans hps) rfl
    · exact .same _

end FileTree

/-! ## Scripts -/

namespace FileScript

variable {α β : Type} {may : String → Prop} {post : α → Prop}

/-- Whatever its operations give, a script writes only files that may be written, makes directories
only on the way to such files, and ends in a result of some kind. -/
def Confined (may : String → Prop) (post : α → Prop) : FileScript α → Prop
  | .done a => post a
  | .read _ next => ∀ r, (next r).Confined may post
  | .write path _ next => may path ∧ ∀ r, (next r).Confined may post
  | .makeDirectories path next =>
    (∃ dest, may dest ∧ Path.parent? dest = some path) ∧ ∀ r, (next r).Confined may post

theorem Confined.andThen {s : FileScript α} {f : α → FileScript β} {post' : β → Prop}
    (hs : s.Confined may post) (hf : ∀ a, post a → (f a).Confined may post') :
    (s.andThen f).Confined may post' := by
  induction s with
  | done a => exact hf a hs
  | read path next ih => exact fun r => ih r (hs r)
  | write path content next ih => exact ⟨hs.1, fun r => ih r (hs.2 r)⟩
  | makeDirectories path next ih => exact ⟨hs.1, fun r => ih r (hs.2 r)⟩

/-- Every run of a confined script ends in a result of its kind and keeps all other entries. -/
theorem Run.sound {s : FileScript α} {a : α} {t u : FileTree} (h : s.Run t a u)
    (hs : s.Confined may post) : post a ∧ FileTree.Frame may t u := by
  induction h with
  | done a t => exact ⟨hs, .refl t⟩
  | read r _ _ ih => exact ih (hs r)
  | write hwrite _ ih =>
    obtain ⟨hpost, hframe⟩ := ih (hs.2 _)
    exact ⟨hpost, (FileTree.frame_of_write hs.1 hwrite).trans hframe⟩
  | unwritten e _ ih => exact ih (hs.2 _)
  | torn e part hwrite _ ih =>
    obtain ⟨hpost, hframe⟩ := ih (hs.2 _)
    exact ⟨hpost, (FileTree.frame_of_write hs.1 hwrite).trans hframe⟩
  | makeDirectories r hmaking _ ih =>
    obtain ⟨⟨dest, hmay, hparent⟩, hnext⟩ := hs
    obtain ⟨hpost, hframe⟩ := ih (hnext r)
    rw [Path.parts_parent? hparent] at hmaking
    exact ⟨hpost, (FileTree.frame_of_making hmay List.prefix_rfl hmaking).trans hframe⟩

end FileScript

end LivePage
