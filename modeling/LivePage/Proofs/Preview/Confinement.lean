import LivePage.Preview.Sync
import LivePage.Proofs.Files.Runs

/-!
# What a preview writes

A path is compared with the allow-list as text, and told to lead down by its parts. Both together
keep every file that is written below the target directory and under an entry of the list, however
the path, the list and the target are spelled.

* `Preview.leadsDown_iff`, `Preview.permits_cases`: the two tests, by the parts of the path.
* `Preview.parts_join_of_names`: where an allowed path leads from the target.
* `Preview.confined_sync`: writing files one after the other.
* `Preview.handle_confined`: the answers to requests, and what they change.
-/

namespace LivePage

namespace Preview

/-! ## Allowed paths -/

theorem exists_names {ps : List Path.Part} (h : ∀ part ∈ ps, ∃ name, part = .normal name) :
    ∃ names : List String, ps = names.map .normal := by
  induction ps with
  | nil => exact ⟨[], rfl⟩
  | cons part ps ih =>
    obtain ⟨⟨name, rfl⟩, hps⟩ := List.forall_mem_cons.mp h
    obtain ⟨names, rfl⟩ := ih hps
    exact ⟨name :: names, rfl⟩

/-- A path leads down exactly if its parts are names, and there are some. -/
theorem leadsDown_iff {path : String} :
    leadsDown path = true ↔
      ∃ names : List String, names ≠ [] ∧ Path.parts path = names.map .normal := by
  rw [leadsDown, Bool.and_eq_true, List.all_eq_true]
  constructor
  · rintro ⟨hempty, hparts⟩
    obtain ⟨names, hnames⟩ : ∃ names : List String, Path.parts path = names.map .normal := by
      refine exists_names fun part hpart => ?_
      have hnormal := hparts part hpart
      cases part with
      | normal name => exact ⟨name, rfl⟩
      | root | current | parent => cases hnormal
    refine ⟨names, ?_, hnames⟩
    rintro rfl
    exact Path.parts_ne_nil (by simpa using hempty) hnames
  · rintro ⟨names, hne, hnames⟩
    constructor
    · have hpath : path ≠ "" := by
        rintro rfl
        exact hne (List.map_eq_nil_iff.mp hnames.symm)
      simpa using hpath
    · intro part hpart
      rw [hnames] at hpart
      obtain ⟨name, -, rfl⟩ := List.mem_map.mp hpart
      rfl

/-- Only names follow the target directory where a path leads down. -/
theorem parts_join_of_names (dir : String) {path : String} {names : List String}
    (h : Path.parts path = names.map .normal) :
    Path.parts (Path.join dir path) = Path.parts dir ++ names.map .normal := by
  have hlead : Path.lead (Path.stretches path.toList) = [] := by
    rw [List.eq_nil_iff_forall_not_mem]
    intro part hpart
    have hmem : part ∈ Path.parts path := by
      rw [Path.parts_eq]
      exact List.mem_append_left _ hpart
    rw [h] at hmem
    obtain ⟨name, -, rfl⟩ := List.mem_map.mp hmem
    rcases Path.mem_lead hpart with h | h <;> cases h
  rw [Path.parts_join dir hlead, h]

/-- An entry stands for itself, or with a slash at its end for the paths that begin with its parts.
-/
theorem permits_cases {entry path : String} (h : permits entry path = true) :
    (entry.toList.getLast? ≠ some '/' ∧ path = entry) ∨
      (entry.toList.getLast? = some '/' ∧ Path.parts entry <+: Path.parts path) := by
  unfold permits at h
  split at h
  · rename_i hslash
    exact .inr ⟨hslash, Path.prefix_parts hslash (List.isPrefixOf_iff_prefix.mp h)⟩
  · rename_i hslash
    exact .inl ⟨hslash, by simpa using h⟩

/-! ## Writing -/

/-- The paths of the files that may be written, in order. -/
def allowedPaths (p : Preview) (files : List SyncFile) : List String :=
  (files.filter fun file => p.isAllowed file.path).map SyncFile.path

/-- A result that is of some kind, or the failure of a file that cannot be written. -/
def Written {α : Type} (post : α → Prop) : Except SyncError α → Prop
  | .ok a => post a
  | .error e => ∃ path cause, e = .unwritable path cause

variable {may : String → Prop}

theorem confined_writeBelow {destination : String} (hmay : may destination) (content : String) :
    (writeBelow destination content).Confined may (Written fun _ => True) := by
  unfold writeBelow
  split
  · refine ⟨hmay, fun r => ?_⟩
    cases r with
    | ok => exact trivial
    | error e => exact ⟨destination, e, rfl⟩
  · rename_i parent hparent
    refine ⟨⟨destination, hmay, hparent⟩, fun r => ?_⟩
    cases r with
    | error e => exact ⟨parent, e, rfl⟩
    | ok =>
      refine ⟨hmay, fun r => ?_⟩
      cases r with
      | ok => exact trivial
      | error e => exact ⟨destination, e, rfl⟩

/-- Files are written in order, as far as they are allowed; the result names these, unless one of
them cannot be written. -/
theorem confined_sync (p : Preview) {files : List SyncFile}
    (hmay : ∀ file ∈ files, p.isAllowed file.path = true → may (p.destination file.path)) :
    (p.sync files).Confined may (Written fun synced => synced = p.allowedPaths files) := by
  induction files with
  | nil => exact rfl
  | cons file files ih =>
    obtain ⟨hfile, hfiles⟩ := List.forall_mem_cons.mp hmay
    unfold sync
    split
    · rename_i hallowed
      have hpaths : p.allowedPaths (file :: files) = file.path :: p.allowedPaths files := by
        simp [allowedPaths, hallowed]
      rw [hpaths]
      refine (confined_writeBelow (hfile hallowed) _).andThen fun r hr => ?_
      cases r with
      | error e => exact hr
      | ok =>
        refine (ih hfiles).andThen fun r hr => ?_
        cases r with
        | error e => exact hr
        | ok synced => exact congrArg (file.path :: ·) hr
    · rename_i hrefused
      have hpaths : p.allowedPaths (file :: files) = p.allowedPaths files := by
        simp [allowedPaths, hrefused]
      rw [hpaths]
      exact ih hfiles

/-! ## Answers -/

/-- Where a request may write: where the files of its body that are allowed are written to. -/
def MayWrite (p : Preview) (body : String) (destination : String) : Prop :=
  ∃ request, SyncRequest.ofText? body = some request ∧
    ∃ file ∈ request.files, p.isAllowed file.path = true ∧ destination = p.destination file.path

/-- A request is refused with one of two statuses and nothing is done; or its files are written, and
the answer names those that are allowed or tells of a failure. -/
theorem handle_cases (p : Preview) (method body : String) :
    (∃ response, p.handle method body = .done response ∧
      (response.status = 405 ∨ response.status = 400)) ∨
    (p.handle method body).Confined (p.MayWrite body) fun response =>
      response.status = 500 ∨ response.status = 200 ∧
        ∃ request, SyncRequest.ofText? body = some request ∧
          response.body = .obj [("success", .bool true),
            ("synced", .arr ((p.allowedPaths request.files).map .str))] := by
  unfold handle attempt
  split
  · exact .inl ⟨_, rfl, .inl rfl⟩
  split
  · exact .inl ⟨_, rfl, .inr rfl⟩
  · rename_i request hrequest
    refine .inr ((p.confined_sync fun file hfile hallowed =>
      ⟨request, hrequest, file, hfile, hallowed, rfl⟩).andThen fun r hr => ?_)
    cases r with
    | ok synced =>
      obtain rfl : synced = p.allowedPaths request.files := hr
      exact .inr ⟨rfl, request, hrequest, rfl⟩
    | error e =>
      obtain ⟨path, cause, rfl⟩ := hr
      exact .inl rfl

/-- **A preview writes only below its target.** An allowed path leads from the target directory down
by its names alone, and is an entry of the list or has the parts of one that ends in a slash before
its others. Whatever request is handled, and whichever operations fail on the way, no entry changes
but those of the files of the request that are allowed, and directories that were not there and are
on the way to these; a request that is refused changes nothing, and one that is carried out is
answered with the allowed paths in order. -/
theorem handle_confined (p : Preview) :
    (∀ path, p.isAllowed path = true → ∃ names : List String, names ≠ [] ∧
      Path.parts path = names.map .normal ∧
      Path.parts (p.destination path) = Path.parts p.targetDir ++ names.map .normal ∧
      Path.place (Path.parts (p.destination path)) =
        names.reverse ++ Path.place (Path.parts p.targetDir) ∧
      ∃ entry ∈ p.allowList,
        (entry.toList.getLast? ≠ some '/' ∧ path = entry) ∨
          (entry.toList.getLast? = some '/' ∧ Path.parts entry <+: Path.parts path)) ∧
    ∀ (method body : String) (t : FileTree) (response : SyncResponse) (u : FileTree),
      (p.handle method body).Run t response u →
      FileTree.Frame (p.MayWrite body) t u ∧
      (response.status = 405 ∨ response.status = 400 → u = t) ∧
      (response.status = 200 → ∃ request, SyncRequest.ofText? body = some request ∧
        response.body = .obj [("success", .bool true),
          ("synced", .arr ((p.allowedPaths request.files).map .str))]) := by
  constructor
  · intro path hallowed
    rw [isAllowed, Bool.and_eq_true, List.any_eq_true] at hallowed
    obtain ⟨hdown, entry, hentry, hpermits⟩ := hallowed
    obtain ⟨names, hne, hnames⟩ := leadsDown_iff.mp hdown
    have hdestination := parts_join_of_names p.targetDir hnames
    refine ⟨names, hne, hnames, hdestination, ?_, entry, hentry, permits_cases hpermits⟩
    rw [destination, hdestination, Path.place_append_normal]
  · intro method body t response u hrun
    rcases p.handle_cases method body with ⟨refusal, hhandle, hstatus⟩ | hconfined
    · rw [hhandle] at hrun
      cases hrun
      refine ⟨.refl t, fun _ => rfl, fun h => ?_⟩
      rw [h] at hstatus
      omega
    · obtain ⟨hanswer, hframe⟩ := hrun.sound hconfined
      refine ⟨hframe, fun h => ?_, fun h => ?_⟩
      · omega
      · rcases hanswer with hfailed | ⟨-, hanswer⟩
        · rw [hfailed] at h
          cases h
        · exact hanswer

/-- A preview of one page and the settings beside it. -/
def pagePreview : Preview := ⟨"out//.", ["pages//", "app.json"]⟩

/-- A request with a file that is allowed, in an odd spelling, and one that would lead up. -/
def pageRequest : String :=
  "\x7b\"files\":[\x7b\"path\":\"pages//./a.wxml\",\"content\":\"<view/>\"\x7d," ++
    "\x7b\"path\":\"pages//../b\",\"content\":\"\"\x7d]\x7d"

theorem handle_confined_page :
    (pagePreview.isAllowed "pages//./a.wxml" = true ∧
      ∃ entry ∈ pagePreview.allowList,
        (entry.toList.getLast? ≠ some '/' ∧ "pages//./a.wxml" = entry) ∨
          (entry.toList.getLast? = some '/' ∧
            Path.parts entry <+: Path.parts "pages//./a.wxml")) ∧
      (∃ u, (pagePreview.handle "GET" pageRequest).Run .empty
        (respond (.error (.methodNotAllowed "GET"))) u ∧ u = .empty) ∧
      ∃ response u, (pagePreview.handle "Post" pageRequest).Run .empty response u ∧
        response.status = 200 ∧
        response.body =
          .obj [("success", .bool true), ("synced", .arr [.str "pages//./a.wxml"])] := by
  have hallowed : pagePreview.isAllowed "pages//./a.wxml" = true := by decide +kernel
  have hrefused : (pagePreview.handle "GET" pageRequest).Run .empty
      (respond (.error (.methodNotAllowed "GET"))) .empty := .done _ _
  have hrun := (pagePreview.handle "Post" pageRequest).run_runOn .empty
  have hstatus : ((pagePreview.handle "Post" pageRequest).runOn .empty).1.status = 200 := by
    decide +kernel
  have hrequest : SyncRequest.ofText? pageRequest =
      some ⟨[⟨"pages//./a.wxml", "<view/>"⟩, ⟨"pages//../b", ""⟩]⟩ := by decide +kernel
  have hpaths : pagePreview.allowedPaths
      [⟨"pages//./a.wxml", "<view/>"⟩, ⟨"pages//../b", ""⟩] = ["pages//./a.wxml"] := by
    decide +kernel
  obtain ⟨hpath, hhandle⟩ := handle_confined pagePreview
  obtain ⟨-, -, -, -, -, hentry⟩ := hpath _ hallowed
  obtain ⟨request, hread, hbody⟩ := (hhandle _ _ _ _ _ hrun).2.2 hstatus
  rw [hrequest, Option.some.injEq] at hread
  subst hread
  rw [hpaths] at hbody
  exact ⟨⟨hallowed, hentry⟩, ⟨.empty, hrefused, (hhandle _ _ _ _ _ hrefused).2.1 (.inl rfl)⟩,
    _, _, hrun, hstatus, hbody⟩

end Preview

end LivePage
