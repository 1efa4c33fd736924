import LivePage.Proofs.Collection.KeyedLog
import LivePage.Proofs.Render.Visit
import LivePage.Render.Registration

/-!
# What a registry owes to the calls

A table of renderers keeps two collections that have to stay in step, a registry only one. Seen from
outside they cannot be told apart, and the one list is the outcome of the log of the calls.

* `RegistryEvent.change`: what an event does to a list of renderers with their names.
  `registeredSince` and `firstRegistered` read the log for one name.
* `Registry.lists_perform`, `Registry.lists_performAll`: after one call, and after all of them, the
  list of a registry shows the log.
* `RendererTable.Keeps`: a table holds the renderers of a registry, in its order. `Keeps.perform` is
  one call and `Keeps.performAll` all of them; `Keeps.has_eq`, `Keeps.size_eq` and
  `Keeps.isEmpty_eq` are the other questions that the two answer alike.
* `RendererTable.Shows`: what a table shows of the calls that led to it.
* `RendererTable.insertion_ordered`: all of it.
-/

namespace LivePage

namespace RegistryEvent

/-- What an event does to the list of the renderers with their names. -/
def change : RegistryEvent → Keyed.Change String (String × Renderer)
  | registered name renderer => .put (name, renderer)
  | unregistered name true => .remove name
  | unregistered _ false => .keep

/-- The renderers that were registered under a name since it was last unregistered, the latest
last. -/
def registeredSince (name : String) (events : List RegistryEvent) : List Renderer :=
  (Keyed.putsSince Prod.fst name (events.map change)).map Prod.snd

/-- Where in the events a name was first registered since it was last unregistered. -/
def firstRegistered (name : String) (events : List RegistryEvent) : Nat :=
  Keyed.firstPut Prod.fst name (events.map change)

end RegistryEvent

/-! ## The list of a registry and its log -/

namespace Registry

variable {r : Registry} {log : List (Keyed.Change String (String × Renderer))}

theorem has_iff_mem_names {name : String} : r.has name = true ↔ name ∈ r.names := by
  rw [has, get?, Option.isSome_map, Keyed.isSome_get?_iff, names]

theorem names_register (r : Registry) (name : String) (renderer : Renderer) :
    (r.register name renderer).names = if r.has name then r.names else r.names ++ [name] := by
  simp only [has_iff_mem_names]
  exact Keyed.map_key_put Prod.fst (name, renderer) r.entries

theorem names_unregister (r : Registry) (name : String) :
    (r.unregister name).2.names = r.names.filter fun n => n != name := by
  simp only [names, List.filter_map]
  rfl

/-- A name has no renderer once it is unregistered, and every other name what it had. -/
theorem get?_unregister (r : Registry) (name other : String) :
    (r.unregister name).2.get? other = if other = name then none else r.get? other := by
  rw [get?, get?]
  split
  · rename_i hother
    rw [hother]
    exact congrArg (Option.map Prod.snd) (Keyed.get?_remove_self Prod.fst name r.entries)
  · rename_i hother
    exact congrArg (Option.map Prod.snd) (Keyed.get?_remove_of_ne Prod.fst hother r.entries)

theorem lists_empty : Keyed.Lists Prod.fst [] empty.entries := Keyed.lists_replay Prod.fst []

/-- One call more is one change more. -/
theorem lists_perform (h : Keyed.Lists Prod.fst log r.entries) (call : Registration) :
    Keyed.Lists Prod.fst (log ++ [(r.perform call).1.change]) (r.perform call).2.entries := by
  cases call with
  | register name renderer => exact h.put (name, renderer)
  | unregister name =>
    cases hfound : r.has name with
    | true =>
      have hchange : (r.perform (.unregister name)).1.change = .remove name := by
        simp only [perform, unregister, hfound, RegistryEvent.change]
      rw [hchange]
      exact h.remove name
    | false =>
      have hchange : (r.perform (.unregister name)).1.change = .keep := by
        simp only [perform, unregister, hfound, RegistryEvent.change]
      have hentries : (r.perform (.unregister name)).2.entries = r.entries := by
        refine Keyed.remove_eq_self fun hname => ?_
        rw [has_iff_mem_names.mpr hname] at hfound
        cases hfound
      rw [hchange, hentries]
      exact h.keep

theorem lists_performAll (h : Keyed.Lists Prod.fst log r.entries) (calls : List Registration) :
    Keyed.Lists Prod.fst (log ++ (performAll perform r calls).1.map RegistryEvent.change)
      (performAll perform r calls).2.entries := by
  induction calls generalizing r log with
  | nil => simpa [performAll] using h
  | cons call calls ih =>
    have hrest := ih (lists_perform h call)
    rwa [List.append_assoc, List.singleton_append, ← List.map_cons] at hrest

end Registry

/-! ## Two collections and one list -/

namespace RendererTable

/-- A table holds the renderers of a registry, and has the names in the same order. -/
structure Keeps (t : RendererTable) (r : Registry) : Prop where
  names_eq : t.names = r.names
  get?_eq : ∀ name, t.get? name = r.get? name

variable {t : RendererTable} {r : Registry} {name : String}

theorem has_eq_isSome (t : RendererTable) (name : String) : t.has name = (t.get? name).isSome := rfl

theorem names_register (t : RendererTable) (name : String) (renderer : Renderer) :
    (t.register name renderer).names = if t.has name then t.names else t.names ++ [name] := by
  rw [has_eq_isSome, get?, register]
  cases t.renderers.get? name <;> rfl

theorem get?_register (t : RendererTable) (name : String) (renderer : Renderer) (other : String) :
    (t.register name renderer).get? other =
      if other = name then some renderer else t.get? other := by
  have hrenderers : (t.register name renderer).renderers = t.renderers.insert name renderer := by
    rw [register]
    cases t.renderers.get? name <;> rfl
  rw [get?, hrenderers, KeyMap.get?_insert, get?]

theorem unregister_fst (t : RendererTable) (name : String) :
    (t.unregister name).1 = t.has name := by
  rw [has_eq_isSome, get?, unregister]
  cases t.renderers.get? name <;> rfl

theorem unregister_of_has (h : t.has name = true) :
    (t.unregister name).2 = ⟨t.renderers.erase name, t.order.filter fun n => n != name⟩ := by
  rw [has_eq_isSome, get?] at h
  rw [unregister]
  cases hget : t.renderers.get? name with
  | some renderer => rfl
  | none => simp [hget] at h

theorem unregister_of_not_has (h : t.has name = false) : (t.unregister name).2 = t := by
  rw [has_eq_isSome, get?] at h
  rw [unregister]
  cases hget : t.renderers.get? name with
  | some renderer => simp [hget] at h
  | none => rfl

/-- A name has no renderer once it is unregistered, and every other name what it had. -/
theorem get?_unregister (t : RendererTable) (name other : String) :
    (t.unregister name).2.get? other = if other = name then none else t.get? other := by
  cases hhas : t.has name with
  | true => rw [unregister_of_has hhas, get?, KeyMap.get?_erase, get?]
  | false =>
    rw [unregister_of_not_has hhas]
    split
    · rename_i hother
      rw [has_eq_isSome, Option.isSome_eq_false_iff, Option.isNone_iff_eq_none] at hhas
      rw [hother, hhas]
    · rfl

/-- A call about one name leaves the renderers of the others and their order. -/
theorem perform_frame (t : RendererTable) (call : Registration) :
    (∀ other, other ≠ call.name → (t.perform call).2.get? other = t.get? other) ∧
      ((t.perform call).2.names.filter fun n => n != call.name) =
        t.names.filter fun n => n != call.name := by
  cases call with
  | register name renderer =>
    refine ⟨fun other hother => (t.get?_register name renderer other).trans (if_neg hother), ?_⟩
    change ((t.register name renderer).names.filter _) = _
    rw [names_register]
    split
    · rfl
    · simp [List.filter_append, Registration.name]
  | unregister name =>
    refine ⟨fun other hother => (t.get?_unregister name other).trans (if_neg hother), ?_⟩
    change ((t.unregister name).2.names.filter _) = _
    cases hhas : t.has name with
    | true =>
      rw [unregister_of_has hhas]
      simp [names, List.filter_filter, Registration.name]
    | false => rw [unregister_of_not_has hhas]

namespace Keeps

theorem has_eq (h : t.Keeps r) (name : String) : t.has name = r.has name := by
  rw [has_eq_isSome, h.get?_eq, Registry.has]

theorem size_eq (h : t.Keeps r) : t.size = r.size := by
  have hlength := congrArg List.length h.names_eq
  rwa [Registry.names, List.length_map] at hlength

theorem isEmpty_eq (h : t.Keeps r) : t.isEmpty = r.isEmpty := by
  have hempty := congrArg List.isEmpty h.names_eq
  rwa [Registry.names, List.isEmpty_map] at hempty

theorem empty : RendererTable.empty.Keeps Registry.empty := ⟨rfl, fun _ => rfl⟩

theorem register (h : t.Keeps r) (name : String) (renderer : Renderer) :
    (t.register name renderer).Keeps (r.register name renderer) where
  names_eq := by rw [names_register, Registry.names_register, h.has_eq, h.names_eq]
  get?_eq other := by
    rw [RendererTable.get?_register, Registry.get?_register, h.get?_eq]
    simp only [eq_comm]

theorem unregister (h : t.Keeps r) (name : String) :
    (t.unregister name).2.Keeps (r.unregister name).2 where
  names_eq := by
    rw [Registry.names_unregister, ← h.names_eq]
    cases hhas : t.has name with
    | true =>
      rw [unregister_of_has hhas]
      rfl
    | false =>
      -- A name that is not there is not in the order of the registry, so not in that of the table.
      rw [unregister_of_not_has hhas]
      refine (List.filter_eq_self.mpr fun n hn => bne_iff_ne.mpr ?_).symm
      rintro rfl
      rw [h.names_eq, ← Registry.has_iff_mem_names, ← h.has_eq, hhas] at hn
      cases hn
  get?_eq other := by rw [get?_unregister, Registry.get?_unregister, h.get?_eq]

/-- A call has the same answer from a table and from the registry that it keeps, and the table keeps
the registry. -/
theorem perform (h : t.Keeps r) (call : Registration) :
    (t.perform call).1 = (r.perform call).1 ∧ (t.perform call).2.Keeps (r.perform call).2 := by
  cases call with
  | register name renderer => exact ⟨rfl, h.register name renderer⟩
  | unregister name =>
    refine ⟨congrArg (RegistryEvent.unregistered name) ?_, h.unregister name⟩
    rw [unregister_fst, h.has_eq]
    rfl

theorem performAll (h : t.Keeps r) (calls : List Registration) :
    (performAll RendererTable.perform t calls).1 = (performAll Registry.perform r calls).1 ∧
      (performAll RendererTable.perform t calls).2.Keeps
        (performAll Registry.perform r calls).2 := by
  induction calls generalizing t r with
  | nil => exact ⟨rfl, h⟩
  | cons call calls ih =>
    obtain ⟨hevent, hkeeps⟩ := h.perform call
    obtain ⟨hevents, hkeeps⟩ := ih hkeeps
    exact ⟨by simp only [LivePage.performAll, hevent, hevents], hkeeps⟩

end Keeps

/-- A program starts with what the first calls make of an empty table or registry. -/
theorem start_eq (withBuiltins : Bool) :
    (performAll perform empty (Registration.starting withBuiltins)).2 = start withBuiltins ∧
      (performAll Registry.perform Registry.empty (Registration.starting withBuiltins)).2 =
        Registry.start withBuiltins := by
  cases withBuiltins with
  | true => exact ⟨rfl, rfl⟩
  | false => exact ⟨rfl, rfl⟩

/-! ## What a table shows -/

/-- What a table of renderers shows of the events that led to it. -/
structure Shows (t : RendererTable) (events : List RegistryEvent) : Prop where
  nodup_names : t.names.Nodup
  mem_names_iff : ∀ name, name ∈ t.names ↔ t.has name = true
  has_iff : ∀ name, t.has name = true ↔ ∃ renderer, t.get? name = some renderer
  length_names : t.names.length = t.size
  size_renderers : t.renderers.size = t.size
  ordered : t.names.Pairwise fun name other =>
    RegistryEvent.firstRegistered name events < RegistryEvent.firstRegistered other events
  get?_eq : ∀ name, t.get? name = (RegistryEvent.registeredSince name events).getLast?
  unregister_fst : ∀ name, (t.unregister name).1 = t.has name

/-- Two collections with the same names have the same size. -/
theorem size_renderers_of_names (hnodup : t.names.Nodup)
    (hnames : ∀ name, name ∈ t.names ↔ t.has name = true) : t.renderers.size = t.size := by
  have hmem (name : String) : name ∈ t.renderers.keys ↔ name ∈ t.names := by
    rw [KeyMap.mem_keys_iff, hnames, has_eq_isSome, Option.isSome_iff_exists, get?]
  have hperm : t.renderers.keys.Perm t.names :=
    (List.perm_ext_iff_of_nodup t.renderers.nodup_keys hnodup).mpr hmem
  have hlength := hperm.length_eq
  rwa [KeyMap.keys, List.length_map] at hlength

/-- A table shows the events whose outcome is the registry that it keeps. -/
theorem Keeps.shows (h : t.Keeps r) {events : List RegistryEvent}
    (hlists : Keyed.Lists Prod.fst (events.map RegistryEvent.change) r.entries) :
    t.Shows events := by
  have hnodup : t.names.Nodup := by
    rw [h.names_eq]
    exact hlists.nodup
  have hnames (name : String) : name ∈ t.names ↔ t.has name = true := by
    rw [h.names_eq, h.has_eq, Registry.has_iff_mem_names]
  refine ⟨hnodup, hnames, fun name => ?_, rfl, size_renderers_of_names hnodup hnames, ?_,
    fun name => ?_, t.unregister_fst⟩
  · rw [has_eq_isSome, Option.isSome_iff_exists]
  · rw [h.names_eq]
    exact hlists.ordered
  · rw [h.get?_eq, Registry.get?, hlists.get?_eq, RegistryEvent.registeredSince,
      List.getLast?_map]

/-- **A registry keeps its renderers in the order of their registration.** Whatever is registered
and unregistered, beginning without renderers or with the built-in ones: every name is listed once,
and the names that are listed are those for which there is a renderer. It is the one that was last
registered under the name, and the names are in the order in which they were first registered since
they were last unregistered, so that a renderer put in the place of another one does not move.
Unregistering answers whether the name was there. A call about one name leaves the renderers of the
others and their order. The two collections of the table cannot be told from the one list of a
registry, by their names and renderers or by their size. -/
theorem insertion_ordered (withBuiltins : Bool) (calls : List Registration) :
    let begun := performAll perform empty (Registration.starting withBuiltins)
    let table := performAll perform (start withBuiltins) calls
    let registry := performAll Registry.perform (Registry.start withBuiltins) calls
    begun.2 = start withBuiltins ∧
      table.1 = registry.1 ∧ table.2.Keeps registry.2 ∧
      table.2.size = registry.2.size ∧ table.2.isEmpty = registry.2.isEmpty ∧
      table.2.Shows (begun.1 ++ table.1) ∧
      ∀ call : Registration,
        (∀ other, other ≠ call.name → (table.2.perform call).2.get? other = table.2.get? other) ∧
        ((table.2.perform call).2.names.filter fun n => n != call.name) =
          table.2.names.filter fun n => n != call.name := by
  intro begun table registry
  obtain ⟨hstart, hstart'⟩ := start_eq withBuiltins
  obtain ⟨hbegun, hkeeps₀⟩ := Keeps.empty.performAll (Registration.starting withBuiltins)
  rw [hstart, hstart'] at hkeeps₀
  obtain ⟨hevents, hkeeps⟩ := hkeeps₀.performAll calls
  have hlists₀ :=
    Registry.lists_performAll Registry.lists_empty (Registration.starting withBuiltins)
  rw [hstart', List.nil_append] at hlists₀
  have hlists := Registry.lists_performAll hlists₀ calls
  rw [← hbegun, ← hevents, ← List.map_append] at hlists
  exact ⟨hstart, hevents, hkeeps, hkeeps.size_eq, hkeeps.isEmpty_eq, hkeeps.shows hlists,
    table.2.perform_frame⟩

/-- Two names are registered, and the first of them once more. -/
def cardCalls : List Registration :=
  [.register "Card" Renderer.text, .register "Badge" Renderer.button,
    .register "Card" Renderer.image]

/-- The first of two names is unregistered and registered again. -/
def movedCardCalls : List Registration :=
  cardCalls ++ [.unregister "Card", .register "Card" Renderer.text]

theorem insertion_ordered_cards :
    let table := (performAll perform (start false) cardCalls).2
    let moved := (performAll perform (start false) movedCardCalls).2
    table.names = ["Card", "Badge"] ∧ table.get? "Card" = some Renderer.image ∧
      (table.unregister "Card").1 = true ∧
      "Badge" ≠ (Registration.unregister "Card").name ∧
      (table.perform (.unregister "Card")).2.get? "Badge" = some Renderer.button ∧
      moved.names = ["Badge", "Card"] ∧ moved.get? "Card" = some Renderer.text := by
  intro table moved
  obtain ⟨-, -, hkeeps, -, -, hshows, hframe⟩ := insertion_ordered false cardCalls
  obtain ⟨-, -, hkeeps', -⟩ := insertion_ordered false movedCardCalls
  have hcard : table.get? "Card" = some Renderer.image := hkeeps.get?_eq "Card"
  have hbadge : "Badge" ≠ (Registration.unregister "Card").name := by decide
  refine ⟨hkeeps.names_eq, hcard, ?_, hbadge, ?_, hkeeps'.names_eq, hkeeps'.get?_eq "Card"⟩
  · rw [hshows.unregister_fst, hshows.has_iff]
    exact ⟨_, hcard⟩
  · rw [(hframe (.unregister "Card")).1 "Badge" hbadge]
    exact hkeeps.get?_eq "Badge"

end RendererTable

end LivePage
