import LivePage.DataSource.Catalog

/-!
# Loading data sources

A source is loaded outside of rendering: from the value that stands in for its response, if it has
one, or else over a network. What a network answers is a parameter here.
-/

namespace LivePage

/-- What a network answers to the request of a source: the response, or why there is none. -/
abbrev Network := DataSource → Except String Json

/-- A network that cannot be reached. -/
def Network.offline : Network := fun d => .error ("no network to reach " ++ d.options.url)

namespace DataSource

/-- Loads a source: its stand-in, if it has one, else the answer to its request, for which it needs
an address. -/
def fetch (network : Network) (d : DataSource) : Resolution :=
  match d.options.param? "mock" with
  | some v => .value v
  | none =>
    if d.options.url.isEmpty then .error ("data source `" ++ d.id ++ "` has no url")
    else
      match network d with
      | .ok v => .value v
      | .error message => .error message

end DataSource

namespace Catalog

/-- Loads sources one after another; returns how many failed, and the store with their results. -/
def refreshEach (network : Network) :
    List (Scope × DataSource) → ResultStore → Nat × ResultStore
  | [], store => (0, store)
  | (scope, d) :: sources, store =>
    let r := d.fetch network
    let (failed, store) := refreshEach network sources (store.apply scope d.id r)
    match r with
    | .error _ => (failed + 1, store)
    | _ => (failed, store)

/-- Loads the sources in force on a page. -/
def refresh (network : Network) (c : Catalog) (page : String) (store : ResultStore) :
    Nat × ResultStore :=
  refreshEach network (c.scopedSources page) store

end Catalog

end LivePage
