import LivePage.Json.Record

/-!
# Data sources

What a page reads its data from: a request with a method, an address and further parameters, under
an id by which expressions refer to its result.

* `displayName`, `bindingPaths`: how an editor shows a source and the paths into its result.
* `raw`, `ofRaw?`: a source in JSON. The further parameters of a request stand beside its method and
  address, so a request is always an object.
-/

namespace LivePage

/-- The method of a request. -/
inductive HttpMethod
  | get | post | put | delete
deriving DecidableEq, BEq

namespace HttpMethod

/-- The name of a method. -/
def name : HttpMethod → String
  | .get => "GET"
  | .post => "POST"
  | .put => "PUT"
  | .delete => "DELETE"

/-- Whether requests of a method have a body. -/
def hasBody : HttpMethod → Bool
  | .post => true
  | .put => true
  | _ => false

/-- Reads a method. -/
def ofRaw? : RawJson → Option HttpMethod :=
  RawJson.choice? [("GET", .get), ("POST", .post), ("PUT", .put), ("DELETE", .delete)]

end HttpMethod

/-- A request: method, address, and whatever else is said about it. -/
structure RequestOptions where
  method : HttpMethod
  url : String
  params : KeyMap Json
deriving BEq

namespace RequestOptions

/-- A request that says nothing. -/
def empty : RequestOptions := ⟨.get, "", KeyMap.empty⟩

/-- A plain request for an address. -/
def get (url : String) : RequestOptions := ⟨.get, url, KeyMap.empty⟩

/-- A further parameter. -/
def param? (o : RequestOptions) (name : String) : Option Json := o.params.get? name

/-- A request as an object. -/
def raw (o : RequestOptions) : RawJson :=
  .obj ([("method", .str o.method.name), ("url", .str o.url)] ++
    o.params.entries.map fun e => (e.1, e.2.raw))

/-- The names of the fields that are not further parameters. -/
def fieldNames : List String := ["method", "url"]

/-- Reads a request. -/
def ofRaw? : RawJson → Option RequestOptions
  | .obj fields => do
    let r ← Record.ofFields? fieldNames fields
    let method ← r.optional "method" .get HttpMethod.ofRaw?
    let url ← r.optional "url" "" RawJson.string?
    let others := fields.filter fun f => !fieldNames.contains f.1
    let params ← RawJson.map? RawJson.value? (.obj others)
    return ⟨method, url, params⟩
  | _ => none

end RequestOptions

/-- A field that the response is expected to have; it serves as a hint. -/
structure ResponseField where
  name : String
  type : String
deriving DecidableEq, BEq

namespace ResponseField

/-- A response field as an object. -/
def raw (f : ResponseField) : RawJson := .obj [("name", .str f.name), ("type", .str f.type)]

/-- Reads a response field. -/
def ofRaw? (j : RawJson) : Option ResponseField := do
  let r ← Record.ofRaw? ["name", "type"] j
  let name ← r.required "name" RawJson.string?
  let type ← r.optional "type" "" RawJson.string?
  return ⟨name, type⟩

end ResponseField

/-- A data source. -/
structure DataSource where
  id : String
  label : Option String
  options : RequestOptions
  responseFields : List ResponseField
deriving BEq

namespace DataSource

/-- A source without label and response fields. -/
def new (id : String) (options : RequestOptions) : DataSource := ⟨id, none, options, []⟩

/-- A source with a label. -/
def withLabel (d : DataSource) (label : String) : DataSource := { d with label := some label }

/-- A source with one more response field. -/
def withField (d : DataSource) (name type : String) : DataSource :=
  { d with responseFields := d.responseFields ++ [⟨name, type⟩] }

/-- The label, or else the id. -/
def displayName (d : DataSource) : String := d.label.getD d.id

/-- The paths by which expressions reach the response fields. -/
def bindingPaths (d : DataSource) : List String :=
  d.responseFields.map fun f => d.id ++ "." ++ f.name

/-- A source as an object; the label is left out if there is none. -/
def raw (d : DataSource) : RawJson :=
  let label := match d.label with
    | some l => [("label", RawJson.str l)]
    | none => []
  .obj ([("id", .str d.id)] ++ label ++
    [("options", d.options.raw), ("responseFields", .arr (d.responseFields.map ResponseField.raw))])

/-- Reads a source. -/
def ofRaw? (j : RawJson) : Option DataSource := do
  let r ← Record.ofRaw? ["id", "label", "options", "responseFields"] j
  let id ← r.required "id" RawJson.string?
  let label ← r.nullable "label" RawJson.string?
  let options ← r.optional "options" RequestOptions.empty RequestOptions.ofRaw?
  let responseFields ← r.optional "responseFields" [] (RawJson.list? ResponseField.ofRaw?)
  return ⟨id, label, options, responseFields⟩

end DataSource

end LivePage
