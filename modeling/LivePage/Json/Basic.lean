import LivePage.Collection.KeyMap
import LivePage.Number.Binary64

/-!
# JSON values

Two trees. `RawJson` is a document as it was written: the fields of an object stand in their order
and may repeat a key. `Json` is the value that it denotes: fields in ascending key order, each key
once, of a repeated key the last.

* `RawJson.value?`: the value of a document.
* `Json.raw`: a value as a document.
* `Json.equals`: equality of values; doubles are compared as numbers, and an integer never equals
  a double.
* `RawJson.same`: whether documents are written alike, which makes their equality decidable.
-/

namespace LivePage

/-- A number: an integer, or a double. `1` and `1.0` are different numbers. -/
inductive Number
  | int (value : Int)
  | double (value : Binary64)
deriving DecidableEq

namespace Number

/-- The nearest double. -/
def toBinary64 : Number → Binary64
  | .int i => Binary64.ofInt i
  | .double x => x

/-- Equality of numbers of one kind. -/
def equals : Number → Number → Bool
  | .int i, .int j => i == j
  | .double x, .double y => x.equals y
  | _, _ => false

end Number

/-- A JSON document as it was written. -/
inductive RawJson
  | null
  | bool (value : Bool)
  | num (value : Number)
  | str (value : String)
  | arr (items : List RawJson)
  | obj (fields : List (String × RawJson))
  /-- Well-formed text without a value: a number beyond the doubles, half of a surrogate pair, or
  nesting past the limit. It matters only where its value is asked for. -/
  | valueless
deriving Inhabited

/-- A JSON value. In those that documents denote, the fields of objects are in ascending key order
(`Json.Canonical`). -/
inductive Json
  | null
  | bool (value : Bool)
  | num (value : Number)
  | str (value : String)
  | arr (items : List Json)
  | obj (fields : List (String × Json))
deriving Inhabited

namespace Json

/-- The value under a key of an object. -/
def field? (key : String) : Json → Option Json
  | .obj fields => KeyMap.lookup key fields
  | _ => none

/-- The object of some fields. -/
def ofMap (fields : KeyMap Json) : Json := .obj fields.entries

/-! ## Equality -/

mutual

/-- Equality of values. -/
def equals : Json → Json → Bool
  | .null, .null => true
  | .bool a, .bool b => a == b
  | .num a, .num b => a.equals b
  | .str a, .str b => a == b
  | .arr xs, .arr ys => equalsItems xs ys
  | .obj fs, .obj gs => equalsFields fs gs
  | _, _ => false

/-- Equality of arrays, item by item. -/
def equalsItems : List Json → List Json → Bool
  | [], [] => true
  | x :: xs, y :: ys => x.equals y && equalsItems xs ys
  | _, _ => false

/-- Equality of objects, field by field. -/
def equalsFields : List (String × Json) → List (String × Json) → Bool
  | [], [] => true
  | (k, x) :: fs, (l, y) :: gs => k == l && x.equals y && equalsFields fs gs
  | _, _ => false

end

instance : BEq Json := ⟨equals⟩

end Json

/-! ## Documents that are written alike -/

namespace RawJson

mutual

/-- Whether two documents are written alike. -/
def same : RawJson → RawJson → Bool
  | .null, .null => true
  | .bool a, .bool b => a == b
  | .num a, .num b => decide (a = b)
  | .str a, .str b => a == b
  | .arr xs, .arr ys => sameItems xs ys
  | .obj fs, .obj gs => sameFields fs gs
  | .valueless, .valueless => true
  | _, _ => false

/-- Whether the items of two arrays are written alike. -/
def sameItems : List RawJson → List RawJson → Bool
  | [], [] => true
  | x :: xs, y :: ys => x.same y && sameItems xs ys
  | _, _ => false

/-- Whether the fields of two objects are written alike. -/
def sameFields : List (String × RawJson) → List (String × RawJson) → Bool
  | [], [] => true
  | (k, x) :: fs, (l, y) :: gs => k == l && x.same y && sameFields fs gs
  | _, _ => false

end

mutual

theorem same_iff : ∀ a b : RawJson, a.same b = true ↔ a = b
  | .null, b => by cases b <;> simp [same]
  | .bool x, b => by cases b <;> simp [same]
  | .num x, b => by cases b <;> simp [same]
  | .str x, b => by cases b <;> simp [same]
  | .arr xs, b => by cases b <;> simp [same, sameItems_iff xs]
  | .obj fs, b => by cases b <;> simp [same, sameFields_iff fs]
  | .valueless, b => by cases b <;> simp [same]

theorem sameItems_iff : ∀ xs ys : List RawJson, sameItems xs ys = true ↔ xs = ys
  | [], ys => by cases ys <;> simp [sameItems]
  | x :: xs, ys => by cases ys <;> simp [sameItems, same_iff x, sameItems_iff xs]

theorem sameFields_iff : ∀ fs gs : List (String × RawJson), sameFields fs gs = true ↔ fs = gs
  | [], gs => by cases gs <;> simp [sameFields]
  | (k, x) :: fs, gs => by
    cases gs <;> simp [sameFields, same_iff x, sameFields_iff fs, Prod.ext_iff]

end

instance : DecidableEq RawJson := fun a b => decidable_of_iff _ (same_iff a b)

end RawJson

/-! ## Documents and values -/

mutual

/-- A value as a document. -/
def Json.raw : Json → RawJson
  | .null => .null
  | .bool b => .bool b
  | .num n => .num n
  | .str s => .str s
  | .arr items => .arr (Json.rawItems items)
  | .obj fields => .obj (Json.rawFields fields)

/-- Values as documents. -/
def Json.rawItems : List Json → List RawJson
  | [] => []
  | x :: xs => x.raw :: Json.rawItems xs

/-- Fields as fields of a document. -/
def Json.rawFields : List (String × Json) → List (String × RawJson)
  | [] => []
  | (k, x) :: fs => (k, x.raw) :: Json.rawFields fs

end

mutual

/-- The value that a document denotes. -/
def RawJson.value? : RawJson → Option Json
  | .null => some .null
  | .bool b => some (.bool b)
  | .num n => some (.num n)
  | .str s => some (.str s)
  | .arr items => (RawJson.itemValues? items).map .arr
  | .obj fields =>
    (RawJson.fieldValues? fields).map fun fs => Json.ofMap (KeyMap.ofList fs)
  | .valueless => none

/-- The values of the items of an array. -/
def RawJson.itemValues? : List RawJson → Option (List Json)
  | [] => some []
  | x :: xs =>
    match x.value?, RawJson.itemValues? xs with
    | some v, some vs => some (v :: vs)
    | _, _ => none

/-- The fields of an object with their values, in the order written. -/
def RawJson.fieldValues? : List (String × RawJson) → Option (List (String × Json))
  | [] => some []
  | (k, x) :: fs =>
    match x.value?, RawJson.fieldValues? fs with
    | some v, some vs => some ((k, v) :: vs)
    | _, _ => none

end

end LivePage
