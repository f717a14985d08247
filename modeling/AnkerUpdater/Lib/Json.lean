import AnkerUpdater.Lib.CText

/-!
# JSON values as a C library hands them out

A number is known by its whole part.  Members of an object are looked up by
name, the first of a name counts, and nothing else has members.
-/

namespace CText

inductive Json where
  | null
  | bool (b : Bool)
  | number (whole : ℤ)
  | string (valuestring : CString)
  | array (items : List Json)
  | object (members : List (String × Json))

namespace Json

/-- `cJSON_GetObjectItemCaseSensitive` -/
def getObjectItem : Json → String → Option Json
  | object members, name => (members.find? fun m ↦ m.1 == name).map Prod.snd
  | _, _ => none

def isObject : Json → Bool
  | object _ => true
  | _ => false

def valuestring : Json → Option CString
  | string s => some s
  | _ => none

def items : Json → Option (List Json)
  | array items => some items
  | _ => none

/-- The member `valueint`, an `int` of 32 bits: numbers beyond its range are
cut to it, `true` has 1, and everything else 0. -/
def valueint : Json → ℤ
  | number whole => max (-2 ^ 31) (min whole (2 ^ 31 - 1))
  | bool b => if b then 1 else 0
  | _ => 0

theorem valueint_lt (json : Json) : json.valueint < 2 ^ 31 := by
  cases json with
  | number whole =>
      simp only [valueint]
      omega
  | bool b => cases b <;> simp [valueint]
  | _ => simp [valueint]

/-- The object at the end of a path of objects. -/
def objectAt (json : Json) : List String → Option Json
  | [] => some json
  | name :: path => (json.getObjectItem name).bind fun item ↦
      if item.isObject then item.objectAt path else none

/-- The string that is a member of the object at the end of a path. -/
def stringAt (json : Json) (path : List String) (name : String) : Option CString :=
  ((json.objectAt path).bind fun item ↦ item.getObjectItem name).bind valuestring

/-- An object for each name of the path, around one value. -/
def nest (json : Json) : List String → Json
  | [] => json
  | name :: path => object [(name, nest json path)]

theorem isObject_nest {json : Json} (h : json.isObject) (path : List String) :
    (json.nest path).isObject := by
  cases path with
  | nil => exact h
  | cons name path => rfl

theorem objectAt_nest {json : Json} (h : json.isObject) (path : List String) :
    (json.nest path).objectAt path = some json := by
  induction path with
  | nil => rfl
  | cons name path ih => simp [nest, objectAt, getObjectItem, isObject_nest h, ih]

/-- Every string stands at every path of some value. -/
theorem stringAt_nest (s : CString) (path : List String) (name : String) :
    ((object [(name, .string s)]).nest path).stringAt path name = some s := by
  have hobject : (object [(name, .string s)]).isObject = true := rfl
  simp [stringAt, objectAt_nest hobject, getObjectItem, valuestring]

end Json

end CText
