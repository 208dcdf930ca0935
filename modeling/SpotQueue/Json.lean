import Mathlib.Data.Rat.Init

namespace SpotQueue

/-- A parsed body. `undefined` is the absence of one. -/
inductive Json
  | null
  | bool (value : Bool)
  | number (value : Rat)
  | string (value : String)
  | array (items : List Json)
  | object (fields : List (String × Json))

namespace Json

/-- `value?.name` -/
def property (value : Json) (name : String) : Option Json :=
  match value with
  | .object fields => (fields.find? (·.1 = name)).map (·.2)
  | _ => none

def truthy : Json → Bool
  | .null => false
  | .bool value => value
  | .number value => value ≠ 0
  | .string value => value ≠ ""
  | .array _ | .object _ => true

/-- `value === true` -/
def isTrue : Option Json → Bool
  | some (.bool value) => value
  | _ => false

variable (printNumber : Rat → String)

mutual

/-- `ToString`; `none` where it throws. A field of the object's own under `toString` is no
function and hides the inherited one, and the inherited `valueOf` returns the object. -/
def text : Json → Option String
  | .null => some "null"
  | .bool value => some (if value then "true" else "false")
  | .number value => some (printNumber value)
  | .string value => some value
  | .array items => (elementTexts items).map (",".intercalate)
  | .object fields => if fields.any (·.1 = "toString") then none else some "[object Object]"

/-- The elements as `join` takes them. -/
def elementTexts : List Json → Option (List String)
  | [] => some []
  | .null :: items => (elementTexts items).map ("" :: ·)
  | item :: items => (text item).bind fun first => (elementTexts items).map (first :: ·)

end

mutual

/-- An object with a field `toString` stands somewhere in the arrays of the value. -/
def unprintable : Json → Bool
  | .array items => anyUnprintable items
  | .object fields => fields.any (·.1 = "toString")
  | _ => false

def anyUnprintable : List Json → Bool
  | [] => false
  | item :: items => unprintable item || anyUnprintable items

end

mutual

theorem text_none : ∀ value : Json, value.text printNumber = none ↔ value.unprintable = true
  | .null | .bool _ | .number _ | .string _ => by simp [text, unprintable]
  | .object fields => by simp [text, unprintable]
  | .array items => by
    rw [text, unprintable, Option.map_eq_none_iff]
    exact elementTexts_none items

theorem elementTexts_none :
    ∀ items : List Json, elementTexts printNumber items = none ↔ anyUnprintable items = true
  | [] => by simp [elementTexts, anyUnprintable]
  | item :: items => by
    have hitem := text_none item
    have hitems := elementTexts_none items
    have hbind : ∀ o : Option String, ((o.bind fun first =>
        (elementTexts printNumber items).map (first :: ·)) = none) ↔
          o = none ∨ elementTexts printNumber items = none := fun o => by cases o <;> simp
    rw [anyUnprintable, Bool.or_eq_true, ← hitem, ← hitems]
    cases item with
    | null => simp [elementTexts, text]
    | _ =>
      rw [elementTexts]
      · exact hbind _
      · exact nofun

end

theorem truthy_of_unprintable {value : Json} (h : value.unprintable = true) : value.truthy = true := by
  cases value with
  | array | object => rfl
  | _ => exact absurd h Bool.false_ne_true

end Json

end SpotQueue
