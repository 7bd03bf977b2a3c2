import KnowledgeAlakazam.Core.PyText
import Mathlib.Data.Int.Notation

/-!
# Python values

Trees of Python's built-in values, as they come out of a JSON document or out of the answer of a
library: `PyValue`. A mapping is a list of items, in insertion order. A number that is not an
integer is known by its `repr`, which is also what `str` makes of it. An integer is written with all
its digits: the interpreter refuses more than 4300 of them, which no integer of a JSON document has.
-/

namespace KnowledgeAlakazam

/-- An exception: its class and its text. -/
structure PyException where
  className : String
  text : String
deriving DecidableEq

theorem exists_of_bind_eq_ok {ε α β : Type} {x : Except ε α} {f : α → Except ε β} {b : β}
    (h : (x >>= f) = .ok b) : ∃ a, x = .ok a ∧ f a = .ok b := by
  cases x with
  | error e => cases h
  | ok a => exact ⟨a, rfl, h⟩

/-- A `float`. -/
inductive PyFloat where
  | finite (repr : String)
  | nan
  | infinity (negative : Bool)
deriving DecidableEq

/-- `repr` of a `float`. -/
def PyFloat.repr : PyFloat → String
  | finite text => text
  | nan => "nan"
  | infinity negative => if negative then "-inf" else "inf"

/-- A value. Any object that is none of the built-in values is known by its `str` and `repr`. -/
inductive PyValue where
  | none
  | bool (b : Bool)
  | int (i : ℤ)
  | float (x : PyFloat)
  | str (text : String)
  | list (items : List PyValue)
  | tuple (items : List PyValue)
  | dict (items : List (PyValue × PyValue))
  | object (text repr : String)

namespace PyValue

def isKey (key : String) : PyValue → Bool
  | str text => text == key
  | _ => false

/-- `mapping.get(key)`, for a string key; `none` if there is no such key. -/
def lookup (items : List (PyValue × PyValue)) (key : String) : Option PyValue :=
  (items.find? fun item ↦ item.1.isKey key).map Prod.snd

/-- `repr` of a string. -/
def reprText (unicode : UnicodeData) (text : String) : String :=
  String.ofList (unicode.repr text.toList)

mutual

/-- `repr`. -/
def repr (unicode : UnicodeData) : PyValue → String
  | none => "None"
  | bool b => if b then "True" else "False"
  | int i => toString i
  | float x => x.repr
  | str text => reprText unicode text
  | list items => "[" ++ ", ".intercalate (reprItems unicode items) ++ "]"
  | tuple [item] => "(" ++ repr unicode item ++ ",)"
  | tuple items => "(" ++ ", ".intercalate (reprItems unicode items) ++ ")"
  | dict items => "\x7b" ++ ", ".intercalate (reprEntries unicode items) ++ "\x7d"
  | object _ text => text

/-- `repr` of the items of a sequence. -/
def reprItems (unicode : UnicodeData) : List PyValue → List String
  | [] => []
  | item :: items => repr unicode item :: reprItems unicode items

/-- `repr` of the items of a mapping. -/
def reprEntries (unicode : UnicodeData) : List (PyValue × PyValue) → List String
  | [] => []
  | (key, value) :: items =>
    (repr unicode key ++ ": " ++ repr unicode value) :: reprEntries unicode items

end

/-- `str`. -/
def toText (unicode : UnicodeData) : PyValue → String
  | str text => text
  | object text _ => text
  | value => repr unicode value

end PyValue

end KnowledgeAlakazam
