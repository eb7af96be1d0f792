/-
  PathControl/Json/Reader.lean
  ============================
  **Reading a JSON text.**

  The tokens of a text are taken from the left. What has been read is a stack of
  unfinished arrays and objects, and the state of the reader says what may come
  next. A text is read if exactly one value has been finished when the tokens end.
-/
import PathControl.Json.Token

namespace PathControl.Json

/-- An array or object that is not finished; what it holds so far stands latest first. -/
inductive Frame where
  | items (before : List Json)
  | members (before : List (String × Json)) (name : String)

/-- What may come next within the unfinished arrays and objects, innermost first. -/
inductive ReaderState where
  | value (within : List Frame)
  /-- The first item of an array, or its end. -/
  | firstItem (within : List Frame)
  /-- The first name of an object, or its end. -/
  | firstName (within : List Frame)
  /-- A further name of an object. -/
  | name (within : List Frame) (before : List (String × Json))
  /-- The colon after a name. -/
  | colon (within : List Frame) (before : List (String × Json)) (name : String)
  /-- What may follow a finished value. -/
  | finished (within : List Frame) (value : Json)

namespace ReaderState

/-- Take a token where a value must come. -/
def takeValue (within : List Frame) : Token → Option ReaderState
  | .openArray => some (firstItem within)
  | .openObject => some (firstName within)
  | .null => some (finished within .null)
  | .bool b => some (finished within (.bool b))
  | .number n => some (finished within (.number n))
  | .string s => some (finished within (.string s))
  | .closeArray | .closeObject | .colon | .comma => none

/-- Take a token after a finished value. -/
def takeAfter (v : Json) : List Frame → Token → Option ReaderState
  | .items before :: within, .comma => some (value (.items (v :: before) :: within))
  | .items before :: within, .closeArray => some (finished within (.array (v :: before).reverse))
  | .members before k :: within, .comma => some (name within ((k, v) :: before))
  | .members before k :: within, .closeObject =>
    some (finished within (.object ((k, v) :: before).reverse))
  | _, _ => none

/-- Take one token; `none` if it may not come here. -/
def take : ReaderState → Token → Option ReaderState
  | value within, t => takeValue within t
  | firstItem within, .closeArray => some (finished within (.array []))
  | firstItem within, t => takeValue (.items [] :: within) t
  | firstName within, .closeObject => some (finished within (.object []))
  | firstName within, .string k => some (colon within [] k)
  | firstName _, _ => none
  | name within before, .string k => some (colon within before k)
  | name _ _, _ => none
  | colon within before k, .colon => some (value (.members before k :: within))
  | colon _ _ _, _ => none
  | finished within v, t => takeAfter v within t

/-- The value that has been read, if nothing is unfinished. -/
def result? : ReaderState → Option Json
  | finished [] v => some v
  | _ => none

end ReaderState

/-- The value that a text stands for; `none` if it is not a JSON text. -/
def parse? (text : String) : Option Json := do
  let tokens ← tokens? text.toList
  (← tokens.foldlM ReaderState.take (.value [])).result?

end PathControl.Json
