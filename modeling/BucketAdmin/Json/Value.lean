import BucketAdmin.Json.Literal

/-!
# JSON values, as far as they can be read

`parse` reads a byte sequence into one value. Where the text stops being JSON the value keeps
everything before that place: containers that were open end in a mark, and a value that cannot be
read is `broken`. A reader that walks the value in document order therefore meets the first fault of
the text, whether it is a fault of the text or of what the text says.

Containers still open are kept on a stack, so values nest without limit.
-/

namespace BucketAdmin.Json

/-- What kind of value stands somewhere, as far as messages tell. -/
inductive Shape where
  | null
  | bool (b : Bool)
  | number (n : Number)
  | string (s : String)
  | sequence
  | map
  deriving DecidableEq, Repr

/-- A value, as far as it can be read. -/
inductive Value where
  | null
  | bool (b : Bool)
  /-- A number, as written. -/
  | number (raw : Bytes)
  /-- A string, as written between its quotes. -/
  | string (raw : Bytes)
  /-- A list, and whether it was closed. -/
  | array (items : List Value) (closed : Bool)
  /-- A map with its members in order, keys as written, and whether it was closed. -/
  | object (members : List (Bytes × Value)) (closed : Bool)
  /-- No value can be read here. -/
  | broken

namespace Value

/-- The shape of a value, `none` when it cannot be read. What a container holds does not matter. -/
def shape? : Value → Option Shape
  | .null => some .null
  | .bool b => some (.bool b)
  | .number raw => (Number.read? raw).map .number
  | .string raw => (unquote? raw).map .string
  | .array .. => some .sequence
  | .object .. => some .map
  | .broken => none

/-- A container that waits for a value. -/
inductive Frame where
  /-- A list with its items so far, latest first. -/
  | list (items : List Value)
  /-- A map with its members so far, latest first, and the key of the next. -/
  | map (members : List (Bytes × Value)) (key : Bytes)

/-- The container that ends in a fault right after the value it waited for. -/
def Frame.cut (v : Value) : Frame → Value
  | .list items => .array (v :: items).reverse false
  | .map members key => .object ((key, v) :: members).reverse false

/-- What the reader waits for. -/
inductive Reading where
  /-- A value is due. -/
  | value (stack : List Frame)
  /-- A list was opened. -/
  | firstItem (stack : List Frame)
  /-- An item was read. -/
  | items (items : List Value) (stack : List Frame)
  /-- A map was opened. -/
  | firstKey (stack : List Frame)
  /-- A comma was read after a member. -/
  | key (members : List (Bytes × Value)) (stack : List Frame)
  /-- A key was read. -/
  | colon (members : List (Bytes × Value)) (key : Bytes) (stack : List Frame)
  /-- A member was read. -/
  | members (members : List (Bytes × Value)) (stack : List Frame)
  /-- The value is complete, or cut off; `clean` when nothing but space follows it. -/
  | complete (v : Value) (clean : Bool)

namespace Reading

/-- The value when the text breaks off here. -/
def cutOff : Reading → Value
  | .value stack => stack.foldl Frame.cut .broken
  | .firstItem stack => stack.foldl Frame.cut (.array [] false)
  | .items xs stack => stack.foldl Frame.cut (.array xs.reverse false)
  | .firstKey stack => stack.foldl Frame.cut (.object [] false)
  | .key ms stack => stack.foldl Frame.cut (.object ms.reverse false)
  | .colon ms k stack => (Frame.map ms k :: stack).foldl Frame.cut .broken
  | .members ms stack => stack.foldl Frame.cut (.object ms.reverse false)
  | .complete v _ => v

/-- A value was read in full. -/
def settle (v : Value) : List Frame → Reading
  | [] => .complete v true
  | .list xs :: stack => .items (v :: xs) stack
  | .map ms k :: stack => .members ((k, v) :: ms) stack

/-- Read the first token of a value; `none` when it begins no value. -/
def beginValue? (stack : List Frame) : Token → Option Reading
  | .null => some (settle .null stack)
  | .bool b => some (settle (.bool b) stack)
  | .number raw => some (settle (.number raw) stack)
  | .string raw => some (settle (.string raw) stack)
  | .openList => some (.firstItem stack)
  | .openMap => some (.firstKey stack)
  | .closeList | .closeMap | .comma | .colon | .stray => none

/-- Read one token. A token out of place breaks the text off. -/
def push (r : Reading) (t : Token) : Reading :=
  match r, t with
  | .firstItem stack, .closeList => settle (.array [] true) stack
  | .items xs stack, .comma => .value (.list xs :: stack)
  | .items xs stack, .closeList => settle (.array xs.reverse true) stack
  | .firstKey stack, .closeMap => settle (.object [] true) stack
  | .firstKey stack, .string k => .colon [] k stack
  | .key ms stack, .string k => .colon ms k stack
  | .colon ms k stack, .colon => .value (.map ms k :: stack)
  | .members ms stack, .comma => .key ms stack
  | .members ms stack, .closeMap => settle (.object ms.reverse true) stack
  | .value stack, t => (beginValue? stack t).getD (.complete r.cutOff false)
  | .firstItem stack, t => (beginValue? (.list [] :: stack) t).getD (.complete r.cutOff false)
  | r, _ => .complete r.cutOff false

/-- The value once all tokens are read, and whether it was complete with nothing after it. -/
def finish : Reading → Value × Bool
  | .complete v clean => (v, clean)
  | r => (r.cutOff, false)

end Reading

end Value

/-- Read one value; `true` when the whole text is that value. -/
def parse (bs : Bytes) : Value × Bool :=
  ((tokens bs).foldl Value.Reading.push (.value [])).finish

end BucketAdmin.Json
