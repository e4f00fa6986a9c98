import CoinLedger.Json.Token

/-!
Documents from tokens. The reader keeps the open arrays and objects on a stack, so that nesting
may be of any depth; limits on it belong to whoever asks for a value.
-/

namespace CoinLedger.Json

/-- An open array or object around the value being read, with what came before it in reverse. -/
inductive Frame where
  | item (rev : List Json)
  | member (rev : List (List UInt8 × Json)) (key : List UInt8)

/-- What may come next, and the frames around it. -/
inductive Reading where
  /-- A value. -/
  | value (above : List Frame)
  /-- The first value of an array, or its end. -/
  | itemOrEnd (above : List Frame)
  /-- The first key of an object, or its end. -/
  | keyOrEnd (above : List Frame)
  /-- A key, after a comma. -/
  | key (above : List Frame) (rev : List (List UInt8 × Json))
  /-- The colon after a key. -/
  | colon (above : List Frame) (rev : List (List UInt8 × Json)) (key : List UInt8)
  /-- What follows a finished value. -/
  | after (value : Json) (above : List Frame)

namespace Reading

/-- The first token of a value. -/
def begin (above : List Frame) : Token → Option Reading
  | .atom v => some (.after v above)
  | .string raw => some (.after (.string raw) above)
  | .beginArray => some (.itemOrEnd above)
  | .beginObject => some (.keyOrEnd above)
  | _ => none

def step : Reading → Token → Option Reading
  | .value above, t => begin above t
  | .itemOrEnd above, .endArray => some (.after (.array []) above)
  | .itemOrEnd above, t => begin (.item [] :: above) t
  | .keyOrEnd above, .endObject => some (.after (.object []) above)
  | .keyOrEnd above, .string k => some (.colon above [] k)
  | .key above rev, .string k => some (.colon above rev k)
  | .colon above rev k, .colon => some (.value (.member rev k :: above))
  | .after v (.item rev :: above), .comma => some (.value (.item (v :: rev) :: above))
  | .after v (.item rev :: above), .endArray => some (.after (.array (v :: rev).reverse) above)
  | .after v (.member rev k :: above), .comma => some (.key above ((k, v) :: rev))
  | .after v (.member rev k :: above), .endObject =>
    some (.after (.object ((k, v) :: rev).reverse) above)
  | _, _ => none

def finish : Reading → Option Json
  | .after v [] => some v
  | _ => none

end Reading

def ofTokens? (tokens : List Token) : Option Json :=
  (tokens.foldlM Reading.step (.value [])).bind Reading.finish

def read? (bytes : List UInt8) : Option Json := (tokens? bytes).bind ofTokens?

end CoinLedger.Json
