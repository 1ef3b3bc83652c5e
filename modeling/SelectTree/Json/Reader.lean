import SelectTree.Json.Token

/-!
# Reading JSON text

A value is read from its tokens one token at a time, with the arrays and objects that are still open
on a stack. The reader is strict, gives each key of an object once (a repeated key keeps its last
value), and can be told how many arrays and objects may be open at once.
-/

namespace SelectTree.Json

/-- An array or object that is still open. -/
inductive Frame where
  /-- An array, with the elements before the one being read, last one first. -/
  | array (items : List Json)
  /-- An object, with the fields before the one being read, and the key of that one. -/
  | object (fields : Fields) (key : String)

/-- What the reader waits for, with the arrays and objects around it. -/
inductive Reader where
  /-- A value. -/
  | needValue (frames : List Frame)
  /-- The first element of an array, or its end. -/
  | needItemOrEnd (frames : List Frame)
  /-- A separator, or the end of the array that has the elements `items`, last one first. -/
  | afterItem (items : List Json) (frames : List Frame)
  /-- The first key of an object, or its end. -/
  | needKeyOrEnd (frames : List Frame)
  /-- A key. -/
  | needKey (fields : Fields) (frames : List Frame)
  /-- The separator between a key and its value. -/
  | needColon (fields : Fields) (key : String) (frames : List Frame)
  /-- A separator, or the end of the object that has the fields `fields`. -/
  | afterField (fields : Fields) (frames : List Frame)
  /-- Nothing more: the value is read. -/
  | done (value : Json)

namespace Reader

/-- Gives a value that has just been read to the array or object it stands in. -/
def deliver (value : Json) : List Frame → Reader
  | [] => .done value
  | .array items :: frames => .afterItem (value :: items) frames
  | .object fields key :: frames => .afterField (fields.insert key value) frames

/-- Whether one more array or object may be opened. -/
def mayOpen (limit : Option Nat) (frames : List Frame) : Bool :=
  match limit with
  | none => true
  | some limit => frames.length < limit

/-- The token that begins a value. -/
def begin? (limit : Option Nat) (frames : List Frame) : Token → Option Reader
  | .null => some (deliver .null frames)
  | .bool b => some (deliver (.bool b) frames)
  | .number n => some (deliver (.number n) frames)
  | .string s => some (deliver (.string s) frames)
  | .beginArray => if mayOpen limit frames then some (.needItemOrEnd frames) else none
  | .beginObject => if mayOpen limit frames then some (.needKeyOrEnd frames) else none
  | _ => none

/-- One step of the reader. At most `limit` arrays and objects may be open. -/
def step (limit : Option Nat) : Reader → Token → Option Reader
  | .needValue frames, token => begin? limit frames token
  | .needItemOrEnd frames, .endArray => some (deliver (.array []) frames)
  | .needItemOrEnd frames, token => begin? limit (.array [] :: frames) token
  | .afterItem items frames, .valueSeparator => some (.needValue (.array items :: frames))
  | .afterItem items frames, .endArray => some (deliver (.array items.reverse) frames)
  | .needKeyOrEnd frames, .endObject => some (deliver (.object []) frames)
  | .needKeyOrEnd frames, .string key => some (.needColon [] key frames)
  | .needKey fields frames, .string key => some (.needColon fields key frames)
  | .needColon fields key frames, .nameSeparator => some (.needValue (.object fields key :: frames))
  | .afterField fields frames, .valueSeparator => some (.needKey fields frames)
  | .afterField fields frames, .endObject => some (deliver (.object fields) frames)
  | _, _ => none

/-- Runs the reader over tokens. -/
def run (limit : Option Nat) (reader : Reader) : List Token → Option Reader
  | [] => some reader
  | token :: rest =>
    match step limit reader token with
    | none => none
    | some next => run limit next rest

/-- The value, if it is complete. -/
def finish? : Reader → Option Json
  | .done value => some value
  | _ => none

end Reader

/-- The value that a sequence of tokens stands for. -/
def ofTokens? (limit : Option Nat) (tokens : List Token) : Option Json :=
  (Reader.run limit (.needValue []) tokens).bind Reader.finish?

/-- Reads a JSON text with at most `limit` arrays and objects open at once. -/
def read? (limit : Option Nat) (text : String) : Option Json :=
  (Token.ofChars? text.toList).bind (ofTokens? limit)

end SelectTree.Json
