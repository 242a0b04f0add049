import CliParity.Json.Token

/-!
# Reading JSON

The tokens of a document are read one by one. The reader's `State` says what may come next and holds
the containers that are still open, so a document may be nested to any depth. `read?` gives the
value of a text that is one document and nothing else.
-/

set_option autoImplicit false

namespace CliParity.Json

/-- A container that waits for a value, with what it holds so far, the last first. -/
inductive Frame
  | array (items : List Json)
  /-- The value will belong to `key`. -/
  | object (members : List (Content × Json)) (key : Content)

/-- What may come next. The frames are those of the containers further out, the inmost first. -/
inductive State
  /-- A value. -/
  | value (outer : List Frame)
  /-- The first item of an array, or its end. -/
  | firstItem (outer : List Frame)
  /-- A comma or the end of an array. -/
  | afterItem (items : List Json) (outer : List Frame)
  /-- The first key of an object, or its end. -/
  | firstKey (outer : List Frame)
  /-- Another key of an object. -/
  | nextKey (members : List (Content × Json)) (outer : List Frame)
  /-- The colon after a key. -/
  | colon (members : List (Content × Json)) (key : Content) (outer : List Frame)
  /-- A comma or the end of an object. -/
  | afterMember (members : List (Content × Json)) (outer : List Frame)
  /-- Nothing: the document is complete. -/
  | done (value : Json)

namespace State

/-- The state once a value is complete: it goes to the inmost container that waits for one. -/
def deliver (v : Json) : List Frame → State
  | [] => .done v
  | .array items :: outer => .afterItem (v :: items) outer
  | .object members key :: outer => .afterMember ((key, v) :: members) outer

/-- The state after the first token of a value. -/
def begin? (outer : List Frame) : Token → Option State
  | .scalar s => some (deliver (.scalar s) outer)
  | .openArray => some (.firstItem outer)
  | .openObject => some (.firstKey outer)
  | _ => none

/-- The state after one more token, if the token may come. -/
def step? : State → Token → Option State
  | .value outer, token => begin? outer token
  | .firstItem outer, .closeArray => some (deliver (.arr []) outer)
  | .firstItem outer, token => begin? (.array [] :: outer) token
  | .afterItem items outer, .comma => some (.value (.array items :: outer))
  | .afterItem items outer, .closeArray => some (deliver (.arr items.reverse) outer)
  | .firstKey outer, .closeObject => some (deliver (.obj []) outer)
  | .firstKey outer, .scalar (.str key) => some (.colon [] key outer)
  | .nextKey members outer, .scalar (.str key) => some (.colon members key outer)
  | .colon members key outer, .colon => some (.value (.object members key :: outer))
  | .afterMember members outer, .comma => some (.nextKey members outer)
  | .afterMember members outer, .closeObject => some (deliver (.obj members.reverse) outer)
  | _, _ => none

/-- The value of a complete document. -/
def result? : State → Option Json
  | .done v => some v
  | _ => none

end State

/-- The value that a sequence of tokens denotes. -/
def ofTokens? (tokens : List Token) : Option Json :=
  (tokens.foldlM State.step? (.value [])).bind State.result?

/-- The value of a document. -/
def read? (text : String) : Option Json := (tokens? text.toList).bind ofTokens?

end CliParity.Json
