import WasiHost.Json.Token

/-!
# JSON values

JSON values, read from and written to tokens. Reading keeps a stack of the arrays and objects that
are open and knows, between tokens, what may come next, so nesting has no limit. Members of objects
keep their order and may repeat a name. -/

namespace WasiHost

/-- A JSON value. -/
inductive Json where
  | null
  | bool (value : Bool)
  | integer (value : Int)
  /-- A number that is not an integer by its form. -/
  | real (numeral : String)
  | string (text : JsonText)
  | array (items : List Json)
  | object (members : List (JsonText × Json))
  deriving Inhabited

namespace Json

/-- The string with a given text. -/
def text (s : String) : Json :=
  string (some s)

/-- The object with given names and values, in order. -/
def record (members : List (String × Json)) : Json :=
  object (members.map fun (name, value) => (some name, value))

/-! ## Writing -/

mutual

/-- The tokens of a value. -/
def tokens : Json → List JsonToken
  | null => [.null]
  | bool value => [.bool value]
  | integer value => [.integer value]
  | real numeral => [.real numeral]
  | string text => [.string text]
  | array items => .openBracket :: itemTokens items ++ [.closeBracket]
  | object members => .openBrace :: memberTokens members ++ [.closeBrace]

/-- The tokens of the items of an array. -/
def itemTokens : List Json → List JsonToken
  | [] => []
  | [item] => item.tokens
  | item :: items => item.tokens ++ .comma :: itemTokens items

/-- The tokens of the members of an object. -/
def memberTokens : List (JsonText × Json) → List JsonToken
  | [] => []
  | [(name, value)] => .string name :: .colon :: value.tokens
  | (name, value) :: members =>
    .string name :: .colon :: value.tokens ++ .comma :: memberTokens members

end

/-- A value as text, without white space. -/
def render (value : Json) : String :=
  String.ofList (value.tokens.flatMap JsonToken.chars)

/-! ## Reading -/

/-- An array or an object that is open, with what has been read of it last first. -/
inductive Frame where
  | items (read : List Json)
  /-- The value of the member `name` is under way. -/
  | member (read : List (JsonText × Json)) (name : JsonText)

/-- What has been read of a text between two tokens. -/
inductive ReadState where
  /-- A value comes next. -/
  | value (stack : List Frame)
  /-- The first item of an array or its end comes next. -/
  | firstItem (stack : List Frame)
  /-- The first member of an object or its end comes next. -/
  | firstMember (stack : List Frame)
  /-- A member of an object comes next. -/
  | nextMember (read : List (JsonText × Json)) (stack : List Frame)
  /-- The colon after the name of a member comes next. -/
  | colon (read : List (JsonText × Json)) (name : JsonText) (stack : List Frame)
  /-- A comma or the end of the innermost frame comes next; the innermost frame holds the value. -/
  | after (frame : Frame) (value : Json) (stack : List Frame)
  /-- The whole value has been read. -/
  | done (value : Json)

/-- The state after a value has been read inside the given frames. -/
def complete (value : Json) : List Frame → ReadState
  | [] => .done value
  | frame :: stack => .after frame value stack

/-- Takes a token where a value begins. -/
def readFirst (stack : List Frame) : JsonToken → Option ReadState
  | .null => some (complete null stack)
  | .bool value => some (complete (bool value) stack)
  | .integer value => some (complete (integer value) stack)
  | .real numeral => some (complete (real numeral) stack)
  | .string text => some (complete (string text) stack)
  | .openBracket => some (.firstItem stack)
  | .openBrace => some (.firstMember stack)
  | .closeBracket | .closeBrace | .comma | .colon => none

/-- Takes a token. -/
def readStep (state : ReadState) (token : JsonToken) : Option ReadState :=
  match state with
  | .value stack => readFirst stack token
  | .firstItem stack =>
    if token = .closeBracket then some (complete (array []) stack)
    else readFirst (.items [] :: stack) token
  | .firstMember stack =>
    match token with
    | .closeBrace => some (complete (object []) stack)
    | .string name => some (.colon [] name stack)
    | _ => none
  | .nextMember read stack =>
    match token with
    | .string name => some (.colon read name stack)
    | _ => none
  | .colon read name stack =>
    if token = .colon then some (.value (.member read name :: stack)) else none
  | .after (.items read) value stack =>
    match token with
    | .comma => some (.value (.items (value :: read) :: stack))
    | .closeBracket => some (complete (array (value :: read).reverse) stack)
    | _ => none
  | .after (.member read name) value stack =>
    match token with
    | .comma => some (.nextMember ((name, value) :: read) stack)
    | .closeBrace => some (complete (object ((name, value) :: read).reverse) stack)
    | _ => none
  | .done _ => none

/-- Takes tokens one by one. -/
def readTokens (state : ReadState) : List JsonToken → Option ReadState
  | [] => some state
  | token :: rest =>
    match readStep state token with
    | none => none
    | some state => readTokens state rest

/-- The value whose tokens are given. -/
def ofTokens? (tokens : List JsonToken) : Option Json :=
  match readTokens (.value []) tokens with
  | some (.done value) => some value
  | _ => none

/-- The value that a text denotes. -/
def parse? (text : String) : Option Json :=
  match JsonToken.lex? text with
  | some tokens => ofTokens? tokens
  | none => none

/-! ## Looking into values -/

/-- The members of an object whose names are all texts. -/
def members? : List (JsonText × Json) → Option (List (String × Json))
  | [] => some []
  | (none, _) :: _ => none
  | (some name, value) :: rest => (members? rest).map ((name, value) :: ·)

/-- The value of a member that may be absent; the outer `none` is for a name that occurs twice. -/
def member? (members : List (String × Json)) (name : String) : Option (Option Json) :=
  match members.filter fun member => member.1 = name with
  | [] => some none
  | [member] => some (some member.2)
  | _ => none

/-- What a function reads from every item of a list, if it can read them all. -/
def readAll? {α : Type} (read : Json → Option α) : List Json → Option (List α)
  | [] => some []
  | item :: items =>
    match read item, readAll? read items with
    | some a, some rest => some (a :: rest)
    | _, _ => none

/-- The text of a string. -/
def asText? : Json → Option String
  | string text => text
  | _ => none

/-- The truth value. -/
def asBool? : Json → Option Bool
  | bool value => some value
  | _ => none

/-- The items of an array, each read by a function. -/
def asList? {α : Type} (read : Json → Option α) : Json → Option (List α)
  | array items => readAll? read items
  | _ => none

/-- The two items of an array, each read by a function. -/
def asPair? {α β : Type} (first : Json → Option α) (second : Json → Option β) :
    Json → Option (α × β)
  | array [a, b] =>
    match first a, second b with
    | some a, some b => some (a, b)
    | _, _ => none
  | _ => none

end Json

end WasiHost
