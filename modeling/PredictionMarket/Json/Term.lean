import PredictionMarket.Json.Token

/-!
# JSON texts as trees

`Term` is a JSON text with its punctuation taken away: members keep their order and may repeat,
and numbers stay as written. `Term.ofText?` reads a text with a machine that takes one token at a
time, and `Term.text` writes one.

## Main definitions

* `Json.Term`: the tree of a text.
* `Json.Reader.step`: the reading machine, whose states are what may come next.
* `Json.Term.ofText?`, `Json.Term.text`, `Json.Term.prettyText`: reading and writing.
-/

namespace PredictionMarket

namespace Json

/-- The tree of a JSON text. -/
inductive Term where
  | null
  | bool (b : Bool)
  | number (n : Number)
  | text (t : Text)
  | array (items : List Term)
  | object (members : List (Text × Term))
deriving Repr

/-- A container that is not closed yet, with what was read of it in reverse. -/
inductive Frame where
  /-- An array that waits for an item. -/
  | array (items : List Term)
  /-- An object that waits for the value of a key. -/
  | object (members : List (Text × Term)) (key : Text)

/-- What may come next in a text, inside the containers that are open. -/
inductive Reader where
  /-- A value. -/
  | value (frames : List Frame)
  /-- The first item of an array, or its end. -/
  | item (frames : List Frame)
  /-- The first key of an object, or its end. -/
  | member (frames : List Frame)
  /-- Another key of an object. -/
  | key (frames : List Frame) (members : List (Text × Term))
  /-- The colon after a key. -/
  | colon (frames : List Frame) (members : List (Text × Term)) (key : Text)
  /-- What goes on after a value, or the end of the text. -/
  | rest (frames : List Frame) (t : Term)

namespace Reader

/-- The first token of a value. -/
def begin? (frames : List Frame) : Token → Option Reader
  | .openArray => some (item frames)
  | .openObject => some (member frames)
  | .null => some (rest frames .null)
  | .bool b => some (rest frames (.bool b))
  | .number n => some (rest frames (.number n))
  | .text t => some (rest frames (.text t))
  | _ => none

/-- The token after a value, which belongs to the innermost container. -/
def resume? (t : Term) : List Frame → Token → Option Reader
  | .array items :: frames, .comma => some (value (.array (t :: items) :: frames))
  | .array items :: frames, .closeArray => some (rest frames (.array (t :: items).reverse))
  | .object members k :: frames, .comma => some (key frames ((k, t) :: members))
  | .object members k :: frames, .closeObject =>
    some (rest frames (.object ((k, t) :: members).reverse))
  | _, _ => none

/-- One token. -/
def step : Reader → Token → Option Reader
  | value frames, token => begin? frames token
  | item frames, .closeArray => some (rest frames (.array []))
  | item frames, token => begin? (.array [] :: frames) token
  | member frames, .closeObject => some (rest frames (.object []))
  | member frames, .text k => some (colon frames [] k)
  | key frames members, .text k => some (colon frames members k)
  | colon frames members k, .colon => some (value (.object members k :: frames))
  | rest frames t, token => resume? t frames token
  | _, _ => none

/-- The tree that was read, if nothing is open. -/
def finish? : Reader → Option Term
  | rest [] t => some t
  | _ => none

end Reader

namespace Term

/-- The tree of a sequence of tokens. -/
def ofTokens? (tokens : List Token) : Option Term :=
  (tokens.foldlM Reader.step (Reader.value [])).bind Reader.finish?

def ofText? (s : String) : Option Term :=
  (Token.ofText? s).bind ofTokens?

mutual

/-- The tokens of a tree. -/
def tokens : Term → List Token
  | null => [.null]
  | bool b => [.bool b]
  | number n => [.number n]
  | text t => [.text t]
  | array items => .openArray :: itemTokens items ++ [.closeArray]
  | object members => .openObject :: memberTokens members ++ [.closeObject]

/-- The tokens of items, with commas between them. -/
def itemTokens : List Term → List Token
  | [] => []
  | [t] => t.tokens
  | t :: ts => t.tokens ++ .comma :: itemTokens ts

/-- The tokens of members, with commas between them. -/
def memberTokens : List (Text × Term) → List Token
  | [] => []
  | [(k, t)] => .text k :: .colon :: t.tokens
  | (k, t) :: ms => .text k :: .colon :: t.tokens ++ .comma :: memberTokens ms

end

/-- The text of a tree without any space. -/
def compact (t : Term) : String :=
  String.ofList (t.tokens.flatMap Token.render)

/-- A new line, indented by two spaces for each level. -/
def newline (level : Nat) : List Char :=
  '\n' :: List.replicate (2 * level) ' '

mutual

/-- The characters of a tree with a line for every item and member. -/
def pretty (level : Nat) : Term → List Char
  | array [] => ['[', ']']
  | array (t :: ts) =>
    '[' :: newline (level + 1) ++ t.pretty (level + 1) ++ prettyItems (level + 1) ts ++
      newline level ++ [']']
  | object [] => ['\x7b', '\x7d']
  | object ((k, t) :: ms) =>
    '\x7b' :: newline (level + 1) ++ Token.renderText k ++ [':', ' '] ++ t.pretty (level + 1) ++
      prettyMembers (level + 1) ms ++ newline level ++ ['\x7d']
  | null => Token.render .null
  | bool b => Token.render (.bool b)
  | number n => Token.render (.number n)
  | text t => Token.render (.text t)

/-- Further items, each after a comma and on a line of its own. -/
def prettyItems (level : Nat) : List Term → List Char
  | [] => []
  | t :: ts => ',' :: newline level ++ t.pretty level ++ prettyItems level ts

/-- Further members, each after a comma and on a line of its own. -/
def prettyMembers (level : Nat) : List (Text × Term) → List Char
  | [] => []
  | (k, t) :: ms =>
    ',' :: newline level ++ Token.renderText k ++ [':', ' '] ++ t.pretty level ++
      prettyMembers level ms

end

/-- The text of a tree with a line for every item and member. -/
def prettyText (t : Term) : String :=
  String.ofList (t.pretty 0)

def ofString (s : String) : Term := text (some s)

def ofNat (n : Nat) : Term := number (.ofNat n)

/-- A sixty-four bit word. -/
def ofWord (w : UInt64) : Term := ofNat w.toNat

/-- The tree of a value that may be absent. -/
def ofOption {α : Type} (f : α → Term) : Option α → Term
  | some a => f a
  | none => null

/-- An object with plain keys. -/
def ofMembers (members : List (String × Term)) : Term :=
  object (members.map fun (k, t) => (some k, t))

end Term

end Json

end PredictionMarket
