import BuildInputs.Text.Quoted

/-!
# JSON output

The part of JSON that this library writes: texts, lists and objects, laid out over several lines
with two blanks for each level. Only quotes, backslashes and control characters are escaped.
-/

namespace BuildInputs

/-- A value to be written as JSON. -/
inductive Json
  | string (s : String)
  | array (items : List Json)
  | object (fields : List (String × Json))

namespace Json

/-- The form of a character inside a JSON string. -/
def escapeChar (c : Char) : String :=
  match c with
  | '"' => "\\\""
  | '\\' => "\\\\"
  | '\x08' => "\\b"
  | '\t' => "\\t"
  | '\n' => "\\n"
  | '\x0c' => "\\f"
  | '\r' => "\\r"
  | c =>
    if c.toNat < 16 then "\\u000" ++ Text.hexText c.toNat
    else if c.toNat < 32 then "\\u00" ++ Text.hexText c.toNat
    else c.toString

def quote (s : String) : String := "\"" ++ String.join (s.toList.map escapeChar) ++ "\""

/-- A new line at the given level. -/
def newline (level : Nat) : String := "\n" ++ String.ofList (List.replicate (2 * level) ' ')

/-- The items of a list or an object between brackets, each on a line of its own. -/
def block (opening closing : String) (level : Nat) (items : List String) : String :=
  if items.isEmpty then opening ++ closing
  else
    let lines := items.map fun item => newline (level + 1) ++ item
    opening ++ String.intercalate "," lines ++ newline level ++ closing

mutual

/-- The text of a value that starts on a line of the given level. -/
def render (level : Nat) : Json → String
  | string s => quote s
  | array items => block "[" "]" level (renderItems (level + 1) items)
  | object fields => block "\x7b" "\x7d" level (renderFields (level + 1) fields)

def renderItems (level : Nat) : List Json → List String
  | [] => []
  | v :: vs => render level v :: renderItems level vs

def renderFields (level : Nat) : List (String × Json) → List String
  | [] => []
  | (k, v) :: fields => (quote k ++ ": " ++ render level v) :: renderFields level fields

end

/-- The text of a value. -/
def text (v : Json) : String := render 0 v

end Json

end BuildInputs
