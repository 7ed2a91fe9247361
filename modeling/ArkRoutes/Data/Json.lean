import ArkRoutes.Text.Quoted

namespace ArkRoutes.Data

inductive Json where
  | bool (value : Bool)
  | string (value : String)
  | array (items : List Json)
  | object (fields : List (String × Json))

namespace Json

def fourDigits (n : Nat) : String :=
  let ds := Nat.toDigits 16 n
  String.ofList (List.replicate (4 - ds.length) '0' ++ ds)

def escapedChar (c : Char) : String :=
  if c = '"' then "\\\""
  else if c = '\\' then "\\\\"
  else if c = '\x08' then "\\b"
  else if c = '\x0c' then "\\f"
  else if c = '\n' then "\\n"
  else if c = '\r' then "\\r"
  else if c = '\t' then "\\t"
  else if c.toNat < 0x20 then "\\u" ++ fourDigits c.toNat
  else c.toString

def quote (s : String) : String := "\"" ++ String.join (s.toList.map escapedChar) ++ "\""

def newline (unit : String) (level : Nat) : String :=
  "\n" ++ String.join (List.replicate level unit)

mutual

def lines (unit : String) (level : Nat) : Json → String
  | bool b => if b then "true" else "false"
  | string s => quote s
  | array [] => "[]"
  | array (v :: rest) =>
    "[" ++ newline unit (level + 1) ++ lines unit (level + 1) v ++
      moreItems unit (level + 1) rest ++ newline unit level ++ "]"
  | object [] => "\x7b\x7d"
  | object ((k, v) :: rest) =>
    "\x7b" ++ newline unit (level + 1) ++ quote k ++ ": " ++ lines unit (level + 1) v ++
      moreFields unit (level + 1) rest ++ newline unit level ++ "\x7d"

def moreItems (unit : String) (level : Nat) : List Json → String
  | [] => ""
  | v :: rest => "," ++ newline unit level ++ lines unit level v ++ moreItems unit level rest

def moreFields (unit : String) (level : Nat) : List (String × Json) → String
  | [] => ""
  | (k, v) :: rest =>
    "," ++ newline unit level ++ quote k ++ ": " ++ lines unit level v ++
      moreFields unit level rest

end

def pretty (unit : String) (v : Json) : String := lines unit 0 v

end Json

end ArkRoutes.Data
