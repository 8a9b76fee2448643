import RecordService.Json

namespace RecordService

namespace Json

def hexDigit (n : Nat) : Char := (Nat.toDigits 16 n).headD '0'

def escaped (c : Char) : List Char :=
  if c = '"' then ['\\', '"']
  else if c = '\\' then ['\\', '\\']
  else if c.toNat < 32 then
    '\\' :: match c.toNat with
    | 8 => ['b']
    | 9 => ['t']
    | 10 => ['n']
    | 12 => ['f']
    | 13 => ['r']
    | n => ['u', '0', '0', hexDigit (n / 16), hexDigit (n % 16)]
  else [c]

def quoted (s : String) : String := String.ofList ('"' :: s.toList.flatMap escaped ++ ['"'])

mutual

def text : Json → String
  | .null => "null"
  | .bool b => if b then "true" else "false"
  | .num n => n.text
  | .str s => quoted s
  | .arr [] => "[]"
  | .arr (x :: xs) => "[" ++ x.text ++ itemsText xs ++ "]"
  | .obj [] => "\x7b\x7d"
  | .obj ((k, x) :: xs) => "\x7b" ++ quoted k ++ ":" ++ x.text ++ fieldsText xs ++ "\x7d"
termination_by structural v => v

def itemsText : List Json → String
  | [] => ""
  | x :: xs => "," ++ x.text ++ itemsText xs
termination_by structural xs => xs

def fieldsText : List (String × Json) → String
  | [] => ""
  | (k, x) :: xs => "," ++ quoted k ++ ":" ++ x.text ++ fieldsText xs
termination_by structural xs => xs

end

end Json

end RecordService
