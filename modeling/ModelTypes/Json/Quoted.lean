/-!
# Quoted JSON strings

A JSON string as written: in double quotes, with the short escapes where there are some and a code
for the other control characters below the space.
-/

namespace ModelTypes.Json

def encodeChar (c : Char) : List Char :=
  if c = '"' then ['\\', '"']
  else if c = '\\' then ['\\', '\\']
  else if c = '\x08' then ['\\', 'b']
  else if c = '\t' then ['\\', 't']
  else if c = '\n' then ['\\', 'n']
  else if c = '\x0c' then ['\\', 'f']
  else if c = '\r' then ['\\', 'r']
  else if c.toNat < 0x20 then
    ['\\', 'u', '0', '0', Nat.digitChar (c.toNat / 16), Nat.digitChar (c.toNat % 16)]
  else [c]

def encode (s : List Char) : List Char :=
  ['"'] ++ s.flatMap encodeChar ++ ['"']

end ModelTypes.Json
