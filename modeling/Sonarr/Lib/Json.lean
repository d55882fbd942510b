import Mathlib.Logic.Function.Basic

/-! The JSON text that Go's `encoding/json` writes. -/
namespace Sonarr.Lib.Json

def hexDigit (n : Nat) : Char := "0123456789abcdef".toList.getD n '0'

/-- `\uXXXX`, for code points of four digits. -/
def unicodeEscape (c : Char) : List Char :=
  '\\' :: 'u' :: [c.toNat / 4096, c.toNat / 256 % 16, c.toNat / 16 % 16, c.toNat % 16].map hexDigit

/-- Control characters are escaped, and so are those that matter in HTML. -/
def escape (c : Char) : List Char :=
  if c = '"' then ['\\', '"']
  else if c = '\\' then ['\\', '\\']
  else if c.toNat = 8 then ['\\', 'b']
  else if c.toNat = 12 then ['\\', 'f']
  else if c = '\n' then ['\\', 'n']
  else if c = '\r' then ['\\', 'r']
  else if c = '\t' then ['\\', 't']
  else if c.toNat < 32 ∨ c = '<' ∨ c = '>' ∨ c = '&' ∨ c.toNat = 0x2028 ∨ c.toNat = 0x2029 then
    unicodeEscape c
  else [c]

def quote (s : String) : String := "\"" ++ String.ofList (s.toList.flatMap escape) ++ "\""

example : quote "/tv/A & B" = "\"/tv/A \\u0026 B\"" := by decide

end Sonarr.Lib.Json
