namespace PhraseChart.Text

/-- Tabs, line ends, quotes, backslashes and the character zero get a letter of their own. Others
stand as they are if they are to be shown, or else by their code point in hexadecimal. -/
def escaped (shown : Char → Bool) (c : Char) : String :=
  if c = '\\' then "\\\\"
  else if c = '"' then "\\\""
  else if c = '\t' then "\\t"
  else if c = '\n' then "\\n"
  else if c = '\r' then "\\r"
  else if c.toNat = 0 then "\\0"
  else if shown c then String.singleton c
  else "\\u\x7b" ++ String.ofList (Nat.toDigits 16 c.toNat) ++ "\x7d"

def quoted (shown : Char → Bool) (s : String) : String :=
  "\"" ++ String.join (s.toList.map (escaped shown)) ++ "\""

end PhraseChart.Text
