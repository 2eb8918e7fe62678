/-!
# Text parameters

A text parameter of a command stands between double quotes. The module takes a quote, a comma or a
backslash in it for what it is when a backslash comes before it.
-/

namespace EspWifi

/-- The characters that need a backslash inside a text parameter. -/
def needsBackslash (c : Char) : Bool := c == '"' || c == ',' || c == '\\'

/-- Text with a backslash before each character that needs one. -/
def escapeChars : List Char → List Char
  | [] => []
  | c :: cs => if needsBackslash c then '\\' :: c :: escapeChars cs else c :: escapeChars cs

/-- **Text as it stands inside the quotes of a parameter.** -/
def escape (s : String) : String := String.ofList (escapeChars s.toList)

end EspWifi
