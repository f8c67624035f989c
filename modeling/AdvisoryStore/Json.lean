import AdvisoryStore.Bytes

/-!
# Strings in JSON

`escape` is what stands between the quotes when a byte string is written
as a JSON string. Quotes, backslashes and control bytes are escaped; line
feed, carriage return and tab have escapes of their own. Every other byte
is kept, so that UTF-8 stays UTF-8 and bytes that are not stay as they
are.
-/

namespace AdvisoryStore.Json

/-- A hexadecimal digit, in lower case. -/
def hexDigit (n : UInt8) : UInt8 := if n < 10 then 48 + n else 87 + n

/-- A byte as it stands inside a JSON string. -/
def escapeByte (b : UInt8) : Bytes :=
  if b = 34 then utf8 "\\\""
  else if b = 92 then utf8 "\\\\"
  else if b = 10 then utf8 "\\n"
  else if b = 13 then utf8 "\\r"
  else if b = 9 then utf8 "\\t"
  else if b < 32 then utf8 "\\u00" ++ [hexDigit (b / 16), hexDigit (b % 16)]
  else [b]

/-- **A byte string as it stands inside the quotes.** -/
def escape (text : Bytes) : Bytes := text.flatMap escapeByte

/-- A JSON string. -/
def quoted (text : Bytes) : Bytes := utf8 "\"" ++ escape text ++ utf8 "\""

/-- A member of a JSON object: its name, and the value as written. -/
def member (name : String) (value : Bytes) : Bytes := quoted (utf8 name) ++ utf8 ":" ++ value

/-- A JSON object with the given members. -/
def object (members : List Bytes) : Bytes :=
  utf8 "\x7b" ++ (members.intersperse (utf8 ",")).flatten ++ utf8 "\x7d"

end AdvisoryStore.Json
