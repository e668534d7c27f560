import FileServer.Text.Basic

/-!
# Fixed texts as bytes

Status lines, field names and fixed bodies are written in the source as string
literals and sent as UTF-8.
-/

namespace FileServer

/-- The UTF-8 bytes of a string. -/
def utf8 (string : String) : Bytes :=
  Text.bytes string.toList

end FileServer
