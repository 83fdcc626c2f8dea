import Recast.Json.Decode
import Recast.Json.Reader
/-!
# Documents — whole texts as values of the domain

A document is read as far as its decoder looks at it.  There its arrays and objects may nest
`documentLevels` deep.
-/
namespace Recast

def documentLevels : Nat := 127

/-- The value that a text encodes, `s` being what the decoder looks at. -/
def Decoder.ofDocument? {α : Type} (d : Decoder α) (s : Selection) (text : String) : Option α :=
  (Json.readSelected? s documentLevels text).bind d

end Recast
