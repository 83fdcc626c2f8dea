import Recast.Settings.Basic
import Recast.Json.Document
import Recast.Toml.Reader
/-!
# Loading settings — from JSON, from TOML text, from the bytes of a file

Every member has a default; one that is not known is refused, at both levels, so that a misspelt
setting is noticed.  A file that cannot be read, or whose bytes are not UTF-8, is a fault of its own.
-/
namespace Recast

namespace LogSettings

def encode (s : LogSettings) : Json := .object [("level", .string s.level), ("json", .bool s.json)]

def decode : Decoder LogSettings := fun j => do
  let ms ← j.members?
  if ms.within ["level", "json"] then
    let level ← ms.withDefault "level" ({} : LogSettings).level .string
    let json ← ms.withDefault "json" ({} : LogSettings).json .bool
    return ⟨level, json⟩
  else none

end LogSettings

/-- Why there are no settings. -/
inductive SettingsError
  | unreadable
  | malformed
deriving DecidableEq

namespace Settings

def encode (s : Settings) : Json :=
  .object [("remove_redundant_casts", .bool s.removeRedundantCasts),
    ("anonymous_class_bodies", .bool s.anonymousClassBodies), ("logging", s.logging.encode)]

def decode : Decoder Settings := fun j => do
  let ms ← j.members?
  if ms.within ["remove_redundant_casts", "anonymous_class_bodies", "logging"] then
    let removeRedundantCasts ← ms.withDefault "remove_redundant_casts" true .bool
    let anonymousClassBodies ← ms.withDefault "anonymous_class_bodies" true .bool
    let logging ← ms.withDefault "logging" {} LogSettings.decode
    return ⟨removeRedundantCasts, anonymousClassBodies, logging⟩
  else none

def ofJson? : String → Option Settings := decode.ofDocument? .everything

def ofToml (text : String) : Except SettingsError Settings :=
  match (Toml.read? text).bind decode with
  | some s => .ok s
  | none => .error .malformed

/-- From a file's bytes, or from none where it could not be read. -/
def ofFile (content : Option ByteArray) : Except SettingsError Settings :=
  match content.bind String.fromUTF8? with
  | some text => ofToml text
  | none => .error .unreadable

end Settings

end Recast
