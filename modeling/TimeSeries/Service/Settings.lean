import TimeSeries.Cache.Settings.Document
import TimeSeries.Service.SocketAddress

/-!
# The settings of the service

Where the service listens and the settings of its cache, as a document with standard values for
whatever is missing.
-/

set_option autoImplicit false

namespace TimeSeries

open Json (Decoded Fields)

/-- Where the service listens, and how its cache is set. -/
structure ServiceSettings where
  address : SocketAddress
  cache : CacheSettings
  deriving DecidableEq, Repr, Inhabited

/-- Why a text does not hold settings. -/
inductive SettingsFault where
  /-- The text is not the document of any settings. -/
  | document (mistake : Json.Mistake)
  /-- The settings are out of their range. -/
  | value (failure : Failure)
  deriving DecidableEq, Repr

/-- An address in a document is its text. -/
def SocketAddress.ofJson (json : Json) : Decoded SocketAddress := do
  Json.required (ofText? (← json.toText))

namespace ServiceSettings

/-- The settings where nothing else is said: every interface, under the number 4242. -/
def standard : ServiceSettings := ⟨.version4 ⟨0, 0, 0, 0⟩ 4242, .standard⟩

/-- The fields of the settings. -/
def fields : Fields ServiceSettings where
  names := [["http_addr"], ["cache"]]
  take name json settings :=
    match name with
    | "http_addr" => return { settings with address := ← SocketAddress.ofJson json }
    | _ => return { settings with cache := ← CacheSettings.ofJson json }

/-- The settings in a document. -/
def ofJson : Json → Decoded ServiceSettings := fields.decode .standard

/-- The document of the settings, with every field. -/
def toJson (settings : ServiceSettings) : Json :=
  .record [("http_addr", .string settings.address.text), ("cache", settings.cache.toJson)]

/-- The settings in a text, if those of the cache are in their range. -/
def ofText (text : String) : Except SettingsFault ServiceSettings :=
  match Json.decodeText ofJson text with
  | .error mistake => .error (.document mistake)
  | .ok settings =>
      match settings.cache.validate with
      | .error failure => .error (.value failure)
      | .ok () => .ok settings

end ServiceSettings

end TimeSeries
