import Deferral.Http.Server
import Deferral.Text.Json

/-!
The status report as text: in one line as it is sent, and in lines for people, sorted by key.
-/

namespace Deferral.Http.Status

def compact (s : Status) : String :=
  "\x7b\"version\":" ++ Text.jsonText s.version ++ ",\"in_flight\":" ++ toString s.inFlight ++
    ",\"pending\":" ++ Text.jsonTexts (s.pending.map Uuid.hyphenated) ++ ",\"routes\":" ++
    Text.jsonTexts s.routes ++ "\x7d"

def pretty (s : Status) : String :=
  "\x7b\n  \"in_flight\": " ++ toString s.inFlight ++ ",\n  \"pending\": " ++
    Text.jsonTextLines (s.pending.map Uuid.hyphenated) ++ ",\n  \"routes\": " ++
    Text.jsonTextLines s.routes ++ ",\n  \"version\": " ++ Text.jsonText s.version ++ "\n\x7d"

end Deferral.Http.Status
